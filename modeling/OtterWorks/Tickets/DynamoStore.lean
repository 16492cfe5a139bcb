import Mathlib.Data.Char
import Mathlib.Data.List.Lex
import Mathlib.Data.Prod.Lex
import OtterWorks.Lib.KeyMap
import OtterWorks.Tickets.LocalStore

namespace OtterWorks.Tickets

/-- An item without its two key attributes. -/
inductive Item (Time : Type)
  | project (p : Project)
  | counter (n : Nat)
  | ticket (t : Ticket)
  | entry (e : Entry Time)
  deriving DecidableEq, Repr

namespace Item

variable {Time : Type}

def project? : Item Time → Option Project
  | .project p => some p
  | _ => none

def counter? : Item Time → Option Nat
  | .counter n => some n
  | _ => none

def ticket? : Item Time → Option Ticket
  | .ticket t => some t
  | _ => none

def child? : Item Time → Option (Entry Time)
  | .entry e => some e
  | _ => none

end Item

/-- The place of a partition and the sort key in it. -/
structure ItemKey (Place : Type) where
  place : Place
  sk : Text
  deriving DecidableEq, Repr

namespace ItemKey

def lex {Place : Type} (k : ItemKey Place) : Place ×ₗ Text := toLex (k.place, k.sk)

theorem lex_injective {Place : Type} : Function.Injective (lex : ItemKey Place → Place ×ₗ Text) := by
  intro a b h
  have same := Prod.mk.inj (toLex.injective h)
  cases a
  cases b
  simp only [ItemKey.mk.injEq]
  exact same

instance {Place : Type} [LinearOrder Place] : LinearOrder (ItemKey Place) := LinearOrder.lift' lex lex_injective

instance {Place : Type} [LinearOrder Place] : Std.LawfulEqOrd (ItemKey Place) := ⟨compare_eq_iff_eq.mp⟩

end ItemKey

/-- A table, which a scan and a query read in the order of its keys. -/
abbrev Table (Time Place : Type) [LinearOrder Place] := KeyMap (ItemKey Place) (Item Time)

def Kind.skPrefix : Kind → Text
  | .comment => text "COMMENT#"
  | .event => text "EVENT#"
  | .delivery => text "WEBHOOK#"

namespace StorePlatform

variable {Time Place : Type} (platform : StorePlatform Time Place)

def itemKey (pk sk : Text) : ItemKey Place := ⟨platform.place pk, sk⟩

def projectPk (key : String) : Text := text "PROJECT#" ++ key.toList

def ticketPk (key : String) : Text := text "TICKET#" ++ key.toList

def ticketSk (n : Nat) : Text := text "TICKET#" ++ padNumber n

def entrySk (kind : Kind) (e : Entry Time) : Text :=
  kind.skPrefix ++ platform.timeText e.createdAt ++ '#' :: e.id.toList

def metaKey (key : String) : ItemKey Place := platform.itemKey (projectPk key) (text "META")

def counterKey (key : String) : ItemKey Place := platform.itemKey (projectPk key) (text "COUNTER")

def ticketKey (projectKey : String) (n : Nat) : ItemKey Place := platform.itemKey (projectPk projectKey) (ticketSk n)

def entryKey (kind : Kind) (e : Entry Time) : ItemKey Place :=
  platform.itemKey (ticketPk e.ticketKey) (platform.entrySk kind e)

end StorePlatform

namespace DynamoStore

open StorePlatform

variable {Time Place : Type} [LinearOrder Place] (platform : StorePlatform Time Place) (table : Table Time Place)

/-- Every page of a query of one partition, of the sort keys with a prefix. -/
def query (pk skPrefix : Text) : List (ItemKey Place × Item Time) :=
  table.toList.filter fun row => row.1.place = platform.place pk && skPrefix.isPrefixOf row.1.sk

/-- Every page of a scan with a filter. -/
def scan (p : Text → Item Time → Bool) : List (ItemKey Place × Item Time) :=
  table.toList.filter fun row => p row.1.sk row.2

/-- Batches of up to 25, each sent again until nothing of it is left. -/
def batchDelete (pk : Text) (sks : List Text) : Table Time Place := table.dropKeys (sks.map (platform.itemKey pk))

def listProjects : List Project :=
  ((scan table fun sk _ => sk = text "META").filterMap fun row => row.2.project?).insertionSort fun a b =>
    platform.localeLe a.key b.key

def getProject (key : String) : Option Project := table[platform.metaKey key]?.bind Item.project?

def putProject (project : Project) : Table Time Place := table.insert (platform.metaKey project.key) (.project project)

def createProject (project : Project) : Table Time Place × Bool :=
  if platform.metaKey project.key ∈ table then (table, false) else (putProject platform table project, true)

def listTickets (projectKey : String) : List Ticket :=
  (query platform table (projectPk projectKey) (text "TICKET#")).filterMap fun row => row.2.ticket?

def deleteTicket (ticket : Ticket) : Table Time Place :=
  let children := query platform table (ticketPk ticket.key) []
  (batchDelete platform table (ticketPk ticket.key) (children.map fun row => row.1.sk)).erase
    (platform.ticketKey ticket.projectKey ticket.number)

def deleteProject (key : String) : Table Time Place :=
  batchDelete platform ((listTickets platform table key).foldl (deleteTicket platform) table) (projectPk key)
    [text "META", text "COUNTER"]

def nextTicketNumber (projectKey : String) : Table Time Place × Nat :=
  let n := (table[platform.counterKey projectKey]?.bind Item.counter?).getD 0 + 1
  (table.insert (platform.counterKey projectKey) (.counter n), n)

def listTicketsWithSessions : List Ticket :=
  (scan table fun sk item => (text "TICKET#").isPrefixOf sk && item.ticket?.any fun t => t.devin.sessionId.isSome).filterMap
    fun row => row.2.ticket?

def getTicket (key : String) : Option Ticket :=
  match projectKeyOf key, ticketNumberOf key with
  | some pk, some n => table[platform.ticketKey pk n]?.bind Item.ticket?
  | _, _ => none

def putTicket (ticket : Ticket) : Table Time Place :=
  table.insert (platform.ticketKey ticket.projectKey ticket.number) (.ticket ticket)

/-- The condition of a claim on the ticket it is about. -/
def claimable (t : Ticket) (now : Nat) : Bool :=
  t.devin.sessionId.isNone && t.devin.dispatchedAt.all fun dispatched => decide (dispatched + dispatchLease < now)

def claimDispatch (key : String) (now : Nat) : Table Time Place × Bool :=
  match projectKeyOf key, ticketNumberOf key with
  | some pk, some n =>
    match table[platform.ticketKey pk n]?.bind Item.ticket? with
    | some t =>
      if claimable t now then
        (table.insert (platform.ticketKey pk n) (.ticket (LocalStore.claimed t now)), true)
      else (table, false)
    | none => (table, false)
  | _, _ => (table, false)

def listEntries (kind : Kind) (key : String) : List (Entry Time) :=
  (query platform table (ticketPk key) kind.skPrefix).filterMap fun row => row.2.child?

def addEntry (kind : Kind) (e : Entry Time) : Table Time Place := table.insert (platform.entryKey kind e) (.entry e)

def listComments (key : String) : List (Entry Time) := listEntries platform table .comment key

def addComment (comment : Entry Time) : Table Time Place := addEntry platform table .comment comment

def listEvents (key : String) : List (Entry Time) := listEntries platform table .event key

def addEvent (event : Entry Time) : Table Time Place := addEntry platform table .event event

def listDeliveries (key : String) : List (Entry Time) := listEntries platform table .delivery key

def addDelivery (delivery : Entry Time) : Table Time Place := addEntry platform table .delivery delivery

end DynamoStore

end OtterWorks.Tickets
