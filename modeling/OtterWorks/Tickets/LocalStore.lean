import Mathlib.Data.List.Sort
import OtterWorks.Lib.Text
import OtterWorks.Lib.Upsert
import OtterWorks.Tickets.Ticket

namespace OtterWorks.Tickets

inductive CommentSource
  | human
  | devin
  deriving DecidableEq, Repr

inductive DeliveryStatus
  | ok
  | failed
  deriving DecidableEq, Repr

/-- The three kinds of records below a ticket. -/
inductive Kind
  | comment
  | event
  | delivery
  deriving DecidableEq, Repr

/-- What a `Comment`, an `ActivityEvent` or a `WebhookDelivery` has of its own. -/
inductive Content
  | comment (author body : String) (source : CommentSource)
  | event (actor action : String) (detail : Option String)
  | delivery (dispatcher : DispatcherKind) (target : String) (status : DeliveryStatus) (attempts : Nat)
      (responseStatus : Option Nat) (error : Option String)
  deriving DecidableEq, Repr

def Content.kind : Content → Kind
  | .comment .. => .comment
  | .event .. => .event
  | .delivery .. => .delivery

structure Entry (Time : Type) where
  id : String
  ticketKey : String
  content : Content
  createdAt : Time
  deriving DecidableEq, Repr

def Entry.kind {Time : Type} (e : Entry Time) : Kind := e.content.kind

/-- How long a dispatch without a session blocks the next one, in milliseconds. -/
def dispatchLease : Nat := 5 * 60000

def padNumber (n : Nat) : Text := (Nat.toDigits 10 n).leftpad 6 '0'

/-- `[A-Z][A-Z0-9]*`. -/
def isProjectKey : Text → Bool
  | [] => false
  | c :: cs => c.isUpper && cs.all fun c => c.isUpper || c.isDigit

/-- The two groups of `^([A-Z][A-Z0-9]*)-(\d+)$`. -/
def keyParts (ticketKey : String) : Option (Text × Text) :=
  let project := ticketKey.toList.takeWhile (· ≠ '-')
  match ticketKey.toList.dropWhile (· ≠ '-') with
  | [] => none
  | _ :: digits =>
    if isProjectKey project && !digits.isEmpty && digits.all Char.isDigit then some (project, digits) else none

def projectKeyOf (ticketKey : String) : Option String := (keyParts ticketKey).map fun m => String.ofList m.1

/-- A number below `2 ^ 53` is read exactly; a larger one is rounded, but not to one below. -/
def ticketNumberOf (ticketKey : String) : Option Nat := (keyParts ticketKey).map fun m => Nat.ofDigitChars 10 m.2 0

/-- What the two stores take from their platforms: `localeCompare`, the text of a timestamp, and the place of a
partition in a scan, which goes by a hash of its key. -/
structure StorePlatform (Time Place : Type) where
  localeLe : String → String → Bool
  localeLe_total : ∀ a b, localeLe a b || localeLe b a
  localeLe_trans : ∀ a b c, localeLe a b → localeLe b c → localeLe a c
  localeLe_antisymm : ∀ a b, isProjectKey a.toList → isProjectKey b.toList → localeLe a b → localeLe b a → a = b
  timeText : Time → Text
  place : Text → Place
  place_injective : Function.Injective place

/-- The objects and arrays of the local store; an object lists its entries as they came. -/
structure LocalData (Time : Type) where
  projects : List Project
  counters : List (String × Nat)
  tickets : List Ticket
  comments : List (Entry Time)
  events : List (Entry Time)
  deliveries : List (Entry Time)
  deriving DecidableEq, Repr

def LocalData.empty {Time : Type} : LocalData Time := ⟨[], [], [], [], [], []⟩

def LocalData.entries {Time : Type} (d : LocalData Time) : Kind → List (Entry Time)
  | .comment => d.comments
  | .event => d.events
  | .delivery => d.deliveries

/-- `rows[key] = row`. -/
def setKey {α : Type} (key : α → String) (row : α) (rows : List α) : List α :=
  upsert (fun r => key r = key row) (fun _ => row) row rows

namespace LocalStore

variable {Time Place : Type} [LinearOrder Time] (platform : StorePlatform Time Place) (d : LocalData Time)

def listProjects : List Project := d.projects.insertionSort fun a b => platform.localeLe a.key b.key

def getProject (key : String) : Option Project := d.projects.find? fun p => p.key = key

def putProject (project : Project) : LocalData Time := { d with projects := setKey Project.key project d.projects }

def createProject (project : Project) : LocalData Time × Bool :=
  if d.projects.any fun p => p.key = project.key then (d, false) else (putProject d project, true)

def deleteTicket (ticket : Ticket) : LocalData Time :=
  { d with
    tickets := d.tickets.filter fun t => t.key ≠ ticket.key
    comments := d.comments.filter fun c => c.ticketKey ≠ ticket.key
    events := d.events.filter fun e => e.ticketKey ≠ ticket.key
    deliveries := d.deliveries.filter fun e => e.ticketKey ≠ ticket.key }

def deleteProject (key : String) : LocalData Time :=
  (d.tickets.filter fun t => t.projectKey = key).foldl deleteTicket
    { d with
      projects := d.projects.filter fun p => p.key ≠ key
      counters := d.counters.filter fun c => c.1 ≠ key }

def nextTicketNumber (projectKey : String) : LocalData Time × Nat :=
  let n := ((d.counters.find? fun c => c.1 = projectKey).map Prod.snd).getD 0 + 1
  ({ d with counters := setKey Prod.fst (projectKey, n) d.counters }, n)

def listTickets (projectKey : String) : List Ticket :=
  (d.tickets.filter fun t => t.projectKey = projectKey).insertionSort fun a b => a.number ≤ b.number

def listTicketsWithSessions : List Ticket := d.tickets.filter fun t => given t.devin.sessionId

def getTicket (key : String) : Option Ticket := d.tickets.find? fun t => t.key = key

def putTicket (ticket : Ticket) : LocalData Time := { d with tickets := setKey Ticket.key ticket d.tickets }

/-- A zero is no time of a dispatch. -/
def leaseHeld (t : Ticket) (now : Nat) : Bool :=
  t.devin.dispatchedAt.any fun dispatched => dispatched ≠ 0 && decide (now < dispatched + dispatchLease)

/-- The ticket after a dispatch has been claimed. -/
def claimed (t : Ticket) (now : Nat) : Ticket := { t with devin := { t.devin with dispatchedAt := some now } }

def claimDispatch (ticketKey : String) (now : Nat) : LocalData Time × Bool :=
  match getTicket d ticketKey with
  | none => (d, false)
  | some t =>
    if given t.devin.sessionId then (d, false)
    else if leaseHeld t now then (d, false)
    else (putTicket d (claimed t now), true)

/-- A stable sort by `createdAt`. -/
def byCreated (entries : List (Entry Time)) : List (Entry Time) :=
  entries.insertionSort fun a b => a.createdAt ≤ b.createdAt

def listEntries (kind : Kind) (ticketKey : String) : List (Entry Time) :=
  byCreated ((d.entries kind).filter fun e => e.ticketKey = ticketKey)

def listComments (ticketKey : String) : List (Entry Time) := listEntries d .comment ticketKey

def addComment (comment : Entry Time) : LocalData Time := { d with comments := d.comments ++ [comment] }

def listEvents (ticketKey : String) : List (Entry Time) := listEntries d .event ticketKey

def addEvent (event : Entry Time) : LocalData Time := { d with events := d.events ++ [event] }

def listDeliveries (ticketKey : String) : List (Entry Time) := listEntries d .delivery ticketKey

def addDelivery (delivery : Entry Time) : LocalData Time := { d with deliveries := d.deliveries ++ [delivery] }

end LocalStore

end OtterWorks.Tickets
