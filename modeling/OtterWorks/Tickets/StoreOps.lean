import OtterWorks.Lib.Lockstep
import OtterWorks.Tickets.DynamoStore

namespace OtterWorks.Tickets

/-- The operations of a `Store`. -/
inductive StoreOp (Time : Type)
  | listProjects
  | getProject (key : String)
  | putProject (project : Project)
  | createProject (project : Project)
  | deleteProject (key : String)
  | nextTicketNumber (projectKey : String)
  | listTickets (projectKey : String)
  | listTicketsWithSessions
  | getTicket (key : String)
  | putTicket (ticket : Ticket)
  | claimDispatch (ticketKey : String) (now : Nat)
  | deleteTicket (ticket : Ticket)
  | listEntries (kind : Kind) (ticketKey : String)
  | addEntry (e : Entry Time)
  deriving DecidableEq, Repr

inductive StoreAnswer (Time : Type)
  | done
  | taken (ok : Bool)
  | number (n : Nat)
  | project (p : Option Project)
  | projects (ps : List Project)
  | ticket (t : Option Ticket)
  | tickets (ts : List Ticket)
  | entries (es : List (Entry Time))
  deriving DecidableEq, Repr

def LocalStore.step {Time Place : Type} [LinearOrder Time] (platform : StorePlatform Time Place) (d : LocalData Time) :
    StoreOp Time → LocalData Time × StoreAnswer Time
  | .listProjects => (d, .projects (listProjects platform d))
  | .getProject key => (d, .project (getProject d key))
  | .putProject project => (putProject d project, .done)
  | .createProject project => ((createProject d project).1, .taken (createProject d project).2)
  | .deleteProject key => (deleteProject d key, .done)
  | .nextTicketNumber key => ((nextTicketNumber d key).1, .number (nextTicketNumber d key).2)
  | .listTickets key => (d, .tickets (listTickets d key))
  | .listTicketsWithSessions => (d, .tickets (listTicketsWithSessions d))
  | .getTicket key => (d, .ticket (getTicket d key))
  | .putTicket ticket => (putTicket d ticket, .done)
  | .claimDispatch key now => ((claimDispatch d key now).1, .taken (claimDispatch d key now).2)
  | .deleteTicket ticket => (deleteTicket d ticket, .done)
  | .listEntries .comment key => (d, .entries (listComments d key))
  | .listEntries .event key => (d, .entries (listEvents d key))
  | .listEntries .delivery key => (d, .entries (listDeliveries d key))
  | .addEntry e =>
    match e.kind with
    | .comment => (addComment d e, .done)
    | .event => (addEvent d e, .done)
    | .delivery => (addDelivery d e, .done)

def DynamoStore.step {Time Place : Type} [LinearOrder Place] (platform : StorePlatform Time Place)
    (table : Table Time Place) : StoreOp Time → Table Time Place × StoreAnswer Time
  | .listProjects => (table, .projects (listProjects platform table))
  | .getProject key => (table, .project (getProject platform table key))
  | .putProject project => (putProject platform table project, .done)
  | .createProject project =>
    ((createProject platform table project).1, .taken (createProject platform table project).2)
  | .deleteProject key => (deleteProject platform table key, .done)
  | .nextTicketNumber key => ((nextTicketNumber platform table key).1, .number (nextTicketNumber platform table key).2)
  | .listTickets key => (table, .tickets (listTickets platform table key))
  | .listTicketsWithSessions => (table, .tickets (listTicketsWithSessions table))
  | .getTicket key => (table, .ticket (getTicket platform table key))
  | .putTicket ticket => (putTicket platform table ticket, .done)
  | .claimDispatch key now =>
    ((claimDispatch platform table key now).1, .taken (claimDispatch platform table key now).2)
  | .deleteTicket ticket => (deleteTicket platform table ticket, .done)
  | .listEntries .comment key => (table, .entries (listComments platform table key))
  | .listEntries .event key => (table, .entries (listEvents platform table key))
  | .listEntries .delivery key => (table, .entries (listDeliveries platform table key))
  | .addEntry e =>
    match e.kind with
    | .comment => (addComment platform table e, .done)
    | .event => (addEvent platform table e, .done)
    | .delivery => (addDelivery platform table e, .done)

/-- The names that every object inherits, which are no keys of its own. -/
def inheritedNames : List String :=
  ["constructor", "__defineGetter__", "__defineSetter__", "hasOwnProperty", "__lookupGetter__", "__lookupSetter__",
    "isPrototypeOf", "propertyIsEnumerable", "toString", "valueOf", "__proto__", "toLocaleString"]

/-- A ticket as `createTicket` makes it: its key says its project and its number. -/
structure Ticket.WellKeyed (t : Ticket) : Prop where
  project : isProjectKey t.projectKey.toList
  key : t.key = s!"{t.projectKey}-{t.number}"
  safe : t.number < 2 ^ 53

namespace StoreOp

variable {Time Place : Type}

/-- What the callers see to: projects and tickets have keys of their form, and the keys asked for, which are put in
upper case, are no inherited names. -/
def Sound : StoreOp Time → Prop
  | .putProject project => isProjectKey project.key.toList
  | .createProject project => isProjectKey project.key.toList
  | .putTicket ticket => ticket.WellKeyed
  | .deleteTicket ticket => ticket.WellKeyed
  | .getProject key => key ∉ inheritedNames
  | .nextTicketNumber key => key ∉ inheritedNames
  | .getTicket key => key ∉ inheritedNames
  | .claimDispatch key _ => key ∉ inheritedNames
  | _ => True

/-- A ticket to which a key leads by its project and its number. -/
def Addresses (key : String) (t : Ticket) : Prop :=
  projectKeyOf key = some t.projectKey ∧ ticketNumberOf key = some t.number

/-- Whether the two stores judge the lease of a ticket in the same way. -/
def LeaseAgrees (t : Ticket) (now : Nat) : Prop :=
  (t.devin.sessionId = none → ∀ dispatched, t.devin.dispatchedAt = some dispatched →
    now ≠ dispatched + dispatchLease ∧ (dispatched = 0 → dispatchLease < now)) ∧
  (t.devin.sessionId = some "" → LocalStore.leaseHeld t now)

/-- Whether the two stores judge a claim in the same way: a key that is not a ticket's own must not win it. -/
def ClaimFits (d : LocalData Time) (key : String) (now : Nat) : Prop :=
  ∀ t ∈ d.tickets, Addresses key t → if t.key = key then LeaseAgrees t now else DynamoStore.claimable t now = false

/-- Whether, for two entries of which the first came earlier, the order of their sort keys is that of their times. -/
def SortsAlike [LinearOrder Time] (platform : StorePlatform Time Place) (kind : Kind) (a b : Entry Time) : Prop :=
  (a.createdAt ≤ b.createdAt → platform.entrySk kind a < platform.entrySk kind b) ∧
    (b.createdAt < a.createdAt → platform.entrySk kind b < platform.entrySk kind a)

/-- Whether an operation is one on which the two stores agree. -/
def Agreed [LinearOrder Time] [LinearOrder Place] (platform : StorePlatform Time Place) (d : LocalData Time) :
    StoreOp Time → Prop
  | .listTickets key => ∀ a ∈ d.tickets, ∀ b ∈ d.tickets, a.projectKey = key → b.projectKey = key →
      a.number < b.number → padNumber a.number < padNumber b.number
  | .listTicketsWithSessions =>
    (∀ t ∈ d.tickets, t.devin.sessionId ≠ some "") ∧
      (LocalStore.listTicketsWithSessions d).Pairwise fun a b =>
        platform.ticketKey a.projectKey a.number < platform.ticketKey b.projectKey b.number
  | .getTicket key => ∀ t ∈ d.tickets, Addresses key t → t.key = key
  | .claimDispatch key now => ClaimFits d key now
  | .listEntries kind key =>
    ((d.entries kind).filter fun e => e.ticketKey = key).Pairwise (SortsAlike platform kind)
  | _ => True

end StoreOp

theorem padNumber_injective : Function.Injective padNumber := by
  intro m n h
  have value : ∀ n, Nat.ofDigitChars 10 (padNumber n) 0 = n := by
    intro n
    rw [padNumber, List.leftpad, Nat.ofDigitChars_append, Nat.ofDigitChars_replicate_zero, Nat.mul_zero,
      Nat.ofDigitChars_ten_toDigits]
  rw [← value m, h, value n]

/-- A project key has no dash. -/
theorem ne_dash_of_isProjectKey {key : Text} (h : isProjectKey key = true) : ∀ c ∈ key, c ≠ '-' := by
  have notDash : ∀ c : Char, (c.isUpper || c.isDigit) = true → c ≠ '-' := by
    intro c hc same
    rw [same] at hc
    exact absurd hc (by decide)
  cases key with
  | nil => simp
  | cons c cs =>
    rw [isProjectKey, Bool.and_eq_true, List.all_eq_true] at h
    intro x hx
    rcases List.mem_cons.mp hx with rfl | hx
    · exact notDash x (by rw [h.1, Bool.true_or])
    · exact notDash x (h.2 x hx)

namespace Ticket.WellKeyed

variable {t u : Ticket}

theorem toList_key (h : t.WellKeyed) : t.key.toList = t.projectKey.toList ++ '-' :: Nat.toDigits 10 t.number := by
  have text : t.key = t.projectKey ++ "-" ++ toString t.number := h.key
  rw [text]
  simp

/-- The key of a ticket is read back as its project and its number. -/
theorem keyParts_key (h : t.WellKeyed) : keyParts t.key = some (t.projectKey.toList, Nat.toDigits 10 t.number) := by
  have dashless : ∀ c ∈ t.projectKey.toList, decide (c ≠ '-') = true := by
    intro c hc
    exact decide_eq_true (ne_dash_of_isProjectKey h.project c hc)
  have project : t.key.toList.takeWhile (· ≠ '-') = t.projectKey.toList := by
    rw [h.toList_key, List.takeWhile_append_of_pos dashless]
    simp
  have digits : t.key.toList.dropWhile (· ≠ '-') = '-' :: Nat.toDigits 10 t.number := by
    rw [h.toList_key, List.dropWhile_append_of_pos dashless]
    simp
  have all : (Nat.toDigits 10 t.number).all Char.isDigit = true := by
    rw [List.all_eq_true]
    intro c hc
    exact Nat.isDigit_of_mem_toDigits (by decide) (by decide) hc
  have some : (Nat.toDigits 10 t.number).isEmpty = false := by
    rw [List.isEmpty_eq_false_iff]
    exact Nat.toDigits_ne_nil
  rw [keyParts, project, digits]
  simp [h.project, all, some]

theorem projectKeyOf_key (h : t.WellKeyed) : projectKeyOf t.key = some t.projectKey := by
  rw [projectKeyOf, h.keyParts_key, Option.map_some, String.ofList_toList]

theorem ticketNumberOf_key (h : t.WellKeyed) : ticketNumberOf t.key = some t.number := by
  rw [ticketNumberOf, h.keyParts_key, Option.map_some, Nat.ofDigitChars_ten_toDigits]

theorem addresses_key (h : t.WellKeyed) : StoreOp.Addresses t.key t := ⟨h.projectKeyOf_key, h.ticketNumberOf_key⟩

theorem key_eq_iff (ht : t.WellKeyed) (hu : u.WellKeyed) :
    t.key = u.key ↔ t.projectKey = u.projectKey ∧ t.number = u.number := by
  constructor
  · intro same
    have project := ht.projectKeyOf_key
    have number := ht.ticketNumberOf_key
    rw [same, hu.projectKeyOf_key] at project
    rw [same, hu.ticketNumberOf_key] at number
    exact ⟨(Option.some.inj project).symm, (Option.some.inj number).symm⟩
  · intro same
    rw [ht.key, hu.key, same.1, same.2]

end Ticket.WellKeyed

@[simp] theorem isPrefixOf_skPrefix (kind other : Kind) (rest : Text) :
    kind.skPrefix.isPrefixOf (other.skPrefix ++ rest) = decide (kind = other) := by
  cases kind <;> cases other <;> simp [Kind.skPrefix, text, List.isPrefixOf]

namespace StorePlatform

variable {Time Place : Type} (platform : StorePlatform Time Place)

@[simp] theorem projectPk_inj {a b : String} : projectPk a = projectPk b ↔ a = b := by simp [projectPk, String.toList_inj]

@[simp] theorem ticketPk_inj {a b : String} : ticketPk a = ticketPk b ↔ a = b := by simp [ticketPk, String.toList_inj]

@[simp] theorem projectPk_ne_ticketPk {a b : String} : projectPk a ≠ ticketPk b := by simp [projectPk, ticketPk, text]

@[simp] theorem itemKey_inj {pk pk' sk sk' : Text} :
    platform.itemKey pk sk = platform.itemKey pk' sk' ↔ pk = pk' ∧ sk = sk' := by
  simp [itemKey, platform.place_injective.eq_iff]

@[simp] theorem place_itemKey (pk sk : Text) : (platform.itemKey pk sk).place = platform.place pk := rfl

@[simp] theorem sk_itemKey (pk sk : Text) : (platform.itemKey pk sk).sk = sk := rfl

variable {platform}

@[simp] theorem metaKey_inj {a b : String} : platform.metaKey a = platform.metaKey b ↔ a = b := by simp [metaKey]

@[simp] theorem counterKey_inj {a b : String} : platform.counterKey a = platform.counterKey b ↔ a = b := by
  simp [counterKey]

@[simp] theorem ticketKey_inj {a b : String} {m n : Nat} :
    platform.ticketKey a m = platform.ticketKey b n ↔ a = b ∧ m = n := by
  simp [ticketKey, ticketSk, padNumber_injective.eq_iff]

@[simp] theorem metaKey_ne_counterKey {a b : String} : platform.metaKey a ≠ platform.counterKey b := by
  simp [metaKey, counterKey, text]

@[simp] theorem metaKey_ne_ticketKey {a b : String} {n : Nat} : platform.metaKey a ≠ platform.ticketKey b n := by
  simp [metaKey, ticketKey, ticketSk, text]

@[simp] theorem counterKey_ne_ticketKey {a b : String} {n : Nat} : platform.counterKey a ≠ platform.ticketKey b n := by
  simp [counterKey, ticketKey, ticketSk, text]

variable {kind other : Kind} {e f : Entry Time}

@[simp] theorem metaKey_ne_entryKey {a : String} : platform.metaKey a ≠ platform.entryKey kind e := by
  simp [metaKey, entryKey]

@[simp] theorem counterKey_ne_entryKey {a : String} : platform.counterKey a ≠ platform.entryKey kind e := by
  simp [counterKey, entryKey]

@[simp] theorem ticketKey_ne_entryKey {a : String} {n : Nat} : platform.ticketKey a n ≠ platform.entryKey kind e := by
  simp [ticketKey, entryKey]

theorem kind_eq_of_entryKey (h : platform.entryKey kind e = platform.entryKey other f) : kind = other := by
  have sk : platform.entrySk kind e = platform.entrySk other f := ((platform.itemKey_inj).mp h).2
  have starts := isPrefixOf_skPrefix kind other (platform.timeText f.createdAt ++ '#' :: f.id.toList)
  rw [← List.append_assoc] at starts
  have start := isPrefixOf_skPrefix kind kind (platform.timeText e.createdAt ++ '#' :: e.id.toList)
  rw [← List.append_assoc] at start
  rw [entrySk, entrySk] at sk
  rw [sk, starts] at start
  simpa using start

theorem entryKey_eq_iff : platform.entryKey kind e = platform.entryKey kind f ↔
    e.ticketKey = f.ticketKey ∧ platform.entrySk kind e = platform.entrySk kind f := by simp [entryKey]

section

variable [LinearOrder Place]

theorem itemKey_lt_iff {pk sk sk' : Text} : platform.itemKey pk sk < platform.itemKey pk sk' ↔ sk < sk' := by
  show toLex (platform.place pk, sk) < toLex (platform.place pk, sk') ↔ sk < sk'
  simp [Prod.Lex.toLex_lt_toLex]

theorem ticketKey_lt_iff {key : String} {m n : Nat} :
    platform.ticketKey key m < platform.ticketKey key n ↔ padNumber m < padNumber n := by
  rw [ticketKey, ticketKey, itemKey_lt_iff, ticketSk, ticketSk]
  simp [text]

end

end StorePlatform

end OtterWorks.Tickets
