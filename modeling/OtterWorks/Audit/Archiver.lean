import OtterWorks.Lib.KeyMap
import OtterWorks.Lib.Slices
import OtterWorks.Lib.Text
import Mathlib.Data.List.Sort

namespace OtterWorks.Audit

/-- `DateTime`, with `ToString("O")` and `TryParse`. -/
structure DateText (Time : Type) where
  text : Time → Text
  parse : Text → Option Time
  minValue : Time
  le : Time → Time → Bool

/-- `DateTime`, where the parse undoes the text. -/
structure DateFormat (Time : Type) extends DateText Time where
  roundTrip : ∀ t, parse (text t) = some t

instance {Time : Type} : Coe (DateFormat Time) (DateText Time) := ⟨DateFormat.toDateText⟩

structure AuditEvent (Id Time : Type) where
  id : Id
  userId : Text
  action : Text
  resourceType : Text
  resourceId : Text
  details : Option (List (Text × Text))
  ipAddress : Option Text
  userAgent : Option Text
  timestamp : Time
  deriving DecidableEq, Repr

/-- The attributes of an item: the key `id`, and those that `MapToAuditEvent` looks for. -/
structure Item (Id : Type) where
  key : Id
  id : Option Id
  userId : Option Text
  action : Option Text
  resourceType : Option Text
  resourceId : Option Text
  timestamp : Option Text
  ipAddress : Option Text
  userAgent : Option Text
  details : Option (List (Text × Text))
  deriving DecidableEq, Repr

section

variable {Id Time : Type} (format : DateText Time)

/-- The item that `SaveEventAsync` puts. -/
def AuditEvent.item (e : AuditEvent Id Time) : Item Id where
  key := e.id
  id := some e.id
  userId := some e.userId
  action := some e.action
  resourceType := some e.resourceType
  resourceId := some e.resourceId
  timestamp := some (format.text e.timestamp)
  ipAddress := e.ipAddress
  userAgent := e.userAgent
  details := e.details.filter fun details => !details.isEmpty

def mapToAuditEvent (item : Item Id) : AuditEvent Id Time where
  id := item.id.getD item.key
  userId := item.userId.getD []
  action := item.action.getD []
  resourceType := item.resourceType.getD []
  resourceId := item.resourceId.getD []
  details := item.details
  ipAddress := item.ipAddress
  userAgent := item.userAgent
  timestamp := (item.timestamp.bind format.parse).getD format.minValue

/-- The filter `#ts >= :fromTs AND #ts <= :toTs`. -/
def Item.within (fromTs toTs : Text) (item : Item Id) : Bool :=
  item.timestamp.any fun ts => (compare fromTs ts).isLE && (compare ts toTs).isLE

end

/-- What an SQS message is read as: a file event, an audit event, or nothing that is saved. -/
inductive Message (Time : Type)
  | fileShared (ownerId fileId sharedWithUserId : Option Text) (timestamp : Option Time)
  | audit (userId action resourceType resourceId : Option Text) (details : Option (List (Text × Text)))
      (ipAddress userAgent : Option Text) (timestamp : Option Time)
  | unreadable
  deriving DecidableEq, Repr

/-- The event that `ProcessMessageAsync` saves. -/
def Message.entity {Id Time : Type} (messageId : Id) (utcNow : Time) : Message Time → Option (AuditEvent Id Time)
  | .fileShared ownerId fileId sharedWithUserId timestamp =>
    some ⟨messageId, ownerId.getD (text "system"), text "share", text "file", fileId.getD [],
      some [(text "sharedWithUserId", sharedWithUserId.getD [])], none, none, timestamp.getD utcNow⟩
  | .audit userId action resourceType resourceId details ipAddress userAgent timestamp =>
    some ⟨messageId, userId.getD (text "system"), action.getD (text "unknown"), resourceType.getD (text "unknown"),
      resourceId.getD [], details, ipAddress, userAgent, timestamp.getD utcNow⟩
  | .unreadable => none

structure AuditEventRequest where
  userId : Text
  action : Text
  resourceType : Text
  resourceId : Text
  details : Option (List (Text × Text))
  ipAddress : Option Text
  userAgent : Option Text
  deriving DecidableEq, Repr

/-- The event that `RecordEventAsync` saves, under a new id. -/
def AuditEventRequest.event {Id Time : Type} (request : AuditEventRequest) (newGuid : Id) (utcNow : Time) :
    AuditEvent Id Time :=
  ⟨newGuid, request.userId, request.action, request.resourceType, request.resourceId, request.details, request.ipAddress,
    request.userAgent, utcNow⟩

variable {Id Time : Type}

/-- Where a run of `ArchiveOldEventsAsync` stands: before a scan, before `PutObjectAsync`, before a
`BatchWriteItemAsync` that asks to delete the pending ids, or after its end. -/
inductive Phase (Id Time : Type)
  | scanning (lastEvaluatedKey : Option Id) (events : List (AuditEvent Id Time))
  | writing (events : List (AuditEvent Id Time))
  | deleting (events : List (AuditEvent Id Time)) (batches : List (List Id)) (pending : List Id)
      (retryCount totalFailed : Nat)
  | returned (archivedCount : Nat)
  | raised
  deriving DecidableEq

/-- A run, with the number of items that its calls removed from the table. -/
structure Run (Id Time : Type) where
  olderThan : Time
  phase : Phase Id Time
  removed : Nat
  deriving DecidableEq

/-- The table, the archive objects that were completely written, the runs, and the item last saved under each id. -/
structure State (Id Time : Type) [Ord Id] where
  table : KeyMap Id (Item Id)
  archives : List (List (AuditEvent Id Time))
  runs : List (Run Id Time)
  saved : Id → Option (Item Id)

/-- One call on a store, or the start of a run. A scan reads a page of some size; a batch delete leaves some ids
unprocessed; a call that fails may have taken effect, in part if it is a batch. -/
inductive Step (Id Time : Type)
  | record (request : AuditEventRequest) (newGuid : Id) (utcNow : Time)
  | deliver (messageId : Id) (message : Message Time) (utcNow : Time)
  | begin (olderThan : Time)
  | scan (run size : Nat)
  | put (run : Nat)
  | delete (run : Nat) (unprocessed : List Id)
  | fail (run : Nat) (written : Bool) (deleted : List Id)

/-- The ids of a run's next call on the table. -/
def Phase.pending : Phase Id Time → List Id
  | .deleting _ _ pending _ _ => pending
  | _ => []

/-- The events a run has written to its archive object and now deletes. -/
def Phase.copied : Phase Id Time → List (AuditEvent Id Time)
  | .deleting events _ _ _ _ => events
  | _ => []

/-- The next batch, or the end of the run. -/
def nextBatch (events : List (AuditEvent Id Time)) (totalFailed : Nat) : List (List Id) → Phase Id Time
  | [] => .returned (events.length - totalFailed)
  | batch :: batches => .deleting events batches batch 0 totalFailed

namespace State

section

variable [Ord Id] [Std.TransOrd Id] [DecidableEq Id] (format : DateFormat Time)

def empty : State Id Time := ⟨∅, [], [], fun _ => none⟩

def save (s : State Id Time) (e : AuditEvent Id Time) : State Id Time :=
  { s with
    table := s.table.insert e.id (e.item format)
    saved := fun id => if id = e.id then some (e.item format) else s.saved id }

def setPhase (s : State Id Time) (i : Nat) (run : Run Id Time) (phase : Phase Id Time) : State Id Time :=
  { s with runs := s.runs.set i { run with phase := phase } }

/-- A page of the scan, and what comes after it: another page, or the object, if any event was found. -/
def scanPage (s : State Id Time) (olderThan : Time) (lastEvaluatedKey : Option Id) (events : List (AuditEvent Id Time))
    (size : Nat) : Phase Id Time :=
  let rows := s.table.toList.filter fun row => lastEvaluatedKey.all fun last => compare last row.1 == .lt
  let page := rows.take size
  let found := page.filter fun row => row.2.within (format.text format.minValue) (format.text olderThan)
  let events := events ++ found.map fun row => mapToAuditEvent format row.2
  if page.length < size then
    if events.isEmpty then .returned 0
    else .writing (events.insertionSort fun a b => format.le b.timestamp a.timestamp = true)
  else .scanning ((page.getLast?.map Prod.fst).or lastEvaluatedKey) events

/-- The pending ids that are processed leave the table. -/
def remove (s : State Id Time) (i : Nat) (run : Run Id Time) (processed : List Id) (phase : Phase Id Time) :
    State Id Time :=
  { s with
    table := s.table.dropKeys processed
    runs := s.runs.set i ⟨run.olderThan, phase, run.removed + (processed.filter (· ∈ s.table)).length⟩ }

/-- A `BatchWriteItemAsync` and the loop around it: unprocessed ids are asked for again up to five times. -/
def deleteBatch (s : State Id Time) (i : Nat) (run : Run Id Time) (events : List (AuditEvent Id Time))
    (batches : List (List Id)) (pending : List Id) (retryCount totalFailed : Nat) (unprocessed : List Id) :
    State Id Time :=
  -- A batch that names an id twice is refused.
  if pending.Nodup then
    let left := pending.filter (· ∈ unprocessed)
    s.remove i run (pending.filter (· ∉ unprocessed))
      (if left ≠ [] ∧ retryCount < 5 then .deleting events batches left (retryCount + 1) totalFailed
      else nextBatch events (totalFailed + left.length) batches)
  else s.setPhase i run .raised

def step (s : State Id Time) : Step Id Time → State Id Time
  | .record request newGuid utcNow => s.save format (request.event newGuid utcNow)
  | .deliver messageId message utcNow =>
    match message.entity messageId utcNow with
    | none => s
    | some e => s.save format e
  | .begin olderThan => { s with runs := s.runs ++ [⟨olderThan, .scanning none [], 0⟩] }
  | .scan i size =>
    match s.runs[i]? with
    | none => s
    | some run =>
      match run.phase with
      | .scanning last events => s.setPhase i run (s.scanPage format run.olderThan last events size)
      | _ => s
  | .put i =>
    match s.runs[i]? with
    | none => s
    | some run =>
      match run.phase with
      | .writing events =>
        { s with archives := s.archives ++ [events] }.setPhase i run
          (nextBatch events 0 (slices 25 (events.map AuditEvent.id)))
      | _ => s
  | .delete i unprocessed =>
    match s.runs[i]? with
    | none => s
    | some run =>
      match run.phase with
      | .deleting events batches pending retryCount totalFailed =>
        s.deleteBatch i run events batches pending retryCount totalFailed unprocessed
      | _ => s
  | .fail i written deleted =>
    match s.runs[i]? with
    | none => s
    | some run =>
      match run.phase with
      | .scanning _ _ => s.setPhase i run .raised
      | .writing events => { s with archives := if written then s.archives ++ [events] else s.archives }.setPhase i run .raised
      | .deleting _ _ pending _ _ => s.remove i run (pending.filter (· ∈ deleted)) .raised
      | _ => s

/-- The state after the first `n` steps from an empty one. -/
def after (steps : List (Step Id Time)) (n : Nat) : State Id Time := (steps.take n).foldl (step format) empty

/-- No saved item is lost, and every run that returned reports what it removed. -/
structure Safe (s : State Id Time) : Prop where
  kept : ∀ id item, s.saved id = some item →
    s.table[id]? = some item ∨ ∃ object ∈ s.archives, ∃ e ∈ object, e.item format = item
  counted : ∀ run ∈ s.runs, ∀ archivedCount, run.phase = .returned archivedCount → archivedCount = run.removed

/-- Every id that the call of a run takes out of the table still has there the item that the run read. -/
def Undisturbed (s : State Id Time) : Step Id Time → Prop
  | .delete i unprocessed => ∀ run ∈ s.runs[i]?, ∀ id ∈ run.phase.pending, id ∉ unprocessed →
    ∃ e ∈ run.phase.copied, s.table[id]? = some (e.item format)
  | .fail i _ deleted => ∀ run ∈ s.runs[i]?, ∀ id ∈ run.phase.pending, id ∈ deleted → ∀ item ∈ s.table[id]?,
    ∃ e ∈ run.phase.copied, e.item format = item
  | _ => True

instance (s : State Id Time) (step : Step Id Time) : Decidable (s.Undisturbed format step) :=
  match step with
  | .delete i unprocessed => inferInstanceAs (Decidable (∀ run ∈ s.runs[i]?, ∀ id ∈ run.phase.pending,
    id ∉ unprocessed → ∃ e ∈ run.phase.copied, s.table[id]? = some (e.item format)))
  | .fail i _ deleted => inferInstanceAs (Decidable (∀ run ∈ s.runs[i]?, ∀ id ∈ run.phase.pending, id ∈ deleted →
    ∀ item ∈ s.table[id]?, ∃ e ∈ run.phase.copied, e.item format = item))
  | .record _ _ _ => isTrue trivial
  | .deliver _ _ _ => isTrue trivial
  | .begin _ => isTrue trivial
  | .scan _ _ => isTrue trivial
  | .put _ => isTrue trivial

end

end State

end OtterWorks.Audit
