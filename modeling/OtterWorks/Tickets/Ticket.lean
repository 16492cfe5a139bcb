import Mathlib.Data.List.Basic
import Mathlib.Algebra.Order.Ring.Int

namespace OtterWorks.Tickets

inductive TicketType
  | story
  | bug
  | task
  deriving DecidableEq, Repr

inductive Priority
  | low
  | medium
  | high
  | critical
  deriving DecidableEq, Repr

inductive Status
  | backlog
  | ready
  | inProgress
  | inReview
  | done
  deriving DecidableEq, Repr

inductive DispatcherKind
  | devinApi
  | webhook
  | none
  deriving DecidableEq, Repr

structure Project where
  key : String
  repo : String
  dispatcher : DispatcherKind
  deriving DecidableEq, Repr

structure DevinLink where
  sessionId : Option String
  sessionUrl : Option String
  status : Option String
  dispatcher : Option DispatcherKind
  dispatchedAt : Option Nat
  seenMessageIds : List String
  lastMessage : Option String
  lastMessageAt : Option Nat
  deriving DecidableEq, Repr

def DevinLink.empty : DevinLink := ⟨none, none, none, none, none, [], none, none⟩

structure Ticket where
  key : String
  projectKey : String
  number : Nat
  title : String
  description : String
  type : TicketType
  priority : Priority
  status : Status
  labels : List String
  assignee : String
  repo : String
  branch : String
  prUrl : String
  devin : DevinLink
  createdAt : Nat
  updatedAt : Nat
  deriving DecidableEq, Repr

def devinLabel : String := "devin"

def devinAssignee : String := "devin"

/-- A text that is there and not empty. -/
def given (text : Option String) : Bool := text.any fun s => s ≠ ""

/-- The body of a `createTicket`, its texts trimmed and cut and its labels normalized; a value that is not one of
the allowed ones is left out. -/
structure NewTicket where
  title : String
  description : String
  type : Option TicketType
  priority : Option Priority
  status : Option Status
  labels : List String
  assignee : String
  repo : String
  branch : String
  prUrl : String
  deriving DecidableEq, Repr

def NewTicket.ticket (input : NewTicket) (project : Project) (n now : Nat) : Ticket where
  key := s!"{project.key}-{n}"
  projectKey := project.key
  number := n
  title := input.title
  description := input.description
  type := input.type.getD .story
  priority := input.priority.getD .medium
  status := input.status.getD .backlog
  labels := input.labels
  assignee := input.assignee
  repo := if input.repo ≠ "" then input.repo else project.repo
  branch := input.branch
  prUrl := input.prUrl
  devin := .empty
  createdAt := now
  updatedAt := now

/-- The body of an `updateTicket`: the fields it has, normalized in the same way. -/
structure TicketUpdate where
  title : Option String
  description : Option String
  type : Option TicketType
  priority : Option Priority
  labels : Option (List String)
  assignee : Option String
  repo : Option String
  branch : Option String
  prUrl : Option String
  status : Option Status
  deriving DecidableEq, Repr

/-- Labels are compared as they are joined. -/
def sameLabels (a b : List String) : Bool := ",".intercalate a = ",".intercalate b

namespace TicketUpdate

def apply (input : TicketUpdate) (t : Ticket) : Ticket :=
  { t with
    title := match input.title with
      | some v => if v ≠ "" then v else t.title
      | none => t.title
    description := input.description.getD t.description
    type := input.type.getD t.type
    priority := input.priority.getD t.priority
    labels := match input.labels with
      | some v => if sameLabels v t.labels then t.labels else v
      | none => t.labels
    assignee := input.assignee.getD t.assignee
    repo := input.repo.getD t.repo
    branch := input.branch.getD t.branch
    prUrl := input.prUrl.getD t.prUrl
    status := input.status.getD t.status }

/-- Whether any change is recorded; the last three texts are recorded whether or not they differ. -/
def changes (input : TicketUpdate) (t : Ticket) : Bool :=
  input.title.any (fun v => v ≠ "" && v ≠ t.title) || input.description.any (· ≠ t.description) ||
    input.type.any (· ≠ t.type) || input.priority.any (· ≠ t.priority) ||
    input.labels.any (fun v => !sameLabels v t.labels) || input.assignee.any (· ≠ t.assignee) ||
    input.status.any (· ≠ t.status) || input.repo.isSome || input.branch.isSome || input.prUrl.isSome

end TicketUpdate

/-- A label joins a set at its end, unless it is there. -/
def addLabel (labels : List String) (l : String) : List String := if labels.contains l then labels else labels ++ [l]

def relabel (labels add remove : List String) : List String :=
  (((labels ++ add).foldl addLabel []).filter fun l => !remove.contains l).take 20

/-- An inbound event; `messageId` is the id sent with the message, or the hash that stands for one, and `messageAt`
its time, or else the clock's. -/
structure InboundDevinEvent where
  sessionId : Option String
  sessionUrl : Option String
  status : Option String
  message : String
  messageId : String
  messageAt : Nat
  prUrl : String
  deriving DecidableEq, Repr

namespace InboundDevinEvent

/-- A text of the event that the link does not have yet. -/
def news (text old : Option String) : Bool := given text && text ≠ old

def messageIsNew (ev : InboundDevinEvent) (devin : DevinLink) : Bool :=
  ev.message ≠ "" && !devin.seenMessageIds.contains ev.messageId

def link (ev : InboundDevinEvent) (devin : DevinLink) : DevinLink :=
  { devin with
    sessionId := if news ev.sessionId devin.sessionId then ev.sessionId else devin.sessionId
    sessionUrl := if news ev.sessionUrl devin.sessionUrl then ev.sessionUrl else devin.sessionUrl
    status := if news ev.status devin.status then ev.status else devin.status
    seenMessageIds := if ev.messageIsNew devin then
        let seen := devin.seenMessageIds ++ [ev.messageId]
        seen.drop (seen.length - 500)
      else devin.seenMessageIds
    lastMessage := if ev.messageIsNew devin then some (String.ofList (ev.message.toList.take 500)) else devin.lastMessage
    lastMessageAt := if ev.messageIsNew devin then some ev.messageAt else devin.lastMessageAt }

def pullRequest (ev : InboundDevinEvent) (t : Ticket) : String := if ev.prUrl ≠ "" then ev.prUrl else t.prUrl

def finished (status : Option String) : Bool :=
  status = some "finished" || status = some "done" || status = some "completed"

/-- The status the event moves the ticket to, if it does. -/
def nextStatus (ev : InboundDevinEvent) (t : Ticket) : Option Status :=
  let prUrl := ev.pullRequest t
  let finalStatus := ev.status.or (ev.link t.devin).status
  if finished finalStatus ∧ prUrl ≠ "" ∧ t.status ≠ .done then some .done
  else if prUrl ≠ "" ∧ (t.status = .backlog ∨ t.status = .ready ∨ t.status = .inProgress) then some .inReview
  else if prUrl = "" ∧ (given ev.sessionId ∨ given ev.status) ∧ (t.status = .backlog ∨ t.status = .ready) then
    some .inProgress
  else none

def apply (ev : InboundDevinEvent) (t : Ticket) : Ticket :=
  { t with
    prUrl := ev.pullRequest t
    status := (ev.nextStatus t).getD t.status
    devin := ev.link t.devin }

def changes (ev : InboundDevinEvent) (t : Ticket) : Bool :=
  news ev.sessionId t.devin.sessionId || news ev.sessionUrl t.devin.sessionUrl || news ev.status t.devin.status ||
    ev.messageIsNew t.devin || (ev.prUrl ≠ "" && ev.prUrl ≠ t.prUrl) || (ev.nextStatus t).isSome

end InboundDevinEvent

end OtterWorks.Tickets
