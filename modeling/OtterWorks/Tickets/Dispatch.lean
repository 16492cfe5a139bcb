import OtterWorks.Tickets.Ticket

namespace OtterWorks.Tickets

def dispatchLeaseMs : Nat := 300000

/-- The labels and the assignee before a change. -/
structure Trigger where
  prevLabels : List String
  prevAssignee : Option String
  deriving DecidableEq, Repr

def Trigger.had (before : Trigger) : Bool :=
  before.prevLabels.contains devinLabel || before.prevAssignee = some devinAssignee

def hasTrigger (t : Ticket) : Bool := t.labels.contains devinLabel || t.assignee = devinAssignee

/-- The conditional update: the ticket under the new lease, or nothing where the condition fails. -/
def claimDispatch (ticket : Option Ticket) (time : Nat) : Option Ticket :=
  match ticket with
  | none => none
  | some t =>
    if t.devin.sessionId.isNone ∧ t.devin.dispatchedAt.all (fun d => (d : Int) < (time : Int) - dispatchLeaseMs) then
      some { t with devin := { t.devin with dispatchedAt := some time } }
    else none

structure Session where
  id : String
  url : String
  status : String
  deriving DecidableEq, Repr

/-- How the outbound call ends. -/
inductive Reply
  | session (s : Session)
  | accepted
  | failed
  deriving DecidableEq, Repr

structure DispatchResult where
  ok : Bool
  session : Option Session
  deriving DecidableEq, Repr

def dispatch (project : Project) (reply : Reply) : DispatchResult :=
  match project.dispatcher, reply with
  | .devinApi, .session s => ⟨true, some s⟩
  | .webhook, .accepted => ⟨true, none⟩
  | _, _ => ⟨false, none⟩

/-- What `dispatchToDevin` writes over the ticket it has read again. -/
def dispatched (project : Project) (result : DispatchResult) (now : Nat) (fresh : Ticket) : Ticket :=
  let devin := { fresh.devin with dispatcher := some project.dispatcher, dispatchedAt := some now }
  if result.ok then
    { fresh with
      devin := match result.session with
        | some s => { devin with sessionId := some s.id, sessionUrl := some s.url, status := some s.status }
        | none => { devin with status := devin.status.or (some "dispatched") }
      status := if fresh.status = .backlog ∨ fresh.status = .ready then .inProgress else fresh.status }
  else { fresh with devin := { devin with dispatchedAt := none }, updatedAt := now }

inductive Request
  | createTicket (input : NewTicket)
  | updateTicket (input : TicketUpdate)
  | addLabels (add remove : List String)
  | assign (assignee : String)
  | transition (status : Option Status)
  | applyDevinEvent (ev : InboundDevinEvent)
  deriving DecidableEq, Repr

/-- The ticket a request writes after it has read one, with what it compares for a dispatch; nothing where it
changes nothing or refuses. -/
def Request.edit (t : Ticket) (now : Nat) : Request → Option (Ticket × Option Trigger)
  | .createTicket _ => none
  | .updateTicket input =>
    if input.changes t then
      some ({ input.apply t with updatedAt := now }, some ⟨t.labels, some t.assignee⟩)
    else none
  | .addLabels add remove =>
    let labels := relabel t.labels add remove
    if sameLabels labels t.labels then none
    else some ({ t with labels := labels, updatedAt := now }, some ⟨t.labels, some t.assignee⟩)
  | .assign assignee =>
    if assignee = t.assignee then none
    else some ({ t with assignee := assignee, updatedAt := now }, some ⟨t.labels, some t.assignee⟩)
  | .transition none => none
  | .transition (some status) =>
    if t.status = status then none else some ({ t with status := status, updatedAt := now }, none)
  | .applyDevinEvent ev => if ev.changes t then some ({ ev.apply t with updatedAt := now }, none) else none

/-- The call a request waits for. A comment or an entry of the activity log is an item of its own: the wait for
one has a stage only where the clock is read after it. -/
inductive Stage
  | getProject
  | nextTicketNumber (project : Project)
  | getTicket
  | putTicket (t : Ticket) (before : Option Trigger)
  | addEvent (t : Ticket) (before : Trigger)
  | claimDispatch (time : Nat)
  | dispatchTicket
  | dispatchProject (t : Ticket)
  | dispatch (t : Ticket) (project : Project)
  | getFresh (t : Ticket) (project : Project) (result : DispatchResult)
  | addEvents (t : Ticket)
  | putFresh (t : Ticket)
  | finished
  deriving DecidableEq, Repr

structure Handler where
  request : Request
  stage : Stage
  deriving DecidableEq, Repr

/-- One ticket of a project and the requests on it. `claims` lists the leases that were taken, by request with the
time of each, and `sent` the requests whose dispatch was sent. -/
structure Tracker where
  project : Project
  number : Nat
  counter : Nat
  ticket : Option Ticket
  now : Nat
  handlers : List Handler
  claims : List (Nat × Nat)
  sent : List Nat
  deriving DecidableEq, Repr

/-- What can happen next: a request arrives, one goes on with its call, one fails there, or time passes. -/
inductive Event
  | request (r : Request)
  | next (i : Nat) (reply : Reply)
  | fail (i : Nat)
  | tick (ms : Nat)
  deriving DecidableEq, Repr

def Request.first : Request → Stage
  | .createTicket _ => .getProject
  | _ => .getTicket

namespace Tracker

def setStage (s : Tracker) (i : Nat) (r : Request) (stage : Stage) : Tracker :=
  { s with handlers := s.handlers.set i ⟨r, stage⟩ }

/-- What follows the activity entry of a change, up to the next call. -/
def maybeDispatch (now : Nat) (t : Ticket) (before : Trigger) : Stage :=
  if !hasTrigger t || before.had then .finished
  else if given t.devin.sessionId then .finished
  else .claimDispatch now

def afterPut (t : Ticket) : Option Trigger → Stage
  | none => .finished
  | some before => .addEvent t before

/-- The call of a request takes place and the request runs on to its next one. -/
def next (s : Tracker) (i : Nat) (reply : Reply) (r : Request) : Stage → Tracker
  | .getProject =>
    match r with
    | .createTicket input => s.setStage i r (if input.title = "" then .finished else .nextTicketNumber s.project)
    | _ => s.setStage i r .finished
  | .nextTicketNumber project =>
    let n := s.counter + 1
    let s := { s with counter := n }
    match r with
    | .createTicket input =>
      -- another number is another ticket
      s.setStage i r (if n = s.number then .putTicket (input.ticket project n s.now) (some ⟨[], none⟩) else .finished)
    | _ => s.setStage i r .finished
  | .getTicket =>
    match s.ticket.bind fun t => r.edit t s.now with
    | none => s.setStage i r .finished
    | some (t, before) => s.setStage i r (.putTicket t before)
  | .putTicket t before => { s.setStage i r (afterPut t before) with ticket := some t }
  | .addEvent t before => s.setStage i r (maybeDispatch s.now t before)
  | .claimDispatch time =>
    match claimDispatch s.ticket time with
    | none => s.setStage i r .finished
    | some t => { s.setStage i r .dispatchTicket with ticket := some t, claims := (i, time) :: s.claims }
  | .dispatchTicket =>
    match s.ticket with
    | none => s.setStage i r .finished
    | some t => s.setStage i r (.dispatchProject t)
  | .dispatchProject t => s.setStage i r (.dispatch t s.project)
  | .dispatch t project =>
    { s.setStage i r (.getFresh t project (Tickets.dispatch project reply)) with sent := i :: s.sent }
  | .getFresh t project result =>
    let fresh := dispatched project result s.now (s.ticket.getD t)
    s.setStage i r (if result.ok then .addEvents fresh else .putFresh fresh)
  | .addEvents t => s.setStage i r (.putFresh { t with updatedAt := s.now })
  | .putFresh t => { s.setStage i r .finished with ticket := some t }
  | .finished => s

def step (s : Tracker) : Event → Tracker
  | .request r => { s with handlers := s.handlers ++ [⟨r, r.first⟩] }
  | .next i reply =>
    match s.handlers[i]? with
    | none => s
    | some h => s.next i reply h.request h.stage
  | .fail i =>
    match s.handlers[i]? with
    | none => s
    | some h => s.setStage i h.request .finished
  | .tick ms => { s with now := s.now + ms }

/-- No request is under way. -/
def start (project : Project) (number counter : Nat) (ticket : Option Ticket) (now : Nat) : Tracker :=
  ⟨project, number, counter, ticket, now, [], [], []⟩

end Tracker

end OtterWorks.Tickets
