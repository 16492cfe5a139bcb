import OtterWorks.Tickets.Dispatch

namespace OtterWorks.Tickets

def manualRedispatchGuardMs : Nat := 30000

inductive Operation
  | updateTicket (input : TicketUpdate)
  | addLabels (add remove : List String)
  | assign (assignee : String)
  | transition (status : Option Status)
  | applyDevinEvent (ev : InboundDevinEvent)
  | dispatchToDevin
  | deleteTicket
  deriving DecidableEq, Repr

/-- What `Date.now()` gives an operation at each place where it asks: before the first write, for the lease, for the
guard against a second dispatch, and twice before the write that follows a dispatch. -/
structure Clock where
  updatedAt : Nat
  claimedAt : Nat
  checkedAt : Nat
  dispatchedAt : Nat
  recordedAt : Nat
  deriving DecidableEq, Repr

/-- An operation with its readings of the clock, and how its outbound call ends if it makes one. -/
structure Job where
  op : Operation
  clock : Clock
  reply : Reply
  deriving DecidableEq, Repr

/-- The call on the ticket that an operation waits for. An edit that is to dispatch ends with its put: the dispatch that
it starts is an operation of its own, which begins with the lease. `read` is the ticket that was read before a put, and
`leased` whether the dispatch holds the lease. -/
inductive Turn
  | getTicket
  | putTicket (read t : Ticket) (before : Option Trigger)
  | deleteTicket
  | claimDispatch
  | dispatchTicket
  | claim (t : Ticket)
  | checkLease (t : Ticket)
  | getFresh (t : Ticket) (leased : Bool)
  | putFresh (read : Option Ticket) (t : Ticket) (leased : Bool)
  | finished
  deriving DecidableEq, Repr

namespace Turn

/-- Between two operations. -/
def rests : Turn → Bool
  | .getTicket => true
  | .claimDispatch => true
  | .finished => true
  | _ => false

/-- In a `dispatchToDevin`. -/
def dispatching : Turn → Bool
  | .dispatchTicket => true
  | .claim _ => true
  | .checkLease _ => true
  | .getFresh .. => true
  | .putFresh .. => true
  | _ => false

/-- In a dispatch that has taken the lease. -/
def leased : Turn → Bool
  | .dispatchTicket => true
  | .getFresh _ leased => leased
  | .putFresh _ _ leased => leased
  | _ => false

end Turn

def Operation.request : Operation → Option Request
  | .updateTicket input => some (.updateTicket input)
  | .addLabels add remove => some (.addLabels add remove)
  | .assign assignee => some (.assign assignee)
  | .transition status => some (.transition status)
  | .applyDevinEvent ev => some (.applyDevinEvent ev)
  | .dispatchToDevin => none
  | .deleteTicket => none

/-- The edit of an operation, on the ticket it has read. -/
def Operation.edit (op : Operation) (t : Ticket) (now : Nat) : Option (Ticket × Option Trigger) :=
  op.request.bind fun r => r.edit t now

/-- `maybeDispatch`, up to the lease. -/
def triggers (t : Ticket) (before : Option Trigger) : Bool :=
  before.any fun before => hasTrigger t && !before.had && !given t.devin.sessionId

/-- What a dispatch writes over the ticket it has read again. -/
def Job.record (job : Job) (project : Project) (fresh : Ticket) : Ticket :=
  { dispatched project (dispatch project job.reply) job.clock.dispatchedAt fresh with updatedAt := job.clock.recordedAt }

/-- "A dispatch for this ticket is already in flight". -/
def Job.turnedAway (job : Job) (cur : Ticket) : Bool :=
  cur.devin.dispatchedAt.any fun d => d ≠ 0 ∧ (job.clock.checkedAt : Int) - d < manualRedispatchGuardMs

/-- A call takes place and the operation goes on to its next one. -/
def access (project : Project) (job : Job) (ticket : Option Ticket) : Turn → Turn × Option Ticket
  | .getTicket =>
    match ticket with
    | none => (.finished, ticket)
    | some t =>
      match job.op with
      | .deleteTicket => (.deleteTicket, ticket)
      | .dispatchToDevin => (if given t.devin.sessionId then .getFresh t false else .claim t, ticket)
      | op =>
        match op.edit t job.clock.updatedAt with
        | none => (.finished, ticket)
        | some (edited, before) => (.putTicket t edited before, ticket)
  | .putTicket _ t before => (if triggers t before then .claimDispatch else .finished, some t)
  | .deleteTicket => (.finished, none)
  | .claimDispatch =>
    match claimDispatch ticket job.clock.claimedAt with
    | none => (.finished, ticket)
    | some t => (.dispatchTicket, some t)
  | .dispatchTicket =>
    match ticket with
    | none => (.finished, ticket)
    | some t => (.getFresh t true, ticket)
  | .claim t =>
    match claimDispatch ticket job.clock.claimedAt with
    | none => (.checkLease t, ticket)
    | some claimed => (.getFresh t true, some claimed)
  | .checkLease t => (if job.turnedAway (ticket.getD t) then .finished else .getFresh t false, ticket)
  | .getFresh t leased => (.putFresh ticket (job.record project (ticket.getD t)) leased, ticket)
  | .putFresh _ t _ => (.finished, some t)
  | .finished => (.finished, ticket)

/-- The calls that follow, as long as the operation is not over. -/
def settle (project : Project) (job : Job) : Nat → Turn × Option Ticket → Turn × Option Ticket
  | 0, at_ => at_
  | n + 1, at_ => if at_.1.rests then at_ else settle project job n (access project job at_.2 at_.1)

/-- One ticket and the operations on it. `refused` are the dispatches that an edit has started and that were refused
the lease while another one had it. -/
structure Desk where
  project : Project
  ticket : Option Ticket
  jobs : List (Job × Turn)
  refused : List Nat
  deriving DecidableEq, Repr

namespace Desk

def leased (s : Desk) : Bool := s.jobs.any fun h => h.2.leased

def refusedAfter (s : Desk) (i : Nat) (turn next : Turn) : List Nat :=
  match turn, next with
  | .claimDispatch, .finished => if s.leased then i :: s.refused else s.refused
  | .dispatchTicket, .finished => []
  | .putFresh .., _ => []
  | _, _ => s.refused

/-- The next call of an operation. -/
def step (s : Desk) (i : Nat) : Desk :=
  match s.jobs[i]? with
  | none => s
  | some (job, turn) =>
    let next := access s.project job s.ticket turn
    { s with ticket := next.2, jobs := s.jobs.set i (job, next.1), refused := s.refusedAfter i turn next.1 }

/-- An operation from its beginning to its end, alone. -/
def perform (s : Desk) (i : Nat) : Desk :=
  match s.jobs[i]? with
  | none => s
  | some (job, turn) =>
    let last := settle s.project job 4 (access s.project job s.ticket turn)
    { s with ticket := last.2, jobs := s.jobs.set i (job, last.1) }

def start (project : Project) (ticket : Option Ticket) (jobs : List Job) : Desk :=
  ⟨project, ticket, jobs.map fun job => (job, .getTicket), []⟩

def finished (s : Desk) : Bool := s.jobs.all fun h => h.2 = .finished

/-- Once all operations have ended, the ticket is the one that some order of them leaves, one at a time. -/
def SerialAt (s : Desk) (schedule : List Nat) : Prop :=
  (schedule.foldl step s).finished = true →
    ∃ order : List Nat, (order.foldl perform s).finished = true ∧
      (order.foldl perform s).ticket = (schedule.foldl step s).ticket

end Desk

end OtterWorks.Tickets
