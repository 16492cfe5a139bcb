import OtterWorks.Tickets.Operations
import OtterWorks.Lib.Transition
import OtterWorks.Lib.Dict

namespace OtterWorks.Tickets

/-! ### Tickets that differ in their lease -/

def Ticket.lease (t : Ticket) (time : Option Nat) : Ticket := { t with devin := { t.devin with dispatchedAt := time } }

section Leases

variable {t u : Ticket} {time : Option Nat} {now : Nat} {before : Option Trigger} {project : Project} {job : Job}

theorem lease_self (ticket : Option Ticket) : ∃ time, ticket = ticket.map fun t => t.lease time := by
  cases ticket with
  | none => exact ⟨none, rfl⟩
  | some t => exact ⟨t.devin.dispatchedAt, rfl⟩

theorem claimDispatch_eq_some {ticket : Option Ticket} (h : claimDispatch ticket now = some u) :
    ∃ t, ticket = some t ∧ t.devin.sessionId = none ∧ u = t.lease (some now) := by
  unfold claimDispatch at h
  split at h
  next => cases h
  next t =>
    split at h
    next free =>
      cases Option.some.inj h
      exact ⟨t, rfl, by simpa using free.1, rfl⟩
    next => cases h

/-- The lease is given by the session and the lease that the ticket has. -/
theorem claimDispatch_isSome_congr (session : u.devin.sessionId = t.devin.sessionId)
    (lease : u.devin.dispatchedAt = t.devin.dispatchedAt) :
    (claimDispatch (some u) now).isSome = (claimDispatch (some t) now).isSome := by
  unfold claimDispatch
  dsimp only
  rw [session, lease]
  split <;> rfl

/-- Edits do not look at the lease. -/
theorem Request.edit_lease (r : Request) (t : Ticket) (now : Nat) (time : Option Nat) :
    r.edit (t.lease time) now = (r.edit t now).map fun edited => (edited.1.lease time, edited.2) := by
  cases r with
  | createTicket input => rfl
  | updateTicket input =>
    unfold Request.edit
    have same : input.changes (t.lease time) = input.changes t := rfl
    dsimp only
    rw [same]
    split <;> rfl
  | addLabels add remove =>
    unfold Request.edit
    have same : (t.lease time).labels = t.labels := rfl
    dsimp only
    rw [same]
    split <;> rfl
  | assign assignee =>
    unfold Request.edit
    have same : (t.lease time).assignee = t.assignee := rfl
    dsimp only
    rw [same]
    split <;> rfl
  | transition status =>
    cases status with
    | none => rfl
    | some status =>
      unfold Request.edit
      have same : (t.lease time).status = t.status := rfl
      dsimp only
      rw [same]
      split <;> rfl
  | applyDevinEvent ev =>
    unfold Request.edit
    have same : ev.changes (t.lease time) = ev.changes t := rfl
    dsimp only
    rw [same]
    split <;> rfl

theorem Operation.edit_lease (op : Operation) (t : Ticket) (now : Nat) (time : Option Nat) :
    op.edit (t.lease time) now = (op.edit t now).map fun edited => (edited.1.lease time, edited.2) := by
  unfold Operation.edit
  cases op.request with
  | none => rfl
  | some r => exact r.edit_lease t now time

/-- An edit leaves the lease as it is, and a session that it attaches has an id. -/
theorem Request.edit_devin {r : Request} (h : r.edit t now = some (u, before)) :
    u.devin.dispatchedAt = t.devin.dispatchedAt ∧
      (u.devin.sessionId = t.devin.sessionId ∨ given u.devin.sessionId = true) := by
  have kept : u.devin = t.devin → u.devin.dispatchedAt = t.devin.dispatchedAt ∧
      (u.devin.sessionId = t.devin.sessionId ∨ given u.devin.sessionId = true) := by
    intro same
    rw [same]
    exact ⟨rfl, Or.inl rfl⟩
  cases r with
  | createTicket input => cases h
  | updateTicket input =>
    simp only [Request.edit, Option.ite_none_right_eq_some, Option.some.injEq, Prod.mk.injEq] at h
    obtain ⟨-, rfl, -⟩ := h
    exact kept rfl
  | addLabels add remove =>
    simp only [Request.edit, Option.ite_none_left_eq_some, Option.some.injEq, Prod.mk.injEq] at h
    obtain ⟨-, rfl, -⟩ := h
    exact kept rfl
  | assign assignee =>
    simp only [Request.edit, Option.ite_none_left_eq_some, Option.some.injEq, Prod.mk.injEq] at h
    obtain ⟨-, rfl, -⟩ := h
    exact kept rfl
  | transition status =>
    cases status with
    | none => cases h
    | some status =>
      simp only [Request.edit, Option.ite_none_left_eq_some, Option.some.injEq, Prod.mk.injEq] at h
      obtain ⟨-, rfl, -⟩ := h
      exact kept rfl
  | applyDevinEvent ev =>
    simp only [Request.edit, Option.ite_none_right_eq_some, Option.some.injEq, Prod.mk.injEq] at h
    obtain ⟨-, rfl, -⟩ := h
    refine ⟨rfl, ?_⟩
    change (ev.link t.devin).sessionId = _ ∨ given (ev.link t.devin).sessionId = true
    unfold InboundDevinEvent.link
    dsimp only
    split
    next news =>
      unfold InboundDevinEvent.news at news
      rw [Bool.and_eq_true] at news
      exact Or.inr news.1
    next => exact Or.inl rfl

theorem Operation.edit_devin {op : Operation} (h : op.edit t now = some (u, before)) :
    u.devin.dispatchedAt = t.devin.dispatchedAt ∧
      (u.devin.sessionId = t.devin.sessionId ∨ given u.devin.sessionId = true) := by
  obtain ⟨r, -, edited⟩ := Option.bind_eq_some_iff.mp h
  exact Request.edit_devin edited

theorem triggers_lease (t : Ticket) (time : Option Nat) (before : Option Trigger) :
    triggers (t.lease time) before = triggers t before := rfl

/-- What a dispatch writes does not depend on the lease that it finds. -/
theorem Job.record_lease (job : Job) (project : Project) (t : Ticket) (time : Option Nat) :
    job.record project (t.lease time) = job.record project t := by
  unfold Job.record dispatched
  dsimp only
  split <;> rfl

end Leases

/-! ### One operation alone -/

/-- A dispatch that reads this ticket and then has it to itself goes through. -/
def Job.passes (job : Job) (t : Ticket) : Prop :=
  given t.devin.sessionId = true ∨ (claimDispatch (some t) job.clock.claimedAt).isSome = true ∨
    job.op = .dispatchToDevin ∧ job.turnedAway t = false

section Alone

variable {project : Project} {job : Job} {t u : Ticket} {before : Option Trigger} {ticket : Option Ticket}

def alone (project : Project) (job : Job) (ticket : Option Ticket) (turn : Turn) : Turn × Option Ticket :=
  settle project job 4 (access project job ticket turn)

theorem alone_none : alone project job none .getTicket = (.finished, none) := rfl

theorem access_edit (op : job.op.request ≠ none) : access project job (some t) .getTicket =
    match job.op.edit t job.clock.updatedAt with
    | none => (.finished, some t)
    | some (edited, before) => (.putTicket t edited before, some t) := by
  unfold access
  dsimp only
  cases h : job.op with
  | deleteTicket => exact absurd (by rw [h]; rfl) op
  | dispatchToDevin => exact absurd (by rw [h]; rfl) op
  | _ => rfl

theorem alone_unchanged (op : job.op.request ≠ none) (edit : job.op.edit t job.clock.updatedAt = none) :
    alone project job (some t) .getTicket = (.finished, some t) := by
  unfold alone
  rw [access_edit op, edit]
  rfl

theorem alone_edit (edit : job.op.edit t job.clock.updatedAt = some (u, before)) :
    alone project job (some t) .getTicket = (if triggers u before then .claimDispatch else .finished, some u) := by
  have op : job.op.request ≠ none := by
    intro none
    unfold Operation.edit at edit
    rw [none] at edit
    cases edit
  unfold alone
  rw [access_edit op, edit]
  by_cases triggered : triggers u before = true
  · simp [settle, Turn.rests, access, triggered]
  · simp [settle, Turn.rests, access, triggered]

theorem alone_delete (op : job.op = .deleteTicket) : alone project job (some t) .getTicket = (.finished, none) := by
  simp [alone, access, op, settle, Turn.rests]

theorem alone_refused (refused : claimDispatch ticket job.clock.claimedAt = none) :
    alone project job ticket .claimDispatch = (.finished, ticket) := by
  simp [alone, access, refused, settle, Turn.rests]

/-- The dispatch that an edit has started, with the lease to take. -/
theorem alone_dispatch (claim : claimDispatch (some t) job.clock.claimedAt = some u) :
    alone project job (some t) .claimDispatch = (.finished, some (job.record project t)) := by
  obtain ⟨_, same, -, rfl⟩ := claimDispatch_eq_some claim
  cases same
  simp [alone, access, claim, settle, Turn.rests, Job.record_lease]

/-- An explicit dispatch that goes through. -/
theorem alone_explicit (op : job.op = .dispatchToDevin) (passes : job.passes t) :
    alone project job (some t) .getTicket = (.finished, some (job.record project t)) := by
  by_cases session : given t.devin.sessionId = true
  · simp [alone, access, op, session, settle, Turn.rests]
  · cases claim : claimDispatch (some t) job.clock.claimedAt with
    | some u =>
      obtain ⟨_, same, -, rfl⟩ := claimDispatch_eq_some claim
      cases same
      simp [alone, access, op, session, claim, settle, Turn.rests, Job.record_lease]
    | none =>
      have through : job.turnedAway t = false := by
        rcases passes with h | h | h
        · exact absurd h session
        · rw [claim] at h
          cases h
        · exact h.2
      simp [alone, access, op, session, claim, settle, Turn.rests, through]

theorem alone_turnedAway (op : job.op = .dispatchToDevin) (session : given t.devin.sessionId = false)
    (claim : claimDispatch (some t) job.clock.claimedAt = none) (away : job.turnedAway t = true) :
    alone project job (some t) .getTicket = (.finished, some t) := by
  simp [alone, access, op, session, claim, settle, Turn.rests, away]

end Alone

/-! ### Runs that some order explains -/

namespace Desk

/-- No dispatch is under way. -/
def idle (s : Desk) : Bool := s.jobs.all fun h => !h.2.dispatching

/-- What each call needs. An edit finds the ticket that it has read; dispatches do not overlap, except with one that is
refused the lease; a dispatch that is turned away finds no session attached; and one that goes through finds the ticket,
for one that an edit has started without a session, puts it back as it has read it, and writes what refuses whom it has
refused. -/
def FitsAt (s : Desk) (job : Job) : Turn → Prop
  | .getTicket => job.op = .dispatchToDevin → s.idle = true
  | .putTicket read _ _ => s.ticket = some read
  | .claimDispatch => s.idle = true ∨ claimDispatch s.ticket job.clock.claimedAt = none
  | .checkLease _ => ∀ t ∈ s.ticket, job.turnedAway t = true → given t.devin.sessionId = false
  | .getFresh _ _ => s.ticket ≠ none ∧ ∀ t ∈ s.ticket, job.op ≠ .dispatchToDevin → t.devin.sessionId = none
  | .putFresh read t _ => s.ticket = read ∧
      ∀ j ∈ s.refused, ∀ h ∈ s.jobs[j]?, claimDispatch (some t) h.1.clock.claimedAt = none
  | _ => True

def Fits (s : Desk) (i : Nat) : Prop := ∀ h ∈ s.jobs[i]?, s.FitsAt h.1 h.2

instance (s : Desk) (job : Job) : (turn : Turn) → Decidable (s.FitsAt job turn)
  | .getTicket => inferInstanceAs (Decidable (_ → _))
  | .putTicket read _ _ => inferInstanceAs (Decidable (s.ticket = some read))
  | .deleteTicket => inferInstanceAs (Decidable True)
  | .claimDispatch => inferInstanceAs (Decidable (_ ∨ _))
  | .dispatchTicket => inferInstanceAs (Decidable True)
  | .claim _ => inferInstanceAs (Decidable True)
  | .checkLease _ => inferInstanceAs (Decidable (∀ t ∈ s.ticket, _ → _))
  | .getFresh _ _ => inferInstanceAs (Decidable (s.ticket ≠ none ∧ ∀ t ∈ s.ticket, _ → _))
  | .putFresh read t _ => inferInstanceAs (Decidable (s.ticket = read ∧
      ∀ j ∈ s.refused, ∀ h ∈ s.jobs[j]?, claimDispatch (some t) h.1.clock.claimedAt = none))
  | .finished => inferInstanceAs (Decidable True)

instance (s : Desk) (i : Nat) : Decidable (s.Fits i) := inferInstanceAs (Decidable (∀ h ∈ s.jobs[i]?, _))

end Desk

/-- The turn that a dispatch begins with. -/
def Job.origin (job : Job) : Turn := if job.op = .dispatchToDevin then .getTicket else .claimDispatch

/-- Where a job stands when the operations take place one at a time: before its operation as long as that is under way,
and before its dispatch also while the one that refused it is. What a dispatch has found holds of the ticket there. -/
def Follows (refused : Prop) (job : Job) (project : Project) (ticket : Option Ticket) : Turn → Turn → Prop
  | .getTicket, next => next = .getTicket
  | .putTicket read t before, next => next = .getTicket ∧ job.op.edit read job.clock.updatedAt = some (t, before)
  | .deleteTicket, next => next = .getTicket ∧ job.op = .deleteTicket
  | .claimDispatch, next => next = .claimDispatch ∧ job.op ≠ .dispatchToDevin
  | .dispatchTicket, next => next = .claimDispatch ∧ job.op ≠ .dispatchToDevin ∧ ∀ t ∈ ticket, job.passes t
  | .claim _, next => next = .getTicket ∧ job.op = .dispatchToDevin
  | .checkLease _, next => next = .getTicket ∧ job.op = .dispatchToDevin ∧
      ∀ t ∈ ticket, given t.devin.sessionId = true ∨ claimDispatch (some t) job.clock.claimedAt = none
  | .getFresh _ _, next => next = job.origin ∧ ∀ t ∈ ticket, job.passes t
  | .putFresh read t _, next => next = job.origin ∧ (∀ t ∈ ticket, job.passes t) ∧
      ∃ fresh, read = some fresh ∧ t = job.record project fresh ∧
        (job.op ≠ .dispatchToDevin → fresh.devin.sessionId = none)
  | .finished, next => next = .finished ∨ refused ∧ next = .claimDispatch

/-- The ticket keeps its lease, and its session if none is attached. -/
def Kept (before after : Option Ticket) : Prop :=
  ∀ u ∈ after, ∃ t ∈ before, u.devin.dispatchedAt = t.devin.dispatchedAt ∧
    (u.devin.sessionId = t.devin.sessionId ∨ given u.devin.sessionId = true)

theorem Kept.refl (ticket : Option Ticket) : Kept ticket ticket := fun u hu => ⟨u, hu, rfl, Or.inl rfl⟩

theorem Job.passes.kept {job : Job} {t u : Ticket} (h : job.passes t)
    (lease : u.devin.dispatchedAt = t.devin.dispatchedAt)
    (session : u.devin.sessionId = t.devin.sessionId ∨ given u.devin.sessionId = true) : job.passes u := by
  rcases session with same | attached
  · rcases h with h | h | ⟨op, through⟩
    · rw [← same] at h
      exact Or.inl h
    · rw [← claimDispatch_isSome_congr same lease] at h
      exact Or.inr (Or.inl h)
    · refine Or.inr (Or.inr ⟨op, ?_⟩)
      unfold Job.turnedAway at through ⊢
      rw [lease]
      exact through
  · exact Or.inl attached

theorem Follows.kept {refused refused' : Prop} {job : Job} {project : Project} {ticket ticket' : Option Ticket}
    {turn next : Turn} (h : Follows refused job project ticket turn next)
    (kept : turn.dispatching = false ∨ Kept ticket ticket') (more : refused → refused') :
    Follows refused' job project ticket' turn next := by
  have passes : Kept ticket ticket' → (∀ t ∈ ticket, job.passes t) → ∀ t ∈ ticket', job.passes t := by
    intro kept passes u hu
    obtain ⟨t, ht, lease, session⟩ := kept u hu
    exact (passes t ht).kept lease session
  cases turn with
  | getTicket => exact h
  | putTicket read t before => exact h
  | deleteTicket => exact h
  | claimDispatch => exact h
  | claim t => exact h
  | finished => exact h.imp_right fun waits => ⟨more waits.1, waits.2⟩
  | dispatchTicket =>
    rcases kept with quiet | kept
    · cases quiet
    · exact ⟨h.1, h.2.1, passes kept h.2.2⟩
  | getFresh t leased =>
    rcases kept with quiet | kept
    · cases quiet
    · exact ⟨h.1, passes kept h.2⟩
  | putFresh read t leased =>
    rcases kept with quiet | kept
    · cases quiet
    · exact ⟨h.1, passes kept h.2.1, h.2.2⟩
  | checkLease t =>
    rcases kept with quiet | kept
    · cases quiet
    · refine ⟨h.1, h.2.1, ?_⟩
      intro u hu
      obtain ⟨t, ht, lease, session⟩ := kept u hu
      rcases session with same | attached
      · rcases h.2.2 t ht with session | refused
        · rw [← same] at session
          exact Or.inl session
        · refine Or.inr ?_
          rw [← Option.not_isSome_iff_eq_none, claimDispatch_isSome_congr same lease, refused]
          simp
      · exact Or.inl attached

/-- The run beside the one in which the operations take place one at a time: the tickets differ at most in a lease,
and in nothing while none is taken. -/
structure Sim (r s : Desk) : Prop where
  project : s.project = r.project
  length : s.jobs.length = r.jobs.length
  jobs : ∀ i job turn, r.jobs[i]? = some (job, turn) →
    ∃ next, s.jobs[i]? = some (job, next) ∧ Follows (i ∈ r.refused) job r.project s.ticket turn next
  ticket : ∃ time, s.ticket = r.ticket.map fun t => t.lease time
  same : r.leased = false → s.ticket = r.ticket
  single : ∀ (i j : Nat) (g h : Job × Turn), r.jobs[i]? = some g → r.jobs[j]? = some h →
    g.2.dispatching = true → h.2.dispatching = true → i = j
  refused : r.leased = false → r.refused = []
  waiting : ∀ i ∈ r.refused, ∃ job, r.jobs[i]? = some (job, .finished)

theorem Turn.dispatching_of_leased {turn : Turn} (h : turn.leased = true) : turn.dispatching = true := by
  cases turn with
  | dispatchTicket => rfl
  | getFresh t leased => rfl
  | putFresh read t leased => rfl
  | _ => cases h

theorem Desk.leased_iff {s : Desk} : s.leased = true ↔ ∃ (i : Nat) (h : Job × Turn), s.jobs[i]? = some h ∧ h.2.leased = true := by
  unfold Desk.leased
  rw [List.any_eq_true]
  constructor
  · rintro ⟨h, hmem, leased⟩
    obtain ⟨i, hi⟩ := List.mem_iff_getElem?.mp hmem
    exact ⟨i, h, hi, leased⟩
  · rintro ⟨i, h, hi, leased⟩
    exact ⟨h, List.mem_of_getElem? hi, leased⟩

theorem Desk.not_dispatching_of_idle {s : Desk} (idle : s.idle = true) {i : Nat} {h : Job × Turn}
    (there : s.jobs[i]? = some h) : h.2.dispatching = false := by
  have := List.all_eq_true.mp idle h (List.mem_of_getElem? there)
  simpa using this

theorem Desk.unleased_of_idle {s : Desk} (idle : s.idle = true) : s.leased = false := by
  rw [← Bool.not_eq_true, Desk.leased_iff]
  rintro ⟨i, h, there, leased⟩
  have quiet := Desk.not_dispatching_of_idle idle there
  rw [Turn.dispatching_of_leased leased] at quiet
  cases quiet

section Moves

variable {r s : Desk} {i : Nat} {job : Job} {turn turn' next : Turn} {x y : Option Ticket}

/-- Who else is in a dispatch once the turn of one job has changed. -/
theorem Sim.single_set (sim : Sim r s) (there : r.jobs[i]? = some (job, turn))
    (dispatching : turn'.dispatching = true → turn.dispatching = true ∨ r.idle = true) :
    ∀ (j k : Nat) (g h : Job × Turn), (r.jobs.set i (job, turn'))[j]? = some g → (r.jobs.set i (job, turn'))[k]? = some h →
      g.2.dispatching = true → h.2.dispatching = true → j = k := by
  have other : ∀ (k : Nat) (h : Job × Turn), k ≠ i → r.jobs[k]? = some h → h.2.dispatching = true → turn'.dispatching = true →
      False := by
    intro k h ne hk busy begun
    rcases dispatching begun with before | idle
    · exact ne (sim.single k i h (job, turn) hk there busy before)
    · rw [Desk.not_dispatching_of_idle idle hk] at busy
      cases busy
  intro j k g h hj hk gbusy hbusy
  rcases getElem?_of_set hj with ⟨rfl, rfl⟩ | ⟨nej, oldj⟩
  · rcases getElem?_of_set hk with ⟨rfl, rfl⟩ | ⟨nek, oldk⟩
    · rfl
    · exact absurd gbusy fun begun => other k h nek oldk hbusy begun
  · rcases getElem?_of_set hk with ⟨rfl, rfl⟩ | ⟨nek, oldk⟩
    · exact absurd hbusy fun begun => other j g nej oldj gbusy begun
    · exact sim.single j k g h oldj oldk gbusy hbusy

/-- A lease that is there now was there before, if this job has not taken it. -/
theorem leased_of_set {refused : List Nat} (there : r.jobs[i]? = some (job, turn)) (same : turn'.leased = turn.leased) :
    Desk.leased ⟨r.project, x, r.jobs.set i (job, turn'), refused⟩ = r.leased := by
  have iff : Desk.leased ⟨r.project, x, r.jobs.set i (job, turn'), refused⟩ = true ↔ r.leased = true := by
    rw [Desk.leased_iff, Desk.leased_iff]
    constructor
    · rintro ⟨j, h, hj, leased⟩
      rcases getElem?_of_set hj with ⟨rfl, rfl⟩ | ⟨-, old⟩
      · exact ⟨j, (job, turn), there, same.symm.trans leased⟩
      · exact ⟨j, h, old, leased⟩
    · rintro ⟨j, h, hj, leased⟩
      by_cases here : i = j
      · subst here
        rw [there] at hj
        cases hj
        exact ⟨i, (job, turn'), getElem?_set_here there, same.trans leased⟩
      · exact ⟨j, h, by rw [List.getElem?_set_ne here]; exact hj, leased⟩
  exact Bool.eq_iff_iff.mpr iff

theorem Sim.jobs_set (sim : Sim r s) (there : r.jobs[i]? = some (job, turn))
    (follows : ∀ next, Follows (i ∈ r.refused) job r.project s.ticket turn next →
      Follows (i ∈ r.refused) job r.project s.ticket turn' next) (j : Nat) (job' : Job) (turn'' : Turn)
    (h : (r.jobs.set i (job, turn'))[j]? = some (job', turn'')) :
    ∃ next, s.jobs[j]? = some (job', next) ∧ Follows (j ∈ r.refused) job' r.project s.ticket turn'' next := by
  rcases getElem?_of_set h with ⟨rfl, heq⟩ | ⟨-, old⟩
  · cases heq
    obtain ⟨next, hnext, hfollows⟩ := sim.jobs j job turn there
    exact ⟨next, hnext, follows next hfollows⟩
  · exact sim.jobs j job' turn'' old

/-- The jobs that were refused have ended, and stay so. -/
theorem Sim.waiting_set (sim : Sim r s) (there : r.jobs[i]? = some (job, turn)) (going : turn ≠ .finished) :
    ∀ j ∈ r.refused, ∃ job', (r.jobs.set i (job, turn'))[j]? = some (job', .finished) := by
  intro j hj
  obtain ⟨job', waits⟩ := sim.waiting j hj
  have ne : i ≠ j := by
    intro here
    subst here
    rw [there] at waits
    cases waits
    exact going rfl
  refine ⟨job', ?_⟩
  rw [List.getElem?_set_ne ne]
  exact waits

/-- A job goes on and nobody else sees it. -/
theorem Sim.quiet (sim : Sim r s) (there : r.jobs[i]? = some (job, turn)) (leased : turn'.leased = turn.leased)
    (dispatching : turn'.dispatching = true → turn.dispatching = true ∨ r.idle = true) (going : turn ≠ .finished)
    (follows : ∀ next, Follows (i ∈ r.refused) job r.project s.ticket turn next →
      Follows (i ∈ r.refused) job r.project s.ticket turn' next) :
    Sim { r with jobs := r.jobs.set i (job, turn') } s := by
  have same : Desk.leased { r with jobs := r.jobs.set i (job, turn') } = r.leased := leased_of_set there leased
  refine ⟨sim.project, by simpa using sim.length, ?_, sim.ticket, ?_, sim.single_set there dispatching, ?_, ?_⟩
  · exact sim.jobs_set there follows
  · rw [same]
    exact sim.same
  · rw [same]
    exact sim.refused
  · exact sim.waiting_set there going

/-- A dispatch takes the lease. -/
theorem Sim.claims (sim : Sim r s) (there : r.jobs[i]? = some (job, turn)) (unleased : r.leased = false) {u : Ticket}
    (claim : claimDispatch r.ticket job.clock.claimedAt = some u) (leased : turn'.leased = true)
    (dispatching : turn.dispatching = true ∨ r.idle = true)
    (follows : ∀ next, Follows (i ∈ r.refused) job r.project s.ticket turn next →
      Follows (i ∈ r.refused) job r.project s.ticket turn' next) :
    Sim { r with ticket := some u, jobs := r.jobs.set i (job, turn') } s := by
  have now : Desk.leased { r with ticket := some u, jobs := r.jobs.set i (job, turn') } = true :=
    Desk.leased_iff.mpr ⟨i, (job, turn'), getElem?_set_here there, leased⟩
  have none := sim.refused unleased
  refine ⟨sim.project, by simpa using sim.length, ?_, ?_, ?_, sim.single_set there fun _ => dispatching, ?_, ?_⟩
  · exact sim.jobs_set there follows
  · obtain ⟨t, ht, -, rfl⟩ := claimDispatch_eq_some claim
    refine ⟨t.devin.dispatchedAt, ?_⟩
    rw [sim.same unleased, ht]
    rfl
  · rw [now]
    intro h
    cases h
  · rw [now]
    intro h
    cases h
  · intro j hj
    change j ∈ r.refused at hj
    rw [none] at hj
    cases hj

/-- A dispatch is refused the lease while another one has it. -/
theorem Sim.refuses (sim : Sim r s) (there : r.jobs[i]? = some (job, .claimDispatch)) (leased : r.leased = true) :
    Sim { r with jobs := r.jobs.set i (job, .finished), refused := i :: r.refused } s := by
  have still : Desk.leased { r with jobs := r.jobs.set i (job, .finished), refused := i :: r.refused } = true := by
    rw [← leased]
    exact leased_of_set there rfl
  refine ⟨sim.project, by simpa using sim.length, ?_, sim.ticket, ?_, sim.single_set there (fun h => by cases h), ?_, ?_⟩
  · intro j job' turn'' h
    rcases getElem?_of_set h with ⟨rfl, heq⟩ | ⟨-, old⟩
    · cases heq
      obtain ⟨next, hnext, hfollows⟩ := sim.jobs j job .claimDispatch there
      exact ⟨next, hnext, Or.inr ⟨List.mem_cons_self, hfollows.1⟩⟩
    · obtain ⟨next, hnext, hfollows⟩ := sim.jobs j job' turn'' old
      exact ⟨next, hnext, hfollows.kept (Or.inr (Kept.refl _)) (List.mem_cons_of_mem i)⟩
  · rw [still]
    intro h
    cases h
  · rw [still]
    intro h
    cases h
  · intro j hj
    by_cases here : i = j
    · subst here
      exact ⟨job, getElem?_set_here there⟩
    · rcases List.mem_cons.mp hj with same | old
      · exact absurd same.symm here
      · obtain ⟨job', waits⟩ := sim.waiting j old
        exact ⟨job', by rw [List.getElem?_set_ne here]; exact waits⟩

/-- An operation that takes no part in a dispatch ends in both runs. -/
theorem Sim.both (sim : Sim r s) (there : r.jobs[i]? = some (job, turn)) (beside : s.jobs[i]? = some (job, next))
    (leased : turn.leased = false) (rests : turn' = .claimDispatch ∧ job.op ≠ .dispatchToDevin ∨ turn' = .finished)
    (going : turn ≠ .finished) (ticket : ∃ time, y = x.map fun t => t.lease time) (same : r.leased = false → y = x)
    (kept : Kept s.ticket y) :
    Sim { r with ticket := x, jobs := r.jobs.set i (job, turn') } { s with ticket := y, jobs := s.jobs.set i (job, turn') } := by
  have unleased' : turn'.leased = turn.leased := by
    rw [leased]
    rcases rests with ⟨rfl, -⟩ | rfl <;> rfl
  have still : Desk.leased { r with ticket := x, jobs := r.jobs.set i (job, turn') } = r.leased :=
    leased_of_set there unleased'
  have quiet : turn'.dispatching = false := by rcases rests with ⟨rfl, -⟩ | rfl <;> rfl
  refine ⟨sim.project, by simpa using sim.length, ?_, ticket, ?_, sim.single_set there ?_, ?_, ?_⟩
  · intro j job' turn'' h
    rcases getElem?_of_set h with ⟨rfl, heq⟩ | ⟨ne, old⟩
    · cases heq
      refine ⟨turn', getElem?_set_here beside, ?_⟩
      rcases rests with ⟨rfl, op⟩ | rfl
      · exact ⟨rfl, op⟩
      · exact Or.inl rfl
    · obtain ⟨next', hnext, hfollows⟩ := sim.jobs j job' turn'' old
      refine ⟨next', ?_, hfollows.kept (Or.inr kept) id⟩
      rw [List.getElem?_set_ne (Ne.symm ne)]
      exact hnext
  · rw [still]
    exact same
  · intro h
    rw [quiet] at h
    cases h
  · rw [still]
    exact sim.refused
  · exact sim.waiting_set there going

theorem Desk.perform_eq (there : s.jobs[i]? = some (job, turn)) : s.perform i =
    { s with
      ticket := (alone s.project job s.ticket turn).2
      jobs := s.jobs.set i (job, (alone s.project job s.ticket turn).1) } := by
  unfold Desk.perform
  rw [there]
  rfl

/-- Dispatches that are still refused the lease end as they are performed, and change nothing. -/
theorem Desk.perform_refused (losers : List Nat) : ∀ s : Desk,
    (∀ j ∈ losers, ∃ job turn, s.jobs[j]? = some (job, turn) ∧ (turn = .finished ∨ turn = .claimDispatch) ∧
      claimDispatch s.ticket job.clock.claimedAt = none) →
    (losers.foldl Desk.perform s).project = s.project ∧ (losers.foldl Desk.perform s).ticket = s.ticket ∧
      (losers.foldl Desk.perform s).jobs.length = s.jobs.length ∧
      ∀ j, (losers.foldl Desk.perform s).jobs[j]? =
        (s.jobs[j]?).map fun h => if j ∈ losers then (h.1, .finished) else h := by
  induction losers with
  | nil =>
    intro s _
    exact ⟨rfl, rfl, rfl, by simp⟩
  | cons i losers ih =>
    intro s waits
    obtain ⟨job, turn, there, rests, refused⟩ := waits i List.mem_cons_self
    have ended : alone s.project job s.ticket turn = (.finished, s.ticket) := by
      rcases rests with rfl | rfl
      · rfl
      · exact alone_refused refused
    have first : s.perform i = { s with jobs := s.jobs.set i (job, .finished) } := by
      rw [Desk.perform_eq there, ended]
    obtain ⟨hproject, hticket, hlength, hjobs⟩ := ih (s.perform i) (by
      intro j hj
      obtain ⟨job', turn', there', rests', refused'⟩ := waits j (List.mem_cons_of_mem i hj)
      rw [first]
      by_cases here : i = j
      · subst here
        rw [there] at there'
        cases there'
        exact ⟨job, .finished, getElem?_set_here there, Or.inl rfl, refused⟩
      · exact ⟨job', turn', by rw [List.getElem?_set_ne here]; exact there', rests', refused'⟩)
    rw [List.foldl_cons]
    refine ⟨by rw [hproject, first], by rw [hticket, first], by rw [hlength, first]; simp, ?_⟩
    intro j
    rw [hjobs j, first]
    by_cases here : i = j
    · subst here
      rw [getElem?_set_here there, there]
      simp
    · rw [List.getElem?_set_ne here]
      cases s.jobs[j]? with
      | none => rfl
      | some h =>
        have iff : j ∈ i :: losers ↔ j ∈ losers := by simp [Ne.symm here]
        simp [iff]

/-- A dispatch ends, and after it those that it has refused. -/
theorem Sim.ends (sim : Sim r s) (there : r.jobs[i]? = some (job, turn)) (dispatching : turn.dispatching = true)
    (beside : s.jobs[i]? = some (job, next)) (performed : alone s.project job s.ticket next = (.finished, x))
    (still : ∀ j ∈ r.refused, ∀ h ∈ r.jobs[j]?, claimDispatch x h.1.clock.claimedAt = none) :
    Sim { r with ticket := x, jobs := r.jobs.set i (job, .finished), refused := [] }
      ((i :: r.refused).foldl Desk.perform s) := by
  have first : s.perform i = { s with ticket := x, jobs := s.jobs.set i (job, .finished) } := by
    rw [Desk.perform_eq beside, performed]
  have notRefused : i ∉ r.refused := by
    intro hi
    obtain ⟨job', waits⟩ := sim.waiting i hi
    rw [there] at waits
    cases waits
    cases dispatching
  obtain ⟨hproject, hticket, hlength, hjobs⟩ := Desk.perform_refused r.refused (s.perform i) (by
    intro j hj
    have ne : i ≠ j := fun same => notRefused (same ▸ hj)
    obtain ⟨job', waits⟩ := sim.waiting j hj
    obtain ⟨next', hnext, hfollows⟩ := sim.jobs j job' .finished waits
    refine ⟨job', next', ?_, hfollows.imp_right And.right, ?_⟩
    · rw [first, List.getElem?_set_ne ne]
      exact hnext
    · rw [first]
      exact still j hj _ waits)
  have unleased : Desk.leased { r with ticket := x, jobs := r.jobs.set i (job, .finished), refused := [] } = false := by
    rw [← Bool.not_eq_true, Desk.leased_iff]
    rintro ⟨j, h, hj, leased⟩
    rcases getElem?_of_set hj with ⟨rfl, rfl⟩ | ⟨ne, old⟩
    · cases leased
    · exact ne (sim.single j i h (job, turn) old there (Turn.dispatching_of_leased leased) dispatching)
  rw [List.foldl_cons]
  have ticket : (r.refused.foldl Desk.perform (s.perform i)).ticket = x := by rw [hticket, first]
  refine ⟨?_, ?_, ?_, ?_, fun _ => ticket, sim.single_set there (fun h => by cases h), fun _ => rfl, ?_⟩
  · rw [hproject, first]
    exact sim.project
  · rw [hlength, first]
    simpa using sim.length
  · intro j job' turn' h
    rw [hjobs j, first]
    rcases getElem?_of_set h with ⟨rfl, heq⟩ | ⟨ne, old⟩
    · cases heq
      refine ⟨.finished, ?_, Or.inl rfl⟩
      rw [getElem?_set_here beside]
      simp
    · obtain ⟨next', hnext, hfollows⟩ := sim.jobs j job' turn' old
      rw [List.getElem?_set_ne (Ne.symm ne), hnext]
      by_cases loser : j ∈ r.refused
      · obtain ⟨_, waits⟩ := sim.waiting j loser
        rw [old] at waits
        cases waits
        exact ⟨.finished, by simp [loser], Or.inl rfl⟩
      · refine ⟨next', by simp [loser], ?_⟩
        have quiet : turn'.dispatching = false := by
          rw [← Bool.not_eq_true]
          intro busy
          exact ne (sim.single j i (job', turn') (job, turn) old there busy dispatching)
        exact hfollows.kept (Or.inl quiet) fun waits => absurd waits loser
  · rw [ticket]
    exact lease_self x
  · intro j hj
    cases hj

/-! ### One call -/

theorem Desk.step_eq (there : r.jobs[i]? = some (job, turn)) (called : access r.project job r.ticket turn = (turn', x)) :
    r.step i =
      { r with ticket := x, jobs := r.jobs.set i (job, turn'), refused := r.refusedAfter i turn turn' } := by
  unfold Desk.step
  simp only [there, called]

theorem Sim.call_getTicket (sim : Sim r s) (there : r.jobs[i]? = some (job, .getTicket)) (fits : r.FitsAt job .getTicket) :
    ∃ order : List Nat, Sim (r.step i) (order.foldl Desk.perform s) := by
  obtain ⟨next, beside, follows⟩ := sim.jobs i job .getTicket there
  obtain rfl : next = .getTicket := follows
  obtain ⟨time, hticket⟩ := sim.ticket
  cases ht : r.ticket with
  | none =>
    have called : access r.project job r.ticket .getTicket = (.finished, none) := by rw [ht]; rfl
    have nothing : s.ticket = none := by rw [hticket, ht]; rfl
    refine ⟨[i], ?_⟩
    rw [Desk.step_eq there called, List.foldl_cons, List.foldl_nil, Desk.perform_eq beside, nothing, alone_none]
    exact sim.both there beside rfl (Or.inr rfl) (fun h => by cases h) (lease_self none) (fun _ => rfl)
      fun u hu => by cases hu
  | some t =>
    have here : s.ticket = some (t.lease time) := by rw [hticket, ht]; rfl
    by_cases op : job.op.request = none
    · cases hop : job.op with
      | dispatchToDevin =>
        have idle : r.idle = true := fits hop
        have same : s.ticket = some t := by rw [sim.same (Desk.unleased_of_idle idle), ht]
        by_cases session : given t.devin.sessionId = true
        · have called : access r.project job r.ticket .getTicket = (.getFresh t false, r.ticket) := by
            simp [access, ht, hop, session]
          refine ⟨[], ?_⟩
          rw [Desk.step_eq there called]
          refine sim.quiet there rfl (fun _ => Or.inr idle) (fun h => by cases h) ?_
          intro next hnext
          refine ⟨?_, ?_⟩
          · obtain rfl : next = .getTicket := hnext
            simp [Job.origin, hop]
          · intro u hu
            rw [same] at hu
            cases hu
            exact Or.inl session
        · have called : access r.project job r.ticket .getTicket = (.claim t, r.ticket) := by
            simp [access, ht, hop, session]
          refine ⟨[], ?_⟩
          rw [Desk.step_eq there called]
          exact sim.quiet there rfl (fun _ => Or.inr idle) (fun h => by cases h) fun next hnext => ⟨hnext, hop⟩
      | deleteTicket =>
        have called : access r.project job r.ticket .getTicket = (.deleteTicket, r.ticket) := by
          simp [access, ht, hop]
        refine ⟨[], ?_⟩
        rw [Desk.step_eq there called]
        exact sim.quiet there rfl (fun h => by cases h) (fun h => by cases h) fun next hnext => ⟨hnext, hop⟩
      | _ =>
        rw [hop] at op
        cases op
    · cases hedit : job.op.edit t job.clock.updatedAt with
      | none =>
        have called : access r.project job r.ticket .getTicket = (.finished, some t) := by
          rw [ht, access_edit op, hedit]
        have edit : job.op.edit (t.lease time) job.clock.updatedAt = none := by
          rw [Operation.edit_lease, hedit]
          rfl
        refine ⟨[i], ?_⟩
        rw [Desk.step_eq there called, List.foldl_cons, List.foldl_nil, Desk.perform_eq beside, here,
          alone_unchanged op edit]
        refine sim.both there beside rfl (Or.inr rfl) (fun h => by cases h) ⟨time, rfl⟩ ?_ ?_
        · intro unleased
          rw [← here, sim.same unleased, ht]
        · rw [here]
          exact Kept.refl _
      | some edited =>
        obtain ⟨u, before⟩ := edited
        have called : access r.project job r.ticket .getTicket = (.putTicket t u before, r.ticket) := by
          rw [ht, access_edit op, hedit]
        refine ⟨[], ?_⟩
        rw [Desk.step_eq there called]
        exact sim.quiet there rfl (fun h => by cases h) (fun h => by cases h) fun next hnext => ⟨hnext, hedit⟩

theorem Sim.call_putTicket (sim : Sim r s) {read t : Ticket} {before : Option Trigger}
    (there : r.jobs[i]? = some (job, .putTicket read t before)) (fits : r.ticket = some read) :
    ∃ order : List Nat, Sim (r.step i) (order.foldl Desk.perform s) := by
  obtain ⟨next, beside, rfl, hedit⟩ := sim.jobs i job _ there
  obtain ⟨time, hticket⟩ := sim.ticket
  have here : s.ticket = some (read.lease time) := by rw [hticket, fits]; rfl
  have edit : job.op.edit (read.lease time) job.clock.updatedAt = some (t.lease time, before) := by
    rw [Operation.edit_lease, hedit]
    rfl
  have op : job.op ≠ .dispatchToDevin := by
    intro op
    rw [op] at hedit
    cases hedit
  refine ⟨[i], ?_⟩
  rw [Desk.step_eq there rfl, List.foldl_cons, List.foldl_nil, Desk.perform_eq beside, here, alone_edit edit,
    triggers_lease]
  have kept : Kept s.ticket (some (t.lease time)) := by
    intro u hu
    cases hu
    obtain ⟨lease, session⟩ := Operation.edit_devin edit
    exact ⟨read.lease time, here, lease, session⟩
  have same : r.leased = false → some (t.lease time) = some t := by
    intro unleased
    have equal := sim.same unleased
    rw [here, fits, Option.some.injEq] at equal
    rw [equal] at edit
    rw [hedit] at edit
    rw [Option.some.injEq, Prod.mk.injEq] at edit
    rw [← edit.1]
  refine sim.both there beside rfl ?_ (fun h => by cases h) ⟨time, rfl⟩ same kept
  cases triggers t before with
  | true => exact Or.inl ⟨rfl, op⟩
  | false => exact Or.inr rfl

theorem Sim.call_deleteTicket (sim : Sim r s) (there : r.jobs[i]? = some (job, .deleteTicket)) :
    ∃ order : List Nat, Sim (r.step i) (order.foldl Desk.perform s) := by
  obtain ⟨next, beside, rfl, op⟩ := sim.jobs i job _ there
  have performed : alone s.project job s.ticket .getTicket = (.finished, none) := by
    cases s.ticket with
    | none => rfl
    | some t => exact alone_delete op
  refine ⟨[i], ?_⟩
  rw [Desk.step_eq there rfl, List.foldl_cons, List.foldl_nil, Desk.perform_eq beside, performed]
  exact sim.both there beside rfl (Or.inr rfl) (fun h => by cases h) (lease_self none) (fun _ => rfl)
    fun u hu => by cases hu

theorem Sim.call_claimDispatch (sim : Sim r s) (there : r.jobs[i]? = some (job, .claimDispatch))
    (fits : r.FitsAt job .claimDispatch) : ∃ order : List Nat, Sim (r.step i) (order.foldl Desk.perform s) := by
  obtain ⟨next, beside, rfl, op⟩ := sim.jobs i job _ there
  cases claim : claimDispatch r.ticket job.clock.claimedAt with
  | some u =>
    have idle : r.idle = true := by
      rcases fits with idle | refused
      · exact idle
      · rw [claim] at refused
        cases refused
    have unleased := Desk.unleased_of_idle idle
    have called : access r.project job r.ticket .claimDispatch = (.dispatchTicket, some u) := by simp [access, claim]
    refine ⟨[], ?_⟩
    rw [Desk.step_eq there called]
    refine sim.claims there unleased claim rfl (Or.inr idle) ?_
    intro next hnext
    refine ⟨hnext.1, hnext.2, ?_⟩
    intro t ht
    rw [sim.same unleased] at ht
    refine Or.inr (Or.inl ?_)
    rw [Option.mem_def] at ht
    rw [← ht, claim]
    rfl
  | none =>
    have called : access r.project job r.ticket .claimDispatch = (.finished, r.ticket) := by simp [access, claim]
    rw [Desk.step_eq there called]
    unfold Desk.refusedAfter
    cases leased : r.leased with
    | true =>
      refine ⟨[], ?_⟩
      exact sim.refuses there leased
    | false =>
      have same := sim.same leased
      refine ⟨[i], ?_⟩
      rw [← same] at claim
      rw [List.foldl_cons, List.foldl_nil, Desk.perform_eq beside, alone_refused claim]
      refine sim.both there beside rfl (Or.inr rfl) (fun h => by cases h) sim.ticket (fun _ => same) (Kept.refl _)

theorem Sim.call_dispatchTicket (sim : Sim r s) (there : r.jobs[i]? = some (job, .dispatchTicket)) :
    ∃ order : List Nat, Sim (r.step i) (order.foldl Desk.perform s) := by
  obtain ⟨next, beside, rfl, op, passes⟩ := sim.jobs i job _ there
  cases ht : r.ticket with
  | none =>
    -- the ticket was deleted: nobody takes a lease on it any more
    obtain ⟨time, hticket⟩ := sim.ticket
    have nothing : s.ticket = none := by rw [hticket, ht]; rfl
    have called : access r.project job r.ticket .dispatchTicket = (.finished, none) := by rw [ht]; rfl
    have performed : alone s.project job s.ticket .claimDispatch = (.finished, none) := by rw [nothing]; rfl
    refine ⟨i :: r.refused, ?_⟩
    rw [Desk.step_eq there called]
    exact sim.ends there rfl beside performed fun _ _ _ _ => rfl
  | some t =>
    have called : access r.project job r.ticket .dispatchTicket = (.getFresh t true, r.ticket) := by rw [ht]; rfl
    refine ⟨[], ?_⟩
    rw [Desk.step_eq there called]
    refine sim.quiet there rfl (fun _ => Or.inl rfl) (fun h => by cases h) ?_
    intro next hnext
    refine ⟨?_, hnext.2.2⟩
    rw [hnext.1]
    simp [Job.origin, op]

/-- While one dispatch is under way without the lease, nobody has it. -/
theorem Sim.unleased_of_dispatching (sim : Sim r s) (there : r.jobs[i]? = some (job, turn))
    (dispatching : turn.dispatching = true) (free : turn.leased = false) : r.leased = false := by
  rw [← Bool.not_eq_true, Desk.leased_iff]
  rintro ⟨j, h, hj, leased⟩
  have here := sim.single j i h (job, turn) hj there (Turn.dispatching_of_leased leased) dispatching
  subst here
  rw [there] at hj
  cases hj
  rw [free] at leased
  cases leased

theorem Sim.call_claim (sim : Sim r s) {t : Ticket} (there : r.jobs[i]? = some (job, .claim t)) :
    ∃ order : List Nat, Sim (r.step i) (order.foldl Desk.perform s) := by
  have unleased := sim.unleased_of_dispatching there rfl rfl
  have same := sim.same unleased
  refine ⟨[], ?_⟩
  cases claim : claimDispatch r.ticket job.clock.claimedAt with
  | some u =>
    have called : access r.project job r.ticket (.claim t) = (.getFresh t true, some u) := by simp [access, claim]
    rw [Desk.step_eq there called]
    refine sim.claims there unleased claim rfl (Or.inl rfl) ?_
    intro next hnext
    refine ⟨?_, ?_⟩
    · rw [hnext.1]
      simp [Job.origin, hnext.2]
    · intro v hv
      rw [same, Option.mem_def] at hv
      refine Or.inr (Or.inl ?_)
      rw [← hv, claim]
      rfl
  | none =>
    have called : access r.project job r.ticket (.claim t) = (.checkLease t, r.ticket) := by simp [access, claim]
    rw [Desk.step_eq there called]
    refine sim.quiet there rfl (fun _ => Or.inl rfl) (fun h => by cases h) ?_
    intro next hnext
    refine ⟨hnext.1, hnext.2, ?_⟩
    intro v hv
    rw [same, Option.mem_def] at hv
    rw [hv] at claim
    exact Or.inr claim

theorem Sim.call_checkLease (sim : Sim r s) {t : Ticket} (there : r.jobs[i]? = some (job, .checkLease t))
    (fits : r.FitsAt job (.checkLease t)) : ∃ order : List Nat, Sim (r.step i) (order.foldl Desk.perform s) := by
  obtain ⟨next, beside, rfl, op, refused⟩ := sim.jobs i job _ there
  have same := sim.same (sim.unleased_of_dispatching there rfl rfl)
  by_cases away : job.turnedAway (r.ticket.getD t) = true
  · have called : access r.project job r.ticket (.checkLease t) = (.finished, r.ticket) := by simp [access, away]
    have performed : alone s.project job s.ticket .getTicket = (.finished, r.ticket) := by
      rw [same]
      cases ht : r.ticket with
      | none => rfl
      | some u =>
        rw [ht] at away
        have session := fits u ht away
        rw [same] at refused
        rcases refused u ht with attached | free
        · rw [session] at attached
          cases attached
        · exact alone_turnedAway op session free away
    refine ⟨[i], ?_⟩
    rw [Desk.step_eq there called, List.foldl_cons, List.foldl_nil, Desk.perform_eq beside, performed]
    exact sim.both there beside rfl (Or.inr rfl) (fun h => by cases h) (lease_self _) (fun _ => rfl)
      (by rw [same]; exact Kept.refl _)
  · have called : access r.project job r.ticket (.checkLease t) = (.getFresh t false, r.ticket) := by
      simp [access, away]
    refine ⟨[], ?_⟩
    rw [Desk.step_eq there called]
    refine sim.quiet there rfl (fun _ => Or.inl rfl) (fun h => by cases h) ?_
    intro next hnext
    refine ⟨?_, ?_⟩
    · rw [hnext.1]
      simp [Job.origin, op]
    · intro u hu
      rw [same, Option.mem_def] at hu
      rw [hu] at away
      exact Or.inr (Or.inr ⟨op, by simpa using away⟩)

theorem Sim.call_getFresh (sim : Sim r s) {t : Ticket} {leased : Bool}
    (there : r.jobs[i]? = some (job, .getFresh t leased)) (fits : r.FitsAt job (.getFresh t leased)) :
    ∃ order : List Nat, Sim (r.step i) (order.foldl Desk.perform s) := by
  obtain ⟨fresh, hfresh⟩ := Option.ne_none_iff_exists'.mp fits.1
  have called : access r.project job r.ticket (.getFresh t leased) =
      (.putFresh (some fresh) (job.record r.project fresh) leased, r.ticket) := by
    rw [hfresh]
    rfl
  refine ⟨[], ?_⟩
  rw [Desk.step_eq there called]
  refine sim.quiet there rfl (fun _ => Or.inl rfl) (fun h => by cases h) ?_
  intro next hnext
  exact ⟨hnext.1, hnext.2, fresh, rfl, rfl, fits.2 fresh hfresh⟩

theorem Sim.call_putFresh (sim : Sim r s) {read : Option Ticket} {t : Ticket} {leased : Bool}
    (there : r.jobs[i]? = some (job, .putFresh read t leased)) (fits : r.FitsAt job (.putFresh read t leased)) :
    ∃ order : List Nat, Sim (r.step i) (order.foldl Desk.perform s) := by
  obtain ⟨next, beside, origin, passes, fresh, rfl, rfl, session⟩ := sim.jobs i job _ there
  obtain ⟨stored, refuses⟩ := fits
  obtain ⟨time, hticket⟩ := sim.ticket
  have here : s.ticket = some (fresh.lease time) := by rw [hticket, stored]; rfl
  have through := passes _ here
  have performed : alone s.project job s.ticket next = (.finished, some (job.record r.project fresh)) := by
    rw [here, origin, sim.project]
    by_cases op : job.op = .dispatchToDevin
    · rw [Job.origin, if_pos op, alone_explicit op through, Job.record_lease]
    · rw [Job.origin, if_neg op]
      have open_ : (fresh.lease time).devin.sessionId = none := session op
      have claim : (claimDispatch (some (fresh.lease time)) job.clock.claimedAt).isSome = true := by
        rcases through with attached | claim | explicit
        · rw [open_] at attached
          cases attached
        · exact claim
        · exact absurd explicit.1 op
      obtain ⟨u, hu⟩ := Option.isSome_iff_exists.mp claim
      rw [alone_dispatch hu, Job.record_lease]
  refine ⟨i :: r.refused, ?_⟩
  rw [Desk.step_eq there rfl]
  exact sim.ends there rfl beside performed refuses

/-- One call is explained by no operation, by the one that makes it, or by a dispatch and those it has refused. -/
theorem Sim.call (sim : Sim r s) (fits : r.Fits i) : ∃ order : List Nat, Sim (r.step i) (order.foldl Desk.perform s) := by
  cases there : r.jobs[i]? with
  | none =>
    have same : r.step i = r := by
      unfold Desk.step
      simp only [there]
    exact ⟨[], same.symm ▸ sim⟩
  | some h =>
    obtain ⟨job, turn⟩ := h
    have fits : r.FitsAt job turn := fits (job, turn) there
    cases turn with
    | getTicket => exact sim.call_getTicket there fits
    | putTicket read t before => exact sim.call_putTicket there fits
    | deleteTicket => exact sim.call_deleteTicket there
    | claimDispatch => exact sim.call_claimDispatch there fits
    | dispatchTicket => exact sim.call_dispatchTicket there
    | claim t => exact sim.call_claim there
    | checkLease t => exact sim.call_checkLease there fits
    | getFresh t leased => exact sim.call_getFresh there fits
    | putFresh read t leased => exact sim.call_putFresh there fits
    | finished =>
      have same : r.step i = r := by
        rw [Desk.step_eq there rfl]
        change { r with jobs := r.jobs.set i (job, .finished) } = r
        rw [set_of_getElem? there]
      exact ⟨[], same.symm ▸ sim⟩

end Moves

theorem Sim.start (project : Project) (ticket : Option Ticket) (jobs : List Job) :
    Sim (.start project ticket jobs) (.start project ticket jobs) := by
  refine ⟨rfl, rfl, ?_, lease_self ticket, fun _ => rfl, ?_, fun _ => rfl, ?_⟩
  · intro i job turn h
    refine ⟨turn, h, ?_⟩
    obtain ⟨_, -, same⟩ := Option.map_eq_some_iff.mp (List.getElem?_map (f := fun job => (job, Turn.getTicket)) ▸ h)
    cases same
    rfl
  · intro i j g h hg
    obtain ⟨_, -, same⟩ := Option.map_eq_some_iff.mp (List.getElem?_map (f := fun job => (job, Turn.getTicket)) ▸ hg)
    cases same
    intro _ busy
    cases busy
  · intro i hi
    cases hi

/-- Where all has ended in the run, it has beside it, on the same ticket. -/
theorem Sim.finished {r s : Desk} (sim : Sim r s) (ended : r.finished = true) :
    s.finished = true ∧ s.ticket = r.ticket := by
  have all : ∀ (i : Nat) (h : Job × Turn), r.jobs[i]? = some h → h.2 = .finished := by
    intro i h there
    simpa using List.all_eq_true.mp ended h (List.mem_of_getElem? there)
  have unleased : r.leased = false := by
    rw [← Bool.not_eq_true, Desk.leased_iff]
    rintro ⟨i, h, there, leased⟩
    rw [all i h there] at leased
    cases leased
  refine ⟨?_, sim.same unleased⟩
  rw [Desk.finished, List.all_eq_true]
  intro h hmem
  obtain ⟨i, beside⟩ := List.mem_iff_getElem?.mp hmem
  obtain ⟨g, there⟩ : ∃ g, r.jobs[i]? = some g := by
    have bound := lt_of_getElem? beside
    rw [sim.length] at bound
    exact ⟨r.jobs[i], List.getElem?_eq_getElem bound⟩
  obtain ⟨next, hnext, follows⟩ := sim.jobs i g.1 g.2 there
  rw [beside] at hnext
  cases hnext
  rw [all i g there] at follows
  rcases follows with rfl | ⟨refused, -⟩
  · simp
  · rw [sim.refused unleased] at refused
    cases refused

/-- Operations whose calls all fit leave the ticket that some order of them leaves. -/
theorem serial_when_fits (project : Project) (ticket : Option Ticket) (jobs : List Job) (schedule : List Nat)
    (fits : ∀ n i, schedule[n]? = some i → ((schedule.take n).foldl Desk.step (.start project ticket jobs)).Fits i)
    (n : Nat) : (Desk.start project ticket jobs).SerialAt (schedule.take n) := by
  have explained : ∃ order : List Nat, Sim ((schedule.take n).foldl Desk.step (.start project ticket jobs))
      (order.foldl Desk.perform (.start project ticket jobs)) := by
    refine @foldl_always_of _ _ _ (fun r => ∃ order : List Nat, Sim r (order.foldl Desk.perform (.start project ticket jobs)))
      Desk.Fits ?_ _ ⟨[], Sim.start project ticket jobs⟩ schedule fits n
    rintro r i fits ⟨order, sim⟩
    obtain ⟨more, sim'⟩ := sim.call fits
    refine ⟨order ++ more, ?_⟩
    rw [List.foldl_append]
    exact sim'
  obtain ⟨order, sim⟩ := explained
  intro ended
  exact ⟨order, sim.finished ended⟩

theorem Desk.perform_mem {states : List Desk} {bound : Nat} (jobs : ∀ s ∈ states, s.jobs.length = bound)
    (closed : ∀ i < bound, ∀ s ∈ states, s.perform i ∈ states) (order : List Nat) :
    ∀ s ∈ states, order.foldl Desk.perform s ∈ states := by
  induction order with
  | nil => exact fun s hs => hs
  | cons i order ih =>
    intro s hs
    apply ih
    by_cases small : i < bound
    · exact closed i small s hs
    · have absent : s.jobs[i]? = none := List.getElem?_eq_none (by rw [jobs s hs]; omega)
      unfold Desk.perform
      rw [absent]
      exact hs

def plainTicket : Ticket where
  key := "OTTER-1"
  projectKey := "OTTER"
  number := 1
  title := "Flaky upload"
  description := ""
  type := .bug
  priority := .medium
  status := .backlog
  labels := []
  assignee := ""
  repo := "otterworks"
  branch := ""
  prUrl := ""
  devin := .empty
  createdAt := 1000
  updatedAt := 1000

/-- A ticket is assigned while it is moved: both have read it before either writes. -/
def moveAndAssign : Desk :=
  .start ⟨"OTTER", "otterworks", .devinApi⟩ (some plainTicket)
    [⟨.transition (some .ready), ⟨2000, 0, 0, 0, 0⟩, .failed⟩, ⟨.assign "ana", ⟨2001, 0, 0, 0, 0⟩, .failed⟩]

theorem transition_lost : ¬moveAndAssign.SerialAt [0, 1, 0, 1] := by
  intro serial
  obtain ⟨order, ended, ticket⟩ := serial (by decide)
  have reached : order.foldl Desk.perform moveAndAssign ∈
      [moveAndAssign, moveAndAssign.perform 0, moveAndAssign.perform 1, (moveAndAssign.perform 0).perform 1,
        (moveAndAssign.perform 1).perform 0] :=
    @Desk.perform_mem _ 2 (by decide) (by decide) order moveAndAssign List.mem_cons_self
  revert ended ticket
  generalize order.foldl Desk.perform moveAndAssign = s at reached
  revert s
  decide

/-- A ticket is moved while its dispatch waits for the session. -/
def moveInFlight : Desk :=
  .start ⟨"OTTER", "otterworks", .devinApi⟩ (some plainTicket)
    [⟨.dispatchToDevin, ⟨0, 2000, 0, 9000, 9001⟩, .session ⟨"s-1", "https://app.devin.ai/sessions/s-1", "running"⟩⟩,
      ⟨.transition (some .ready), ⟨5000, 0, 0, 0, 0⟩, .failed⟩]

theorem move_in_flight_kept : ([0, 0, 1, 1, 0, 0].foldl Desk.step moveInFlight).finished = true ∧
    moveInFlight.SerialAt ([0, 0, 1, 1, 0, 0].take 6) :=
  ⟨by decide, serial_when_fits _ _ _ [0, 0, 1, 1, 0, 0] (forall_getElem?_iff.mpr (by decide)) 6⟩

end OtterWorks.Tickets
