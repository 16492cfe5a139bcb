import OtterWorks.Tickets.Dispatch
import OtterWorks.Lib.Transition
import OtterWorks.Lib.Dict
import Mathlib.Algebra.Order.BigOperators.Group.List

namespace OtterWorks.Tickets

/-- The ticket carries a session, or a lease no older than the one taken at `time`. -/
def HoldsLease (time : Nat) (t : Ticket) : Prop :=
  t.devin.sessionId.isSome = true ∨ ∃ d ∈ t.devin.dispatchedAt, time ≤ d

instance (time : Nat) (t : Ticket) : Decidable (HoldsLease time t) :=
  inferInstanceAs (Decidable (_ ∨ ∃ d ∈ t.devin.dispatchedAt, time ≤ d))

/-- The ticket that a request is about to write. -/
def Tracker.written (s : Tracker) : Event → Option Ticket
  | .next i _ =>
    match s.handlers[i]? with
    | some ⟨_, .putTicket t _⟩ => some t
    | _ => none
  | _ => none

/-- The end of the outbound call that is about to be made. -/
def Tracker.delivery (s : Tracker) : Event → Option DispatchResult
  | .next i reply =>
    match s.handlers[i]? with
    | some ⟨_, .dispatch _ project⟩ => some (dispatch project reply)
    | _ => none
  | _ => none

/-- A request that writes the ticket after a lease was taken writes a copy that carries the lease, or a session. -/
def KeepsLease (s : Tracker) (event : Event) : Prop :=
  ∀ t ∈ s.written event, ∀ claim ∈ s.claims, HoldsLease claim.2 t

instance (s : Tracker) (event : Event) : Decidable (KeepsLease s event) :=
  inferInstanceAs (Decidable (∀ t ∈ s.written event, ∀ claim ∈ s.claims, HoldsLease claim.2 t))

def Delivers (s : Tracker) (event : Event) : Prop := ∀ result ∈ s.delivery event, result.ok = true

instance (s : Tracker) (event : Event) : Decidable (Delivers s event) :=
  inferInstanceAs (Decidable (∀ result ∈ s.delivery event, result.ok = true))

def Event.elapsed : Event → Nat
  | .tick ms => ms
  | _ => 0

/-- What the stage of request `i` knows: a dispatch is sent once, by a request that has taken a lease. -/
def Fits (since : Nat) (s : Tracker) (i : Nat) : Stage → Prop
  | .claimDispatch time => i ∉ s.sent ∧ since ≤ time ∧ time ≤ s.now
  | .dispatchTicket | .dispatchProject _ | .dispatch _ _ => i ∉ s.sent ∧ ∃ claim ∈ s.claims, claim.1 = i
  | .getFresh _ _ result => result.ok = true ∧ ∃ claim ∈ s.claims, claim.1 = i
  | .addEvents t | .putFresh t =>
    (∀ claim ∈ s.claims, HoldsLease claim.2 t) ∧ ∃ claim ∈ s.claims, claim.1 = i
  | .finished => True
  | _ => i ∉ s.sent

/-- A lease of a run from `since` on is taken once, and the ticket holds it from then on. -/
structure LeaseInv (since : Nat) (s : Tracker) : Prop where
  begun : since ≤ s.now
  once : s.claims.length ≤ 1
  held : ∀ claim ∈ s.claims, ∃ t, s.ticket = some t ∧ HoldsLease claim.2 t
  times : ∀ claim ∈ s.claims, since ≤ claim.2 ∧ claim.2 ≤ s.now
  sender : ∀ i ∈ s.sent, ∃ claim ∈ s.claims, claim.1 = i
  sentOnce : s.sent.Nodup
  known : ∀ i ∈ s.sent, i < s.handlers.length
  fits : ∀ i h, s.handlers[i]? = some h → Fits since s i h.stage

section Claims

variable {t u : Ticket} {time : Nat}

theorem claimDispatch_some {ticket : Option Ticket} (h : claimDispatch ticket time = some u) :
    (∃ t, ticket = some t ∧ t.devin.sessionId = none ∧
      ∀ d, t.devin.dispatchedAt = some d → (d : Int) < (time : Int) - dispatchLeaseMs) ∧
    u.devin.dispatchedAt = some time := by
  unfold claimDispatch at h
  split at h
  next => simp at h
  next t =>
    split at h
    next open_ =>
      cases Option.some.inj h
      refine ⟨⟨t, rfl, by simpa using open_.1, ?_⟩, rfl⟩
      intro d hd
      have stale := open_.2
      rw [hd] at stale
      simpa using stale
    next => simp at h

/-- While the lease is fresh it is not taken again. -/
theorem HoldsLease.not_claimed {since : Nat} (held : HoldsLease time t) {now : Nat}
    (fresh : now ≤ since + dispatchLeaseMs) (after : since ≤ time) : claimDispatch (some t) now = none := by
  cases claim : claimDispatch (some t) now with
  | none => rfl
  | some u =>
    exfalso
    obtain ⟨⟨t', same, session, stale⟩, _⟩ := claimDispatch_some claim
    cases Option.some.inj same
    rcases held with there | ⟨d, hd, later⟩
    · rw [session] at there
      cases there
    · have := stale d hd
      omega

theorem dispatched_holdsLease {project : Project} {result : DispatchResult} (ok : result.ok = true) {now : Nat}
    (later : time ≤ now) (fresh : Ticket) : HoldsLease time (dispatched project result now fresh) := by
  right
  refine ⟨now, ?_, later⟩
  unfold dispatched
  rw [if_pos ok]
  cases result.session with
  | none => rfl
  | some session => rfl

end Claims

section Steps

variable {since : Nat} {s : Tracker}

theorem Fits.tick {i : Nat} {stage : Stage} (h : Fits since s i stage) (ms : Nat) :
    Fits since { s with now := s.now + ms } i stage := by
  cases stage with
  | claimDispatch time =>
    obtain ⟨unsent, after, before⟩ := h
    have later : time ≤ s.now + ms := by omega
    exact ⟨unsent, after, later⟩
  | _ => exact h

/-- A new lease leaves the other requests as they were: with none taken before, none of them is dispatching. -/
theorem Fits.claim {i : Nat} {stage : Stage} (h : Fits since s i stage) (first : s.claims = []) (claim : Nat × Nat)
    (ticket : Option Ticket) : Fits since { s with ticket := ticket, claims := claim :: s.claims } i stage := by
  have noClaim : ¬ ∃ claim ∈ s.claims, claim.1 = i := by simp [first]
  cases stage with
  | dispatchTicket => exact absurd h.2 noClaim
  | dispatchProject t => exact absurd h.2 noClaim
  | dispatch t project => exact absurd h.2 noClaim
  | getFresh t project result => exact absurd h.2 noClaim
  | addEvents t => exact absurd h.2 noClaim
  | putFresh t => exact absurd h.2 noClaim
  | _ => exact h

theorem Fits.send {i j : Nat} {stage : Stage} (h : Fits since s j stage) (other : j ≠ i) :
    Fits since { s with sent := i :: s.sent } j stage := by
  have kept : j ∉ s.sent → j ∉ i :: s.sent := by
    intro unsent sent
    rcases List.mem_cons.mp sent with here | there
    · exact other here
    · exact unsent there
  cases stage with
  | claimDispatch time => exact ⟨kept h.1, h.2⟩
  | dispatchTicket => exact ⟨kept h.1, h.2⟩
  | dispatchProject t => exact ⟨kept h.1, h.2⟩
  | dispatch t project => exact ⟨kept h.1, h.2⟩
  | getFresh t project result => exact h
  | addEvents t => exact h
  | putFresh t => exact h
  | finished => exact h
  | _ => exact kept h

namespace LeaseInv

theorem setStage (inv : LeaseInv since s) {i : Nat} (r : Request) {stage : Stage} (fits : Fits since s i stage) :
    LeaseInv since (s.setStage i r stage) := by
  refine ⟨inv.begun, inv.once, inv.held, inv.times, inv.sender, inv.sentOnce, ?_, ?_⟩
  · intro j hj
    have known := inv.known j hj
    simpa [Tracker.setStage] using known
  · intro j h hj
    rcases getElem?_of_set hj with ⟨same, here⟩ | ⟨_, there⟩
    · rw [here, same]
      exact fits
    · exact inv.fits j h there

theorem put (inv : LeaseInv since s) {t : Ticket} (keeps : ∀ claim ∈ s.claims, HoldsLease claim.2 t) :
    LeaseInv since { s with ticket := some t } :=
  ⟨inv.begun, inv.once, fun claim hc => ⟨t, rfl, keeps claim hc⟩, inv.times, inv.sender, inv.sentOnce, inv.known, inv.fits⟩

/-- A lease is taken only where none has been. -/
theorem no_claims (inv : LeaseInv since s) {time : Nat} {t : Ticket} (claim : claimDispatch s.ticket time = some t)
    (fresh : time ≤ since + dispatchLeaseMs) : s.claims = [] := by
  rw [List.eq_nil_iff_forall_not_mem]
  intro c hc
  obtain ⟨u, there, held⟩ := inv.held c hc
  rw [there, held.not_claimed fresh (inv.times c hc).1] at claim
  cases claim

theorem claim (inv : LeaseInv since s) {i : Nat} {r : Request} {time : Nat} {t : Ticket}
    (claim : claimDispatch s.ticket time = some t) (fits : Fits since s i (.claimDispatch time))
    (fresh : s.now ≤ since + dispatchLeaseMs) :
    LeaseInv since { s.setStage i r .dispatchTicket with ticket := some t, claims := (i, time) :: s.claims } := by
  obtain ⟨unsent, after, before⟩ := fits
  have none := inv.no_claims claim (by omega)
  have lease : HoldsLease time t := Or.inr ⟨time, (claimDispatch_some claim).2, le_refl time⟩
  refine ⟨inv.begun, ?_, ?_, ?_, ?_, inv.sentOnce, ?_, ?_⟩
  · show ((i, time) :: s.claims).length ≤ 1
    rw [none]
    exact le_refl 1
  · intro c hc
    rw [none] at hc
    rw [List.mem_singleton.mp hc]
    exact ⟨t, rfl, lease⟩
  · intro c hc
    rw [none] at hc
    rw [List.mem_singleton.mp hc]
    exact ⟨after, before⟩
  · intro j hj
    obtain ⟨c, hc, _⟩ := inv.sender j hj
    rw [none] at hc
    cases hc
  · intro j hj
    have known := inv.known j hj
    simpa [Tracker.setStage] using known
  · intro j h hj
    rcases getElem?_of_set hj with ⟨same, here⟩ | ⟨_, there⟩
    · rw [here, same]
      exact ⟨unsent, (i, time), List.mem_cons_self .., rfl⟩
    · exact (inv.fits j h there).claim none (i, time) (some t)

theorem send (inv : LeaseInv since s) {i : Nat} {r : Request} {stage : Stage} {h : Handler} (hi : s.handlers[i]? = some h)
    (unsent : i ∉ s.sent) (claimed : ∃ claim ∈ s.claims, claim.1 = i)
    (fits : Fits since { s with sent := i :: s.sent } i stage) :
    LeaseInv since { s.setStage i r stage with sent := i :: s.sent } := by
  refine ⟨inv.begun, inv.once, inv.held, inv.times, ?_, List.nodup_cons.mpr ⟨unsent, inv.sentOnce⟩, ?_, ?_⟩
  · intro j hj
    rcases List.mem_cons.mp hj with here | there
    · rw [here]
      exact claimed
    · exact inv.sender j there
  · intro j hj
    have known : j < s.handlers.length := by
      rcases List.mem_cons.mp hj with here | there
      · rw [here]
        exact (List.getElem?_eq_some_iff.mp hi).1
      · exact inv.known j there
    simpa [Tracker.setStage] using known
  · intro j h' hj
    rcases getElem?_of_set hj with ⟨same, here⟩ | ⟨other, there⟩
    · rw [here, same]
      exact fits
    · exact (inv.fits j h' there).send other

end LeaseInv

/-- What a step asks for: the lease is kept, the delivery succeeds, and a lease of this run is still fresh. -/
def LeaseStep (since : Nat) (s : Tracker) (event : Event) : Prop :=
  KeepsLease s event ∧ Delivers s event ∧ s.now ≤ since + dispatchLeaseMs

theorem next_lease_inv (inv : LeaseInv since s) {i : Nat} {r : Request} {stage : Stage}
    (hi : s.handlers[i]? = some ⟨r, stage⟩) (reply : Reply) (met : LeaseStep since s (.next i reply)) :
    LeaseInv since (s.next i reply r stage) := by
  have fits : Fits since s i stage := inv.fits i _ hi
  obtain ⟨keeps, delivers, fresh⟩ := met
  simp only [KeepsLease, Tracker.written, hi] at keeps
  simp only [Delivers, Tracker.delivery, hi] at delivers
  have ended : LeaseInv since (s.setStage i r .finished) := inv.setStage r trivial
  cases stage with
  | getProject =>
    have unsent : i ∉ s.sent := fits
    cases r with
    | createTicket input =>
      simp only [Tracker.next]
      split
      next => exact ended
      next => exact inv.setStage _ unsent
    | _ => exact ended
  | nextTicketNumber project =>
    have unsent : i ∉ s.sent := fits
    have counted : LeaseInv since { s with counter := s.counter + 1 } :=
      ⟨inv.begun, inv.once, inv.held, inv.times, inv.sender, inv.sentOnce, inv.known, inv.fits⟩
    cases r with
    | createTicket input =>
      simp only [Tracker.next]
      split
      next => exact counted.setStage _ unsent
      next => exact counted.setStage _ trivial
    | _ => exact counted.setStage _ trivial
  | getTicket =>
    have unsent : i ∉ s.sent := fits
    simp only [Tracker.next]
    split
    next => exact ended
    next => exact inv.setStage r unsent
  | putTicket t before =>
    have unsent : i ∉ s.sent := fits
    have stored := inv.put (keeps t rfl)
    cases before with
    | none => exact stored.setStage r trivial
    | some before => exact stored.setStage r unsent
  | addEvent t before =>
    have unsent : i ∉ s.sent := fits
    simp only [Tracker.next, Tracker.maybeDispatch]
    split
    next => exact ended
    next =>
      split
      next => exact ended
      next => exact inv.setStage r ⟨unsent, inv.begun, le_refl s.now⟩
  | claimDispatch time =>
    simp only [Tracker.next]
    split
    next => exact ended
    next t claim => exact inv.claim claim fits fresh
  | dispatchTicket =>
    simp only [Tracker.next]
    split
    next => exact ended
    next => exact inv.setStage r fits
  | dispatchProject t => exact inv.setStage r fits
  | dispatch t project => exact inv.send hi fits.1 fits.2 ⟨delivers _ rfl, fits.2⟩
  | getFresh t project result =>
    have leased : Fits since s i (.addEvents (dispatched project result s.now (s.ticket.getD t))) :=
      ⟨fun claim hc => dispatched_holdsLease fits.1 (inv.times claim hc).2 _, fits.2⟩
    simp only [Tracker.next]
    split
    next => exact inv.setStage r leased
    next => exact inv.setStage r leased
  | addEvents t => exact inv.setStage r fits
  | putFresh t => exact (inv.put fits.1).setStage r trivial
  | finished => exact inv

theorem step_lease_inv (event : Event) (met : LeaseStep since s event) (inv : LeaseInv since s) :
    LeaseInv since (s.step event) := by
  cases event with
  | request r =>
    refine ⟨inv.begun, inv.once, inv.held, inv.times, inv.sender, inv.sentOnce, ?_, ?_⟩
    · intro j hj
      have known := inv.known j hj
      simp only [Tracker.step, List.length_append, List.length_singleton]
      omega
    · intro j h hj
      simp only [Tracker.step] at hj
      rcases getElem?_of_concat hj with ⟨last, here⟩ | there
      · -- the new request has sent nothing
        have unsent : j ∉ s.sent := by
          intro sent
          have known := inv.known j sent
          omega
        rw [here]
        cases r with
        | _ => exact unsent
      · exact inv.fits j h there
  | next i reply =>
    simp only [Tracker.step]
    cases hi : s.handlers[i]? with
    | none => exact inv
    | some h => exact next_lease_inv inv hi reply met
  | fail i =>
    simp only [Tracker.step]
    split
    next => exact inv
    next h hi => exact inv.setStage h.request trivial
  | tick ms =>
    refine ⟨?_, inv.once, inv.held, ?_, inv.sender, inv.sentOnce, inv.known, ?_⟩
    · have begun := inv.begun
      show since ≤ s.now + ms
      omega
    · intro claim hc
      obtain ⟨after, before⟩ := inv.times claim hc
      have later : claim.2 ≤ s.now + ms := by omega
      exact ⟨after, later⟩
    · intro j h hj
      exact (inv.fits j h hj).tick ms

/-- Who has sent a dispatch took a lease, and there is one. -/
theorem LeaseInv.sent_once (inv : LeaseInv since s) : s.sent.length ≤ 1 := by
  have once := inv.once
  have taken : s.sent ⊆ s.claims.map Prod.fst := by
    intro i hi
    obtain ⟨claim, hc, same⟩ := inv.sender i hi
    exact List.mem_map.mpr ⟨claim, hc, same⟩
  have fewer := (List.subperm_of_subset inv.sentOnce taken).length_le
  rw [List.length_map] at fewer
  omega

theorem step_now (event : Event) : (s.step event).now = s.now + event.elapsed := by
  cases event with
  | request r => rfl
  | tick ms => rfl
  | fail i =>
    simp only [Tracker.step]
    split
    next => rfl
    next => rfl
  | next i reply =>
    simp only [Tracker.step]
    split
    next => rfl
    next h _ =>
      obtain ⟨r, stage⟩ := h
      cases stage with
      | getProject => cases r <;> rfl
      | nextTicketNumber project => cases r <;> rfl
      | getTicket =>
        simp only [Tracker.next]
        split
        next => rfl
        next => rfl
      | claimDispatch time =>
        simp only [Tracker.next]
        split
        next => rfl
        next => rfl
      | dispatchTicket =>
        simp only [Tracker.next]
        split
        next => rfl
        next => rfl
      | _ => rfl

end Steps

section Runs

variable {project : Project} {number counter now : Nat} {ticket : Option Ticket}

theorem start_lease_inv : LeaseInv now (.start project number counter ticket now) := by
  refine ⟨le_refl now, Nat.zero_le 1, ?_, ?_, ?_, List.nodup_nil, ?_, ?_⟩
  · intro claim hc
    cases hc
  · intro claim hc
    cases hc
  · intro i hi
    cases hi
  · intro i hi
    cases hi
  · intro i h hi
    simp [Tracker.start] at hi

def elapsed (events : List Event) : Nat := (events.map Event.elapsed).sum

theorem run_now (s : Tracker) (events : List Event) : (events.foldl Tracker.step s).now = s.now + elapsed events := by
  induction events generalizing s with
  | nil => rfl
  | cons event events ih =>
    have head : (s.step event).now = s.now + event.elapsed := step_now event
    have total : elapsed (event :: events) = event.elapsed + elapsed events := by simp [elapsed]
    have tail := ih (s.step event)
    rw [List.foldl_cons]
    omega

theorem elapsed_take (events : List Event) (n : Nat) : elapsed (events.take n) ≤ elapsed events := by
  have split : elapsed events = elapsed (events.take n) + elapsed (events.drop n) := by
    unfold elapsed
    rw [← List.sum_append, ← List.map_append, List.take_append_drop]
  omega

/-- Within the time of a lease and without failed deliveries, at most one dispatch is sent in a run in which no
request writes back the ticket as it was before the lease. -/
theorem dispatched_at_most_once (events : List Event) (time : elapsed events < dispatchLeaseMs)
    (delivered : ∀ n event, events[n]? = some event →
      Delivers ((events.take n).foldl Tracker.step (.start project number counter ticket now)) event)
    (kept : ∀ n event, events[n]? = some event →
      KeepsLease ((events.take n).foldl Tracker.step (.start project number counter ticket now)) event) (n : Nat) :
    ((events.take n).foldl Tracker.step (.start project number counter ticket now)).sent.length ≤ 1 := by
  have met : ∀ n event, events[n]? = some event →
      LeaseStep now ((events.take n).foldl Tracker.step (.start project number counter ticket now)) event := by
    intro n event h
    refine ⟨kept n event h, delivered n event h, ?_⟩
    have clock := run_now (.start project number counter ticket now) (events.take n)
    have start : (Tracker.start project number counter ticket now).now = now := rfl
    have taken := elapsed_take events n
    omega
  have inv := foldl_always_of (fun s event met inv => step_lease_inv event met inv) start_lease_inv events met n
  exact inv.sent_once

end Runs

def webhookProject : Project := ⟨"OTTER", "otterworks", .webhook⟩

/-- A ticket gains the label and the assignee in two requests that both read it first; the second write comes after
the first lease. -/
def labelAndAssign : List Event :=
  [.request (.createTicket ⟨"Fix login", "", none, none, none, [], "", "", "", ""⟩), .next 0 .accepted,
    .next 0 .accepted, .next 0 .accepted, .next 0 .accepted,
    .request (.addLabels ["devin"] []), .request (.assign "devin"), .next 1 .accepted, .next 2 .accepted,
    .next 1 .accepted, .next 1 .accepted, .next 1 .accepted,
    .next 2 .accepted, .next 2 .accepted, .next 2 .accepted,
    .next 1 .accepted, .next 1 .accepted, .next 1 .accepted,
    .next 2 .accepted, .next 2 .accepted, .next 2 .accepted]

/-- Both requests dispatch, and no time has passed. -/
theorem label_and_assign_dispatch_twice :
    elapsed labelAndAssign < dispatchLeaseMs ∧
    (∀ n event, labelAndAssign[n]? = some event →
      Delivers ((labelAndAssign.take n).foldl Tracker.step (.start webhookProject 1 0 none 1000)) event) ∧
    (labelAndAssign.foldl Tracker.step (.start webhookProject 1 0 none 1000)).sent = [2, 1] := by
  refine ⟨by decide, ?_, by decide⟩
  rw [forall_getElem?_iff]
  decide

/-- Here the second request reads the ticket under its lease. -/
def labelThenAssign : List Event :=
  labelAndAssign.take 5 ++
    [.request (.addLabels ["devin"] []), .next 1 .accepted, .next 1 .accepted, .next 1 .accepted, .next 1 .accepted,
      .request (.assign "devin"), .next 2 .accepted, .next 2 .accepted, .next 2 .accepted,
      .next 1 .accepted, .next 1 .accepted, .next 1 .accepted]

theorem label_then_assign_dispatches_once :
    ((labelThenAssign.take 17).foldl Tracker.step (.start webhookProject 1 0 none 1000)).sent.length ≤ 1 := by
  refine dispatched_at_most_once labelThenAssign (by decide) ?_ ?_ 17
  · rw [forall_getElem?_iff]
    decide
  · rw [forall_getElem?_iff]
    decide

end OtterWorks.Tickets
