import OtterWorks.Portal.DataApi

namespace OtterWorks.Portal.DataApi

variable {calls : Nat → ApiCall}

/-- The attempts that a pattern of calls stands for. -/
def attempts (calls : Nat → ApiCall) (k : Nat) : Attempt Thrown := (calls k).attempt

/-- A save ends, whatever fuel beyond some amount it gets, and its result is as asked. -/
def EndsWith {α τ : Type} (save : Nat → Option (Retried α Thrown τ)) (asked : Retried α Thrown τ → Prop) : Prop :=
  ∃ r enough, (∀ more, save (enough + more) = some r) ∧ asked r

/-- One new row on return, under the id that is answered; at most one when it throws. -/
def FeedbackSaved (feedback : Feedback) (t : SerialTable FeedbackRow)
    (r : Retried Feedback Thrown (SerialTable FeedbackRow)) : Prop :=
  match r.outcome with
  | .returned saved => ∃ id, saved.id = some id ∧ id ∉ t.rows.map Prod.fst ∧
      r.table.rows = t.rows ++ [(id, FeedbackRepository.row feedback)]
  | _ => r.table.rows = t.rows ∨ ∃ id, r.table.rows = t.rows ++ [(id, FeedbackRepository.row feedback)]

/-- One row of the user on return, with the values that were saved; at most one when it throws. -/
def PreferenceSaved (preference : UserPreference) (r : Retried UserPreference Thrown PreferenceTable) : Prop :=
  match r.outcome with
  | .returned _ => r.table.rows.filter (fun row => row.userId = preference.userId) = [preference]
  | _ => (r.table.rows.filter fun row => row.userId = preference.userId).length ≤ 1

/-- Without an id as for feedback; with an id one row under it on return, and at most one when it throws. -/
def AnnouncementSaved (announcement : Announcement) (t : SerialTable AnnouncementRow)
    (r : Retried Announcement Thrown (SerialTable AnnouncementRow)) : Prop :=
  match announcement.id, r.outcome with
  | none, .returned saved => ∃ id, saved.id = some id ∧ id ∉ t.rows.map Prod.fst ∧
      r.table.rows = t.rows ++ [(id, AnnouncementRepository.row announcement)]
  | none, _ => r.table.rows = t.rows ∨ ∃ id, r.table.rows = t.rows ++ [(id, AnnouncementRepository.row announcement)]
  | some id, .returned _ =>
    r.table.rows.filter (fun row => row.1 = id) = [(id, AnnouncementRepository.row announcement)]
  | some id, _ => (r.table.rows.filter fun row => row.1 = id).length ≤ 1

/-- An attempt whose answer gets lost after it took effect is followed by another attempt that takes effect. -/
def WritesAgain (calls : Nat → ApiCall) : Prop :=
  ∃ i j, i < j ∧ Makes FeedbackRepository.policy (attempts calls) FeedbackRepository.firstDelay j ∧
    (attempts calls i).answer.applied = true ∧ (attempts calls j).answer.applied = true

/-- Some attempt of an announcement's save succeeds. -/
def Succeeds (calls : Nat → ApiCall) : Prop :=
  ∃ k, Makes AnnouncementRepository.policy (attempts calls) 0 k ∧ (attempts calls k).answer = .succeeded

section

variable {β : Type} {t : SerialTable β} {b : β} {id n : Nat}

theorem next_not_mem (t : SerialTable β) {id : Nat} (le : t.next ≤ id) : id ∉ t.rows.map Prod.fst := by
  intro member
  obtain ⟨row, held, rfl⟩ := List.mem_map.mp member
  have lt := t.drawn row held
  omega

/-- The rows that `n` inserts add. -/
theorem insert_iterate (t : SerialTable β) (b : β) (n : Nat) :
    ((fun t => t.insert b)^[n] t).rows = t.rows ++ (List.range n).map (fun i => (t.next + i, b)) ∧
      ((fun t => t.insert b)^[n] t).next = t.next + n := by
  induction n with
  | zero => simp
  | succ n ih =>
    obtain ⟨rows, next⟩ := ih
    rw [Function.iterate_succ_apply']
    constructor
    · show ((fun t => t.insert b)^[n] t).rows ++ [(((fun t => t.insert b)^[n] t).next, b)] = _
      rw [rows, next, List.range_succ, List.map_append, List.append_assoc]
      rfl
    · show ((fun t => t.insert b)^[n] t).next + 1 = _
      rw [next]
      omega

theorem one_insert_iff (t : SerialTable β) (b : β) (before : Nat) :
    (∃ id, some (t.next + before) = some id ∧ id ∉ t.rows.map Prod.fst ∧
      ((fun t => t.insert b)^[before + 1] t).rows = t.rows ++ [(id, b)]) ↔ before + 1 ≤ 1 := by
  rw [(insert_iterate t b (before + 1)).1]
  constructor
  · intro h
    obtain ⟨id, _, _, same⟩ := h
    have length := congrArg List.length (List.append_cancel_left same)
    rw [List.length_map, List.length_range, List.length_singleton] at length
    omega
  · intro le
    have first : before = 0 := by omega
    subst first
    exact ⟨t.next, rfl, next_not_mem t (Nat.le_refl _), rfl⟩

theorem few_inserts_iff (t : SerialTable β) (b : β) (n : Nat) :
    (((fun t => t.insert b)^[n] t).rows = t.rows ∨ ∃ id, ((fun t => t.insert b)^[n] t).rows = t.rows ++ [(id, b)]) ↔
      n ≤ 1 := by
  rw [(insert_iterate t b n).1]
  constructor
  · intro h
    rcases h with same | ⟨id, same⟩
    · have length := congrArg List.length same
      simp at length
      omega
    · have length := congrArg List.length (List.append_cancel_left same)
      rw [List.length_map, List.length_range, List.length_singleton] at length
      omega
  · intro le
    by_cases none' : n = 0
    · subst none'
      exact Or.inl (by simp)
    · have one : n = 1 := by omega
      subst one
      exact Or.inr ⟨t.next, rfl⟩

end

/-- At most one effect among the attempts of a feedback's save. -/
theorem appliedIn_iff {n : Nat} (makes : ∀ j, Makes FeedbackRepository.policy (attempts calls)
    FeedbackRepository.firstDelay j ↔ j < n) : appliedIn (attempts calls) n ≤ 1 ↔ ¬WritesAgain calls := by
  rw [appliedIn_le_one_iff]
  constructor
  · intro h again
    obtain ⟨i, j, lt, made, first, second⟩ := again
    exact h i j lt ((makes j).mp made) ⟨first, second⟩
  · intro h i j lt bound both
    exact h ⟨i, j, lt, (makes j).mpr bound, both.1, both.2⟩

theorem feedback_ends (calls : Nat → ApiCall) (feedback : Feedback) (t : SerialTable FeedbackRow) :
    ∃ r enough, ∀ more, FeedbackRepository.save calls feedback (enough + more) t = some r := by
  have drops : ∀ s now e pause s' earlier later, FeedbackRepository.policy s now e = some (pause, s') → earlier ≤ now →
      now + pause ≤ later → FeedbackRepository.retryWindowNanos - later < FeedbackRepository.retryWindowNanos - earlier := by
    intro s now e pause s' earlier later decision le slept
    unfold FeedbackRepository.policy at decision
    split at decision
    · cases decision
    next goes =>
      have inside := (not_or.mp goes).2
      cases Option.some.inj decision
      have pos := s.pos
      omega
  obtain ⟨r, ends⟩ := retry_ends (fun _ clock => FeedbackRepository.retryWindowNanos - clock) drops
    (FeedbackRepository.write feedback) (attempts calls) 0 t (Nat.lt_succ_self _)
  exact ⟨r, _, ends⟩

theorem feedback_saved_iff (calls : Nat → ApiCall) (feedback : Feedback) (t : SerialTable FeedbackRow) :
    EndsWith (fun fuel => FeedbackRepository.save calls feedback fuel t)
      (fun r => FeedbackSaved feedback t r ↔ ¬WritesAgain calls) := by
  obtain ⟨r, enough, ends⟩ := feedback_ends calls feedback t
  refine ⟨r, enough, ends, ?_⟩
  obtain ⟨makes, table, returned, _⟩ := retry_spec (ends 0)
  have after : tableAfter (FeedbackRepository.write feedback) = fun t => t.insert (FeedbackRepository.row feedback) := rfl
  rw [after] at table returned
  rw [← appliedIn_iff makes]
  change r.table = (fun t => t.insert (FeedbackRepository.row feedback))^[appliedIn (attempts calls) r.attempts] t at table
  unfold FeedbackSaved
  rw [table]
  cases outcome : r.outcome with
  | returned saved =>
    obtain ⟨before, count, answer⟩ := returned saved outcome
    change appliedIn (attempts calls) r.attempts = before + 1 at count
    have id : saved.id = some (t.next + before) := by
      rw [answer, ← (insert_iterate t (FeedbackRepository.row feedback) before).2]
      rfl
    dsimp only
    rw [id, count]
    exact one_insert_iff t _ before
  | threw e => exact few_inserts_iff t _ _
  | interrupted e => exact few_inserts_iff t _ _

theorem preference_ends (calls : Nat → ApiCall) (preference : UserPreference) (t : PreferenceTable) :
    ∃ r enough, ∀ more, PreferenceRepository.save calls preference (enough + more) t = some r := by
  have drops : ∀ s now e pause s' earlier later, PreferenceRepository.policy s now e = some (pause, s') → earlier ≤ now →
      now + pause ≤ later → PreferenceRepository.maxAttempts - s' < PreferenceRepository.maxAttempts - s := by
    intro s now e pause s' earlier later decision _ _
    unfold PreferenceRepository.policy at decision
    split at decision
    · cases decision
    next goes =>
      have more := (not_or.mp goes).1
      cases Option.some.inj decision
      omega
  obtain ⟨r, ends⟩ := retry_ends (fun s _ => PreferenceRepository.maxAttempts - s) drops
    (PreferenceRepository.write preference) (attempts calls) 0 t (Nat.lt_succ_self _)
  exact ⟨r, _, ends⟩

theorem put_filter (preference : UserPreference) (t : PreferenceTable) :
    (PreferenceRepository.put preference t).rows.filter (fun row => row.userId = preference.userId) = [preference] := by
  have member : preference ∈ (PreferenceRepository.put preference t).rows := by
    show preference ∈ upsert _ _ _ _
    by_cases held : t.rows.any (fun r => r.userId = preference.userId) = true
    · rw [upsert_conflict held]
      obtain ⟨r, there, same⟩ := List.any_eq_true.mp held
      refine List.mem_map.mpr ⟨r, there, ?_⟩
      rw [if_pos same, of_decide_eq_true same]
    · have fresh : t.rows.any (fun r => r.userId = preference.userId) = false := by simpa using held
      rw [upsert_new fresh]
      simp
  exact filter_key (PreferenceRepository.put preference t).keyed member

theorem preference_saved (calls : Nat → ApiCall) (preference : UserPreference) (t : PreferenceTable) :
    EndsWith (fun fuel => PreferenceRepository.save calls preference fuel t) (PreferenceSaved preference) := by
  obtain ⟨r, enough, ends⟩ := preference_ends calls preference t
  refine ⟨r, enough, ends, ?_⟩
  obtain ⟨_, table, returned, _⟩ := retry_spec (ends 0)
  unfold PreferenceSaved
  cases outcome : r.outcome with
  | returned saved =>
    obtain ⟨before, count, _⟩ := returned saved outcome
    rw [count, Function.iterate_succ_apply'] at table
    dsimp only
    rw [table]
    exact put_filter preference _
  | threw e => exact filter_key_le_one r.table.keyed _
  | interrupted e => exact filter_key_le_one r.table.keyed _

theorem announcement_ends (calls : Nat → ApiCall) (announcement : Announcement) (t : SerialTable AnnouncementRow) :
    ∃ r enough, ∀ more, AnnouncementRepository.save calls announcement (enough + more) t = some r := by
  have drops : ∀ s now e pause s' earlier later, AnnouncementRepository.policy s now e = some (pause, s') → earlier ≤ now →
      now + pause ≤ later → AnnouncementRepository.windowNanos - later < AnnouncementRepository.windowNanos - earlier := by
    intro s now e pause s' earlier later decision le slept
    unfold AnnouncementRepository.policy at decision
    split at decision
    · cases decision
    next goes =>
      have inside := (not_or.mp goes).2
      obtain ⟨sleep, _⟩ := Prod.mk.inj (Option.some.inj decision)
      have pos : 0 < pause := by
        rw [← sleep]
        exact Nat.mul_pos (by omega) (by decide)
      generalize AnnouncementRepository.windowNanos = window at *
      omega
  obtain ⟨r, ends⟩ := retry_ends (fun _ clock => AnnouncementRepository.windowNanos - clock) drops
    (AnnouncementRepository.write announcement) (attempts calls) 0 t (Nat.lt_succ_self _)
  exact ⟨r, _, ends⟩

/-- A link failure is not retried, so no attempt but the last takes effect. -/
theorem announcement_applied_once {n : Nat}
    (makes : ∀ j, Makes AnnouncementRepository.policy (attempts calls) 0 j ↔ j < n) : appliedIn (attempts calls) n ≤ 1 := by
  rw [appliedIn_le_one_iff]
  intro i j lt bound both
  have next : Makes AnnouncementRepository.policy (attempts calls) 0 (i + 1) := (makes (i + 1)).mpr (by omega)
  rw [Makes, stateAt] at next
  cases here : stateAt AnnouncementRepository.policy (attempts calls) 0 i with
  | none => simp [here] at next
  | some state =>
    rw [here] at next
    dsimp only at next
    cases answer : (calls i).answer with
    | succeeded => simp [attempts, ApiCall.attempt, answer] at next
    | failedBefore e =>
      have first := both.1
      simp [attempts, ApiCall.attempt, answer, Answer.applied] at first
    | linkFailed e =>
      have other : (e.thrown.head?.any Throwable.isResuming) = false := by
        have all := e.other
        cases thrown : e.thrown with
        | nil => rfl
        | cons top causes =>
          rw [thrown] at all
          simp only [List.any_cons, Bool.or_eq_false_iff] at all
          exact all.1
      simp [attempts, ApiCall.attempt, answer, AnnouncementRepository.policy, other] at next

theorem update_rows {β : Type} (t : SerialTable β) (b : β) {id : Nat} (held : id ∈ t.rows.map Prod.fst) :
    (t.update id b).rows.filter (fun row => row.1 = id) = [(id, b)] := by
  obtain ⟨row, member, rfl⟩ := List.mem_map.mp held
  have there : (row.1, b) ∈ (t.update row.1 b).rows := List.mem_map.mpr ⟨row, member, by simp⟩
  exact filter_key (t.update row.1 b).distinct there

/-- An update adds no row. -/
theorem update_iterate {β : Type} (t : SerialTable β) (id : Nat) (b : β) (n : Nat) :
    ((fun t => t.update id b)^[n] t).rows.map Prod.fst = t.rows.map Prod.fst := by
  induction n with
  | zero => rfl
  | succ n ih =>
    rw [Function.iterate_succ_apply', ← ih]
    exact map_updated fun row _ _ => rfl

theorem announcement_saved_iff (calls : Nat → ApiCall) (announcement : Announcement) (t : SerialTable AnnouncementRow) :
    EndsWith (fun fuel => AnnouncementRepository.save calls announcement fuel t) (fun r =>
      AnnouncementSaved announcement t r ↔ ∀ id ∈ announcement.id, id ∈ t.rows.map Prod.fst ∨ ¬Succeeds calls) := by
  obtain ⟨r, enough, ends⟩ := announcement_ends calls announcement t
  refine ⟨r, enough, ends, ?_⟩
  obtain ⟨makes, table, returned, _⟩ := retry_spec (ends 0)
  have once := announcement_applied_once makes
  change r.table = _^[appliedIn (attempts calls) r.attempts] t at table
  unfold AnnouncementSaved
  cases key : announcement.id with
  | none =>
    have after : tableAfter (AnnouncementRepository.write announcement) =
        fun t => t.insert (AnnouncementRepository.row announcement) := by
      funext t
      simp only [tableAfter, AnnouncementRepository.write, key]
    rw [after] at table returned
    rw [table]
    refine iff_of_true ?_ (by simp)
    cases outcome : r.outcome with
    | returned saved =>
      obtain ⟨before, count, answer⟩ := returned saved outcome
      change appliedIn (attempts calls) r.attempts = before + 1 at count
      have id : saved.id = some (t.next + before) := by
        rw [answer, ← (insert_iterate t (AnnouncementRepository.row announcement) before).2]
        simp only [AnnouncementRepository.write, key]
      dsimp only
      rw [id, count]
      exact (one_insert_iff t _ before).mpr (by omega)
    | threw e => exact (few_inserts_iff t _ _).mpr once
    | interrupted e => exact (few_inserts_iff t _ _).mpr once
  | some id =>
    have after : tableAfter (AnnouncementRepository.write announcement) =
        fun t => t.update id (AnnouncementRepository.row announcement) := by
      funext t
      simp only [tableAfter, AnnouncementRepository.write, key]
    rw [after] at table returned
    have succeeds := returned_iff (ends 0)
    have keys : r.table.rows.map Prod.fst = t.rows.map Prod.fst := by
      rw [table]
      exact update_iterate t id _ _
    cases outcome : r.outcome with
    | returned saved =>
      have succeeded : Succeeds calls := succeeds.mp ⟨saved, outcome⟩
      obtain ⟨before, count, _⟩ := returned saved outcome
      change appliedIn (attempts calls) r.attempts = before + 1 at count
      dsimp only
      constructor
      · intro one id' member
        cases Option.some.inj (Option.mem_def.mp member)
        have there : (id, AnnouncementRepository.row announcement) ∈ r.table.rows := by
          refine List.mem_of_mem_filter (p := fun row => row.1 = id) ?_
          rw [one]
          exact List.mem_cons_self ..
        rw [← keys]
        exact Or.inl (List.mem_map_of_mem there)
      · intro held
        have there := (held id rfl).resolve_right (not_not_intro succeeded)
        rw [count, Function.iterate_succ_apply'] at table
        rw [table]
        refine update_rows _ _ ?_
        rw [update_iterate]
        exact there
    | threw e =>
      have failed : ¬Succeeds calls := fun h => by
        obtain ⟨a, same⟩ := succeeds.mpr h
        rw [outcome] at same
        cases same
      exact iff_of_true (filter_key_le_one r.table.distinct id) fun _ _ => Or.inr failed
    | interrupted e =>
      have failed : ¬Succeeds calls := fun h => by
        obtain ⟨a, same⟩ := succeeds.mpr h
        rw [outcome] at same
        cases same
      exact iff_of_true (filter_key_le_one r.table.distinct id) fun _ _ => Or.inr failed

/-- Every save ends. A preference is stored once whatever the answers; an announcement too, if the row that its id names is
there; a feedback exactly if no attempt takes effect after one whose answer got lost. -/
theorem saved_once_iff (calls : Nat → ApiCall) :
    (∀ feedback t, EndsWith (fun fuel => FeedbackRepository.save calls feedback fuel t)
      fun r => FeedbackSaved feedback t r ↔ ¬WritesAgain calls) ∧
    (∀ preference t, EndsWith (fun fuel => PreferenceRepository.save calls preference fuel t)
      fun r => PreferenceSaved preference r) ∧
    ∀ announcement t, EndsWith (fun fuel => AnnouncementRepository.save calls announcement fuel t) fun r =>
      AnnouncementSaved announcement t r ↔ ∀ id ∈ announcement.id, id ∈ t.rows.map Prod.fst ∨ ¬Succeeds calls :=
  ⟨feedback_saved_iff calls, preference_saved calls, announcement_saved_iff calls⟩

/-- The first answer is lost, and the second attempt succeeds. -/
def lostOnce (k : Nat) : ApiCall where
  answer := if k = 0 then .linkFailed ⟨[⟨"BadRequestException", some "Communications link failure"⟩], by decide +kernel,
    by decide +kernel⟩ else .succeeded

def emptyTable {β : Type} : SerialTable β := ⟨[], 1, by simp, by simp⟩

def praise : Feedback := ⟨none, "ana", 5, "Nice", 1714557600000000000⟩

theorem lost_answer_doubles :
    ((FeedbackRepository.save lostOnce praise 5 emptyTable).map fun r => (r.outcome, r.attempts, r.table.rows)) =
        some (.returned { praise with id := some 2 }, 2,
          [(1, FeedbackRepository.row praise), (2, FeedbackRepository.row praise)]) ∧
      ¬EndsWith (fun fuel => FeedbackRepository.save lostOnce praise fuel emptyTable)
        fun r => FeedbackSaved praise emptyTable r := by
  refine ⟨by decide +kernel, ?_⟩
  intro saved
  have again : WritesAgain lostOnce := by
    refine ⟨0, 1, by omega, ?_, rfl, rfl⟩
    show (stateAt _ _ _ 1).isSome = true
    decide +kernel
  obtain ⟨r, enough, ends, once⟩ := saved
  obtain ⟨r', enough', ends', once'⟩ := feedback_saved_iff lostOnce praise emptyTable
  have same : some r = some r' := by
    rw [← ends enough', ← ends' enough]
    dsimp only
    rw [Nat.add_comm]
  rw [Option.some.inj same] at once
  exact once'.mp once again

end OtterWorks.Portal.DataApi
