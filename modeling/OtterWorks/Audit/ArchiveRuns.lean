import OtterWorks.Audit.Archiver
import OtterWorks.Lib.Transition

namespace OtterWorks.Audit

section

variable {Id Time : Type} {archives : List (List (AuditEvent Id Time))} {events : List (AuditEvent Id Time)}

/-- What a run has booked: its object is written before it deletes, and each of its events is removed, failed or still
to come. -/
def Run.Booked (archives : List (List (AuditEvent Id Time))) (run : Run Id Time) : Prop :=
  match run.phase with
  | .scanning _ _ => run.removed = 0
  | .writing _ => run.removed = 0
  | .deleting events batches pending _ totalFailed => events ∈ archives ∧
      run.removed + totalFailed + pending.length + batches.flatten.length = events.length
  | .returned archivedCount => archivedCount = run.removed
  | .raised => True

theorem Run.Booked.more {run : Run Id Time} (h : run.Booked archives) (events : List (AuditEvent Id Time)) :
    run.Booked (archives ++ [events]) := by
  rw [Run.Booked] at h ⊢
  split at h
  next => exact h
  next => exact h
  next => exact ⟨List.mem_append_left _ h.1, h.2⟩
  next => exact h
  next => trivial

theorem nextBatch_booked {olderThan : Time} {removed totalFailed : Nat} {batches : List (List Id)}
    (written : events ∈ archives) (all : removed + totalFailed + batches.flatten.length = events.length) :
    (⟨olderThan, nextBatch events totalFailed batches, removed⟩ : Run Id Time).Booked archives := by
  cases batches with
  | nil =>
    change events.length - totalFailed = removed
    rw [List.flatten_nil, List.length_nil] at all
    omega
  | cons batch batches =>
    rw [List.flatten_cons, List.length_append] at all
    refine ⟨written, ?_⟩
    change removed + totalFailed + batch.length + batches.flatten.length = events.length
    omega

end

variable {Id Time : Type} [Ord Id] [Std.TransOrd Id] {format : DateFormat Time} {s : State Id Time}

namespace State

/-- What every step keeps. -/
structure Inv (format : DateFormat Time) (s : State Id Time) : Prop where
  stored : ∀ id item, s.table[id]? = some item → s.saved id = some item
  kept : ∀ id item, s.saved id = some item →
    s.table[id]? = some item ∨ ∃ object ∈ s.archives, ∃ e ∈ object, e.item format = item
  booked : ∀ run ∈ s.runs, run.Booked s.archives

theorem Inv.safe (h : Inv format s) : s.Safe format := by
  refine ⟨h.kept, ?_⟩
  intro run member archivedCount returned
  have booked := h.booked run member
  rw [Run.Booked, returned] at booked
  exact booked

theorem inv_empty : Inv format (empty : State Id Time) := by
  refine ⟨?_, ?_, ?_⟩
  · intro id item found
    cases (Std.ExtTreeMap.getElem?_empty : (∅ : KeyMap Id (Item Id))[id]? = none).symm.trans found
  · intro id item saved
    cases saved
  · intro run member
    cases member

theorem Inv.runs (h : Inv format s) {runs : List (Run Id Time)} (booked : ∀ run ∈ runs, run.Booked s.archives) :
    Inv format { s with runs := runs } := ⟨h.stored, h.kept, booked⟩

theorem Inv.archive (h : Inv format s) (events : List (AuditEvent Id Time)) :
    Inv format { s with archives := s.archives ++ [events] } := by
  refine ⟨h.stored, ?_, fun run member => (h.booked run member).more events⟩
  intro id item saved
  refine (h.kept id item saved).imp_right ?_
  rintro ⟨object, member, found⟩
  exact ⟨object, List.mem_append_left _ member, found⟩

theorem Inv.setPhase (h : Inv format s) {i : Nat} {run : Run Id Time} {phase : Phase Id Time}
    (booked : ({ run with phase := phase } : Run Id Time).Booked s.archives) : Inv format (s.setPhase i run phase) := by
  apply h.runs
  intro other member
  rcases List.mem_or_eq_of_mem_set member with old | rfl
  · exact h.booked other old
  · exact booked

theorem scanPage_booked {archives : List (List (AuditEvent Id Time))} {run : Run Id Time} (none : run.removed = 0)
    (last : Option Id) (events : List (AuditEvent Id Time)) (size : Nat) :
    ({ run with phase := s.scanPage format run.olderThan last events size } : Run Id Time).Booked archives := by
  rw [scanPage]
  split
  next =>
    split
    next => exact none.symm
    next => exact none
  next => exact none

section

variable [Std.LawfulEqOrd Id] [DecidableEq Id]

theorem Inv.save (h : Inv format s) (e : AuditEvent Id Time) : Inv format (s.save format e) := by
  have table (id : Id) : (s.save format e).table[id]? = if id = e.id then some (e.item format) else s.table[id]? := by
    change (s.table.insert e.id (e.item format))[id]? = _
    have key : compare e.id id = .eq ↔ e.id = id := Std.LawfulEqOrd.compare_eq_iff_eq
    rw [Std.ExtTreeMap.getElem?_insert]
    by_cases same : id = e.id
    · rw [if_pos same, if_pos (key.mpr same.symm)]
    · rw [if_neg same, if_neg fun eq => same (key.mp eq).symm]
  refine ⟨?_, ?_, h.booked⟩
  · intro id item found
    change (if id = e.id then some (e.item format) else s.saved id) = some item
    rw [table] at found
    by_cases same : id = e.id
    · rw [if_pos same] at found ⊢
      exact found
    · rw [if_neg same] at found ⊢
      exact h.stored id item found
  · intro id item saved
    change (if id = e.id then some (e.item format) else s.saved id) = some item at saved
    rw [table]
    by_cases same : id = e.id
    · rw [if_pos same] at saved ⊢
      exact .inl saved
    · rw [if_neg same] at saved ⊢
      exact h.kept id item saved

/-- Removing items that an archive object holds. -/
theorem Inv.remove (h : Inv format s) {i : Nat} {run : Run Id Time} {processed : List Id} {phase : Phase Id Time}
    (copied : ∀ id ∈ processed, ∀ item, s.table[id]? = some item →
      ∃ object ∈ s.archives, ∃ e ∈ object, e.item format = item)
    (booked : (⟨run.olderThan, phase, run.removed + (processed.filter (· ∈ s.table)).length⟩ : Run Id Time).Booked s.archives) :
    Inv format (s.remove i run processed phase) := by
  have table (id : Id) : (s.remove i run processed phase).table[id]? = if id ∈ processed then none else s.table[id]? :=
    KeyMap.getElem?_dropKeys s.table processed id
  refine ⟨?_, ?_, ?_⟩
  · intro id item found
    rw [table] at found
    split at found
    next => cases found
    next => exact h.stored id item found
  · intro id item saved
    rw [table]
    rcases h.kept id item saved with there | archived
    · by_cases gone : id ∈ processed
      · exact .inr (copied id gone item there)
      · rw [if_neg gone]
        exact .inl there
    · exact .inr archived
  · intro other member
    rcases List.mem_or_eq_of_mem_set member with old | rfl
    · exact h.booked other old
    · exact booked

theorem Inv.deleteBatch (h : Inv format s) {i : Nat} {run : Run Id Time} {events : List (AuditEvent Id Time)}
    {batches : List (List Id)} {pending unprocessed : List Id} {retryCount totalFailed : Nat}
    (written : events ∈ s.archives)
    (all : run.removed + totalFailed + pending.length + batches.flatten.length = events.length)
    (undisturbed : ∀ id ∈ pending, id ∉ unprocessed → ∃ e ∈ events, s.table[id]? = some (e.item format)) :
    Inv format (s.deleteBatch i run events batches pending retryCount totalFailed unprocessed) := by
  rw [State.deleteBatch]
  split
  next =>
    have parts : (pending.filter (· ∉ unprocessed)).length + (pending.filter (· ∈ unprocessed)).length = pending.length := by
      rw [Nat.add_comm, List.length_eq_length_filter_add (l := pending) fun id => decide (id ∈ unprocessed)]
      simp
    have present : (pending.filter (· ∉ unprocessed)).filter (· ∈ s.table) = pending.filter (· ∉ unprocessed) := by
      apply List.filter_eq_self.mpr
      intro id member
      obtain ⟨asked, processed⟩ := List.mem_filter.mp member
      obtain ⟨e, -, there⟩ := undisturbed id asked (by simpa using processed)
      have held : id ∈ s.table := Std.ExtTreeMap.mem_iff_isSome_getElem?.mpr (by simp [there])
      simpa using held
    apply h.remove
    · intro id member item there
      obtain ⟨asked, processed⟩ := List.mem_filter.mp member
      obtain ⟨e, read, there'⟩ := undisturbed id asked (by simpa using processed)
      exact ⟨events, written, e, read, Option.some.inj (there'.symm.trans there)⟩
    · rw [present]
      split
      next =>
        refine ⟨written, ?_⟩
        change run.removed + (pending.filter (· ∉ unprocessed)).length + totalFailed +
          (pending.filter (· ∈ unprocessed)).length + batches.flatten.length = events.length
        omega
      next =>
        apply nextBatch_booked written
        omega
  next => exact h.setPhase trivial

theorem Inv.step (h : Inv format s) (step : Step Id Time) (undisturbed : s.Undisturbed format step) :
    Inv format (s.step format step) := by
  cases step with
  | record request newGuid utcNow => exact h.save _
  | deliver messageId message utcNow =>
    cases read : message.entity messageId utcNow with
    | none => simpa only [State.step, read] using h
    | some e => simpa only [State.step, read] using h.save e
  | begin olderThan =>
    apply h.runs
    intro run member
    rcases List.mem_append.mp member with old | new
    · exact h.booked run old
    · cases List.mem_singleton.mp new
      rfl
  | scan i size =>
    cases there : s.runs[i]? with
    | none => simpa only [State.step, there] using h
    | some run =>
      have booked := h.booked run (List.mem_of_getElem? there)
      rw [Run.Booked] at booked
      cases phase : run.phase with
      | scanning last events =>
        rw [phase] at booked
        simp only [State.step, there, phase]
        exact h.setPhase (scanPage_booked booked last events size)
      | _ => simpa only [State.step, there, phase] using h
  | put i =>
    cases there : s.runs[i]? with
    | none => simpa only [State.step, there] using h
    | some run =>
      have booked := h.booked run (List.mem_of_getElem? there)
      rw [Run.Booked] at booked
      cases phase : run.phase with
      | writing events =>
        rw [phase] at booked
        simp only [State.step, there, phase]
        apply (h.archive events).setPhase
        apply nextBatch_booked (List.mem_append_right _ (List.mem_singleton_self events))
        have whole : (slices 25 (events.map AuditEvent.id)).flatten = events.map AuditEvent.id := slices_flatten (by decide) _
        rw [whole, List.length_map]
        omega
      | _ => simpa only [State.step, there, phase] using h
  | delete i unprocessed =>
    cases there : s.runs[i]? with
    | none => simpa only [State.step, there] using h
    | some run =>
      have booked := h.booked run (List.mem_of_getElem? there)
      have still := undisturbed run there
      rw [Run.Booked] at booked
      cases phase : run.phase with
      | deleting events batches pending retryCount totalFailed =>
        rw [phase] at booked still
        simp only [State.step, there, phase]
        exact h.deleteBatch booked.1 booked.2 still
      | _ => simpa only [State.step, there, phase] using h
  | fail i written deleted =>
    cases there : s.runs[i]? with
    | none => simpa only [State.step, there] using h
    | some run =>
      have booked := h.booked run (List.mem_of_getElem? there)
      have still := undisturbed run there
      rw [Run.Booked] at booked
      cases phase : run.phase with
      | scanning last events =>
        simp only [State.step, there, phase]
        exact h.setPhase trivial
      | writing events =>
        simp only [State.step, there, phase]
        cases written with
        | true => exact (h.archive events).setPhase trivial
        | false => exact h.setPhase trivial
      | deleting events batches pending retryCount totalFailed =>
        rw [phase] at booked still
        simp only [State.step, there, phase]
        apply h.remove
        · intro id member item found
          obtain ⟨asked, gone⟩ := List.mem_filter.mp member
          obtain ⟨e, read, same⟩ := still id asked (by simpa using gone) item found
          exact ⟨events, booked.1, e, read, same⟩
        · trivial
      | _ => simpa only [State.step, there, phase] using h

end

end State

/-- If no call takes out of the table what its run did not read, no saved event is lost and every run that returns
reports what it removed. -/
theorem archiving_keeps_events [Std.LawfulEqOrd Id] [DecidableEq Id] (format : DateFormat Time) (steps : List (Step Id Time))
    (undisturbed : ∀ n step, steps[n]? = some step → (State.after format steps n).Undisturbed format step) (n : Nat) :
    (State.after format steps n).Safe format := by
  have inv : State.Inv format (State.after format steps n) :=
    @foldl_always_of _ _ (State.step format) (State.Inv format) (State.Undisturbed format)
      (fun _ step met h => h.step step met) _ State.inv_empty steps undisturbed n
  exact inv.safe

section

def isoText : DateFormat Text := ⟨⟨id, some, text "0001-01-01T00:00:00.0000000", fun a b => (compare a b).isLE⟩, fun _ => rfl⟩

def loginAt (id time : String) : Step Text Text :=
  .record ⟨text "u1", text "login", text "user", text "u1", none, none, none⟩ (text id) (text time)

def login : Step Text Text := loginAt "e1" "2025-01-01T00:00:00.0000000Z"

/-- One run archives two of three events, in pages of one, and removes the second on its retry; the next run archives the
third. -/
def archivedInTurn : List (Step Text Text) :=
  [login, loginAt "e2" "2025-02-01T00:00:00.0000000Z", loginAt "e3" "2025-07-01T00:00:00.0000000Z",
    .begin (text "2025-06-01T00:00:00.0000000Z"), .scan 0 1, .scan 0 1, .scan 0 1, .scan 0 1, .put 0,
    .begin (text "2025-08-01T00:00:00.0000000Z"), .delete 0 [text "e2"], .delete 0 [], .scan 1 10, .put 1, .delete 1 []]

theorem archived_in_turn_safe : (State.after isoText archivedInTurn 15).Safe isoText ∧
    (State.after isoText archivedInTurn 15).runs.map Run.removed = [2, 1] :=
  ⟨archiving_keeps_events isoText archivedInTurn (forall_getElem?_iff.mpr (by decide +kernel)) 15, by decide +kernel⟩

/-- Two runs that both read the event before either deletes it. -/
def archivedTwice : List (Step Text Text) :=
  [login, .begin (text "2025-06-01T00:00:00.0000000Z"), .begin (text "2025-06-01T00:00:00.0000000Z"), .scan 0 10,
    .scan 1 10, .put 0, .put 1, .delete 0 [], .delete 1 []]

def undated : Message Text := .audit (some (text "u1")) (some (text "read")) (some (text "file")) none none none none none

/-- An undated message that comes again between the scan and the delete. -/
def redelivered : List (Step Text Text) :=
  [.deliver (text "m1") undated (text "2025-01-01T00:00:00.0000000Z"), .begin (text "2025-01-08T00:00:00.0000000Z"),
    .scan 0 10, .deliver (text "m1") undated (text "2025-01-10T00:00:00.0000000Z"), .put 0, .delete 0 []]

/-- The second run reports an event that it did not remove, and the message's last form is lost. -/
theorem overlapping_runs_unsafe :
    ¬ (State.after isoText archivedTwice 9).Safe isoText ∧ ¬ (State.after isoText redelivered 6).Safe isoText := by
  constructor
  · intro safe
    have counted := safe.counted ⟨text "2025-06-01T00:00:00.0000000Z", .returned 1, 0⟩ (by decide +kernel) 1 rfl
    cases counted
  · intro safe
    have saved : (State.after isoText redelivered 6).saved (text "m1") =
        (undated.entity (text "m1") (text "2025-01-10T00:00:00.0000000Z")).map (AuditEvent.item isoText) := by
      decide +kernel
    rcases safe.kept (text "m1") _ saved with there | archived
    · revert there
      decide +kernel
    · revert archived
      decide +kernel

end

end OtterWorks.Audit
