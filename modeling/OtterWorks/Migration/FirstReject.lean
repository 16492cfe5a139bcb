import OtterWorks.Migration.Routing

namespace OtterWorks.Migration

/-- The first reject of a key that a list of flushes writes: the one that `mig.rejects` keeps. -/
def firstLog (ts : TableSpec) (staging : KeyMap Key StagedRow) (k : Key) (fs : List Flush) : Option Reject :=
  (fs.flatMap (flushLog ts staging)).find? fun r => r.sourceKey = k

section

variable {ts : TableSpec} {staging : KeyMap Key StagedRow} {k : Key}

theorem firstLog_append (fs gs : List Flush) :
    firstLog ts staging k (fs ++ gs) = (firstLog ts staging k fs).or (firstLog ts staging k gs) := by
  simp [firstLog, List.flatMap_append, List.find?_append]

theorem mem_log {fs : List Flush} {r : Reject} (h : r ∈ fs.flatMap (flushLog ts staging)) :
    r ∈ fs.flatMap Flush.rejects ∨
      ∃ row ∈ fs.flatMap Flush.batch, ∃ e, stagingError ts staging row = some e ∧ r = failureReject ts e row := by
  obtain ⟨f, hf, hr⟩ := List.mem_flatMap.mp h
  rcases List.mem_append.mp hr with hr | hr
  · exact Or.inl (List.mem_flatMap.mpr ⟨f, hf, hr⟩)
  · obtain ⟨row, hrow, he⟩ := List.mem_filterMap.mp hr
    obtain ⟨e, herr, rfl⟩ := Option.map_eq_some_iff.mp he
    exact Or.inr ⟨row, List.mem_flatMap.mpr ⟨f, hf, hrow⟩, e, herr, rfl⟩

theorem failureReject_sourceKey {e : InsertFailure} {row : StagedRow}
    (he : stagingError ts staging row = some e) : (failureReject ts e row).sourceKey = row.sourceKey :=
  stagingError_sourceKey he

theorem firstLog_none {fs : List Flush} (noReject : ∀ r ∈ fs.flatMap Flush.rejects, r.sourceKey ≠ k)
    (taken : ∀ row ∈ fs.flatMap Flush.batch, row.sourceKey = k → stagingError ts staging row = none) :
    firstLog ts staging k fs = none := by
  apply List.find?_eq_none.mpr
  intro r hr same
  have same : r.sourceKey = k := by simpa using same
  rcases mem_log hr with hr | ⟨row, hrow, e, he, rfl⟩
  · exact noReject r hr same
  · rw [failureReject_sourceKey he] at same
    rw [taken row hrow same] at he
    cases he

/-- Where no reject of the key was queued, a refused row is the first. -/
theorem firstLog_failure {fs : List Flush} (noReject : ∀ r ∈ fs.flatMap Flush.rejects, r.sourceKey ≠ k)
    (only : ∀ row ∈ fs.flatMap Flush.batch, ∀ other ∈ fs.flatMap Flush.batch,
      row.sourceKey = k → other.sourceKey = k → row = other)
    {row : StagedRow} (hrow : row ∈ fs.flatMap Flush.batch) (hk : row.sourceKey = k) {e : InsertFailure}
    (he : stagingError ts staging row = some e) :
    firstLog ts staging k fs = some (failureReject ts e row) := by
  have logged : failureReject ts e row ∈ fs.flatMap (flushLog ts staging) := by
    obtain ⟨f, hf, hr⟩ := List.mem_flatMap.mp hrow
    apply List.mem_flatMap.mpr
    refine ⟨f, hf, List.mem_append_right _ (List.mem_filterMap.mpr ⟨row, hr, ?_⟩)⟩
    rw [he]
    rfl
  cases hf : firstLog ts staging k fs with
  | none =>
    have := List.find?_eq_none.mp hf _ logged
    rw [failureReject_sourceKey he] at this
    simp [hk] at this
  | some r =>
    have same : r.sourceKey = k := by simpa using List.find?_some hf
    rcases mem_log (List.mem_of_find?_eq_some hf) with hr | ⟨other, ho, e', he', rfl⟩
    · exact absurd same (noReject r hr)
    · rw [failureReject_sourceKey he'] at same
      cases only row hrow other ho hk same
      rw [he] at he'
      cases he'
      rfl

/-- A queued reject is written before whatever comes after it. -/
theorem firstLog_queued {n : Nat} {pending : Flush} {r : Reject}
    (queued : (pending.rejects.find? fun r => r.sourceKey = k) = some r) (l : List Routed) :
    firstLog ts staging k (sinkFlushes n pending l) = some r := by
  have head : ∀ (f : Flush) (fs : List Flush), (f.rejects.find? fun r => r.sourceKey = k) = some r →
      firstLog ts staging k (f :: fs) = some r := by
    intro f fs hf
    simp [firstLog, flushLog, List.find?_append, hf]
  induction l generalizing pending with
  | nil => exact head _ _ queued
  | cons x l ih =>
    unfold sinkFlushes
    cases ho : x.outcome with
    | inl reject =>
      have later : ((pending.rejects ++ [reject]).find? fun r => r.sourceKey = k) = some r := by
        simp [List.find?_append, queued]
      simp only
      split
      · exact head _ _ later
      · exact ih later
    | inr row =>
      simp only
      split
      · exact head _ _ queued
      · exact ih queued

/-- A record that writes no reject of the key: of another key, or a row that the target takes. -/
def Silent (ts : TableSpec) (staging : KeyMap Key StagedRow) (k : Key) (x : Routed) : Prop :=
  match x.outcome with
  | .inl reject => reject.sourceKey ≠ k
  | .inr row => row.sourceKey = k → stagingError ts staging row = none

theorem silent_rejects {l : List Routed} (silent : ∀ x ∈ l, Silent ts staging k x) :
    ∀ r ∈ rejectsOf l, r.sourceKey ≠ k := by
  intro r hr
  obtain ⟨x, hx, ho⟩ := List.mem_filterMap.mp hr
  have := silent x hx
  cases hx : x.outcome with
  | inl reject =>
    simp only [hx, Sum.getLeft?_inl, Option.some.injEq] at ho
    subst ho
    simpa [Silent, hx] using this
  | inr row => simp [hx] at ho

theorem silent_rows {l : List Routed} (silent : ∀ x ∈ l, Silent ts staging k x) :
    ∀ row ∈ rowsOf l, row.sourceKey = k → stagingError ts staging row = none := by
  intro row hr
  obtain ⟨x, hx, ho⟩ := List.mem_filterMap.mp hr
  have := silent x hx
  cases hx : x.outcome with
  | inl reject => simp [hx] at ho
  | inr other =>
    simp only [hx, Sum.getRight?_inr, Option.some.injEq] at ho
    subst ho
    simpa [Silent, hx] using this

theorem split_rejects {n : Nat} {pending last : Flush} {l : List Routed} {closed : List Flush}
    (split : SinkSplit n pending l closed last) {r : Reject}
    (h : r ∈ closed.flatMap Flush.rejects ∨ r ∈ last.rejects) : r ∈ pending.rejects ∨ r ∈ rejectsOf l := by
  have all : r ∈ closed.flatMap Flush.rejects ++ last.rejects := List.mem_append.mpr h
  rw [split.rejects] at all
  exact List.mem_append.mp all

theorem split_rows {n : Nat} {pending last : Flush} {l : List Routed} {closed : List Flush}
    (split : SinkSplit n pending l closed last) {row : StagedRow}
    (h : row ∈ closed.flatMap Flush.batch ∨ row ∈ last.batch) : row ∈ pending.batch ∨ row ∈ rowsOf l := by
  have all : row ∈ closed.flatMap Flush.batch ++ last.batch := List.mem_append.mpr h
  rw [split.batches] at all
  exact List.mem_append.mp all

theorem firstLog_silent {n : Nat} (pos : 0 < n) {l : List Routed} (silent : ∀ x ∈ l, Silent ts staging k x) :
    firstLog ts staging k (sinkFlushes n ⟨[], []⟩ l) = none := by
  obtain ⟨batches, rejects⟩ := sinkFlushes_contents pos l
  apply firstLog_none
  · rw [rejects]
    exact silent_rejects silent
  · rw [batches]
    exact silent_rows silent

theorem firstLog_reject {n : Nat} (pos : 0 < n) {l rest : List Routed} (silent : ∀ x ∈ l, Silent ts staging k x)
    {y : Routed} {r : Reject} (hy : y.outcome = .inl r) (hr : r.sourceKey = k) :
    firstLog ts staging k (sinkFlushes n ⟨[], []⟩ (l ++ y :: rest)) = some r := by
  obtain ⟨closed, last, split⟩ := @sinkFlushes_split n ⟨[], []⟩ (by simpa using pos) l
  have rejects := silent_rejects silent
  have quiet : firstLog ts staging k closed = none := by
    apply firstLog_none
    · intro r hr
      rcases split_rejects split (Or.inl hr) with h | h
      · cases h
      · exact rejects r h
    · intro row hrow
      rcases split_rows split (Or.inl hrow) with h | h
      · cases h
      · exact silent_rows silent row h
  have before : (last.rejects.find? fun r => r.sourceKey = k) = none := by
    apply List.find?_eq_none.mpr
    intro r hr same
    rcases split_rejects split (Or.inr hr) with h | h
    · cases h
    · exact rejects r h (by simpa using same)
  rw [split.continues, firstLog_append, quiet, Option.none_or, sinkFlushes]
  simp only [hy]
  rw [if_neg (by have := split.room; omega)]
  apply firstLog_queued
  simp [List.find?_append, before, hr]

theorem rowsOf_cons_row {x : Routed} {row : StagedRow} (hx : x.outcome = .inr row) (l : List Routed) :
    rowsOf (x :: l) = row :: rowsOf l := by simp [rowsOf, hx]

theorem rowsOf_cons_reject {x : Routed} {r : Reject} (hx : x.outcome = .inl r) (l : List Routed) :
    rowsOf (x :: l) = rowsOf l := by simp [rowsOf, hx]

theorem rejectsOf_cons_row {x : Routed} {row : StagedRow} (hx : x.outcome = .inr row) (l : List Routed) :
    rejectsOf (x :: l) = rejectsOf l := by simp [rejectsOf, hx]

theorem rowsOf_append (l m : List Routed) : rowsOf (l ++ m) = rowsOf l ++ rowsOf m := by simp [rowsOf]

theorem rejectsOf_append (l m : List Routed) : rejectsOf (l ++ m) = rejectsOf l ++ rejectsOf m := by
  simp [rejectsOf]

/-- A refused row and nothing else of its key. -/
theorem firstLog_alone {n : Nat} (pos : 0 < n) {l m : List Routed} {x : Routed} {row : StagedRow}
    (hx : x.outcome = .inr row) (hk : row.sourceKey = k)
    (distinct : ((rowsOf (l ++ x :: m)).map StagedRow.sourceKey).Nodup)
    (before : ∀ y ∈ l, Silent ts staging k y) (after : ∀ y ∈ m, Silent ts staging k y)
    {e : InsertFailure} (he : stagingError ts staging row = some e) :
    firstLog ts staging k (sinkFlushes n ⟨[], []⟩ (l ++ x :: m)) = some (failureReject ts e row) := by
  obtain ⟨batches, rejects⟩ := sinkFlushes_contents pos (l ++ x :: m)
  refine firstLog_failure ?_ ?_ ?_ hk he
  · rw [rejects, rejectsOf_append, rejectsOf_cons_row hx]
    intro r hr
    rcases List.mem_append.mp hr with hr | hr
    · exact silent_rejects before r hr
    · exact silent_rejects after r hr
  · rw [batches]
    intro a ha b hb hka hkb
    exact List.inj_on_of_nodup_map distinct ha hb (hka.trans hkb.symm)
  · rw [batches, rowsOf_append, rowsOf_cons_row hx]
    simp

/-- A refused row followed by a reject of its key: the row comes first exactly if its batch is flushed
before the other record is reached. -/
theorem firstLog_contested {n : Nat} (pos : 0 < n) {l m rest : List Routed} {x y : Routed} {row : StagedRow}
    {r : Reject} (hx : x.outcome = .inr row) (hk : row.sourceKey = k) (hy : y.outcome = .inl r)
    (hr : r.sourceKey = k) (distinct : ((rowsOf (l ++ x :: m)).map StagedRow.sourceKey).Nodup)
    (before : ∀ z ∈ l, Silent ts staging k z) (between : ∀ z ∈ m, Silent ts staging k z)
    {e : InsertFailure} (he : stagingError ts staging row = some e) :
    firstLog ts staging k (sinkFlushes n ⟨[], []⟩ (l ++ x :: m ++ y :: rest)) =
      if n ≤ (rowsOf l).length % n + 1 + (rowsOf m).length then some (failureReject ts e row) else some r := by
  obtain ⟨closed, first, splitFirst⟩ := @sinkFlushes_split n ⟨[], []⟩ (by simpa using pos) l
  obtain ⟨later, last, splitLast⟩ := sinkFlushes_split splitFirst.room (x :: m)
  have whole : sinkFlushes n ⟨[], []⟩ (l ++ x :: m ++ y :: rest) =
      closed ++ (later ++ sinkFlushes n last (y :: rest)) := by
    rw [List.append_assoc, splitFirst.continues, splitLast.continues]
  have filled : first.batch.length = (rowsOf l).length % n := by simpa using splitFirst.filled
  have rows := rowsOf_cons_row hx m
  have firstRejects : ∀ r ∈ first.rejects, r.sourceKey ≠ k := by
    intro r hr
    rcases split_rejects splitFirst (Or.inr hr) with h | h
    · cases h
    · exact silent_rejects before r h
  have laterRejects : ∀ r, r ∈ later.flatMap Flush.rejects ∨ r ∈ last.rejects → r.sourceKey ≠ k := by
    intro r hr
    rcases split_rejects splitLast hr with h | h
    · exact firstRejects r h
    · rw [rejectsOf_cons_row hx] at h
      exact silent_rejects between r h
  have quiet : firstLog ts staging k closed = none := by
    apply firstLog_none
    · intro r hr
      rcases split_rejects splitFirst (Or.inl hr) with h | h
      · cases h
      · exact silent_rejects before r h
    · intro other ho
      rcases split_rows splitFirst (Or.inl ho) with h | h
      · cases h
      · exact silent_rows before other h
  rw [whole, firstLog_append, quiet, Option.none_or, firstLog_append]
  split
  next full =>
    have total : n ≤ first.batch.length + (rowsOf (x :: m)).length := by
      rw [rows, List.length_cons, filled]
      omega
    have place : (first.batch ++ rowsOf (x :: m))[first.batch.length]? = some row := by
      rw [rows]
      simp
    have member : ∀ other ∈ later.flatMap Flush.batch, other ∈ rowsOf (l ++ x :: m) := by
      intro other ho
      rw [rowsOf_append]
      rcases split_rows splitLast (Or.inl ho) with h | h
      · rcases split_rows splitFirst (Or.inr h) with h | h
        · cases h
        · exact List.mem_append_left _ h
      · exact List.mem_append_right _ h
    have flushed : firstLog ts staging k later = some (failureReject ts e row) := by
      apply firstLog_failure (fun r hr => laterRejects r (Or.inl hr)) ?_
        (splitLast.busy total splitFirst.room place) hk he
      intro a ha b hb hka hkb
      exact List.inj_on_of_nodup_map distinct (member a ha) (member b hb) (hka.trans hkb.symm)
    rw [flushed, Option.some_or]
  next short =>
    have none := splitLast.quiet (by rw [rows, List.length_cons, filled]; omega)
    subst none
    have queue : (last.rejects.find? fun r => r.sourceKey = k) = none := by
      apply List.find?_eq_none.mpr
      intro r hr same
      exact laterRejects r (Or.inr hr) (by simpa using same)
    have skip : firstLog ts staging k [] = none := rfl
    rw [skip, Option.none_or, sinkFlushes]
    simp only [hy]
    rw [if_neg (by have := splitLast.room; omega)]
    apply firstLog_queued
    simp [List.find?_append, queue, hr]

end

end OtterWorks.Migration
