import OtterWorks.Migration.Staging
import Mathlib.Data.List.Dedup

namespace OtterWorks.Migration

def rejectEntries (rejects : List Reject) : List (Key × Reject) := rejects.map fun r => (r.sourceKey, r)

/-- The rejects a flush writes, in the order it writes them. -/
def flushLog (ts : TableSpec) (staging : KeyMap Key StagedRow) (f : Flush) : List Reject :=
  f.rejects ++ f.batch.filterMap fun row => (stagingError ts staging row).map fun e => failureReject ts e row

/-- What a list of flushes leaves of a table. -/
def applyFlushes (ts : TableSpec) (fs : List Flush) (t : TargetTable) : TargetTable :=
  { t with
    staging := t.staging.upsertAll (stagedEntries (accepted ts t.staging (fs.flatMap Flush.batch)))
    rejects := t.rejects.addNew (rejectEntries (fs.flatMap (flushLog ts t.staging))) }

/-- What a list of flushes adds to `loaded` and `rejected`. -/
def flushCounts (ts : TableSpec) (staging : KeyMap Key StagedRow) (fs : List Flush) : Nat × Nat :=
  ((accepted ts staging (fs.flatMap Flush.batch)).length,
    (fs.flatMap Flush.rejects).length + (refusals ts staging (fs.flatMap Flush.batch)).length)

theorem find?_sourceKey {rows : List StagedRow} (distinct : (rows.map StagedRow.sourceKey).Nodup)
    {row : StagedRow} (h : row ∈ rows) :
    (rows.find? fun other => other.sourceKey = row.sourceKey) = some row := by
  induction rows with
  | nil => simp at h
  | cons first rows ih =>
    obtain ⟨fresh, distinct⟩ := List.nodup_cons.mp distinct
    rcases List.mem_cons.mp h with rfl | h
    · simp
    · have other : first.sourceKey ≠ row.sourceKey := by
        intro same
        exact fresh (List.mem_map.mpr ⟨row, h, same.symm⟩)
      simp [other, ih distinct h]

theorem failureRejects_refusals {ts : TableSpec} {staging : KeyMap Key StagedRow} {rows : List StagedRow}
    (distinct : (rows.map StagedRow.sourceKey).Nodup) :
    failureRejects ts rows (refusals ts staging rows) =
      rows.filterMap fun row => (stagingError ts staging row).map fun e => failureReject ts e row := by
  unfold failureRejects refusals
  rw [List.filterMap_filterMap]
  apply List.filterMap_congr
  intro row hr
  cases he : stagingError ts staging row with
  | none => rfl
  | some f =>
    have key := stagingError_sourceKey he
    simp [key, find?_sourceKey distinct hr]

theorem refusals_sourceKey_nodup {ts : TableSpec} {staging : KeyMap Key StagedRow} {rows : List StagedRow}
    (distinct : (rows.map StagedRow.sourceKey).Nodup) :
    ((refusals ts staging rows).map InsertFailure.sourceKey).Nodup := by
  have keys : (refusals ts staging rows).map InsertFailure.sourceKey =
      (rows.filter fun row => (stagingError ts staging row).isSome).map StagedRow.sourceKey := by
    unfold refusals
    induction rows with
    | nil => rfl
    | cons row rows ih =>
      have rest := ih (List.nodup_cons.mp distinct).2
      cases he : stagingError ts staging row with
      | none => simp [he, rest]
      | some f => simp [he, rest, stagingError_sourceKey he]
  rw [keys]
  exact distinct.sublist (List.filter_sublist.map _)

theorem accepted_add_refusals (ts : TableSpec) (staging : KeyMap Key StagedRow) (rows : List StagedRow) :
    (accepted ts staging rows).length + (refusals ts staging rows).length = rows.length := by
  unfold accepted refusals
  induction rows with
  | nil => rfl
  | cons row rows ih =>
    cases he : stagingError ts staging row with
    | none =>
      simp only [he, Option.isNone_none, List.filter_cons_of_pos, List.filterMap_cons_none, List.length_cons]
      omega
    | some f =>
      rw [List.filterMap_cons_some he]
      simp only [he, Option.isNone_some, Bool.false_eq_true, not_false_eq_true, List.filter_cons_of_neg,
        List.length_cons]
      omega

theorem eval_flushRejects (table : String) (rejects : List Reject) (w : World) :
    (flushRejects table rejects).eval w =
      (.ok (), w.onTarget table fun t => { t with rejects := t.rejects.addNew (rejectEntries rejects) }) := by
  unfold flushRejects
  split
  next empty =>
    have empty : rejects = [] := List.isEmpty_iff.mp empty
    subst empty
    rw [World.onTarget_id rfl, Prog.eval_pure]
  next => rfl

theorem eval_sinkFlush {ts : TableSpec} {f : Flush} {w : World}
    (distinct : (f.batch.map StagedRow.sourceKey).Nodup) :
    (sinkFlush ts f).eval w =
      (.ok (flushCounts ts (w.target ts.name).staging [f]), w.onTarget ts.name (applyFlushes ts [f])) := by
  unfold sinkFlush
  rw [Prog.eval_bind_ok (eval_insertStaging distinct)]
  have rejected := @failureRejects_refusals ts ((w.target ts.name).staging) _ distinct
  rw [Prog.eval_bind_ok (eval_flushRejects ..), Prog.eval_pure, World.onTarget_onTarget]
  have each := accepted_add_refusals ts (w.target ts.name).staging f.batch
  have once := List.dedup_eq_self.mpr
    (@refusals_sourceKey_nodup ts ((w.target ts.name).staging) _ distinct)
  refine congrArg₂ Prod.mk ?_ ?_
  · rw [once]
    simp only [flushCounts, List.flatMap_cons, List.flatMap_nil, List.append_nil, List.length_map]
    congr 2
    omega
  · apply World.onTarget_congr
    simp [applyFlushes, stageRows, flushLog, rejected]

def runFlushes (ts : TableSpec) (fs : List Flush) (counts : Nat × Nat) : Job (Nat × Nat) :=
  fs.foldlM (fun counts f => do
    let added ← sinkFlush ts f
    pure (addCounts counts added)) counts

/-- A flush does not change what the target makes of later rows with other keys. -/
theorem applyFlushes_cons {ts : TableSpec} {f : Flush} {fs : List Flush} {t : TargetTable}
    (distinct : (((f :: fs).flatMap Flush.batch).map StagedRow.sourceKey).Nodup) :
    applyFlushes ts fs (applyFlushes ts [f] t) = applyFlushes ts (f :: fs) t ∧
      flushCounts ts (applyFlushes ts [f] t).staging fs = flushCounts ts t.staging fs := by
  rw [List.flatMap_cons, List.map_append, List.nodup_append] at distinct
  obtain ⟨_, _, apart⟩ := distinct
  have unchanged : ∀ row ∈ fs.flatMap Flush.batch,
      stagingError ts (applyFlushes ts [f] t).staging row = stagingError ts t.staging row := by
    intro row hr
    apply stagingError_upsertAll
    intro held
    have inBatch : row.sourceKey ∈ f.batch.map StagedRow.sourceKey := by
      have := ((accepted_sublist ts t.staging _).map _).subset held
      simpa using this
    exact apart _ inBatch _ (List.mem_map.mpr ⟨row, hr, rfl⟩) rfl
  have taken : accepted ts (applyFlushes ts [f] t).staging (fs.flatMap Flush.batch) =
      accepted ts t.staging (fs.flatMap Flush.batch) := by
    apply List.filter_congr
    intro row hr
    rw [unchanged row hr]
  have refused : refusals ts (applyFlushes ts [f] t).staging (fs.flatMap Flush.batch) =
      refusals ts t.staging (fs.flatMap Flush.batch) := List.filterMap_congr unchanged
  have logged : fs.flatMap (flushLog ts (applyFlushes ts [f] t).staging) =
      fs.flatMap (flushLog ts t.staging) := by
    apply List.flatMap_congr
    intro g hg
    unfold flushLog
    congr 1
    apply List.filterMap_congr
    intro row hr
    rw [unchanged row (List.mem_flatMap.mpr ⟨g, hg, hr⟩)]
  constructor
  · unfold applyFlushes at taken logged ⊢
    rw [taken, logged]
    simp [accepted, stagedEntries, KeyMap.upsertAll_append, rejectEntries, KeyMap.addNew_append]
  · simp [flushCounts, taken, refused]

theorem flushCounts_cons (ts : TableSpec) (staging : KeyMap Key StagedRow) (f : Flush) (fs : List Flush) :
    flushCounts ts staging (f :: fs) =
      addCounts (flushCounts ts staging [f]) (flushCounts ts staging fs) := by
  simp only [flushCounts, addCounts, accepted, refusals, List.flatMap_cons, List.flatMap_nil, List.append_nil,
    List.filter_append, List.filterMap_append, List.length_append]
  refine congrArg₂ Prod.mk rfl ?_
  omega

theorem eval_runFlushes {ts : TableSpec} {fs : List Flush} {counts : Nat × Nat} {w : World}
    (distinct : ((fs.flatMap Flush.batch).map StagedRow.sourceKey).Nodup) :
    (runFlushes ts fs counts).eval w =
      (.ok (addCounts counts (flushCounts ts (w.target ts.name).staging fs)),
        w.onTarget ts.name (applyFlushes ts fs)) := by
  induction fs generalizing counts w with
  | nil =>
    have same : w.onTarget ts.name (applyFlushes ts []) = w := World.onTarget_id rfl
    simp [runFlushes, addCounts, flushCounts, accepted, refusals, same]
  | cons f fs ih =>
    have here : (f.batch.map StagedRow.sourceKey).Nodup := by
      rw [List.flatMap_cons, List.map_append, List.nodup_append] at distinct
      exact distinct.1
    have later : ((fs.flatMap Flush.batch).map StagedRow.sourceKey).Nodup := by
      rw [List.flatMap_cons, List.map_append, List.nodup_append] at distinct
      exact distinct.2.1
    have step : runFlushes ts (f :: fs) counts =
        (sinkFlush ts f >>= fun added => pure (addCounts counts added)) >>= runFlushes ts fs := by
      unfold runFlushes
      rw [List.foldlM_cons]
    have first : (sinkFlush ts f >>= fun added => pure (addCounts counts added)).eval w =
        (.ok (addCounts counts (flushCounts ts (w.target ts.name).staging [f])),
          w.onTarget ts.name (applyFlushes ts [f])) := by
      rw [Prog.eval_bind_ok (eval_sinkFlush here), Prog.eval_pure]
    obtain ⟨rest, counted⟩ := applyFlushes_cons (t := w.target ts.name) distinct
    rw [step, Prog.eval_bind_ok first, ih later, World.onTarget_self, counted, World.onTarget_onTarget,
      flushCounts_cons ts _ f fs]
    refine congrArg₂ Prod.mk ?_ (World.onTarget_congr rest)
    simp [addCounts, Nat.add_assoc]

def rowsOf (l : List Routed) : List StagedRow := l.filterMap fun r => r.outcome.getRight?

def rejectsOf (l : List Routed) : List Reject := l.filterMap fun r => r.outcome.getLeft?

/-- What a record carries has the record's key. -/
def Routed.Keyed (r : Routed) : Prop :=
  match r.outcome with
  | .inl reject => reject.sourceKey = r.sourceKey
  | .inr row => row.sourceKey = r.sourceKey

/-- `sinkFlushes` on a first part of the records: the flushes it makes and what is left pending. -/
structure SinkSplit (n : Nat) (pending : Flush) (l : List Routed) (closed : List Flush) (last : Flush) : Prop where
  continues : ∀ rest, sinkFlushes n pending (l ++ rest) = closed ++ sinkFlushes n last rest
  room : last.batch.length < n
  batches : closed.flatMap Flush.batch ++ last.batch = pending.batch ++ rowsOf l
  rejects : closed.flatMap Flush.rejects ++ last.rejects = pending.rejects ++ rejectsOf l
  quiet : pending.batch.length + (rowsOf l).length < n → closed = []
  filled : last.batch.length = (pending.batch.length + (rowsOf l).length) % n

theorem sinkFlushes_split {n : Nat} {pending : Flush} (room : pending.batch.length < n) (l : List Routed) :
    ∃ closed last, SinkSplit n pending l closed last := by
  induction l generalizing pending with
  | nil =>
    exact ⟨[], pending, fun _ => rfl, room, by simp [rowsOf], by simp [rejectsOf], fun _ => rfl,
      by simp [rowsOf, Nat.mod_eq_of_lt room]⟩
  | cons r l ih =>
    cases ho : r.outcome with
    | inl reject =>
      let next : Flush := { pending with rejects := pending.rejects ++ [reject] }
      have hnext : next.batch.length < n := room
      obtain ⟨closed, last, split⟩ := ih hnext
      have rows : rowsOf (r :: l) = rowsOf l := by simp [rowsOf, ho]
      have rejected : rejectsOf (r :: l) = reject :: rejectsOf l := by simp [rejectsOf, ho]
      refine ⟨closed, last, ?_, split.room, ?_, ?_, ?_, ?_⟩
      · intro rest
        rw [← split.continues rest, List.cons_append, sinkFlushes]
        simp only [ho]
        rw [if_neg (by omega)]
      · rw [rows]
        exact split.batches
      · rw [rejected, split.rejects]
        simp [next]
      · rw [rows]
        exact split.quiet
      · rw [rows]
        exact split.filled
    | inr row =>
      let next : Flush := { pending with batch := pending.batch ++ [row] }
      have length : next.batch.length = pending.batch.length + 1 := by simp [next]
      have rows : rowsOf (r :: l) = row :: rowsOf l := by simp [rowsOf, ho]
      have rejected : rejectsOf (r :: l) = rejectsOf l := by simp [rejectsOf, ho]
      by_cases full : n ≤ next.batch.length
      · have empty : (⟨[], []⟩ : Flush).batch.length < n := by simp; omega
        obtain ⟨closed, last, split⟩ := ih empty
        refine ⟨next :: closed, last, ?_, split.room, ?_, ?_, ?_, ?_⟩
        · intro rest
          rw [List.cons_append, List.cons_append, ← split.continues rest, sinkFlushes]
          simp only [ho]
          rw [if_pos (by simpa [next] using full)]
        · have batches := split.batches
          simp only [List.nil_append] at batches
          rw [rows, List.flatMap_cons, List.append_assoc, batches]
          simp [next]
        · have rejects := split.rejects
          simp only [List.nil_append] at rejects
          rw [rejected, List.flatMap_cons, List.append_assoc, rejects]
        · intro short
          rw [rows, List.length_cons] at short
          omega
        · rw [split.filled, rows, List.length_cons, List.length_nil]
          have whole : pending.batch.length + ((rowsOf l).length + 1) = (rowsOf l).length + n := by omega
          rw [whole, Nat.add_mod_right, Nat.zero_add]
      · obtain ⟨closed, last, split⟩ := @ih next (by omega)
        refine ⟨closed, last, ?_, split.room, ?_, ?_, ?_, ?_⟩
        · intro rest
          rw [← split.continues rest, List.cons_append, sinkFlushes]
          simp only [ho]
          rw [if_neg (by simpa [next] using full)]
        · rw [rows, split.batches]
          simp [next]
        · rw [rejected]
          exact split.rejects
        · intro short
          rw [rows, List.length_cons] at short
          exact split.quiet (by omega)
        · rw [split.filled, rows, List.length_cons, length]
          congr 1
          omega

/-- Once there are as many rows as a batch takes, the first of them have been flushed. -/
theorem SinkSplit.busy {n : Nat} {pending last : Flush} {l : List Routed} {closed : List Flush}
    (split : SinkSplit n pending l closed last) (full : n ≤ pending.batch.length + (rowsOf l).length)
    {i : Nat} (hi : i < n) {row : StagedRow} (hrow : (pending.batch ++ rowsOf l)[i]? = some row) :
    row ∈ closed.flatMap Flush.batch := by
  have lengths := congrArg List.length split.batches
  rw [List.length_append, List.length_append, split.filled] at lengths
  have rest := Nat.mod_add_div (pending.batch.length + (rowsOf l).length) n
  have some : 1 ≤ (pending.batch.length + (rowsOf l).length) / n := Nat.div_pos full (by omega)
  have whole := Nat.mul_le_mul_left n some
  have flushed : i < (closed.flatMap Flush.batch).length := by omega
  rw [← split.batches, List.getElem?_append_left flushed] at hrow
  exact List.mem_of_getElem? hrow

/-- A sink's flushes hold its records' rows and rejects, each in order. -/
theorem sinkFlushes_contents {n : Nat} (pos : 0 < n) (l : List Routed) :
    (sinkFlushes n ⟨[], []⟩ l).flatMap Flush.batch = rowsOf l ∧
      (sinkFlushes n ⟨[], []⟩ l).flatMap Flush.rejects = rejectsOf l := by
  obtain ⟨closed, last, split⟩ := @sinkFlushes_split n ⟨[], []⟩ (by simpa using pos) l
  have all := split.continues []
  rw [List.append_nil, sinkFlushes] at all
  have batches := split.batches
  have rejects := split.rejects
  rw [all]
  simpa using And.intro batches rejects

theorem slices_cover {per : Nat} (pos : 0 < per) (records : List Raw) {budget first : Nat}
    (enough : records.length ≤ budget + first) :
    (slicesFrom per records.length budget first).flatMap (readSlice records) =
      (records.drop first).zipIdx first := by
  induction budget generalizing first with
  | zero =>
    have past : records.drop first = [] := List.drop_eq_nil_iff.mpr (by omega)
    simp [slicesFrom, past]
  | succ budget ih =>
    unfold slicesFrom
    split
    next inside =>
      rw [List.flatMap_cons, ih (by omega)]
      have here : readSlice records (first, min (first + per) records.length) =
          ((records.drop first).take per).zipIdx first := by
        unfold readSlice
        congr 1
        by_cases short : first + per ≤ records.length
        · have : min (first + per) records.length - first = per := by omega
          rw [this]
        · have all : (records.drop first).length ≤ per := by
            rw [List.length_drop]
            omega
          rw [List.take_of_length_le all, List.take_of_length_le]
          rw [List.length_drop]
          omega
      rw [here]
      conv_rhs => rw [← List.take_append_drop per (records.drop first), List.zipIdx_append, List.drop_drop]
      by_cases short : first + per ≤ records.length
      · have : ((records.drop first).take per).length = per := by
          rw [List.length_take, List.length_drop]
          omega
        rw [this]
      · have past : records.drop (first + per) = [] := List.drop_eq_nil_iff.mpr (by omega)
        simp [past]
    next outside =>
      have past : records.drop first = [] := List.drop_eq_nil_iff.mpr (by omega)
      simp [past]

end OtterWorks.Migration
