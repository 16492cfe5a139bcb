import OtterWorks.Migration.LoadTable
import OtterWorks.Migration.LoadAgreement
import OtterWorks.Migration.PendingRanges

namespace OtterWorks.Migration

/-! What becomes of the records of a range. -/

section

variable {ts : TableSpec} {rangeSeq : Nat} {staging : KeyMap Key StagedRow} {records : List Raw} {k : Key}

theorem keepUnseen_sourceKeys (seen : List Key) (l : List Routed) :
    (keepUnseen ts rangeSeq seen l).map Routed.sourceKey = l.map Routed.sourceKey := by
  induction l generalizing seen with
  | nil => rfl
  | cons r l ih =>
    unfold keepUnseen
    cases r.outcome with
    | inl reject => rw [List.map_cons, List.map_cons, ih]
    | inr row =>
      simp only
      split
      next => rw [List.map_cons, List.map_cons, ih]
      next => rw [List.map_cons, List.map_cons, ih]

/-- A record is a row or a reject, under its key. -/
theorem outcomes_perm {l : List Routed} (keyed : ∀ x ∈ l, x.Keyed) :
    ((rejectsOf l).map Reject.sourceKey ++ (rowsOf l).map StagedRow.sourceKey).Perm (l.map Routed.sourceKey) := by
  induction l with
  | nil => exact .nil
  | cons r l ih =>
    have rest := ih fun x hx => keyed x (List.mem_cons_of_mem _ hx)
    have here := keyed r (List.mem_cons_self ..)
    cases ho : r.outcome with
    | inl reject =>
      simp only [Routed.Keyed, ho] at here
      have rejects : rejectsOf (r :: l) = reject :: rejectsOf l := by simp [rejectsOf, ho]
      rw [rejects, rowsOf_cons_reject ho, List.map_cons, List.map_cons, here]
      exact rest.cons _
    | inr row =>
      simp only [Routed.Keyed, ho] at here
      rw [rejectsOf_cons_row ho, rowsOf_cons_row ho, List.map_cons, List.map_cons, here]
      exact List.perm_middle.trans (rest.cons _)

/-- A row is refused or taken. -/
theorem refused_accepted_perm (rows : List StagedRow) :
    ((rows.filterMap fun row => (stagingError ts staging row).map fun e => failureReject ts e row).map
        Reject.sourceKey ++ (accepted ts staging rows).map StagedRow.sourceKey).Perm
      (rows.map StagedRow.sourceKey) := by
  induction rows with
  | nil => exact .nil
  | cons row rows ih =>
    unfold accepted at ih ⊢
    cases he : stagingError ts staging row with
    | none =>
      rw [List.filterMap_cons_none (by simp [he]), List.filter_cons_of_pos (by simp [he]), List.map_cons, List.map_cons]
      exact List.perm_middle.trans (ih.cons _)
    | some e =>
      have logged : (stagingError ts staging row).map (fun e => failureReject ts e row) = some (failureReject ts e row) := by
        rw [he, Option.map_some]
      rw [List.filterMap_cons, logged, List.filter_cons_of_neg (by simp [he]), List.map_cons]
      simp only [List.map_cons, failureReject_sourceKey he]
      exact ih.cons _

/-- What flushes write to the log are the rejects queued and the rows refused. -/
theorem flushLog_perm (fs : List Flush) :
    (fs.flatMap (flushLog ts staging)).Perm (fs.flatMap Flush.rejects ++
      (fs.flatMap Flush.batch).filterMap fun row =>
        (stagingError ts staging row).map fun e => failureReject ts e row) := by
  rw [List.filterMap_flatMap]
  exact (List.flatMap_append_perm fs _ _).symm

/-- The log is as long as the flushes' count of rejects. -/
theorem flushLog_length (fs : List Flush) :
    (fs.flatMap (flushLog ts staging)).length = (flushCounts ts staging fs).2 := by
  have split := (@refused_accepted_perm ts staging (fs.flatMap Flush.batch)).length_eq
  have each := accepted_add_refusals ts staging (fs.flatMap Flush.batch)
  rw [List.length_append, List.length_map, List.length_map, List.length_map] at split
  rw [(flushLog_perm fs).length_eq, List.length_append, flushCounts]
  omega

theorem keepFirst_rows (l : List Routed) :
    rowsOf (keepFirst ts rangeSeq true l) = [] ∧ rowsOf (keepFirst ts rangeSeq false l) = (rowsOf l).head?.toList := by
  induction l with
  | nil => exact ⟨rfl, rfl⟩
  | cons x l ih =>
    obtain ⟨none, first⟩ := ih
    obtain ⟨x', shape, _, reject⟩ := @keepFirst_true_cons ts rangeSeq x l
    constructor
    · rw [shape, rowsOf_cons_reject reject, none]
    · cases hx : x.outcome with
      | inl r => rw [keepFirst_reject hx, rowsOf_cons_reject hx, rowsOf_cons_reject hx, first]
      | inr row =>
        rw [keepFirst_row hx, rowsOf_cons_row hx, rowsOf_cons_row hx, none]
        rfl

/-- The first well-formed record of a key is the one kept. -/
theorem kept_row (k : Key) :
    ((rowsOf (keptRecords ts rangeSeq records)).filter fun row => row.sourceKey = k) =
      ((rowsOf (routedRecords ts rangeSeq records)).find? fun row => row.sourceKey = k).toList := by
  rw [← rowsOf_filter keptRecords_keyed, keptRecords_filter, (keepFirst_rows _).2, rowsOf_filter routedRecords_keyed,
    List.head?_filter]

theorem routedFrom_keys (first : Nat) :
    (routedFrom ts rangeSeq first records).map Routed.sourceKey = records.filterMap fun raw => (ts.convert raw).key := by
  induction records generalizing first with
  | nil => rfl
  | cons raw records ih =>
    have head : (convertRecordAt ts rangeSeq (raw, first)).toOption.map Routed.sourceKey = (ts.convert raw).key := by
      unfold convertRecordAt
      cases ts.convert raw with
      | undecodable e => rfl
      | malformed k err => rfl
      | ok k values source => rfl
    unfold routedFrom at ih ⊢
    rw [List.zipIdx_cons, List.filterMap_cons, List.filterMap_cons, ← head]
    cases (convertRecordAt ts rangeSeq (raw, first)).toOption with
    | none => exact ih (first + 1)
    | some r => exact congrArg (r.sourceKey :: ·) (ih (first + 1))

theorem routedFrom_length (decodes : Decodable ts records) (first : Nat) :
    (routedFrom ts rangeSeq first records).length = records.length := by
  induction records generalizing first with
  | nil => rfl
  | cons raw records ih =>
    have rest : Decodable ts records := fun raw' h => decodes raw' (List.mem_cons_of_mem _ h)
    cases hc : convertRecordAt ts rangeSeq (raw, first) with
    | ok r => rw [routedFrom_cons hc, List.length_cons, ih rest, List.length_cons]
    | error e =>
      exfalso
      unfold convertRecordAt at hc
      split at hc
      next e' hu => exact decodes raw (List.mem_cons_self ..) e' hu
      next => cases hc
      next => cases hc

end

/-- The rows persisted of a range. -/
def stagedOf (rangeSeq : Nat) (t : TargetTable) : Nat := t.staging.countIf fun row => row.keyRangeSeq = rangeSeq

/-- The LOAD rejects persisted of a range. -/
def rejectedOf (rangeSeq : Nat) (t : TargetTable) : Nat :=
  t.rejects.countIf fun r => decide (r.stage = .load) && decide (r.keyRangeSeq = some rangeSeq)

/-- How many of a file's records have a key. -/
def recordsOf (ts : TableSpec) (records : List Raw) (k : Key) : Nat :=
  (records.filterMap fun raw => (ts.convert raw).key).count k

/-- Whether the target takes a key's first well-formed record, as a number. -/
def takenOf (ts : TableSpec) (rangeSeq : Nat) (staging : KeyMap Key StagedRow) (records : List Raw) (k : Key) : Nat :=
  match (rowsOf (routedRecords ts rangeSeq records)).find? fun row => row.sourceKey = k with
  | some row => if stagingError ts staging row = none then 1 else 0
  | none => 0

/-- At most one record of a key is not staged, and the key of such a record has no reject yet. -/
def RejectedOnce (ts : TableSpec) (rangeSeq : Nat) (t : TargetTable) (records : List Raw) (k : Key) : Prop :=
  recordsOf ts records k ≤ takenOf ts rangeSeq t.staging records k + 1 ∧
    (takenOf ts rangeSeq t.staging records k < recordsOf ts records k → k ∉ t.rejects)

/-- Every record is persisted as a row or a reject, and both numbers are the ones reported. -/
structure Conserved (rangeSeq : Nat) (records : List Raw) (counts : Nat × Nat) (t : TargetTable) : Prop where
  total : stagedOf rangeSeq t + rejectedOf rangeSeq t = records.length
  reported : counts = (stagedOf rangeSeq t, rejectedOf rangeSeq t)

def LoadEngine.flushes (engine : LoadEngine) (batch : BatchConfig) (ts : TableSpec) (rangeSeq : Nat)
    (records : List Raw) : List Flush :=
  match engine with
  | .serial => serialFlushes batch ts rangeSeq records
  | .spark _ schedule => sparkFlushes batch ts rangeSeq records schedule

section

variable {batch : BatchConfig} {ts : TableSpec} {rangeSeq : Nat} {records : List Raw} {engine : LoadEngine}
  {t : TargetTable} {w : World}

theorem eval_engineLoad (sized : engine.Sized) (decodes : Decodable ts records) (w : World) :
    (engine.load batch ts rangeSeq records).eval w =
      (.ok (flushCounts ts (w.target ts.name).staging (engine.flushes batch ts rangeSeq records)),
        w.onTarget ts.name (applyFlushes ts (engine.flushes batch ts rangeSeq records))) := by
  cases engine with
  | serial => exact eval_loadRecords decodes w
  | spark perSlice schedule => exact eval_runRangeSpark sized schedule decodes w

theorem flushes_contents :
    ((engine.flushes batch ts rangeSeq records).flatMap Flush.batch).Perm (rowsOf (keptRecords ts rangeSeq records)) ∧
      ((engine.flushes batch ts rangeSeq records).flatMap Flush.rejects).Perm
        (rejectsOf (keptRecords ts rangeSeq records)) := by
  cases engine with
  | serial =>
    obtain ⟨batches, rejects⟩ := @serialFlushes_contents batch ts rangeSeq records
    exact ⟨by rw [← batches]; rfl, by rw [← rejects]; rfl⟩
  | spark perSlice schedule => exact sparkFlushes_contents schedule

/-- The keys of the log and of the rows taken are those of the records. -/
theorem loaded_perm (staging : KeyMap Key StagedRow) :
    (((engine.flushes batch ts rangeSeq records).flatMap (flushLog ts staging)).map Reject.sourceKey ++
        (accepted ts staging ((engine.flushes batch ts rangeSeq records).flatMap Flush.batch)).map
          StagedRow.sourceKey).Perm (records.filterMap fun raw => (ts.convert raw).key) := by
  obtain ⟨batches, rejects⟩ := @flushes_contents batch ts rangeSeq records engine
  have log := (@flushLog_perm ts staging (engine.flushes batch ts rangeSeq records)).map Reject.sourceKey
  rw [List.map_append] at log
  refine (log.append_right _).trans ?_
  rw [List.append_assoc]
  refine ((rejects.map Reject.sourceKey).append (refused_accepted_perm _)).trans ?_
  refine ((batches.map StagedRow.sourceKey).append_left _).trans ?_
  refine (outcomes_perm keptRecords_keyed).trans ?_
  rw [keptRecords, keepUnseen_sourceKeys, routedRecords, routedFrom_keys]

theorem count_accepted (staging : KeyMap Key StagedRow) (k : Key) :
    ((accepted ts staging ((engine.flushes batch ts rangeSeq records).flatMap Flush.batch)).map
      StagedRow.sourceKey).count k = takenOf ts rangeSeq staging records k := by
  have rows := (@flushes_contents batch ts rangeSeq records engine).1
  have taken := (rows.filter fun row => (stagingError ts staging row).isNone).map StagedRow.sourceKey
  have first := @kept_row ts rangeSeq records k
  unfold accepted
  rw [taken.count_eq, List.count_eq_countP, List.countP_map, List.countP_eq_length_filter, List.filter_filter]
  have swap : ((rowsOf (keptRecords ts rangeSeq records)).filter fun row =>
      ((fun x => x == k) ∘ StagedRow.sourceKey) row && (stagingError ts staging row).isNone) =
      ((rowsOf (keptRecords ts rangeSeq records)).filter fun row => row.sourceKey = k).filter fun row =>
        (stagingError ts staging row).isNone := by
    rw [List.filter_filter]
    apply List.filter_congr
    intro row _
    rw [Bool.and_comm]
    exact congrArg₂ Bool.and rfl (beq_eq_decide _ _)
  rw [swap, first, takenOf]
  cases (rowsOf (routedRecords ts rangeSeq records)).find? fun row => row.sourceKey = k with
  | none => rfl
  | some row =>
    cases he : stagingError ts staging row with
    | none => simp [he]
    | some e => simp [he]

/-- The log has each key once, and none that has a reject, exactly when every key is rejected at most once. -/
theorem log_iff :
    ((((engine.flushes batch ts rangeSeq records).flatMap (flushLog ts t.staging)).map Reject.sourceKey).Nodup ∧
        ∀ k ∈ ((engine.flushes batch ts rangeSeq records).flatMap (flushLog ts t.staging)).map Reject.sourceKey,
          k ∉ t.rejects) ↔
      ∀ k, RejectedOnce ts rangeSeq t records k := by
  have split (k : Key) : (((engine.flushes batch ts rangeSeq records).flatMap (flushLog ts t.staging)).map
      Reject.sourceKey).count k + takenOf ts rangeSeq t.staging records k = recordsOf ts records k := by
    have keys := (@loaded_perm batch ts rangeSeq records engine t.staging).count_eq k
    rw [List.count_append, count_accepted] at keys
    exact keys
  rw [List.nodup_iff_count_le_one, ← forall_and]
  apply forall_congr'
  intro k
  have here := split k
  rw [← List.count_pos_iff, RejectedOnce]
  refine and_congr (by omega) ?_
  constructor
  · exact fun fresh more => fresh (by omega)
  · exact fun fresh more => fresh (by omega)

theorem untouched_begun {rng : KeyRange} (fresh : rng.loadStatus ≠ .running → Untouched rng.rangeSeq t) :
    Untouched rng.rangeSeq (begun rng t) := by
  by_cases running : rng.loadStatus = .running
  · simp only [begun, if_pos running]
    refine ⟨?_, ?_⟩
    · intro k row held same
      rw [Std.ExtTreeMap.getElem?_filter'] at held
      have kept := (Option.filter_eq_some_iff.mp held).2
      simp [same] at kept
    · intro k r held load same
      rw [Std.ExtTreeMap.getElem?_filter'] at held
      have kept := (Option.filter_eq_some_iff.mp held).2
      simp [load, same] at kept
  · simp only [begun, if_neg running]
    exact ⟨(fresh running).staged, (fresh running).rejected⟩

theorem log_of (decodes : Decodable ts records) (staging : KeyMap Key StagedRow) :
    ∀ r ∈ (engine.flushes batch ts rangeSeq records).flatMap (flushLog ts staging),
      r.stage = .load ∧ r.keyRangeSeq = some rangeSeq := by
  obtain ⟨batches, rejects⟩ := @flushes_contents batch ts rangeSeq records engine
  obtain ⟨rows, refused, _⟩ := @keptRecords_of ts rangeSeq records decodes
  intro r hr
  rcases mem_log hr with queued | ⟨row, hrow, e, _, rfl⟩
  · have of := refused r (rejects.subset queued)
    exact ⟨of.stage, of.seq⟩
  · exact ⟨rfl, congrArg some (rows row (batches.subset hrow)).seq⟩

/-- Into a range of which nothing is persisted, as many rows come as the target takes, and at most as many
rejects as the log has: exactly as many if it has each key once and none that has a reject. -/
theorem persisted_applyFlushes (decodes : Decodable ts records) (fresh : Untouched rangeSeq t) :
    let fs := engine.flushes batch ts rangeSeq records
    stagedOf rangeSeq (applyFlushes ts fs t) = (accepted ts t.staging (fs.flatMap Flush.batch)).length ∧
      (rejectedOf rangeSeq (applyFlushes ts fs t) = (fs.flatMap (flushLog ts t.staging)).length ↔
        ∀ k, RejectedOnce ts rangeSeq t records k) := by
  intro fs
  obtain ⟨batches, _⟩ := @flushes_contents batch ts rangeSeq records engine
  constructor
  · have none : t.staging.countIf (fun row => decide (row.keyRangeSeq = rangeSeq)) = 0 := by
      rw [KeyMap.countIf_eq, List.countP_eq_zero]
      intro entry held
      simpa using fresh.staged _ _ (KeyMap.mem_toList.mp held)
    have keys : (stagedEntries (accepted ts t.staging (fs.flatMap Flush.batch))).map Prod.fst =
        (accepted ts t.staging (fs.flatMap Flush.batch)).map StagedRow.sourceKey := stagedEntries_keys _
    have distinct : ((stagedEntries (accepted ts t.staging (fs.flatMap Flush.batch))).map Prod.fst).Nodup := by
      rw [keys]
      have all := ((batches.map StagedRow.sourceKey).nodup_iff).mpr keptRecords_distinct
      exact all.sublist ((accepted_sublist ts _ _).map _)
    have new : ∀ k ∈ (stagedEntries (accepted ts t.staging (fs.flatMap Flush.batch))).map Prod.fst, k ∉ t.staging := by
      rw [keys]
      intro k hk held
      obtain ⟨row, hrow, rfl⟩ := List.mem_map.mp hk
      have clean := (List.mem_filter.mp hrow).2
      simp [stagingError, held] at clean
    have passes : ∀ entry ∈ stagedEntries (accepted ts t.staging (fs.flatMap Flush.batch)),
        decide (entry.2.keyRangeSeq = rangeSeq) = true := by
      intro entry held
      obtain ⟨row, hrow, rfl⟩ := List.mem_map.mp held
      have part := batches.subset ((accepted_sublist ts _ _).subset hrow)
      exact decide_eq_true ((@keptRecords_of ts rangeSeq records decodes).1 row part).seq
    have counted := (@KeyMap.countIf_addNew _ _ _ _ _ t.staging _
      (fun row => decide (row.keyRangeSeq = rangeSeq)) passes).2.mpr ⟨distinct, new⟩
    rw [stagedOf, applyFlushes, KeyMap.upsertAll_eq_addNew distinct new, counted, none, Nat.zero_add, stagedEntries,
      List.length_map]
  · have none : t.rejects.countIf (fun r => decide (r.stage = .load) && decide (r.keyRangeSeq = some rangeSeq)) = 0 := by
      rw [KeyMap.countIf_eq, List.countP_eq_zero]
      intro entry held
      simpa using fresh.rejected _ _ (KeyMap.mem_toList.mp held)
    have passes : ∀ entry ∈ rejectEntries (fs.flatMap (flushLog ts t.staging)),
        (decide (entry.2.stage = .load) && decide (entry.2.keyRangeSeq = some rangeSeq)) = true := by
      intro entry held
      obtain ⟨r, hr, rfl⟩ := List.mem_map.mp held
      obtain ⟨load, seq⟩ := log_of decodes _ r hr
      simp [load, seq]
    have counted := (@KeyMap.countIf_addNew _ _ _ _ _ t.rejects _
      (fun r => decide (r.stage = .load) && decide (r.keyRangeSeq = some rangeSeq)) passes).2
    have keys : (rejectEntries (fs.flatMap (flushLog ts t.staging))).map Prod.fst =
        (fs.flatMap (flushLog ts t.staging)).map Reject.sourceKey := by
      rw [rejectEntries, List.map_map]
      rfl
    rw [none, Nat.zero_add, keys, log_iff] at counted
    rw [rejectedOf, applyFlushes, ← counted, rejectEntries, List.length_map]

/-- A load that returns found as many records as EXTRACT counted, with keys that decode. -/
theorem loadRange_returns {rng : KeyRange} {counts : Nat × Nat} {u : World} (sized : engine.Sized)
    (file : (w.target ts.name).files[rng.rangeSeq]? = some records)
    (loaded : (loadRange engine batch ts rng).eval w = (.ok counts, u)) :
    (∀ rows, rng.rowCount = some rows → records.length = rows) ∧ Decodable ts records := by
  have counted : ∀ rows, rng.rowCount = some rows → records.length = rows := by
    intro rows count
    by_contra differ
    have read : (rangeFile ts rng).eval w = (.ok records, w) := by
      have found : (readFile ts.name rng.rangeSeq).eval w = (.ok (some records), w) := by
        rw [← file]
        rfl
      unfold rangeFile
      rw [Prog.eval_bind_ok found]
      rfl
    have refused : ∃ e, (checkRecordCount ts rng records).eval w = (.error e, w) := by
      unfold checkRecordCount
      rw [count]
      simp only
      rw [if_pos differ]
      exact ⟨_, rfl⟩
    obtain ⟨e, refused⟩ := refused
    have begun : (beginRange ts rng).eval w = (.error e, w) := by
      unfold beginRange
      rw [Prog.eval_bind_ok read, Prog.eval_bind, refused]
    unfold loadRange at loaded
    rw [Prog.eval_bind, begun] at loaded
    cases loaded
  refine ⟨counted, ?_⟩
  intro raw held e undecodable
  have fails : ∃ e' u, (engine.load batch ts rng.rangeSeq records).eval (w.onTarget ts.name (begun rng)) =
      (.error e', u) := by
    cases engine with
    | serial =>
      obtain ⟨e', failed⟩ := @eval_loadRecords_undecodable batch ts rng.rangeSeq _ _ held _ undecodable
        (w.onTarget ts.name (begun rng))
      exact ⟨e', _, failed⟩
    | spark perSlice schedule =>
      obtain ⟨e', failed⟩ := @eval_runRangeSpark_undecodable batch ts rng.rangeSeq _ _ sized schedule _ held _ undecodable
        (w.onTarget ts.name (begun rng))
      exact ⟨e', _, failed⟩
  obtain ⟨e', v, failed⟩ := fails
  rw [eval_loadRange_error file counted failed] at loaded
  cases loaded

/-- LOAD conserves the records of a range, and reports what it persisted, exactly when each key has at most one
record that does not become a staged row, and no reject before. -/
theorem load_conserves_iff (engine : LoadEngine) (sized : engine.Sized) (batch : BatchConfig) (ts : TableSpec)
    (rng : KeyRange) (records : List Raw) (w u : World) (counts : Nat × Nat)
    (file : (w.target ts.name).files[rng.rangeSeq]? = some records)
    (fresh : rng.loadStatus ≠ .running → Untouched rng.rangeSeq (w.target ts.name))
    (loaded : (loadRange engine batch ts rng).eval w = (.ok counts, u)) :
    Conserved rng.rangeSeq records counts (u.target ts.name) ↔
      ∀ k, RejectedOnce ts rng.rangeSeq (begun rng (w.target ts.name)) records k := by
  obtain ⟨counted, decodes⟩ := loadRange_returns sized file loaded
  let t := begun rng (w.target ts.name)
  let fs := engine.flushes batch ts rng.rangeSeq records
  have ran := @eval_engineLoad batch ts rng.rangeSeq records engine sized decodes (w.onTarget ts.name (begun rng))
  rw [World.onTarget_self] at ran
  obtain ⟨v, hv, staging, rejects⟩ := eval_loadRange file counted ran
  rw [loaded] at hv
  obtain ⟨outcome, rfl⟩ := Prod.mk.inj hv
  have reported : counts = flushCounts ts t.staging fs := Except.ok.inj outcome
  have stagedIs : stagedOf rng.rangeSeq (u.target ts.name) = stagedOf rng.rangeSeq (applyFlushes ts fs t) := by
    rw [stagedOf, staging]
    rfl
  have rejectedIs : rejectedOf rng.rangeSeq (u.target ts.name) = rejectedOf rng.rangeSeq (applyFlushes ts fs t) := by
    rw [rejectedOf, rejects]
    rfl
  have total : (fs.flatMap (flushLog ts t.staging)).length +
      (accepted ts t.staging (fs.flatMap Flush.batch)).length = records.length := by
    have keys := (@loaded_perm batch ts rng.rangeSeq records engine t.staging).length_eq
    rw [← @routedFrom_keys ts rng.rangeSeq records 0, List.length_append, List.length_map, List.length_map, List.length_map,
      routedFrom_length decodes] at keys
    exact keys
  have log := @flushLog_length ts t.staging fs
  have persisted : stagedOf rng.rangeSeq (applyFlushes ts fs t) =
        (accepted ts t.staging (fs.flatMap Flush.batch)).length ∧
      (rejectedOf rng.rangeSeq (applyFlushes ts fs t) = (fs.flatMap (flushLog ts t.staging)).length ↔
        ∀ k, RejectedOnce ts rng.rangeSeq t records k) := persisted_applyFlushes decodes (untouched_begun fresh)
  obtain ⟨staged, once⟩ := persisted
  rw [← once]
  constructor
  · intro h
    have both := h.total
    rw [stagedIs, rejectedIs, staged] at both
    omega
  · intro h
    refine ⟨?_, ?_⟩
    · rw [stagedIs, rejectedIs, staged, h]
      omega
    · rw [stagedIs, rejectedIs, staged, h, log, reported]
      rfl

end

/-- A table with one range that waits for its load. -/
def waitingWorld (records : List Raw) : World :=
  (cardWorld []).onTarget "FILEAUD" fun t =>
    { t with ranges := [{ eventRange with rowCount := none }], files := t.files.insert 1 records }

def loadWaiting (records : List Raw) : Except JobError (Nat × Nat) × World :=
  (loadRange .serial (batchesOf 2 Nat.two_pos) eventTable { eventRange with rowCount := none }).eval
    (waitingWorld records)

theorem waiting_untouched (records : List Raw) : Untouched 1 ((waitingWorld records).target "FILEAUD") := by
  refine ⟨?_, ?_⟩
  · intro k row held
    cases held
  · intro k r held
    cases held

/-- Key K is refused and comes once, key M is fine: a row and a reject. -/
theorem refused_once_conserved :
    Conserved 1 [[75, 250], [77, 1]] (1, 1) ((loadWaiting [[75, 250], [77, 1]]).2.target "FILEAUD") := by
  refine (load_conserves_iff .serial trivial (batchesOf 2 (by decide)) eventTable { eventRange with rowCount := none }
    [[75, 250], [77, 1]] (waitingWorld [[75, 250], [77, 1]]) _ (1, 1) (by decide +kernel)
    (fun _ => waiting_untouched _) (Prod.ext (by decide +kernel) rfl)).mpr ?_
  intro k
  by_cases isK : k = ['K']
  · subst isK
    exact ⟨by decide +kernel, fun _ => by decide +kernel⟩
  · by_cases isM : k = ['M']
    · subst isM
      exact ⟨by decide +kernel, fun _ => by decide +kernel⟩
    · have none : recordsOf eventTable [[75, 250], [77, 1]] k = 0 := by
        have keys : ([[75, 250], [77, 1]] : List Raw).filterMap (fun raw => (eventTable.convert raw).key) =
            [['K'], ['M']] := by decide
        rw [recordsOf, keys, List.count_eq_zero]
        simp [isK, isM]
      refine ⟨?_, ?_⟩
      · rw [none]
        exact Nat.zero_le _
      · rw [none]
        exact fun more => absurd more (Nat.not_lt_zero _)

/-- A key that comes three times, and one that is malformed twice: the second reject of the key is dropped, and
counted all the same. -/
theorem repeated_reject_lost :
    (loadWaiting [[75, 1], [75, 1], [75, 1]]).1 = .ok (1, 2) ∧
      stagedOf 1 ((loadWaiting [[75, 1], [75, 1], [75, 1]]).2.target "FILEAUD") = 1 ∧
      rejectedOf 1 ((loadWaiting [[75, 1], [75, 1], [75, 1]]).2.target "FILEAUD") = 1 ∧
      (loadWaiting [[75], [75]]).1 = .ok (0, 2) ∧
      stagedOf 1 ((loadWaiting [[75], [75]]).2.target "FILEAUD") = 0 ∧
      rejectedOf 1 ((loadWaiting [[75], [75]]).2.target "FILEAUD") = 1 := by
  decide +kernel

end OtterWorks.Migration
