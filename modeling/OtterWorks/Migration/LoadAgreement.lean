import OtterWorks.Migration.EngineAgreement
import OtterWorks.Migration.Sample

namespace OtterWorks.Migration

/-! Two runs of LOAD over one range. -/

/-- Two runs leave the same staged rows and the same rejects. -/
def SameRows (table : String) (u v : World) : Prop :=
  (u.target table).staging = (v.target table).staging ∧ (u.target table).rejects = (v.target table).rejects

/-- Two runs end alike: both fail, or both answer the same counts, and they leave the same staged rows and rejects. -/
def SameLoad (table : String) : Except JobError (Nat × Nat) × World → Except JobError (Nat × Nat) × World → Prop
  | (.ok a, u), (.ok b, v) => a = b ∧ SameRows table u v
  | (.error _, u), (.error _, v) => SameRows table u v
  | _, _ => False

/-- The table once `begin_range` has rolled back what an interrupted load left of the range. -/
def begun (rng : KeyRange) (t : TargetTable) : TargetTable :=
  let cleared := if rng.loadStatus = .running then
      { t with
        staging := t.staging.filter fun _ row => !decide (row.keyRangeSeq = rng.rangeSeq)
        rejects := t.rejects.filter fun _ r =>
          !(decide (r.stage = .load) && decide (r.keyRangeSeq = some rng.rangeSeq)) }
    else t
  { cleared with
    ranges := t.ranges.map fun r => if r.rangeSeq = rng.rangeSeq then { r with loadStatus := .running } else r }

/-- A key that has no reject yet, whose first record is well-formed but refused by the target, and whose
next record would be rejected for another reason. -/
def Contested (ts : TableSpec) (rangeSeq : Nat) (t : TargetTable) (records : List Raw) (k : Key) : Prop :=
  t.rejects[k]? = none ∧
    ∃ x row y rest e, ((routedRecords ts rangeSeq records).filter fun r => r.sourceKey = k) = x :: y :: rest ∧
      x.outcome = .inr row ∧ stagingError ts t.staging row = some e ∧
      laterReject ts rangeSeq y ≠ failureReject ts e row

/-- Flushes that change nothing: what the target takes of their rows is staged as it is, and the key of every reject
has one. -/
structure Idle (ts : TableSpec) (t : TargetTable) (fs : List Flush) : Prop where
  rows : ∀ row ∈ accepted ts t.staging (fs.flatMap Flush.batch), t.staging[row.sourceKey]? = some row
  rejects : ∀ r ∈ fs.flatMap (flushLog ts t.staging), r.sourceKey ∈ t.rejects

/-- The distinct keys of the well-formed records. -/
def wellFormedKeys (ts : TableSpec) (rangeSeq : Nat) (records : List Raw) : List Key :=
  ((rowsOf (routedRecords ts rangeSeq records)).map StagedRow.sourceKey).dedup

theorem idle_iff {ts : TableSpec} {fs : List Flush} {t : TargetTable}
    (distinct : ((fs.flatMap Flush.batch).map StagedRow.sourceKey).Nodup) :
    ((applyFlushes ts fs t).staging = t.staging ∧ (applyFlushes ts fs t).rejects = t.rejects) ↔ Idle ts t fs := by
  have keys : ((stagedEntries (accepted ts t.staging (fs.flatMap Flush.batch))).map Prod.fst).Nodup := by
    rw [stagedEntries_keys]
    exact distinct.sublist ((accepted_sublist ts _ _).map _)
  have rows : (applyFlushes ts fs t).staging = t.staging ↔
      ∀ row ∈ accepted ts t.staging (fs.flatMap Flush.batch), t.staging[row.sourceKey]? = some row := by
    refine (KeyMap.upsertAll_eq_self_iff keys).trans ?_
    simp only [stagedEntries, List.forall_mem_map]
  have rejects : (applyFlushes ts fs t).rejects = t.rejects ↔
      ∀ r ∈ fs.flatMap (flushLog ts t.staging), r.sourceKey ∈ t.rejects := by
    refine KeyMap.addNew_eq_self_iff.trans ?_
    simp only [rejectEntries, List.forall_mem_map]
  rw [rows, rejects]
  exact ⟨fun h => ⟨h.1, h.2⟩, fun h => ⟨h.rows, h.rejects⟩⟩

theorem getElem?_rejectLog (m : KeyMap Key Reject) (log : List Reject) (k : Key) :
    (m.addNew (rejectEntries log))[k]? = m[k]?.or (log.find? fun r => r.sourceKey = k) := by
  rw [KeyMap.getElem?_addNew]
  congr 1
  unfold rejectEntries
  rw [List.find?_map, Option.map_map]
  have plain : (Prod.snd ∘ fun r : Reject => (r.sourceKey, r)) = id := rfl
  rw [plain, Option.map_id]
  rfl

/-- Flushes of the same rows and rejects differ at most in which reject of a key they write first. -/
theorem applyFlushes_agree {ts : TableSpec} {fs gs : List Flush} {t : TargetTable}
    (distinct : ((fs.flatMap Flush.batch).map StagedRow.sourceKey).Nodup)
    (batches : (fs.flatMap Flush.batch).Perm (gs.flatMap Flush.batch))
    (rejects : (fs.flatMap Flush.rejects).Perm (gs.flatMap Flush.rejects)) :
    flushCounts ts t.staging fs = flushCounts ts t.staging gs ∧
      (applyFlushes ts fs t).staging = (applyFlushes ts gs t).staging ∧
      ((applyFlushes ts fs t).rejects = (applyFlushes ts gs t).rejects ↔
        ∀ k, t.rejects[k]? = none → firstLog ts t.staging k fs = firstLog ts t.staging k gs) := by
  refine ⟨?_, ?_, ?_⟩
  · have taken := (batches.filter fun row => (stagingError ts t.staging row).isNone).length_eq
    have refused := (batches.filterMap (stagingError ts t.staging)).length_eq
    simp only [flushCounts, accepted, refusals, taken, refused, rejects.length_eq]
  · apply KeyMap.upsertAll_perm
    · rw [stagedEntries_keys]
      exact distinct.sublist ((accepted_sublist ts _ _).map _)
    · exact (batches.filter _).map _
  · constructor
    · intro same k none
      have at_ := congrArg (fun m : KeyMap Key Reject => m[k]?) same
      simp only [applyFlushes, getElem?_rejectLog, none, Option.none_or] at at_
      exact at_
    · intro same
      apply Std.ExtTreeMap.ext_getElem?
      intro k
      simp only [applyFlushes, getElem?_rejectLog]
      cases held : t.rejects[k]? with
      | some r => rfl
      | none => exact same k held

section Range

variable {batch : BatchConfig} {ts : TableSpec} {rng : KeyRange} {records : List Raw} {w : World}

theorem eval_beginRange (file : (w.target ts.name).files[rng.rangeSeq]? = some records)
    (counted : ∀ rows, rng.rowCount = some rows → records.length = rows) :
    (beginRange ts rng).eval w = (.ok records, w.onTarget ts.name (begun rng)) := by
  have read : (rangeFile ts rng).eval w = (.ok records, w) := by
    have : (readFile ts.name rng.rangeSeq).eval w = (.ok (some records), w) := by
      rw [← file]
      rfl
    unfold rangeFile
    rw [Prog.eval_bind_ok this]
    rfl
  have checked : (checkRecordCount ts rng records).eval w = (.ok (), w) := by
    unfold checkRecordCount
    cases hc : rng.rowCount with
    | none => rfl
    | some rows => simp [counted rows hc]
  unfold beginRange
  rw [Prog.eval_bind_ok read, Prog.eval_bind_ok checked]
  unfold rollBackRange deleteStagingRange deleteRejectsRange updateKeyRange
  by_cases running : rng.loadStatus = .running
  · rw [if_pos running]
    simp only [Prog.eval_bind, eval_writeTarget, Prog.eval_pure, World.onTarget_onTarget]
    refine congrArg₂ Prod.mk rfl (World.onTarget_congr ?_)
    simp [begun, running, TargetTable.onRange]
  · rw [if_neg running]
    simp only [Prog.eval_bind, eval_writeTarget, Prog.eval_pure]
    refine congrArg₂ Prod.mk rfl (World.onTarget_congr ?_)
    simp [begun, running, TargetTable.onRange]

/-- `load_range` when its engine ends with counts. -/
theorem eval_loadRange {engine : LoadEngine} {counts : Nat × Nat} {f : TargetTable → TargetTable}
    (file : (w.target ts.name).files[rng.rangeSeq]? = some records)
    (counted : ∀ rows, rng.rowCount = some rows → records.length = rows)
    (loaded : (engine.load batch ts rng.rangeSeq records).eval (w.onTarget ts.name (begun rng)) =
      (.ok counts, (w.onTarget ts.name (begun rng)).onTarget ts.name f)) :
    ∃ u, (loadRange engine batch ts rng).eval w = (.ok counts, u) ∧
      (u.target ts.name).staging = (f (begun rng (w.target ts.name))).staging ∧
      (u.target ts.name).rejects = (f (begun rng (w.target ts.name))).rejects := by
  unfold loadRange
  rw [Prog.eval_bind_ok (eval_beginRange file counted), Prog.eval_bind_ok loaded]
  refine ⟨_, rfl, ?_, ?_⟩
  · simp [World.onTarget, TargetTable.onRange]
  · simp [World.onTarget, TargetTable.onRange]

theorem eval_loadRange_error {engine : LoadEngine} {e : JobError} {u : World}
    (file : (w.target ts.name).files[rng.rangeSeq]? = some records)
    (counted : ∀ rows, rng.rowCount = some rows → records.length = rows)
    (failed : (engine.load batch ts rng.rangeSeq records).eval (w.onTarget ts.name (begun rng)) = (.error e, u)) :
    (loadRange engine batch ts rng).eval w = (.error e, u) := by
  unfold loadRange
  rw [Prog.eval_bind_ok (eval_beginRange file counted), Prog.eval_bind, failed]

/-- On a file with a key that does not decode, the engines end alike exactly if the batches before it change nothing. -/
theorem sameLoad_undecodable_iff {perSlice : Nat} (pos : 0 < perSlice) (schedule : Schedule)
    (file : (w.target ts.name).files[rng.rangeSeq]? = some records)
    (counted : ∀ rows, rng.rowCount = some rows → records.length = rows) {raw : Raw} (held : raw ∈ records) {e : String}
    (undecodable : ts.convert raw = .undecodable e) :
    SameLoad ts.name ((loadRange .serial batch ts rng).eval w)
        ((loadRange (.spark perSlice schedule) batch ts rng).eval w) ↔
      Idle ts (begun rng (w.target ts.name)) (fullFlushes batch ts rng.rangeSeq records) := by
  obtain ⟨_, serial⟩ := @eval_loadRecords_undecodable batch _ rng.rangeSeq _ _ held _ undecodable
    (w.onTarget ts.name (begun rng))
  obtain ⟨_, spark⟩ := @eval_runRangeSpark_undecodable batch _ rng.rangeSeq _ _ pos schedule _ held _ undecodable
    (w.onTarget ts.name (begun rng))
  have serial := @eval_loadRange_error batch _ _ _ _ .serial _ _ file counted serial
  have spark := @eval_loadRange_error batch _ _ _ _ (.spark perSlice schedule) _ _ file counted spark
  rw [serial, spark, ← idle_iff fullFlushes_distinct]
  simp only [SameLoad, SameRows, World.onTarget_self]

/-- On a file whose keys decode, the engines end alike exactly if they write the same reject first for
every key without one. -/
theorem sameLoad_iff {perSlice : Nat} (pos : 0 < perSlice) (schedule : Schedule)
    (file : (w.target ts.name).files[rng.rangeSeq]? = some records)
    (counted : ∀ rows, rng.rowCount = some rows → records.length = rows) (decodes : Decodable ts records) :
    SameLoad ts.name ((loadRange .serial batch ts rng).eval w)
        ((loadRange (.spark perSlice schedule) batch ts rng).eval w) ↔
      ∀ k, (begun rng (w.target ts.name)).rejects[k]? = none →
        firstLog ts (begun rng (w.target ts.name)).staging k (serialFlushes batch ts rng.rangeSeq records) =
          firstLog ts (begun rng (w.target ts.name)).staging k
            (sparkFlushes batch ts rng.rangeSeq records schedule) := by
  have serial := @eval_loadRecords batch _ rng.rangeSeq _ decodes (w.onTarget ts.name (begun rng))
  have spark := @eval_runRangeSpark batch _ rng.rangeSeq _ _ pos schedule decodes (w.onTarget ts.name (begun rng))
  obtain ⟨u, hu, ustaging, urejects⟩ := @eval_loadRange _ _ _ _ _ .serial _ _ file counted serial
  obtain ⟨v, hv, vstaging, vrejects⟩ := @eval_loadRange _ _ _ _ _ (.spark perSlice schedule) _ _ file counted spark
  obtain ⟨batches, rejects⟩ := @sparkFlushes_contents batch ts rng.rangeSeq records schedule
  obtain ⟨counts, staging, same⟩ := @applyFlushes_agree ts (serialFlushes batch ts rng.rangeSeq records)
      (sparkFlushes batch ts rng.rangeSeq records schedule) (begun rng (w.target ts.name))
          (by rw [serialFlushes_contents.1]; exact keptRecords_distinct)
              (by rw [serialFlushes_contents.1]; exact batches.symm)
                  (by rw [serialFlushes_contents.2]; exact rejects.symm)
  rw [hu, hv]
  simp only [SameLoad, SameRows, ustaging, vstaging, urejects, vrejects, World.onTarget_self, counts, staging, true_and]
  exact same

theorem wellFormedKeys_length :
    (wellFormedKeys ts rng.rangeSeq records).length = (rowsOf (keptRecords ts rng.rangeSeq records)).length := by
  have same : ∀ (l : List Routed), (∀ x ∈ l, x.Keyed) → ∀ seen k,
      k ∈ (rowsOf (keepUnseen ts rng.rangeSeq seen l)).map StagedRow.sourceKey ↔
        k ∈ (rowsOf l).map StagedRow.sourceKey ∧ k ∉ seen := by
    intro l keyed
    induction l with
    | nil => simp [keepUnseen, rowsOf]
    | cons r l ih =>
      intro seen k
      have rest : ∀ x ∈ l, x.Keyed := fun x hx => keyed x (List.mem_cons_of_mem _ hx)
      have here := keyed r (List.mem_cons_self ..)
      unfold keepUnseen
      cases ho : r.outcome with
      | inl reject =>
        simp only
        rw [rowsOf_cons_reject ho, rowsOf_cons_reject ho]
        exact ih rest seen k
      | inr row =>
        simp only [Routed.Keyed, ho] at here
        simp only
        rw [rowsOf_cons_row ho, List.map_cons, List.mem_cons, here]
        split
        next known =>
          rw [rowsOf_cons_reject rfl, ih rest seen k]
          constructor
          · rintro ⟨held, fresh⟩
            exact ⟨Or.inr held, fresh⟩
          · rintro ⟨held, fresh⟩
            rcases held with rfl | held
            · exact absurd known fresh
            · exact ⟨held, fresh⟩
        next unknown =>
          rw [rowsOf_cons_row ho, List.map_cons, List.mem_cons, here, ih rest _ k]
          by_cases same : k = r.sourceKey
          · subst same
            simp [unknown]
          · simp [same]
  have perm : (wellFormedKeys ts rng.rangeSeq records).Perm
      ((rowsOf (keptRecords ts rng.rangeSeq records)).map StagedRow.sourceKey) := by
    apply (List.perm_ext_iff_of_nodup (List.nodup_dedup _) keptRecords_distinct).mpr
    intro k
    rw [List.mem_dedup]
    have := same (routedRecords ts rng.rangeSeq records) routedRecords_keyed [] k
    simp only [List.not_mem_nil, not_false_eq_true, and_true] at this
    exact this.symm
  rw [perm.length_eq, List.length_map]

/-- Keys without a contest, batches of one row, and files that never fill a batch leave no choice. -/
theorem firstLog_agree (schedule : Schedule) {t : TargetTable} {k : Key} (fresh : t.rejects[k]? = none)
    (settled : (∀ k, ¬ Contested ts rng.rangeSeq t records k) ∨ batch.loadBatchRows = 1 ∨
      (wellFormedKeys ts rng.rangeSeq records).length < batch.loadBatchRows) :
    firstLog ts t.staging k (serialFlushes batch ts rng.rangeSeq records) =
      firstLog ts t.staging k (sparkFlushes batch ts rng.rangeSeq records schedule) := by
  have pos := batch.loadBatchRows_pos
  obtain ⟨l, keyed, distinct, short, group, spark⟩ :=
    @sparkFlushes_sink batch ts rng.rangeSeq records schedule k
  rw [spark]
  have serialGroup := @keptRecords_filter ts rng.rangeSeq records k
  rw [serialGroup] at group
  by_cases race : ∃ x y rest row e,
      ((routedRecords ts rng.rangeSeq records).filter fun r => r.sourceKey = k) = x :: y :: rest ∧
        x.outcome = .inr row ∧ stagingError ts t.staging row = some e
  · obtain ⟨x, y, rest, row, e, shape, hx, he⟩ := race
    rw [shape] at serialGroup group
    obtain ⟨b₁, m₁, y₁, r₁, split₁, _, _, _, serialLog⟩ :=
      firstLog_race pos keptRecords_keyed keptRecords_distinct serialGroup hx he
    obtain ⟨b₂, m₂, y₂, r₂, split₂, _, _, _, sparkLog⟩ := firstLog_race pos keyed distinct group hx he
    unfold serialFlushes
    rw [serialLog, sparkLog]
    rcases settled with none | one | few
    · have same : laterReject ts rng.rangeSeq y = failureReject ts e row := by
        by_contra differ
        exact none k ⟨fresh, x, row, y, rest, e, shape, hx, he, differ⟩
      simp [same]
    · rw [one, if_pos (by omega), if_pos (by omega)]
    · rw [wellFormedKeys_length] at few
      have bound : ∀ (l b m r : List Routed) (y : Routed), l = b ++ x :: m ++ y :: r →
          (rowsOf l).length < batch.loadBatchRows →
          ¬ batch.loadBatchRows ≤ (rowsOf b).length % batch.loadBatchRows + 1 + (rowsOf m).length := by
        intro l b m r y split small
        rw [split, rowsOf_append, rowsOf_append, rowsOf_cons_row hx] at small
        simp only [List.length_append, List.length_cons] at small
        have := Nat.mod_le (rowsOf b).length batch.loadBatchRows
        omega
      rw [if_neg (bound _ _ _ _ _ split₁ few), if_neg (bound _ _ _ _ _ split₂ (by omega))]
  · have calm : ∀ x y rest row e,
        ((routedRecords ts rng.rangeSeq records).filter fun r => r.sourceKey = k) = x :: y :: rest →
          x.outcome = .inr row → stagingError ts t.staging row = some e → False := by
      intro x y rest row e shape hx he
      exact race ⟨x, y, rest, row, e, shape, hx, he⟩
    unfold serialFlushes
    rw [firstLog_verdict pos keptRecords_keyed keptRecords_distinct serialGroup calm,
      firstLog_verdict pos keyed distinct group calm]

/-- One sink, with the keys in the order asked for. -/
def Schedule.single (order : List Key) : Schedule where
  partitions keys := if order.Perm keys then [order] else [keys]
  partitions_perm keys := by
    split
    next perm => simpa using perm
    next => simp
  arrival := id
  arrival_perm _ := .refl _
  picks := []

theorem sparkFlushes_single {order : List Key}
    (perm : order.Perm ((routedRecords ts rng.rangeSeq records).map Routed.sourceKey).dedup) :
    sparkFlushes batch ts rng.rangeSeq records (.single order) =
      sinkFlushes batch.loadBatchRows ⟨[], []⟩ (order.flatMap fun k =>
        (keptRecords ts rng.rangeSeq records).filter fun r => r.sourceKey = k) := by
  have shape : sinkInputs ts rng.rangeSeq (.single order) (routedRecords ts rng.rangeSeq records) = _ :=
    sinkInputs_eq (.single order) 0 records
  have picked : (Schedule.single order).partitions
      ((routedRecords ts rng.rangeSeq records).map Routed.sourceKey).dedup = [order] := if_pos perm
  unfold sparkFlushes
  rw [shape]
  change interleave [] (List.map _ (List.map _ ((Schedule.single order).partitions
    ((routedRecords ts rng.rangeSeq records).map Routed.sourceKey).dedup))) = _
  rw [picked]
  simp only [interleave, List.map_cons, List.map_nil, List.flatten_cons, List.flatten_nil, List.append_nil]
  rfl

theorem rowsOf_filter {l : List Routed} (keyed : ∀ x ∈ l, x.Keyed) (k : Key) :
    rowsOf (l.filter fun r => r.sourceKey = k) = (rowsOf l).filter fun row => row.sourceKey = k := by
  induction l with
  | nil => rfl
  | cons r l ih =>
    have rest := ih fun x hx => keyed x (List.mem_cons_of_mem _ hx)
    have here := keyed r (List.mem_cons_self ..)
    cases ho : r.outcome with
    | inl reject =>
      rw [rowsOf_cons_reject ho, ← rest]
      by_cases hk : r.sourceKey = k
      · rw [List.filter_cons_of_pos (by simpa using hk), rowsOf_cons_reject ho]
      · rw [List.filter_cons_of_neg (by simpa using hk)]
    | inr row =>
      simp only [Routed.Keyed, ho] at here
      rw [rowsOf_cons_row ho]
      by_cases hk : r.sourceKey = k
      · rw [List.filter_cons_of_pos (by simpa using hk), rowsOf_cons_row ho,
          List.filter_cons_of_pos (by simpa [here] using hk), rest]
      · rw [List.filter_cons_of_neg (by simpa using hk), List.filter_cons_of_neg (by simpa [here] using hk), rest]

/-- Each well-formed key brings one row. -/
theorem rowsOf_groups {keys : List Key}
    (held : ∀ k ∈ keys, k ∈ (rowsOf (keptRecords ts rng.rangeSeq records)).map StagedRow.sourceKey) :
    (rowsOf (keys.flatMap fun k =>
      (keptRecords ts rng.rangeSeq records).filter fun r => r.sourceKey = k)).length = keys.length := by
  induction keys with
  | nil => rfl
  | cons k keys ih =>
    have one : (rowsOf ((keptRecords ts rng.rangeSeq records).filter fun r => r.sourceKey = k)).length = 1 := by
      rw [rowsOf_filter keptRecords_keyed, ← List.countP_eq_length_filter]
      have count := List.count_eq_one_of_mem
        (@keptRecords_distinct ts rng.rangeSeq records)
        (held k (List.mem_cons_self ..))
      rw [List.count, List.countP_map] at count
      rw [← count]
      apply List.countP_congr
      intro row _
      simp
    rw [List.flatMap_cons, rowsOf_append, List.length_append, one,
      ih fun k' h => held k' (List.mem_cons_of_mem _ h), List.length_cons]
    omega

/-- A contested key goes to its refused row or to its next record, by the number of well-formed keys that
Spark takes before it. -/
theorem firstLog_order {t : TargetTable} {front back : List Key} {k : Key}
    (perm : (front ++ k :: back).Perm ((routedRecords ts rng.rangeSeq records).map Routed.sourceKey).dedup)
    (held : ∀ k' ∈ front, k' ∈ (rowsOf (keptRecords ts rng.rangeSeq records)).map StagedRow.sourceKey)
    {x y : Routed} {rest : List Routed} {row : StagedRow} {e : InsertFailure}
    (shape : ((routedRecords ts rng.rangeSeq records).filter fun r => r.sourceKey = k) = x :: y :: rest)
    (hx : x.outcome = .inr row) (he : stagingError ts t.staging row = some e) :
    firstLog ts t.staging k (sparkFlushes batch ts rng.rangeSeq records (.single (front ++ k :: back))) =
      if batch.loadBatchRows ≤ front.length % batch.loadBatchRows + 1 then some (failureReject ts e row)
      else some (laterReject ts rng.rangeSeq y) := by
  let group (k' : Key) := (keptRecords ts rng.rangeSeq records).filter fun r => r.sourceKey = k'
  obtain ⟨y', hy, _, youtcome⟩ := @keepFirst_true_cons ts rng.rangeSeq y rest
  have here : group k = x :: y' :: keepFirst ts rng.rangeSeq true rest := by
    have := @keptRecords_filter ts rng.rangeSeq records k
    rw [shape, keepFirst_row hx, hy] at this
    exact this
  have member : ∀ z ∈ group k, z ∈ keptRecords ts rng.rangeSeq records ∧ z.sourceKey = k := by
    intro z hz
    obtain ⟨hz, same⟩ := List.mem_filter.mp hz
    exact ⟨hz, by simpa using same⟩
  obtain ⟨xheld, xkey⟩ := member x (by rw [here]; simp)
  obtain ⟨yheld, ykey⟩ := member y' (by rw [here]; simp)
  have xkeyed := keptRecords_keyed x xheld
  have ykeyed := keptRecords_keyed y' yheld
  simp only [Routed.Keyed, hx] at xkeyed
  simp only [Routed.Keyed, youtcome] at ykeyed
  have all : (front ++ k :: back).flatMap group =
      front.flatMap group ++ x :: [] ++ y' :: (keepFirst ts rng.rangeSeq true rest ++ back.flatMap group) := by
    rw [List.flatMap_append, List.flatMap_cons, here]
    simp
  have once : (front ++ k :: back).Nodup := perm.nodup_iff.mpr (List.nodup_dedup _)
  have before : ∀ z ∈ front.flatMap group, Silent ts t.staging k z := by
    apply silent_of_other
    · intro z hz
      obtain ⟨k', _, hz⟩ := List.mem_flatMap.mp hz
      exact keptRecords_keyed z (List.mem_filter.mp hz).1
    · intro z hz same
      obtain ⟨k', hk', hz⟩ := List.mem_flatMap.mp hz
      have : z.sourceKey = k' := by simpa using (List.mem_filter.mp hz).2
      have inFront : k ∈ front := by rw [← same, this]; exact hk'
      exact (List.nodup_append.mp once).2.2 k inFront k (List.mem_cons_self ..) rfl
  have distinct : ((rowsOf (front.flatMap group ++ x :: [])).map StagedRow.sourceKey).Nodup := by
    have whole : ((front ++ k :: back).flatMap group).Perm (keptRecords ts rng.rangeSeq records) := by
      apply flatMap_filter_perm once
      intro z hz
      apply perm.symm.subset
      exact List.mem_dedup.mpr (keepUnseen_keys z hz)
    have rows := ((rowsOf_perm whole).map StagedRow.sourceKey).nodup_iff.mpr keptRecords_distinct
    rw [all, rowsOf_append, List.map_append] at rows
    exact (List.nodup_append.mp rows).1
  rw [sparkFlushes_single perm]
  change firstLog ts t.staging k (sinkFlushes batch.loadBatchRows ⟨[], []⟩ ((front ++ k :: back).flatMap group)) = _
  rw [all, firstLog_contested batch.loadBatchRows_pos hx (xkeyed.trans xkey) youtcome (ykeyed.trans ykey) distinct
    before (fun z hz => by cases hz) he]
  have rows : (rowsOf (front.flatMap group)).length = front.length := rowsOf_groups held
  rw [rows]
  rfl

theorem wellFormed_seen {k : Key}
    (h : k ∈ (rowsOf (keptRecords ts rng.rangeSeq records)).map StagedRow.sourceKey) :
    k ∈ ((routedRecords ts rng.rangeSeq records).map Routed.sourceKey).dedup := by
  obtain ⟨row, hrow, rfl⟩ := List.mem_map.mp h
  obtain ⟨r, hr, ho⟩ := List.mem_filterMap.mp hrow
  have keyed := keptRecords_keyed r hr
  cases hout : r.outcome with
  | inl reject => simp [hout] at ho
  | inr row' =>
    simp only [hout, Sum.getRight?_inr, Option.some.injEq] at ho
    subst ho
    simp only [Routed.Keyed, hout] at keyed
    rw [keyed]
    exact List.mem_dedup.mpr (keepUnseen_keys r hr)

/-- A contested key in a file that fills a batch of two or more rows: Spark may write either reject. -/
theorem contested_either {t : TargetTable} {k : Key} (contested : Contested ts rng.rangeSeq t records k)
    (many : batch.loadBatchRows ≠ 1)
    (fills : batch.loadBatchRows ≤ (wellFormedKeys ts rng.rangeSeq records).length) :
    ∃ a b, a ≠ b ∧
      (∃ schedule, firstLog ts t.staging k (sparkFlushes batch ts rng.rangeSeq records schedule) = some a) ∧
      (∃ schedule, firstLog ts t.staging k (sparkFlushes batch ts rng.rangeSeq records schedule) = some b) := by
  have pos := batch.loadBatchRows_pos
  obtain ⟨_, x, row, y, rest, e, shape, hx, he, differ⟩ := contested
  let ks := ((routedRecords ts rng.rangeSeq records).map Routed.sourceKey).dedup
  let wf := (rowsOf (keptRecords ts rng.rangeSeq records)).map StagedRow.sourceKey
  have wfNodup : wf.Nodup := keptRecords_distinct
  have wfLength : batch.loadBatchRows ≤ wf.length := by
    rw [wellFormedKeys_length] at fills
    simpa [wf] using fills
  have xmem : x ∈ (routedRecords ts rng.rangeSeq records).filter fun r => r.sourceKey = k := by
    rw [shape]
    exact List.mem_cons_self ..
  obtain ⟨xheld, xkey⟩ := List.mem_filter.mp xmem
  have xkey : x.sourceKey = k := by simpa using xkey
  have kks : k ∈ ks := List.mem_dedup.mpr (List.mem_map.mpr ⟨x, xheld, xkey⟩)
  have kwf : k ∈ wf := by
    have kept := @keptRecords_filter ts rng.rangeSeq records k
    rw [shape, keepFirst_row hx] at kept
    have xkept : x ∈ (keptRecords ts rng.rangeSeq records).filter fun r => r.sourceKey = k := by
      rw [kept]
      exact List.mem_cons_self ..
    have xkept := (List.mem_filter.mp xkept).1
    have keyed := keptRecords_keyed x xkept
    simp only [Routed.Keyed, hx] at keyed
    exact List.mem_map.mpr ⟨row, List.mem_filterMap.mpr ⟨x, xkept, by simp [hx]⟩, keyed.trans xkey⟩
  -- the key alone in front, and the key after as many others as complete a batch
  let front := (wf.erase k).take (batch.loadBatchRows - 1)
  have frontLength : front.length = batch.loadBatchRows - 1 := by
    rw [List.length_take, List.length_erase_of_mem kwf]
    omega
  have frontHeld : ∀ k' ∈ front, k' ∈ wf := fun k' h => List.mem_of_mem_erase (List.mem_of_mem_take h)
  have apart : k ∉ front := fun h => (List.Nodup.not_mem_erase wfNodup) (List.mem_of_mem_take h)
  have frontNodup : (front ++ [k]).Nodup := by
    apply List.nodup_append.mpr
    refine ⟨(wfNodup.erase k).sublist (List.take_sublist ..), by simp, ?_⟩
    intro a ha b hb same
    have : b = k := by simpa using hb
    exact apart (this ▸ same ▸ ha)
  have first : (([] : List Key) ++ k :: ks.erase k).Perm ks := (List.perm_cons_erase kks).symm
  have last : (front ++ k :: ks.diff (front ++ [k])).Perm ks := by
    have fits : ∀ a ∈ front ++ [k], (front ++ [k]).count a ≤ ks.count a := by
      intro a ha
      have low := List.nodup_iff_count_le_one.mp frontNodup a
      have inside : a ∈ ks := by
        rcases List.mem_append.mp ha with h | h
        · exact wellFormed_seen (frontHeld a h)
        · have : a = k := by simpa using h
          exact this ▸ kks
      have high := List.count_pos_iff.mpr inside
      omega
    have := List.subperm_append_diff_self_of_count_le fits
    simpa using this
  have one := @firstLog_order batch _ _ _ t _ _ _ first (by simp) _ _ _ _ _ shape hx he
  have two := @firstLog_order batch _ _ _ t _ _ _ last frontHeld _ _ _ _ _ shape hx he
  rw [if_neg (by simp; omega)] at one
  rw [frontLength, if_pos (by rw [Nat.mod_eq_of_lt (by omega)]; omega)] at two
  exact ⟨_, _, differ, ⟨_, one⟩, ⟨_, two⟩⟩

/-- Over one unload file the two engines leave the same rows, rejects and counts whatever Spark does, exactly if no key
is contested, batches hold one row, or the file does not fill a batch. If a key does not decode, both fail, and they leave
the same exactly if the batches that the serial engine flushed before it change nothing. -/
theorem engines_agree_iff (file : (w.target ts.name).files[rng.rangeSeq]? = some records)
    (counted : ∀ rows, rng.rowCount = some rows → records.length = rows) :
    (∀ perSlice, 0 < perSlice → ∀ schedule, SameLoad ts.name ((loadRange .serial batch ts rng).eval w)
        ((loadRange (.spark perSlice schedule) batch ts rng).eval w)) ↔
      ((∃ raw ∈ records, ∃ e, ts.convert raw = .undecodable e) ∧
          Idle ts (begun rng (w.target ts.name)) (fullFlushes batch ts rng.rangeSeq records)) ∨
        Decodable ts records ∧ ((∀ k, ¬ Contested ts rng.rangeSeq (begun rng (w.target ts.name)) records k) ∨
          batch.loadBatchRows = 1 ∨ (wellFormedKeys ts rng.rangeSeq records).length < batch.loadBatchRows) := by
  by_cases undecodable : ∃ raw ∈ records, ∃ e, ts.convert raw = .undecodable e
  · obtain ⟨raw, held, e, he⟩ := undecodable
    constructor
    · intro agree
      have idle := (sameLoad_undecodable_iff Nat.one_pos (.single []) file counted held he).mp
        (agree 1 Nat.one_pos (.single []))
      exact Or.inl ⟨⟨raw, held, e, he⟩, idle⟩
    · intro settled perSlice pos schedule
      rw [sameLoad_undecodable_iff pos schedule file counted held he]
      rcases settled with ⟨_, idle⟩ | ⟨decodes, _⟩
      · exact idle
      · exact absurd he (decodes raw held e)
  · have decodes : Decodable ts records := fun raw held e he => undecodable ⟨raw, held, e, he⟩
    constructor
    · intro agree
      refine Or.inr ⟨decodes, ?_⟩
      by_contra unsettled
      push Not at unsettled
      obtain ⟨⟨k, contested⟩, many, fills⟩ := unsettled
      obtain ⟨a, b, differ, ⟨s₁, h₁⟩, ⟨s₂, h₂⟩⟩ := @contested_either batch _ _ _ _ _ contested many (by omega)
      have one := (@sameLoad_iff batch _ _ _ _ _ Nat.one_pos s₁ file counted decodes).mp
        (agree 1 Nat.one_pos s₁) k contested.1
      have two := (@sameLoad_iff batch _ _ _ _ _ Nat.one_pos s₂ file counted decodes).mp
        (agree 1 Nat.one_pos s₂) k contested.1
      rw [h₁] at one
      rw [h₂, one] at two
      exact differ (Option.some.inj two)
    · intro settled perSlice pos schedule
      rw [sameLoad_iff pos schedule file counted decodes]
      intro k fresh
      refine firstLog_agree schedule fresh ?_
      rcases settled with ⟨bad, _⟩ | ⟨_, settled⟩
      · exact absurd bad undecodable
      · exact settled

end Range

instance (table : String) (u v : World) : Decidable (SameRows table u v) := inferInstanceAs (Decidable (_ ∧ _))

instance (table : String) (a b : Except JobError (Nat × Nat) × World) : Decidable (SameLoad table a b) :=
  match a, b with
  | (.ok _, _), (.ok _, _) => inferInstanceAs (Decidable (_ ∧ _))
  | (.error _, _), (.error _, _) => inferInstanceAs (Decidable (SameRows ..))
  | (.ok _, _), (.error _, _) => isFalse (fun h => h)
  | (.error _, _), (.ok _, _) => isFalse (fun h => h)

def eventTable : TableSpec := cardTable "FILEAUD" 1 .data

def eventRange : KeyRange := ⟨1, ['K'], ['M'], .done, some 3, .pending⟩

/-- Key K is refused by the target and comes twice; key M is fine. -/
def eventRecords : List Raw := [[75, 250], [75, 250], [77, 1]]

def eventWorld : World :=
  (cardWorld []).onTarget "FILEAUD" fun t => { t with ranges := [eventRange], files := t.files.insert 1 eventRecords }

def batchesOf (load : Nat) (pos : 0 < load) : BatchConfig :=
  .of 1 load 1 1 Nat.one_pos pos Nat.one_pos Nat.one_pos

/-- The serial engine queues the duplicate before its batch is full; a sink that meets K as the second
key flushes the refused row first. -/
theorem sink_order_changes_reject :
    ¬ SameLoad "FILEAUD" ((loadRange .serial (batchesOf 2 (by decide)) eventTable eventRange).eval eventWorld)
      ((loadRange (.spark 1 (.single [['M'], ['K']])) (batchesOf 2 (by decide)) eventTable eventRange).eval
        eventWorld) := by
  decide +kernel

/-- With batches of one row every schedule agrees with the serial engine on the same file. -/
theorem single_row_batches_agree :
    (batchesOf 1 Nat.one_pos).loadBatchRows = 1 ∧ ∀ perSlice, 0 < perSlice → ∀ schedule, SameLoad "FILEAUD"
      ((loadRange .serial (batchesOf 1 Nat.one_pos) eventTable eventRange).eval eventWorld)
      ((loadRange (.spark perSlice schedule) (batchesOf 1 Nat.one_pos) eventTable eventRange).eval eventWorld) := by
  have decodes : Decodable eventTable eventRecords := by
    intro raw member e undecodable
    have all : eventRecords.all fun raw => (eventTable.convert raw).key.isSome := by decide +kernel
    have here := List.all_eq_true.mp all raw member
    rw [undecodable] at here
    cases here
  exact ⟨rfl, (@engines_agree_iff _ eventTable eventRange eventRecords eventWorld (by decide +kernel)
    (by intro rows h; cases h; rfl)).mpr (Or.inr ⟨decodes, Or.inr (Or.inl rfl)⟩)⟩

end OtterWorks.Migration
