import OtterWorks.Lib.Fallible
import OtterWorks.Migration.FirstReject

namespace OtterWorks.Migration

/-- The records of a file after conversion, in file order, from an index on. -/
def routedFrom (ts : TableSpec) (rangeSeq first : Nat) (records : List Raw) : List Routed :=
  (records.zipIdx first).filterMap fun entry => (convertRecordAt ts rangeSeq entry).toOption

def routedRecords (ts : TableSpec) (rangeSeq : Nat) (records : List Raw) : List Routed :=
  routedFrom ts rangeSeq 0 records

def Decodable (ts : TableSpec) (records : List Raw) : Prop :=
  ∀ raw ∈ records, ∀ e, ts.convert raw ≠ .undecodable e

/-- The records as the serial engine takes them: what `seen_keys` holds is a duplicate. -/
def keepUnseen (ts : TableSpec) (rangeSeq : Nat) : List Key → List Routed → List Routed
  | _, [] => []
  | seen, r :: rs =>
    match r.outcome with
    | .inl _ => r :: keepUnseen ts rangeSeq seen rs
    | .inr row =>
      if r.sourceKey ∈ seen then
        ⟨r.sourceKey, r.index, .inl (duplicateReject ts r.sourceKey row.rawBytes rangeSeq)⟩ ::
          keepUnseen ts rangeSeq seen rs
      else r :: keepUnseen ts rangeSeq (r.sourceKey :: seen) rs

section Serial

variable {ts : TableSpec} {rangeSeq : Nat} {batch : BatchConfig}

theorem routedFrom_cons {first : Nat} {raw : Raw} {records : List Raw} {r : Routed}
    (h : convertRecordAt ts rangeSeq (raw, first) = .ok r) :
    routedFrom ts rangeSeq first (raw :: records) = r :: routedFrom ts rangeSeq (first + 1) records := by
  simp [routedFrom, List.zipIdx_cons, h, Except.toOption]

theorem runFlushes_cons (f : Flush) (fs : List Flush) (counts : Nat × Nat) :
    runFlushes ts (f :: fs) counts =
      (sinkFlush ts f >>= fun added => pure (addCounts counts added)) >>= runFlushes ts fs := by
  unfold runFlushes
  rw [List.foldlM_cons]

/-- The serial engine's `flush` is a sink's. -/
theorem eval_flush {l r : Nat} {seen : List Key} {rows : List StagedRow} {rejects : List Reject}
    (some : rows ≠ []) {β : Type} (next : LoadState → Job β) (next' : Nat × Nat → Job β) (w : World)
    (same : ∀ counts u, (next ⟨counts.1, counts.2, seen, [], []⟩).eval u = (next' counts).eval u) :
    (flush ts ⟨l, r + rejects.length, seen, rows, rejects⟩ >>= next).eval w =
      ((sinkFlush ts ⟨rows, rejects⟩ >>= fun added => pure (addCounts (l, r) added)) >>= next').eval w := by
  have full : rows.isEmpty = false := by
    cases rows with
    | nil => exact absurd rfl some
    | cons row rows => rfl
  unfold flush sinkFlush
  simp only [full, Bool.false_eq_true, if_false]
  rw [Prog.eval_bind, Prog.eval_bind, Prog.eval_bind, Prog.eval_bind, Prog.eval_bind]
  cases hi : (insertStaging ts rows).eval w with
  | mk result u =>
    cases result with
    | error e => rfl
    | ok failures =>
      simp only
      rw [Prog.eval_bind_ok (eval_flushRejects ..), Prog.eval_bind_ok (eval_flushRejects ..)]
      simp only [Prog.eval_pure, addCounts]
      rw [← same]
      simp only [Nat.add_assoc]

/-- The last `flush` of the serial engine, which flushes the rejects also where no row is left. -/
theorem eval_lastFlush {l r : Nat} {seen : List Key} {rows : List StagedRow} {rejects : List Reject} (w : World) :
    (do
      let st ← flush ts ⟨l, r + rejects.length, seen, rows, rejects⟩
      flushRejects ts.name st.rejects
      pure (st.loaded, st.rejected) : Job (Nat × Nat)).eval w = (runFlushes ts [⟨rows, rejects⟩] (l, r)).eval w := by
  rw [runFlushes_cons]
  cases rows with
  | nil =>
    have idle : flush ts ⟨l, r + rejects.length, seen, [], rejects⟩ =
        pure ⟨l, r + rejects.length, seen, [], rejects⟩ := rfl
    rw [idle, Prog.eval_bind_ok (Prog.eval_pure ..), Prog.eval_bind_ok (eval_flushRejects ..), Prog.eval_pure]
    have sink : (sinkFlush ts ⟨[], rejects⟩ >>= fun added => pure (addCounts (l, r) added) : Job _).eval w =
        (.ok (l, r + rejects.length), w.onTarget ts.name fun t =>
          { t with rejects := t.rejects.addNew (rejectEntries rejects) }) := by
      unfold sinkFlush
      have none : (insertStaging ts []).eval w = (.ok [], w) := rfl
      have plain : failureRejects ts [] [] = [] := rfl
      rw [Prog.eval_bind, Prog.eval_bind_ok none, plain, List.append_nil,
        Prog.eval_bind_ok (eval_flushRejects ..), Prog.eval_pure]
      simp [addCounts]
    rw [Prog.eval_bind_ok sink]
    rfl
  | cons row rows =>
    apply eval_flush (List.cons_ne_nil row rows)
    intro counts u
    rfl

/-- The loop of the serial engine flushes what a sink flushes before its last flush, and leaves that one to be done. -/
theorem eval_loop {records : List Raw} (decodes : Decodable ts records) (first : Nat) (seen : List Key)
    {rows : List StagedRow} (rejects : List Reject) (room : rows.length < batch.loadBatchRows) :
    ∃ fs last seen', sinkFlushes batch.loadBatchRows ⟨rows, rejects⟩
        (keepUnseen ts rangeSeq seen (routedFrom ts rangeSeq first records)) = fs ++ [last] ∧
      ∀ l r (next : LoadState → Job (Nat × Nat)) w,
        (records.foldlM (loadRecord batch ts rangeSeq) ⟨l, r + rejects.length, seen, rows, rejects⟩ >>= next).eval w =
          (runFlushes ts fs (l, r) >>= fun counts =>
            next ⟨counts.1, counts.2 + last.rejects.length, seen', last.batch, last.rejects⟩).eval w := by
  have pos := batch.loadBatchRows_pos
  induction records generalizing first seen rows rejects with
  | nil => exact ⟨[], ⟨rows, rejects⟩, seen, rfl, fun l r next w => rfl⟩
  | cons raw records ih =>
    have rest : Decodable ts records := fun raw' h => decodes raw' (List.mem_cons_of_mem _ h)
    have here := decodes raw (List.mem_cons_self ..)
    cases hc : ts.convert raw with
    | undecodable e => exact absurd hc (here e)
    | malformed k err =>
      have at_ : convertRecordAt ts rangeSeq (raw, first) =
          .ok ⟨k, first, .inl (malformedReject k err raw rangeSeq)⟩ := by simp [convertRecordAt, hc]
      obtain ⟨fs, last, seen', split, run⟩ :=
        ih rest (first + 1) seen (rejects ++ [malformedReject k err raw rangeSeq]) room
      refine ⟨fs, last, seen', ?_, ?_⟩
      · rw [routedFrom_cons at_, keepUnseen]
        simp only
        rw [sinkFlushes]
        simp only
        rw [if_neg (by omega)]
        exact split
      · intro l r next w
        have step : loadRecord batch ts rangeSeq ⟨l, r + rejects.length, seen, rows, rejects⟩ raw =
            pure ⟨l, r + (rejects ++ [malformedReject k err raw rangeSeq]).length, seen, rows,
              rejects ++ [malformedReject k err raw rangeSeq]⟩ := by
          simp [loadRecord, hc, Nat.add_assoc]
        rw [List.foldlM_cons, step]
        exact run l r next w
    | ok k values source =>
      have at_ : convertRecordAt ts rangeSeq (raw, first) =
          .ok ⟨k, first, .inr ⟨k, rangeSeq, raw, values, none⟩⟩ := by simp [convertRecordAt, hc]
      by_cases known : k ∈ seen
      · obtain ⟨fs, last, seen', split, run⟩ :=
          ih rest (first + 1) seen (rejects ++ [duplicateReject ts k raw rangeSeq]) room
        refine ⟨fs, last, seen', ?_, ?_⟩
        · rw [routedFrom_cons at_, keepUnseen]
          simp only
          rw [if_pos known, sinkFlushes]
          simp only
          rw [if_neg (by omega)]
          exact split
        · intro l r next w
          have step : loadRecord batch ts rangeSeq ⟨l, r + rejects.length, seen, rows, rejects⟩ raw =
              pure ⟨l, r + (rejects ++ [duplicateReject ts k raw rangeSeq]).length, seen, rows,
                rejects ++ [duplicateReject ts k raw rangeSeq]⟩ := by
            simp [loadRecord, hc, known, Nat.add_assoc]
          rw [List.foldlM_cons, step]
          exact run l r next w
      · by_cases full : (rows ++ [(⟨k, rangeSeq, raw, values, none⟩ : StagedRow)]).length ≥ batch.loadBatchRows
        · obtain ⟨fs, last, seen', split, run⟩ := @ih rest (first + 1) (k :: seen) [] [] pos
          refine ⟨⟨rows ++ [⟨k, rangeSeq, raw, values, none⟩], rejects⟩ :: fs, last, seen', ?_, ?_⟩
          · rw [routedFrom_cons at_, keepUnseen]
            simp only
            rw [if_neg known, sinkFlushes]
            simp only
            rw [if_pos full, split, List.cons_append]
          · intro l r next w
            have step : loadRecord batch ts rangeSeq ⟨l, r + rejects.length, seen, rows, rejects⟩ raw =
                flush ts ⟨l, r + rejects.length, k :: seen, rows ++ [⟨k, rangeSeq, raw, values, none⟩], rejects⟩ := by
              simp only [loadRecord, hc, if_neg known, if_pos full]
            rw [List.foldlM_cons, step, runFlushes_cons, Prog.bind_assoc, Prog.bind_assoc]
            apply eval_flush (by simp)
            intro counts u
            exact run counts.1 counts.2 next u
        · obtain ⟨fs, last, seen', split, run⟩ :=
            @ih rest (first + 1) (k :: seen) (rows ++ [⟨k, rangeSeq, raw, values, none⟩]) rejects (by omega)
          refine ⟨fs, last, seen', ?_, ?_⟩
          · rw [routedFrom_cons at_, keepUnseen]
            simp only
            rw [if_neg known, sinkFlushes]
            simp only
            rw [if_neg full]
            exact split
          · intro l r next w
            have step : loadRecord batch ts rangeSeq ⟨l, r + rejects.length, seen, rows, rejects⟩ raw =
                pure ⟨l, r + rejects.length, k :: seen, rows ++ [⟨k, rangeSeq, raw, values, none⟩], rejects⟩ := by
              simp only [loadRecord, hc, if_neg known, if_neg full]
            rw [List.foldlM_cons, step]
            exact run l r next w

theorem runFlushes_append (fs gs : List Flush) (counts : Nat × Nat) :
    runFlushes ts (fs ++ gs) counts = runFlushes ts fs counts >>= runFlushes ts gs := by
  unfold runFlushes
  rw [List.foldlM_append]

theorem eval_serial {records : List Raw} (decodes : Decodable ts records) (w : World) :
    (loadRecords batch ts rangeSeq records).eval w =
      (runFlushes ts (sinkFlushes batch.loadBatchRows ⟨[], []⟩
        (keepUnseen ts rangeSeq [] (routedRecords ts rangeSeq records))) (0, 0)).eval w := by
  obtain ⟨fs, last, seen, split, run⟩ := @eval_loop _ rangeSeq batch _ decodes 0 [] [] [] batch.loadBatchRows_pos
  refine (run 0 0 _ w).trans ?_
  change _ = (runFlushes ts (sinkFlushes batch.loadBatchRows ⟨[], []⟩
    (keepUnseen ts rangeSeq [] (routedFrom ts rangeSeq 0 records))) (0, 0)).eval w
  rw [split, runFlushes_append]
  exact Prog.eval_bind_congr fun counts u => eval_lastFlush u

/-- A record whose key does not decode ends the loop after the flushes before it. -/
theorem eval_serial_undecodable {front rest : List Raw} {raw : Raw} {e : String} (decodes : Decodable ts front)
    (undecodable : ts.convert raw = .undecodable e) (w : World) :
    (loadRecords batch ts rangeSeq (front ++ raw :: rest)).eval w =
      (runFlushes ts (sinkFlushes batch.loadBatchRows ⟨[], []⟩
        (keepUnseen ts rangeSeq [] (routedRecords ts rangeSeq front))).dropLast (0, 0) >>=
          fun _ => throw (.unexpected e)).eval w := by
  obtain ⟨fs, last, seen, split, run⟩ := @eval_loop _ rangeSeq batch _ decodes 0 [] [] [] batch.loadBatchRows_pos
  have flushed : (sinkFlushes batch.loadBatchRows ⟨[], []⟩
      (keepUnseen ts rangeSeq [] (routedRecords ts rangeSeq front))).dropLast = fs := by
    change (sinkFlushes batch.loadBatchRows ⟨[], []⟩
      (keepUnseen ts rangeSeq [] (routedFrom ts rangeSeq 0 front))).dropLast = fs
    rw [split, List.dropLast_concat]
  unfold loadRecords
  rw [List.foldlM_append, Prog.bind_assoc, flushed]
  refine (run 0 0 _ w).trans ?_
  refine Prog.eval_bind_congr fun counts u => ?_
  rw [List.foldlM_cons]
  have ends : ∀ st, loadRecord batch ts rangeSeq st raw = throw (.unexpected e) := fun st => by
    simp only [loadRecord, undecodable]
  rw [ends]
  rfl

end Serial

/-! The shuffle. -/

section Shuffle

variable {ts : TableSpec} {rangeSeq : Nat}

theorem routed_cases {entry : Raw × Nat} {r : Routed} (h : convertRecordAt ts rangeSeq entry = .ok r) :
    r.index = entry.2 ∧ r.Keyed := by
  unfold convertRecordAt at h
  split at h
  next => cases h
  next =>
    cases h
    exact ⟨rfl, rfl⟩
  next =>
    cases h
    exact ⟨rfl, rfl⟩

theorem mem_routedFrom {first : Nat} {records : List Raw} {r : Routed}
    (h : r ∈ routedFrom ts rangeSeq first records) : first ≤ r.index ∧ r.Keyed := by
  obtain ⟨entry, he, hr⟩ := List.mem_filterMap.mp h
  cases hc : convertRecordAt ts rangeSeq entry with
  | error e => simp [hc, Except.toOption] at hr
  | ok r' =>
    simp only [hc, Except.toOption, Option.some.injEq] at hr
    subst hr
    obtain ⟨index, keyed⟩ := routed_cases hc
    rw [index]
    exact ⟨(List.mem_zipIdx he).1, keyed⟩

theorem routedFrom_sorted (first : Nat) (records : List Raw) :
    (routedFrom ts rangeSeq first records).Pairwise fun a b => a.index < b.index := by
  induction records generalizing first with
  | nil => exact .nil
  | cons raw records ih =>
    cases hc : convertRecordAt ts rangeSeq (raw, first) with
    | error e =>
      have skip : routedFrom ts rangeSeq first (raw :: records) = routedFrom ts rangeSeq (first + 1) records := by
        simp [routedFrom, List.zipIdx_cons, hc, Except.toOption]
      rw [skip]
      exact ih _
    | ok r =>
      rw [routedFrom_cons hc]
      refine .cons (fun other ho => ?_) (ih _)
      have index := (routed_cases hc).1
      have later := (mem_routedFrom ho).1
      simp only at index
      omega

theorem keepUnseen_filter (seen : List Key) (l : List Routed) (k : Key) :
    (keepUnseen ts rangeSeq seen l).filter (fun r => r.sourceKey = k) =
      keepFirst ts rangeSeq (decide (k ∈ seen)) (l.filter fun r => r.sourceKey = k) := by
  induction l generalizing seen with
  | nil => rfl
  | cons r l ih =>
    unfold keepUnseen
    cases ho : r.outcome with
    | inl reject =>
      by_cases hk : r.sourceKey = k
      · simp [hk, ih, keepFirst, ho]
      · simp [hk, ih]
    | inr row =>
      by_cases hk : r.sourceKey = k
      · subst hk
        by_cases known : r.sourceKey ∈ seen
        · simp [known, ih, keepFirst, ho]
        · simp [known, ih, keepFirst, ho]
      · have other : k ≠ r.sourceKey := fun same => hk same.symm
        by_cases known : r.sourceKey ∈ seen
        · simp [known, hk, ih]
        · simp [known, hk, other, ih]

/-- However a key's records arrive, sorting brings them back into file order. -/
theorem routeKey_arrival (schedule : Schedule) {l : List Routed}
    (sorted : l.Pairwise fun a b => a.index < b.index) :
    routeKey ts rangeSeq (schedule.arrival l) = keepFirst ts rangeSeq false l := by
  unfold routeKey
  congr 1
  have perm := (List.perm_insertionSort (fun a b : Routed => a.index ≤ b.index) (schedule.arrival l)).trans
    (schedule.arrival_perm l)
  refine @List.Perm.eq_of_pairwise _ (fun a b : Routed => a.index ≤ b.index) _ _ ?_ ?_ ?_ perm
  · intro a b ha hb hab hba
    have ha : a ∈ l := perm.subset ha
    have distinct : (l.map Routed.index).Nodup :=
      (List.pairwise_map.mpr sorted).imp fun h => Nat.ne_of_lt h
    exact List.inj_on_of_nodup_map distinct ha hb (Nat.le_antisymm hab hba)
  · have total : Std.Total fun a b : Routed => a.index ≤ b.index := ⟨fun a b => Nat.le_total ..⟩
    have trans : IsTrans Routed fun a b => a.index ≤ b.index := ⟨fun a b c => Nat.le_trans⟩
    exact List.pairwise_insertionSort _ _
  · exact sorted.imp fun h => Nat.le_of_lt h

theorem sinkInputs_eq (schedule : Schedule) (first : Nat) (records : List Raw) :
    sinkInputs ts rangeSeq schedule (routedFrom ts rangeSeq first records) =
      (schedule.partitions ((routedFrom ts rangeSeq first records).map Routed.sourceKey).dedup).map fun keys =>
        keys.flatMap fun k =>
          (keepUnseen ts rangeSeq [] (routedFrom ts rangeSeq first records)).filter fun r => r.sourceKey = k := by
  unfold sinkInputs groupBy
  rw [List.map_map]
  apply List.map_congr_left
  intro keys _
  rw [Function.comp_apply, List.flatMap_map]
  apply List.flatMap_congr
  intro k _
  rw [routeKey_arrival schedule ((routedFrom_sorted first records).sublist List.filter_sublist), keepUnseen_filter]
  rfl

theorem flatMap_filter_perm {α κ : Type} [DecidableEq κ] {key : α → κ} {ks : List κ} (distinct : ks.Nodup)
    {l : List α} (cover : ∀ x ∈ l, key x ∈ ks) :
    (ks.flatMap fun k => l.filter fun x => key x = k).Perm l := by
  induction ks generalizing l with
  | nil =>
    have empty : l = [] := List.eq_nil_iff_forall_not_mem.mpr fun x hx => by simpa using cover x hx
    subst empty
    exact .refl _
  | cons k ks ih =>
    obtain ⟨fresh, distinct⟩ := List.nodup_cons.mp distinct
    have rest := ih (l := l.filter fun x => !decide (key x = k)) distinct (by
      intro x hx
      obtain ⟨hx, other⟩ := List.mem_filter.mp hx
      have := cover x hx
      simp only [List.mem_cons] at this
      rcases this with same | there
      · simp [same] at other
      · exact there)
    have groups : (ks.flatMap fun k' => (l.filter fun x => !decide (key x = k)).filter fun x => key x = k') =
        ks.flatMap fun k' => l.filter fun x => key x = k' := by
      apply List.flatMap_congr
      intro k' hk'
      rw [List.filter_filter]
      apply List.filter_congr
      intro x _
      by_cases same : key x = k'
      · have other : key x ≠ k := by
          intro here
          exact fresh (here ▸ same ▸ hk')
        rw [decide_eq_true same, decide_eq_false other]
        rfl
      · simp [same]
    rw [groups] at rest
    rw [List.flatMap_cons]
    exact (rest.append_left _).trans (List.filter_append_perm _ l)

theorem keepUnseen_keys {seen : List Key} {l : List Routed} :
    ∀ r ∈ keepUnseen ts rangeSeq seen l, r.sourceKey ∈ l.map Routed.sourceKey := by
  intro r hr
  have here : r ∈ (keepUnseen ts rangeSeq seen l).filter fun x => x.sourceKey = r.sourceKey :=
    List.mem_filter.mpr ⟨hr, by simp⟩
  rw [keepUnseen_filter] at here
  cases hf : l.filter fun x => x.sourceKey = r.sourceKey with
  | nil =>
    rw [hf] at here
    cases here
  | cons x rest =>
    have hx : x ∈ l.filter fun x => x.sourceKey = r.sourceKey := by
      rw [hf]
      exact List.mem_cons_self ..
    obtain ⟨hx, same⟩ := List.mem_filter.mp hx
    exact List.mem_map.mpr ⟨x, hx, by simpa using same⟩

theorem sinkInputs_perm (schedule : Schedule) (first : Nat) (records : List Raw) :
    (sinkInputs ts rangeSeq schedule (routedFrom ts rangeSeq first records)).flatten.Perm
      (keepUnseen ts rangeSeq [] (routedFrom ts rangeSeq first records)) := by
  have joined : ∀ (parts : List (List Key)) (group : Key → List Routed),
      (parts.map fun keys => keys.flatMap group).flatten = parts.flatten.flatMap group := by
    intro parts group
    induction parts with
    | nil => rfl
    | cons keys parts ih => simp [ih]
  rw [sinkInputs_eq, joined]
  refine ((schedule.partitions_perm _).flatMap_right _).trans ?_
  apply flatMap_filter_perm (List.nodup_dedup _)
  intro r hr
  exact List.mem_dedup.mpr (keepUnseen_keys r hr)

/-- The rows that are staged or refused: one for each key. -/
theorem keepUnseen_rows {seen : List Key} {l : List Routed} (keyed : ∀ r ∈ l, r.Keyed) :
    ((rowsOf (keepUnseen ts rangeSeq seen l)).map StagedRow.sourceKey).Nodup ∧
      ∀ k ∈ (rowsOf (keepUnseen ts rangeSeq seen l)).map StagedRow.sourceKey, k ∉ seen := by
  induction l generalizing seen with
  | nil => simp [keepUnseen, rowsOf]
  | cons r l ih =>
    have rest : ∀ r ∈ l, r.Keyed := fun x hx => keyed x (List.mem_cons_of_mem _ hx)
    have here := keyed r (List.mem_cons_self ..)
    unfold keepUnseen
    cases ho : r.outcome with
    | inl reject =>
      simp only
      rw [rowsOf_cons_reject ho]
      exact ih rest
    | inr row =>
      simp only [Routed.Keyed, ho] at here
      by_cases known : r.sourceKey ∈ seen
      · simp only [if_pos known]
        rw [rowsOf_cons_reject rfl]
        exact ih rest
      · obtain ⟨distinct, fresh⟩ := @ih (r.sourceKey :: seen) rest
        simp only [if_neg known]
        rw [rowsOf_cons_row ho, List.map_cons, here]
        refine ⟨List.nodup_cons.mpr ⟨fun held => fresh _ held (List.mem_cons_self ..), distinct⟩, ?_⟩
        intro k hk
        rcases List.mem_cons.mp hk with rfl | hk
        · exact known
        · exact fun held => fresh k hk (List.mem_cons_of_mem _ held)

end Shuffle

end OtterWorks.Migration
