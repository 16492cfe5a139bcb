import OtterWorks.Migration.EngineRuns
import Mathlib.Data.List.TakeWhile

namespace OtterWorks.Migration

/-- The reject of a record whose key an earlier record of the file has claimed. -/
def laterReject (ts : TableSpec) (rangeSeq : Nat) (y : Routed) : Reject :=
  match y.outcome with
  | .inl r => r
  | .inr row => duplicateReject ts y.sourceKey row.rawBytes rangeSeq

/-- What `mig.rejects` gets for a key from its records in file order, when at most one of them can
write first. -/
def keyVerdict (ts : TableSpec) (rangeSeq : Nat) (staging : KeyMap Key StagedRow) :
    List Routed → Option Reject
  | [] => none
  | x :: rest =>
    match x.outcome with
    | .inl r => some r
    | .inr row =>
      match stagingError ts staging row with
      | none => rest.head?.map (laterReject ts rangeSeq)
      | some e => some (failureReject ts e row)

section

variable {ts : TableSpec} {rangeSeq : Nat} {staging : KeyMap Key StagedRow} {k : Key} {n : Nat}

theorem keepFirst_true_cons (y : Routed) (rest : List Routed) :
    ∃ y', keepFirst ts rangeSeq true (y :: rest) = y' :: keepFirst ts rangeSeq true rest ∧
      y'.sourceKey = y.sourceKey ∧ y'.outcome = .inl (laterReject ts rangeSeq y) := by
  cases hy : y.outcome with
  | inl r => exact ⟨y, by simp [keepFirst, hy], rfl, by simp [laterReject, hy]⟩
  | inr row =>
    exact ⟨⟨y.sourceKey, y.index, .inl (duplicateReject ts y.sourceKey row.rawBytes rangeSeq)⟩,
      by simp [keepFirst, hy], rfl, by simp [laterReject, hy]⟩

theorem keepFirst_row {x : Routed} {row : StagedRow} (hx : x.outcome = .inr row) (rest : List Routed) :
    keepFirst ts rangeSeq false (x :: rest) = x :: keepFirst ts rangeSeq true rest := by
  simp [keepFirst, hx]

theorem keepFirst_reject {x : Routed} {r : Reject} (hx : x.outcome = .inl r) (kept : Bool) (rest : List Routed) :
    keepFirst ts rangeSeq kept (x :: rest) = x :: keepFirst ts rangeSeq kept rest := by
  simp [keepFirst, hx]

theorem silent_of_other {l : List Routed} (keyed : ∀ x ∈ l, x.Keyed) (other : ∀ x ∈ l, x.sourceKey ≠ k) :
    ∀ x ∈ l, Silent ts staging k x := by
  intro x hx
  have hk := keyed x hx
  have ho := other x hx
  cases hr : x.outcome with
  | inl r =>
    simp only [Routed.Keyed, hr] at hk
    simp only [Silent, hr]
    rwa [hk]
  | inr row =>
    simp only [Routed.Keyed, hr] at hk
    simp only [Silent, hr]
    intro same
    exact absurd (hk.symm.trans same) ho

theorem filter_split {l : List Routed} {x : Routed} {rest : List Routed}
    (h : (l.filter fun r => r.sourceKey = k) = x :: rest) :
    ∃ before after, l = before ++ x :: after ∧ (∀ r ∈ before, r.sourceKey ≠ k) ∧ x.sourceKey = k ∧
      (after.filter fun r => r.sourceKey = k) = rest := by
  obtain ⟨before, after, split, none, here, tail⟩ := List.filter_eq_cons_iff.mp h
  exact ⟨before, after, split, fun r hr => by simpa using none r hr, by simpa using here, tail⟩

theorem filter_none {l : List Routed} (h : (l.filter fun r => r.sourceKey = k) = []) :
    ∀ r ∈ l, r.sourceKey ≠ k := by
  intro r hr
  simpa using List.filter_eq_nil_iff.mp h r hr

/-- A sink's records of one key, none of which is contested, decide what it writes first for the key. -/
theorem firstLog_verdict (pos : 0 < n) {l : List Routed} (keyed : ∀ x ∈ l, x.Keyed)
    (distinct : ((rowsOf l).map StagedRow.sourceKey).Nodup) {records : List Routed}
    (hl : (l.filter fun r => r.sourceKey = k) = keepFirst ts rangeSeq false records)
    (calm : ∀ x y rest row e, records = x :: y :: rest → x.outcome = .inr row →
      stagingError ts staging row = some e → False) :
    firstLog ts staging k (sinkFlushes n ⟨[], []⟩ l) = keyVerdict ts rangeSeq staging records := by
  cases records with
  | nil =>
    have none := filter_none hl
    rw [firstLog_silent pos (silent_of_other keyed none)]
    rfl
  | cons x rest =>
    cases hx : x.outcome with
    | inl r =>
      rw [keepFirst_reject hx] at hl
      obtain ⟨before, after, split, none, here, _⟩ := filter_split hl
      subst split
      have hkeyed := keyed x (by simp)
      simp only [Routed.Keyed, hx] at hkeyed
      rw [firstLog_reject pos (silent_of_other (fun z hz => keyed z (by simp [hz])) none) hx (hkeyed.trans here)]
      simp [keyVerdict, hx]
    | inr row =>
      rw [keepFirst_row hx] at hl
      obtain ⟨before, after, split, none, here, tail⟩ := filter_split hl
      subst split
      have hkeyed := keyed x (by simp)
      simp only [Routed.Keyed, hx] at hkeyed
      have quiet : ∀ z ∈ before, Silent ts staging k z :=
        silent_of_other (fun z hz => keyed z (by simp [hz])) none
      cases he : stagingError ts staging row with
      | none =>
        have silent : Silent ts staging k x := by simp [Silent, hx, he]
        cases rest with
        | nil =>
          have last := filter_none (l := after) tail
          rw [firstLog_silent pos]
          · simp [keyVerdict, hx, he]
          · intro z hz
            rcases List.mem_append.mp hz with hz | hz
            · exact quiet z hz
            · rcases List.mem_cons.mp hz with rfl | hz
              · exact silent
              · exact silent_of_other (fun z hz => keyed z (by simp [hz])) last z hz
        | cons y rest =>
          obtain ⟨y', hy, ykey, youtcome⟩ := @keepFirst_true_cons ts rangeSeq y rest
          rw [hy] at tail
          obtain ⟨between, later, split, none', here', _⟩ := filter_split tail
          subst split
          have ykeyed := keyed y' (by simp)
          simp only [Routed.Keyed, youtcome] at ykeyed
          have shape : before ++ x :: (between ++ y' :: later) = (before ++ x :: between) ++ y' :: later := by simp
          rw [shape, firstLog_reject pos ?_ youtcome (ykeyed.trans here')]
          · simp [keyVerdict, hx, he]
          · intro z hz
            rcases List.mem_append.mp hz with hz | hz
            · exact quiet z hz
            · rcases List.mem_cons.mp hz with rfl | hz
              · exact silent
              · exact silent_of_other (fun z hz => keyed z (by simp [hz])) none' z hz
      | some e =>
        cases rest with
        | nil =>
          have last := filter_none (l := after) tail
          rw [firstLog_alone pos hx (hkeyed.trans here) distinct quiet
            (silent_of_other (fun z hz => keyed z (by simp [hz])) last) he]
          simp [keyVerdict, hx, he]
        | cons y rest => exact (calm x y rest row e rfl hx he).elim

/-- A refused row with a later record of its key: which of the two rejects a sink writes first. -/
theorem firstLog_race (pos : 0 < n) {l : List Routed} (keyed : ∀ x ∈ l, x.Keyed)
    (distinct : ((rowsOf l).map StagedRow.sourceKey).Nodup) {x y : Routed} {rest : List Routed}
    (hl : (l.filter fun r => r.sourceKey = k) = keepFirst ts rangeSeq false (x :: y :: rest)) {row : StagedRow}
    (hx : x.outcome = .inr row) {e : InsertFailure} (he : stagingError ts staging row = some e) :
    ∃ before between y' later, l = before ++ x :: between ++ y' :: later ∧
      (∀ r ∈ before, r.sourceKey ≠ k) ∧ (∀ r ∈ between, r.sourceKey ≠ k) ∧
      y'.outcome = .inl (laterReject ts rangeSeq y) ∧
      firstLog ts staging k (sinkFlushes n ⟨[], []⟩ l) =
        if n ≤ (rowsOf before).length % n + 1 + (rowsOf between).length then some (failureReject ts e row)
        else some (laterReject ts rangeSeq y) := by
  obtain ⟨y', hy, ykey, youtcome⟩ := @keepFirst_true_cons ts rangeSeq y rest
  rw [keepFirst_row hx, hy] at hl
  obtain ⟨before, after, split, none, here, tail⟩ := filter_split hl
  obtain ⟨between, later, split', none', here', _⟩ := filter_split tail
  have shape : l = before ++ x :: between ++ y' :: later := by simp [split, split']
  have xkeyed := keyed x (by simp [shape])
  have ykeyed := keyed y' (by simp [shape])
  simp only [Routed.Keyed, hx] at xkeyed
  simp only [Routed.Keyed, youtcome] at ykeyed
  refine ⟨before, between, y', later, shape, none, none', youtcome, ?_⟩
  have part : ((rowsOf (before ++ x :: between)).map StagedRow.sourceKey).Nodup := by
    rw [shape, rowsOf_append, List.map_append, List.nodup_append] at distinct
    exact distinct.1
  rw [shape]
  exact firstLog_contested pos hx (xkeyed.trans here) youtcome (ykeyed.trans here') part
    (silent_of_other (fun z hz => keyed z (by simp [shape, hz])) none)
    (silent_of_other (fun z hz => keyed z (by simp [shape, hz])) none') he

theorem firstLog_eq_head? (fs : List Flush) :
    firstLog ts staging k fs =
      (fs.flatMap fun f => (flushLog ts staging f).filter fun r => r.sourceKey = k).head? := by
  unfold firstLog
  rw [← List.head?_filter, List.filter_flatMap]

theorem flush_silent {l : List Routed} (keyed : ∀ x ∈ l, x.Keyed) (other : ∀ x ∈ l, x.sourceKey ≠ k)
    (pos : 0 < n) {f : Flush} (hf : f ∈ sinkFlushes n ⟨[], []⟩ l) :
    ((flushLog ts staging f).filter fun r => r.sourceKey = k) = [] := by
  obtain ⟨batches, rejects⟩ := sinkFlushes_contents pos l
  have silent := @silent_of_other ts staging _ _ keyed other
  apply List.filter_eq_nil_iff.mpr
  intro r hr same
  have same : r.sourceKey = k := by simpa using same
  have single : [f].flatMap (flushLog ts staging) = flushLog ts staging f := by simp
  rw [← single] at hr
  rcases mem_log hr with hr | ⟨row, hrow, e, he, rfl⟩
  · have held : r ∈ (sinkFlushes n ⟨[], []⟩ l).flatMap Flush.rejects :=
      List.mem_flatMap.mpr ⟨f, hf, by simpa using hr⟩
    rw [rejects] at held
    exact silent_rejects silent r held same
  · have held : row ∈ (sinkFlushes n ⟨[], []⟩ l).flatMap Flush.batch :=
      List.mem_flatMap.mpr ⟨f, hf, by simpa using hrow⟩
    rw [batches] at held
    rw [failureReject_sourceKey he] at same
    rw [silent_rows silent row held same] at he
    cases he

/-- Sinks that hold nothing of a key do not matter for it, however they interleave. -/
theorem firstLog_interleave (pos : 0 < n) {inputs : List (List Routed)} {i : Nat} (picks : List Nat)
    (keyed : ∀ l ∈ inputs, ∀ x ∈ l, x.Keyed)
    (only : ∀ j l, inputs[j]? = some l → j ≠ i → ∀ x ∈ l, x.sourceKey ≠ k) :
    firstLog ts staging k (interleave picks (inputs.map (sinkFlushes n ⟨[], []⟩))) =
      firstLog ts staging k (((inputs.map (sinkFlushes n ⟨[], []⟩))[i]?).getD []) := by
  rw [firstLog_eq_head?, firstLog_eq_head?, interleave_flatMap (i := i)]
  intro j fs hj hne f hf
  rw [List.getElem?_map] at hj
  obtain ⟨l, hl, rfl⟩ := Option.map_eq_some_iff.mp hj
  exact flush_silent (keyed l (List.mem_of_getElem? hl)) (only j l hl hne) pos hf

theorem keepUnseen_keyed {seen : List Key} {l : List Routed} (keyed : ∀ x ∈ l, x.Keyed) :
    ∀ x ∈ keepUnseen ts rangeSeq seen l, x.Keyed := by
  induction l generalizing seen with
  | nil => simp [keepUnseen]
  | cons r l ih =>
    have rest : ∀ x ∈ l, x.Keyed := fun x hx => keyed x (List.mem_cons_of_mem _ hx)
    have here := keyed r (List.mem_cons_self ..)
    unfold keepUnseen
    intro x hx
    split at hx
    next =>
      rcases List.mem_cons.mp hx with rfl | hx
      · exact here
      · exact ih rest x hx
    next =>
      split at hx
      next =>
        rcases List.mem_cons.mp hx with rfl | hx
        · rfl
        · exact ih rest x hx
      next =>
        rcases List.mem_cons.mp hx with rfl | hx
        · exact here
        · exact ih rest x hx

/-- A list of keys split into parts has each key in one of them. -/
theorem partition_index {parts : List (List Key)} (distinct : parts.flatten.Nodup) (k : Key) :
    ∃ i : Nat, ∀ (j : Nat) keys, parts[j]? = some keys → j ≠ i → k ∉ keys := by
  by_cases held : ∃ (i : Nat) (keys : List Key), parts[i]? = some keys ∧ k ∈ keys
  · obtain ⟨i, keys, hi, hk⟩ := held
    refine ⟨i, ?_⟩
    intro j other hj hne hk'
    obtain ⟨_, apart⟩ := List.nodup_flatten.mp distinct
    obtain ⟨hil, hie⟩ := List.getElem?_eq_some_iff.mp hi
    obtain ⟨hjl, hje⟩ := List.getElem?_eq_some_iff.mp hj
    rcases Nat.lt_or_gt_of_ne hne with h | h
    · have := List.pairwise_iff_getElem.mp apart j i hjl hil h
      rw [hie, hje] at this
      exact this hk' hk
    · have := List.pairwise_iff_getElem.mp apart i j hil hjl h
      rw [hie, hje] at this
      exact this hk hk'
  · refine ⟨0, ?_⟩
    intro j keys hj _ hk
    exact held ⟨j, keys, hj, hk⟩

theorem flatMap_filter_key {α κ : Type} [DecidableEq κ] {key : α → κ} {ks : List κ} (distinct : ks.Nodup)
    (l : List α) (k : κ) :
    ((ks.flatMap fun k' => l.filter fun x => key x = k').filter fun x => key x = k) =
      if k ∈ ks then l.filter (fun x => key x = k) else [] := by
  induction ks with
  | nil => rfl
  | cons first ks ih =>
    obtain ⟨fresh, distinct⟩ := List.nodup_cons.mp distinct
    rw [List.flatMap_cons, List.filter_append, ih distinct, List.filter_filter]
    by_cases same : first = k
    · subst same
      rw [if_neg fresh, if_pos (List.mem_cons_self ..), List.append_nil]
      simp
    · have none : (l.filter fun x => decide (key x = k) && decide (key x = first)) = [] := by
        apply List.filter_eq_nil_iff.mpr
        intro x _ both
        simp only [Bool.and_eq_true, decide_eq_true_eq] at both
        exact same (both.2.symm.trans both.1)
      rw [none, List.nil_append]
      have other : k ∈ first :: ks ↔ k ∈ ks := by simp [Ne.symm same]
      simp only [other]

end

section

variable (batch : BatchConfig) (ts : TableSpec) (rangeSeq : Nat) (records : List Raw)

/-- The file's records with repeated keys turned into duplicates. -/
def keptRecords : List Routed := keepUnseen ts rangeSeq [] (routedRecords ts rangeSeq records)

def serialFlushes : List Flush :=
  sinkFlushes batch.loadBatchRows ⟨[], []⟩ (keptRecords ts rangeSeq records)

/-- The records before the first whose key does not decode. -/
def decodedFront : List Raw := records.takeWhile fun raw => (ts.convert raw).key.isSome

/-- What the serial engine flushes of these records when their batches are full. -/
def fullFlushes : List Flush := (serialFlushes batch ts rangeSeq (decodedFront ts records)).dropLast

def sparkFlushes (schedule : Schedule) : List Flush :=
  interleave schedule.picks ((sinkInputs ts rangeSeq schedule (routedRecords ts rangeSeq records)).map
    (sinkFlushes batch.loadBatchRows ⟨[], []⟩))

variable {batch ts rangeSeq records}

theorem routedRecords_keyed : ∀ x ∈ routedRecords ts rangeSeq records, x.Keyed :=
  fun _ hx => (mem_routedFrom hx).2

theorem keptRecords_keyed : ∀ x ∈ keptRecords ts rangeSeq records, x.Keyed :=
  keepUnseen_keyed routedRecords_keyed

theorem keptRecords_distinct : ((rowsOf (keptRecords ts rangeSeq records)).map StagedRow.sourceKey).Nodup :=
  (keepUnseen_rows routedRecords_keyed).1

theorem keptRecords_filter (k : Key) :
    ((keptRecords ts rangeSeq records).filter fun r => r.sourceKey = k) =
      keepFirst ts rangeSeq false ((routedRecords ts rangeSeq records).filter fun r => r.sourceKey = k) :=
  keepUnseen_filter [] _ k

theorem rowsOf_sublist {l m : List Routed} (h : l.Sublist m) : (rowsOf l).Sublist (rowsOf m) := h.filterMap _

theorem rowsOf_perm {l m : List Routed} (h : l.Perm m) : (rowsOf l).Perm (rowsOf m) := h.filterMap _

theorem rejectsOf_perm {l m : List Routed} (h : l.Perm m) : (rejectsOf l).Perm (rejectsOf m) := h.filterMap _

/-- For one key, what Spark does is what one sink does with the key's records and those of other keys. -/
theorem sparkFlushes_sink (schedule : Schedule) (k : Key) :
    ∃ l : List Routed, (∀ x ∈ l, x.Keyed) ∧ ((rowsOf l).map StagedRow.sourceKey).Nodup ∧
      (rowsOf l).length ≤ (rowsOf (keptRecords ts rangeSeq records)).length ∧
      (l.filter fun r => r.sourceKey = k) = (keptRecords ts rangeSeq records).filter (fun r => r.sourceKey = k) ∧
      ∀ staging, firstLog ts staging k (sparkFlushes batch ts rangeSeq records schedule) =
        firstLog ts staging k (sinkFlushes batch.loadBatchRows ⟨[], []⟩ l) := by
  let ks := ((routedRecords ts rangeSeq records).map Routed.sourceKey).dedup
  let parts := schedule.partitions ks
  let group (k' : Key) := (keptRecords ts rangeSeq records).filter fun r => r.sourceKey = k'
  have shape : sinkInputs ts rangeSeq schedule (routedRecords ts rangeSeq records) =
      parts.map fun keys => keys.flatMap group := sinkInputs_eq schedule 0 records
  have perm : (sinkInputs ts rangeSeq schedule (routedRecords ts rangeSeq records)).flatten.Perm
      (keptRecords ts rangeSeq records) := sinkInputs_perm schedule 0 records
  have distinctParts : parts.flatten.Nodup := (schedule.partitions_perm ks).nodup_iff.mpr (List.nodup_dedup _)
  have keyedAll : ∀ l ∈ sinkInputs ts rangeSeq schedule (routedRecords ts rangeSeq records), ∀ x ∈ l, x.Keyed := by
    intro l hl x hx
    exact keptRecords_keyed x (perm.subset (List.mem_flatten.mpr ⟨l, hl, hx⟩))
  obtain ⟨i, only⟩ := partition_index distinctParts k
  have quiet : ∀ j l, (sinkInputs ts rangeSeq schedule (routedRecords ts rangeSeq records))[j]? = some l →
      j ≠ i → ∀ x ∈ l, x.sourceKey ≠ k := by
    intro j l hj hne x hx same
    rw [shape, List.getElem?_map] at hj
    obtain ⟨keys, hkeys, rfl⟩ := Option.map_eq_some_iff.mp hj
    obtain ⟨k', hk', hx⟩ := List.mem_flatMap.mp hx
    have : x.sourceKey = k' := by simpa using (List.mem_filter.mp hx).2
    exact only j keys hkeys hne (by rw [← same, this]; exact hk')
  have log := fun staging => @firstLog_interleave ts staging _ _ batch.loadBatchRows_pos _ _
    schedule.picks keyedAll quiet
  rw [List.getElem?_map] at log
  cases hi : (sinkInputs ts rangeSeq schedule (routedRecords ts rangeSeq records))[i]? with
  | none =>
    have absent : group k = [] := by
      apply List.filter_eq_nil_iff.mpr
      intro x hx same
      obtain ⟨l, hl, hxl⟩ := List.mem_flatten.mp (perm.symm.subset hx)
      obtain ⟨j, hj⟩ := List.getElem?_of_mem hl
      have : j ≠ i := by
        rintro rfl
        rw [hi] at hj
        cases hj
      exact quiet j l hj this x hxl (by simpa using same)
    refine ⟨[], by simp, by simp [rowsOf], by simp [rowsOf], absent.symm, ?_⟩
    intro staging
    have := log staging
    rw [hi] at this
    exact this
  | some l =>
    have member := List.mem_of_getElem? hi
    have part : l.Sublist (sinkInputs ts rangeSeq schedule (routedRecords ts rangeSeq records)).flatten :=
      List.sublist_flatten_of_mem member
    have rows := (rowsOf_sublist part).map StagedRow.sourceKey
    have rowsPerm := rowsOf_perm perm
    refine ⟨l, keyedAll l member, ?_, ?_, ?_, ?_⟩
    · exact (((rowsPerm.map StagedRow.sourceKey).nodup_iff).mpr keptRecords_distinct).sublist rows
    · rw [← rowsPerm.length_eq]
      exact (rowsOf_sublist part).length_le
    · rw [shape, List.getElem?_map] at hi
      obtain ⟨keys, hkeys, rfl⟩ := Option.map_eq_some_iff.mp hi
      have once : keys.Nodup := (List.nodup_flatten.mp distinctParts).1 keys (List.mem_of_getElem? hkeys)
      have here := @flatMap_filter_key _ _ _ Routed.sourceKey _ once (keptRecords ts rangeSeq records) k
      rw [here]
      split
      next => rfl
      next absent =>
        symm
        apply List.filter_eq_nil_iff.mpr
        intro x hx same
        have same : x.sourceKey = k := by simpa using same
        have listed : k ∈ parts.flatten := by
          apply (schedule.partitions_perm ks).symm.subset
          rw [← same]
          exact List.mem_dedup.mpr (keepUnseen_keys x hx)
        obtain ⟨other, ho, hk⟩ := List.mem_flatten.mp listed
        obtain ⟨j, hj⟩ := List.getElem?_of_mem ho
        have : j ≠ i := by
          rintro rfl
          rw [hkeys] at hj
          cases hj
          exact absent hk
        exact only j other hj this hk
    · intro staging
      have := log staging
      rw [hi] at this
      exact this

end

section Runs

variable {batch : BatchConfig} {ts : TableSpec} {rangeSeq : Nat} {records : List Raw}

theorem convert_entries {entries : List (Raw × Nat)} (decodes : Decodable ts (entries.map Prod.fst)) :
    entries.mapM (convertRecordAt ts rangeSeq) =
      .ok (entries.filterMap fun entry => (convertRecordAt ts rangeSeq entry).toOption) := by
  induction entries with
  | nil => rfl
  | cons entry entries ih =>
    have rest : Decodable ts (entries.map Prod.fst) := fun raw h => decodes raw (List.mem_cons_of_mem _ h)
    have here := decodes entry.1 (List.mem_cons_self ..)
    cases hc : convertRecordAt ts rangeSeq entry with
    | error e =>
      exfalso
      unfold convertRecordAt at hc
      split at hc
      next err hu => exact here err hu
      next => cases hc
      next => cases hc
    | ok r =>
      simp [List.mapM_cons, hc, ih rest, Except.toOption, bind, Except.bind, pure, Except.pure]

theorem readSlice_records {sl : Nat × Nat} : ∀ raw ∈ (readSlice records sl).map Prod.fst, raw ∈ records := by
  intro raw hr
  unfold readSlice at hr
  rw [List.zipIdx_map_fst] at hr
  exact List.mem_of_mem_drop (List.mem_of_mem_take hr)

theorem convert_slices (decodes : Decodable ts records) (parts : List (Nat × Nat)) :
    ∃ routed, parts.mapM (convertSlice ts rangeSeq records) = .ok routed ∧
      routed.flatten = (parts.flatMap (readSlice records)).filterMap fun entry =>
        (convertRecordAt ts rangeSeq entry).toOption := by
  induction parts with
  | nil => exact ⟨[], rfl, rfl⟩
  | cons sl parts ih =>
    obtain ⟨routed, hr, flat⟩ := ih
    have here := @convert_entries _ rangeSeq (readSlice records sl)
      fun raw h => decodes raw (readSlice_records raw h)
    refine ⟨((readSlice records sl).filterMap fun entry => (convertRecordAt ts rangeSeq entry).toOption) :: routed,
      ?_, ?_⟩
    · rw [List.mapM_cons, hr]
      unfold convertSlice
      rw [here]
      rfl
    · simp [flat]

theorem slices_routed {perSlice : Nat} (pos : 0 < perSlice) :
    ((slices records.length perSlice).flatMap (readSlice records)).filterMap
        (fun entry => (convertRecordAt ts rangeSeq entry).toOption) = routedRecords ts rangeSeq records := by
  rw [slices, slices_cover pos records (by omega)]
  simp [routedRecords, routedFrom]

theorem eval_runFlushes_caught {fs : List Flush} {counts : Nat × Nat} {w : World} {e : JobError}
    (distinct : ((fs.flatMap Flush.batch).map StagedRow.sourceKey).Nodup) :
    (tryCatch (runFlushes ts fs counts) fun _ => throw e : Job (Nat × Nat)).eval w =
      (.ok (addCounts counts (flushCounts ts (w.target ts.name).staging fs)),
        w.onTarget ts.name (applyFlushes ts fs)) := by
  rw [Prog.eval_tryCatch, eval_runFlushes distinct]

theorem sparkFlushes_contents (schedule : Schedule) :
    ((sparkFlushes batch ts rangeSeq records schedule).flatMap Flush.batch).Perm
        (rowsOf (keptRecords ts rangeSeq records)) ∧
      ((sparkFlushes batch ts rangeSeq records schedule).flatMap Flush.rejects).Perm
        (rejectsOf (keptRecords ts rangeSeq records)) := by
  have perm : (sinkInputs ts rangeSeq schedule (routedRecords ts rangeSeq records)).flatten.Perm
      (keptRecords ts rangeSeq records) := sinkInputs_perm schedule 0 records
  have mixed := interleave_perm schedule.picks
    ((sinkInputs ts rangeSeq schedule (routedRecords ts rangeSeq records)).map
      (sinkFlushes batch.loadBatchRows ⟨[], []⟩))
  have joined : ∀ inputs : List (List Routed),
      ((inputs.map (sinkFlushes batch.loadBatchRows ⟨[], []⟩)).flatten.flatMap Flush.batch = rowsOf inputs.flatten) ∧
      ((inputs.map (sinkFlushes batch.loadBatchRows ⟨[], []⟩)).flatten.flatMap Flush.rejects =
        rejectsOf inputs.flatten) := by
    intro inputs
    induction inputs with
    | nil => exact ⟨rfl, rfl⟩
    | cons l inputs ih =>
      obtain ⟨batches, rejects⟩ := sinkFlushes_contents batch.loadBatchRows_pos l
      simp only [List.map_cons, List.flatten_cons, List.flatMap_append, batches, rejects, ih.1, ih.2]
      exact ⟨(rowsOf_append _ _).symm, (rejectsOf_append _ _).symm⟩
  obtain ⟨batches, rejects⟩ := joined (sinkInputs ts rangeSeq schedule (routedRecords ts rangeSeq records))
  constructor
  · refine (mixed.flatMap_right _).trans ?_
    rw [batches]
    exact rowsOf_perm perm
  · refine (mixed.flatMap_right _).trans ?_
    rw [rejects]
    exact rejectsOf_perm perm

theorem sparkFlushes_distinct (schedule : Schedule) :
    (((sparkFlushes batch ts rangeSeq records schedule).flatMap Flush.batch).map StagedRow.sourceKey).Nodup :=
  (((sparkFlushes_contents schedule).1.map _).nodup_iff).mpr keptRecords_distinct

theorem serialFlushes_contents :
    (serialFlushes batch ts rangeSeq records).flatMap Flush.batch = rowsOf (keptRecords ts rangeSeq records) ∧
      (serialFlushes batch ts rangeSeq records).flatMap Flush.rejects =
        rejectsOf (keptRecords ts rangeSeq records) :=
  sinkFlushes_contents batch.loadBatchRows_pos _

theorem addCounts_zero (counts : Nat × Nat) : addCounts (0, 0) counts = counts := by simp [addCounts]

theorem serialFlushes_distinct :
    (((serialFlushes batch ts rangeSeq records).flatMap Flush.batch).map StagedRow.sourceKey).Nodup := by
  rw [serialFlushes_contents.1]
  exact keptRecords_distinct

theorem eval_loadRecords (decodes : Decodable ts records) (w : World) :
    (loadRecords batch ts rangeSeq records).eval w =
      (.ok (flushCounts ts (w.target ts.name).staging (serialFlushes batch ts rangeSeq records)),
        w.onTarget ts.name (applyFlushes ts (serialFlushes batch ts rangeSeq records))) := by
  refine ((eval_serial decodes w).trans (eval_runFlushes serialFlushes_distinct)).trans ?_
  rw [addCounts_zero]
  rfl

theorem eval_runRangeSpark {perSlice : Nat} (pos : 0 < perSlice) (schedule : Schedule)
    (decodes : Decodable ts records) (w : World) :
    (runRangeSpark batch ts rangeSeq perSlice schedule records).eval w =
      (.ok (flushCounts ts (w.target ts.name).staging (sparkFlushes batch ts rangeSeq records schedule)),
        w.onTarget ts.name (applyFlushes ts (sparkFlushes batch ts rangeSeq records schedule))) := by
  obtain ⟨routed, hr, flat⟩ := @convert_slices _ rangeSeq _ decodes (slices records.length perSlice)
  rw [slices_routed pos] at flat
  unfold runRangeSpark
  simp only
  split
  next empty =>
    have none : slices records.length perSlice = [] := List.isEmpty_iff.mp empty
    have nothing : routedRecords ts rangeSeq records = [] := by
      rw [← slices_routed pos, none]
      rfl
    have kept : keptRecords ts rangeSeq records = [] := by simp [keptRecords, nothing, keepUnseen]
    obtain ⟨batches, rejects⟩ := @sparkFlushes_contents batch ts rangeSeq records schedule
    rw [kept] at batches rejects
    have batches := batches.eq_nil
    have rejects := rejects.eq_nil
    have log : ∀ staging, (sparkFlushes batch ts rangeSeq records schedule).flatMap (flushLog ts staging) = [] := by
      intro staging
      apply List.eq_nil_iff_forall_not_mem.mpr
      intro r hr
      rcases mem_log hr with h | ⟨row, h, _⟩
      · rw [rejects] at h
        cases h
      · rw [batches] at h
        cases h
    rw [World.onTarget_id]
    · simp [flushCounts, batches, rejects, accepted, refusals]
    · unfold applyFlushes
      rw [batches, log]
      rfl
  next =>
    have lifted : (liftExcept ((slices records.length perSlice).mapM (convertSlice ts rangeSeq records)) :
        Job (List (List Routed))).eval w = (.ok routed, w) := by
      rw [hr]
      rfl
    rw [Prog.eval_bind_ok lifted, flat]
    refine (eval_runFlushes_caught (sparkFlushes_distinct schedule)).trans ?_
    rw [addCounts_zero]

theorem decodedFront_decodable : Decodable ts (decodedFront ts records) := by
  intro raw member e undecodable
  have decodes := List.mem_takeWhile_imp member
  rw [undecodable] at decodes
  cases decodes

theorem decodedFront_split {raw : Raw} (held : raw ∈ records) {e : String} (undecodable : ts.convert raw = .undecodable e) :
    ∃ raw' e' rest, records = decodedFront ts records ++ raw' :: rest ∧ ts.convert raw' = .undecodable e' := by
  induction records with
  | nil => cases held
  | cons x records ih =>
    by_cases decodes : (ts.convert x).key.isSome = true
    · have later : raw ∈ records := by
        rcases List.mem_cons.mp held with rfl | later
        · rw [undecodable] at decodes
          cases decodes
        · exact later
      obtain ⟨raw', e', rest, split, first⟩ := ih later
      refine ⟨raw', e', rest, ?_, first⟩
      rw [decodedFront, List.takeWhile_cons, if_pos decodes, List.cons_append]
      exact congrArg (x :: ·) split
    · cases here : ts.convert x with
      | undecodable e' =>
        refine ⟨x, e', records, ?_, here⟩
        rw [decodedFront, List.takeWhile_cons, if_neg decodes, List.nil_append]
      | malformed k err => exact absurd (by rw [here]; rfl) decodes
      | ok k values source => exact absurd (by rw [here]; rfl) decodes

theorem fullFlushes_distinct :
    (((fullFlushes batch ts rangeSeq records).flatMap Flush.batch).map StagedRow.sourceKey).Nodup := by
  have all := @serialFlushes_distinct batch ts rangeSeq (decodedFront ts records)
  rcases List.eq_nil_or_concat (serialFlushes batch ts rangeSeq (decodedFront ts records)) with none | ⟨fs, last, split⟩
  · rw [fullFlushes, none]
    exact List.nodup_nil
  · rw [split, List.concat_eq_append, List.flatMap_append, List.map_append] at all
    rw [fullFlushes, split, List.concat_eq_append, List.dropLast_concat]
    exact (List.nodup_append.mp all).1

/-- A record whose key does not decode fails both engines: the serial one after the batches that the records before it
filled, -/
theorem eval_loadRecords_undecodable {raw : Raw} (held : raw ∈ records) {e : String}
    (undecodable : ts.convert raw = .undecodable e) (w : World) :
    ∃ e', (loadRecords batch ts rangeSeq records).eval w =
      (.error e', w.onTarget ts.name (applyFlushes ts (fullFlushes batch ts rangeSeq records))) := by
  obtain ⟨raw', e', rest, split, first⟩ := decodedFront_split held undecodable
  refine ⟨.unexpected e', ?_⟩
  have run := @eval_serial_undecodable _ rangeSeq batch _ rest _ _ (@decodedFront_decodable ts records) first w
  rw [← split] at run
  refine run.trans ?_
  exact Prog.eval_bind_ok (eval_runFlushes fullFlushes_distinct)

/-- A file in which a key does not decode is not converted. -/
theorem convert_undecodable {perSlice : Nat} (pos : 0 < perSlice) {raw : Raw} (held : raw ∈ records) {e : String}
    (undecodable : ts.convert raw = .undecodable e) :
    (slices records.length perSlice).isEmpty = false ∧
      ∃ e', (slices records.length perSlice).mapM (convertSlice ts rangeSeq records) = .error e' := by
  have entry : ∃ i, (raw, i) ∈ (slices records.length perSlice).flatMap (readSlice records) := by
    rw [slices, slices_cover pos records (by omega), List.drop_zero]
    obtain ⟨i, hi⟩ := List.getElem?_of_mem held
    exact ⟨i, List.mem_zipIdx_iff_getElem?.mpr hi⟩
  obtain ⟨i, entry⟩ := entry
  obtain ⟨sl, hsl, hi⟩ := List.mem_flatMap.mp entry
  have here : convertRecordAt ts rangeSeq (raw, i) = .error (.unexpected e) := by
    simp [convertRecordAt, undecodable]
  obtain ⟨e₁, h₁⟩ := mapM_error hi here
  refine ⟨?_, mapM_error (f := convertSlice ts rangeSeq records) hsl h₁⟩
  cases hp : slices records.length perSlice with
  | nil =>
    rw [hp] at hsl
    cases hsl
  | cons => rfl

/-- and the Spark engine before it stages anything. -/
theorem eval_runRangeSpark_undecodable {perSlice : Nat} (pos : 0 < perSlice) (schedule : Schedule) {raw : Raw}
    (held : raw ∈ records) {e : String} (undecodable : ts.convert raw = .undecodable e) (w : World) :
    ∃ e', (runRangeSpark batch ts rangeSeq perSlice schedule records).eval w = (.error e', w) := by
  obtain ⟨some, e', he⟩ := @convert_undecodable _ rangeSeq _ _ pos _ held _ undecodable
  refine ⟨e', ?_⟩
  unfold runRangeSpark
  simp only [some, Bool.false_eq_true, if_false]
  rw [Prog.eval_bind, he]
  rfl

end Runs

end OtterWorks.Migration
