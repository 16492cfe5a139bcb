import OtterWorks.Migration.EngineAgreement
import OtterWorks.Migration.EngineRuns
import OtterWorks.Migration.ExtractMoves

namespace OtterWorks.Migration

/-- A row that LOAD makes of a record of a range. -/
structure RowOf (ts : TableSpec) (seq : Nat) (records : List Raw) (row : StagedRow) : Prop where
  record : row.rawBytes ∈ records
  converted : ∃ source, ts.convert row.rawBytes = .ok row.sourceKey row.values source
  seq : row.keyRangeSeq = seq
  unhashed : row.rowHash = none

/-- A reject that LOAD writes about a record of a range. -/
structure RejectOf (ts : TableSpec) (seq : Nat) (records : List Raw) (r : Reject) : Prop where
  stage : r.stage = .load
  seq : r.keyRangeSeq = some seq
  record : ∃ raw ∈ records, (ts.convert raw).key = some r.sourceKey

/-- A range whose records LOAD is staging. -/
structure Loading (seq : Nat) (records : List Raw) (t : TargetTable) : Prop where
  extracted : AllExtracted t
  running : ∃ r ∈ t.ranges, r.rangeSeq = seq ∧ r.loadStatus = .running
  file : t.files[seq]? = some records

def Settled (t : TargetTable) (k : Key) : Prop := k ∈ t.staging ∨ k ∈ t.rejects

def AllLoaded (t : TargetTable) : Prop := ∀ r ∈ t.ranges, r.loadStatus = .done

/-- What a driver call of LOAD changes, and what is known when it does. -/
inductive LoadMove (ts : TableSpec) (w : World) : World → Prop
  | rollStaging (seq : Nat) (records : List Raw) (loading : Loading seq records (w.target ts.name)) :
      LoadMove ts w (w.onTarget ts.name fun t =>
        { t with staging := t.staging.filter fun _ row => !decide (row.keyRangeSeq = seq) })
  | rollRejects (seq : Nat) (records : List Raw) (loading : Loading seq records (w.target ts.name))
      (rolled : ∀ (k : Key) (row : StagedRow), (w.target ts.name).staging[k]? = some row → row.keyRangeSeq ≠ seq) :
      LoadMove ts w (w.onTarget ts.name fun t =>
        { t with rejects := t.rejects.filter fun _ r =>
            !(decide (r.stage = .load) && decide (r.keyRangeSeq = some seq)) })
  | start (seq : Nat) (extracted : AllExtracted (w.target ts.name))
      (waits : ∃ r ∈ (w.target ts.name).ranges, r.rangeSeq = seq ∧ r.loadStatus ≠ .done) :
      LoadMove ts w (w.onTarget ts.name fun t => t.onRange seq fun r => { r with loadStatus := .running })
  | stage (seq : Nat) (records : List Raw) (rows : List StagedRow) (staging : KeyMap Key StagedRow)
      (loading : Loading seq records (w.target ts.name)) (each : ∀ row ∈ rows, RowOf ts seq records row)
      (staged : stageAll ts (w.target ts.name).staging rows = .ok staging) :
      LoadMove ts w (w.onTarget ts.name fun t => { t with staging := staging })
  | reject (seq : Nat) (records : List Raw) (rejects : List Reject)
      (loading : Loading seq records (w.target ts.name)) (each : ∀ r ∈ rejects, RejectOf ts seq records r) :
      LoadMove ts w (w.onTarget ts.name fun t =>
        { t with rejects := t.rejects.addNew (rejects.map fun r => (r.sourceKey, r)) })
  | done (seq : Nat) (records : List Raw) (loading : Loading seq records (w.target ts.name))
      (settled : ∀ raw ∈ records, ∃ k, (ts.convert raw).key = some k ∧ Settled (w.target ts.name) k) :
      LoadMove ts w (w.onTarget ts.name fun t => t.onRange seq fun r => { r with loadStatus := .done })
  | ledger (loaded rejected : Nat) (extracted : AllExtracted (w.target ts.name))
      (all : AllLoaded (w.target ts.name)) (staged : loaded = (w.target ts.name).staging.size)
      (counted : rejected = (w.target ts.name).rejects.countIf fun r => r.stage = .load) :
      LoadMove ts w (w.onTarget ts.name fun t =>
        t.onLedger fun l => { l with loaded := some loaded, rejected := some rejected })

/-- Staged rows and rejects are only added. -/
structure Grown (t t' : TargetTable) : Prop where
  ranges : t'.ranges = t.ranges
  files : t'.files = t.files
  staging : ∀ k ∈ t.staging, k ∈ t'.staging
  rejects : ∀ k ∈ t.rejects, k ∈ t'.rejects

theorem Grown.refl (t : TargetTable) : Grown t t := ⟨rfl, rfl, fun _ h => h, fun _ h => h⟩

theorem Grown.trans {a b c : TargetTable} (hab : Grown a b) (hbc : Grown b c) : Grown a c :=
  ⟨hbc.ranges.trans hab.ranges, hbc.files.trans hab.files, fun k h => hbc.staging k (hab.staging k h),
    fun k h => hbc.rejects k (hab.rejects k h)⟩

theorem Grown.loading {seq : Nat} {records : List Raw} {t t' : TargetTable} (grown : Grown t t')
    (loading : Loading seq records t) : Loading seq records t' := by
  obtain ⟨extracted, running, file⟩ := loading
  refine ⟨?_, ?_, ?_⟩
  · unfold AllExtracted
    rw [grown.ranges]
    exact extracted
  · rw [grown.ranges]
    exact running
  · rw [grown.files]
    exact file

theorem Grown.settled {t t' : TargetTable} (grown : Grown t t') {k : Key} (h : Settled t k) : Settled t' k :=
  h.imp (grown.staging k) (grown.rejects k)

/-- What a transaction that staged all its rows found. -/
theorem stageAll_inv {ts : TableSpec} {staging staging' : KeyMap Key StagedRow} {rows : List StagedRow}
    (h : stageAll ts staging rows = .ok staging') :
    staging' = staging.upsertAll (stagedEntries rows) ∧ (rows.map StagedRow.sourceKey).Nodup ∧
      ∀ row ∈ rows, row.sourceKey ∉ staging := by
  induction rows generalizing staging with
  | nil =>
    cases Except.ok.inj h
    exact ⟨rfl, .nil, by simp⟩
  | cons row rows ih =>
    unfold stageAll at h
    split at h
    next => cases h
    next clean =>
      have absent : row.sourceKey ∉ staging := by
        intro held
        simp [stagingError, held] at clean
      obtain ⟨eq, distinct, fresh⟩ := ih h
      have apart : ∀ other ∈ rows, other.sourceKey ∉ staging ∧ row.sourceKey ≠ other.sourceKey := by
        intro other ho
        have := fresh other ho
        rw [Std.ExtTreeMap.mem_insert, not_or] at this
        exact ⟨this.2, fun same => this.1 (by simp [same])⟩
      refine ⟨eq, List.nodup_cons.mpr ⟨?_, distinct⟩, ?_⟩
      · intro held
        obtain ⟨other, ho, same⟩ := List.mem_map.mp held
        exact (apart other ho).2 same.symm
      · intro other ho
        rcases List.mem_cons.mp ho with rfl | ho
        · exact absent
        · exact (apart other ho).1

theorem grown_stage {ts : TableSpec} {t : TargetTable} {rows : List StagedRow} {staging : KeyMap Key StagedRow}
    (staged : stageAll ts t.staging rows = .ok staging) :
    Grown t { t with staging := staging } ∧ ∀ row ∈ rows, row.sourceKey ∈ staging := by
  obtain ⟨rfl, _, _⟩ := stageAll_inv staged
  refine ⟨⟨rfl, rfl, fun k h => KeyMap.mem_upsertAll.mpr (Or.inl h), fun _ h => h⟩, ?_⟩
  intro row hr
  apply KeyMap.mem_upsertAll.mpr
  right
  rw [stagedEntries_keys]
  exact List.mem_map.mpr ⟨row, hr, rfl⟩

theorem grown_reject (t : TargetTable) (rejects : List Reject) :
    Grown t { t with rejects := t.rejects.addNew (rejects.map fun r => (r.sourceKey, r)) } ∧
      ∀ r ∈ rejects, r.sourceKey ∈ t.rejects.addNew (rejects.map fun r => (r.sourceKey, r)) := by
  refine ⟨⟨rfl, rfl, fun _ h => h, fun k h => KeyMap.mem_addNew.mpr (Or.inl h)⟩, ?_⟩
  intro r hr
  apply KeyMap.mem_addNew.mpr
  right
  exact List.mem_map.mpr ⟨(r.sourceKey, r), List.mem_map.mpr ⟨r, hr, rfl⟩, rfl⟩

section

variable {D : Drift} {F : Prop} {batch : BatchConfig} {ts : TableSpec} {I : World → Prop} {seq : Nat}
  {records : List Raw}

/-- What a step of a load leaves: its range still loading, and nothing settled lost. -/
def Onward (ts : TableSpec) (seq : Nat) (records : List Raw) (w v : World) : Prop :=
  Loading seq records (v.target ts.name) ∧ Grown (w.target ts.name) (v.target ts.name)

theorem Onward.drift {w u v : World} (moves : D.Moves w u) (h : Onward ts seq records u v) :
    Onward ts seq records w v := by
  unfold Onward at h
  rw [moves.target] at h
  exact h

theorem Onward.trans {w u v : World} (first : Onward ts seq records w u) (second : Onward ts seq records u v) :
    Onward ts seq records w v := ⟨second.1, first.2.trans second.2⟩

theorem Onward.settled {w v : World} (h : Onward ts seq records w v) {k : Key} (hk : Settled (w.target ts.name) k) :
    Settled (v.target ts.name) k := h.2.settled hk

theorem keeps_executemany (stable : D.Stable I) (closed : ∀ u v, LoadMove ts u v → I u → I v)
    {rows : List StagedRow} (each : ∀ row ∈ rows, RowOf ts seq records row) {w : World} (hI : I w)
    (loading : Loading seq records (w.target ts.name)) :
    wp (D.weather F) (executemanyStaging ts rows) (.keeps I
      (fun _ v => Onward ts seq records w v ∧ ∀ row ∈ rows, row.sourceKey ∈ (v.target ts.name).staging)
      fun _ v => Onward ts seq records w v) w := by
  unfold executemanyStaging
  apply keeps_call (C := fun u => (u.target ts.name) = w.target ts.name)
  · exact fun u hu => ⟨stable w u hu hI, by rw [hu.target]⟩
  · intro u hIu same
    rw [← same] at loading
    cases staged : stageAll ts (u.target ts.name).staging rows with
    | error f =>
      refine ⟨hIu, ?_⟩
      exact ⟨loading, same ▸ Grown.refl _⟩
    | ok staging =>
      obtain ⟨grown, held⟩ := grown_stage staged
      refine ⟨closed u _ (.stage seq records rows staging loading each staged) hIu, ⟨?_, ?_⟩, ?_⟩
      · rw [World.onTarget_self]
        exact grown.loading loading
      · rw [World.onTarget_self, ← same]
        exact grown
      · rw [World.onTarget_self]
        exact held
  · intro _ u _ same e
    rw [← same] at loading
    refine ⟨⟨loading, same ▸ Grown.refl _⟩, ?_⟩
    cases staged : stageAll ts (u.target ts.name).staging rows with
    | error f => exact ⟨loading, same ▸ Grown.refl _⟩
    | ok staging =>
      obtain ⟨grown, _⟩ := grown_stage staged
      unfold Onward
      rw [World.onTarget_self, ← same]
      exact ⟨grown.loading loading, grown⟩

/-- A bisected batch leaves each row staged or reported. -/
theorem keep_insertBisect (stable : D.Stable I) (closed : ∀ u v, LoadMove ts u v → I u → I v) {depth : Nat}
    {rows : List StagedRow} (deep : rows.length ≤ depth) (each : ∀ row ∈ rows, RowOf ts seq records row) {w : World}
    (hI : I w) (loading : Loading seq records (w.target ts.name)) :
    wp (D.weather F) (insertBisect ts depth rows) (.keep I fun failures v => Onward ts seq records w v ∧
      ∀ row ∈ rows, row.sourceKey ∈ (v.target ts.name).staging ∨
        row.sourceKey ∈ failures.map InsertFailure.sourceKey) w := by
  induction depth generalizing rows w with
  | zero =>
    have none : rows = [] := List.length_eq_zero_iff.mp (by omega)
    subst none
    exact keeps_pure hI ⟨⟨loading, Grown.refl _⟩, by simp⟩
  | succ depth ih =>
    unfold insertBisect
    refine keeps_tryCatch (G := fun _ v => Onward ts seq records w v) ?_ ?_
    · refine keeps_bind (keeps_executemany stable closed each hI loading) ?_
      rintro _ v hIv ⟨onward, held⟩
      exact keeps_pure hIv ⟨onward, fun row hr => Or.inl (held row hr)⟩
    · intro e v hIv onward
      split
      next sqlstate nativeError errorText =>
        split
        next row =>
          refine keeps_pure hIv ⟨onward, ?_⟩
          intro other ho
          cases List.mem_singleton.mp ho
          exact Or.inr (by simp)
        next plural =>
          have halves : (rows.take (rows.length / 2)).length ≤ depth ∧
              (rows.drop (rows.length / 2)).length ≤ depth := by
            have several : rows.length ≠ 1 := by
              intro one
              obtain ⟨row, rfl⟩ := List.length_eq_one_iff.mp one
              exact plural row rfl
            rw [List.length_take, List.length_drop]
            omega
          refine keeps_bind (ih halves.1 (fun row hr => each row (List.mem_of_mem_take hr)) hIv onward.1) ?_
          rintro left v' hIv' ⟨onward', leftDone⟩
          refine keeps_bind (ih halves.2 (fun row hr => each row (List.mem_of_mem_drop hr)) hIv' onward'.1) ?_
          rintro right v'' hIv'' ⟨onward'', rightDone⟩
          refine keeps_pure hIv'' ⟨(onward.trans onward').trans onward'', ?_⟩
          intro row hr
          rw [← List.take_append_drop (rows.length / 2) rows] at hr
          rw [List.map_append]
          rcases List.mem_append.mp hr with hr | hr
          · rcases leftDone row hr with held | reported
            · exact Or.inl (onward''.2.staging _ held)
            · exact Or.inr (List.mem_append_left _ reported)
          · rcases rightDone row hr with held | reported
            · exact Or.inl held
            · exact Or.inr (List.mem_append_right _ reported)
      next => exact keeps_throw hIv trivial

theorem keep_insertStaging (stable : D.Stable I) (closed : ∀ u v, LoadMove ts u v → I u → I v)
    {rows : List StagedRow} (each : ∀ row ∈ rows, RowOf ts seq records row) {w : World}
    (hI : I w) (loading : Loading seq records (w.target ts.name)) :
    wp (D.weather F) (insertStaging ts rows) (.keep I fun failures v => Onward ts seq records w v ∧
      ∀ row ∈ rows, row.sourceKey ∈ (v.target ts.name).staging ∨
        row.sourceKey ∈ failures.map InsertFailure.sourceKey) w := by
  unfold insertStaging
  by_cases none : rows.isEmpty
  · rw [if_pos none]
    have : rows = [] := List.isEmpty_iff.mp none
    subst this
    exact keeps_pure hI ⟨⟨loading, Grown.refl _⟩, by simp⟩
  · rw [if_neg none]
    exact keep_insertBisect stable closed (Nat.le_refl _) each hI loading

theorem keep_flushRejects (stable : D.Stable I) (closed : ∀ u v, LoadMove ts u v → I u → I v)
    {rejects : List Reject} (each : ∀ r ∈ rejects, RejectOf ts seq records r) {w : World} (hI : I w)
    (loading : Loading seq records (w.target ts.name)) :
    wp (D.weather F) (flushRejects ts.name rejects) (.keep I fun _ v => Onward ts seq records w v ∧
      ∀ r ∈ rejects, r.sourceKey ∈ (v.target ts.name).rejects) w := by
  unfold flushRejects
  by_cases none : rejects.isEmpty
  · rw [if_pos none]
    have : rejects = [] := List.isEmpty_iff.mp none
    subst this
    exact keeps_pure hI ⟨⟨loading, Grown.refl _⟩, by simp⟩
  · rw [if_neg none]
    unfold insertRejects
    refine keep_mono (keep_write stable hI ?_) ?_
    · intro u hu hIu
      exact closed u _ (.reject seq records rejects (hu.target ▸ loading) each) hIu
    · rintro _ _ _ ⟨u, hu, rfl⟩
      obtain ⟨grown, held⟩ := grown_reject (u.target ts.name) rejects
      unfold Onward
      rw [World.onTarget_self]
      rw [← hu.target] at loading ⊢
      exact ⟨⟨grown.loading loading, grown⟩, held⟩

theorem rejectOf_failure {batch : List StagedRow} {failures : List InsertFailure}
    (each : ∀ row ∈ batch, RowOf ts seq records row) :
    ∀ r ∈ failureRejects ts batch failures, RejectOf ts seq records r := by
  intro r hr
  obtain ⟨f, _, hf⟩ := List.mem_filterMap.mp hr
  obtain ⟨row, found, rfl⟩ := Option.map_eq_some_iff.mp hf
  have of := each row (List.mem_of_find?_eq_some found)
  have key : row.sourceKey = f.sourceKey := by simpa using List.find?_some found
  obtain ⟨source, converted⟩ := of.converted
  refine ⟨rfl, by simp [failureReject, of.seq], row.rawBytes, of.record, ?_⟩
  simp [converted, Conversion.key, failureReject, key]

theorem failureRejects_key {batch : List StagedRow} {failures : List InsertFailure} {row : StagedRow}
    (hr : row ∈ batch) (reported : row.sourceKey ∈ failures.map InsertFailure.sourceKey) :
    ∃ r ∈ failureRejects ts batch failures, r.sourceKey = row.sourceKey := by
  obtain ⟨f, hf, same⟩ := List.mem_map.mp reported
  cases found : batch.find? fun row => row.sourceKey = f.sourceKey with
  | none =>
    have := List.find?_eq_none.mp found row hr
    simp [same] at this
  | some other =>
    refine ⟨failureReject ts f other, List.mem_filterMap.mpr ⟨f, hf, by simp [found]⟩, ?_⟩
    exact same

/-- The rows of a batch are staged or rejected once the batch and its rejects are flushed. -/
theorem keep_flushBatch {α : Type} (stable : D.Stable I) (closed : ∀ u v, LoadMove ts u v → I u → I v)
    {rows : List StagedRow} {rejects : List Reject} (each : ∀ row ∈ rows, RowOf ts seq records row)
    (refused : ∀ r ∈ rejects, RejectOf ts seq records r) {w : World} (hI : I w)
    (loading : Loading seq records (w.target ts.name)) (answer : List InsertFailure → α) :
    wp (D.weather F) (do
        let failures ← insertStaging ts rows
        flushRejects ts.name (rejects ++ failureRejects ts rows failures)
        pure (answer failures))
      (.keep I fun a v => Onward ts seq records w v ∧ (∃ failures, a = answer failures) ∧
        (∀ row ∈ rows, Settled (v.target ts.name) row.sourceKey) ∧
        ∀ r ∈ rejects, Settled (v.target ts.name) r.sourceKey) w := by
  refine keeps_bind (keep_insertStaging stable closed each hI loading) ?_
  rintro failures v hIv ⟨onward, done⟩
  refine keeps_bind (@keep_flushRejects _ _ _ _ _ _ stable closed (rejects ++ failureRejects ts rows failures) ?_ _ hIv
    onward.1) ?_
  · intro r hr
    rcases List.mem_append.mp hr with hr | hr
    · exact refused r hr
    · exact rejectOf_failure each r hr
  · rintro _ v' hIv' ⟨onward', held⟩
    refine keeps_pure hIv' ⟨onward.trans onward', ⟨failures, rfl⟩, ?_, ?_⟩
    · intro row hr
      rcases done row hr with staged | reported
      · exact Or.inl (onward'.2.staging _ staged)
      · obtain ⟨r, hr', same⟩ := @failureRejects_key ts _ _ _ hr reported
        exact Or.inr (same ▸ held r (List.mem_append_right _ hr'))
    · intro r hr
      exact Or.inr (held r (List.mem_append_left _ hr))

/-- What the local variables of `load_range` hold after the first records. -/
structure LoadState.After (ts : TableSpec) (seq : Nat) (records : List Raw) (done : List Raw) (t : TargetTable)
    (st : LoadState) : Prop where
  rows : ∀ row ∈ st.batch, RowOf ts seq records row
  rejects : ∀ r ∈ st.rejects, RejectOf ts seq records r
  covered : ∀ raw ∈ done, ∃ k, (ts.convert raw).key = some k ∧
    (Settled t k ∨ k ∈ st.batch.map StagedRow.sourceKey ∨ k ∈ st.rejects.map Reject.sourceKey)
  seen : ∀ k ∈ st.seenKeys, Settled t k ∨ k ∈ st.batch.map StagedRow.sourceKey

theorem keep_flush (stable : D.Stable I) (closed : ∀ u v, LoadMove ts u v → I u → I v) {done : List Raw}
    {st : LoadState} {w : World} (after : st.After ts seq records done (w.target ts.name)) (hI : I w)
    (loading : Loading seq records (w.target ts.name)) :
    wp (D.weather F) (flush ts st) (.keep I fun st' v => Onward ts seq records w v ∧
      st'.After ts seq records done (v.target ts.name) ∧ st'.batch = []) w := by
  unfold flush
  by_cases none : st.batch.isEmpty
  · rw [if_pos none]
    exact keeps_pure hI ⟨⟨loading, Grown.refl _⟩, after, List.isEmpty_iff.mp none⟩
  · rw [if_neg none]
    refine keep_mono (keep_flushBatch stable closed after.rows after.rejects hI loading
      fun failures =>
        let failed := (failures.map InsertFailure.sourceKey).dedup.length
        { st with
          loaded := st.loaded + (st.batch.length - failed)
          rejected := st.rejected + failed
          batch := []
          rejects := [] }) ?_
    rintro _ v _ ⟨onward, ⟨failures, rfl⟩, rowsDone, rejectsDone⟩
    refine ⟨onward, ⟨by simp, by simp, ?_, ?_⟩, rfl⟩
    · intro raw hraw
      obtain ⟨k, hk, where_⟩ := after.covered raw hraw
      refine ⟨k, hk, Or.inl ?_⟩
      rcases where_ with settled | batched | queued
      · exact onward.settled settled
      · obtain ⟨row, hr, rfl⟩ := List.mem_map.mp batched
        exact rowsDone row hr
      · obtain ⟨r, hr, rfl⟩ := List.mem_map.mp queued
        exact rejectsDone r hr
    · intro k hk
      left
      rcases after.seen k hk with settled | batched
      · exact onward.settled settled
      · obtain ⟨row, hr, rfl⟩ := List.mem_map.mp batched
        exact rowsDone row hr

theorem keep_loadRecord (stable : D.Stable I) (closed : ∀ u v, LoadMove ts u v → I u → I v) {done : List Raw}
    {raw : Raw} (member : raw ∈ records) {st : LoadState} {w : World}
    (after : st.After ts seq records done (w.target ts.name)) (hI : I w)
    (loading : Loading seq records (w.target ts.name)) :
    wp (D.weather F) (loadRecord batch ts seq st raw) (.keep I fun st' v => Onward ts seq records w v ∧
      st'.After ts seq records (done ++ [raw]) (v.target ts.name)) w := by
  have onward : Onward ts seq records w w := ⟨loading, Grown.refl _⟩
  -- a reject queued for this record
  have queue : ∀ r : Reject, RejectOf ts seq records r → (ts.convert raw).key = some r.sourceKey →
      LoadState.After ts seq records (done ++ [raw]) (w.target ts.name)
        { st with rejects := st.rejects ++ [r], rejected := st.rejected + 1 } := by
    intro r of key
    refine ⟨after.rows, ?_, ?_, after.seen⟩
    · intro other ho
      rcases List.mem_append.mp ho with ho | ho
      · exact after.rejects other ho
      · exact List.mem_singleton.mp ho ▸ of
    · intro other ho
      rcases List.mem_append.mp ho with ho | ho
      · obtain ⟨k, hk, where_⟩ := after.covered other ho
        refine ⟨k, hk, where_.imp_right (Or.imp_right ?_)⟩
        intro queued
        rw [List.map_append]
        exact List.mem_append_left _ queued
      · cases List.mem_singleton.mp ho
        exact ⟨_, key, Or.inr (Or.inr (by simp))⟩
  unfold loadRecord
  cases hc : ts.convert raw with
  | undecodable e => exact keeps_throw hI trivial
  | malformed k err =>
    have key : (ts.convert raw).key = some k := by rw [hc]; rfl
    refine keeps_pure hI ⟨onward, ?_⟩
    exact queue (malformedReject k err raw seq) ⟨rfl, rfl, raw, member, key⟩ key
  | ok k values source =>
    have key : (ts.convert raw).key = some k := by rw [hc]; rfl
    by_cases seen : k ∈ st.seenKeys
    · simp only [if_pos seen]
      refine keeps_pure hI ⟨onward, ?_⟩
      exact queue (duplicateReject ts k raw seq) ⟨rfl, rfl, raw, member, key⟩ key
    · simp only [if_neg seen]
      have next : LoadState.After ts seq records (done ++ [raw]) (w.target ts.name)
          { st with
            seenKeys := k :: st.seenKeys
            batch := st.batch ++ [⟨k, seq, raw, values, none⟩] } := by
        refine ⟨?_, after.rejects, ?_, ?_⟩
        · intro row hr
          rcases List.mem_append.mp hr with hr | hr
          · exact after.rows row hr
          · cases List.mem_singleton.mp hr
            exact ⟨member, ⟨source, hc⟩, rfl, rfl⟩
        · intro other ho
          rcases List.mem_append.mp ho with ho | ho
          · obtain ⟨k', hk', where_⟩ := after.covered other ho
            refine ⟨k', hk', where_.imp_right (Or.imp_left ?_)⟩
            intro batched
            rw [List.map_append]
            exact List.mem_append_left _ batched
          · cases List.mem_singleton.mp ho
            exact ⟨k, key, Or.inr (Or.inl (by simp))⟩
        · intro k' hk'
          rcases List.mem_cons.mp hk' with rfl | hk'
          · exact Or.inr (by simp)
          · refine (after.seen k' hk').imp_right ?_
            intro batched
            rw [List.map_append]
            exact List.mem_append_left _ batched
      split
      next =>
        refine keep_mono (keep_flush stable closed next hI loading) ?_
        rintro st' v _ ⟨onward', after', _⟩
        exact ⟨onward', after'⟩
      next => exact keeps_pure hI ⟨onward, next⟩

/-- The serial engine settles every record. -/
theorem keep_loadRecords (stable : D.Stable I) (closed : ∀ u v, LoadMove ts u v → I u → I v) {w : World} (hI : I w)
    (loading : Loading seq records (w.target ts.name)) :
    wp (D.weather F) (loadRecords batch ts seq records) (.keep I fun _ v => Onward ts seq records w v ∧
      ∀ raw ∈ records, ∃ k, (ts.convert raw).key = some k ∧ Settled (v.target ts.name) k) w := by
  unfold loadRecords
  refine keeps_bind (R := fun st v => Onward ts seq records w v ∧ st.After ts seq records records (v.target ts.name))
    ?_ ?_
  · apply keeps_foldlM (J := fun rest st v => Onward ts seq records w v ∧ ∃ done, records = done ++ rest ∧
      st.After ts seq records done (v.target ts.name))
    · rintro raw rest st v _ hIv ⟨onward, done, split, after⟩
      have member : raw ∈ records := split ▸ List.mem_append_right _ (List.mem_cons_self ..)
      refine keep_mono (keep_loadRecord stable closed member after hIv onward.1) ?_
      rintro st' v' _ ⟨onward', after'⟩
      exact ⟨onward.trans onward', done ++ [raw], by simp [split], after'⟩
    · rintro st v _ ⟨onward, done, split, after⟩
      rw [List.append_nil] at split
      exact ⟨onward, split ▸ after⟩
    · exact hI
    · exact ⟨⟨loading, Grown.refl _⟩, [], rfl, ⟨by simp [LoadState.empty], by simp [LoadState.empty], by simp,
        by simp [LoadState.empty]⟩⟩
  · rintro st v hIv ⟨onward, after⟩
    refine keeps_bind (keep_flush stable closed after hIv onward.1) ?_
    rintro st' v' hIv' ⟨onward', after', emptied⟩
    refine keeps_bind (keep_flushRejects stable closed after'.rejects hIv' onward'.1) ?_
    rintro _ v'' hIv'' ⟨onward'', rejected⟩
    refine keeps_pure hIv'' ⟨(onward.trans onward').trans onward'', ?_⟩
    intro raw hraw
    obtain ⟨k, hk, where_⟩ := after'.covered raw hraw
    refine ⟨k, hk, ?_⟩
    rcases where_ with settled | batched | queued
    · exact onward''.settled settled
    · simp [emptied] at batched
    · obtain ⟨r, hr, rfl⟩ := List.mem_map.mp queued
      exact Or.inr (rejected r hr)

/-! The Spark engine. -/

/-- What a routed record carries is about a record of the range. -/
def Routed.Of (ts : TableSpec) (seq : Nat) (records : List Raw) (r : Routed) : Prop :=
  match r.outcome with
  | .inl reject => RejectOf ts seq records reject
  | .inr row => RowOf ts seq records row

theorem convertRecordAt_of {entry : Raw × Nat} {r : Routed} (member : entry.1 ∈ records)
    (h : convertRecordAt ts seq entry = .ok r) :
    r.Of ts seq records ∧ (ts.convert entry.1).key = some r.sourceKey := by
  unfold convertRecordAt at h
  split at h
  next => cases h
  next k err hc =>
    cases h
    have key : (ts.convert entry.1).key = some k := by rw [hc]; rfl
    exact ⟨⟨rfl, rfl, entry.1, member, key⟩, key⟩
  next k values source hc =>
    cases h
    exact ⟨⟨member, ⟨source, hc⟩, rfl, rfl⟩, by rw [hc]; rfl⟩

theorem keepUnseen_of {seen : List Key} {l : List Routed} (each : ∀ r ∈ l, r.Of ts seq records)
    (keyed : ∀ r ∈ l, r.Keyed) :
    (∀ r ∈ keepUnseen ts seq seen l, r.Of ts seq records) ∧
      (keepUnseen ts seq seen l).map Routed.sourceKey = l.map Routed.sourceKey := by
  induction l generalizing seen with
  | nil => exact ⟨fun r hr => absurd hr (by simp [keepUnseen]), rfl⟩
  | cons r l ih =>
    have restEach : ∀ x ∈ l, x.Of ts seq records := fun x hx => each x (List.mem_cons_of_mem _ hx)
    have restKeyed : ∀ x ∈ l, x.Keyed := fun x hx => keyed x (List.mem_cons_of_mem _ hx)
    have hereOf := each r (List.mem_cons_self ..)
    have hereKey := keyed r (List.mem_cons_self ..)
    have cons : ∀ (x : Routed) (seen' : List Key), x.Of ts seq records → x.sourceKey = r.sourceKey →
        (∀ y ∈ x :: keepUnseen ts seq seen' l, y.Of ts seq records) ∧
          (x :: keepUnseen ts seq seen' l).map Routed.sourceKey = (r :: l).map Routed.sourceKey := by
      intro x seen' hx same
      obtain ⟨of, keys⟩ := @ih seen' restEach restKeyed
      refine ⟨?_, by simp [same, keys]⟩
      intro y hy
      rcases List.mem_cons.mp hy with rfl | hy
      · exact hx
      · exact of y hy
    unfold keepUnseen
    cases ho : r.outcome with
    | inl reject => exact cons r seen hereOf rfl
    | inr row =>
      by_cases known : r.sourceKey ∈ seen
      · simp only [if_pos known]
        refine cons _ seen ?_ rfl
        simp only [Routed.Of, ho] at hereOf
        simp only [Routed.Keyed, ho] at hereKey
        obtain ⟨source, converted⟩ := hereOf.converted
        exact ⟨rfl, rfl, row.rawBytes, hereOf.record, by simp [converted, Conversion.key, duplicateReject, hereKey]⟩
      · simp only [if_neg known]
        exact cons r _ hereOf rfl

theorem mem_rowsOf {l : List Routed} {row : StagedRow} : row ∈ rowsOf l ↔ ∃ r ∈ l, r.outcome = .inr row := by
  simp [rowsOf, List.mem_filterMap, Sum.getRight?_eq_some_iff]

theorem mem_rejectsOf {l : List Routed} {reject : Reject} :
    reject ∈ rejectsOf l ↔ ∃ r ∈ l, r.outcome = .inl reject := by
  simp [rejectsOf, List.mem_filterMap, Sum.getLeft?_eq_some_iff]

theorem routedRecords_of : ∀ r ∈ routedRecords ts seq records, r.Of ts seq records := by
  intro r hr
  obtain ⟨entry, he, hr⟩ := List.mem_filterMap.mp hr
  cases hc : convertRecordAt ts seq entry with
  | error e => simp [hc, Except.toOption] at hr
  | ok r' =>
    simp only [hc, Except.toOption, Option.some.injEq] at hr
    subst hr
    exact (convertRecordAt_of (List.fst_mem_of_mem_zipIdx he) hc).1

/-- The rows and rejects of a file are about its records, and every record has one. -/
theorem keptRecords_of (decodes : Decodable ts records) :
    (∀ row ∈ rowsOf (keptRecords ts seq records), RowOf ts seq records row) ∧
      (∀ r ∈ rejectsOf (keptRecords ts seq records), RejectOf ts seq records r) ∧
      ∀ raw ∈ records, ∃ k, (ts.convert raw).key = some k ∧
        (k ∈ (rowsOf (keptRecords ts seq records)).map StagedRow.sourceKey ∨
          k ∈ (rejectsOf (keptRecords ts seq records)).map Reject.sourceKey) := by
  obtain ⟨of, keys⟩ := @keepUnseen_of _ _ _ [] _ (@routedRecords_of ts seq records)
    routedRecords_keyed
  refine ⟨?_, ?_, ?_⟩
  · intro row hr
    obtain ⟨r, hr, ho⟩ := mem_rowsOf.mp hr
    have := of r hr
    simpa only [Routed.Of, ho] using this
  · intro reject hr
    obtain ⟨r, hr, ho⟩ := mem_rejectsOf.mp hr
    have := of r hr
    simpa only [Routed.Of, ho] using this
  · intro raw hraw
    obtain ⟨i, hi⟩ := List.getElem?_of_mem hraw
    have entry : (raw, i) ∈ records.zipIdx 0 := List.mem_zipIdx_iff_getElem?.mpr hi
    cases hc : convertRecordAt ts seq (raw, i) with
    | error e =>
      exfalso
      unfold convertRecordAt at hc
      split at hc
      next err undecodable => exact decodes raw hraw err undecodable
      next => cases hc
      next => cases hc
    | ok r =>
      have key := (convertRecordAt_of hraw hc).2
      have routed : r ∈ routedRecords ts seq records :=
        List.mem_filterMap.mpr ⟨(raw, i), entry, by simp [hc, Except.toOption]⟩
      have kept : r.sourceKey ∈ (keptRecords ts seq records).map Routed.sourceKey := by
        rw [keptRecords, keys]
        exact List.mem_map.mpr ⟨r, routed, rfl⟩
      obtain ⟨r', hr', same⟩ := List.mem_map.mp kept
      have keyed := keptRecords_keyed r' hr'
      refine ⟨r.sourceKey, key, ?_⟩
      unfold Routed.Keyed at keyed
      cases ho : r'.outcome with
      | inl reject =>
        rw [ho] at keyed
        exact Or.inr (List.mem_map.mpr ⟨reject, mem_rejectsOf.mpr ⟨r', hr', ho⟩, keyed.trans same⟩)
      | inr row =>
        rw [ho] at keyed
        exact Or.inl (List.mem_map.mpr ⟨row, mem_rowsOf.mpr ⟨r', hr', ho⟩, keyed.trans same⟩)

theorem keep_sinkFlush (stable : D.Stable I) (closed : ∀ u v, LoadMove ts u v → I u → I v) {f : Flush}
    (each : ∀ row ∈ f.batch, RowOf ts seq records row) (refused : ∀ r ∈ f.rejects, RejectOf ts seq records r)
    {w : World} (hI : I w) (loading : Loading seq records (w.target ts.name)) :
    wp (D.weather F) (sinkFlush ts f) (.keep I fun _ v => Onward ts seq records w v ∧
      (∀ row ∈ f.batch, Settled (v.target ts.name) row.sourceKey) ∧
      ∀ r ∈ f.rejects, Settled (v.target ts.name) r.sourceKey) w := by
  unfold sinkFlush
  refine keep_mono (keep_flushBatch stable closed each refused hI loading fun failures =>
    (f.batch.length - (failures.map InsertFailure.sourceKey).dedup.length,
      f.rejects.length + (failures.map InsertFailure.sourceKey).dedup.length)) ?_
  rintro _ v _ ⟨onward, _, rowsDone, rejectsDone⟩
  exact ⟨onward, rowsDone, rejectsDone⟩

theorem keep_runRangeSpark {perSlice : Nat} (pos : 0 < perSlice) (schedule : Schedule) (stable : D.Stable I)
    (closed : ∀ u v, LoadMove ts u v → I u → I v) {w : World} (hI : I w)
    (loading : Loading seq records (w.target ts.name)) :
    wp (D.weather F) (runRangeSpark batch ts seq perSlice schedule records) (.keep I fun _ v =>
      Onward ts seq records w v ∧
      ∀ raw ∈ records, ∃ k, (ts.convert raw).key = some k ∧ Settled (v.target ts.name) k) w := by
  have here : Onward ts seq records w w := ⟨loading, Grown.refl _⟩
  unfold runRangeSpark
  by_cases decodes : Decodable ts records
  · obtain ⟨rowsOf_, rejectsOf_, cover⟩ := @keptRecords_of _ seq _ decodes
    obtain ⟨routed, hr, flat⟩ := @convert_slices _ seq _ decodes (slices records.length perSlice)
    rw [slices_routed pos] at flat
    simp only
    split
    next empty =>
      have none : slices records.length perSlice = [] := List.isEmpty_iff.mp empty
      have covered := @slices_cover _ pos records records.length 0 (by omega)
      rw [← slices, none] at covered
      have nothing : records = [] := by
        have := congrArg List.length covered
        simp only [List.flatMap_nil, List.length_nil, List.drop_zero, List.length_zipIdx] at this
        exact List.length_eq_zero_iff.mp this.symm
      exact keeps_pure hI ⟨here, by simp [nothing]⟩
    next =>
      rw [hr]
      refine keeps_bind (R := fun r v => r = routed ∧ w = v) (keeps_pure hI ⟨rfl, rfl⟩) ?_
      rintro _ v _ ⟨rfl, rfl⟩
      rw [flat]
      obtain ⟨batches, rejects⟩ := @sparkFlushes_contents batch ts seq records schedule
      refine keeps_tryCatch (G := fun _ _ => True) ?_ fun _ _ hIv _ => keeps_throw hIv trivial
      apply keeps_foldlM (J := fun rest _ v => Onward ts seq records w v ∧ ∃ done,
        sparkFlushes batch ts seq records schedule = done ++ rest ∧
        (∀ row ∈ done.flatMap Flush.batch, Settled (v.target ts.name) row.sourceKey) ∧
        ∀ r ∈ done.flatMap Flush.rejects, Settled (v.target ts.name) r.sourceKey)
      · rintro f rest counts v _ hIv ⟨onward, done, split, rowsDone, rejectsDone⟩
        have member : f ∈ sparkFlushes batch ts seq records schedule :=
          split ▸ List.mem_append_right _ (List.mem_cons_self ..)
        have eachRow : ∀ row ∈ f.batch, RowOf ts seq records row := fun row hrow =>
          rowsOf_ row (batches.mem_iff.mp (List.mem_flatMap.mpr ⟨f, member, hrow⟩))
        have eachReject : ∀ r ∈ f.rejects, RejectOf ts seq records r := fun r hr' =>
          rejectsOf_ r (rejects.mem_iff.mp (List.mem_flatMap.mpr ⟨f, member, hr'⟩))
        refine keeps_bind (keep_sinkFlush stable closed eachRow eachReject hIv onward.1) ?_
        rintro added v' hIv' ⟨onward', rows', rejects'⟩
        refine keeps_pure hIv' ⟨onward.trans onward', done ++ [f], by simp [split], ?_, ?_⟩
        · intro row hrow
          rw [List.flatMap_append, List.mem_append] at hrow
          rcases hrow with h | h
          · exact onward'.settled (rowsDone row h)
          · exact rows' row (by simpa using h)
        · intro r hr'
          rw [List.flatMap_append, List.mem_append] at hr'
          rcases hr' with h | h
          · exact onward'.settled (rejectsDone r h)
          · exact rejects' r (by simpa using h)
      · rintro counts v _ ⟨onward, done, split, rowsDone, rejectsDone⟩
        rw [List.append_nil] at split
        subst split
        refine ⟨onward, ?_⟩
        intro raw hraw
        obtain ⟨k, hk, where_⟩ := cover raw hraw
        refine ⟨k, hk, ?_⟩
        rcases where_ with row | reject
        · obtain ⟨row, hrow, rfl⟩ := List.mem_map.mp row
          exact rowsDone _ (batches.mem_iff.mpr hrow)
        · obtain ⟨r, hr', rfl⟩ := List.mem_map.mp reject
          exact rejectsDone r (rejects.mem_iff.mpr hr')
      · exact hI
      · exact ⟨here, [], rfl, by simp, by simp⟩
  · unfold Decodable at decodes
    push Not at decodes
    obtain ⟨raw, hraw, e, undecodable⟩ := decodes
    obtain ⟨some, e', he⟩ := @convert_undecodable _ seq _ _ pos _ hraw _ undecodable
    simp only [some, Bool.false_eq_true, if_false]
    rw [he]
    exact keeps_bind (R := fun _ _ => False) (keeps_throw hI trivial) fun _ _ _ impossible => impossible.elim

end

end OtterWorks.Migration
