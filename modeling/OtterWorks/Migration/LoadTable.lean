import OtterWorks.Migration.LoadRuns

namespace OtterWorks.Migration

def LoadEngine.Sized : LoadEngine → Prop
  | .serial => True
  | .spark perSlice _ => 0 < perSlice

theorem Manifest.engine_sized (m : Manifest) (schedule : Schedule) : (m.engine schedule).Sized := by
  unfold Manifest.engine
  cases m.loadEngine with
  | serial => trivial
  | spark => exact m.recordsPerSlice_pos

/-- LOAD of a table has ended well: the ledger has what is staged and rejected. -/
structure Loaded (t : TargetTable) : Prop where
  extracted : AllExtracted t
  loaded : AllLoaded t
  staged : t.ledger.loaded = some t.staging.size
  rejected : t.ledger.rejected = some (t.rejects.countIf fun r => r.stage = .load)
  closes : t.ledger.extracted = some (t.staging.size + t.rejects.countIf fun r => r.stage = .load)

section

variable {D : Drift} {F : Prop} {batch : BatchConfig} {ts : TableSpec} {I : World → Prop}

theorem keep_engineLoad {seq : Nat} {records : List Raw} {engine : LoadEngine} (sized : engine.Sized)
    (stable : D.Stable I) (closed : ∀ u v, LoadMove ts u v → I u → I v) {w : World} (hI : I w)
    (loading : Loading seq records (w.target ts.name)) :
    wp (D.weather F) (engine.load batch ts seq records) (.keep I fun _ v => Onward ts seq records w v ∧
      ∀ raw ∈ records, ∃ k, (ts.convert raw).key = some k ∧ Settled (v.target ts.name) k) w := by
  cases engine with
  | serial => exact keep_loadRecords stable closed hI loading
  | spark perSlice schedule => exact keep_runRangeSpark sized schedule stable closed hI loading

theorem keep_rangeFile {rng : KeyRange} (stable : D.Stable I) {w : World} (hI : I w) :
    wp (D.weather F) (rangeFile ts rng) (.keep I fun records v => D.Moves w v ∧
      (w.target ts.name).files[rng.rangeSeq]? = some records) w := by
  unfold rangeFile readFile
  refine keeps_bind (keep_read stable hI) ?_
  rintro found v hIv ⟨moves, hfound⟩
  cases found with
  | none => exact keeps_throw hIv trivial
  | some records => exact keeps_pure hIv ⟨moves, hfound.symm⟩

theorem keep_checkRecordCount {rng : KeyRange} {records : List Raw} {w : World} (hI : I w) :
    wp (D.weather F) (checkRecordCount ts rng records) (.keep I fun _ v => v = w) w := by
  unfold checkRecordCount
  split
  next =>
    split
    next => exact keeps_throw hI trivial
    next => exact keeps_pure hI rfl
  next => exact keeps_pure hI rfl

theorem keep_rollBackRange {rng : KeyRange} {records : List Raw} {ranges : List KeyRange} (stable : D.Stable I)
    (closed : ∀ u v, LoadMove ts u v → I u → I v) (member : rng ∈ ranges) {w : World} (hI : I w)
    (extracted : AllExtracted (w.target ts.name)) (hranges : (w.target ts.name).ranges = ranges)
    (file : (w.target ts.name).files[rng.rangeSeq]? = some records) :
    wp (D.weather F) (rollBackRange ts rng) (.keep I fun _ v => AllExtracted (v.target ts.name) ∧
      (v.target ts.name).ranges = ranges ∧ (v.target ts.name).files[rng.rangeSeq]? = some records) w := by
  unfold rollBackRange deleteStagingRange deleteRejectsRange
  by_cases running : rng.loadStatus = .running
  · rw [if_pos running]
    have loading : Loading rng.rangeSeq records (w.target ts.name) :=
      ⟨extracted, ⟨rng, hranges ▸ member, rfl, running⟩, file⟩
    refine keeps_bind (keep_write stable hI ?_) ?_
    · intro u hu hIu
      exact closed u _ (.rollStaging rng.rangeSeq records (hu.target ▸ loading)) hIu
    rintro _ _ hIv ⟨u, hu, rfl⟩
    have cleared : Loading rng.rangeSeq records ((u.onTarget ts.name fun t =>
        { t with staging := t.staging.filter fun _ row => !decide (row.keyRangeSeq = rng.rangeSeq) }).target
          ts.name) := by
      rw [World.onTarget_self, hu.target]
      exact ⟨loading.extracted, loading.running, loading.file⟩
    refine keep_mono (keep_write stable hIv ?_) ?_
    · intro v hv hIv'
      refine closed v _ (.rollRejects rng.rangeSeq records (hv.target ▸ cleared) ?_) hIv'
      intro k row held
      rw [hv.target, World.onTarget_self, Std.ExtTreeMap.getElem?_filter'] at held
      have := (Option.filter_eq_some_iff.mp held).2
      simpa using this
    · rintro _ _ _ ⟨v, hv, rfl⟩
      rw [World.onTarget_self, hv.target, World.onTarget_self, hu.target]
      exact ⟨extracted, hranges, file⟩
  · rw [if_neg running]
    exact keeps_pure hI ⟨extracted, hranges, file⟩

/-- `load_range` ends with the range DONE and its records settled, or with an error. -/
theorem keep_loadRange {engine : LoadEngine} (sized : engine.Sized) (stable : D.Stable I)
    (closed : ∀ u v, LoadMove ts u v → I u → I v) {rng : KeyRange} {before after : List KeyRange}
    (waits : rng.loadStatus ≠ .done) (apart : ∀ r ∈ before ++ after, r.rangeSeq ≠ rng.rangeSeq) {w : World} (hI : I w)
    (extracted : AllExtracted (w.target ts.name)) (hw : (w.target ts.name).ranges = before ++ rng :: after) :
    wp (D.weather F) (loadRange engine batch ts rng) (.keep I fun _ v => AllExtracted (v.target ts.name) ∧
      (v.target ts.name).ranges = before ++ { rng with loadStatus := .done } :: after) w := by
  unfold loadRange beginRange
  have member : rng ∈ before ++ rng :: after := by simp
  refine keeps_bind (R := fun records v => Loading rng.rangeSeq records (v.target ts.name) ∧
    (v.target ts.name).ranges = before ++ { rng with loadStatus := .running } :: after) ?_ ?_
  · refine keeps_bind (keep_rangeFile stable hI) ?_
    rintro records v hIv ⟨moves, file⟩
    rw [← moves.target] at extracted hw file
    refine keeps_bind (keep_checkRecordCount hIv) ?_
    rintro _ _ hIv rfl
    refine keeps_bind (keep_rollBackRange stable closed member hIv extracted hw file) ?_
    rintro _ v' hIv' ⟨extracted', hw', file'⟩
    unfold updateKeyRange
    refine keeps_bind (keep_write stable hIv' ?_) ?_
    · intro u hu hIu
      exact closed u _ (.start rng.rangeSeq (hu.target ▸ extracted') ⟨rng, hu.target ▸ hw' ▸ member, rfl, waits⟩) hIu
    rintro _ _ hIv'' ⟨u, hu, rfl⟩
    have started : ((u.onTarget ts.name fun t => t.onRange rng.rangeSeq fun r =>
        { r with loadStatus := .running }).target ts.name).ranges =
          before ++ { rng with loadStatus := .running } :: after := by
      rw [World.onTarget_self, TargetTable.onRange_ranges, hu.target, hw']
      exact onRange_split apart rfl _
    refine keeps_pure hIv'' ⟨⟨?_, ⟨{ rng with loadStatus := .running }, started ▸ by simp, rfl, rfl⟩, ?_⟩, started⟩
    · intro r hr
      rw [started] at hr
      have all : ∀ r ∈ before ++ rng :: after, r.status = .done := by
        intro r hr
        exact extracted' r (hw' ▸ hr)
      rcases List.mem_append.mp hr with h | h
      · exact all r (by simp [h])
      · rcases List.mem_cons.mp h with rfl | h
        · exact all rng member
        · exact all r (by simp [h])
    · rw [World.onTarget_self, hu.target]
      exact file'
  · rintro records v hIv ⟨loading, hranges⟩
    refine keeps_bind (keep_engineLoad sized stable closed hIv loading) ?_
    rintro counts v' hIv' ⟨onward, settled⟩
    unfold finishRange updateKeyRange
    refine keeps_bind (keep_write stable hIv' ?_) ?_
    · intro u hu hIu
      refine closed u _ (.done rng.rangeSeq records (hu.target ▸ onward.1) ?_) hIu
      rw [hu.target]
      exact settled
    rintro _ _ hIv'' ⟨u, hu, rfl⟩
    have finished : ((u.onTarget ts.name fun t => t.onRange rng.rangeSeq fun r =>
        { r with loadStatus := .done }).target ts.name).ranges =
          before ++ { rng with loadStatus := .done } :: after := by
      rw [World.onTarget_self, TargetTable.onRange_ranges, hu.target, onward.2.ranges, hranges]
      exact onRange_split (r := { rng with loadStatus := .running }) apart rfl _
    refine keeps_pure hIv'' ⟨?_, finished⟩
    intro r hr
    rw [World.onTarget_self, TargetTable.onRange_ranges, hu.target] at hr
    obtain ⟨r', hr', rfl⟩ := List.mem_map.mp hr
    have done := onward.1.extracted r' hr'
    split
    next => exact done
    next => exact done

theorem keep_requireRanges (stable : D.Stable I) {ranges : List KeyRange} {w : World} (hI : I w) :
    wp (D.weather F) (requireRanges ts ranges) (.keep I fun _ v => D.Moves w v) w := by
  unfold requireRanges getLedger
  by_cases none : ranges.isEmpty
  · rw [if_pos none]
    refine keeps_bind (keep_read stable hI) ?_
    rintro ledger v hIv ⟨moves, _⟩
    split
    next => exact keeps_throw hIv trivial
    next =>
      split
      next => exact keeps_throw hIv trivial
      next => exact keeps_pure hIv moves
  · rw [if_neg none]
    exact keeps_pure hI (Drift.Moves.refl D w)

theorem keep_requireExtracted {ranges : List KeyRange} {w : World} (hI : I w) :
    wp (D.weather F) (requireExtracted ts ranges) (.keep I fun _ v => v = w ∧ ∀ r ∈ ranges, r.status = .done) w := by
  unfold requireExtracted
  simp only
  split
  next none =>
    refine keeps_pure hI ⟨rfl, ?_⟩
    intro r hr
    by_contra open_
    have : r ∈ ranges.filter fun r => r.status ≠ .done := List.mem_filter.mpr ⟨hr, by simp [open_]⟩
    rw [List.isEmpty_iff.mp none] at this
    cases this
  next => exact keeps_throw hI trivial

theorem keep_closeLoad (stable : D.Stable I) (closed : ∀ u v, LoadMove ts u v → I u → I v) {w : World} (hI : I w)
    (extracted : AllExtracted (w.target ts.name)) (loaded : AllLoaded (w.target ts.name)) :
    wp (D.weather F) (closeLoad ts) (.keep I fun _ v => Loaded (v.target ts.name)) w := by
  unfold closeLoad getLedger countStaging countRejects updateLedger
  refine keeps_bind (keep_read stable hI) ?_
  rintro ledger v₁ hI₁ ⟨moves₁, hledger⟩
  refine keeps_bind (keep_read stable hI₁) ?_
  rintro staged v₂ hI₂ ⟨moves₂, hstaged⟩
  refine keeps_bind (keep_read stable hI₂) ?_
  rintro rejected v₃ hI₃ ⟨moves₃, hrejected⟩
  have same : v₃.target = w.target := by rw [moves₃.target, moves₂.target, moves₁.target]
  rw [moves₁.target] at hstaged
  rw [moves₂.target, moves₁.target] at hrejected
  refine keeps_bind (keep_write stable hI₃ ?_) ?_
  · intro u hu hIu
    have here : u.target = w.target := hu.target.trans same
    refine closed u _ (.ledger staged rejected ?_ ?_ ?_ ?_) hIu
    · rw [here]; exact extracted
    · rw [here]; exact loaded
    · rw [here]; exact hstaged
    · rw [here]; exact hrejected
  rintro _ _ hI₄ ⟨u, hu, rfl⟩
  have here : u.target = w.target := hu.target.trans same
  split
  next => exact keeps_throw hI₄ trivial
  next close =>
    refine keeps_pure hI₄ ?_
    rw [World.onTarget_self, here]
    refine ⟨extracted, loaded, by rw [hstaged]; rfl, by rw [hrejected]; rfl, ?_⟩
    simp only [not_not] at close
    rw [hstaged, hrejected, hledger] at close
    cases hl : (w.target ts.name).ledger.extracted with
    | none =>
      simp only [orMinusOne, hl, Option.map_none, Option.getD_none] at close
      omega
    | some n =>
      simp only [orMinusOne, hl, Option.map_some, Option.getD_some, Int.ofNat_eq_natCast] at close
      simp only [TargetTable.onLedger, hl, Option.some.injEq]
      omega

/-- LOAD of one table returns only with every range loaded and the ledger true. -/
theorem keep_loadTable {engine : LoadEngine} (sized : engine.Sized) (stable : D.Stable I)
    (closed : ∀ u v, LoadMove ts u v → I u → I v) (numbered : ∀ v, I v → InOrder (v.target ts.name).ranges)
    {w : World} (hI : I w) :
    wp (D.weather F) (loadTable engine batch ts) (.keep I fun _ v => Loaded (v.target ts.name)) w := by
  unfold loadTable getKeyRanges
  refine keeps_bind (keep_read stable hI) ?_
  rintro ranges v₁ hI₁ ⟨moves₁, hranges⟩
  refine keeps_bind (keep_requireRanges stable hI₁) ?_
  rintro _ v₂ hI₂ moves₂
  refine keeps_bind (keep_requireExtracted hI₂) ?_
  rintro _ v₃ hI₃ ⟨rfl, all⟩
  have here : (v₃.target ts.name).ranges = ranges := by rw [moves₂.target, moves₁.target, hranges]
  have order : InOrder ranges := here ▸ numbered v₃ hI₃
  rw [byRangeSeq_inOrder order]
  refine keeps_bind (R := fun _ v => AllExtracted (v.target ts.name) ∧ AllLoaded (v.target ts.name)) ?_ ?_
  · apply keeps_forM (J := fun rest v => AllExtracted (v.target ts.name) ∧
      ∃ done, (v.target ts.name).ranges = done ++ rest ∧ ∀ r ∈ done, r.loadStatus = .done)
    · rintro rng rest v _ hIv ⟨extracted, done, split, loaded⟩
      by_cases finished : rng.loadStatus = .done
      · rw [if_pos finished]
        refine keeps_pure hIv ⟨extracted, done ++ [rng], by simp [split], ?_⟩
        intro r hr
        rcases List.mem_append.mp hr with h | h
        · exact loaded r h
        · exact List.mem_singleton.mp h ▸ finished
      · rw [if_neg finished]
        have apart := InOrder.apart (split ▸ numbered v hIv)
        refine keeps_bind (keep_loadRange sized stable closed finished apart hIv extracted split) ?_
        rintro _ v' hIv' ⟨extracted', split'⟩
        refine keeps_pure hIv' ⟨extracted', done ++ [{ rng with loadStatus := .done }], by simp [split'], ?_⟩
        intro r hr
        rcases List.mem_append.mp hr with h | h
        · exact loaded r h
        · exact List.mem_singleton.mp h ▸ rfl
    · rintro v _ ⟨extracted, done, split, loaded⟩
      rw [List.append_nil] at split
      refine ⟨extracted, ?_⟩
      intro r hr
      exact loaded r (split ▸ hr)
    · exact hI₃
    · refine ⟨?_, [], by simp [here], by simp⟩
      intro r hr
      exact all r (here ▸ hr)
  · rintro _ v hIv ⟨extracted, loaded⟩
    exact keep_closeLoad stable closed hIv extracted loaded

end

end OtterWorks.Migration
