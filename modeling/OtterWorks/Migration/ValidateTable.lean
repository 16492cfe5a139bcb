import OtterWorks.Migration.ValidatePasses

namespace OtterWorks.Migration

open KeyMap (upto)

/-- VALIDATE of a table has ended well. -/
structure ValidatedTable (ts : TableSpec) (w : World) (t : TargetTable) : Prop where
  plain : plainRows t = plainRows (w.target ts.name)
  frame : t = { w.target ts.name with
    staging := t.staging
    rejects := t.rejects
    validation := t.validation
    classTotals := t.classTotals
    arch := t.arch
    promoted := t.promoted
    ledger := { (w.target ts.name).ledger with
      validated := some (t.validation.countIf fun v => v.status = .validated)
      validateFailed := some (t.validation.countIf fun v => v.status = .failed) } }
  judged : ∀ k row, (k, row) ∈ plainRows (w.target ts.name) → Judged ts t row (judgementAt ts w row)
  archived : ∃ rows, promotion ts { t with arch := (w.target ts.name).arch } = some rows ∧
    t.arch = (w.target ts.name).arch.upsertAll rows
  promoted : ∀ k ∈ t.staging, isValidated t k = true → k ∈ t.promoted
  counted : t.ledger.loaded = some (t.validation.countIf (fun v => v.status = .validated) +
    t.validation.countIf fun v => v.status = .failed)

section

variable {D : Drift} {F : Prop} {batch : BatchConfig} {ts : TableSpec} {I : World → Prop} {w v : World}

theorem compare_nil {k : Key} (some : k ≠ []) : compare k [] = .gt := by
  cases k with
  | nil => exact absurd rfl some
  | cons c cs => rfl

theorem upto_nil {rows : List (Key × StagedRow)} (named : ∀ r ∈ rows, r.1 ≠ []) : upto rows [] = [] := by
  apply List.filter_eq_nil_iff.mpr
  intro r hr
  simp [compare_nil (named r hr)]

theorem upto_all {t : TargetTable} {last : Key} (past : ∀ k ∈ t.staging.keys, compare last k ≠ .lt) :
    upto (plainRows t) last = plainRows t := by
  apply List.filter_eq_self.mpr
  intro r hr
  have key : r.1 ∈ t.staging.keys := by
    rw [← plainRows_keys]
    exact List.mem_map.mpr ⟨r, hr, rfl⟩
  have := past r.1 key
  rw [ne_eq, ← Std.OrientedCmp.gt_iff_lt] at this
  simpa using this

theorem KeysOk.named {t : TargetTable} (own : KeysOk t) : ∀ r ∈ plainRows t, r.1 ≠ [] := by
  intro r hr
  obtain ⟨row, held, _⟩ := mem_plainRows.mp (show (r.1, r.2) ∈ plainRows t from hr)
  exact (own r.1 row held).2

theorem keep_rowChecks (stable : D.Stable I) (hI : I w) :
    wp (D.weather F) (rowChecks ts) (.keep I fun checks v => D.Moves w v ∧ checks = checksAt ts w) w := by
  unfold rowChecks archivedHashes parentsPresent
  refine keeps_bind (keep_read stable hI) ?_
  rintro _ v hIv ⟨moves, rfl⟩
  unfold checksAt
  cases hp : ts.parent with
  | none => exact keeps_pure hIv ⟨moves, rfl⟩
  | some parent =>
    refine keeps_bind (keep_query stable hIv) ?_
    rintro _ u hIu ⟨moves', rfl⟩
    refine keeps_pure hIu ⟨moves.trans moves', ?_⟩
    have same : u.target = w.target := (moves.trans moves').target
    simp only [Option.map_some, parentsPresentOf, same]

theorem successorsOf_plain (res : SourceClassResolution) (page : List (Key × StagedRow)) (out : KeyMap Text Text) :
    successorsOf res ((page.map fun r => (r.1, r.2.plain)).map Prod.snd) out =
      successorsOf res (page.map Prod.snd) out := by
  unfold successorsOf
  simp only [List.foldl_map]
  rfl

theorem successorsOf_append (res : SourceClassResolution) (xs ys : List StagedRow) (out : KeyMap Text Text) :
    successorsOf res (xs ++ ys) out = successorsOf res ys (successorsOf res xs out) := by
  simp [successorsOf, List.foldl_append]

theorem keep_successorMap (stable : D.Stable I) (hI : I w)
    (lookup : ∀ u, I u → ∀ res, ts.classTotals.bind ClassTotals.sourceClassResolution = some res →
      KeysOk (u.target res.lookupTable)) :
    wp (D.weather F) (successorMap batch ts) (.keep I fun successors v => D.Moves w v ∧
      successors = successorsAt ts w) w := by
  unfold successorMap successorsAt
  cases hres : ts.classTotals.bind ClassTotals.sourceClassResolution with
  | none => exact keeps_pure hI ⟨Drift.Moves.refl D w, rfl⟩
  | some res =>
    simp only
    have own := fun u hu => lookup u hu res hres
    apply keep_iterStaging (J := fun out last v =>
      D.Moves w v ∧ out = successorsOf res ((upto (plainRows (w.target res.lookupTable)) last).map Prod.snd) ∅)
      (K := (w.target res.lookupTable).staging.keys) stable batch.validateBatchRows_pos
    · exact fun u hu k row held => (own u hu k row held).1
    · rintro _ _ v ⟨moves, _⟩
      rw [moves.target]
    · rintro _ _ v u moves' ⟨moves, made⟩
      exact ⟨moves.trans moves', made⟩
    · rintro out last v page final hIv ⟨moves, rfl⟩ hpage hlast
      refine keeps_pure hIv ⟨moves, ?_⟩
      rw [moves.target] at hpage
      have next := @KeyMap.upto_page _ _ _ _ last batch.validateBatchRows _
          (ascending_plain (w.target res.lookupTable)) ((final.1, final.2.plain))
              (by rw [plain_page, ← hpage, List.getLast?_map, hlast]; rfl)
      rw [show final.1 = (final.1, final.2.plain).1 from rfl, next, List.map_append, successorsOf_append, plain_page,
        ← hpage, successorsOf_plain]
    · rintro out last v _ ⟨moves, rfl⟩ past
      exact ⟨moves, by rw [upto_all past]⟩
    · exact hI
    · refine ⟨Drift.Moves.refl D w, ?_⟩
      rw [upto_nil (own w hI).named]
      rfl

/-- After pass 1. -/
structure FirstPassed (ts : TableSpec) (w : World) (pass : ClassPass) (v : World) : Prop where
  examining : Examining ts w v
  accumulated : ∀ ct, ts.classTotals = some ct → classPassAt ts ct w = .ok pass
  judged : ∀ k row, (k, row) ∈ plainRows (w.target ts.name) →
    Judged ts (v.target ts.name) row (rowFindingAt ts w row)

/-- After both passes. -/
structure Passed (ts : TableSpec) (w v : World) : Prop where
  examining : Examining ts w v
  judged : ∀ k row, (k, row) ∈ plainRows (w.target ts.name) →
    Judged ts (v.target ts.name) row (judgementAt ts w row)

theorem not_after {last k : Key} (past : compare last k ≠ .lt) : compare k last ≠ .gt := by
  rwa [ne_eq, Std.OrientedCmp.gt_iff_lt]

theorem plain_key {t : TargetTable} {k : Key} {row : StagedRow} (hr : (k, row) ∈ plainRows t) :
    k ∈ t.staging.keys := by
  rw [← plainRows_keys]
  exact List.mem_map.mpr ⟨(k, row), hr, rfl⟩

theorem Examining.keys (h : Examining ts w v) : (v.target ts.name).staging.keys = (w.target ts.name).staging.keys := by
  rw [← plainRows_keys, ← plainRows_keys, h.plain]

theorem Judged.drift {u : World} {row : StagedRow} {finding : Option Finding} (moves : D.Moves v u)
    (h : Judged ts (v.target ts.name) row finding) : Judged ts (u.target ts.name) row finding := by
  rw [moves.target]
  exact h

theorem keep_firstPass (stable : D.Stable I) (closed : ∀ u v, ValidateMove ts u v → I u → I v)
    (own : ∀ u, I u → KeysOk (u.target ts.name))
    (converted : ∀ u, I u → ∀ (k : Key) (row : StagedRow), (u.target ts.name).staging[k]? = some row → Converted ts row)
    (hI : I v) (same : v.target = w.target) :
    wp (D.weather F) (iterStaging ts.name batch.validateBatchRows (passOne ts (checksAt ts w) (successorsAt ts w))
      ⟨∅, []⟩) (.keep I fun pass u => FirstPassed ts w pass u) v := by
  have named : ∀ r ∈ plainRows (w.target ts.name), r.1 ≠ [] := same ▸ (own v hI).named
  apply keep_iterStaging (J := fun pass last v => PassOne ts w pass last v)
    (K := (w.target ts.name).staging.keys) stable batch.validateBatchRows_pos
  · exact fun u hu k row held => (own u hu k row held).1
  · exact fun _ _ u h => h.examining.keys
  · intro _ _ v u moves h
    exact ⟨h.examining.drift moves, h.accumulated, fun k row hr upto => (h.judged k row hr upto).drift moves⟩
  · intro pass last v page final hIv h hpage hlast
    exact keep_passOne stable closed hIv own converted h hpage hlast
  · intro pass last v _ h past
    refine ⟨h.examining, ?_, ?_⟩
    · intro ct hct
      have := h.accumulated ct hct
      rw [upto_all past] at this
      exact this
    · intro k row hr
      exact h.judged k row hr (not_after (past k (plain_key hr)))
  · exact hI
  · refine ⟨⟨by rw [same], by rw [same], fun _ _ => by rw [same]⟩, ?_, ?_⟩
    · intro ct _
      rw [upto_nil named]
      rfl
    · intro k row hr upto
      exact absurd (compare_nil (named (k, row) hr)) upto

theorem keep_writeClassTotals (stable : D.Stable I) (closed : ∀ u v, ValidateMove ts u v → I u → I v)
    {pass : ClassPass} (rows : List ClassTotalRow) (hI : I v) (before : FirstPassed ts w pass v) :
    wp (D.weather F) (writeClassTotals ts.name rows) (.keep I fun _ u => FirstPassed ts w pass u) v := by
  have totals : ∀ (u u' : World) (rows : List ClassTotalRow), D.Moves u u' → FirstPassed ts w pass u →
      FirstPassed ts w pass (u'.onTarget ts.name fun t => { t with classTotals := rows }) := by
    intro u u' rows moves h
    have examining := h.examining.drift moves
    refine ⟨⟨?_, ?_, ?_⟩, h.accumulated, ?_⟩
    · rw [World.onTarget_self]
      exact examining.plain
    · rw [World.onTarget_self]
      conv_lhs => rw [examining.frame]
    · intro name other
      rw [World.onTarget_other other]
      exact examining.others name other
    · intro k row hr
      rw [World.onTarget_self]
      obtain ⟨verdict, hashed, failed, passed⟩ := (h.judged k row hr).drift moves
      exact ⟨verdict, hashed, failed, passed⟩
  unfold writeClassTotals
  split
  next => exact keeps_pure hI before
  next =>
    refine keeps_bind (keep_write stable hI ?_) ?_
    · exact fun u _ hIu => closed u _ (.classTotals []) hIu
    rintro _ _ hI₁ ⟨u₁, hu₁, rfl⟩
    refine keep_mono (keep_write stable hI₁ ?_) ?_
    · exact fun u _ hIu => closed u _ (.classTotals rows) hIu
    · rintro _ _ _ ⟨u₂, hu₂, rfl⟩
      exact totals _ u₂ rows hu₂ (totals v u₁ [] hu₁ before)

theorem classAggregates_plain (ct : ClassTotals) (t : TargetTable) :
    classAggregatesOf ct ((plainRows t).map Prod.snd) = classAggregatesOf ct (t.staging.toList.map Prod.snd) := by
  have rows : (plainRows t).map Prod.snd = (t.staging.toList.map Prod.snd).map StagedRow.plain := by
    simp [plainRows]
  rw [rows]
  unfold classAggregatesOf
  simp only [List.map_map, List.filter_map, List.length_map]
  rfl

theorem keep_classAggregates (stable : D.Stable I) (ct : ClassTotals) (hI : I v) :
    wp (D.weather F) (classAggregates ts.name ct) (.keep I fun tgt u => D.Moves v u ∧
      tgt = classAggregatesOf ct ((v.target ts.name).staging.toList.map Prod.snd)) v := by
  unfold classAggregates
  apply keeps_call (C := fun u => D.Moves v u)
  · exact fun u hu => ⟨stable v u hu hI, hu⟩
  · intro u hIu moves
    simp only
    split
    next => exact ⟨hIu, moves, by rw [moves.target]⟩
    next => exact ⟨hIu, trivial⟩
  · exact fun _ _ _ _ _ => ⟨trivial, trivial⟩

/-- No row fails for its class if no class disagrees. -/
theorem classFinding_empty {ct : ClassTotals} {successors : KeyMap Text Text} {mismatches : KeyMap Text ClassMismatch}
    {moved : List Text} (none : mismatches.isEmpty = true) (row : StagedRow) :
    classFinding ts ct successors mismatches moved row = Option.none := by
  have empty := Std.ExtTreeMap.isEmpty_iff.mp none
  unfold classFinding classHit
  simp [empty]

theorem keep_checkClasses (stable : D.Stable I) (closed : ∀ u v, ValidateMove ts u v → I u → I v)
    (own : ∀ u, I u → KeysOk (u.target ts.name))
    (converted : ∀ u, I u → ∀ (k : Key) (row : StagedRow), (u.target ts.name).staging[k]? = some row → Converted ts row)
    {pass : ClassPass} (hI : I v) (before : FirstPassed ts w pass v) :
    wp (D.weather F) (checkClasses batch ts (checksAt ts w) (successorsAt ts w) pass)
      (.keep I fun _ u => Passed ts w u) v := by
  unfold checkClasses
  split
  next ct hct =>
    have hpass := before.accumulated ct hct
    have judgement : ∀ row, judgementAt ts w row = (rowFindingAt ts w row).or
        (classFinding ts ct (successorsAt ts w) (mismatchesAt ts ct w pass) pass.moved row) := by
      intro row
      unfold judgementAt classFindingAt
      rw [hct]
      simp only [hpass]
    unfold classMismatches
    refine keeps_bind (R := fun mismatches u => FirstPassed ts w pass u ∧ mismatches = mismatchesAt ts ct w pass) ?_ ?_
    · refine keeps_bind (keep_classAggregates stable ct hI) ?_
      rintro _ v₁ hI₁ ⟨moves, rfl⟩
      have before₁ : FirstPassed ts w pass v₁ := ⟨before.examining.drift moves, before.accumulated,
        fun k row hr => (before.judged k row hr).drift moves⟩
      refine keeps_bind (keep_writeClassTotals stable closed _ hI₁ before₁) ?_
      intro _ v₂ hI₂ before₂
      refine keeps_pure hI₂ ⟨before₂, ?_⟩
      unfold mismatchesAt
      rw [← before.examining.plain, classAggregates_plain]
    · rintro _ v₁ hI₁ ⟨before₁, rfl⟩
      split
      next none =>
        refine keeps_pure hI₁ ⟨before₁.examining, ?_⟩
        intro k row hr
        rw [judgement, classFinding_empty none, Option.or_none]
        exact before₁.judged k row hr
      next =>
        have named : ∀ r ∈ plainRows (w.target ts.name), r.1 ≠ [] := before₁.examining.plain ▸ (own v₁ hI₁).named
        apply keep_iterStaging (J := fun _ last v => PassTwo ts w last v)
          (K := (w.target ts.name).staging.keys) stable batch.validateBatchRows_pos
        · exact fun u hu k row held => (own u hu k row held).1
        · exact fun _ _ u h => h.examining.keys
        · intro _ _ v u moves h
          exact ⟨h.examining.drift moves, fun k row hr after => (h.later k row hr after).drift moves,
            fun k row hr upto => (h.judged k row hr upto).drift moves⟩
        · intro _ last v page final hIv h hpage hlast
          exact keep_passTwo hct hpass stable closed hIv own converted h hpage hlast
        · intro _ last v _ h past
          exact ⟨h.examining, fun k row hr => h.judged k row hr (not_after (past k (plain_key hr)))⟩
        · exact hI₁
        · refine ⟨before₁.examining, fun k row hr _ => before₁.judged k row hr, ?_⟩
          intro k row hr upto
          exact absurd (compare_nil (named (k, row) hr)) upto
  next hct =>
    refine keeps_pure hI ⟨before.examining, ?_⟩
    intro k row hr
    unfold judgementAt classFindingAt
    rw [hct]
    simp only [Option.or_none]
    exact before.judged k row hr

theorem verdictOf_validated {row : StagedRow} {finding : Option Finding} :
    (verdictOf ts row finding).status = .validated ↔ finding = none := by
  cases finding with
  | none => simp [verdictOf, Candidate.validationRow]
  | some f => simp [verdictOf, Candidate.validationRow]

theorem Judged.isValidated {t : TargetTable} {row : StagedRow} {finding : Option Finding} (h : Judged ts t row finding) :
    isValidated t row.sourceKey = true ↔ finding = none := by
  unfold Migration.isValidated
  rw [h.verdict]
  simp [verdictOf_validated]

theorem mem_validatedStaged {t : TargetTable} {k : Key} {row : StagedRow} :
    (k, row) ∈ validatedStaged t ↔ t.staging[k]? = some row ∧ isValidated t k = true := by
  unfold validatedStaged
  rw [List.mem_filter, KeyMap.mem_toList]

/-- What a promotion finds VALIDATED has its hash, and agrees with the archive. -/
theorem Passed.clean (h : Passed ts w v) (own : KeysOk (v.target ts.name)) :
    ∀ k row, (k, row) ∈ validatedStaged (v.target ts.name) →
      row.rowHash = some (recordHash ts row) ∧ Clean ts v row := by
  intro k row hr
  obtain ⟨held, valid⟩ := mem_validatedStaged.mp hr
  have key := (own k row held).1
  have there := h.examining.held held
  have judged := Judged.plain.mp (h.judged k row.plain there)
  rw [← key] at valid held
  have found := judged.isValidated.mp valid
  refine ⟨judged.hashed row held, ?_⟩
  have first : rowFindingAt ts w row = none := (Option.or_eq_none_iff.mp found).1
  exact h.examining.clean ((rowFinding_none there key).mp first).1

theorem keep_promote (stable : D.Stable I) (closed : ∀ u v, ValidateMove ts u v → I u → I v)
    (own : ∀ u, I u → KeysOk (u.target ts.name)) (hI : I v) (before : Passed ts w v) :
    wp (D.weather F) (promote ts) (.keep I fun _ u => ∃ rows,
      u.target ts.name = { v.target ts.name with
        arch := (v.target ts.name).arch.upsertAll rows
        promoted := (v.target ts.name).promoted.addNew
          ((validatedStaged (v.target ts.name)).map fun row => (row.1, ())) } ∧
      promotion ts (v.target ts.name) = some rows) v := by
  unfold promote
  apply keeps_call (C := fun u => D.Moves v u)
  · exact fun u hu => ⟨stable v u hu hI, hu⟩
  · intro u hIu moves
    have passed : Passed ts w u := ⟨before.examining.drift moves, fun k row hr => (before.judged k row hr).drift moves⟩
    simp only
    split
    next => exact ⟨hIu, trivial⟩
    next rows found =>
      split
      next => exact ⟨hIu, trivial⟩
      next unique =>
        split
        next => exact ⟨hIu, trivial⟩
        next =>
          have distinct : (rows.map Prod.fst).Nodup := by
            by_contra doubled
            exact unique (Or.inl doubled)
          refine ⟨closed u _ (.promote rows found distinct (passed.clean (own u hIu))) hIu, rows, ?_, ?_⟩
          · rw [World.onTarget_self, moves.target]
          · rw [← moves.target]
            exact found
  · exact fun _ _ _ _ _ => ⟨trivial, trivial⟩

theorem keep_closeValidate (stable : D.Stable I) (closed : ∀ u v, ValidateMove ts u v → I u → I v) (hI : I v) :
    wp (D.weather F) (closeValidate ts) (.keep I fun _ u =>
      u.target ts.name = { v.target ts.name with ledger := { (v.target ts.name).ledger with
        validated := some ((v.target ts.name).validation.countIf fun v => v.status = .validated)
        validateFailed := some ((v.target ts.name).validation.countIf fun v => v.status = .failed) } } ∧
      (v.target ts.name).ledger.loaded = some (((v.target ts.name).validation.countIf fun v => v.status = .validated) +
        (v.target ts.name).validation.countIf fun v => v.status = .failed)) v := by
  unfold closeValidate countValidation updateLedger getLedger
  refine keeps_bind (keep_read stable hI) ?_
  rintro _ v₁ hI₁ ⟨moves₁, rfl⟩
  refine keeps_bind (keep_read stable hI₁) ?_
  rintro _ v₂ hI₂ ⟨moves₂, rfl⟩
  rw [moves₁.target]
  have same : v₂.target = v.target := (moves₁.trans moves₂).target
  refine keeps_bind (keep_write stable hI₂ ?_) ?_
  · intro u hu hIu
    refine closed u _ (.ledger _ _ ?_ ?_) hIu
    · rw [hu.target, same]
    · rw [hu.target, same]
  rintro _ _ hI₃ ⟨u, hu, rfl⟩
  refine keeps_bind (keep_read stable hI₃) ?_
  rintro _ v₄ hI₄ ⟨moves₄, rfl⟩
  have here : u.target = v.target := hu.target.trans same
  split
  next => exact keeps_throw hI₄ trivial
  next counted =>
    refine keeps_pure hI₄ ⟨?_, ?_⟩
    · rw [moves₄.target, World.onTarget_self, here]
      rfl
    · rw [World.onTarget_self, here] at counted
      simp only [not_not] at counted
      exact counted

/-- VALIDATE of one table returns only with every staged row judged, the VALIDATED ones promoted and the
ledger true. -/
theorem keep_validateTable (stable : D.Stable I) (closed : ∀ u v, ValidateMove ts u v → I u → I v)
    (own : ∀ u, I u → KeysOk (u.target ts.name))
    (converted : ∀ u, I u → ∀ (k : Key) (row : StagedRow), (u.target ts.name).staging[k]? = some row → Converted ts row)
    (lookup : ∀ u, I u → ∀ res, ts.classTotals.bind ClassTotals.sourceClassResolution = some res →
      KeysOk (u.target res.lookupTable)) (hI : I w) :
    wp (D.weather F) (validateTable batch ts) (.keep I fun _ v => ValidatedTable ts w (v.target ts.name)) w := by
  unfold validateTable
  refine keeps_bind (keep_rowChecks stable hI) ?_
  rintro _ v₁ hI₁ ⟨moves₁, rfl⟩
  refine keeps_bind (keep_successorMap stable hI₁ lookup) ?_
  rintro _ v₂ hI₂ ⟨moves₂, rfl⟩
  have same₁ : v₁.target = w.target := moves₁.target
  have same₂ : v₂.target = w.target := (moves₁.trans moves₂).target
  have successors : successorsAt ts v₁ = successorsAt ts w := by
    unfold successorsAt
    rw [same₁]
  rw [successors]
  refine keeps_bind (keep_firstPass stable closed own converted hI₂ same₂) ?_
  intro pass v₃ hI₃ first
  refine keeps_bind (keep_checkClasses stable closed own converted hI₃ first) ?_
  intro _ v₄ hI₄ passed
  refine keeps_bind (keep_promote stable closed own hI₄ passed) ?_
  rintro _ v₅ hI₅ ⟨rows, here, found⟩
  refine keep_mono (keep_closeValidate stable closed hI₅) ?_
  rintro _ v₆ hI₆ ⟨done, counted⟩
  have staged : (v₆.target ts.name).staging = (v₄.target ts.name).staging := by rw [done, here]
  have validated : (v₆.target ts.name).validation = (v₄.target ts.name).validation := by rw [done, here]
  have rejects : (v₆.target ts.name).rejects = (v₄.target ts.name).rejects := by rw [done, here]
  have plain : plainRows (v₆.target ts.name) = plainRows (w.target ts.name) := by
    rw [← passed.examining.plain]
    unfold plainRows
    rw [staged]
  refine ⟨plain, ?_, ?_, ⟨rows, ?_, ?_⟩, ?_, ?_⟩
  · rw [done, here]
    simp only
    rw [passed.examining.frame]
  · intro k row hr
    obtain ⟨verdict, hashed, failed, clean⟩ := passed.judged k row hr
    refine ⟨?_, ?_, ?_, ?_⟩
    · rw [validated]
      exact verdict
    · rw [staged]
      exact hashed
    · rw [rejects]
      exact failed
    · rw [rejects]
      exact clean
  · rw [← found]
    unfold promotion validatedStaged isValidated
    simp only [staged, validated, passed.examining.arch]
  · rw [done, here]
    simp only
    rw [passed.examining.arch]
  · intro k hk valid
    have promoted : (v₆.target ts.name).promoted = (v₄.target ts.name).promoted.addNew
        ((validatedStaged (v₄.target ts.name)).map fun row => (row.1, ())) := by rw [done, here]
    rw [promoted, KeyMap.mem_addNew]
    right
    rw [staged, ← Std.ExtTreeMap.isSome_getElem?_iff_mem] at hk
    obtain ⟨row, held⟩ := Option.isSome_iff_exists.mp hk
    rw [List.map_map]
    refine List.mem_map.mpr ⟨(k, row), mem_validatedStaged.mpr ⟨held, ?_⟩, rfl⟩
    unfold isValidated at valid ⊢
    rw [← validated]
    exact valid
  · rw [done]
    exact counted

end

end OtterWorks.Migration
