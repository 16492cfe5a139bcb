import OtterWorks.Migration.ClassSides
import OtterWorks.Migration.Conservation
import OtterWorks.Migration.HashedRecords

namespace OtterWorks.Migration

/-! Manifests that differ in their value maps. -/

def ColumnSpec.SameButMap (a b : ColumnSpec) : Prop := ∃ valueMap, b = { a with valueMap := valueMap }

/-- A table whose records `convert_record` reads by these columns. -/
structure TableSpec.ReadBy (ts : TableSpec) (ct : ClassTotals) (codecs : Codecs) (specs : List ColumnSpec) : Prop where
  convert : ts.convert = convertRecord codecs specs
  classTotals : ts.classTotals = some ct
  valueMap : ∀ spec ∈ specs, spec.name = ct.classColumn → ts.valueMap = spec.valueMap

/-- A table of two manifests that differ only in their value maps. -/
structure DifferInMaps (codecs : Codecs) (ct : ClassTotals) (t₁ t₂ : TableSpec) : Prop where
  columns : ∃ specs₁ specs₂, t₁.ReadBy ct codecs specs₁ ∧ t₂.ReadBy ct codecs specs₂ ∧
    List.Forall₂ ColumnSpec.SameButMap specs₁ specs₂
  name : t₂.name = t₁.name
  refuses : t₂.refuses = t₁.refuses

section

variable {codecs : Codecs} {a b spec : ColumnSpec} {specs₁ specs₂ : List ColumnSpec} {raw : Bytes} {record : Raw}
  {value source : Value} {rec rec' : ConvertedColumns} {k : Key} {values texts : Fields}

theorem ColumnSpec.SameButMap.symm (same : a.SameButMap b) : b.SameButMap a := by
  obtain ⟨valueMap, rfl⟩ := same
  exact ⟨a.valueMap, rfl⟩

theorem convertChar_mapped (same : a.SameButMap b) {s : Text} (h : convertChar a raw s = .ok (value, source)) :
    (∃ value', convertChar b raw s = .ok (value', source)) ∨ b.targetLength ≠ 0 ∧
      ∃ rule message sqlstate, convertChar b raw s = .error (.reject rule message sqlstate) := by
  obtain ⟨valueMap, rfl⟩ := same
  unfold convertChar at h ⊢
  split at h
  next => cases h
  next =>
    simp only at h ⊢
    split at h
    next => cases h
    next =>
      cases h
      split
      next limited => exact Or.inr ⟨limited.1, _, _, _, rfl⟩
      next => exact Or.inl ⟨_, rfl⟩

/-- A field that one map converts, another converts from the same source text, unless its column is too short. -/
theorem convertField_mapped (same : a.SameButMap b) (h : convertField codecs a raw = .ok (value, source)) :
    (∃ value', convertField codecs b raw = .ok (value', source)) ∨ b.targetLength ≠ 0 ∧
      ∃ rule message sqlstate, convertField codecs b raw = .error (.reject rule message sqlstate) := by
  have mapped := @convertChar_mapped a b raw value source same
  obtain ⟨valueMap, rfl⟩ := same
  cases a with
  | mk name field targetType kind isKey encoding trim _ precision scale length precision_le scale_eq =>
    cases kind with
    | char =>
      unfold convertField at h ⊢
      simp only at h ⊢
      cases decoded : decodeField codecs encoding raw with
      | error e =>
        rw [decoded] at h
        cases h
      | ok result =>
        rw [decoded] at h
        cases result with
        | error e => cases h
        | ok s => exact mapped h
    | binary => exact Or.inl ⟨value, h⟩
    | date8 => exact Or.inl ⟨value, h⟩
    | timestamp12 => exact Or.inl ⟨value, h⟩
    | int => exact Or.inl ⟨value, h⟩
    | decimal => exact Or.inl ⟨value, h⟩

theorem convertColumns_mapped (same : List.Forall₂ ColumnSpec.SameButMap specs₁ specs₂)
    (texts : rec'.sourceText = rec.sourceText) {out : ConvertedColumns}
    (h : specs₁.foldlM (convertColumn codecs record) rec = .ok out) :
    (∃ out', specs₂.foldlM (convertColumn codecs record) rec' = .ok out' ∧ out'.sourceText = out.sourceText) ∨
      ∃ spec ∈ specs₂, spec.targetLength ≠ 0 ∧ ∃ rule message sqlstate,
        specs₂.foldlM (convertColumn codecs record) rec' = .error (spec, .reject rule message sqlstate) := by
  induction same generalizing rec rec' with
  | nil =>
    cases h
    exact Or.inl ⟨rec', rfl, texts⟩
  | @cons a b specs₁ specs₂ same _ ih =>
    rw [List.foldlM_cons] at h ⊢
    obtain ⟨next, first, rest⟩ := bind_ok h
    have slice : b.field.slice record = a.field.slice record := by
      obtain ⟨valueMap, rfl⟩ := same
      rfl
    have name : b.name = a.name := by
      obtain ⟨valueMap, rfl⟩ := same
      rfl
    unfold convertColumn at first
    split at first
    next => cases first
    next value source made =>
      cases first
      rcases convertField_mapped same made with ⟨value', made'⟩ | ⟨limited, rule, message, sqlstate, rejected⟩
      · have here : convertColumn codecs record rec' b =
            .ok ⟨assign b.name value' rec'.values, assign b.name source rec'.sourceText⟩ := by
          rw [convertColumn, slice, made']
        rw [here]
        refine (ih (by simp only [name, texts]) rest).imp_right ?_
        rintro ⟨spec, member, later⟩
        exact ⟨spec, List.mem_cons_of_mem _ member, later⟩
      · have here : convertColumn codecs record rec' b = .error (b, .reject rule message sqlstate) := by
          rw [convertColumn, slice, rejected]
        rw [here]
        exact Or.inr ⟨b, List.mem_cons_self .., limited, rule, message, sqlstate, rfl⟩

theorem sourceKeyOf_mapped (same : List.Forall₂ ColumnSpec.SameButMap specs₁ specs₂) :
    sourceKeyOf codecs record specs₂ = sourceKeyOf codecs record specs₁ := by
  unfold sourceKeyOf
  congr 1
  induction same with
  | nil => rfl
  | @cons a b specs₁ specs₂ same _ ih =>
    have part : decodeKeyPart codecs record b = decodeKeyPart codecs record a := by
      obtain ⟨valueMap, rfl⟩ := same
      rfl
    have key : b.isKey = a.isKey := by
      obtain ⟨valueMap, rfl⟩ := same
      rfl
    rw [List.filter_cons, List.filter_cons, key]
    split
    next => rw [List.mapM_cons, List.mapM_cons, part, ih]
    next => exact ih

/-- A record that one manifest converts, the other converts from the same source text, or LOAD rejects it there. -/
theorem convertRecord_mapped (same : List.Forall₂ ColumnSpec.SameButMap specs₁ specs₂)
    (h : convertRecord codecs specs₁ record = .ok k values texts) :
    (∃ values', convertRecord codecs specs₂ record = .ok k values' texts) ∨
      (∃ spec ∈ specs₂, spec.targetLength ≠ 0) ∧ ∃ error, convertRecord codecs specs₂ record = .malformed k error := by
  unfold convertRecord at h ⊢
  rw [sourceKeyOf_mapped same]
  split at h
  next => cases h
  next key _ =>
    split at h
    next rec made =>
      cases h
      rcases @convertColumns_mapped codecs specs₁ specs₂ record ⟨[], []⟩ ⟨[], []⟩ same rfl rec made with
        ⟨rec', made', text⟩ | ⟨spec, member, limited, rule, message, sqlstate, rejected⟩
      · rw [made', ← text]
        exact Or.inl ⟨rec'.values, rfl⟩
      · rw [rejected]
        exact Or.inr ⟨⟨spec, member, limited⟩, _, rfl⟩
    next => cases h
    next => cases h

variable {ct : ClassTotals} {t₁ t₂ : TableSpec}

theorem DifferInMaps.symm (differ : DifferInMaps codecs ct t₁ t₂) : DifferInMaps codecs ct t₂ t₁ := by
  obtain ⟨⟨specs₁, specs₂, first, second, same⟩, name, refuses⟩ := differ
  refine ⟨⟨specs₂, specs₁, second, first, ?_⟩, name.symm, refuses.symm⟩
  exact (List.Forall₂.imp (fun _ _ => ColumnSpec.SameButMap.symm) same).flip

theorem DifferInMaps.converts (differ : DifferInMaps codecs ct t₁ t₂) (h : t₁.convert record = .ok k values texts) :
    (∃ values', t₂.convert record = .ok k values' texts) ∨ ∃ error, t₂.convert record = .malformed k error := by
  obtain ⟨⟨specs₁, specs₂, first, second, same⟩, _, _⟩ := differ
  rw [first.convert] at h
  rw [second.convert]
  exact (convertRecord_mapped same h).imp_right And.right

end

/-! What LOAD stages of a file. -/

def readsAs (ts : TableSpec) (k : Key) (raw : Raw) : Bool :=
  match ts.convert raw with
  | .ok key _ _ => key = k
  | _ => false

def takes (ts : TableSpec) (raw : Raw) : Bool :=
  match ts.convert raw with
  | .ok _ values _ => (ts.refuses values).isNone
  | _ => false

def rowOf (ts : TableSpec) (rangeSeq : Nat) (raw : Raw) : Option StagedRow :=
  match ts.convert raw with
  | .ok k values _ => some ⟨k, rangeSeq, raw, values, none⟩
  | _ => none

def stagingOf (ts : TableSpec) (rangeSeq : Nat) (file : List Raw) : KeyMap Key StagedRow :=
  KeyMap.upsertAll ∅ (stagedEntries (accepted ts ∅ (rowsOf (keptRecords ts rangeSeq file))))

def stagedRows (ts : TableSpec) (rangeSeq : Nat) (file : List Raw) : List StagedRow :=
  (stagingOf ts rangeSeq file).toList.map Prod.snd

section

variable {ts : TableSpec} {rangeSeq : Nat} {file : List Raw} {k : Key} {raw : Raw} {row : StagedRow}

theorem rowsOf_routedFrom (first : Nat) : rowsOf (routedFrom ts rangeSeq first file) = file.filterMap (rowOf ts rangeSeq) := by
  induction file generalizing first with
  | nil => rfl
  | cons raw file ih =>
    have later := ih (first + 1)
    unfold rowsOf routedFrom at later ⊢
    rw [List.zipIdx_cons, List.filterMap_cons, List.filterMap_cons, ← later]
    unfold convertRecordAt rowOf
    cases ts.convert raw with
    | undecodable e => rfl
    | malformed k err => rfl
    | ok k values source => rfl

theorem rowOf_any : ((rowOf ts rangeSeq raw).any fun row => row.sourceKey = k) = readsAs ts k raw := by
  unfold rowOf readsAs
  cases ts.convert raw with
  | undecodable e => rfl
  | malformed k' err => rfl
  | ok k' values source => rfl

theorem stagingError_fresh : stagingError ts ∅ row = (ts.refuses row.values).map fun e => ⟨row.sourceKey, e.1, e.2.1, e.2.2⟩ := by
  rw [stagingError, if_neg Std.ExtTreeMap.not_mem_empty]

/-- LOAD stages the first well-formed record of a key, if the target takes it. -/
theorem getElem?_stagingOf : (stagingOf ts rangeSeq file)[k]?.map StagedRow.rawBytes =
    (file.find? (readsAs ts k)).filter (takes ts) := by
  have distinct : ((stagedEntries (accepted ts ∅ (rowsOf (keptRecords ts rangeSeq file)))).map Prod.fst).Nodup := by
    rw [stagedEntries_keys]
    exact keptRecords_distinct.sublist ((accepted_sublist ..).map _)
  have first := @kept_row ts rangeSeq file k
  rw [routedRecords, rowsOf_routedFrom, List.find?_filterMap] at first
  simp only [rowOf_any] at first
  have one : ((accepted ts ∅ (rowsOf (keptRecords ts rangeSeq file))).find? fun row => row.sourceKey = k) =
      (((file.find? (readsAs ts k)).bind (rowOf ts rangeSeq)).filter fun row => (stagingError ts ∅ row).isNone) := by
    unfold accepted
    rw [← List.head?_filter, List.filter_comm, first]
    cases (file.find? (readsAs ts k)).bind (rowOf ts rangeSeq) with
    | none => rfl
    | some row =>
      rw [Option.toList_some, Option.filter_some, List.filter_cons]
      split
      next => rfl
      next => rfl
  unfold stagingOf
  rw [KeyMap.upsertAll_eq_addNew distinct fun _ _ => Std.ExtTreeMap.not_mem_empty, KeyMap.getElem?_addNew,
    Std.ExtTreeMap.getElem?_empty, Option.none_or, stagedEntries, List.find?_map, Option.map_map,
    Option.map_map]
  change Option.map StagedRow.rawBytes ((accepted ts ∅ (rowsOf (keptRecords ts rangeSeq file))).find?
    fun row => row.sourceKey = k) = _
  rw [one]
  cases found : file.find? (readsAs ts k) with
  | none => rfl
  | some raw =>
    have reads := List.find?_some found
    rw [Option.bind_some, Option.filter_some]
    unfold readsAs at reads
    unfold rowOf takes
    cases converted : ts.convert raw with
    | undecodable e =>
      rw [converted] at reads
      cases reads
    | malformed k' err =>
      rw [converted] at reads
      cases reads
    | ok k' values source =>
      simp only [Option.filter_some, stagingError_fresh, Option.isNone_map]
      split
      next => rfl
      next => rfl

/-- LOAD of a range leaves this staged. -/
theorem loadRange_stagingOf {engine : LoadEngine} (sized : engine.Sized) {batch : BatchConfig} {rng : KeyRange} {w u : World}
    {counts : Nat × Nat} (held : (w.target ts.name).files[rng.rangeSeq]? = some file)
    (empty : (w.target ts.name).staging = ∅) (loaded : (loadRange engine batch ts rng).eval w = (.ok counts, u)) :
    (u.target ts.name).staging = stagingOf ts rng.rangeSeq file ∧ Decodable ts file := by
  obtain ⟨counted, decodes⟩ := loadRange_returns sized held loaded
  refine ⟨?_, decodes⟩
  have ran := @eval_engineLoad batch ts rng.rangeSeq file engine sized decodes (w.onTarget ts.name (begun rng))
  rw [World.onTarget_self] at ran
  obtain ⟨v, hv, staging, _⟩ := eval_loadRange held counted ran
  rw [loaded] at hv
  obtain ⟨_, rfl⟩ := Prod.mk.inj hv
  have cleared : (begun rng (w.target ts.name)).staging = ∅ := by
    unfold begun
    by_cases running : rng.loadStatus = .running
    · simp only [if_pos running, empty]
      apply Std.ExtTreeMap.ext_getElem?
      intro k
      rw [Std.ExtTreeMap.getElem?_filter', Std.ExtTreeMap.getElem?_empty, Option.filter_none]
    · simp only [if_neg running, empty]
  have rows := (@flushes_contents batch ts rng.rangeSeq file engine).1
  rw [staging, applyFlushes, cleared, stagingOf]
  apply KeyMap.upsertAll_perm
  · rw [stagedEntries_keys]
    exact ((rows.map StagedRow.sourceKey).nodup_iff.mpr keptRecords_distinct).sublist ((accepted_sublist ..).map _)
  · exact (rows.filter _).map _

end

/-! The class totals of the source side. -/

/-- The staged rows of the lookup table as a map from codes to their last successors that are not blank. -/
def successorsFrom (ct : ClassTotals) (policies : List StagedRow) : KeyMap Text Text :=
  match ct.sourceClassResolution with
  | none => ∅
  | some res => successorsOf res policies ∅

def stagedSuccessor (ct : ClassTotals) (policies : List StagedRow) (code : Text) : Option Text :=
  match ct.sourceClassResolution with
  | none => none
  | some res => ((policies.filter fun r => rtrim (r.values.get res.lookupKey).shown = code).map fun r =>
      rtrim (r.values.get res.successorColumn).str).reverse.find? fun succ => !succ.isEmpty

def sourceTotals (ts : TableSpec) (ct : ClassTotals) (successors : KeyMap Text Text) (rows : List StagedRow) :
    Except JobError (KeyMap Text ClassSide) :=
  ((rows.map (candidateOf ts)).foldlM (ClassPass.add ts ct successors) ⟨∅, []⟩).map ClassPass.src

section

variable {ct : ClassTotals} {ts t₁ t₂ : TableSpec} {w : World} {policies : List StagedRow} {code : Text}
  {S₁ S₂ : KeyMap Text Text} {rows rows₁ rows₂ : List StagedRow} {row : StagedRow} {c₁ c₂ : Candidate} {pass₁ pass₂ : ClassPass}

theorem classPassAt_src : (classPassAt ts ct w).map ClassPass.src =
    sourceTotals ts ct (successorsAt ts w) ((plainRows (w.target ts.name)).map Prod.snd) := by
  unfold classPassAt sourceTotals
  rw [List.map_map]
  rfl

theorem sourceTotals_plain : sourceTotals ts ct S₁ (rows.map StagedRow.plain) = sourceTotals ts ct S₁ rows := by
  unfold sourceTotals
  rw [List.map_map, List.foldlM_map, List.foldlM_map]
  rfl

/-- What VALIDATE finds after LOAD of a file. -/
theorem loaded_totals {engine : LoadEngine} (sized : engine.Sized) {batch : BatchConfig} {rng : KeyRange} {u : World}
    {counts : Nat × Nat} {file : List Raw} (held : (w.target ts.name).files[rng.rangeSeq]? = some file)
    (empty : (w.target ts.name).staging = ∅) (loaded : (loadRange engine batch ts rng).eval w = (.ok counts, u)) :
    (classPassAt ts ct u).map ClassPass.src = sourceTotals ts ct (successorsAt ts u) (stagedRows ts rng.rangeSeq file) := by
  have rows : (plainRows (u.target ts.name)).map Prod.snd = (stagedRows ts rng.rangeSeq file).map StagedRow.plain := by
    rw [stagedRows, ← (loadRange_stagingOf sized held empty loaded).1, plainRows, List.map_map, List.map_map]
    rfl
  rw [classPassAt_src, rows, sourceTotals_plain]

theorem getElem?_successorsFrom : (successorsFrom ct policies)[code]? = stagedSuccessor ct policies code := by
  unfold successorsFrom stagedSuccessor
  cases ct.sourceClassResolution with
  | none => rfl
  | some res =>
    simp only
    unfold successorsOf
    induction policies using List.reverseRecOn with
    | nil => rfl
    | append_singleton policies r ih =>
      rw [List.foldl_append, List.filter_append, List.map_append, List.reverse_append, List.find?_append, ← ih,
        List.foldl_cons, List.foldl_nil, List.filter_cons]
      by_cases blank : (rtrim (r.values.get res.successorColumn).str).isEmpty = true
      · by_cases here : rtrim (r.values.get res.lookupKey).shown = code
        · simp [blank, here]
        · simp [blank, here]
      · by_cases here : rtrim (r.values.get res.lookupKey).shown = code
        · simp [blank, here]
        · simp [blank, here, Std.ExtTreeMap.getElem?_insert]

/-- The class that a code without a successor comes to. -/
def mappedTo (valueMap : List (Text × Text)) (code : Text) : Text := (valueMap.lookup code).getD code

/-- What the two manifests make of a code comes to the same class: the staged successor, else the value map's entry. -/
def AgreesOn (m₁ m₂ : List (Text × Text)) (s₁ s₂ : Option Text) (code : Text) : Prop :=
  match s₁, s₂ with
  | some a, some b => a = b
  | some a, none => mappedTo m₂ code = a
  | none, some b => mappedTo m₁ code = b
  | none, none => mappedTo m₁ code = mappedTo m₂ code

theorem sourceClass_agrees {raw : Text} {m₁ m₂ : List (Text × Text)} :
    sourceClass raw m₁ S₁ = sourceClass raw m₂ S₂ ↔ AgreesOn m₁ m₂ S₁[rtrim raw]? S₂[rtrim raw]? (rtrim raw) := by
  unfold sourceClass AgreesOn mappedTo
  cases S₁[rtrim raw]? with
  | none =>
    cases S₂[rtrim raw]? with
    | none => exact Iff.rfl
    | some b => exact Iff.rfl
  | some a =>
    cases S₂[rtrim raw]? with
    | none => exact eq_comm
    | some b => exact Iff.rfl

/-- One step adds the same side to both if the two source texts come to one class. -/
theorem classAdd_agrees (src : pass₁.src = pass₂.src) (values : c₁.sourceValues = c₂.sourceValues)
    (same : (∀ col ∈ ct.sumColumns, ∃ d, c₁.sourceValues.get col = .decimal d) →
      c₁.sourceClass t₁ ct S₁ = c₂.sourceClass t₂ ct S₂) :
    (pass₁.add t₁ ct S₁ c₁).map ClassPass.src = (pass₂.add t₂ ct S₂ c₂).map ClassPass.src := by
  have sums : sumValues ct c₁ = sumValues ct c₂ := by
    unfold sumValues
    rw [values]
  unfold ClassPass.add
  rw [← sums, ← src]
  cases read : sumValues ct c₁ with
  | error e => simp only [bind, Except.bind, Except.map]
  | ok amounts =>
    have class_ := same (sumValues_iff.mp read).2
    simp only [class_, bind, Except.bind, pure, Except.pure, Except.map]

/-- Two lists of rows that come to the same texts and classes come to the same totals. -/
theorem sourceTotals_agree (each : List.Forall₂ (fun r₁ r₂ => sourceOf t₁ r₁ = sourceOf t₂ r₂ ∧
      ((∀ col ∈ ct.sumColumns, ∃ d, (sourceOf t₁ r₁).get col = .decimal d) →
        (candidateOf t₁ r₁).sourceClass t₁ ct S₁ = (candidateOf t₂ r₂).sourceClass t₂ ct S₂)) rows₁ rows₂) :
    sourceTotals t₁ ct S₁ rows₁ = sourceTotals t₂ ct S₂ rows₂ := by
  have folds : ∀ pass₁ pass₂ : ClassPass, pass₁.src = pass₂.src →
      ((rows₁.map (candidateOf t₁)).foldlM (ClassPass.add t₁ ct S₁) pass₁).map ClassPass.src =
        ((rows₂.map (candidateOf t₂)).foldlM (ClassPass.add t₂ ct S₂) pass₂).map ClassPass.src := by
    induction each with
    | nil =>
      intro pass₁ pass₂ src
      exact congrArg Except.ok src
    | @cons r₁ r₂ rows₁ rows₂ first _ ih =>
      intro pass₁ pass₂ src
      have step := @classAdd_agrees ct t₁ t₂ S₁ S₂ (candidateOf t₁ r₁) (candidateOf t₂ r₂) pass₁ pass₂ src first.1 first.2
      rw [List.map_cons, List.map_cons, List.foldlM_cons, List.foldlM_cons]
      cases left : pass₁.add t₁ ct S₁ (candidateOf t₁ r₁) with
      | error e =>
        cases right : pass₂.add t₂ ct S₂ (candidateOf t₂ r₂) with
        | error e' =>
          rw [left, right] at step
          cases step
          rfl
        | ok next₂ =>
          rw [left, right] at step
          cases step
      | ok next₁ =>
        cases right : pass₂.add t₂ ct S₂ (candidateOf t₂ r₂) with
        | error e' =>
          rw [left, right] at step
          cases step
        | ok next₂ =>
          rw [left, right] at step
          exact ih next₁ next₂ (Except.ok.inj step)
  exact folds ⟨∅, []⟩ ⟨∅, []⟩ rfl

/-- Rows leave a side of the first row's class. -/
theorem sourceTotals_cons_ne : sourceTotals ts ct S₁ (row :: rows) ≠ .ok ∅ := by
  intro none
  unfold sourceTotals at none
  cases folded : ((row :: rows).map (candidateOf ts)).foldlM (ClassPass.add ts ct S₁) ⟨∅, []⟩ with
  | error e =>
    rw [folded] at none
    cases none
  | ok pass =>
    rw [folded] at none
    have src : pass.src = ∅ := Except.ok.inj none
    have side := classFold_side folded ((candidateOf ts row).sourceClass ts ct S₁)
    rw [src, Std.ExtTreeMap.getElem?_empty, List.map_cons, inGroup_cons_same rfl, if_neg (List.cons_ne_nil _ _)] at side
    cases side

theorem sourceTotals_one (decimals : ∀ col ∈ ct.sumColumns, ∃ d, (sourceOf ts row).get col = .decimal d) :
    ∃ side, sourceTotals ts ct S₁ [row] =
      .ok ((∅ : KeyMap Text ClassSide).insert ((candidateOf ts row).sourceClass ts ct S₁) side) := by
  have first : ClassPass.add ts ct S₁ ⟨∅, []⟩ (candidateOf ts row) = .ok _ := classAdd_ok.mpr ⟨decimals, rfl⟩
  unfold sourceTotals
  rw [List.map_singleton, List.foldlM_cons, first]
  exact ⟨_, rfl⟩

end

/-- The two manifests stage the same records of every file that LOAD reads. -/
structure SameCandidates (t₁ t₂ : TableSpec) : Prop where
  taken : ∀ raw, takes t₁ raw = takes t₂ raw
  first : ∀ k raw raw', readsAs t₁ k raw' = true → takes t₁ raw' = true → readsAs t₁ k raw = readsAs t₂ k raw

/-- A code that a staged record carries, whose amounts are decimals. -/
def Carries (ts : TableSpec) (ct : ClassTotals) (code : Text) : Prop :=
  ∃ raw k values source, ts.convert raw = .ok k values source ∧ takes ts raw = true ∧
    (∀ col ∈ ct.sumColumns, ∃ d, source.get col = .decimal d) ∧ rtrim (source.get ct.classColumn).str = code

section

variable {codecs : Codecs} {ct : ClassTotals} {t₁ t₂ : TableSpec} {rangeSeq : Nat} {file : List Raw} {raw raw' : Raw} {k : Key}
  {S₁ S₂ : KeyMap Text Text}

theorem readsAs_iff {ts : TableSpec} : readsAs ts k raw = true ↔ ∃ values source, ts.convert raw = .ok k values source := by
  unfold readsAs
  cases ts.convert raw with
  | undecodable e =>
    constructor
    · intro h
      cases h
    · intro h
      obtain ⟨_, _, h⟩ := h
      cases h
  | malformed k' err =>
    constructor
    · intro h
      cases h
    · intro h
      obtain ⟨_, _, h⟩ := h
      cases h
  | ok k' values source =>
    constructor
    · intro h
      rw [of_decide_eq_true h]
      exact ⟨values, source, rfl⟩
    · intro h
      obtain ⟨_, _, h⟩ := h
      cases h
      exact decide_eq_true rfl

theorem takes_reads {ts : TableSpec} (h : takes ts raw = true) : ∃ k, readsAs ts k raw = true := by
  unfold takes at h
  cases converted : ts.convert raw with
  | undecodable e =>
    rw [converted] at h
    cases h
  | malformed k' err =>
    rw [converted] at h
    cases h
  | ok k values source => exact ⟨k, readsAs_iff.mpr ⟨values, source, converted⟩⟩

theorem readsAs_key {ts : TableSpec} {k' : Key} (h : readsAs ts k raw = true) (h' : readsAs ts k' raw = true) : k = k' := by
  obtain ⟨values, source, converted⟩ := readsAs_iff.mp h
  obtain ⟨values', source', converted'⟩ := readsAs_iff.mp h'
  rw [converted] at converted'
  cases converted'
  rfl

theorem SameCandidates.records (same : SameCandidates t₁ t₂) :
    (file.find? (readsAs t₁ k)).filter (takes t₁) = (file.find? (readsAs t₂ k)).filter (takes t₂) := by
  by_cases some : ∃ raw', readsAs t₁ k raw' = true ∧ takes t₁ raw' = true
  · obtain ⟨raw', reads, taken⟩ := some
    rw [funext fun raw => same.first k raw raw' reads taken, funext same.taken]
  · have left : (file.find? (readsAs t₁ k)).filter (takes t₁) = none := by
      rw [Option.filter_eq_none_iff]
      intro raw found taken
      exact some ⟨raw, List.find?_some found, taken⟩
    have right : (file.find? (readsAs t₂ k)).filter (takes t₂) = none := by
      rw [Option.filter_eq_none_iff]
      intro raw found taken
      have taken₁ : takes t₁ raw = true := (same.taken raw).trans taken
      obtain ⟨k', reads⟩ := takes_reads taken₁
      have reads₂ : readsAs t₂ k' raw = true := (same.first k' raw raw reads taken₁).symm.trans reads
      exact some ⟨raw, readsAs_key reads₂ (List.find?_some found) ▸ reads, taken₁⟩
    rw [left, right]

/-- The two stagings hold the same records under the same keys. -/
theorem SameCandidates.rows (same : SameCandidates t₁ t₂) :
    (stagedRows t₁ rangeSeq file).map StagedRow.rawBytes = (stagedRows t₂ rangeSeq file).map StagedRow.rawBytes := by
  have maps : (stagingOf t₁ rangeSeq file).map (fun _ row => row.rawBytes) =
      (stagingOf t₂ rangeSeq file).map fun _ row => row.rawBytes := by
    apply Std.ExtTreeMap.ext_getElem?
    intro k
    rw [Std.ExtTreeMap.getElem?_map, Std.ExtTreeMap.getElem?_map]
    exact getElem?_stagingOf.trans (same.records.trans getElem?_stagingOf.symm)
  have lists := congrArg (fun m : KeyMap Key Raw => m.toList.map Prod.snd) maps
  simp only [Std.ExtTreeMap.toList_map, List.map_map] at lists
  unfold stagedRows
  rw [List.map_map, List.map_map]
  exact lists

theorem mem_stagedRows {ts : TableSpec} {row : StagedRow} (h : row ∈ stagedRows ts rangeSeq file) :
    ∃ k, readsAs ts k row.rawBytes = true ∧ takes ts row.rawBytes = true := by
  obtain ⟨⟨k, row⟩, held, rfl⟩ := List.mem_map.mp h
  have found := @getElem?_stagingOf ts rangeSeq file k
  rw [KeyMap.mem_toList.mp held, Option.map_some, eq_comm, Option.filter_eq_some_iff] at found
  exact ⟨k, List.find?_some found.1, found.2⟩

/-- The source text of a record is the same under both manifests. -/
theorem DifferInMaps.source (differ : DifferInMaps codecs ct t₁ t₂) {r₁ r₂ : StagedRow} (same : r₁.rawBytes = r₂.rawBytes)
    (first : readsAs t₁ k r₁.rawBytes = true) {k' : Key} (second : readsAs t₂ k' r₂.rawBytes = true) :
    sourceOf t₁ r₁ = sourceOf t₂ r₂ := by
  obtain ⟨values, source, converted⟩ := readsAs_iff.mp first
  obtain ⟨values', source', converted'⟩ := readsAs_iff.mp second
  unfold sourceOf
  rcases differ.converts converted with ⟨mapped, made⟩ | ⟨error, rejected⟩
  · rw [converted, ← same, made]
  · rw [← same, rejected] at converted'
    cases converted'

theorem DifferInMaps.totals_agree (differ : DifferInMaps codecs ct t₁ t₂) (same : SameCandidates t₁ t₂)
    (agree : ∀ code, Carries t₁ ct code → AgreesOn t₁.valueMap t₂.valueMap S₁[code]? S₂[code]? code) :
    sourceTotals t₁ ct S₁ (stagedRows t₁ rangeSeq file) = sourceTotals t₂ ct S₂ (stagedRows t₂ rangeSeq file) := by
  have rows := @SameCandidates.rows t₁ t₂ rangeSeq file same
  rw [← List.forall₂_eq_eq_eq, List.forall₂_map_left_iff, List.forall₂_map_right_iff, List.forall₂_iff_zip] at rows
  apply sourceTotals_agree
  rw [List.forall₂_iff_zip]
  refine ⟨rows.1, ?_⟩
  intro r₁ r₂ zipped
  have raw : r₁.rawBytes = r₂.rawBytes := rows.2 zipped
  obtain ⟨left, right⟩ := List.of_mem_zip zipped
  obtain ⟨k₁, reads₁, takes₁⟩ := mem_stagedRows left
  obtain ⟨k₂, reads₂, _⟩ := mem_stagedRows right
  have source := differ.source raw reads₁ reads₂
  refine ⟨source, fun decimals => ?_⟩
  obtain ⟨values, texts, converted⟩ := readsAs_iff.mp reads₁
  have texts_eq : sourceOf t₁ r₁ = texts := by rw [sourceOf, converted]
  have here := agree _ ⟨r₁.rawBytes, k₁, values, texts, converted, takes₁, texts_eq ▸ decimals, rfl⟩
  rw [← texts_eq] at here
  change sourceClass ((sourceOf t₁ r₁).get ct.classColumn).str t₁.valueMap S₁ =
    sourceClass ((sourceOf t₂ r₂).get ct.classColumn).str t₂.valueMap S₂
  rw [← source]
  exact sourceClass_agrees.mpr here

theorem stagedRows_eq_nil {ts : TableSpec} : stagedRows ts rangeSeq file = [] ↔
    ∀ k raw, file.find? (readsAs ts k) = some raw → takes ts raw = false := by
  have held : ∀ k, (stagingOf ts rangeSeq file)[k]? = none ↔
      ∀ raw, file.find? (readsAs ts k) = some raw → takes ts raw = false := by
    intro k
    rw [← Option.map_eq_none_iff, getElem?_stagingOf, Option.filter_eq_none_iff]
    simp only [Bool.not_eq_true]
  rw [← forall_congr' held, stagedRows, List.map_eq_nil_iff]
  constructor
  · intro none k
    by_contra some
    obtain ⟨row, held⟩ := Option.ne_none_iff_exists'.mp some
    have member := KeyMap.mem_toList.mpr held
    rw [none] at member
    cases member
  · intro none
    apply List.eq_nil_iff_forall_not_mem.mpr
    rintro ⟨k, row⟩ member
    have held := KeyMap.mem_toList.mp member
    rw [none k] at held
    cases held

theorem stagedRows_one {ts : TableSpec} (taken : takes ts raw = true) :
    ∃ row, stagedRows ts rangeSeq [raw] = [row] ∧ row.rawBytes = raw := by
  obtain ⟨k, reads⟩ := takes_reads taken
  obtain ⟨values, source, converted⟩ := readsAs_iff.mp reads
  unfold takes at taken
  rw [converted] at taken
  have kept : rowsOf (keptRecords ts rangeSeq [raw]) = [⟨k, rangeSeq, raw, values, none⟩] := by
    simp [keptRecords, routedRecords, routedFrom, convertRecordAt, converted, keepUnseen, rowsOf, Except.toOption]
  refine ⟨⟨k, rangeSeq, raw, values, none⟩, ?_, rfl⟩
  have fits : accepted ts ∅ [⟨k, rangeSeq, raw, values, none⟩] = [⟨k, rangeSeq, raw, values, none⟩] := by
    simp only [accepted, List.filter_cons, stagingError_fresh, Option.isNone_map]
    rw [if_pos taken]
    rfl
  rw [stagedRows, stagingOf, kept, fits]
  rfl

theorem insert_inj {m : KeyMap Text ClassSide} {a b : Text} {x y : ClassSide} (none : m = ∅)
    (same : m.insert a x = m.insert b y) : a = b := by
  have held : (m.insert b y)[a]? = some x := by rw [← same, Std.ExtTreeMap.getElem?_insert_self]
  rw [Std.ExtTreeMap.getElem?_insert, none, Std.ExtTreeMap.getElem?_empty] at held
  split at held
  next equal => exact (Std.LawfulEqOrd.compare_eq_iff_eq.mp equal).symm
  next => cases held

/-- LOAD reads to the end what the other manifest's LOAD converts. -/
theorem DifferInMaps.decodable (differ : DifferInMaps codecs ct t₁ t₂) (each : ∀ raw ∈ file, ∃ k, readsAs t₁ k raw = true) :
    Decodable t₁ file ∧ Decodable t₂ file := by
  refine ⟨?_, ?_⟩
  · intro raw member e undecodable
    obtain ⟨k, reads⟩ := each raw member
    obtain ⟨values, source, converted⟩ := readsAs_iff.mp reads
    rw [converted] at undecodable
    cases undecodable
  · intro raw member e undecodable
    obtain ⟨k, reads⟩ := each raw member
    obtain ⟨values, source, converted⟩ := readsAs_iff.mp reads
    rcases differ.converts converted with ⟨mapped, made⟩ | ⟨error, rejected⟩
    · rw [made] at undecodable
      cases undecodable
    · rw [rejected] at undecodable
      cases undecodable

theorem DifferInMaps.reads (differ : DifferInMaps codecs ct t₁ t₂) (first : readsAs t₁ k raw = true)
    (second : takes t₂ raw = true) : readsAs t₂ k raw = true := by
  obtain ⟨values, source, converted⟩ := readsAs_iff.mp first
  obtain ⟨k', reads⟩ := takes_reads second
  rcases differ.converts converted with ⟨mapped, made⟩ | ⟨error, rejected⟩
  · exact readsAs_iff.mpr ⟨mapped, source, made⟩
  · obtain ⟨values', source', converted'⟩ := readsAs_iff.mp reads
    rw [rejected] at converted'
    cases converted'

/-- Every file that LOAD reads to its end has the same totals under both manifests. -/
def TotalsUnmapped (ct : ClassTotals) (t₁ t₂ : TableSpec) (rangeSeq : Nat) (S₁ S₂ : KeyMap Text Text) : Prop :=
  ∀ file, Decodable t₁ file → Decodable t₂ file →
    sourceTotals t₁ ct S₁ (stagedRows t₁ rangeSeq file) = sourceTotals t₂ ct S₂ (stagedRows t₂ rangeSeq file)

theorem TotalsUnmapped.symm (unmapped : TotalsUnmapped ct t₁ t₂ rangeSeq S₁ S₂) : TotalsUnmapped ct t₂ t₁ rangeSeq S₂ S₁ :=
  fun file first second => (unmapped file second first).symm

theorem TotalsUnmapped.nil_iff (unmapped : TotalsUnmapped ct t₁ t₂ rangeSeq S₁ S₂) (differ : DifferInMaps codecs ct t₁ t₂)
    (each : ∀ raw ∈ file, ∃ k, readsAs t₁ k raw = true) :
    stagedRows t₁ rangeSeq file = [] ↔ stagedRows t₂ rangeSeq file = [] := by
  obtain ⟨first, second⟩ := differ.decodable each
  have totals := unmapped file first second
  constructor
  · intro none
    rw [none] at totals
    cases rows : stagedRows t₂ rangeSeq file with
    | nil => rfl
    | cons row rows' =>
      rw [rows] at totals
      exact absurd totals.symm sourceTotals_cons_ne
  · intro none
    rw [none] at totals
    cases rows : stagedRows t₁ rangeSeq file with
    | nil => rfl
    | cons row rows' =>
      rw [rows] at totals
      exact absurd totals sourceTotals_cons_ne

theorem stagedRows_refused {ts : TableSpec} : stagedRows ts rangeSeq [raw] = [] ↔ takes ts raw = false := by
  constructor
  · intro none
    by_contra taken
    rw [Bool.not_eq_false] at taken
    obtain ⟨row, staged, _⟩ := @stagedRows_one rangeSeq raw ts taken
    rw [none] at staged
    cases staged
  · intro refused
    apply stagedRows_eq_nil.mpr
    intro k raw' found
    rw [List.mem_singleton.mp (List.mem_of_find?_eq_some found)]
    exact refused

theorem TotalsUnmapped.taken (unmapped : TotalsUnmapped ct t₁ t₂ rangeSeq S₁ S₂) (differ : DifferInMaps codecs ct t₁ t₂)
    (taken : takes t₁ raw = true) : takes t₂ raw = true := by
  have each : ∀ raw' ∈ [raw], ∃ k, readsAs t₁ k raw' = true := by
    intro raw' member
    rw [List.mem_singleton.mp member]
    exact takes_reads taken
  have both := unmapped.nil_iff differ each
  rw [stagedRows_refused, stagedRows_refused, taken] at both
  simpa using both

/-- A record that hides a staged one under one manifest hides it under the other. -/
theorem TotalsUnmapped.first (unmapped : TotalsUnmapped ct t₁ t₂ rangeSeq S₁ S₂) (differ : DifferInMaps codecs ct t₁ t₂)
    (reads' : readsAs t₁ k raw' = true) (taken' : takes t₁ raw' = true) (reads : readsAs t₁ k raw = true) :
    readsAs t₂ k raw = true := by
  by_contra hidden
  have refused : takes t₁ raw = false := by
    by_contra taken
    rw [Bool.not_eq_false] at taken
    exact hidden (differ.reads reads (unmapped.taken differ taken))
  have each : ∀ r ∈ [raw, raw'], ∃ k, readsAs t₁ k r = true := by
    intro r member
    rcases List.mem_pair.mp member with rfl | rfl
    · exact ⟨k, reads⟩
    · exact ⟨k, reads'⟩
  have none : stagedRows t₁ rangeSeq [raw, raw'] = [] := by
    apply stagedRows_eq_nil.mpr
    intro k' found_ found
    have here := List.find?_some found
    have same : k' = k := by
      rcases List.mem_pair.mp (List.mem_of_find?_eq_some found) with rfl | rfl
      · exact readsAs_key here reads
      · exact readsAs_key here reads'
    subst same
    rw [List.find?_cons, reads] at found
    cases found
    exact refused
  have later : [raw, raw'].find? (readsAs t₂ k) = some raw' := by
    rw [Bool.not_eq_true] at hidden
    rw [List.find?_cons, hidden, List.find?_cons, differ.reads reads' (unmapped.taken differ taken')]
  have passed := stagedRows_eq_nil.mp ((unmapped.nil_iff differ each).mp none) k raw' later
  rw [unmapped.taken differ taken'] at passed
  cases passed

theorem TotalsUnmapped.same_candidates (unmapped : TotalsUnmapped ct t₁ t₂ rangeSeq S₁ S₂)
    (differ : DifferInMaps codecs ct t₁ t₂) : SameCandidates t₁ t₂ := by
  refine ⟨?_, ?_⟩
  · intro raw
    rw [Bool.eq_iff_iff]
    exact ⟨unmapped.taken differ, unmapped.symm.taken differ.symm⟩
  · intro k raw raw' reads taken
    have taken₂ := unmapped.taken differ taken
    rw [Bool.eq_iff_iff]
    exact ⟨unmapped.first differ reads taken, unmapped.symm.first differ.symm (differ.reads reads taken₂) taken₂⟩

theorem TotalsUnmapped.agrees (unmapped : TotalsUnmapped ct t₁ t₂ rangeSeq S₁ S₂) (differ : DifferInMaps codecs ct t₁ t₂)
    {code : Text} (carries : Carries t₁ ct code) : AgreesOn t₁.valueMap t₂.valueMap S₁[code]? S₂[code]? code := by
  obtain ⟨raw, k, values, source, converted, taken, decimals, rfl⟩ := carries
  have reads : readsAs t₁ k raw = true := readsAs_iff.mpr ⟨values, source, converted⟩
  have taken₂ := unmapped.taken differ taken
  obtain ⟨r₁, rows₁, raw₁⟩ := @stagedRows_one rangeSeq raw t₁ taken
  obtain ⟨r₂, rows₂, raw₂⟩ := @stagedRows_one rangeSeq raw t₂ taken₂
  have texts : sourceOf t₁ r₁ = source := by rw [sourceOf, raw₁, converted]
  have same : sourceOf t₁ r₁ = sourceOf t₂ r₂ :=
    differ.source (raw₁.trans raw₂.symm) (raw₁ ▸ reads) (raw₂ ▸ differ.reads reads taken₂)
  have each : ∀ raw' ∈ [raw], ∃ k, readsAs t₁ k raw' = true := fun raw' member =>
    ⟨k, List.mem_singleton.mp member ▸ reads⟩
  obtain ⟨first, second⟩ := differ.decodable each
  have totals := unmapped [raw] first second
  obtain ⟨side₁, left⟩ := @sourceTotals_one ct t₁ S₁ r₁ (texts ▸ decimals)
  obtain ⟨side₂, right⟩ := @sourceTotals_one ct t₂ S₂ r₂ (same ▸ texts ▸ decimals)
  rw [rows₁, rows₂, left, right] at totals
  have class_ := insert_inj rfl (Except.ok.inj totals)
  rw [← texts, ← sourceClass_agrees]
  change sourceClass ((sourceOf t₁ r₁).get ct.classColumn).str t₁.valueMap S₁ =
    sourceClass ((sourceOf t₂ r₂).get ct.classColumn).str t₂.valueMap S₂ at class_
  rw [← same] at class_
  exact class_

/-- Two manifests that differ only in their value maps give every file the same class totals on the source side
exactly if they stage the same records and every code of a staged record comes to one class: by its staged successor,
and without one by the value map, which should have no part in it. -/
theorem source_totals_unmapped_iff (differ : DifferInMaps codecs ct t₁ t₂) (rangeSeq : Nat)
    (policies₁ policies₂ : List StagedRow) :
    TotalsUnmapped ct t₁ t₂ rangeSeq (successorsFrom ct policies₁) (successorsFrom ct policies₂) ↔
      SameCandidates t₁ t₂ ∧ ∀ code, Carries t₁ ct code →
        AgreesOn t₁.valueMap t₂.valueMap (stagedSuccessor ct policies₁ code) (stagedSuccessor ct policies₂ code) code := by
  constructor
  · intro unmapped
    refine ⟨unmapped.same_candidates differ, fun code carries => ?_⟩
    have agree := unmapped.agrees differ carries
    rw [getElem?_successorsFrom, getElem?_successorsFrom] at agree
    exact agree
  · rintro ⟨same, agree⟩ file _ _
    apply differ.totals_agree same
    intro code carries
    rw [getElem?_successorsFrom, getElem?_successorsFrom]
    exact agree code carries

end

/-- Where no column has a length, a value map loses no record. -/
theorem SameCandidates.of_unlimited {codecs : Codecs} {ct : ClassTotals} {t₁ t₂ : TableSpec} {specs₁ specs₂ : List ColumnSpec}
    (first : t₁.ReadBy ct codecs specs₁) (second : t₂.ReadBy ct codecs specs₂)
    (same : List.Forall₂ ColumnSpec.SameButMap specs₁ specs₂) (unlimited₁ : ∀ spec ∈ specs₁, spec.targetLength = 0)
    (unlimited₂ : ∀ spec ∈ specs₂, spec.targetLength = 0) (all₁ : ∀ values, t₁.refuses values = none)
    (all₂ : ∀ values, t₂.refuses values = none) : SameCandidates t₁ t₂ := by
  have reads : ∀ k raw, readsAs t₁ k raw = readsAs t₂ k raw := by
    intro k raw
    rw [Bool.eq_iff_iff, readsAs_iff, readsAs_iff, first.convert, second.convert]
    constructor
    · rintro ⟨values, source, converted⟩
      rcases convertRecord_mapped same converted with ⟨mapped, made⟩ | ⟨⟨spec, member, limited⟩, _⟩
      · exact ⟨mapped, source, made⟩
      · exact absurd (unlimited₂ spec member) limited
    · rintro ⟨values, source, converted⟩
      rcases convertRecord_mapped (List.Forall₂.imp (fun _ _ => ColumnSpec.SameButMap.symm) same).flip converted with
        ⟨mapped, made⟩ | ⟨⟨spec, member, limited⟩, _⟩
      · exact ⟨mapped, source, made⟩
      · exact absurd (unlimited₁ spec member) limited
  have takes_iff : ∀ ts : TableSpec, (∀ values, ts.refuses values = none) → ∀ raw,
      (takes ts raw = true ↔ ∃ k, readsAs ts k raw = true) := by
    intro ts all raw
    refine ⟨takes_reads, ?_⟩
    rintro ⟨k, reads⟩
    obtain ⟨values, source, converted⟩ := readsAs_iff.mp reads
    rw [takes, converted]
    simp only [all, Option.isNone_none]
  refine ⟨?_, fun k raw _ _ _ => reads k raw⟩
  intro raw
  rw [Bool.eq_iff_iff, takes_iff t₁ all₁, takes_iff t₂ all₂]
  simp only [reads]

/-! Audit records: a digit and a class, one of which is retired. -/

def auditSpecs (valueMap : List (Text × Text)) : List ColumnSpec :=
  [textColumn "AUDIT_KEY" .int 0 1 true false Kind.int_ne_decimal,
    { textColumn "RETENTION_CLASS" .char 1 4 false false Kind.char_ne_decimal with valueMap := valueMap }]

def auditUnload (valueMap : List (Text × Text)) (row : SourceRow) : Except String Raw :=
  let raw := (row.key ++ (row.columns.get "RETENTION_CLASS").str).map fun c => UInt8.ofNat c.toNat
  if (convertRecord latin1 (auditSpecs valueMap) raw).key = some row.key then .ok raw else .error "value does not fit"

def auditTable (ct : ClassTotals) (valueMap : List (Text × Text)) : TableSpec where
  name := "FILEAUD"
  order := 3
  role := .data
  keyColumn := "AUDIT_KEY"
  hashColumns := ["AUDIT_KEY"]
  classTotals := some ct
  parent := none
  selects _ := true
  foreignKeys _ := []
  unload := auditUnload valueMap
  convert := convertRecord latin1 (auditSpecs valueMap)
  sourceHash source := (source.get "AUDIT_KEY").str.map fun c => UInt8.ofNat c.toNat
  targetHash values := (values.get "AUDIT_KEY").str.map fun c => UInt8.ofNat c.toNat
  differingColumn _ _ := "AUDIT_KEY"
  valueMap := valueMap
  refuses _ := none
  targetKey values := (values.get "AUDIT_KEY").str
  archReferences _ := []
  unload_key := by
    intro row raw h
    unfold auditUnload at h
    simp only at h
    split at h
    next keyed =>
      cases h
      exact keyed
    next => cases h
  key_ne_nil := by
    intro raw k values source h
    cases raw with
    | nil => cases h
    | cons b raw =>
      unfold convertRecord at h
      have key : sourceKeyOf latin1 (b :: raw) (auditSpecs valueMap) = .ok [Char.ofNat b.toNat] := rfl
      rw [key] at h
      simp only at h
      split at h
      next =>
        cases h
        exact List.cons_ne_nil _ _
      next => cases h
      next => cases h

theorem auditTable_readBy {ct : ClassTotals} (class_ : ct.classColumn = "RETENTION_CLASS") (valueMap : List (Text × Text)) :
    (auditTable ct valueMap).ReadBy ct latin1 (auditSpecs valueMap) := by
  refine ⟨rfl, rfl, ?_⟩
  intro spec member named
  rcases List.mem_pair.mp member with rfl | rfl
  · rw [class_] at named
    exact absurd named (by decide)
  · rfl

theorem auditSpecs_maps (m₁ m₂ : List (Text × Text)) :
    List.Forall₂ ColumnSpec.SameButMap (auditSpecs m₁) (auditSpecs m₂) := .cons ⟨[], rfl⟩ (.cons ⟨m₂, rfl⟩ .nil)

theorem auditTable_maps {ct : ClassTotals} (class_ : ct.classColumn = "RETENTION_CLASS") (m₁ m₂ : List (Text × Text)) :
    DifferInMaps latin1 ct (auditTable ct m₁) (auditTable ct m₂) :=
  ⟨⟨_, _, auditTable_readBy class_ m₁, auditTable_readBy class_ m₂, auditSpecs_maps m₁ m₂⟩, rfl, rfl⟩

theorem auditTable_candidates {ct : ClassTotals} (class_ : ct.classColumn = "RETENTION_CLASS") (m₁ m₂ : List (Text × Text)) :
    SameCandidates (auditTable ct m₁) (auditTable ct m₂) := by
  have unlimited : ∀ m, ∀ spec ∈ auditSpecs m, spec.targetLength = 0 := by
    intro m spec member
    rcases List.mem_pair.mp member with rfl | rfl
    · rfl
    · rfl
  exact .of_unlimited (auditTable_readBy class_ m₁) (auditTable_readBy class_ m₂) (auditSpecs_maps m₁ m₂) (unlimited m₁)
    (unlimited m₂) (fun _ => rfl) fun _ => rfl

/-- The classes of the audit records have no lookup table. -/
def auditTotals : ClassTotals := ⟨"RETENTION_CLASS", [], none⟩

def policyTotals : ClassTotals := ⟨"RETENTION_CLASS", [], some ⟨"RETNPLCY", "POLICY_CODE", "SUCCESSOR_CODE"⟩⟩

def retiredAs (code : String) : List (Text × Text) := [(text "F07R", text code)]

def policyRows : List StagedRow :=
  [⟨text "F07R", 1, [], [("POLICY_CODE", .text (text "F07R")), ("SUCCESSOR_CODE", .text (text "FIN7"))], none⟩]

/-- A retired code with a successor comes to it under the right value map and under the wrong one. -/
theorem successor_unmapped : TotalsUnmapped policyTotals (auditTable policyTotals (retiredAs "FIN7"))
    (auditTable policyTotals (retiredAs "LGL7")) 1 (successorsFrom policyTotals policyRows)
    (successorsFrom policyTotals policyRows) := by
  apply (source_totals_unmapped_iff (auditTable_maps rfl _ _) 1 policyRows policyRows).mpr
  refine ⟨auditTable_candidates rfl _ _, ?_⟩
  intro code _
  by_cases retired : text "F07R" = code
  · subst retired
    have staged : stagedSuccessor policyTotals policyRows (text "F07R") = some (text "FIN7") := by decide +kernel
    rw [staged]
    rfl
  · have none : stagedSuccessor policyTotals policyRows code = none := by
      have key : rtrim (text "F07R") = text "F07R" := by decide +kernel
      have other : policyRows.filter (fun r => rtrim (r.values.get "POLICY_CODE").shown = code) = [] := by
        apply List.filter_eq_nil_iff.mpr
        intro r member
        rw [List.mem_singleton.mp member]
        change ¬decide (rtrim (text "F07R") = code) = true
        rw [key]
        simp [retired]
      change (((policyRows.filter fun r => rtrim (r.values.get "POLICY_CODE").shown = code).map _).reverse.find? _) = none
      rw [other]
      rfl
    have unmapped : ∀ target, mappedTo (retiredAs target) code = code := by
      intro target
      have other : (code == text "F07R") = false := beq_false_of_ne fun same => retired same.symm
      rw [mappedTo, retiredAs, List.lookup_cons, other]
      rfl
    rw [none]
    exact (unmapped "FIN7").trans (unmapped "LGL7").symm

/-- Without a successor, both sides of a class check take the value map's word. -/
theorem mapped_totals_differ :
    (sourceTotals (auditTable auditTotals (retiredAs "FIN7")) auditTotals ∅
        (stagedRows (auditTable auditTotals (retiredAs "FIN7")) 1 [asciiBytes "1F07R"])).map (fun src => src.toList) =
      .ok [(text "FIN7", ⟨1, []⟩)] ∧
    (sourceTotals (auditTable auditTotals (retiredAs "LGL7")) auditTotals ∅
        (stagedRows (auditTable auditTotals (retiredAs "LGL7")) 1 [asciiBytes "1F07R"])).map (fun src => src.toList) =
      .ok [(text "LGL7", ⟨1, []⟩)] ∧
    (∀ code ∈ ["FIN7", "LGL7"],
      (classAggregatesOf auditTotals (stagedRows (auditTable auditTotals (retiredAs code)) 1 [asciiBytes "1F07R"])).toList =
        [(text code, ⟨1, []⟩)]) ∧
    ¬TotalsUnmapped auditTotals (auditTable auditTotals (retiredAs "FIN7")) (auditTable auditTotals (retiredAs "LGL7")) 1 ∅ ∅ := by
  have right : (sourceTotals (auditTable auditTotals (retiredAs "FIN7")) auditTotals ∅
      (stagedRows (auditTable auditTotals (retiredAs "FIN7")) 1 [asciiBytes "1F07R"])).map (fun src => src.toList) =
        .ok [(text "FIN7", ⟨1, []⟩)] := by decide +kernel
  have wrong : (sourceTotals (auditTable auditTotals (retiredAs "LGL7")) auditTotals ∅
      (stagedRows (auditTable auditTotals (retiredAs "LGL7")) 1 [asciiBytes "1F07R"])).map (fun src => src.toList) =
        .ok [(text "LGL7", ⟨1, []⟩)] := by decide +kernel
  refine ⟨right, wrong, by decide +kernel, ?_⟩
  intro unmapped
  have each : ∀ raw ∈ [asciiBytes "1F07R"], ∃ k, readsAs (auditTable auditTotals (retiredAs "FIN7")) k raw = true := by
    intro raw member
    rw [List.mem_singleton.mp member]
    exact ⟨text "1", by decide +kernel⟩
  obtain ⟨first, second⟩ := DifferInMaps.decodable (auditTable_maps rfl (retiredAs "FIN7") (retiredAs "LGL7")) each
  rw [unmapped _ first second, wrong] at right
  exact absurd right (by decide +kernel)

end OtterWorks.Migration
