import OtterWorks.Lib.DecimalValue
import OtterWorks.Lib.Fallible
import OtterWorks.Lib.Groups
import OtterWorks.Migration.Validate

namespace OtterWorks.Migration

def Candidate.amount (col : String) (c : Candidate) : Decimal := (c.sourceValues.get col).decimal?

/-- The running sums of a class, as pass 1 leaves them. -/
def sideOf (ct : ClassTotals) (group : List Candidate) : ClassSide :=
  ⟨group.length, ct.sumColumns.map fun col =>
    (group.map (Candidate.amount col)).foldl (Decimal.add decimalPrecision) .zero⟩

def castOr0 (col : String) (row : StagedRow) : Decimal := (castAmount row.values col).getD .zero

def aggregateOf (ct : ClassTotals) (group : List StagedRow) : ClassAggregate :=
  ⟨group.length, ct.sumColumns.map fun col => exactSum (group.map (castOr0 col))⟩

section

variable {ts : TableSpec} {ct : ClassTotals} {successors : KeyMap Text Text} {c : Candidate} {cs : List Candidate}
  {pass pass' : ClassPass} {cls : Text} {rows : List StagedRow} {values : List Decimal}

/-- The assertion that every amount is a decimal. -/
theorem sumValues_iff : sumValues ct c = .ok values ↔
    values = ct.sumColumns.map (c.amount ·) ∧ ∀ col ∈ ct.sumColumns, ∃ d, c.sourceValues.get col = .decimal d := by
  unfold sumValues
  rw [mapM_ok]
  constructor
  · intro each
    refine ⟨?_, ?_⟩
    · generalize ct.sumColumns = cols at each ⊢
      induction each with
      | nil => rfl
      | @cons col d cols ds first _ ih =>
        split at first
        next d' held =>
          cases first
          rw [List.map_cons, ih, Candidate.amount, held]
          rfl
        next => cases first
    · intro col member
      obtain ⟨d, _, first⟩ := forall₂_left each member
      split at first
      next d' held => exact ⟨d', held⟩
      next => cases first
  · rintro ⟨rfl, decimals⟩
    rw [List.forall₂_map_right_iff, List.forall₂_same]
    intro col member
    obtain ⟨d, held⟩ := decimals col member
    simp [held, Candidate.amount, Value.decimal?]

theorem classAdd_ok : pass.add ts ct successors c = .ok pass' ↔
    (∀ col ∈ ct.sumColumns, ∃ d, c.sourceValues.get col = .decimal d) ∧
    pass' = ⟨pass.src.insert (c.sourceClass ts ct successors)
        (((pass.src[c.sourceClass ts ct successors]?).getD (.empty ct.sumColumns.length)).add
          (ct.sumColumns.map (c.amount ·))),
      if c.sourceClass ts ct successors ≠ c.targetClass ct then
        c.sourceClass ts ct successors :: c.targetClass ct :: pass.moved else pass.moved⟩ := by
  unfold ClassPass.add
  constructor
  · intro h
    obtain ⟨values, read, made⟩ := bind_ok h
    obtain ⟨rfl, decimals⟩ := sumValues_iff.mp read
    exact ⟨decimals, (Except.ok.inj made).symm⟩
  · rintro ⟨decimals, rfl⟩
    rw [sumValues_iff.mpr ⟨rfl, decimals⟩]
    rfl

/-- Pass 1 keeps one side for each source class, and stops at an amount that is no decimal. -/
theorem classFold_ok : (∃ moved, cs.foldlM (ClassPass.add ts ct successors) pass = .ok ⟨pass'.src, moved⟩) ↔
    (∀ c ∈ cs, ∀ col ∈ ct.sumColumns, ∃ d, c.sourceValues.get col = .decimal d) ∧
    pass'.src = groupFold (Candidate.sourceClass ts ct successors)
      (fun side c => side.add (ct.sumColumns.map (c.amount ·))) (.empty ct.sumColumns.length) pass.src cs := by
  induction cs generalizing pass with
  | nil =>
    constructor
    · rintro ⟨moved, h⟩
      cases h
      exact ⟨fun _ none => absurd none List.not_mem_nil, rfl⟩
    · rintro ⟨_, same⟩
      refine ⟨pass.moved, ?_⟩
      rw [same]
      rfl
  | cons c cs ih =>
    rw [List.foldlM_cons]
    constructor
    · rintro ⟨moved, h⟩
      obtain ⟨mid, first, rest⟩ := bind_ok h
      obtain ⟨here, rfl⟩ := classAdd_ok.mp first
      obtain ⟨later, src⟩ := ih.mp ⟨moved, rest⟩
      refine ⟨?_, src⟩
      rintro c' (_ | ⟨_, member⟩)
      · exact here
      · exact later c' member
    · rintro ⟨decimals, src⟩
      rw [classAdd_ok.mpr ⟨decimals c (List.mem_cons_self ..), rfl⟩]
      exact ih.mpr ⟨fun c' member => decimals c' (List.mem_cons_of_mem _ member), src⟩

theorem zipWith_columns (f g : String → Decimal) : ∀ cols : List String,
    List.zipWith (Decimal.add decimalPrecision) (cols.map f) (cols.map g) =
      cols.map fun col => Decimal.add decimalPrecision (f col) (g col)
  | [] => rfl
  | _ :: cols => congrArg _ (zipWith_columns f g cols)

theorem foldl_sides (before : List Candidate) : cs.foldl (fun side c => side.add (ct.sumColumns.map (c.amount ·)))
    (sideOf ct before) = sideOf ct (before ++ cs) := by
  induction cs generalizing before with
  | nil => rw [List.foldl_nil, List.append_nil]
  | cons c cs ih =>
    have step : (sideOf ct before).add (ct.sumColumns.map (c.amount ·)) = sideOf ct (before ++ [c]) := by
      unfold sideOf ClassSide.add
      rw [zipWith_columns]
      simp [List.foldl_append]
    rw [List.foldl_cons, step, ih, List.append_assoc]
    rfl

theorem sideOf_nil : sideOf ct [] = .empty ct.sumColumns.length := by
  unfold sideOf ClassSide.empty
  rw [← List.map_const']
  rfl

/-- The source side of a class is that of its rows. -/
theorem classFold_side {moved : List Text} (h : cs.foldlM (ClassPass.add ts ct successors) ⟨∅, []⟩ = .ok ⟨pass'.src, moved⟩)
    (cls : Text) : pass'.src[cls]? =
      if inGroup (Candidate.sourceClass ts ct successors) cls cs = [] then none
      else some (sideOf ct (inGroup (Candidate.sourceClass ts ct successors) cls cs)) := by
  obtain ⟨_, src⟩ := classFold_ok.mp ⟨moved, h⟩
  rw [src, getElem?_groupFold]
  have folded := @foldl_sides ct (inGroup (Candidate.sourceClass ts ct successors) cls cs) []
  rw [sideOf_nil, List.nil_append] at folded
  rw [← folded]
  rfl

/-- The target side of a class is that of its rows. -/
theorem classAggregatesOf_side (ct : ClassTotals) (rows : List StagedRow) (cls : Text) :
    (classAggregatesOf ct rows)[cls]? =
      if inGroup (fun row => columnClass row.values ct.classColumn) cls rows = [] then none
      else some (aggregateOf ct (inGroup (fun row => columnClass row.values ct.classColumn) cls rows)) :=
  @getElem?_upsertAll_groups StagedRow Text _ _ (fun row => columnClass row.values ct.classColumn) cls rows _ _ _
    fun cls => aggregateOf ct (inGroup (fun row => columnClass row.values ct.classColumn) cls rows)

theorem exactSum_value (ds : List Decimal) : (exactSum ds).value = (ds.map Decimal.value).sum := by
  have least : ∀ (ds : List Decimal) (e : Int), ds.foldl (fun e d => min e d.exponent) e ≤ e ∧
      ∀ d ∈ ds, ds.foldl (fun e d => min e d.exponent) e ≤ d.exponent := by
    intro ds
    induction ds with
    | nil => exact fun e => ⟨Int.le_refl e, fun _ none => absurd none List.not_mem_nil⟩
    | cons d ds ih =>
      intro e
      obtain ⟨start, rest⟩ := ih (min e d.exponent)
      rw [List.foldl_cons]
      refine ⟨by omega, ?_⟩
      rintro d' (_ | ⟨_, member⟩)
      · omega
      · exact rest d' member
  let e := ds.foldl (fun e d => min e d.exponent) 0
  have sums : ∀ xs : List Decimal, (∀ d ∈ xs, e ≤ d.exponent) →
      (((xs.map fun d => d.coeffAt e).sum : Int) : ℚ) * 10 ^ e = (xs.map Decimal.value).sum := by
    intro xs
    induction xs with
    | nil => simp
    | cons d xs ih =>
      intro below
      have rest := ih fun d' member => below d' (List.mem_cons_of_mem _ member)
      rw [List.map_cons, List.sum_cons, List.map_cons, List.sum_cons, ← rest,
        ← Decimal.value_coeffAt (below d (List.mem_cons_self ..))]
      push_cast
      ring
  exact sums ds (least ds 0).2

/-- A class matches exactly if its counts and its sums do. -/
theorem classTotalRow_matching (group : List Candidate) (target : List StagedRow) (cls : Text) :
    (classTotalRow ct cls (sideOf ct group) (aggregateOf ct target)).matching = true ↔
      group.length = target.length ∧ ∀ col ∈ ct.sumColumns,
        ((group.map (Candidate.amount col)).foldl (Decimal.add decimalPrecision) .zero).value =
          ((target.map (castOr0 col)).map Decimal.value).sum := by
  simp only [classTotalRow, sideOf, aggregateOf, Bool.and_eq_true, beq_iff_eq, List.all_eq_true, List.mem_range]
  refine and_congr_right fun _ => ?_
  constructor
  · intro all col member
    obtain ⟨i, inside, rfl⟩ := List.getElem_of_mem member
    have here := Decimal.same_iff.mp (all i inside)
    simp only [List.getD_eq_getElem?_getD, List.getElem?_map, List.getElem?_eq_getElem inside, Option.map_some,
      Option.getD_some] at here
    rw [here, exactSum_value]
  · intro all i inside
    apply Decimal.same_iff.mpr
    simp only [List.getD_eq_getElem?_getD, List.getElem?_map, List.getElem?_eq_getElem inside, Option.map_some,
      Option.getD_some]
    rw [exactSum_value]
    exact all _ (List.getElem_mem inside)

/-- A class without rows on the target compares like one with none. -/
theorem classTotalRow_empty (side : ClassSide) (cls : Text) :
    (classTotalRow ct cls side .empty).matching = (classTotalRow ct cls side (aggregateOf ct [])).matching := by
  have zeros : ∀ i, (List.getD (ct.sumColumns.map fun _ => exactSum []) i .zero) = .zero := by
    intro i
    rw [List.getD_eq_getElem?_getD, List.getElem?_map]
    cases ct.sumColumns[i]? with
    | none => rfl
    | some col => rfl
  simp only [classTotalRow, aggregateOf, ClassAggregate.empty, List.map_nil, zeros, List.length_nil]
  rfl

end

end OtterWorks.Migration
