import OtterWorks.Migration.ClassSides
import OtterWorks.Migration.ValidateBatches

namespace OtterWorks.Migration

/-- The exact total of a class on the source side. -/
def sourceTotal (ts : TableSpec) (ct : ClassTotals) (successors : KeyMap Text Text) (col : String) (cls : Text)
    (cs : List Candidate) : ℚ :=
  groupTotal (Candidate.sourceClass ts ct successors) (fun c => (c.amount col).value) cls cs

/-- The exact total of a class on the target side. -/
def targetTotal (ct : ClassTotals) (col : String) (cls : Text) (cs : List Candidate) : ℚ :=
  groupTotal (Candidate.targetClass ct) (fun c => (c.row.values.get col).decimal?.value) cls cs

/-- `class_aggregates` over some rows: none if an amount does not cast. -/
def aggregatesOf (ct : ClassTotals) (rows : List StagedRow) : Option (KeyMap Text ClassAggregate) :=
  if rows.all fun row => ct.sumColumns.all fun col => (castAmount row.values col).isSome then
    some (classAggregatesOf ct rows)
  else none

/-- Both sides have the exact totals, and a class matches exactly if its counts and its exact totals do. -/
structure ExactTotals (ts : TableSpec) (ct : ClassTotals) (successors : KeyMap Text Text) (cs : List Candidate)
    (src : KeyMap Text ClassSide) (tgt : KeyMap Text ClassAggregate) : Prop where
  source : ∀ cls side, src[cls]? = some side →
    side.sums.map Decimal.value = ct.sumColumns.map fun col => sourceTotal ts ct successors col cls cs
  target : ∀ cls aggregate, tgt[cls]? = some aggregate →
    aggregate.sums.map Decimal.value = ct.sumColumns.map fun col => targetTotal ct col cls cs
  matching : ∀ cls, (classTotalRow ct cls ((src[cls]?).getD (.empty ct.sumColumns.length))
      ((tgt[cls]?).getD .empty)).matching = true ↔
    (inGroup (Candidate.sourceClass ts ct successors) cls cs).length = (inGroup (Candidate.targetClass ct) cls cs).length ∧
      ∀ col ∈ ct.sumColumns, sourceTotal ts ct successors col cls cs = targetTotal ct col cls cs

/-- The class totals of some staged rows are accumulated, queried and compared exactly. -/
def ComparedExactly (ts : TableSpec) (ct : ClassTotals) (successors : KeyMap Text Text) (cs : List Candidate) : Prop :=
  ∃ src moved tgt, cs.foldlM (ClassPass.add ts ct successors) ⟨∅, []⟩ = .ok ⟨src, moved⟩ ∧
    aggregatesOf ct (cs.map Candidate.row) = some tgt ∧ ExactTotals ts ct successors cs src tgt

section

variable {ts : TableSpec} {ct : ClassTotals} {successors : KeyMap Text Text} {cs pre : List Candidate} {cls : Text}
  {col : String}

/-- The query of a run. -/
theorem eval_classAggregates (table : String) (w : World) : (classAggregates table ct).eval w =
    match aggregatesOf ct ((w.target table).staging.toList.map Prod.snd) with
    | some tgt => (.ok tgt, w)
    | none => (.error (.target (some "22003") none "numeric field overflow"), w) := by
  rw [classAggregates, Prog.eval_attempt, aggregatesOf]
  simp only
  split
  next => rfl
  next => rfl

/-- What the running sum of a class comes to. -/
def runningTotal (ts : TableSpec) (ct : ClassTotals) (successors : KeyMap Text Text) (col : String) (cls : Text)
    (cs : List Candidate) : ℚ :=
  (((inGroup (Candidate.sourceClass ts ct successors) cls cs).map (Candidate.amount col)).foldl
    (Decimal.add decimalPrecision) .zero).value

/-- What the query of a class comes to. -/
def queriedTotal (ct : ClassTotals) (col : String) (cls : Text) (cs : List Candidate) : ℚ :=
  groupTotal (Candidate.targetClass ct) (fun c => (castOr0 col c.row).value) cls cs

theorem runningTotal_exact_iff :
    (∀ pre, pre <+: cs → runningTotal ts ct successors col cls pre = sourceTotal ts ct successors col cls pre) ↔
      ∀ pre, pre <+: cs → Decimal.Fits decimalPrecision (sourceTotal ts ct successors col cls pre) := by
  have total : ∀ pre : List Candidate, sourceTotal ts ct successors col cls pre =
      (((inGroup (Candidate.sourceClass ts ct successors) cls pre).map (Candidate.amount col)).map Decimal.value).sum := by
    intro pre
    rw [List.map_map]
    rfl
  have fronts := @Decimal.foldl_add_exact_iff decimalPrecision (by decide)
    ((inGroup (Candidate.sourceClass ts ct successors) cls cs).map (Candidate.amount col))
  have front : ∀ amounts, amounts <+: (inGroup (Candidate.sourceClass ts ct successors) cls cs).map (Candidate.amount col) →
      ∃ pre, pre <+: cs ∧ amounts = (inGroup (Candidate.sourceClass ts ct successors) cls pre).map (Candidate.amount col) := by
    intro amounts sub
    obtain ⟨group, front, rfl⟩ := List.prefix_map_iff.mp sub
    obtain ⟨pre, before, rfl⟩ := exists_prefix_of_inGroup front
    exact ⟨pre, before, rfl⟩
  constructor
  · intro exact pre sub
    rw [total]
    refine fronts.mp ?_ _ ((prefix_inGroup sub).map _)
    intro amounts before
    obtain ⟨pre', sub', rfl⟩ := front amounts before
    rw [← total]
    exact exact pre' sub'
  · intro fits pre sub
    rw [total]
    refine fronts.mpr ?_ _ ((prefix_inGroup sub).map _)
    intro amounts before
    obtain ⟨pre', sub', rfl⟩ := front amounts before
    rw [← total]
    exact fits pre' sub'

theorem queried_side (cls : Text) : (classAggregatesOf ct (pre.map Candidate.row))[cls]? =
    if inGroup (Candidate.targetClass ct) cls pre = [] then none
    else some (aggregateOf ct ((inGroup (Candidate.targetClass ct) cls pre).map Candidate.row)) := by
  rw [classAggregatesOf_side, inGroup_map]
  by_cases none : inGroup (Candidate.targetClass ct) cls pre = []
  · rw [if_pos none, if_pos]
    exact List.map_eq_nil_iff.mpr none
  · rw [if_neg none, if_neg]
    · rfl
    · exact fun empty => none (List.map_eq_nil_iff.mp empty)

/-- The two sides of a class, whether it has rows or not. -/
theorem compared_sides {src : KeyMap Text ClassSide} {moved : List Text}
    (folded : pre.foldlM (ClassPass.add ts ct successors) ⟨∅, []⟩ = .ok ⟨src, moved⟩) (cls : Text) :
    (classTotalRow ct cls ((src[cls]?).getD (.empty ct.sumColumns.length))
      (((classAggregatesOf ct (pre.map Candidate.row))[cls]?).getD .empty)).matching = true ↔
      (inGroup (Candidate.sourceClass ts ct successors) cls pre).length =
        (inGroup (Candidate.targetClass ct) cls pre).length ∧
      ∀ col ∈ ct.sumColumns, runningTotal ts ct successors col cls pre = queriedTotal ct col cls pre := by
  have source : (src[cls]?).getD (.empty ct.sumColumns.length) =
      sideOf ct (inGroup (Candidate.sourceClass ts ct successors) cls pre) := by
    rw [@classFold_side ts ct successors pre ⟨src, moved⟩ moved folded cls]
    split
    next none => rw [none, sideOf_nil, Option.getD_none]
    next => rfl
  have target : (classTotalRow ct cls (sideOf ct (inGroup (Candidate.sourceClass ts ct successors) cls pre))
      (((classAggregatesOf ct (pre.map Candidate.row))[cls]?).getD .empty)).matching =
      (classTotalRow ct cls (sideOf ct (inGroup (Candidate.sourceClass ts ct successors) cls pre))
        (aggregateOf ct ((inGroup (Candidate.targetClass ct) cls pre).map Candidate.row))).matching := by
    rw [queried_side]
    split
    next none =>
      rw [Option.getD_none, none]
      exact classTotalRow_empty _ cls
    next => rfl
  rw [source, target, classTotalRow_matching, List.length_map]
  refine and_congr_right fun _ => forall₂_congr fun col _ => ?_
  rw [List.map_map, List.map_map]
  rfl

theorem aggregatesOf_some {rows : List StagedRow} {tgt : KeyMap Text ClassAggregate} :
    aggregatesOf ct rows = some tgt ↔
      (∀ row ∈ rows, ∀ col ∈ ct.sumColumns, (castAmount row.values col).isSome) ∧ tgt = classAggregatesOf ct rows := by
  unfold aggregatesOf
  simp only [Option.ite_none_right_eq_some, Option.some.injEq, List.all_eq_true]
  exact and_congr_right fun _ => eq_comm

/-- The running sum of every class, the query's and the comparison are exact on every front of the staged rows exactly
if no exact total on the way has more than 64 digits and every amount is a `NUMERIC(38,8)`. -/
theorem compared_exactly_iff
    (decimals : ∀ c ∈ cs, ∀ col ∈ ct.sumColumns, ∃ d, c.sourceValues.get col = .decimal d) :
    (∀ pre, pre <+: cs → ComparedExactly ts ct successors pre) ↔
      (∀ pre, pre <+: cs → ∀ cls, ∀ col ∈ ct.sumColumns,
        Decimal.Fits decimalPrecision (sourceTotal ts ct successors col cls pre)) ∧
      ∀ c ∈ cs, ∀ col ∈ ct.sumColumns, Decimal.OnGrid 38 8 (c.row.values.get col).decimal?.value := by
  have accumulates : ∀ pre, pre <+: cs → ∃ src moved, pre.foldlM (ClassPass.add ts ct successors) ⟨∅, []⟩ = .ok ⟨src, moved⟩ := by
    intro pre sub
    obtain ⟨moved, folded⟩ := (@classFold_ok ts ct successors pre ⟨∅, []⟩ ⟨_, []⟩).mpr
      ⟨fun c member => decimals c (sub.subset member), rfl⟩
    exact ⟨_, moved, folded⟩
  have casts : (∀ c ∈ cs, ∀ col ∈ ct.sumColumns, Decimal.OnGrid 38 8 (c.row.values.get col).decimal?.value) ↔
      (∀ c ∈ cs, ∀ col ∈ ct.sumColumns, (castAmount c.row.values col).isSome ∧
        (castOr0 col c.row).value = (c.row.values.get col).decimal?.value) := by
    refine forall₂_congr fun c _ => forall₂_congr fun col _ => ?_
    rw [← Decimal.castNumeric_value_iff]
    unfold castOr0 castAmount
    cases (c.row.values.get col).decimal?.castNumeric 38 8 with
    | none => simp
    | some t => simp
  rw [casts]
  constructor
  · intro compared
    have running : ∀ pre, pre <+: cs → ∀ cls, ∀ col ∈ ct.sumColumns,
        runningTotal ts ct successors col cls pre = sourceTotal ts ct successors col cls pre := by
      intro pre sub cls col member
      obtain ⟨src, moved, tgt, folded, _, exact⟩ := compared pre sub
      have side := @classFold_side ts ct successors pre ⟨src, moved⟩ moved folded cls
      by_cases none : inGroup (Candidate.sourceClass ts ct successors) cls pre = []
      · unfold runningTotal sourceTotal groupTotal
        rw [none]
        exact Decimal.value_zero
      · rw [if_neg none] at side
        have sums := exact.source cls _ side
        rw [sideOf, List.map_map] at sums
        exact List.map_inj_left.mp sums col member
    have queried : ∀ pre, pre <+: cs → ∀ cls, ∀ col ∈ ct.sumColumns,
        queriedTotal ct col cls pre = targetTotal ct col cls pre := by
      intro pre sub cls col member
      obtain ⟨src, moved, tgt, _, asked, exact⟩ := compared pre sub
      obtain ⟨_, rfl⟩ := aggregatesOf_some.mp asked
      have side := @queried_side ct pre cls
      by_cases none : inGroup (Candidate.targetClass ct) cls pre = []
      · unfold queriedTotal targetTotal groupTotal
        rw [none]
        rfl
      · rw [if_neg none] at side
        have sums := exact.target cls _ side
        rw [aggregateOf, List.map_map] at sums
        have here := List.map_inj_left.mp sums col member
        rw [Function.comp_apply, exactSum_value, List.map_map, List.map_map] at here
        exact here
    refine ⟨?_, ?_⟩
    · intro pre sub cls col member
      exact runningTotal_exact_iff.mp (fun pre' sub' => running pre' sub' cls col member) pre sub
    · intro c member col inside
      obtain ⟨_, _, _, _, asked, _⟩ := compared cs (List.prefix_refl cs)
      refine ⟨(aggregatesOf_some.mp asked).1 c.row (List.mem_map.mpr ⟨c, member, rfl⟩) col inside, ?_⟩
      exact groupTotal_prefixes.mp (fun pre sub cls => queried pre sub cls col inside) c member
  · rintro ⟨fits, cast⟩ pre sub
    have running : ∀ cls, ∀ col ∈ ct.sumColumns,
        runningTotal ts ct successors col cls pre = sourceTotal ts ct successors col cls pre := by
      intro cls col member
      exact runningTotal_exact_iff.mpr (fun pre' sub' => fits pre' sub' cls col member) pre sub
    have queried : ∀ cls, ∀ col ∈ ct.sumColumns, queriedTotal ct col cls pre = targetTotal ct col cls pre := by
      intro cls col member
      exact groupTotal_prefixes.mpr (fun c there => (cast c there col member).2) pre sub cls
    obtain ⟨src, moved, folded⟩ := accumulates pre sub
    refine ⟨src, moved, classAggregatesOf ct (pre.map Candidate.row), folded, ?_, ?_, ?_, ?_⟩
    · refine aggregatesOf_some.mpr ⟨?_, rfl⟩
      intro row member col inside
      obtain ⟨c, there, rfl⟩ := List.mem_map.mp member
      exact (cast c (sub.subset there) col inside).1
    · intro cls side held
      rw [@classFold_side ts ct successors pre ⟨src, moved⟩ moved folded cls] at held
      split at held
      next => cases held
      next =>
        cases Option.some.inj held
        rw [sideOf, List.map_map]
        exact List.map_congr_left fun col member => running cls col member
    · intro cls aggregate held
      rw [queried_side] at held
      split at held
      next => cases held
      next =>
        cases Option.some.inj held
        rw [aggregateOf, List.map_map]
        apply List.map_congr_left
        intro col member
        rw [Function.comp_apply, exactSum_value, List.map_map, List.map_map]
        exact queried cls col member
    · intro cls
      rw [compared_sides folded]
      refine and_congr_right fun _ => forall₂_congr fun col member => ?_
      rw [running cls col member, queried cls col member]

end

def chargeTotals : ClassTotals := ⟨"RETENTION_CLASS", ["STORAGE_CHARGE"], none⟩

/-- Two documents of class X, whose charges have eight digits after the point. -/
def twoCharges : List Candidate :=
  [candidateOf docTable ⟨['A'], 1, 0x41 :: 0x58 :: chargeBytes 10, docValues 0x41 0x58 10, none⟩,
    candidateOf docTable ⟨['B'], 1, 0x42 :: 0x58 :: chargeBytes 25, docValues 0x42 0x58 25, none⟩]

/-- The total of a class over a front of them is nothing, the first charge or both. -/
theorem twoCharges_total {pre : List Candidate} (sub : pre <+: twoCharges) (cls : Text) :
    ∃ n ∈ [0, 10, 35], sourceTotal docTable chargeTotals ∅ "STORAGE_CHARGE" cls pre = (⟨n, -8⟩ : Decimal).value := by
  have class_ : ∀ c ∈ twoCharges, c.sourceClass docTable chargeTotals ∅ = ['X'] := by decide +kernel
  have amounts : twoCharges.map (Candidate.amount "STORAGE_CHARGE") = [⟨10, -8⟩, ⟨25, -8⟩] := by decide +kernel
  by_cases here : cls = ['X']
  · have whole : inGroup (Candidate.sourceClass docTable chargeTotals ∅) cls pre = pre := by
      apply List.filter_eq_self.mpr
      intro c member
      rw [decide_eq_true_eq, here]
      exact class_ c (sub.subset member)
    have front : (pre.map (Candidate.amount "STORAGE_CHARGE")) <+: [⟨10, -8⟩, ⟨25, -8⟩] := by
      rw [← amounts]
      exact sub.map _
    have total : sourceTotal docTable chargeTotals ∅ "STORAGE_CHARGE" cls pre =
        ((pre.map (Candidate.amount "STORAGE_CHARGE")).map Decimal.value).sum := by
      unfold sourceTotal groupTotal
      rw [whole, List.map_map]
      rfl
    rw [total]
    generalize pre.map (Candidate.amount "STORAGE_CHARGE") = charges at front
    rcases List.prefix_cons_iff.mp front with rfl | ⟨rest, rfl, second⟩
    · exact ⟨0, by decide, by norm_num [Decimal.value]⟩
    · rcases List.prefix_cons_iff.mp second with rfl | ⟨none, rfl, last⟩
      · exact ⟨10, by decide, by norm_num [Decimal.value]⟩
      · rw [List.prefix_nil.mp last]
        exact ⟨35, by decide, by norm_num [Decimal.value]⟩
  · refine ⟨0, by decide, ?_⟩
    unfold sourceTotal groupTotal
    rw [inGroup_eq_nil]
    · norm_num [Decimal.value]
    · intro c member
      rw [class_ c (sub.subset member)]
      exact Ne.symm here

theorem twoCharges_compared : ComparedExactly docTable chargeTotals ∅ twoCharges := by
  have charges : ∀ c ∈ twoCharges, ∃ n : Int, n.natAbs < 10 ^ 38 ∧
      c.sourceValues.get "STORAGE_CHARGE" = .decimal ⟨n, -8⟩ ∧ (c.row.values.get "STORAGE_CHARGE").decimal? = ⟨n, -8⟩ := by
    intro c member
    simp only [twoCharges, List.mem_cons, List.not_mem_nil, or_false] at member
    rcases member with rfl | rfl
    · exact ⟨10, by decide, by decide +kernel, by decide +kernel⟩
    · exact ⟨25, by decide, by decide +kernel, by decide +kernel⟩
  refine (compared_exactly_iff ?_).mpr ⟨?_, ?_⟩ twoCharges (List.prefix_refl twoCharges)
  · intro c member col inside
    rw [List.mem_singleton.mp inside]
    obtain ⟨n, _, source, _⟩ := charges c member
    exact ⟨_, source⟩
  · intro pre sub cls col inside
    rw [List.mem_singleton.mp inside]
    obtain ⟨n, few, total⟩ := twoCharges_total sub cls
    rw [total]
    refine ⟨⟨n, -8⟩, ?_, rfl⟩
    simp only [List.mem_cons, List.not_mem_nil, or_false] at few
    rcases few with rfl | rfl | rfl
    · decide
    · decide
    · decide
  · intro c member col inside
    rw [List.mem_singleton.mp inside]
    obtain ⟨n, small, _, staged⟩ := charges c member
    rw [staged]
    exact ⟨n, small, rfl⟩

/-- A charge of one billionth, as LOAD stages it. -/
def nanoRow : Candidate := candidateOf chargeTable ⟨['A'], 1, chargeRecord 0x41 0x58 1, (chargeRow 'A' 'X' 1).2, none⟩

/-- One row, whose class and charge are the same on both sides, fails for its class. -/
theorem nano_charge_mismatch :
    (∃ v, (validateTable (.of 1 1 1 1 (by decide) (by decide) (by decide) (by decide)) chargeTable).eval
        (stagedWorld chargeTable.convert [chargeRecord 0x41 0x58 1]) = (.ok (), v) ∧
      (v.target "DOCARCH").classTotals = [⟨['X'], 1, 1, some ⟨1, -9⟩, some ⟨0, -8⟩, false⟩] ∧
      (v.target "DOCARCH").validation.toList.map (fun r => r.2.rule) = [some ruleClassTotal]) ∧
    sourceTotal chargeTable chargeTotals ∅ "STORAGE_CHARGE" ['X'] [nanoRow] =
      targetTotal chargeTotals "STORAGE_CHARGE" ['X'] [nanoRow] ∧
    ¬ComparedExactly chargeTable chargeTotals ∅ [nanoRow] := by
  have source : inGroup (Candidate.sourceClass chargeTable chargeTotals ∅) ['X'] [nanoRow] = [nanoRow] := by decide +kernel
  have target : inGroup (Candidate.targetClass chargeTotals) ['X'] [nanoRow] = [nanoRow] := by decide +kernel
  have amount : nanoRow.amount "STORAGE_CHARGE" = ⟨1, -9⟩ := by decide +kernel
  have staged : (nanoRow.row.values.get "STORAGE_CHARGE").decimal? = ⟨1, -9⟩ := by decide +kernel
  have totals : sourceTotal chargeTable chargeTotals ∅ "STORAGE_CHARGE" ['X'] [nanoRow] =
      targetTotal chargeTotals "STORAGE_CHARGE" ['X'] [nanoRow] := by
    unfold sourceTotal targetTotal groupTotal
    rw [source, target]
    simp only [List.map_cons, List.map_nil, amount, staged]
  refine ⟨⟨((validateTable (.of 1 1 1 1 (by decide) (by decide) (by decide) (by decide)) chargeTable).eval
    (stagedWorld chargeTable.convert [chargeRecord 0x41 0x58 1])).2, Prod.ext (by decide +kernel) rfl, by decide +kernel, by decide +kernel⟩,
    totals, ?_⟩
  rintro ⟨src, moved, tgt, folded, asked, exact⟩
  obtain ⟨_, rfl⟩ := aggregatesOf_some.mp asked
  have matched := (exact.matching ['X']).mpr ⟨by rw [source, target], fun col member => by
    rw [List.mem_singleton.mp member]
    exact totals⟩
  have sums := ((compared_sides folded ['X']).mp matched).2 "STORAGE_CHARGE" (List.mem_singleton.mpr rfl)
  have running : runningTotal chargeTable chargeTotals ∅ "STORAGE_CHARGE" ['X'] [nanoRow] = (⟨1, -9⟩ : Decimal).value := by
    unfold runningTotal
    rw [source, List.map_cons, List.map_nil, amount]
    exact congrArg Decimal.value (show Decimal.add 64 .zero ⟨1, -9⟩ = ⟨1, -9⟩ by decide +kernel)
  have queried : queriedTotal chargeTotals "STORAGE_CHARGE" ['X'] [nanoRow] = (⟨0, -8⟩ : Decimal).value := by
    have cast : castOr0 "STORAGE_CHARGE" nanoRow.row = ⟨0, -8⟩ := by decide +kernel
    unfold queriedTotal groupTotal
    rw [target, List.map_cons, List.map_nil, List.sum_singleton, cast]
  rw [running, queried] at sums
  norm_num [Decimal.value] at sums

end OtterWorks.Migration
