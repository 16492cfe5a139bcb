import OtterWorks.Migration.ClassExact

namespace OtterWorks.Migration

def sourceClassAt (ts : TableSpec) (ct : ClassTotals) (w : World) (row : StagedRow) : Text :=
  (candidateOf ts row).sourceClass ts ct (successorsAt ts w)

def targetClassOf (ct : ClassTotals) (row : StagedRow) : Text := columnClass row.values ct.classColumn

def stagedAmount (col : String) (row : StagedRow) : ℚ := (row.values.get col).decimal?.value

/-- A class has as many of some rows, and the same sums of them, by source class as by target class. -/
def Balances (ts : TableSpec) (ct : ClassTotals) (w : World) (rows : List StagedRow) (cls : Text) : Prop :=
  (inGroup (sourceClassAt ts ct w) cls rows).length = (inGroup (targetClassOf ct) cls rows).length ∧
  ∀ col ∈ ct.sumColumns, groupTotal (sourceClassAt ts ct w) (stagedAmount col) cls rows =
    groupTotal (targetClassOf ct) (stagedAmount col) cls rows

def validatedRows (t : TargetTable) : List StagedRow := (validatedStaged t).map Prod.snd

/-- The classes whose totals over all staged rows disagree. -/
def disagreeing (ts : TableSpec) (ct : ClassTotals) (w : World) : KeyMap Text ClassMismatch :=
  match classPassAt ts ct w with
  | .error _ => ∅
  | .ok pass => mismatchesAt ts ct w pass

/-- The rows that pass the row checks and moved between two classes that agree over all staged rows. -/
def unexplained (ts : TableSpec) (ct : ClassTotals) (w : World) : List StagedRow :=
  ((plainRows (w.target ts.name)).map Prod.snd).filter fun row =>
    (rowFindingAt ts w row).isNone && sourceClassAt ts ct w row ≠ targetClassOf ct row &&
      ((disagreeing ts ct w)[sourceClassAt ts ct w row]?).isNone && ((disagreeing ts ct w)[targetClassOf ct row]?).isNone

section

variable {ts : TableSpec} {ct : ClassTotals} {u v w : World} {rows : List StagedRow} {cls : Text} {t : TargetTable}

theorem ValidateMove.plain (move : ValidateMove ts u v) (table : String) :
    plainRows (v.target table) = plainRows (u.target table) := by
  by_cases same : table = ts.name
  · subst same
    cases move with
    | verdicts rows each => rw [World.onTarget_self]; rfl
    | hashes hashes each =>
      rw [World.onTarget_self]
      refine plainRows_map rfl ?_
      intro k row
      split
      next => rfl
      next => rfl
    | dropRejects keys each => rw [World.onTarget_self]; rfl
    | addRejects rejects each => rw [World.onTarget_self]; rfl
    | classTotals rows => rw [World.onTarget_self]; rfl
    | promote rows found distinct clean => rw [World.onTarget_self]; rfl
    | ledger validated failed hvalidated hfailed => rw [World.onTarget_self]; rfl
  · cases move with
    | verdicts rows each => rw [World.onTarget_other same]
    | hashes hashes each => rw [World.onTarget_other same]
    | dropRejects keys each => rw [World.onTarget_other same]
    | addRejects rejects each => rw [World.onTarget_other same]
    | classTotals rows => rw [World.onTarget_other same]
    | promote rows found distinct clean => rw [World.onTarget_other same]
    | ledger validated failed hvalidated hfailed => rw [World.onTarget_other same]

theorem KeysOk.congr {t' : TargetTable} (same : plainRows t' = plainRows t) (own : KeysOk t) : KeysOk t' := by
  intro k row held
  have there : (k, row.plain) ∈ plainRows t := same ▸ mem_plainRows.mpr ⟨row, held, rfl⟩
  obtain ⟨r, held', equal⟩ := mem_plainRows.mp there
  obtain ⟨key, some⟩ := own k r held'
  refine ⟨?_, some⟩
  have keys := congrArg StagedRow.sourceKey equal
  exact keys.trans key

/-- Rows that LOAD has staged. -/
structure StagedByLoad (ts : TableSpec) (w : World) : Prop where
  keys : ∀ table, KeysOk (w.target table)
  converted : ∀ (k : Key) (row : StagedRow), (w.target ts.name).staging[k]? = some row → Converted ts row

theorem StagedByLoad.congr (h : StagedByLoad ts w) (same : ∀ table, plainRows (v.target table) = plainRows (w.target table)) :
    StagedByLoad ts v := by
  refine ⟨fun table => (h.keys table).congr (same table), ?_⟩
  intro k row held
  have there : (k, row.plain) ∈ plainRows (w.target ts.name) := same ts.name ▸ mem_plainRows.mpr ⟨row, held, rfl⟩
  obtain ⟨r, held', equal⟩ := mem_plainRows.mp there
  obtain ⟨source, made⟩ := h.converted k r held'
  refine ⟨source, ?_⟩
  have raw := congrArg StagedRow.rawBytes equal
  have key := congrArg StagedRow.sourceKey equal
  have values := congrArg StagedRow.values equal
  change row.rawBytes = r.rawBytes at raw
  change row.sourceKey = r.sourceKey at key
  change row.values = r.values at values
  rw [raw, key, values]
  exact made

/-- What VALIDATE has done when it returns, whatever the application did to the source meanwhile. -/
theorem validated_when_returned {D : Drift} {F : Prop} {batch : BatchConfig} (loaded : StagedByLoad ts w)
    {turns : List (Turn World JobError)} (within : ∀ turn ∈ turns, turn.Within (D.weather F))
    (returned : (validateTable batch ts).run turns w = (.ended (.ok ()), v)) :
    ValidatedTable ts w (v.target ts.name) := by
  have kept : wp (D.weather F) (validateTable batch ts)
      (.keep (fun u => ∀ table, plainRows (u.target table) = plainRows (w.target table))
        fun _ v => ValidatedTable ts w (v.target ts.name)) w := by
    apply keep_validateTable
    · intro u v moves same table
      rw [moves.target]
      exact same table
    · intro u v move same table
      exact (move.plain table).trans (same table)
    · exact fun u same => (loaded.congr same).keys ts.name
    · exact fun u same => (loaded.congr same).converted
    · exact fun u same res _ => (loaded.congr same).keys res.lookupTable
    · exact fun _ => rfl
  have ran := wp_run kept within
  rw [returned] at ran
  exact ran.2

theorem balances_plain : Balances ts ct w (rows.map StagedRow.plain) cls ↔ Balances ts ct w rows cls := by
  unfold Balances groupTotal
  simp only [inGroup_map, List.length_map, List.map_map]
  rfl

/-- Only rows that changed class can unbalance a class. -/
theorem balances_moved : Balances ts ct w rows cls ↔
    Balances ts ct w (rows.filter fun row => sourceClassAt ts ct w row ≠ targetClassOf ct row) cls := by
  unfold Balances
  refine and_congr ?_ (forall₂_congr fun col _ => groupTotal_moved)
  rw [← groupTotal_one, ← groupTotal_one, ← groupTotal_one, ← groupTotal_one]
  exact groupTotal_moved

theorem validatedRows_plain (h : ValidatedTable ts w t) (keys : KeysOk (w.target ts.name)) :
    (validatedRows t).map StagedRow.plain =
      ((plainRows (w.target ts.name)).map Prod.snd).filter fun row => (judgementAt ts w row).isNone := by
  have left : (validatedRows t).map StagedRow.plain =
      ((plainRows t).filter fun r => isValidated t r.1).map Prod.snd := by
    unfold validatedRows validatedStaged plainRows
    rw [List.filter_map, List.map_map, List.map_map]
    rfl
  have right : (((plainRows (w.target ts.name)).map Prod.snd).filter fun row => (judgementAt ts w row).isNone) =
      ((plainRows (w.target ts.name)).filter fun r => (judgementAt ts w r.2).isNone).map Prod.snd := by
    rw [List.filter_map]
    rfl
  rw [left, right, h.plain]
  congr 1
  apply List.filter_congr
  intro r member
  have key : r.2.sourceKey = r.1 := Keyed.plain (fun k row held => (keys k row held).1) member
  have judged := (h.judged r.1 r.2 member).isValidated
  rw [key] at judged
  rw [Bool.eq_iff_iff, judged, Option.isNone_iff_eq_none]

theorem classFinding_unexplained (hct : ts.classTotals = some ct) {row : StagedRow}
    (moved : sourceClassAt ts ct w row ≠ targetClassOf ct row) : classFindingAt ts w row = none ↔
      (disagreeing ts ct w)[sourceClassAt ts ct w row]? = none ∧ (disagreeing ts ct w)[targetClassOf ct row]? = none := by
  unfold classFindingAt disagreeing
  rw [hct]
  simp only
  cases classPassAt ts ct w with
  | error e => simp
  | ok pass =>
    unfold classFinding classHit
    change Option.map _ (if sourceClassAt ts ct w row ≠ targetClassOf ct row then _ else _) = none ↔ _
    rw [if_pos moved, Option.map_eq_none_iff, Option.or_eq_none_iff]
    rfl

/-- The VALIDATED rows that changed class are those between two classes that agree over all staged rows. -/
theorem unexplained_eq (hct : ts.classTotals = some ct) :
    ((((plainRows (w.target ts.name)).map Prod.snd).filter fun row => (judgementAt ts w row).isNone).filter
      fun row => sourceClassAt ts ct w row ≠ targetClassOf ct row) = unexplained ts ct w := by
  unfold unexplained
  rw [List.filter_filter]
  apply List.filter_congr
  intro row _
  by_cases moved : sourceClassAt ts ct w row ≠ targetClassOf ct row
  · have class_ := @classFinding_unexplained ts ct w hct row moved
    rw [Bool.eq_iff_iff]
    simp only [moved, judgementAt, Option.isNone_iff_eq_none, Option.or_eq_none_iff, decide_true, Bool.true_and,
      Bool.and_true, Bool.and_eq_true, class_, and_assoc, ne_eq, not_false_eq_true]
  · simp [moved]

/-- VALIDATE compares the totals of all staged rows and fails rows once. Of the rows it leaves VALIDATED, a class that
disagreed has the same totals by both classes; another has them exactly if the rows that moved between two agreeing
classes balance in it. -/
theorem validated_classes_balance {D : Drift} {F : Prop} {batch : BatchConfig} (hct : ts.classTotals = some ct)
    (loaded : StagedByLoad ts w) {turns : List (Turn World JobError)} (within : ∀ turn ∈ turns, turn.Within (D.weather F))
    (returned : (validateTable batch ts).run turns w = (.ended (.ok ()), v)) (cls : Text) :
    (cls ∈ disagreeing ts ct w → Balances ts ct w (validatedRows (v.target ts.name)) cls) ∧
      (Balances ts ct w (validatedRows (v.target ts.name)) cls ↔ Balances ts ct w (unexplained ts ct w) cls) := by
  have done := validated_when_returned loaded within returned
  have balance : Balances ts ct w (validatedRows (v.target ts.name)) cls ↔ Balances ts ct w (unexplained ts ct w) cls := by
    rw [← balances_plain, validatedRows_plain done (loaded.keys ts.name), balances_moved, unexplained_eq hct]
  refine ⟨?_, balance⟩
  intro disagrees
  have none : ∀ row ∈ unexplained ts ct w, sourceClassAt ts ct w row ≠ cls ∧ targetClassOf ct row ≠ cls := by
    intro row member
    have tests := (List.mem_filter.mp member).2
    simp only [Bool.and_eq_true, Option.isNone_iff_eq_none] at tests
    obtain ⟨⟨_, source⟩, target⟩ := tests
    rw [← Std.ExtTreeMap.isSome_getElem?_iff_mem] at disagrees
    refine ⟨?_, ?_⟩
    · rintro rfl
      rw [source] at disagrees
      cases disagrees
    · rintro rfl
      rw [target] at disagrees
      cases disagrees
  apply balance.mpr
  unfold Balances groupTotal
  rw [inGroup_eq_nil fun row member => (none row member).1, inGroup_eq_nil fun row member => (none row member).2]
  exact ⟨rfl, fun _ _ => rfl⟩

end

theorem stagedWorld_loaded (ts : TableSpec) (records : List Raw) : StagedByLoad ts (stagedWorld ts.convert records) := by
  have made : ∀ (table : String) (k : Key) (row : StagedRow),
      ((stagedWorld ts.convert records).target table).staging[k]? = some row →
        row.sourceKey = k ∧ k ≠ [] ∧ Converted ts row := by
    intro table k row held
    rcases KeyMap.upsertAll_cases held with new | ⟨_, none⟩
    · obtain ⟨raw, _, entry⟩ := List.mem_filterMap.mp new
      split at entry
      next k' values source converted =>
        cases entry
        exact ⟨rfl, ts.key_ne_nil raw k values source converted, source, converted⟩
      next => cases entry
    · cases none
  refine ⟨fun table k row held => ?_, fun k row held => (made ts.name k row held).2.2⟩
  obtain ⟨key, some, _⟩ := made table k row held
  exact ⟨key, some⟩

theorem chargeDocs_balance : ∃ v,
    (validateTable (.of 1 1 3 1 (by decide) (by decide) (by decide) (by decide)) chargeTable).run [] chargeDocs =
      (.ended (.ok ()), v) ∧
    (v.target "DOCARCH").validation.toList.map (fun r => r.2.status) = [.failed, .failed, .validated] ∧
    ∀ cls, Balances chargeTable chargeTotals chargeDocs (validatedRows (v.target "DOCARCH")) cls := by
  have ran : (validateTable (.of 1 1 3 1 (by decide) (by decide) (by decide) (by decide)) chargeTable).run [] chargeDocs =
      (.ended (.ok ()), ((validateTable (.of 1 1 3 1 (by decide) (by decide) (by decide) (by decide)) chargeTable).eval
        chargeDocs).2) := by
    rw [Prog.run_nil]
    refine Prod.ext (congrArg Outcome.ended ?_) rfl
    decide +kernel
  refine ⟨_, ran, by decide +kernel, ?_⟩
  have loaded : StagedByLoad chargeTable chargeDocs := stagedWorld_loaded chargeTable _
  intro cls
  apply ((@validated_classes_balance chargeTable chargeTotals _ _ Drift.still True _ rfl loaded _
    (fun _ none => absurd none List.not_mem_nil) ran) cls).2.mpr
  have none : unexplained chargeTable chargeTotals chargeDocs = [] := by decide +kernel
  rw [none]
  exact ⟨rfl, fun _ _ => rfl⟩

/-! Three rows along a chain of classes: P to Q, Q to R, R to S. -/

def chainMap : List (Text × Text) := [(['1'], ['Q']), (['2'], ['R']), (['3'], ['S'])]

def chainTotals : ClassTotals := ⟨"RETENTION_CLASS", ["STORAGE_CHARGE"], some ⟨"POLICY", "POLICY_CODE", "SUCCESSOR"⟩⟩

def mappedClass (fields : Fields) : Fields :=
  fields.map fun f => if f.1 = "RETENTION_CLASS" then (f.1, .text ((chainMap.lookup f.2.str).getD f.2.str)) else f

def chainConvert (raw : Raw) : Conversion :=
  match docConvert raw with
  | .ok k _ source => .ok k (mappedClass source) source
  | c => c

theorem chainConvert_key (raw : Raw) : (chainConvert raw).key = (docConvert raw).key := by
  unfold chainConvert
  cases docConvert raw with
  | undecodable e => rfl
  | malformed k e => rfl
  | ok k values source => rfl

def chainTable : TableSpec :=
  { docTable with
    classTotals := some chainTotals
    convert := chainConvert
    sourceHash := fun source => docHash (mappedClass source)
    valueMap := chainMap
    unload_key := fun row raw h => (chainConvert_key raw).trans (docUnload_key row raw h)
    key_ne_nil := by
      intro raw k values source h
      unfold chainConvert at h
      cases converted : docConvert raw with
      | undecodable e =>
        rw [converted] at h
        cases h
      | malformed k' e =>
        rw [converted] at h
        cases h
      | ok k' values' source' =>
        rw [converted] at h
        cases h
        exact (docConvert_key raw k values' source converted).1 }

/-- The staged successors of the codes. -/
def chainPolicies : List (Key × StagedRow) :=
  [(['1'], ['P']), (['2'], ['Q']), (['3'], ['R'])].map fun r =>
    (r.1, ⟨r.1, 1, [], [("POLICY_CODE", .text r.1), ("SUCCESSOR", .text r.2)], none⟩)

def chainWorld : World :=
  let docs := stagedWorld chainConvert
    [0x41 :: 0x31 :: chargeBytes 10, 0x42 :: 0x32 :: chargeBytes 10, 0x43 :: 0x33 :: chargeBytes 10]
  { docs with target := fun table =>
      if table = "POLICY" then { TargetTable.blank with staging := KeyMap.upsertAll ∅ chainPolicies }
      else docs.target table }

/-- Q and R match over the three rows, so the middle row stays VALIDATED alone. -/
theorem chain_unbalanced : ∃ v,
    (validateTable (.of 1 1 3 1 (by decide) (by decide) (by decide) (by decide)) chainTable).eval chainWorld = (.ok (), v) ∧
    (v.target "DOCARCH").validation.toList.map (fun r => r.2.rule) = [some ruleClassCount, none, some ruleClassCount] ∧
    ¬Balances chainTable chainTotals chainWorld (validatedRows (v.target "DOCARCH")) ['Q'] := by
  refine ⟨((validateTable (.of 1 1 3 1 (by decide) (by decide) (by decide) (by decide)) chainTable).eval chainWorld).2,
    Prod.ext (by decide +kernel) rfl, by decide +kernel, ?_⟩
  intro balanced
  exact absurd balanced.1 (by decide +kernel)

end OtterWorks.Migration
