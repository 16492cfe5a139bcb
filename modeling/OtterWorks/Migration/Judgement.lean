import OtterWorks.Lib.KeyPages
import OtterWorks.Migration.Runner

namespace OtterWorks.Migration

/-- A staged row as LOAD left it. -/
def StagedRow.plain (row : StagedRow) : StagedRow := { row with rowHash := none }

def plainRows (t : TargetTable) : List (Key × StagedRow) := t.staging.toList.map fun r => (r.1, r.2.plain)

def sourceOf (ts : TableSpec) (row : StagedRow) : Fields :=
  match ts.convert row.rawBytes with
  | .ok _ _ source => source
  | _ => []

/-- The source hash of a staged row's record. -/
def recordHash (ts : TableSpec) (row : StagedRow) : Hash := ts.sourceHash (sourceOf ts row)

/-- The candidate VALIDATE makes of a staged row. -/
def candidateOf (ts : TableSpec) (row : StagedRow) : Candidate :=
  ⟨row, sourceOf ts row, recordHash ts row, some (ts.targetHash row.values), none⟩

/-- A staged row is what its record converts to. -/
def Converted (ts : TableSpec) (row : StagedRow) : Prop :=
  ∃ source, ts.convert row.rawBytes = .ok row.sourceKey row.values source

def verdictOf (ts : TableSpec) (row : StagedRow) (finding : Option Finding) : ValidationRow :=
  Candidate.validationRow ts { candidateOf ts row with finding := finding }

def findingReject (row : StagedRow) (f : Finding) : Reject :=
  ⟨row.sourceKey, .validate, f.rule, f.fieldName, some row.rawBytes, none, none, none, errorText f.error, none⟩

/-- The per-row checks as VALIDATE reads them. -/
def checksAt (ts : TableSpec) (w : World) : RowChecks :=
  ⟨archivedHashesOf ts (w.target ts.name), ts.parent.map fun parent => parentsPresentOf ts.name parent w⟩

def successorsAt (ts : TableSpec) (w : World) : KeyMap Text Text :=
  match ts.classTotals.bind ClassTotals.sourceClassResolution with
  | none => ∅
  | some res => successorsOf res ((plainRows (w.target res.lookupTable)).map Prod.snd) ∅

/-- What pass 1 accumulates over the whole table. -/
def classPassAt (ts : TableSpec) (ct : ClassTotals) (w : World) : Except JobError ClassPass :=
  ((plainRows (w.target ts.name)).map fun r => candidateOf ts r.2).foldlM
    (ClassPass.add ts ct (successorsAt ts w)) ⟨∅, []⟩

def mismatchesAt (ts : TableSpec) (ct : ClassTotals) (w : World) (pass : ClassPass) : KeyMap Text ClassMismatch :=
  mismatchesOf ct (classTotalRows ct pass.src (classAggregatesOf ct ((plainRows (w.target ts.name)).map Prod.snd)))

/-- Why pass 2 fails a row. -/
def classFinding (ts : TableSpec) (ct : ClassTotals) (successors : KeyMap Text Text)
    (mismatches : KeyMap Text ClassMismatch) (moved : List Text) (row : StagedRow) : Option Finding :=
  let s := (candidateOf ts row).sourceClass ts ct successors
  let t := (candidateOf ts row).targetClass ct
  (classHit mismatches moved s t).map (failClass ct s t)

def classFindingAt (ts : TableSpec) (w : World) (row : StagedRow) : Option Finding :=
  match ts.classTotals with
  | none => none
  | some ct =>
    match classPassAt ts ct w with
    | .error _ => none
    | .ok pass => classFinding ts ct (successorsAt ts w) (mismatchesAt ts ct w pass) pass.moved row

def rowFindingAt (ts : TableSpec) (w : World) (row : StagedRow) : Option Finding :=
  (checksAt ts w).finding ts (candidateOf ts row)

/-- VALIDATE's judgement of a row, as a function of the state it starts in. -/
def judgementAt (ts : TableSpec) (w : World) (row : StagedRow) : Option Finding :=
  (rowFindingAt ts w row).or (classFindingAt ts w row)

/-- The hashes of a row agree with each other and with the archive. -/
structure Clean (ts : TableSpec) (w : World) (row : StagedRow) : Prop where
  hash : ts.targetHash row.values = recordHash ts row
  archived : ∀ a, (w.target ts.name).arch[ts.targetKey row.values]? = some a → a.rowHash = recordHash ts row

def ParentSeen (ts : TableSpec) (w : World) (row : StagedRow) : Prop :=
  ∀ parent, ts.parent = some parent →
    parentKey row.values parent.columns ∈ presentParents (w.target parent.table) parent

section

variable {ts : TableSpec} {w : World} {row : StagedRow}

theorem candidate_eq {hashes : KeyMap Key Hash} (converted : Converted ts row)
    (hashed : hashes[row.sourceKey]? = some (ts.targetHash row.values)) :
    candidate ts hashes row = .ok (candidateOf ts row) := by
  obtain ⟨source, h⟩ := converted
  simp [candidate, h, candidateOf, recordHash, sourceOf, hashed]

/-- Rows that LOAD left alike are judged alike. -/
theorem plain_eq {r : StagedRow} (same : r.plain = row.plain) :
    r.sourceKey = row.sourceKey ∧ r.values = row.values ∧ recordHash ts r = recordHash ts row := by
  have key := congrArg StagedRow.sourceKey same
  have raw := congrArg StagedRow.rawBytes same
  have values := congrArg StagedRow.values same
  refine ⟨key, values, ?_⟩
  change r.rawBytes = row.rawBytes at raw
  unfold recordHash sourceOf
  rw [raw]

theorem judgement_plain : judgementAt ts w row.plain = judgementAt ts w row := rfl

theorem verdict_plain (finding : Option Finding) : verdictOf ts row.plain finding = verdictOf ts row finding := by
  cases finding with
  | none => rfl
  | some f => rfl

theorem mem_plainRows {t : TargetTable} {k : Key} {row : StagedRow} :
    (k, row) ∈ plainRows t ↔ ∃ r, t.staging[k]? = some r ∧ row = r.plain := by
  unfold plainRows
  rw [List.mem_map]
  constructor
  · rintro ⟨⟨k', r⟩, hr, same⟩
    cases same
    exact ⟨r, KeyMap.mem_toList.mp hr, rfl⟩
  · rintro ⟨r, hr, rfl⟩
    exact ⟨(k, r), KeyMap.mem_toList.mpr hr, rfl⟩

theorem plainRows_keys (t : TargetTable) : (plainRows t).map Prod.fst = t.staging.keys := by
  unfold plainRows
  rw [List.map_map, ← Std.ExtTreeMap.map_fst_toList_eq_keys]
  rfl

/-- The last of the row checks. -/
def parentFinding (ts : TableSpec) (parentsPresent : Option (KeyMap Key Unit)) (row : StagedRow) : Option Finding :=
  match ts.parent, parentsPresent with
  | some parent, some present =>
    if row.sourceKey ∈ present then none
    else
      let pk := "|".intercalate ((parentKey row.values parent.columns).map String.ofList)
      some ⟨ruleOrphan, parent.columns.head?,
        s!"parent {parent.table}({pk}) is neither validated in this run nor present in arch.{parent.table}"⟩
  | _, _ => none

/-- The row checks find nothing exactly if hash, archive and parent are as they should be. -/
theorem rowFinding_none {k : Key} (held : (k, row.plain) ∈ plainRows (w.target ts.name)) (key : row.sourceKey = k) :
    rowFindingAt ts w row = none ↔ Clean ts w row ∧ ParentSeen ts w row := by
  obtain ⟨r, hr, same⟩ := mem_plainRows.mp held
  have values : r.values = row.values := by
    have := congrArg StagedRow.values same
    exact this.symm
  have archived : (checksAt ts w).archived[row.sourceKey]? =
      ((w.target ts.name).arch[ts.targetKey row.values]?).map ArchRow.rowHash := by
    rw [key]
    simp [checksAt, archivedHashesOf, hr, values]
  have present : ∀ parent, row.sourceKey ∈ parentsPresentOf ts.name parent w ↔
      parentKey row.values parent.columns ∈ presentParents (w.target parent.table) parent := by
    intro parent
    unfold parentsPresentOf
    rw [key, Std.ExtTreeMap.mem_map, ← Std.ExtTreeMap.isSome_getElem?_iff_mem, Std.ExtTreeMap.getElem?_filter', hr]
    simp [Option.filter, values]
  unfold rowFindingAt RowChecks.finding
  simp only [candidateOf]
  by_cases hash : ts.targetHash row.values = recordHash ts row
  · simp only [hash, ne_eq, not_true_eq_false, if_false, archived]
    have parentPart : parentFinding ts (checksAt ts w).parentsPresent row = none ↔ ParentSeen ts w row := by
      unfold ParentSeen checksAt parentFinding
      cases hp : ts.parent with
      | none => simp
      | some parent =>
        simp only [Option.map_some, Option.some.injEq, forall_eq']
        rw [← present parent]
        split
        next h => simp [h]
        next h => simp [h]
    cases ha : (w.target ts.name).arch[ts.targetKey row.values]? with
    | none =>
      simp only [Option.map_none]
      refine parentPart.trans ⟨fun seen => ⟨⟨hash, by simp [ha]⟩, seen⟩, fun h => h.2⟩
    | some a =>
      simp only [Option.map_some]
      by_cases agree : a.rowHash = recordHash ts row
      · simp only [agree, not_true_eq_false, if_false]
        refine parentPart.trans ⟨fun seen => ⟨⟨hash, ?_⟩, seen⟩, fun h => h.2⟩
        intro b hb
        rw [ha] at hb
        cases hb
        exact agree
      · simp only [agree, not_false_eq_true, if_true]
        constructor
        · intro impossible
          cases impossible
        · intro h
          exact absurd (h.1.archived a ha) agree
  · have differ : some (ts.targetHash row.values) ≠ some (recordHash ts row) := fun same => hash (Option.some.inj same)
    simp only [ne_eq, differ, not_false_eq_true, if_true]
    constructor
    · intro impossible
      cases impossible
    · intro h
      exact absurd h.1.hash hash

end

end OtterWorks.Migration
