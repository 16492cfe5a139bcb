import OtterWorks.Migration.Climate
import OtterWorks.Migration.Judgement

namespace OtterWorks.Migration

/-- A parent in another table is present. -/
def ForeignParentSeen (ts : TableSpec) (w : World) (row : StagedRow) : Prop :=
  ∀ parent, ts.parent = some parent → parent.table ≠ ts.name →
    parentKey row.values parent.columns ∈ presentParents (w.target parent.table) parent

/-- What a driver call of VALIDATE changes, and what is known when it does. -/
inductive ValidateMove (ts : TableSpec) (w : World) : World → Prop
  | verdicts (rows : List ValidationRow)
      (each : ∀ r ∈ rows, ∃ row finding, (w.target ts.name).staging[r.sourceKey]? = some row ∧
        r = verdictOf ts row finding ∧ (finding = none → Clean ts w row ∧ ForeignParentSeen ts w row)) :
      ValidateMove ts w (w.onTarget ts.name fun t =>
        { t with validation := t.validation.upsertAll (rows.map fun r => (r.sourceKey, r)) })
  | hashes (hashes : List (Key × Hash))
      (each : ∀ k h, (k, h) ∈ hashes → ∃ row, (w.target ts.name).staging[k]? = some row ∧ h = recordHash ts row) :
      ValidateMove ts w (w.onTarget ts.name fun t =>
        { t with staging := t.staging.map fun k row =>
            match hashes.lookup k with
            | some h => { row with rowHash := some h }
            | none => row })
  | dropRejects (keys : List Key) (each : ∀ k ∈ keys, k ∈ (w.target ts.name).staging) :
      ValidateMove ts w (w.onTarget ts.name fun t =>
        { t with rejects := t.rejects.filter fun k r => !(decide (k ∈ keys) && decide (r.stage = .validate)) })
  | addRejects (rejects : List Reject)
      (each : ∀ r ∈ rejects, r.stage = .validate ∧ r.sourceKey ∈ (w.target ts.name).staging) :
      ValidateMove ts w (w.onTarget ts.name fun t =>
        { t with rejects := t.rejects.addNew (rejects.map fun r => (r.sourceKey, r)) })
  | classTotals (rows : List ClassTotalRow) :
      ValidateMove ts w (w.onTarget ts.name fun t => { t with classTotals := rows })
  | promote (rows : List (Text × ArchRow)) (found : promotion ts (w.target ts.name) = some rows)
      (distinct : (rows.map Prod.fst).Nodup)
      (clean : ∀ k row, (k, row) ∈ validatedStaged (w.target ts.name) →
        row.rowHash = some (recordHash ts row) ∧ Clean ts w row) :
      ValidateMove ts w (w.onTarget ts.name fun t =>
        { t with
          arch := t.arch.upsertAll rows
          promoted := t.promoted.addNew ((validatedStaged t).map fun row => (row.1, ())) })
  | ledger (validated failed : Nat)
      (hvalidated : validated = (w.target ts.name).validation.countIf fun v => v.status = .validated)
      (hfailed : failed = (w.target ts.name).validation.countIf fun v => v.status = .failed) :
      ValidateMove ts w (w.onTarget ts.name fun t =>
        t.onLedger fun l => { l with validated := some validated, validateFailed := some failed })

/-- The staging area with some hashes written holds the rows that it held. -/
theorem hashed_row {staging : KeyMap Key StagedRow} {hashes : List (Key × Hash)} {k : Key} {row : StagedRow}
    (held : (staging.map fun k row =>
      match hashes.lookup k with
      | some h => { row with rowHash := some h }
      | none => row)[k]? = some row) : ∃ r, staging[k]? = some r ∧ row.plain = r.plain := by
  rw [Std.ExtTreeMap.getElem?_map] at held
  obtain ⟨r, there, rfl⟩ := Option.map_eq_some_iff.mp held
  refine ⟨r, there, ?_⟩
  split
  next => rfl
  next => rfl

/-- What VALIDATE leaves of a row it found this of. -/
structure Judged (ts : TableSpec) (t : TargetTable) (row : StagedRow) (finding : Option Finding) : Prop where
  verdict : t.validation[row.sourceKey]? = some (verdictOf ts row finding)
  hashed : ∀ r, t.staging[row.sourceKey]? = some r → r.rowHash = some (recordHash ts row)
  failed : ∀ f, finding = some f →
    ∃ r, t.rejects[row.sourceKey]? = some r ∧ (r = findingReject row f ∨ r.stage = .load)
  passed : finding = none → ∀ r, t.rejects[row.sourceKey]? = some r → r.stage = .load

theorem Judged.plain {ts : TableSpec} {t : TargetTable} {row : StagedRow} {finding : Option Finding} :
    Judged ts t row.plain finding ↔ Judged ts t row finding := by
  constructor
  · rintro ⟨verdict, hashed, failed, passed⟩
    exact ⟨@verdict_plain _ row finding ▸ verdict, hashed, failed, passed⟩
  · rintro ⟨verdict, hashed, failed, passed⟩
    exact ⟨(@verdict_plain _ row finding).symm ▸ verdict, hashed, failed, passed⟩

/-- The candidates of some rows, with what was found of each. -/
def findingsOf (ts : TableSpec) (g : StagedRow → Option Finding) (rows : List StagedRow) : List Candidate :=
  rows.map fun row => { candidateOf ts row with finding := g row }

/-- What `write_validation` leaves of a table. -/
def written (ts : TableSpec) (g : StagedRow → Option Finding) (rows : List StagedRow) (t : TargetTable) :
    TargetTable :=
  { t with
    validation := t.validation.upsertAll (((findingsOf ts g rows).map (Candidate.validationRow ts)).map fun r =>
      (r.sourceKey, r))
    staging := t.staging.map fun k row =>
      match (((findingsOf ts g rows).map (Candidate.validationRow ts)).map fun r =>
          (r.sourceKey, r.sourceHash)).lookup k with
      | some h => { row with rowHash := some h }
      | none => row }

/-- What `_persist` of these candidates leaves of a table. -/
def persistAll (ts : TableSpec) (cs : List Candidate) (t : TargetTable) : TargetTable :=
  { t with
    validation := t.validation.upsertAll ((cs.map (Candidate.validationRow ts)).map fun r => (r.sourceKey, r))
    staging := t.staging.map fun k row =>
      match ((cs.map (Candidate.validationRow ts)).map fun r => (r.sourceKey, r.sourceHash)).lookup k with
      | some h => { row with rowHash := some h }
      | none => row
    rejects := KeyMap.addNew (t.rejects.filter fun k r =>
        !(decide (k ∈ cs.map fun c => c.row.sourceKey) && decide (r.stage = .validate)))
      ((cs.filterMap Candidate.reject).map fun r => (r.sourceKey, r)) }

/-- What `_persist` leaves of a table. -/
def persisted (ts : TableSpec) (g : StagedRow → Option Finding) (rows : List StagedRow) (t : TargetTable) :
    TargetTable :=
  { written ts g rows t with
    rejects := KeyMap.addNew (t.rejects.filter fun k r =>
        !(decide (k ∈ (findingsOf ts g rows).map fun c => c.row.sourceKey) && decide (r.stage = .validate)))
      (((findingsOf ts g rows).filterMap Candidate.reject).map fun r => (r.sourceKey, r)) }

section

variable {ts : TableSpec} {g : StagedRow → Option Finding} {rows : List StagedRow} {t : TargetTable}

theorem validationRow_of (row : StagedRow) :
    Candidate.validationRow ts { candidateOf ts row with finding := g row } = verdictOf ts row (g row) := rfl

theorem verdictOf_key (row : StagedRow) (finding : Option Finding) :
    (verdictOf ts row finding).sourceKey = row.sourceKey ∧
      (verdictOf ts row finding).sourceHash = recordHash ts row := by
  cases finding with
  | none => exact ⟨rfl, rfl⟩
  | some f => exact ⟨rfl, rfl⟩

theorem verdicts_eq : (findingsOf ts g rows).map (Candidate.validationRow ts) =
    rows.map fun row => verdictOf ts row (g row) := by
  simp [findingsOf, validationRow_of]

theorem verdict_entries : (((findingsOf ts g rows).map (Candidate.validationRow ts)).map fun r => (r.sourceKey, r)) =
    rows.map fun row => (row.sourceKey, verdictOf ts row (g row)) := by
  rw [verdicts_eq, List.map_map]
  apply List.map_congr_left
  intro row _
  simp [(@verdictOf_key ts row (g row)).1]

theorem hash_entries :
    (((findingsOf ts g rows).map (Candidate.validationRow ts)).map fun r => (r.sourceKey, r.sourceHash)) =
      rows.map fun row => (row.sourceKey, recordHash ts row) := by
  rw [verdicts_eq, List.map_map]
  apply List.map_congr_left
  intro row _
  simp [(@verdictOf_key ts row (g row)).1, (@verdictOf_key ts row (g row)).2]

theorem finding_keys : ((findingsOf ts g rows).map fun c => c.row.sourceKey) = rows.map StagedRow.sourceKey := by
  simp [findingsOf, candidateOf]

theorem reject_entries : (((findingsOf ts g rows).filterMap Candidate.reject).map fun r => (r.sourceKey, r)) =
    rows.filterMap fun row => (g row).map fun f => (row.sourceKey, findingReject row f) := by
  unfold findingsOf
  rw [List.filterMap_map, List.map_filterMap]
  apply List.filterMap_congr
  intro row _
  cases hg : g row with
  | none => simp [Candidate.reject, hg]
  | some f => simp [Candidate.reject, hg, findingReject, candidateOf]

theorem lookup_entries {β : Type} {f : StagedRow → β} (distinct : (rows.map StagedRow.sourceKey).Nodup)
    {row : StagedRow} (hr : row ∈ rows) :
    (rows.map fun row => (row.sourceKey, f row)).lookup row.sourceKey = some (f row) := by
  induction rows with
  | nil => cases hr
  | cons first rows ih =>
    obtain ⟨fresh, distinct⟩ := List.nodup_cons.mp distinct
    rcases List.mem_cons.mp hr with rfl | hr
    · simp
    · have other : row.sourceKey ≠ first.sourceKey := by
        intro same
        exact fresh (List.mem_map.mpr ⟨row, hr, same⟩)
      rw [List.map_cons, List.lookup_cons, beq_false_of_ne other]
      exact ih distinct hr

theorem lookup_absent {β : Type} {k : Key} {entries : List (Key × β)} (absent : k ∉ entries.map Prod.fst) :
    entries.lookup k = none := by
  rw [List.lookup_eq_none_iff]
  intro entry member
  have other : k ≠ entry.1 := fun same => absent (List.mem_map.mpr ⟨entry, member, same.symm⟩)
  simpa using other

theorem lookup_entries_none {β : Type} {f : StagedRow → β} {k : Key} (absent : k ∉ rows.map StagedRow.sourceKey) :
    (rows.map fun row => (row.sourceKey, f row)).lookup k = none := by
  apply lookup_absent
  rw [List.map_map]
  exact absent

theorem plainRows_map {t' : TargetTable} {f : Key → StagedRow → StagedRow} (staging : t'.staging = t.staging.map f)
    (keeps : ∀ k row, (f k row).plain = row.plain) : plainRows t' = plainRows t := by
  unfold plainRows
  rw [staging]
  simp only [Std.ExtTreeMap.toList_map, List.map_map]
  apply List.map_congr_left
  intro r _
  exact congrArg (Prod.mk r.1) (keeps r.1 r.2)

theorem plainRows_persistAll {cs : List Candidate} : plainRows (persistAll ts cs t) = plainRows t := by
  refine plainRows_map rfl ?_
  intro k row
  split
  next => rfl
  next => rfl

theorem persisted_plain : plainRows (persisted ts g rows t) = plainRows t := plainRows_persistAll

theorem judged_persisted (distinct : (rows.map StagedRow.sourceKey).Nodup) {row : StagedRow} (hr : row ∈ rows) :
    Judged ts (persisted ts g rows t) row (g row) := by
  have key : row.sourceKey ∈ rows.map StagedRow.sourceKey := List.mem_map.mpr ⟨row, hr, rfl⟩
  have same : ∀ other ∈ rows, other.sourceKey = row.sourceKey → other = row := fun other ho hkey =>
    List.inj_on_of_nodup_map distinct ho hr hkey
  have old : ∀ r : Reject, (t.rejects.filter fun k r =>
      !(decide (k ∈ (findingsOf ts g rows).map fun c => c.row.sourceKey) && decide (r.stage = .validate)))[row.sourceKey]? =
        some r → r.stage = .load := by
    intro r held
    rw [Std.ExtTreeMap.getElem?_filter', finding_keys] at held
    have kept := (Option.filter_eq_some_iff.mp held).2
    cases hs : r.stage with
    | load => rfl
    | validate => simp [key, hs] at kept
  refine ⟨?_, ?_, ?_, ?_⟩
  · unfold persisted written
    simp only
    rw [verdict_entries]
    apply KeyMap.upsertAll_of_mem
    · rw [List.map_map]
      exact distinct
    · exact List.mem_map.mpr ⟨row, hr, rfl⟩
  · intro r held
    unfold persisted written at held
    simp only [Std.ExtTreeMap.getElem?_map, hash_entries] at held
    obtain ⟨r', _, rfl⟩ := Option.map_eq_some_iff.mp held
    rw [lookup_entries distinct hr]
  · intro f hf
    unfold persisted
    simp only
    rw [KeyMap.getElem?_addNew]
    cases held : (t.rejects.filter fun k r => !(decide (k ∈ (findingsOf ts g rows).map fun c => c.row.sourceKey) &&
        decide (r.stage = .validate)))[row.sourceKey]? with
    | some r => exact ⟨r, rfl, Or.inr (old r held)⟩
    | none =>
      rw [reject_entries]
      cases found : (rows.filterMap fun row => (g row).map fun f => (row.sourceKey, findingReject row f)).find? fun r =>
          r.1 = row.sourceKey with
      | none =>
        have := List.find?_eq_none.mp found (row.sourceKey, findingReject row f)
          (List.mem_filterMap.mpr ⟨row, hr, by simp [hf]⟩)
        simp at this
      | some entry =>
        obtain ⟨other, ho, made⟩ := List.mem_filterMap.mp (List.mem_of_find?_eq_some found)
        obtain ⟨f', hf', rfl⟩ := Option.map_eq_some_iff.mp made
        have hkey : other.sourceKey = row.sourceKey := by simpa using List.find?_some found
        cases same other ho hkey
        rw [hf] at hf'
        cases hf'
        exact ⟨_, rfl, Or.inl rfl⟩
  · intro clean r held
    unfold persisted at held
    simp only at held
    rcases KeyMap.addNew_cases held with held | ⟨_, added⟩
    · exact old r held
    · rw [reject_entries] at added
      obtain ⟨other, ho, made⟩ := List.mem_filterMap.mp added
      obtain ⟨f, hf, entry⟩ := Option.map_eq_some_iff.mp made
      have hkey := congrArg Prod.fst entry
      cases same other ho hkey
      rw [clean] at hf
      cases hf

theorem judged_other {row : StagedRow} {finding : Option Finding} (other : row.sourceKey ∉ rows.map StagedRow.sourceKey)
    (judged : Judged ts t row finding) : Judged ts (persisted ts g rows t) row finding := by
  have rejects : (persisted ts g rows t).rejects[row.sourceKey]? = t.rejects[row.sourceKey]? := by
    unfold persisted
    simp only
    rw [reject_entries, KeyMap.addNew_of_not_mem, Std.ExtTreeMap.getElem?_filter', finding_keys]
    · cases t.rejects[row.sourceKey]? with
      | none => rfl
      | some r => simp [other]
    · intro held
      obtain ⟨entry, he, hkey⟩ := List.mem_map.mp held
      obtain ⟨r, hr, made⟩ := List.mem_filterMap.mp he
      obtain ⟨f, _, rfl⟩ := Option.map_eq_some_iff.mp made
      exact other (List.mem_map.mpr ⟨r, hr, hkey⟩)
  refine ⟨?_, ?_, ?_, ?_⟩
  · unfold persisted written
    simp only
    rw [verdict_entries, KeyMap.upsertAll_of_not_mem]
    · exact judged.verdict
    · rw [List.map_map]
      exact other
  · intro r held
    unfold persisted written at held
    simp only [Std.ExtTreeMap.getElem?_map, hash_entries] at held
    obtain ⟨r', there, rfl⟩ := Option.map_eq_some_iff.mp held
    rw [lookup_entries_none other]
    exact judged.hashed r' there
  · rw [rejects]
    exact judged.failed
  · rw [rejects]
    exact judged.passed

end

end OtterWorks.Migration
