import OtterWorks.Lib.Bisect
import OtterWorks.Migration.Drivers
import OtterWorks.Migration.LoadStage

namespace OtterWorks.Migration

structure TargetError where
  sqlstate : Option String
  nativeError : Option Int
  text : String
  deriving DecidableEq, Repr

def InsertFailure.of (refused : StagedRow × TargetError) : InsertFailure :=
  ⟨refused.1.sourceKey, refused.2.sqlstate, refused.2.nativeError, refused.2.text⟩

/-- `insert_staging` into a target that takes or refuses each row, whatever it has stored before. -/
def insertStagingInto {σ : Type} (take : σ → StagedRow → Except TargetError σ) (rows : List StagedRow) :
    Prog σ TargetError (List InsertFailure) :=
  if rows.isEmpty then pure []
  else do
    let refused ← bisect take rows.length rows
    pure (refused.map InsertFailure.of)

def InsertFailure.error (f : InsertFailure) : TargetError := ⟨f.sqlstate, f.nativeError, f.errorText⟩

/-- How the staging table takes a row. -/
def stageRow (ts : TableSpec) (staging : KeyMap Key StagedRow) (row : StagedRow) :
    Except TargetError (KeyMap Key StagedRow) :=
  match stagingError ts staging row with
  | some f => .error f.error
  | none => .ok (staging.insert row.sourceKey row)

section

variable {σ : Type} {take : σ → StagedRow → Except TargetError σ} {rows : List StagedRow} {s : σ}

/-- Every row of a batch is stored or reported, once and in its place: stored exactly if the target takes it after the
rows stored before it. -/
theorem insertStaging_exact (take : σ → StagedRow → Except TargetError σ) (rows : List StagedRow) (s : σ) :
    ∃ (outcomes : List (StagedRow × Option TargetError)) (stored : σ),
      (insertStagingInto take rows).eval s = (.ok ((refusedOf outcomes).map InsertFailure.of), stored) ∧
      outcomes.map Prod.fst = rows ∧
      (takenOf outcomes).foldlM take s = .ok stored ∧
      ∀ before row outcome after, outcomes = before ++ (row, outcome) :: after →
        ∃ t, (takenOf before).foldlM take s = .ok t ∧ outcome = refusal (take t row) := by
  refine ⟨(oneByOne take s rows).1, (oneByOne take s rows).2, ?_, oneByOne_values, oneByOne_taken, ?_⟩
  · rw [insertStagingInto]
    split
    next empty =>
      rw [List.isEmpty_iff.mp empty]
      rfl
    next => rw [Prog.eval_bind_ok (eval_bisect (Nat.le_refl _)), Prog.eval_pure]
  · intro before row outcome after h
    exact oneByOne_outcome h

variable {ts : TableSpec} {staging : KeyMap Key StagedRow} {w : World} {depth : Nat}

theorem stageAll_foldlM : rows.foldlM (stageRow ts) staging = (stageAll ts staging rows).mapError InsertFailure.error := by
  induction rows generalizing staging with
  | nil => rfl
  | cons row rows ih =>
    rw [List.foldlM_cons, stageAll, stageRow]
    cases stagingError ts staging row with
    | some f => rfl
    | none => exact ih

theorem restage_same : (w.onTarget ts.name fun t => { t with staging := (w.target ts.name).staging }) = w :=
  World.onTarget_id rfl

/-- The driver's staging table is such a target. -/
theorem insertBisect_follows {refused : List (StagedRow × TargetError)} {stored : KeyMap Key StagedRow}
    (h : (bisect (stageRow ts) depth rows).eval (w.target ts.name).staging = (.ok refused, stored)) :
    (insertBisect ts depth rows).eval w =
      (.ok (refused.map InsertFailure.of), w.onTarget ts.name fun t => { t with staging := stored }) := by
  induction depth generalizing rows w refused stored with
  | zero =>
    cases h
    rw [restage_same]
    rfl
  | succ depth ih =>
    rw [bisect, Prog.eval_tryCatch, Prog.eval_bind, Prog.eval_attempt, stageAll_foldlM] at h
    rw [insertBisect, Prog.eval_tryCatch, Prog.eval_bind, executemanyStaging, Prog.eval_attempt]
    cases whole : stageAll ts (w.target ts.name).staging rows with
    | ok staged =>
      rw [whole] at h
      cases h
      rfl
    | error f =>
      rw [whole] at h
      simp only [Except.mapError] at h
      simp only
      split
      next row =>
        cases h
        rw [restage_same]
        rfl
      next several =>
        split at h
        next row => exact absurd rfl (several row)
        next =>
          rw [Prog.eval_bind] at h
          split at h
          next left middle leftRun =>
            rw [Prog.eval_bind] at h
            split at h
            next right final rightRun =>
              cases h
              have leftEval := ih leftRun
              have rightEval := @ih _ (w.onTarget ts.name fun t => { t with staging := middle }) _ _
                (by rw [World.onTarget_self]; exact rightRun)
              rw [Prog.eval_bind_ok leftEval, Prog.eval_bind_ok rightEval, Prog.eval_pure, World.onTarget_onTarget,
                ← List.map_append]
            next => cases h
          next => cases h

/-- The driver stores a batch row by row, however it halves it. -/
theorem eval_insertStaging_each : (insertStaging ts rows).eval w =
    (.ok ((refusedOf (oneByOne (stageRow ts) (w.target ts.name).staging rows).1).map InsertFailure.of),
      w.onTarget ts.name fun t => { t with staging := (oneByOne (stageRow ts) (w.target ts.name).staging rows).2 }) := by
  rw [insertStaging]
  split
  next empty =>
    rw [List.isEmpty_iff.mp empty, oneByOne, restage_same]
    rfl
  next => exact insertBisect_follows (eval_bisect (Nat.le_refl _))

end

def stagedEntries (rows : List StagedRow) : List (Key × StagedRow) := rows.map fun row => (row.sourceKey, row)

/-- The rows that the target takes. -/
def accepted (ts : TableSpec) (staging : KeyMap Key StagedRow) (rows : List StagedRow) : List StagedRow :=
  rows.filter fun row => (stagingError ts staging row).isNone

def refusals (ts : TableSpec) (staging : KeyMap Key StagedRow) (rows : List StagedRow) : List InsertFailure :=
  rows.filterMap (stagingError ts staging)

def stageRows (rows : List StagedRow) (t : TargetTable) : TargetTable :=
  { t with staging := t.staging.upsertAll (stagedEntries rows) }

theorem stagedEntries_keys (rows : List StagedRow) :
    (stagedEntries rows).map Prod.fst = rows.map StagedRow.sourceKey := by
  simp [stagedEntries]

theorem stagingError_sourceKey {ts : TableSpec} {staging : KeyMap Key StagedRow} {row : StagedRow}
    {f : InsertFailure} (h : stagingError ts staging row = some f) : f.sourceKey = row.sourceKey := by
  unfold stagingError at h
  split at h
  next =>
    cases Option.some.inj h
    rfl
  next =>
    obtain ⟨e, _, rfl⟩ := Option.map_eq_some_iff.mp h
    rfl

/-- Other keys do not matter for whether the target takes a row. -/
theorem stagingError_congr {ts : TableSpec} {staging staging' : KeyMap Key StagedRow} {row : StagedRow}
    (h : row.sourceKey ∈ staging' ↔ row.sourceKey ∈ staging) :
    stagingError ts staging' row = stagingError ts staging row := by
  unfold stagingError
  simp only [h]

theorem stagingError_upsertAll {ts : TableSpec} {staging : KeyMap Key StagedRow} {rows : List StagedRow}
    {row : StagedRow} (fresh : row.sourceKey ∉ rows.map StagedRow.sourceKey) :
    stagingError ts (staging.upsertAll (stagedEntries rows)) row = stagingError ts staging row := by
  apply stagingError_congr
  have same := @KeyMap.upsertAll_of_not_mem _ _ _ _ _ _ staging (stagedEntries rows) _
      (by rw [stagedEntries_keys]; exact fresh)
  rw [← Std.ExtTreeMap.isSome_getElem?_iff_mem, ← Std.ExtTreeMap.isSome_getElem?_iff_mem, same]

theorem accepted_sublist (ts : TableSpec) (staging : KeyMap Key StagedRow) (rows : List StagedRow) :
    (accepted ts staging rows).Sublist rows := List.filter_sublist

/-- Of rows with distinct keys each is taken or refused as if it were alone. -/
theorem oneByOne_stage {ts : TableSpec} {staging : KeyMap Key StagedRow} {rows : List StagedRow}
    (distinct : (rows.map StagedRow.sourceKey).Nodup) :
    oneByOne (stageRow ts) staging rows =
      (rows.map fun row => (row, (stagingError ts staging row).map InsertFailure.error),
        staging.upsertAll (stagedEntries (accepted ts staging rows))) := by
  induction rows generalizing staging with
  | nil => rfl
  | cons row rows ih =>
    obtain ⟨fresh, distinct⟩ := List.nodup_cons.mp distinct
    rw [oneByOne, stageRow]
    cases refused : stagingError ts staging row with
    | some f =>
      have same : accepted ts staging (row :: rows) = accepted ts staging rows := by simp [accepted, refused]
      simp only [ih distinct, List.map_cons, refused, Option.map_some, same]
    | none =>
      have apart : ∀ other ∈ rows, stagingError ts (staging.insert row.sourceKey row) other =
          stagingError ts staging other := by
        intro other ho
        have differ : other.sourceKey ≠ row.sourceKey := by
          intro same
          exact fresh (List.mem_map.mpr ⟨other, ho, same⟩)
        apply stagingError_congr
        simp [Std.ExtTreeMap.mem_insert, Ne.symm differ]
      have outcomes : (rows.map fun other =>
            (other, (stagingError ts (staging.insert row.sourceKey row) other).map InsertFailure.error)) =
          rows.map fun other => (other, (stagingError ts staging other).map InsertFailure.error) :=
        List.map_congr_left fun other ho => by rw [apart other ho]
      have rest : accepted ts (staging.insert row.sourceKey row) rows = accepted ts staging rows :=
        List.filter_congr fun other ho => by rw [apart other ho]
      have first : accepted ts staging (row :: rows) = row :: accepted ts staging rows := by simp [accepted, refused]
      simp only [ih distinct, List.map_cons, refused, Option.map_none, outcomes, rest, first]
      rfl

theorem eval_insertStaging {ts : TableSpec} {rows : List StagedRow} {w : World}
    (distinct : (rows.map StagedRow.sourceKey).Nodup) :
    (insertStaging ts rows).eval w =
      (.ok (refusals ts (w.target ts.name).staging rows),
        w.onTarget ts.name (stageRows (accepted ts (w.target ts.name).staging rows))) := by
  have reported : (refusedOf (rows.map fun row => (row, (stagingError ts (w.target ts.name).staging row).map
      InsertFailure.error))).map InsertFailure.of = refusals ts (w.target ts.name).staging rows := by
    rw [refusedOf, List.filterMap_map, List.map_filterMap]
    apply List.filterMap_congr
    intro row _
    cases refused : stagingError ts (w.target ts.name).staging row with
    | none => simp [refused]
    | some f =>
      have key := stagingError_sourceKey refused
      simp [refused, InsertFailure.of, InsertFailure.error, ← key]
  rw [eval_insertStaging_each, oneByOne_stage distinct]
  exact congrArg₂ Prod.mk (congrArg Except.ok reported) (World.onTarget_congr rfl)

end OtterWorks.Migration
