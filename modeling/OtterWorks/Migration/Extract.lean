import Mathlib.Data.List.Sort
import OtterWorks.Migration.Drivers

namespace OtterWorks.Migration

/-- `plan_ranges`: consecutive ranges of at most `rangeRows` keys, numbered from `seq`. `budget`
bounds the number of ranges. -/
def planFrom (rangeRows : Nat) : Nat → Nat → List Key → List KeyRange
  | 0, _, _ => []
  | budget + 1, seq, keys =>
    match keys.take rangeRows with
    | [] => []
    | first :: chunk =>
      ⟨seq, first, (first :: chunk).getLast (by simp), .planned, none, .pending⟩ ::
        planFrom rangeRows budget (seq + 1) (keys.drop rangeRows)

def planRanges (keys : List Key) (rangeRows : Nat) : List KeyRange := planFrom rangeRows keys.length 1 keys

/-- The built-in unload of one range: the file is opened, then written row by row. -/
def builtinUnload (ts : TableSpec) (rng : KeyRange) : Job Nat := do
  openFile ts.name rng.rangeSeq
  let rows ← fetchRange ts rng.keyFrom rng.keyTo
  rows.forM fun row =>
    match ts.unload row with
    | .ok record => writeRecord ts.name rng.rangeSeq record
    | .error e => throw (.unexpected e)
  pure rows.length

def runRange (ts : TableSpec) (rng : KeyRange) : Job KeyRange := do
  updateKeyRange ts.name rng.rangeSeq fun r => { r with status := .running }
  let rows ← tryCatch (do
      let rows ← builtinUnload ts rng
      -- the .cnt and .sha256 files, and the uploads
      touch
      pure rows)
    fun e => do
      if e.isLdm then updateKeyRange ts.name rng.rangeSeq fun r => { r with status := .failed }
      throw e
  updateKeyRange ts.name rng.rangeSeq fun r => { r with status := .done, rowCount := some rows }
  pure { rng with status := .done, rowCount := some rows }

def byRangeSeq (ranges : List KeyRange) : List KeyRange :=
  ranges.insertionSort fun a b => a.rangeSeq ≤ b.rangeSeq

/-- The recorded key ranges, planned if there are none. -/
def keyRanges (batch : BatchConfig) (ts : TableSpec) : Job (List KeyRange) := do
  let ranges ← getKeyRanges ts.name
  if ranges.isEmpty then do
    let keys ← selectKeys ts
    insertKeyRanges ts.name (planRanges keys batch.extractRangeRows)
    pure (planRanges keys batch.extractRangeRows)
  else pure ranges

def extractRange (ts : TableSpec) (extracted : Nat) (rng : KeyRange) : Job Nat :=
  if rng.status = .done then pure (extracted + rng.rowCount.getD 0)
  else do
    let rng ← runRange ts rng
    pure (extracted + rng.rowCount.getD 0)

def extractTable (batch : BatchConfig) (ts : TableSpec) : Job Unit := do
  let ranges ← keyRanges batch ts
  let extracted ← (byRangeSeq ranges).foldlM (extractRange ts) 0
  updateLedger ts.name fun l => { l with extracted := some extracted, extractFiles := some ranges.length }

/-- One table's part of a stage, between its `mig.stage_log` rows. -/
def logged {α : Type} (body : Job α) : Job α := do
  stageLogStart
  let result ← tryCatch body fun e => do
    stageLogFinish
    throw e
  stageLogFinish
  pure result

def extract (batch : BatchConfig) (tables : List TableSpec) : Job Unit :=
  tables.forM fun ts => logged (extractTable batch ts)

end OtterWorks.Migration
