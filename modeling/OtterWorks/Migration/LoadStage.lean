import OtterWorks.Lib.Interleave
import OtterWorks.Migration.Load
import Mathlib.Data.List.Sort

namespace OtterWorks.Migration

/-- One record after conversion: its staged row, or its reject. -/
structure Routed where
  sourceKey : Key
  index : Nat
  outcome : Reject ⊕ StagedRow
  deriving DecidableEq, Repr

/-- `slices`: consecutive index ranges of at most `per` records. `budget` bounds their number. -/
def slicesFrom (per count : Nat) : Nat → Nat → List (Nat × Nat)
  | 0, _ => []
  | budget + 1, first =>
    if first < count then (first, min (first + per) count) :: slicesFrom per count budget (first + per)
    else []

def slices (count per : Nat) : List (Nat × Nat) := slicesFrom per count count 0

/-- Record bytes with their index in the file. -/
def readSlice (records : List Raw) (sl : Nat × Nat) : List (Raw × Nat) :=
  ((records.drop sl.1).take (sl.2 - sl.1)).zipIdx sl.1

def convertRecordAt (ts : TableSpec) (rangeSeq : Nat) (entry : Raw × Nat) : Except JobError Routed :=
  match ts.convert entry.1 with
  | .undecodable e => .error (.unexpected e)
  | .malformed k err => .ok ⟨k, entry.2, .inl (malformedReject k err entry.1 rangeSeq)⟩
  | .ok k values _ => .ok ⟨k, entry.2, .inr ⟨k, rangeSeq, entry.1, values, none⟩⟩

def convertSlice (ts : TableSpec) (rangeSeq : Nat) (records : List Raw) (sl : Nat × Nat) :
    Except JobError (List Routed) :=
  (readSlice records sl).mapM (convertRecordAt ts rangeSeq)

/-- The loop of `route_key` over one key's records in file order. -/
def keepFirst (ts : TableSpec) (rangeSeq : Nat) : Bool → List Routed → List Routed
  | _, [] => []
  | kept, r :: rs =>
    match r.outcome with
    | .inl _ => r :: keepFirst ts rangeSeq kept rs
    | .inr row =>
      if kept then
        ⟨r.sourceKey, r.index, .inl (duplicateReject ts r.sourceKey row.rawBytes rangeSeq)⟩ ::
          keepFirst ts rangeSeq true rs
      else r :: keepFirst ts rangeSeq true rs

def routeKey (ts : TableSpec) (rangeSeq : Nat) (records : List Routed) : List Routed :=
  keepFirst ts rangeSeq false (records.insertionSort fun a b => a.index ≤ b.index)

/-- What one call of a sink's `flush` finds: the staged rows and the rejects queued since the last. -/
structure Flush where
  batch : List StagedRow
  rejects : List Reject
  deriving DecidableEq, Repr

/-- The loop of `sink_partition` up to its final flush, which finds what is left. -/
def sinkFlushes (loadBatchRows : Nat) : Flush → List Routed → List Flush
  | pending, [] => [pending]
  | pending, r :: rs =>
    let pending := match r.outcome with
      | .inr row => { pending with batch := pending.batch ++ [row] }
      | .inl reject => { pending with rejects := pending.rejects ++ [reject] }
    if pending.batch.length ≥ loadBatchRows then
      pending :: sinkFlushes loadBatchRows ⟨[], []⟩ rs
    else sinkFlushes loadBatchRows pending rs

/-- `flush` of `sink_partition`; answers what it adds to `loaded` and `rejected`, with the queued
rejects counted here. -/
def sinkFlush (ts : TableSpec) (f : Flush) : Job (Nat × Nat) := do
  let failures ← insertStaging ts f.batch
  let failed := (failures.map InsertFailure.sourceKey).dedup.length
  flushRejects ts.name (f.rejects ++ failureRejects ts f.batch failures)
  pure (f.batch.length - failed, f.rejects.length + failed)

/-- What Spark decides: the sink partition of each key, the order of the keys in a partition, the order
in which a key's records arrive from the shuffle, and the order in which the sinks flush. -/
structure Schedule where
  partitions : List Key → List (List Key)
  partitions_perm : ∀ keys, (partitions keys).flatten.Perm keys
  arrival : List Routed → List Routed
  arrival_perm : ∀ records, (arrival records).Perm records
  picks : List Nat

theorem id_perm (records : List Routed) : (id records).Perm records := .refl _

def groupBy (schedule : Schedule) (routed : List Routed) : List (List (List Routed)) :=
  (schedule.partitions (routed.map Routed.sourceKey).dedup).map fun keys =>
    keys.map fun k => schedule.arrival (routed.filter fun r => r.sourceKey = k)

/-- The sinks' inputs: each partition's keys routed one after the other. -/
def sinkInputs (ts : TableSpec) (rangeSeq : Nat) (schedule : Schedule) (routed : List Routed) :
    List (List Routed) :=
  (groupBy schedule routed).map fun groups => groups.flatMap (routeKey ts rangeSeq)

def addCounts (a b : Nat × Nat) : Nat × Nat := (a.1 + b.1, a.2 + b.2)

/-- `run_range`. A failing task fails the Spark job. -/
def runRangeSpark (batch : BatchConfig) (ts : TableSpec) (rangeSeq perSlice : Nat) (schedule : Schedule)
    (records : List Raw) : Job (Nat × Nat) := do
  let parts := slices records.length perSlice
  if parts.isEmpty then pure (0, 0)
  else do
    let routed ← liftExcept (parts.mapM (convertSlice ts rangeSeq records))
    let flushes := (sinkInputs ts rangeSeq schedule routed.flatten).map
      (sinkFlushes batch.loadBatchRows ⟨[], []⟩)
    tryCatch
      ((interleave schedule.picks flushes).foldlM (fun counts f => do
        let added ← sinkFlush ts f
        pure (addCounts counts added)) (0, 0))
      fun _ => throw (.unexpected "Spark job aborted due to stage failure")

/-- `execution.load_engine`, with what Spark is configured to and happens to do. -/
inductive LoadEngine
  | serial
  | spark (recordsPerSlice : Nat) (schedule : Schedule)

def LoadEngine.load (engine : LoadEngine) (batch : BatchConfig) (ts : TableSpec) (rangeSeq : Nat)
    (records : List Raw) : Job (Nat × Nat) :=
  match engine with
  | .serial => loadRecords batch ts rangeSeq records
  | .spark perSlice schedule => runRangeSpark batch ts rangeSeq perSlice schedule records

/-- `load_range` and `load_range_spark`. -/
def loadRange (engine : LoadEngine) (batch : BatchConfig) (ts : TableSpec) (rng : KeyRange) :
    Job (Nat × Nat) := do
  let records ← beginRange ts rng
  let counts ← engine.load batch ts rng.rangeSeq records
  finishRange ts rng
  pure counts

/-- Without key ranges LOAD goes on only if EXTRACT selected no row. -/
def requireRanges (ts : TableSpec) (ranges : List KeyRange) : Job Unit :=
  if ranges.isEmpty then do
    let ledger ← getLedger ts.name
    match ledger.extracted with
    | none => throw (.config s!"{ts.name}: no key ranges recorded; run extract first")
    | some extracted =>
      if extracted ≠ 0 then
        throw (.config s!"{ts.name}: ledger extracted={extracted} but no key ranges recorded")
      else pure ()
  else pure ()

def requireExtracted (ts : TableSpec) (ranges : List KeyRange) : Job Unit :=
  let pending := ranges.filter fun r => r.status ≠ .done
  if pending.isEmpty then pure ()
  else throw (.config s!"{ts.name}: {pending.length} key range(s) not extracted (status != DONE)")

/-- The part of `load_table` that counts what is staged and rejected. -/
def closeLoad (ts : TableSpec) : Job Unit := do
  let ledger ← getLedger ts.name
  let loaded ← countStaging ts.name
  let rejected ← countRejects ts.name .load
  updateLedger ts.name fun l => { l with loaded := some loaded, rejected := some rejected }
  if orMinusOne ledger.extracted ≠ loaded + rejected then
    throw (.reconcile s!"{ts.name}: extracted {orMinusOne ledger.extracted} != loaded {loaded} + rejected {rejected}")
  else pure ()

def loadTable (engine : LoadEngine) (batch : BatchConfig) (ts : TableSpec) : Job Unit := do
  let ranges ← getKeyRanges ts.name
  requireRanges ts ranges
  requireExtracted ts ranges
  (byRangeSeq ranges).forM fun rng =>
    if rng.loadStatus = .done then pure ()
    else do
      let _ ← loadRange engine batch ts rng
      pure ()
  closeLoad ts

def load (engine : LoadEngine) (batch : BatchConfig) (tables : List TableSpec) : Job Unit :=
  tables.forM fun ts => logged (loadTable engine batch ts)

end OtterWorks.Migration
