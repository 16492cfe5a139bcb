import OtterWorks.Migration.Data

namespace OtterWorks.Migration

/-- A call that only logs, connects or copies a file. -/
def touch : Job Unit := Prog.modify id

def readTarget {α : Type} (table : String) (f : TargetTable → α) : Job α :=
  Prog.query fun w => f (w.target table)

def writeTarget (table : String) (f : TargetTable → TargetTable) : Job Unit :=
  Prog.modify fun w => w.onTarget table f

@[simp] theorem eval_readTarget {α : Type} (table : String) (f : TargetTable → α) (w : World) :
    (readTarget table f).eval w = (.ok (f (w.target table)), w) := rfl

@[simp] theorem eval_writeTarget (table : String) (f : TargetTable → TargetTable) (w : World) :
    (writeTarget table f).eval w = (.ok (), w.onTarget table f) := rfl

def liftExcept {α : Type} : Except JobError α → Job α
  | .ok a => pure a
  | .error e => throw e

/-- A count as the messages show it: -1 for none. -/
def orMinusOne (n : Option Nat) : Int := (n.map Int.ofNat).getD (-1)

def stageLogStart : Job Unit := touch

def stageLogFinish : Job Unit := touch

/-! The run row. -/

def ensureRun (manifestSha : String) : Job String :=
  Prog.attempt fun w =>
    match w.runRow with
    | some row => (.ok row.manifestSha, w)
    | none => (.ok manifestSha, { w with runRow := some ⟨.running, manifestSha⟩ })

def getRunStatus : Job (Option RunStatus) := Prog.query fun w => w.runRow.map RunRow.status

def setRunStatus (status : RunStatus) : Job Unit :=
  Prog.modify fun w => { w with runRow := w.runRow.map fun row => { row with status := status } }

/-! Ledger and key ranges. -/

def getLedger (table : String) : Job LedgerRow := readTarget table TargetTable.ledger

def TargetTable.onLedger (t : TargetTable) (f : LedgerRow → LedgerRow) : TargetTable :=
  { t with ledger := f t.ledger }

def updateLedger (table : String) (f : LedgerRow → LedgerRow) : Job Unit :=
  writeTarget table fun t => t.onLedger f

def getKeyRanges (table : String) : Job (List KeyRange) := readTarget table TargetTable.ranges

def insertKeyRanges (table : String) (ranges : List KeyRange) : Job Unit :=
  writeTarget table fun t => { t with ranges := t.ranges ++ ranges }

def TargetTable.onRange (t : TargetTable) (rangeSeq : Nat) (f : KeyRange → KeyRange) : TargetTable :=
  { t with ranges := t.ranges.map fun r => if r.rangeSeq = rangeSeq then f r else r }

@[simp] theorem TargetTable.onRange_ranges (t : TargetTable) (rangeSeq : Nat) (f : KeyRange → KeyRange) :
    (t.onRange rangeSeq f).ranges = t.ranges.map fun r => if r.rangeSeq = rangeSeq then f r else r := rfl

def updateKeyRange (table : String) (rangeSeq : Nat) (f : KeyRange → KeyRange) : Job Unit :=
  writeTarget table fun t => t.onRange rangeSeq f

/-! Unload files. -/

def openFile (table : String) (rangeSeq : Nat) : Job Unit :=
  writeTarget table fun t => { t with files := t.files.insert rangeSeq [] }

def writeRecord (table : String) (rangeSeq : Nat) (record : Raw) : Job Unit :=
  writeTarget table fun t =>
    { t with files := t.files.insert rangeSeq ((t.files[rangeSeq]?).getD [] ++ [record]) }

def readFile (table : String) (rangeSeq : Nat) : Job (Option (List Raw)) :=
  readTarget table fun t => t.files[rangeSeq]?

/-! Rejects and staging. -/

/-- The `[:4000]` of an error text. -/
def errorText (s : String) : String := String.ofList (s.toList.take 4000)

/-- The texts of rejects come cut, and their field bytes. -/
def insertRejects (table : String) (rejects : List Reject) : Job Unit :=
  writeTarget table fun t => { t with rejects := t.rejects.addNew (rejects.map fun r => (r.sourceKey, r)) }

def countRejects (table : String) (stage : Stage) : Job Nat :=
  readTarget table fun t => t.rejects.countIf fun r => r.stage = stage

def deleteRejectsKeys (table : String) (stage : Stage) (keys : List Key) : Job Unit :=
  writeTarget table fun t =>
    { t with rejects := t.rejects.filter fun k r => !(decide (k ∈ keys) && decide (r.stage = stage)) }

def deleteRejectsRange (table : String) (stage : Stage) (rangeSeq : Nat) : Job Unit :=
  writeTarget table fun t =>
    { t with rejects := t.rejects.filter fun _ r =>
        !(decide (r.stage = stage) && decide (r.keyRangeSeq = some rangeSeq)) }

def deleteStagingRange (table : String) (rangeSeq : Nat) : Job Unit :=
  writeTarget table fun t =>
    { t with staging := t.staging.filter fun _ row => !decide (row.keyRangeSeq = rangeSeq) }

/-- Why the target refuses a staged row: a row with its key, or a value its columns cannot hold. -/
def stagingError (ts : TableSpec) (staging : KeyMap Key StagedRow) (row : StagedRow) : Option InsertFailure :=
  if row.sourceKey ∈ staging then
    some ⟨row.sourceKey, some "23505", none, "duplicate key value violates unique constraint"⟩
  else (ts.refuses row.values).map fun e => ⟨row.sourceKey, e.1, e.2.1, e.2.2⟩

/-- Inserts the rows in order until one is refused. -/
def stageAll (ts : TableSpec) : KeyMap Key StagedRow → List StagedRow → Except InsertFailure (KeyMap Key StagedRow)
  | staging, [] => .ok staging
  | staging, row :: rows =>
    match stagingError ts staging row with
    | some failure => .error failure
    | none => stageAll ts (staging.insert row.sourceKey row) rows

/-- One transaction: every row lands or none does. -/
def executemanyStaging (ts : TableSpec) (rows : List StagedRow) : Job Unit :=
  Prog.attempt fun w =>
    match stageAll ts (w.target ts.name).staging rows with
    | .ok staging => (.ok (), w.onTarget ts.name fun t => { t with staging := staging })
    | .error f => (.error (.target f.sqlstate f.nativeError f.errorText), w)

/-- `_insert_bisect`; the first argument bounds the depth, which halving the rows keeps above it. -/
def insertBisect (ts : TableSpec) : Nat → List StagedRow → Job (List InsertFailure)
  | 0, _ => pure []
  | depth + 1, rows =>
    tryCatch (do executemanyStaging ts rows; pure []) fun e =>
      match e with
      | .target sqlstate nativeError errorText =>
        match rows with
        | [row] => pure [⟨row.sourceKey, sqlstate, nativeError, errorText⟩]
        | _ => do
          let mid := rows.length / 2
          let left ← insertBisect ts depth (rows.take mid)
          let right ← insertBisect ts depth (rows.drop mid)
          pure (left ++ right)
      | e => throw e

def insertStaging (ts : TableSpec) (rows : List StagedRow) : Job (List InsertFailure) :=
  if rows.isEmpty then pure [] else insertBisect ts rows.length rows

def countStaging (table : String) : Job Nat := readTarget table fun t => t.staging.size

def stagingPage (table : String) (last : Key) (n : Nat) : Job (List StagedRow) :=
  readTarget table fun t => (t.staging.page last n).map Prod.snd

/-- `iter_staging`: pages of `n` rows by ascending key, from the empty key on, until a page is empty.
`pages` bounds their number. -/
def streamStaging {β : Type} (table : String) (n : Nat) (body : β → List StagedRow → Job β) :
    Nat → Key → β → Job β
  | 0, _, b => pure b
  | pages + 1, last, b => do
    let rows ← stagingPage table last n
    match rows.getLast? with
    | none => pure b
    | some row => do
      let b ← body b rows
      streamStaging table n body pages row.sourceKey b

def iterStaging {β : Type} (table : String) (n : Nat) (body : β → List StagedRow → Job β) (b : β) : Job β := do
  let size ← countStaging table
  streamStaging table n body (size + 1) [] b

def keyBetween (first last k : Key) : Bool := compare first k != .gt && compare k last != .gt

def targetHashesOf (ts : TableSpec) (first last : Key) (t : TargetTable) : KeyMap Key Hash :=
  (t.staging.filter fun k _ => keyBetween first last k).map fun _ row => ts.targetHash row.values

def targetHashes (ts : TableSpec) (first last : Key) : Job (KeyMap Key Hash) :=
  readTarget ts.name (targetHashesOf ts first last)

structure ClassAggregate where
  count : Nat
  sums : List Decimal
  deriving DecidableEq, Repr

def ClassAggregate.empty : ClassAggregate := ⟨0, []⟩

def Value.decimal? : Value → Decimal
  | .decimal d => d
  | _ => .zero

/-- `SUM` over NUMERIC is exact. -/
def exactSum (values : List Decimal) : Decimal :=
  let e := values.foldl (fun e d => min e d.exponent) 0
  ⟨(values.map fun d => d.coeffAt e).sum, e⟩

def columnClass (values : Fields) (column : String) : Text := rtrim (values.get column).str

/-- `column::numeric(38,8)`. -/
def castAmount (values : Fields) (column : String) : Option Decimal := (values.get column).decimal?.castNumeric 38 8

def classAggregatesOf (ct : ClassTotals) (rows : List StagedRow) : KeyMap Text ClassAggregate :=
  let inClass (c : Text) := rows.filter fun row => columnClass row.values ct.classColumn = c
  KeyMap.upsertAll ∅ (rows.map fun row =>
    let c := columnClass row.values ct.classColumn
    (c, ⟨(inClass c).length,
      ct.sumColumns.map fun col => exactSum ((inClass c).map fun row => (castAmount row.values col).getD .zero)⟩))

/-- The class aggregates; an amount that `NUMERIC(38,8)` cannot hold fails the query. -/
def classAggregates (table : String) (ct : ClassTotals) : Job (KeyMap Text ClassAggregate) :=
  Prog.attempt fun w =>
    let rows := (w.target table).staging.toList.map Prod.snd
    if rows.all fun row => ct.sumColumns.all fun col => (castAmount row.values col).isSome then
      (.ok (classAggregatesOf ct rows), w)
    else (.error (.target (some "22003") none "numeric field overflow"), w)

def parentKey (values : Fields) (columns : List String) : List Text := columns.map fun c => columnClass values c

def isValidated (t : TargetTable) (k : Key) : Bool :=
  match t.validation[k]? with
  | some v => v.status = .validated
  | none => false

/-- The staged rows that are VALIDATED. -/
def validatedStaged (t : TargetTable) : List (Key × StagedRow) := t.staging.toList.filter fun row => isValidated t row.1

/-- The parent keys VALIDATED in this run or archived. -/
def presentParents (p : TargetTable) (parent : ParentRef) : List (List Text) :=
  (validatedStaged p).map (fun row => parentKey row.2.values parent.references) ++
    p.arch.toList.map fun row => parentKey row.2.values parent.references

def parentsPresentOf (table : String) (parent : ParentRef) (w : World) : KeyMap Key Unit :=
  ((w.target table).staging.filter fun _ row =>
    (presentParents (w.target parent.table) parent).contains (parentKey row.values parent.columns)).map fun _ _ => ()

/-- The staged keys whose parent is VALIDATED in this run or archived. -/
def parentsPresent (table : String) (parent : ParentRef) : Job (KeyMap Key Unit) :=
  Prog.query (parentsPresentOf table parent)

/-! Validation and promotion. -/

def upsertValidation (table : String) (rows : List ValidationRow) : Job Unit :=
  writeTarget table fun t =>
    { t with validation := t.validation.upsertAll (rows.map fun r => (r.sourceKey, r)) }

def setRowHashes (table : String) (hashes : List (Key × Hash)) : Job Unit :=
  writeTarget table fun t =>
    { t with staging := t.staging.map fun k row =>
        match hashes.lookup k with
        | some h => { row with rowHash := some h }
        | none => row }

def writeValidation (table : String) (rows : List ValidationRow) : Job Unit :=
  if rows.isEmpty then pure ()
  else do
    upsertValidation table rows
    setRowHashes table (rows.map fun r => (r.sourceKey, r.sourceHash))

def writeClassTotals (table : String) (rows : List ClassTotalRow) : Job Unit :=
  if rows.isEmpty then pure ()
  else do
    writeTarget table fun t => { t with classTotals := [] }
    writeTarget table fun t => { t with classTotals := rows }

/-- For each staged key the hash archived under its target key. -/
def archivedHashesOf (ts : TableSpec) (t : TargetTable) : KeyMap Key Hash :=
  t.staging.filterMap fun _ row => (t.arch[ts.targetKey row.values]?).map ArchRow.rowHash

def archivedHashes (ts : TableSpec) : Job (KeyMap Key Hash) := readTarget ts.name (archivedHashesOf ts)

/-- The archive rows a promotion inserts; a staged row without a hash cannot be archived. -/
def promotion (ts : TableSpec) (t : TargetTable) : Option (List (Text × ArchRow)) :=
  ((validatedStaged t).filter fun row => !t.arch.contains (ts.targetKey row.2.values)).mapM fun row =>
    row.2.rowHash.map fun h => (ts.targetKey row.2.values, ⟨row.1, h, row.2.values⟩)

def promote (ts : TableSpec) : Job Nat :=
  Prog.attempt fun w =>
    let t := w.target ts.name
    match promotion ts t with
    | none => (.error (.target (some "23502") none "null value in column \"row_hash\""), w)
    | some rows =>
      let keys := rows.map Prod.fst
      if ¬ keys.Nodup ∨ keys.any t.archForeign.contains then
        (.error (.target (some "23505") none "duplicate key value violates unique constraint"), w)
      else if rows.any fun row => (ts.archReferences row.2.values).any fun ref =>
          !((w.target ref.1).arch.contains ref.2) then
        (.error (.target (some "23503") none "violates foreign key constraint"), w)
      else
        (.ok rows.length, w.onTarget ts.name fun t =>
          { t with
            arch := t.arch.upsertAll rows
            promoted := t.promoted.addNew ((validatedStaged t).map fun row => (row.1, ())) })

def countValidation (table : String) (status : ValidationStatus) : Job Nat :=
  readTarget table fun t => t.validation.countIf fun v => v.status = status

/-! Purge audit. -/

def purgeSafe (t : TargetTable) : List Key := (t.validation.filter fun _ v => v.purgeSafe).keys

def purgeSafeKeys (table : String) : Job (List Key) := readTarget table purgeSafe

def insertPurgeAudit (table : String) (keys : List Key) : Job Unit :=
  writeTarget table fun t => { t with purgeAudit := t.purgeAudit.addNew (keys.map fun k => (k, .intended)) }

def setPurgeAuditStatus (table : String) (keys : List Key) (status : PurgeStatus) : Job Unit :=
  if keys.isEmpty then pure ()
  else writeTarget table fun t =>
    { t with purgeAudit := t.purgeAudit.map fun k s => if k ∈ keys then status else s }

def purged (t : TargetTable) : List Key := (t.purgeAudit.filter fun _ s => s = .purged).keys

def purgedKeys (table : String) : Job (List Key) := readTarget table purged

def deleteStagingTable (table : String) : Job Unit := writeTarget table fun t => { t with staging := ∅ }

/-! The source. -/

def selectedKeys (ts : TableSpec) (rows : KeyMap Key Fields) : List Key :=
  (rows.filter fun k columns => ts.selects ⟨k, columns⟩).keys

def selectKeys (ts : TableSpec) : Job (List Key) := Prog.query fun w => selectedKeys ts (w.source ts.name).rows

/-- The selected rows of a key range, in key order. -/
def rangeRows (ts : TableSpec) (first last : Key) (rows : KeyMap Key Fields) : List SourceRow :=
  (rows.filter fun k columns => ts.selects ⟨k, columns⟩ && keyBetween first last k).toList.map fun row =>
    ⟨row.1, row.2⟩

/-- `fetch_range`: the selected rows of a key range, as one cursor reads them. -/
def fetchRange (ts : TableSpec) (first last : Key) : Job (List SourceRow) :=
  Prog.attempt fun w =>
    (.ok (rangeRows ts first last (w.source ts.name).rows), w.onSource ts.name fun s =>
      { s with edited := s.edited.dropKeys ((rangeRows ts first last s.rows).map SourceRow.key) })

/-- A row elsewhere in the source that refers to one of the keys. -/
def referenced (tables : List TableSpec) (w : World) (ts : TableSpec) (keys : List Key) : Bool :=
  tables.any fun child =>
    (w.source child.name).rows.toList.any fun row =>
      (child.foreignKeys ⟨row.1, row.2⟩).any fun ref =>
        ref.1 == ts.name && keys.contains ref.2 && !(child.name == ts.name && keys.contains row.1)

/-- One unit of work: audit INSERT, DELETE, count check, COMMIT. -/
def purgeBatch (tables : List TableSpec) (ts : TableSpec) (keys : List Key) (batchNo : Nat) : Job Nat :=
  Prog.attempt fun w =>
    let s := w.source ts.name
    if keys.any s.audit.contains ∨ ¬ keys.Nodup then
      (.error (.source (some (-803)) (some "23505") s!"audit insert {ts.name}" none), w)
    else if referenced tables w ts keys then
      (.error (.source (some (-532)) (some "23504") s!"execute failed for DELETE FROM {ts.name}" none), w)
    else
      let deleted := keys.filter s.rows.contains
      if deleted.length ≠ keys.length then
        (.error (.purgeGuard s!"{ts.name} batch {batchNo}: DELETE removed {deleted.length} rows but {keys.length} were intended; rolled back"), w)
      else
        (.ok deleted.length, w.onSource ts.name fun s =>
          { s with
            rows := s.rows.dropKeys keys
            audit := s.audit.addNew (keys.map fun k => (k, ()))
            deleted := s.deleted.addNew ((s.rows.toList.filter fun row => row.1 ∈ keys).map fun row =>
              (row.1, row.2, s.edited.contains row.1)) })

def auditedKeys (table : String) (keys : List Key) : Job (List Key) :=
  Prog.query fun w => keys.filter fun k => (w.source table).audit.contains k

end OtterWorks.Migration
