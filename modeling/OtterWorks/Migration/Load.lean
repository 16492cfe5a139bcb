import OtterWorks.Migration.Extract

namespace OtterWorks.Migration

def ruleFor (f : InsertFailure) : String :=
  if f.nativeError = some 2601 ∨ f.nativeError = some 2627 then "DUPLICATE_SOURCE_KEY"
  else
    match f.sqlstate with
    | some "23000" => "DUPLICATE_SOURCE_KEY"
    | some "23505" => "DUPLICATE_SOURCE_KEY"
    | some "22003" => "DECIMAL_OVERFLOW"
    | some "22007" => "DATE_INVALID"
    | some "22001" => "STRING_TRUNCATION"
    | _ => "TARGET_REJECTED"

def fieldFor (ts : TableSpec) (rule : String) : Option String :=
  if rule = "DUPLICATE_SOURCE_KEY" then some ts.keyColumn else none

def failureReject (ts : TableSpec) (f : InsertFailure) (row : StagedRow) : Reject :=
  ⟨f.sourceKey, .load, ruleFor f, fieldFor ts (ruleFor f), some row.rawBytes, none, f.sqlstate,
    f.nativeError, errorText f.errorText, some row.keyRangeSeq⟩

/-- A character as `repr` writes it between quotes; past Latin-1 all are taken to print. -/
def reprChar (quote c : Char) : Text :=
  if c = quote ∨ c = '\\' then ['\\', c]
  else if c = '\n' then ['\\', 'n']
  else if c = '\r' then ['\\', 'r']
  else if c = '\t' then ['\\', 't']
  else if c.toNat < 0x20 ∨ (0x7f ≤ c.toNat ∧ c.toNat ≤ 0xa0) ∨ c.toNat = 0xad then '\\' :: 'x' :: hex [UInt8.ofNat c.toNat]
  else [c]

/-- `repr` of a text: between apostrophes, unless it has one and no quotation mark. -/
def reprText (s : Text) : String :=
  let apostrophe := Char.ofNat 39
  let quote := if apostrophe ∈ s ∧ '"' ∉ s then '"' else apostrophe
  String.ofList (quote :: (s.flatMap (reprChar quote) ++ [quote]))

def duplicateReject (ts : TableSpec) (sourceKey : Key) (record : Raw) (rangeSeq : Nat) : Reject :=
  ⟨sourceKey, .load, "DUPLICATE_SOURCE_KEY", some ts.keyColumn, some record, none, some "23000", some 2601,
    errorText s!"source key {reprText sourceKey} appears more than once in the unload of range {rangeSeq}", some rangeSeq⟩

def malformedReject (sourceKey : Key) (err : FieldError) (record : Raw) (rangeSeq : Nat) : Reject :=
  ⟨sourceKey, .load, err.rule, some err.column, some record, some (err.fieldBytes.take 8000), err.sqlstate, none,
    errorText err.error, some rangeSeq⟩

/-- `_range_file`. -/
def rangeFile (ts : TableSpec) (rng : KeyRange) : Job (List Raw) := do
  match ← readFile ts.name rng.rangeSeq with
  | none => throw (.config s!"{ts.name} range {rng.rangeSeq}: unload file is missing and blob is not available")
  | some records => pure records

def checkRecordCount (ts : TableSpec) (rng : KeyRange) (records : List Raw) : Job Unit :=
  match rng.rowCount with
  | some rows =>
    if records.length ≠ rows then
      throw (.config s!"{ts.name} range {rng.rangeSeq}: file has {records.length} records, .cnt says {rows}")
    else pure ()
  | none => pure ()

/-- A range that was interrupted mid-load loses its staged rows and its rejects. -/
def rollBackRange (ts : TableSpec) (rng : KeyRange) : Job Unit :=
  if rng.loadStatus = .running then do
    deleteStagingRange ts.name rng.rangeSeq
    deleteRejectsRange ts.name .load rng.rangeSeq
  else pure ()

def beginRange (ts : TableSpec) (rng : KeyRange) : Job (List Raw) := do
  let records ← rangeFile ts rng
  checkRecordCount ts rng records
  rollBackRange ts rng
  updateKeyRange ts.name rng.rangeSeq fun r => { r with loadStatus := .running }
  pure records

def finishRange (ts : TableSpec) (rng : KeyRange) : Job Unit :=
  updateKeyRange ts.name rng.rangeSeq fun r => { r with loadStatus := .done }

/-- The local variables of `load_range`. -/
structure LoadState where
  loaded : Nat
  rejected : Nat
  seenKeys : List Key
  batch : List StagedRow
  rejects : List Reject
  deriving DecidableEq, Repr

def LoadState.empty : LoadState := ⟨0, 0, [], [], []⟩

def flushRejects (table : String) (rejects : List Reject) : Job Unit :=
  if rejects.isEmpty then pure () else insertRejects table rejects

/-- The rejects of the rows that an insert of `batch` reported, in the order reported. -/
def failureRejects (ts : TableSpec) (batch : List StagedRow) (failures : List InsertFailure) : List Reject :=
  failures.filterMap fun f =>
    (batch.find? fun row => row.sourceKey = f.sourceKey).map fun row => failureReject ts f row

def flush (ts : TableSpec) (st : LoadState) : Job LoadState :=
  if st.batch.isEmpty then pure st
  else do
    let failures ← insertStaging ts st.batch
    let failed := (failures.map InsertFailure.sourceKey).dedup.length
    flushRejects ts.name (st.rejects ++ failureRejects ts st.batch failures)
    pure { st with
      loaded := st.loaded + (st.batch.length - failed)
      rejected := st.rejected + failed
      batch := []
      rejects := [] }

def loadRecord (batch : BatchConfig) (ts : TableSpec) (rangeSeq : Nat) (st : LoadState) (record : Raw) :
    Job LoadState :=
  match ts.convert record with
  | .undecodable e => throw (.unexpected e)
  | .malformed k err =>
    pure { st with rejects := st.rejects ++ [malformedReject k err record rangeSeq], rejected := st.rejected + 1 }
  | .ok k values _ =>
    if k ∈ st.seenKeys then
      pure { st with rejects := st.rejects ++ [duplicateReject ts k record rangeSeq], rejected := st.rejected + 1 }
    else
      let st := { st with
        seenKeys := k :: st.seenKeys
        batch := st.batch ++ [⟨k, rangeSeq, record, values, none⟩] }
      if st.batch.length ≥ batch.loadBatchRows then flush ts st else pure st

def loadRecords (batch : BatchConfig) (ts : TableSpec) (rangeSeq : Nat) (records : List Raw) :
    Job (Nat × Nat) := do
  let st ← records.foldlM (loadRecord batch ts rangeSeq) .empty
  let st ← flush ts st
  flushRejects ts.name st.rejects
  pure (st.loaded, st.rejected)

end OtterWorks.Migration
