import OtterWorks.Lib.Text
import OtterWorks.Migration.LoadStage

namespace OtterWorks.Migration

def ruleHash : String := "HASH_MISMATCH"
def ruleArchiveConflict : String := "ARCHIVE_CONFLICT"
def ruleOrphan : String := "ORPHAN_PARENT_NOT_SELECTED"
def ruleClassCount : String := "CLASS_COUNT_MISMATCH"
def ruleClassTotal : String := "CLASS_TOTAL_MISMATCH"

/-- Why a candidate fails. -/
structure Finding where
  rule : String
  fieldName : Option String
  error : String
  deriving DecidableEq, Repr

structure Candidate where
  row : StagedRow
  sourceValues : Fields
  sourceHash : Hash
  targetHash : Option Hash
  finding : Option Finding
  deriving DecidableEq, Repr

/-- `_successor_map`: class codes with a non-blank successor in the staged lookup table. -/
def successorsOf (res : SourceClassResolution) (rows : List StagedRow) (out : KeyMap Text Text) :
    KeyMap Text Text :=
  rows.foldl (fun out r =>
    let succ := rtrim (r.values.get res.successorColumn).str
    if succ.isEmpty then out else out.insert (rtrim (r.values.get res.lookupKey).shown) succ) out

def successorMap (batch : BatchConfig) (ts : TableSpec) : Job (KeyMap Text Text) :=
  match ts.classTotals.bind ClassTotals.sourceClassResolution with
  | none => pure ∅
  | some res =>
    iterStaging res.lookupTable batch.validateBatchRows (fun out rows => pure (successorsOf res rows out)) ∅

def sourceClass (raw : Text) (valueMap : List (Text × Text)) (successors : KeyMap Text Text) : Text :=
  match successors[rtrim raw]? with
  | some succ => succ
  | none => (valueMap.lookup (rtrim raw)).getD (rtrim raw)

def hex16 (h : Hash) : String := String.ofList ((hex h).take 16)

def candidate (ts : TableSpec) (hashes : KeyMap Key Hash) (row : StagedRow) : Except JobError Candidate :=
  match ts.convert row.rawBytes with
  | .ok _ _ source => .ok ⟨row, source, ts.sourceHash source, hashes[row.sourceKey]?, none⟩
  -- cannot happen for a staged row; treated as a hash failure rather than a crash
  | .malformed _ err => .ok ⟨row, [], [], none, some ⟨ruleHash, some err.column, err.error⟩⟩
  | .undecodable e => .error (.unexpected e)

/-- `_RowChecks`: hash, archive conflict, parent. -/
structure RowChecks where
  archived : KeyMap Key Hash
  parentsPresent : Option (KeyMap Key Unit)

def RowChecks.finding (checks : RowChecks) (ts : TableSpec) (c : Candidate) : Option Finding :=
  match c.finding with
  | some f => some f
  | none =>
    if c.targetHash ≠ some c.sourceHash then
      let column := ts.differingColumn c.sourceValues c.row.values
      let target := match c.targetHash with
        | some h => if h.isEmpty then "missing" else hex16 h
        | none => "missing"
      some ⟨ruleHash, some column,
        s!"business hash source={hex16 c.sourceHash} target={target} differs at {column}"⟩
    else
      let conflict := match checks.archived[c.row.sourceKey]? with
        | some prior => if prior ≠ c.sourceHash then some prior else none
        | none => none
      match conflict with
      | some prior =>
        some ⟨ruleArchiveConflict, some ts.keyColumn,
          s!"arch.{ts.name} already holds this key with business hash {hex16 prior} != source {hex16 c.sourceHash}; not promoted, not purge-safe"⟩
      | none =>
        match ts.parent, checks.parentsPresent with
        | some parent, some present =>
          if c.row.sourceKey ∈ present then none
          else
            let pk := "|".intercalate ((parentKey c.row.values parent.columns).map String.ofList)
            some ⟨ruleOrphan, parent.columns.head?,
              s!"parent {parent.table}({pk}) is neither validated in this run nor present in arch.{parent.table}"⟩
        | _, _ => none

def RowChecks.apply (checks : RowChecks) (ts : TableSpec) (c : Candidate) : Candidate :=
  { c with finding := checks.finding ts c }

def rowChecks (ts : TableSpec) : Job RowChecks := do
  let archived ← archivedHashes ts
  match ts.parent with
  | some parent => do
    let present ← parentsPresent ts.name parent
    pure ⟨archived, some present⟩
  | none => pure ⟨archived, none⟩

def Candidate.validationRow (ts : TableSpec) (c : Candidate) : ValidationRow :=
  match c.finding with
  | none => ⟨c.row.sourceKey, .validated, none, c.sourceHash, c.targetHash, ts.role = .data⟩
  | some f => ⟨c.row.sourceKey, .failed, some f.rule, c.sourceHash, c.targetHash, false⟩

def Candidate.reject (c : Candidate) : Option Reject :=
  c.finding.map fun f =>
    ⟨c.row.sourceKey, .validate, f.rule, f.fieldName, some c.row.rawBytes, none, none, none, errorText f.error, none⟩

def persist (ts : TableSpec) (candidates : List Candidate) : Job Unit := do
  writeValidation ts.name (candidates.map (Candidate.validationRow ts))
  deleteRejectsKeys ts.name .validate (candidates.map fun c => c.row.sourceKey)
  flushRejects ts.name (candidates.filterMap Candidate.reject)

/-- `_iter_candidates` over one staged page. -/
def candidates (ts : TableSpec) (rows : List StagedRow) : Job (List Candidate) := do
  match rows, rows.getLast? with
  | first :: _, some last => do
    let hashes ← targetHashes ts first.sourceKey last.sourceKey
    liftExcept (rows.mapM (candidate ts hashes))
  | _, _ => pure []

structure ClassSide where
  count : Nat
  sums : List Decimal
  deriving DecidableEq, Repr

def ClassSide.empty (columns : Nat) : ClassSide := ⟨0, List.replicate columns .zero⟩

def ClassSide.add (side : ClassSide) (values : List Decimal) : ClassSide :=
  ⟨side.count + 1, List.zipWith (Decimal.add decimalPrecision) side.sums values⟩

def Candidate.sourceClass (ts : TableSpec) (ct : ClassTotals) (successors : KeyMap Text Text)
    (c : Candidate) : Text :=
  Migration.sourceClass (c.sourceValues.get ct.classColumn).str ts.valueMap successors

def Candidate.targetClass (ct : ClassTotals) (c : Candidate) : Text :=
  columnClass c.row.values ct.classColumn

def sumValues (ct : ClassTotals) (c : Candidate) : Except JobError (List Decimal) :=
  ct.sumColumns.mapM fun col =>
    match c.sourceValues.get col with
    | .decimal d => .ok d
    | _ => .error (.unexpected s!"column {col} is not a decimal")

/-- What pass 1 accumulates: per-class source aggregates and the classes rows moved between. -/
structure ClassPass where
  src : KeyMap Text ClassSide
  moved : List Text
  deriving DecidableEq

def ClassPass.add (ts : TableSpec) (ct : ClassTotals) (successors : KeyMap Text Text) (pass : ClassPass)
    (c : Candidate) : Except JobError ClassPass := do
  let s := c.sourceClass ts ct successors
  let t := c.targetClass ct
  let values ← sumValues ct c
  let side := (pass.src[s]?).getD (.empty ct.sumColumns.length)
  pure ⟨pass.src.insert s (side.add values), if s ≠ t then s :: t :: pass.moved else pass.moved⟩

structure ClassMismatch where
  rule : String
  detail : String
  deriving DecidableEq, Repr

def sumStr : Option Decimal → String
  | some d => d.str
  | none => "None"

/-- One class compared on both sides. -/
def classTotalRow (ct : ClassTotals) (cls : Text) (s : ClassSide) (t : ClassAggregate) : ClassTotalRow :=
  let sumsOk := (List.range ct.sumColumns.length).all fun i =>
    Decimal.same (s.sums.getD i .zero) (t.sums.getD i .zero)
  let sum (sums : List Decimal) := if ct.sumColumns.isEmpty then none else some (sums.getD 0 .zero)
  ⟨cls, s.count, t.count, sum s.sums, sum t.sums, s.count == t.count && sumsOk⟩

def classMismatch (ct : ClassTotals) (r : ClassTotalRow) : Option ClassMismatch :=
  if r.matching then none
  else if r.sourceCount ≠ r.targetCount then
    some ⟨ruleClassCount,
      s!"class {String.ofList r.retentionClass}: source count={r.sourceCount} target count={r.targetCount}"⟩
  else
    let column := ct.sumColumns.headD "None"
    some ⟨ruleClassTotal,
      s!"class {String.ofList r.retentionClass}: source SUM({column})={sumStr r.sourceSum} target SUM({column})={sumStr r.targetSum}"⟩

def classTotalRows (ct : ClassTotals) (src : KeyMap Text ClassSide) (tgt : KeyMap Text ClassAggregate) :
    List ClassTotalRow :=
  let classes := KeyMap.addNew (src.map fun _ _ => ()) (tgt.keys.map fun c => (c, ()))
  classes.keys.map fun cls =>
    classTotalRow ct cls ((src[cls]?).getD (.empty ct.sumColumns.length)) ((tgt[cls]?).getD .empty)

def mismatchesOf (ct : ClassTotals) (rows : List ClassTotalRow) : KeyMap Text ClassMismatch :=
  KeyMap.upsertAll ∅ (rows.filterMap fun r => (classMismatch ct r).map fun m => (r.retentionClass, m))

def classMismatches (ts : TableSpec) (ct : ClassTotals) (src : KeyMap Text ClassSide) :
    Job (KeyMap Text ClassMismatch) := do
  let tgt ← classAggregates ts.name ct
  let rows := classTotalRows ct src tgt
  writeClassTotals ts.name rows
  pure (mismatchesOf ct rows)

/-- The mismatch that fails a candidate in pass 2: of a class it moved between, or of its own class if
no row moved there. -/
def classHit (mismatches : KeyMap Text ClassMismatch) (moved : List Text) (s t : Text) :
    Option ClassMismatch :=
  if s ≠ t then (mismatches[s]?).or mismatches[t]?
  else if t ∉ moved then mismatches[t]?
  else none

def failClass (ct : ClassTotals) (s t : Text) (mm : ClassMismatch) : Finding :=
  ⟨mm.rule, some ct.classColumn,
    if s ≠ t then
      s!"{mm.detail}; row class {String.ofList s} (system of record) vs {String.ofList t} (target)"
    else mm.detail⟩

def flip (ts : TableSpec) (ct : ClassTotals) (successors : KeyMap Text Text)
    (mismatches : KeyMap Text ClassMismatch) (moved : List Text) (c : Candidate) : Option Candidate :=
  match c.finding with
  | some _ => none
  | none =>
    let s := c.sourceClass ts ct successors
    let t := c.targetClass ct
    (classHit mismatches moved s t).map fun mm => { c with finding := some (failClass ct s t mm) }

/-- The class aggregates of pass 1, if the table has class totals. -/
def addClasses (ts : TableSpec) (successors : KeyMap Text Text) (pass : ClassPass) (cs : List Candidate) :
    Job ClassPass :=
  match ts.classTotals with
  | some ct => liftExcept (cs.foldlM (ClassPass.add ts ct successors) pass)
  | none => pure pass

def passOne (ts : TableSpec) (checks : RowChecks) (successors : KeyMap Text Text) (pass : ClassPass)
    (rows : List StagedRow) : Job ClassPass := do
  let cs ← candidates ts rows
  let pass ← addClasses ts successors pass cs
  persist ts (cs.map (checks.apply ts))
  pure pass

def passTwo (ts : TableSpec) (ct : ClassTotals) (checks : RowChecks) (successors : KeyMap Text Text)
    (mismatches : KeyMap Text ClassMismatch) (moved : List Text) (rows : List StagedRow) : Job Unit := do
  let cs ← candidates ts rows
  let flipped := (cs.map (checks.apply ts)).filterMap (flip ts ct successors mismatches moved)
  if flipped.isEmpty then pure () else persist ts flipped

/-- The class totals, and pass 2 if they disagree. -/
def checkClasses (batch : BatchConfig) (ts : TableSpec) (checks : RowChecks) (successors : KeyMap Text Text)
    (pass : ClassPass) : Job Unit :=
  match ts.classTotals with
  | some ct => do
    let mismatches ← classMismatches ts ct pass.src
    if mismatches.isEmpty then pure ()
    else
      iterStaging ts.name batch.validateBatchRows
        (fun (_ : Unit) rows => passTwo ts ct checks successors mismatches pass.moved rows) ()
  | none => pure ()

/-- The part of `validate_table` that counts what is VALIDATED and FAILED. -/
def closeValidate (ts : TableSpec) : Job Unit := do
  let validated ← countValidation ts.name .validated
  let failed ← countValidation ts.name .failed
  updateLedger ts.name fun l => { l with validated := some validated, validateFailed := some failed }
  let ledger ← getLedger ts.name
  if ledger.loaded ≠ some (validated + failed) then
    throw (.reconcile s!"{ts.name}: loaded {orMinusOne ledger.loaded} != validated {validated} + validate_failed {failed}")
  else pure ()

def validateTable (batch : BatchConfig) (ts : TableSpec) : Job Unit := do
  let checks ← rowChecks ts
  let successors ← successorMap batch ts
  let pass ← iterStaging ts.name batch.validateBatchRows (passOne ts checks successors) ⟨∅, []⟩
  checkClasses batch ts checks successors pass
  let _ ← promote ts
  closeValidate ts

def validate (batch : BatchConfig) (tables : List TableSpec) : Job Unit :=
  tables.forM fun ts => logged (validateTable batch ts)

end OtterWorks.Migration
