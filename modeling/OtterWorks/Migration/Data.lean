import OtterWorks.Lib.Text
import OtterWorks.Lib.Decimal
import OtterWorks.Lib.KeyMap
import OtterWorks.Lib.Program

namespace OtterWorks.Migration

/-- A source key as the drivers carry it, trailing blanks included. -/
abbrev Key := Text

abbrev Raw := Bytes

abbrev Hash := Bytes

/-- `DECIMAL_PRECISION`, which the package sets for the decimal contexts of all its threads. -/
def decimalPrecision : Nat := 64

inductive Value
  | null
  | text (s : Text)
  | int (n : Int)
  | decimal (d : Decimal)
  | bytes (b : Bytes)
  | timestamp12 (s : Text)
  | date (s : Text)
  deriving DecidableEq, Repr

abbrev Fields := List (String × Value)

def Fields.get (fields : Fields) (column : String) : Value := (fields.lookup column).getD .null

/-- `str(value)`; bytes are in no column that is read in this way. -/
def Value.shown : Value → Text
  | .null => "None".toList
  | .text s => s
  | .int n => (toString n).toList
  | .decimal d => d.str.toList
  | .timestamp12 s => s
  | .date s => s
  | .bytes _ => []

/-- `str(value or "")`, in which a zero is nothing. -/
def Value.str (v : Value) : Text :=
  match v with
  | .null => []
  | .int n => if n = 0 then [] else v.shown
  | .decimal d => if d.coeff = 0 then [] else v.shown
  | _ => v.shown

structure SourceRow where
  key : Key
  columns : Fields
  deriving DecidableEq, Repr

inductive TableRole
  | data
  | reference
  deriving DecidableEq, Repr

structure ParentRef where
  table : String
  columns : List String
  references : List String
  deriving DecidableEq, Repr

structure SourceClassResolution where
  lookupTable : String
  lookupKey : String
  successorColumn : String
  deriving DecidableEq, Repr

structure ClassTotals where
  classColumn : String
  sumColumns : List String
  sourceClassResolution : Option SourceClassResolution
  deriving DecidableEq, Repr

structure FieldError where
  column : String
  rule : String
  error : String
  fieldBytes : Bytes
  sqlstate : Option String
  deriving DecidableEq, Repr

/-- What `convert_record` makes of a record; a key that does not decode raises. -/
inductive Conversion
  | undecodable (error : String)
  | malformed (sourceKey : Key) (error : FieldError)
  | ok (sourceKey : Key) (values sourceText : Fields)
  deriving DecidableEq, Repr

def Conversion.key : Conversion → Option Key
  | .undecodable _ => none
  | .malformed k _ => some k
  | .ok k _ _ => some k

structure InsertFailure where
  sourceKey : Key
  sqlstate : Option String
  nativeError : Option Int
  errorText : String
  deriving DecidableEq, Repr

/-- A table of the manifest: its configuration, its record codec, its two business hashes and what
the two databases ask of its rows. The unload writes the key it was given, and a well-formed record
has a key. -/
structure TableSpec where
  name : String
  order : Int
  role : TableRole
  keyColumn : String
  hashColumns : List String
  classTotals : Option ClassTotals
  parent : Option ParentRef
  selects : SourceRow → Bool
  foreignKeys : SourceRow → List (String × Key)
  unload : SourceRow → Except String Raw
  convert : Raw → Conversion
  sourceHash : Fields → Hash
  targetHash : Fields → Hash
  differingColumn : Fields → Fields → String
  valueMap : List (Text × Text)
  refuses : Fields → Option (Option String × Option Int × String)
  targetKey : Fields → Text
  archReferences : Fields → List (String × Text)
  unload_key : ∀ row raw, unload row = .ok raw → (convert raw).key = some row.key
  key_ne_nil : ∀ raw k values source, convert raw = .ok k values source → k ≠ []

inductive RangeStatus
  | planned
  | running
  | done
  | failed
  deriving DecidableEq, Repr

inductive LoadStatus
  | pending
  | running
  | done
  deriving DecidableEq, Repr

structure KeyRange where
  rangeSeq : Nat
  keyFrom : Key
  keyTo : Key
  status : RangeStatus
  rowCount : Option Nat
  loadStatus : LoadStatus
  deriving DecidableEq, Repr

inductive Stage
  | load
  | validate
  deriving DecidableEq, Repr

structure Reject where
  sourceKey : Key
  stage : Stage
  rule : String
  fieldName : Option String
  rawBytes : Option Raw
  fieldBytes : Option Bytes
  sqlstate : Option String
  nativeError : Option Int
  errorText : String
  keyRangeSeq : Option Nat
  deriving DecidableEq, Repr

structure StagedRow where
  sourceKey : Key
  keyRangeSeq : Nat
  rawBytes : Raw
  values : Fields
  rowHash : Option Hash
  deriving DecidableEq, Repr

inductive ValidationStatus
  | validated
  | failed
  deriving DecidableEq, Repr

structure ValidationRow where
  sourceKey : Key
  status : ValidationStatus
  rule : Option String
  sourceHash : Hash
  targetHash : Option Hash
  purgeSafe : Bool
  deriving DecidableEq, Repr

structure ClassTotalRow where
  retentionClass : Text
  sourceCount : Nat
  targetCount : Nat
  sourceSum : Option Decimal
  targetSum : Option Decimal
  matching : Bool
  deriving DecidableEq, Repr

inductive PurgeStatus
  | intended
  | purged
  | rolledBack
  deriving DecidableEq, Repr

structure LedgerRow where
  extracted : Option Nat
  extractFiles : Option Nat
  loaded : Option Nat
  rejected : Option Nat
  validated : Option Nat
  validateFailed : Option Nat
  purgeIntended : Option Nat
  purged : Option Nat
  purgeDryRun : Option Bool
  deriving DecidableEq, Repr

/-- A ledger row as `ensure_ledger` creates it. -/
def LedgerRow.fresh : LedgerRow := ⟨none, none, none, none, none, none, none, none, none⟩

structure ArchRow where
  sourceKey : Key
  rowHash : Hash
  values : Fields
  deriving DecidableEq, Repr

/-- What the target and the staging area hold of one table for one run. `archForeign` are archive
keys of other namespaces. `promoted` is not stored: the keys that a promotion found staged and
VALIDATED. -/
structure TargetTable where
  ranges : List KeyRange
  files : KeyMap Nat (List Raw)
  staging : KeyMap Key StagedRow
  rejects : KeyMap Key Reject
  validation : KeyMap Key ValidationRow
  classTotals : List ClassTotalRow
  purgeAudit : KeyMap Key PurgeStatus
  ledger : LedgerRow
  arch : KeyMap Text ArchRow
  archForeign : List Text
  promoted : KeyMap Key Unit
  deriving DecidableEq

/-- One source table, its columns by key, with this run's MIGAUDIT.PURGE_AUDIT rows. `edited` and
`deleted` are not stored: the rows the application changed since they were unloaded, and the rows
PURGE deleted with whether they were edited. -/
structure SourceTable where
  rows : KeyMap Key Fields
  audit : KeyMap Key Unit
  edited : KeyMap Key Unit
  deleted : KeyMap Key (Fields × Bool)
  deriving DecidableEq

inductive RunStatus
  | running
  | failed
  | closed
  deriving DecidableEq, Repr

structure RunRow where
  status : RunStatus
  manifestSha : String
  deriving DecidableEq, Repr

structure World where
  runRow : Option RunRow
  target : String → TargetTable
  source : String → SourceTable

inductive JobError
  | config (message : String)
  | foreignRun (message : String)
  | reconcile (message : String)
  | purgeGuard (message : String)
  | source (sqlcode : Option Int) (sqlstate : Option String) (text : String) (transient : Option Bool)
  | target (sqlstate : Option String) (nativeError : Option Int) (text : String)
  | unload (message : String)
  | unexpected (message : String)
  deriving DecidableEq, Repr

/-- `isinstance(e, LdmError)`. -/
def JobError.isLdm : JobError → Bool
  | .unexpected _ => false
  | _ => true

def JobError.exitCode : JobError → Nat
  | .config _ => 4
  | .foreignRun _ => 4
  | .reconcile _ => 2
  | .purgeGuard _ => 3
  | _ => 1

abbrev Job := Prog World JobError

structure BatchConfig where
  extractRangeRows : Nat
  loadBatchRows : Nat
  validateBatchRows : Nat
  purgeBatchRows : Nat
  purgeRetryAttempts : Nat
  extractRangeRows_pos : 0 < extractRangeRows
  loadBatchRows_pos : 0 < loadBatchRows
  validateBatchRows_pos : 0 < validateBatchRows
  purgeBatchRows_pos : 0 < purgeBatchRows

def World.onTarget (w : World) (table : String) (f : TargetTable → TargetTable) : World :=
  { w with target := fun name => if name = table then f (w.target name) else w.target name }

def World.onSource (w : World) (table : String) (f : SourceTable → SourceTable) : World :=
  { w with source := fun name => if name = table then f (w.source name) else w.source name }

@[simp] theorem World.onTarget_self (w : World) (table : String) (f : TargetTable → TargetTable) :
    (w.onTarget table f).target table = f (w.target table) := by simp [World.onTarget]

@[simp] theorem World.onTarget_other {w : World} {table other : String} {f : TargetTable → TargetTable}
    (h : other ≠ table) : (w.onTarget table f).target other = w.target other := by
  simp [World.onTarget, h]

@[simp] theorem World.onTarget_source (w : World) (table : String) (f : TargetTable → TargetTable) :
    (w.onTarget table f).source = w.source := rfl

@[simp] theorem World.onTarget_runRow (w : World) (table : String) (f : TargetTable → TargetTable) :
    (w.onTarget table f).runRow = w.runRow := rfl

theorem World.onTarget_onTarget (w : World) (table : String) (f g : TargetTable → TargetTable) :
    (w.onTarget table f).onTarget table g = w.onTarget table fun t => g (f t) := by
  unfold World.onTarget
  congr 1
  funext name
  by_cases h : name = table
  · simp [h]
  · simp [h]

theorem World.onTarget_congr {w : World} {table : String} {f g : TargetTable → TargetTable}
    (h : f (w.target table) = g (w.target table)) : w.onTarget table f = w.onTarget table g := by
  unfold World.onTarget
  congr 1
  funext name
  by_cases same : name = table
  · subst same
    simp [h]
  · simp [same]

theorem World.onTarget_id {w : World} {table : String} {f : TargetTable → TargetTable}
    (h : f (w.target table) = w.target table) : w.onTarget table f = w := by
  have same := World.onTarget_congr (g := id) h
  rw [same]
  unfold World.onTarget
  simp

@[simp] theorem World.onSource_self (w : World) (table : String) (f : SourceTable → SourceTable) :
    (w.onSource table f).source table = f (w.source table) := by simp [World.onSource]

@[simp] theorem World.onSource_other {w : World} {table other : String} {f : SourceTable → SourceTable}
    (h : other ≠ table) : (w.onSource table f).source other = w.source other := by
  simp [World.onSource, h]

@[simp] theorem World.onSource_target (w : World) (table : String) (f : SourceTable → SourceTable) :
    (w.onSource table f).target = w.target := rfl

@[simp] theorem World.onSource_runRow (w : World) (table : String) (f : SourceTable → SourceTable) :
    (w.onSource table f).runRow = w.runRow := rfl

end OtterWorks.Migration
