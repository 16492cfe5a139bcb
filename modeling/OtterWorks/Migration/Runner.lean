import OtterWorks.Lib.Transition
import OtterWorks.Migration.Purge

namespace OtterWorks.Migration

/-- `table_closes`. -/
def tableCloses (ts : TableSpec) (row : LedgerRow) (purgeEnabled : Bool) : Bool :=
  let rejected := row.rejected.getD 0
  let validated := row.validated.getD 0
  let vfailed := row.validateFailed.getD 0
  if orMinusOne row.extracted ≠ row.loaded.getD 0 + rejected then false
  else if orMinusOne row.loaded ≠ validated + vfailed then false
  else if ts.role = .reference then row.purged.getD 0 == 0
  else if purgeEnabled then orMinusOne row.purged == validated
  else orMinusOne row.purgeIntended == validated && row.purged.getD 0 == 0

def deleteStagingRun (closes : Bool) (tables : List TableSpec) : Job Unit :=
  if closes then tables.forM fun ts => deleteStagingTable ts.name else pure ()

def reconcileBody (purge : Bool) (tables : List TableSpec) : Job Bool := do
  -- session links, and mig.run_sessions replaced in two statements
  touch
  touch
  touch
  let rows ← Prog.query fun w => tables.map fun ts => (ts, (w.target ts.name).ledger)
  let closes := rows.all fun r => tableCloses r.1 r.2 purge
  -- the report is read, rendered and uploaded
  touch
  touch
  deleteStagingRun closes tables
  setRunStatus (if closes then .closed else .failed)
  pure closes

def reconcileStage (purge : Bool) (tables : List TableSpec) : Job Unit := do
  let closes ← logged (reconcileBody purge tables)
  if closes then pure () else throw (.reconcile "run does not close: see table lines above")

inductive StageName
  | extract
  | load
  | validate
  | purge
  | reconcile
  deriving DecidableEq, Repr

inductive Verb
  | one (stage : StageName)
  | all
  deriving DecidableEq, Repr

def allOrder : List StageName := [.extract, .load, .validate, .purge, .reconcile]

def Verb.stages : Verb → List StageName
  | .one stage => [stage]
  | .all => allOrder

/-- `SOURCE_VERBS`. -/
def Verb.usesSource : Verb → Bool
  | .one .extract => true
  | .one .purge => true
  | .all => true
  | _ => false

inductive EngineName
  | serial
  | spark
  deriving DecidableEq, Repr

/-- A manifest that `load_manifest` accepts. -/
structure Manifest where
  tables : List TableSpec
  purge : Bool
  sha256 : String
  batch : BatchConfig
  loadEngine : EngineName
  recordsPerSlice : Nat
  recordsPerSlice_pos : 0 < recordsPerSlice
  orders_nodup : (tables.map TableSpec.order).Nodup
  names_nodup : (tables.map TableSpec.name).Nodup
  parent_known : ∀ ts ∈ tables, ∀ parent, ts.parent = some parent → parent.table ∈ tables.map TableSpec.name
  lookup_known : ∀ ts ∈ tables, ∀ ct, ts.classTotals = some ct → ∀ res, ct.sourceClassResolution = some res →
    res.lookupTable ∈ tables.map TableSpec.name

def Manifest.tablesInOrder (m : Manifest) : List TableSpec :=
  m.tables.insertionSort fun a b => a.order ≤ b.order

def Manifest.engine (m : Manifest) (schedule : Schedule) : LoadEngine :=
  match m.loadEngine with
  | .serial => .serial
  | .spark => .spark m.recordsPerSlice schedule

def checkManifest (m : Manifest) (recorded : String) : Job Unit :=
  if recorded = m.sha256 then pure ()
  else throw (.foreignRun "a changed manifest needs a new --run-id")

def resumeRun (status : Option RunStatus) : Job Unit :=
  if status = some .closed then throw (.config "already CLOSED; use a new --run-id")
  else if status = some .failed then setRunStatus .running
  else pure ()

def prepareRun (m : Manifest) : Job Unit := do
  -- the DDL
  touch
  let recorded ← ensureRun m.sha256
  checkManifest m recorded
  -- `refresh_run` and `ensure_ledger`
  touch
  touch
  let status ← getRunStatus
  resumeRun status

def runStage (m : Manifest) (schedule : Schedule) : StageName → Job Unit
  | .extract => extract m.batch m.tablesInOrder
  | .load => load (m.engine schedule) m.batch m.tablesInOrder
  | .validate => validate m.batch m.tablesInOrder
  | .purge => purgeStage m.purge m.batch m.tablesInOrder
  | .reconcile => reconcileStage m.purge m.tablesInOrder

def JobError.isForeignRun : JobError → Bool
  | .foreignRun _ => true
  | _ => false

/-- `_mark_failed`; its own errors are only logged. -/
def markFailed : Job Unit :=
  tryCatch (do
      let status ← getRunStatus
      if status = some .running then setRunStatus .failed else pure ())
    fun _ => pure ()

/-- How `execute` answers an error. -/
def exitWith (e : JobError) : Job Nat := do
  if e.isForeignRun then pure () else markFailed
  pure e.exitCode

/-- The verb's stages, once the drivers are connected and the run is prepared. -/
def runVerb (m : Manifest) (schedule : Schedule) (verb : Verb) : Job Nat := do
  if verb.usesSource then touch else pure ()
  touch
  prepareRun m
  verb.stages.forM (runStage m schedule)
  pure 0

/-- `execute` of a stage verb, answering the exit code. -/
def execute (m : Manifest) (schedule : Schedule) (verb : Verb) : Job Nat :=
  tryCatch (runVerb m schedule verb) exitWith

/-- One start of the job process: what it was asked to do, what Spark happens to do, and what its
driver calls meet. -/
structure Execution where
  verb : Verb
  schedule : Schedule
  turns : List (Turn World JobError)

def Execution.run (m : Manifest) (e : Execution) (w : World) : Outcome JobError Nat × World :=
  (execute m e.schedule e.verb).run e.turns w

def Execution.Within (W : Weather World) (e : Execution) : Prop := ∀ turn ∈ e.turns, turn.Within W

def TargetTable.blank : TargetTable := ⟨[], ∅, ∅, ∅, ∅, [], ∅, .fresh, ∅, [], ∅⟩

/-- Before the run's first execution: no row of this run anywhere, whatever the archive and the source
hold. -/
structure World.Initial (w : World) : Prop where
  no_run : w.runRow = none
  target_blank : ∀ name, w.target name =
    { TargetTable.blank with arch := (w.target name).arch, archForeign := (w.target name).archForeign }
  source_clean : ∀ name, w.source name = ⟨(w.source name).rows, ∅, ∅, ∅⟩

/-- The state after one start of the process, however it ended. -/
def Manifest.step (m : Manifest) (w : World) (e : Execution) : Option World := some (e.run m w).2

/-- One execution after another, each crashed, failed or finished. -/
abbrev Manifest.Reaches (m : Manifest) (W : Weather World) (allowed : World → Execution → Prop) :
    World → World → Prop :=
  OtterWorks.Reaches m.step fun w e => e.Within W ∧ allowed w e

end OtterWorks.Migration
