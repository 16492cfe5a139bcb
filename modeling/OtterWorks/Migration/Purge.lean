import OtterWorks.Migration.Validate

namespace OtterWorks.Migration

def transientSourceSqlstates : List String := ["57011", "57033", "40001"]

def JobError.isTransient : JobError → Bool
  | .source _ sqlstate _ transient =>
    match transient with
    | some verdict => verdict
    | none => (sqlstate.map transientSourceSqlstates.contains).getD false
  | _ => false

/-- A batch that the source refused: a transient refusal goes on with `retry`. -/
def rolledBackBatch (ts : TableSpec) (chunk : List Key) (retry : JobError → Job Nat) (e : JobError) : Job Nat :=
  if e.isLdm then do
    setPurgeAuditStatus ts.name chunk .rolledBack
    if e.isTransient then retry e else throw e
  else throw e

/-- One attempt of `_purge_batch_with_retry`. -/
def purgeAttempt (tables : List TableSpec) (ts : TableSpec) (chunk : List Key) (batchNo : Nat)
    (retry : JobError → Job Nat) : Job Nat := do
  insertPurgeAudit ts.name chunk
  tryCatch (purgeBatch tables ts chunk batchNo) (rolledBackBatch ts chunk retry)

/-- `_purge_batch_with_retry` with the attempts left after the first. -/
def purgeBatchWithRetry (tables : List TableSpec) (ts : TableSpec) (chunk : List Key) (batchNo : Nat) :
    Nat → Job Nat
  | 0 => purgeAttempt tables ts chunk batchNo fun e => throw e
  | left + 1 => purgeAttempt tables ts chunk batchNo fun _ => purgeBatchWithRetry tables ts chunk batchNo left

/-- `guard`: the purge_safe keys, if there are as many as the ledger has validated. -/
def guard (purge : Bool) (ts : TableSpec) : Job (List Key × Nat) := do
  let keys ← purgeSafeKeys ts.name
  let ledger ← getLedger ts.name
  updateLedger ts.name fun l => { l with purgeIntended := some keys.length, purgeDryRun := some !purge }
  if ledger.validated ≠ some keys.length then
    throw (.purgeGuard s!"{ts.name}: purge guard: {keys.length} purge_safe key(s) but ledger validated={orMinusOne ledger.validated}; nothing deleted")
  else pure (keys, keys.length)

/-- The ledger's `purged`, counted. -/
def countPurged (ts : TableSpec) : Job Nat := do
  let done ← purgedKeys ts.name
  updateLedger ts.name fun l => { l with purged := some done.length }
  pure done.length

def purgeChunk (tables : List TableSpec) (batch : BatchConfig) (ts : TableSpec) (chunk : List Key) (batchNo : Nat) :
    Job Unit := do
  let _ ← tryCatch (purgeBatchWithRetry tables ts chunk batchNo batch.purgeRetryAttempts) fun e =>
    if e.isLdm then do
      let _ ← countPurged ts
      throw e
    else throw e
  setPurgeAuditStatus ts.name chunk .purged

def purgeChunks (tables : List TableSpec) (batch : BatchConfig) (ts : TableSpec) :
    Nat → Nat → List Key → Job Unit
  | 0, _, _ => pure ()
  | budget + 1, batchNo, todo =>
    if todo.isEmpty then pure ()
    else do
      purgeChunk tables batch ts (todo.take batch.purgeBatchRows) batchNo
      purgeChunks tables batch ts budget (batchNo + 1) (todo.drop batch.purgeBatchRows)

/-- Keys whose deletion the source already committed are marked PURGED; answers the others. -/
def recoverPurged (ts : TableSpec) (todo : List Key) : Job (List Key) :=
  if todo.isEmpty then pure todo
  else do
    let committed ← auditedKeys ts.name todo
    if committed.isEmpty then pure todo
    else do
      let recovered := todo.filter fun k => k ∈ committed
      insertPurgeAudit ts.name recovered
      setPurgeAuditStatus ts.name recovered .purged
      pure (todo.filter fun k => k ∉ committed)

/-- The batches of `purge_table`, with what is PURGED in the end. -/
def purgeKeys (tables : List TableSpec) (batch : BatchConfig) (ts : TableSpec) (keys : List Key) : Job Nat := do
  let already ← purgedKeys ts.name
  let todo ← recoverPurged ts (keys.filter fun k => k ∉ already)
  purgeChunks tables batch ts todo.length 1 todo
  countPurged ts

def purgeTable (purge : Bool) (tables : List TableSpec) (batch : BatchConfig) (ts : TableSpec)
    (keys : List Key) (validated : Nat) : Job Unit :=
  if purge then do
    let purged ← purgeKeys tables batch ts keys
    if purged ≠ validated then
      throw (.purgeGuard s!"{ts.name}: purged {purged} != validated {validated} after all batches")
    else pure ()
  else updateLedger ts.name fun l => { l with purged := some 0 }

/-- PURGE leaves the reference tables alone. -/
def skipReference (purge : Bool) (ts : TableSpec) : Job Unit :=
  if ts.role = .data then pure ()
  else updateLedger ts.name fun l =>
    { l with purgeIntended := some 0, purged := some 0, purgeDryRun := some !purge }

def purgeStage (purge : Bool) (batch : BatchConfig) (tables : List TableSpec) : Job Unit := do
  tables.forM (skipReference purge)
  let dataTables := (tables.filter fun ts => ts.role = .data).reverse
  -- every guard is evaluated before the first DELETE
  let guarded ← dataTables.mapM fun ts => logged (guard purge ts)
  (dataTables.zip guarded).forM fun g => logged (purgeTable purge tables batch g.1 g.2.1 g.2.2)

end OtterWorks.Migration
