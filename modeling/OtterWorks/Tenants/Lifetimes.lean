import OtterWorks.Tenants.Control
import OtterWorks.Lib.Transition
import OtterWorks.Lib.Dict

namespace OtterWorks.Tenants

def neverTtlSeconds : Nat := 10 * 365 * 86400

inductive TtlUnit
  | m
  | h
  | d
  deriving DecidableEq, Repr

/-- A compact lifetime, as the runner takes it. -/
inductive Ttl
  | never
  | of (num : Nat) (unit : TtlUnit)
  deriving DecidableEq, Repr

def TtlUnit.mult : TtlUnit → Nat
  | .m => 60
  | .h => 3600
  | .d => 86400

/-- `ttlToSeconds`, on a lifetime that it accepts. -/
def Ttl.seconds : Ttl → Nat
  | .never => neverTtlSeconds
  | .of num unit => num * unit.mult

def secondsToTtl (seconds : Nat) : Ttl := .of (max 1 ((seconds + 59) / 60)) .m

/-- `expiry_epoch` of the runner. -/
def expiryEpoch (ttl : Ttl) (now : Nat) : Nat :=
  match ttl with
  | .never => now + 10 * 365 * 86400
  | .of num unit => now + num * unit.mult

/-- The lifetime that a redeploy passes on. -/
def redeployTtl (never : Bool) (expiresAt now : Nat) : Ttl :=
  if never then .never else secondsToTtl (max 300 (expiresAt - now))

inductive LifetimeRequest
  | extend (ttlSeconds : Nat)
  | persist (persistent : Bool) (ttlSeconds : Nat)
  | pin (pinned : Bool) (ttlSeconds : Nat)
  | redeploy
  deriving DecidableEq, Repr

/-- What a request waits for next: the write of an expiry, or, on the way of a redeploy, the list of running jobs, the
creation of its job, the start of the run and its end. -/
inductive LifetimeStage
  | extend (ttlSeconds : Nat)
  | persist (persistent : Bool) (ttlSeconds : Nat)
  | pin (pinned : Bool) (ttlSeconds : Nat)
  | activeRunnerJob (expiresAt : Nat) (never : Bool)
  | createRunnerJob (ttl : Ttl)
  | job (ttl : Ttl)
  | run (ttl : Ttl) (started : Nat)
  | finished
  deriving DecidableEq, Repr

/-- `overtaken`: an extend, persist or pin was accepted since the request read the tenant. -/
structure LifetimeHandler where
  stage : LifetimeStage
  overtaken : Bool
  deriving DecidableEq, Repr

/-- A tenant that stays checked out. `granted` is the expiry that the last checkout, extend, persist or pin set, and
`byOperator` says that it was not the checkout. -/
structure Tenancy where
  item : TenantItem
  now : Nat
  handlers : List LifetimeHandler
  granted : Nat
  byOperator : Bool
  deriving DecidableEq, Repr

inductive LifetimeEvent
  | request (r : LifetimeRequest)
  | next (i : Nat) (succeeds : Bool)
  | tick (seconds : Nat)
  deriving DecidableEq, Repr

def TenantItem.after (item : TenantItem) (call : ControlCall) : TenantItem := (call.apply (some item)).getD item

/-- What a request comes to once it has read the tenant; nothing where it is refused. -/
def LifetimeRequest.read (item : TenantItem) : LifetimeRequest → Option LifetimeStage
  | .extend ttlSeconds =>
    if neverTtlSeconds ≤ ttlSeconds then none
    else if item.isPersistent ∨ item.isPinned then none
    else some (.extend ttlSeconds)
  | .persist persistent ttlSeconds =>
    if persistent then some (.persist true neverTtlSeconds)
    else if neverTtlSeconds ≤ ttlSeconds then none
    else some (.persist false ttlSeconds)
  | .pin pinned ttlSeconds =>
    if item.isPersistent then none
    else if pinned then some (.pin true neverTtlSeconds)
    else if neverTtlSeconds ≤ ttlSeconds then none
    else some (.pin false ttlSeconds)
  | .redeploy =>
    if item.status = some .draining ∨ item.status = some .free then none
    else some (.activeRunnerJob (item.expiresAt.getD 0) (item.isPersistent || item.isPinned))

def LifetimeHandler.deploying (h : LifetimeHandler) : Bool :=
  match h.stage with
  | .job _ => true
  | .run .. => true
  | _ => false

namespace Tenancy

def expiry (s : Tenancy) : Nat := s.item.expiresAt.getD 0

def setStage (s : Tenancy) (i : Nat) (h : LifetimeHandler) (stage : LifetimeStage) : Tenancy :=
  { s with handlers := s.handlers.set i ⟨stage, h.overtaken⟩ }

/-- An operator's call writes the expiry; what other requests have read is overtaken. -/
def grant (s : Tenancy) (i : Nat) (call : ControlCall) (ttlSeconds : Nat) : Tenancy :=
  { s with
    item := s.item.after call
    handlers := (s.handlers.map fun h => { h with overtaken := true }).set i ⟨.finished, true⟩
    granted := s.now + ttlSeconds
    byOperator := true }

/-- The end of a deploy run: `ctl_set_active` with the expiry from its start, or the error status. -/
def endRun (s : Tenancy) (succeeds : Bool) (expires : Nat) : TenantItem :=
  if succeeds then
    s.item.after (.setActive (s.item.url.getD "") (s.item.apiUrl.getD "") (s.item.dbName.getD "") (s.item.ns.getD "")
      expires s.now)
  else s.item.after (.updateStatus .error s.now)

def next (s : Tenancy) (i : Nat) (succeeds : Bool) (h : LifetimeHandler) : Tenancy :=
  match h.stage with
  | .extend ttlSeconds => s.grant i (.extend ttlSeconds s.now) ttlSeconds
  | .persist persistent ttlSeconds => s.grant i (.setPersistent persistent ttlSeconds s.now) ttlSeconds
  | .pin pinned ttlSeconds => s.grant i (.setPinned pinned ttlSeconds s.now) ttlSeconds
  | .activeRunnerJob expiresAt never =>
    if s.handlers.any LifetimeHandler.deploying then s.setStage i h .finished
    else s.setStage i h (.createRunnerJob (redeployTtl never expiresAt s.now))
  | .createRunnerJob ttl => s.setStage i h (.job ttl)
  | .job ttl => { s.setStage i h (.run ttl s.now) with item := s.item.after (.updateStatus .deploying s.now) }
  | .run ttl started => { s.setStage i h .finished with item := s.endRun succeeds (expiryEpoch ttl started) }
  | .finished => s

def step (s : Tenancy) : LifetimeEvent → Tenancy
  | .request r =>
    match r.read s.item with
    | none => s
    | some stage => { s with handlers := s.handlers ++ [⟨stage, false⟩] }
  | .next i succeeds =>
    match s.handlers[i]? with
    | none => s
    | some h => s.next i succeeds h
  | .tick seconds => { s with now := s.now + seconds }

/-- A fresh checkout, whose deploy job is there. -/
def start (input : CheckoutInput) (ttl : Ttl) (now : Nat) : Tenancy :=
  ⟨{ input with ttlSeconds := ttl.seconds }.item now, now, [⟨.job ttl, false⟩], now + ttl.seconds, false⟩

end Tenancy

end OtterWorks.Tenants
