import Mathlib.Logic.Function.Basic

namespace OtterWorks.Tenants

inductive TenantStatus
  | free
  | reserved
  | deploying
  | active
  | draining
  | error
  deriving DecidableEq, Repr

inductive TenantTier
  | a
  | b
  deriving DecidableEq, Repr

/-- A TENANT#<id>/META item. An upsert makes one out of the attributes it sets alone. -/
structure TenantItem where
  id : Option String
  status : Option TenantStatus
  owner : Option String
  branch : Option String
  tier : Option TenantTier
  imageTag : Option String
  url : Option String
  apiUrl : Option String
  dbName : Option String
  ns : Option String
  createdAt : Option Nat
  checkedOutAt : Option Nat
  expiresAt : Option Nat
  lastSeenAt : Option Nat
  persistent : Option Bool
  pinned : Option Bool
  reqCount : Option Nat
  idleSince : Option Nat
  wasRunning : Option Nat
  deriving DecidableEq, Repr

def TenantItem.bare : TenantItem :=
  ⟨none, none, none, none, none, none, none, none, none, none, none, none, none, none, none, none, none, none, none⟩

def TenantItem.isPersistent (item : TenantItem) : Bool := item.persistent.getD false

def TenantItem.isPinned (item : TenantItem) : Bool := item.pinned.getD false

structure CheckoutInput where
  id : String
  owner : String
  branch : String
  tier : TenantTier
  imageTag : Option String
  ttlSeconds : Nat
  hostSuffix : String
  persistent : Bool
  deriving DecidableEq, Repr

/-- The item that `checkout` puts. -/
def CheckoutInput.item (input : CheckoutInput) (now : Nat) : TenantItem :=
  { TenantItem.bare with
    id := some input.id
    status := some .deploying
    owner := some input.owner
    branch := some input.branch
    tier := some input.tier
    imageTag := input.imageTag
    url := some s!"https://t-{input.id}.{input.hostSuffix}"
    apiUrl := some s!"https://api-t-{input.id}.{input.hostSuffix}"
    dbName := some s!"otterworks_{input.id}"
    ns := some s!"otterworks-{input.id}"
    createdAt := some now
    checkedOutAt := some now
    expiresAt := some (now + input.ttlSeconds)
    lastSeenAt := some now
    persistent := some input.persistent }

/-- A call on the item of one tenant: the dashboard's conditional writes, the upserts of the runner and of the idle
scan, and the reaper's delete. -/
inductive ControlCall
  | checkout (input : CheckoutInput) (now : Nat)
  | setStatus (status : TenantStatus) (now : Nat)
  | setPersistent (persistent : Bool) (ttlSeconds now : Nat)
  | setPinned (pinned : Bool) (ttlSeconds now : Nat)
  | extend (ttlSeconds now : Nat)
  | updateStatus (status : TenantStatus) (now : Nat)
  | setActive (url apiUrl db ns : String) (expires now : Nat)
  | recordActivity (count since : Nat)
  | recordRunning (running : Nat)
  | deleteTenant
  deriving DecidableEq, Repr

namespace ControlCall

/-- Only a tenant that is not there, or a spent one, is checked out. -/
def vacant : Option TenantItem → Bool
  | none => true
  | some item => item.status = some .free || item.status = some .error

/-- What the call leaves of the item; where its condition fails it leaves it alone. -/
def apply : ControlCall → Option TenantItem → Option TenantItem
  | .checkout input now, item => if vacant item then some (input.item now) else item
  | .setStatus status now, item => item.map fun i => { i with status := some status, lastSeenAt := some now }
  | .setPersistent persistent ttlSeconds now, item => item.map fun i =>
    { i with persistent := some persistent, expiresAt := some (now + ttlSeconds), lastSeenAt := some now }
  | .setPinned pinned ttlSeconds now, item => item.map fun i =>
    { i with pinned := some pinned, expiresAt := some (now + ttlSeconds), lastSeenAt := some now }
  | .extend ttlSeconds now, item => item.map fun i =>
    { i with expiresAt := some (now + ttlSeconds), lastSeenAt := some now }
  | .updateStatus status now, item =>
    some { item.getD .bare with status := some status, lastSeenAt := some now }
  | .setActive url apiUrl db ns expires now, item =>
    some { item.getD .bare with
      status := some .active
      url := some url
      apiUrl := some apiUrl
      dbName := some db
      ns := some ns
      expiresAt := some expires
      lastSeenAt := some now }
  | .recordActivity count since, item =>
    some { item.getD .bare with reqCount := some count, idleSince := some since }
  | .recordRunning running, item => some { item.getD .bare with wasRunning := some running }
  | .deleteTenant, _ => none

end ControlCall

/-- The META items by tenant. -/
abbrev ControlTable := String → Option TenantItem

def ControlTable.call (table : ControlTable) (id : String) (call : ControlCall) : ControlTable :=
  Function.update table id (call.apply (table id))

@[simp] theorem ControlTable.call_self (table : ControlTable) (id : String) (call : ControlCall) :
    table.call id call id = call.apply (table id) := Function.update_self ..

theorem ControlTable.call_other {table : ControlTable} {id other : String} (call : ControlCall) (h : other ≠ id) :
    table.call id call other = table other := Function.update_of_ne h ..

/-- Calls one after another, each with its tenant. -/
def ControlTable.calls (table : ControlTable) (calls : List (String × ControlCall)) : ControlTable :=
  calls.foldl (fun t c => t.call c.1 c.2) table

/-- The calls on one tenant, applied to its item. -/
def callsOn (id : String) (calls : List (String × ControlCall)) (item : Option TenantItem) : Option TenantItem :=
  (calls.filter fun c => c.1 = id).foldl (fun i c => c.2.apply i) item

theorem callsOn_append (id : String) (a b : List (String × ControlCall)) (item : Option TenantItem) :
    callsOn id (a ++ b) item = callsOn id b (callsOn id a item) := by
  unfold callsOn
  rw [List.filter_append, List.foldl_append]

/-- The calls on other tenants leave an item alone. -/
theorem ControlTable.calls_apply (table : ControlTable) (calls : List (String × ControlCall)) (id : String) :
    table.calls calls id = callsOn id calls (table id) := by
  unfold ControlTable.calls callsOn
  induction calls generalizing table with
  | nil => rfl
  | cons c calls ih =>
    rw [List.foldl_cons, ih]
    by_cases same : c.1 = id
    · rw [List.filter_cons_of_pos (by simpa using same), List.foldl_cons, ← same, ControlTable.call_self]
    · rw [List.filter_cons_of_neg (by simpa using same), ControlTable.call_other _ (Ne.symm same)]

end OtterWorks.Tenants
