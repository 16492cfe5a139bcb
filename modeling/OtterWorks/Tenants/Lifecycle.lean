import OtterWorks.Tenants.Reaper
import OtterWorks.Lib.Transition
import OtterWorks.Lib.Dict

namespace OtterWorks.Tenants

/-- A call that creates the item where there is none, from what it sets alone. -/
def ControlCall.upserts : ControlCall → Bool
  | .updateStatus .. => true
  | .recordActivity .. => true
  | .recordRunning _ => true
  | _ => false

/-- The condition of a call holds. -/
def ControlCall.accepted : ControlCall → Option TenantItem → Bool
  | .checkout .., item => vacant item
  | .setStatus .., item => item.isSome
  | .setPersistent .., item => item.isSome
  | .setPinned .., item => item.isSome
  | .extend .., item => item.isSome
  | _, _ => true

/-- A deploy run of the runner: where it ends well it records the tenant's coordinates and expiry. -/
structure DeployRun where
  begun : Nat
  ended : Nat
  succeeds : Bool
  url : String
  apiUrl : String
  db : String
  ns : String
  expires : Nat
  deriving DecidableEq, Repr

def DeployRun.calls (d : DeployRun) : List ControlCall :=
  [.updateStatus .deploying d.begun,
    if d.succeeds then .setActive d.url d.apiUrl d.db d.ns d.expires d.ended else .updateStatus .error d.ended]

def teardownCalls (begun ended : Nat) : List ControlCall :=
  [.updateStatus .draining begun, .updateStatus .free ended]

/-- What the idle scan records of a tenant that is asleep, that woke, whose clock starts, or that it suspends; the
flags say whether the run state has to be recorded first and which counter reset is kept. -/
inductive IdleRecord
  | asleep
  | woken (count now : Nat)
  | active (first : Bool) (count now : Nat)
  | idle (first : Bool) (reset : Option Nat) (count : Nat)
  | suspended (first : Bool) (reset : Option Nat) (count now : Nat)
  deriving DecidableEq, Repr

def IdleRecord.calls : IdleRecord → List ControlCall
  | .asleep => [.recordRunning 0]
  | .woken count now => [.recordActivity count now, .recordRunning 1]
  | .active first count now => (if first then [.recordRunning 1] else []) ++ [.recordActivity count now]
  | .idle first reset count =>
    (if first then [.recordRunning 1] else []) ++ (reset.map fun since => .recordActivity count since).toList
  | .suspended first reset count now =>
    (if first then [.recordRunning 1] else []) ++ (reset.map fun since => .recordActivity count since).toList ++
      [.recordActivity count now, .recordRunning 0]

/-- A request of the dashboard with the run it starts, an idle scan at one tenant, or the teardown of a reaper pass. -/
inductive Activity
  | checkout (input : CheckoutInput) (now : Nat) (run : DeployRun)
  | checkin (now begun ended : Nat)
  | extend (ttlSeconds now : Nat)
  | persist (persistent : Bool) (ttlSeconds now : Nat)
  | pin (pinned : Bool) (ttlSeconds now : Nat)
  | redeploy (run : DeployRun)
  | idleScan (record : IdleRecord)
  | reap (grace now : Nat)
  deriving DecidableEq, Repr

def Activity.calls : Activity → List ControlCall
  | .checkout input now run => .checkout input now :: run.calls
  | .checkin now begun ended => .setStatus .draining now :: teardownCalls begun ended
  | .extend ttlSeconds now => [.extend ttlSeconds now]
  | .persist persistent ttlSeconds now => [.setPersistent persistent ttlSeconds now]
  | .pin pinned ttlSeconds now => [.setPinned pinned ttlSeconds now]
  | .redeploy run => run.calls
  | .idleScan record => record.calls
  | .reap .. => [.deleteTenant]

/-- What the activity asks of the item that it reads first. -/
def Activity.admits : Activity → Option TenantItem → Bool
  | .checkout .., _ => true
  | .checkin .., item => item.any fun i => !i.isPersistent && !i.isPinned
  | .extend .., item => item.any fun i => !i.isPersistent && !i.isPinned
  | .persist .., item => item.isSome
  | .pin .., item => item.any fun i => !i.isPersistent
  | .redeploy _, item => item.any fun i => i.status ≠ some .draining && i.status ≠ some .free
  | .idleScan _, item => item.any fun i => !i.isPersistent
  | .reap grace now, item => item.any fun i => i.reapable grace now

/-- An activity under way: the calls it has left. -/
structure Process where
  id : String
  calls : List ControlCall
  deriving DecidableEq, Repr

structure Platform where
  table : ControlTable
  processes : List Process

/-- An activity reads its item and starts, a process makes its next call, or it fails and makes no more. -/
inductive PlatformEvent
  | start (id : String) (activity : Activity)
  | next (i : Nat)
  | fail (i : Nat)
  deriving DecidableEq, Repr

namespace Platform

/-- A process ends with a call whose condition fails. -/
def call (s : Platform) (i : Nat) (p : Process) : Platform :=
  match p.calls with
  | [] => s
  | c :: rest =>
    let rest := if c.accepted (s.table p.id) then rest else []
    ⟨s.table.call p.id c, s.processes.set i ⟨p.id, rest⟩⟩

def step (s : Platform) : PlatformEvent → Platform
  | .start id activity =>
    if activity.admits (s.table id) then { s with processes := s.processes ++ [⟨id, activity.calls⟩] } else s
  | .next i =>
    match s.processes[i]? with
    | none => s
    | some p => s.call i p
  | .fail i =>
    match s.processes[i]? with
    | none => s
    | some p => { s with processes := s.processes.set i ⟨p.id, []⟩ }

/-- The tenant and the call of the next step of a process. -/
def pending (s : Platform) : PlatformEvent → Option (String × ControlCall)
  | .next i => (s.processes[i]?).bind fun p => p.calls.head?.map fun c => (p.id, c)
  | _ => none

def empty : Platform := ⟨fun _ => none, []⟩

end Platform

/-- A later pass can collect the tenant, or is told not to. -/
def TenantItem.Collectable (item : TenantItem) : Prop :=
  item.isPersistent = true ∨ item.isPinned = true ∨ item.expiresAt.isSome = true

instance (item : TenantItem) : Decidable item.Collectable := inferInstanceAs (Decidable (_ ∨ _ ∨ _))

def NoImmortal (s : Platform) : Prop := ∀ id, ∀ item ∈ s.table id, item.Collectable

/-- An upsert of a status, of an idle clock or of a run state finds an item. -/
def Grounded (s : Platform) (event : PlatformEvent) : Prop :=
  ∀ c ∈ s.pending event, c.2.upserts = true → (s.table c.1).isSome = true

instance (s : Platform) (event : PlatformEvent) : Decidable (Grounded s event) :=
  inferInstanceAs (Decidable (∀ c ∈ s.pending event, _))

section

variable {s : Platform} {event : PlatformEvent} {item : Option TenantItem} {call : ControlCall} {id : String}

/-- A call keeps the item collectable exactly if it is no upsert of a bare one. -/
theorem ControlCall.apply_collectable (h : ∀ i ∈ item, i.Collectable) :
    (∀ i ∈ call.apply item, i.Collectable) ↔ (call.upserts = true → item.isSome = true) := by
  cases item with
  | none =>
    cases call with
    | checkout => simp [apply, vacant, upserts, TenantItem.Collectable, CheckoutInput.item]
    | setActive => simp [apply, upserts, TenantItem.Collectable]
    | _ =>
      simp [apply, upserts, TenantItem.Collectable, TenantItem.bare, TenantItem.isPersistent, TenantItem.isPinned]
  | some i =>
    have collectable : i.Collectable := h i rfl
    unfold TenantItem.Collectable at collectable
    cases call with
    | checkout input now =>
      by_cases spent : vacant (some i) = true
      · simp [apply, spent, TenantItem.Collectable, CheckoutInput.item]
      · simp only [apply, spent, Bool.false_eq_true, if_false, Option.mem_def, Option.some.injEq, forall_eq',
          Option.isSome_some, implies_true, iff_true]
        exact collectable
    | setPersistent => simp [apply, TenantItem.Collectable]
    | setPinned => simp [apply, TenantItem.Collectable]
    | extend => simp [apply, TenantItem.Collectable]
    | setActive => simp [apply, TenantItem.Collectable]
    | deleteTenant => simp [apply]
    | _ =>
      simp only [apply, Option.map_some, Option.getD_some, Option.mem_def, Option.some.injEq, forall_eq',
        Option.isSome_some, implies_true, iff_true]
      exact collectable

theorem ControlTable.call_collectable {table : ControlTable} (h : ∀ id, ∀ item ∈ table id, item.Collectable) :
    (∀ other, ∀ item ∈ table.call id call other, item.Collectable) ↔
      (call.upserts = true → (table id).isSome = true) := by
  rw [← ControlCall.apply_collectable (h id)]
  constructor
  · intro all
    have here := all id
    rwa [ControlTable.call_self] at here
  · intro here other
    by_cases same : other = id
    · subst same
      rw [ControlTable.call_self]
      exact here
    · rw [ControlTable.call_other call same]
      exact h other

theorem noImmortal_step (h : NoImmortal s) : NoImmortal (s.step event) ↔ Grounded s event := by
  cases event with
  | start id activity =>
    have trivially : Grounded s (.start id activity) := fun _ there => by cases there
    refine iff_of_true ?_ trivially
    unfold Platform.step
    dsimp only
    split
    next => exact h
    next => exact h
  | fail i =>
    have trivially : Grounded s (.fail i) := fun _ there => by cases there
    refine iff_of_true ?_ trivially
    unfold Platform.step
    dsimp only
    split
    next => exact h
    next => exact h
  | next i =>
    unfold Grounded Platform.pending Platform.step
    dsimp only
    cases there : s.processes[i]? with
    | none => simpa using h
    | some p =>
      unfold Platform.call
      dsimp only
      cases left : p.calls with
      | nil => simpa [left] using h
      | cons c rest =>
        unfold NoImmortal
        simp only [Option.bind_some, left, List.head?_cons, Option.map_some, Option.mem_def, Option.some.injEq,
          forall_eq']
        exact ControlTable.call_collectable h

/-- No tenant becomes immortal in a run exactly if each upsert of the run finds an item. -/
theorem no_immortal_iff (events : List PlatformEvent) :
    (∀ n, NoImmortal ((events.take n).foldl Platform.step .empty)) ↔
      ∀ n event, events[n]? = some event → Grounded ((events.take n).foldl Platform.step .empty) event := by
  rw [foldl_always_iff (fun s event (h : NoImmortal s) => noImmortal_step h)]
  apply and_iff_right
  exact fun _ _ there => by cases there

end

/-- A check-in whose teardown job is still at work when a pass reaps the expired tenant. -/
def reapedCheckin : List PlatformEvent :=
  [.start "a01" (.checkout ⟨"a01", "facilitator", "workshop-a01", .a, none, 3600, "demo.otterworks.app", false⟩ 1700000000
      ⟨1700000030, 1700000300, true, "", "", "", "", 1700003630⟩),
    .next 0, .next 0, .next 0,
    .start "a01" (.checkin 1700003900 1700003930 1700004200), .next 1, .next 1,
    .start "a01" (.reap 300 1700004000), .next 2,
    .next 1]

theorem reaped_checkin_immortal :
    ¬ ∀ n, NoImmortal ((reapedCheckin.take n).foldl Platform.step .empty) := by
  intro always
  have last := always 10 "a01"
  have left : ((reapedCheckin.take 10).foldl Platform.step .empty).table "a01" =
      some { TenantItem.bare with status := some .free, lastSeenAt := some 1700004200 } := by decide
  have collectable := last _ left
  revert collectable
  decide

end OtterWorks.Tenants
