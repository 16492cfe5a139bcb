import OtterWorks.Tenants.Control
import Mathlib.Data.List.Nodup
import Mathlib.Algebra.Order.Ring.Int

namespace OtterWorks.Tenants

/-- Shell arithmetic: 64 bits, without a check for overflow. -/
def shellInt (n : Int) : Int := Int.bmod n (2 ^ 64)

/-- What `reap_expired` makes of an item that it has scanned. -/
def TenantItem.reapable (item : TenantItem) (grace now : Nat) : Bool :=
  if item.isPersistent then false
  else if item.isPinned then false
  else
    match item.expiresAt with
    | none => false
    | some exp => shellInt (exp + grace) < now

/-- A tenant that may be reaped: neither flag is set and its expiry and the grace after it are past. -/
def TenantItem.Expired (item : TenantItem) (grace now : Nat) : Prop :=
  item.isPersistent = false ∧ item.isPinned = false ∧ ∃ exp ∈ item.expiresAt, exp + grace < now

instance (item : TenantItem) (grace now : Nat) : Decidable (item.Expired grace now) :=
  inferInstanceAs (Decidable (_ ∧ _ ∧ ∃ exp ∈ item.expiresAt, exp + grace < now))

/-- The pass comes to a tenant: the calls that land on any tenant before its turn, and those that land from then until
the pass goes on. -/
structure Visit where
  id : String
  before : List (String × ControlCall)
  during : List (String × ControlCall)
  deriving DecidableEq, Repr

def Visit.calls (v : Visit) : List (String × ControlCall) := v.before ++ v.during

/-- One pass over the items of a scan, each tenant once. -/
structure ReapPass where
  grace : Nat
  now : Nat
  scanned : ControlTable
  visits : List Visit
  distinct : (visits.map Visit.id).Nodup

/-- The control table, and each teardown with the item there was when it started. -/
structure Reaping where
  table : ControlTable
  started : List (String × Option TenantItem)

/-- The turn of a tenant; `gc_tenant` ends with the delete of its control items. -/
def ReapPass.visit (p : ReapPass) (r : Reaping) (v : Visit) : Reaping :=
  let table := r.table.calls v.before
  if (p.scanned v.id).any fun item => item.reapable p.grace p.now then
    ⟨(table.calls v.during).call v.id .deleteTenant, r.started ++ [(v.id, table v.id)]⟩
  else ⟨table.calls v.during, r.started⟩

def ReapPass.reapExpired (p : ReapPass) : Reaping := p.visits.foldl p.visit ⟨p.scanned, []⟩

/-- Every teardown started on a tenant that was expired then. -/
def OnlyExpired (grace now : Nat) (started : List (String × Option TenantItem)) : Prop :=
  ∀ r ∈ started, ∀ item ∈ r.2, item.Expired grace now

instance (grace now : Nat) (started : List (String × Option TenantItem)) : Decidable (OnlyExpired grace now started) :=
  inferInstanceAs (Decidable (∀ r ∈ started, ∀ item ∈ r.2, item.Expired grace now))

/-- If the scan found the tenant reapable, the calls on it since have left it expired, or gone. -/
def StaysExpired (p : ReapPass) (v : Visit) (landed : List (String × ControlCall)) : Prop :=
  ∀ item ∈ p.scanned v.id, item.reapable p.grace p.now = true →
    ∀ found ∈ callsOn v.id landed (some item), found.Expired p.grace p.now

section

variable {p : ReapPass} {r : Reaping} {v : Visit} {visits : List Visit} {landed : List (String × ControlCall)}

theorem ReapPass.visit_other {id : String} (h : id ≠ v.id) : (p.visit r v).table id = r.table.calls v.calls id := by
  unfold ReapPass.visit
  dsimp only
  have both : (r.table.calls v.before).calls v.during id = r.table.calls v.calls id := by
    unfold Visit.calls
    rw [ControlTable.calls_apply, ControlTable.calls_apply, ControlTable.calls_apply, callsOn_append]
  split
  next =>
    dsimp only
    rw [ControlTable.call_other _ h, both]
  next => exact both

/-- The turn of a tenant whose item is what the calls since the scan have made of the scanned one. -/
theorem ReapPass.visit_started (held : r.table v.id = callsOn v.id landed (p.scanned v.id)) :
    OnlyExpired p.grace p.now (p.visit r v).started ↔
      OnlyExpired p.grace p.now r.started ∧ StaysExpired p v (landed ++ v.before) := by
  have at_turn : r.table.calls v.before v.id = callsOn v.id (landed ++ v.before) (p.scanned v.id) := by
    rw [ControlTable.calls_apply, held, callsOn_append]
  unfold ReapPass.visit StaysExpired
  dsimp only
  cases scan : p.scanned v.id with
  | none => simp
  | some item =>
    rw [scan] at at_turn
    cases judged : item.reapable p.grace p.now with
    | false => simp [judged]
    | true =>
      simp only [Option.any_some, judged, if_true, at_turn]
      unfold OnlyExpired
      constructor
      · intro h
        refine ⟨fun t member => h t (List.mem_append_left _ member), ?_⟩
        intro item' same _
        cases Option.some.inj same
        exact h _ (List.mem_append_right _ (List.mem_singleton.mpr rfl))
      · intro h t member
        rcases List.mem_append.mp member with old | new
        · exact h.1 t old
        · rw [List.mem_singleton.mp new]
          exact h.2 item rfl judged

/-- The rest of a pass, from a table in which the tenants to come have what the calls since the scan have made. -/
theorem ReapPass.visits_started (visits : List Visit) (distinct : (visits.map Visit.id).Nodup)
    (held : ∀ v ∈ visits, r.table v.id = callsOn v.id landed (p.scanned v.id)) :
    OnlyExpired p.grace p.now (visits.foldl p.visit r).started ↔ OnlyExpired p.grace p.now r.started ∧
      ∀ n v, visits[n]? = some v →
        StaysExpired p v (landed ++ (visits.take n).flatMap Visit.calls ++ v.before) := by
  induction visits generalizing r landed with
  | nil => simp
  | cons v visits ih =>
    rw [List.map_cons, List.nodup_cons] at distinct
    have next : ∀ u ∈ visits, (p.visit r v).table u.id = callsOn u.id (landed ++ v.calls) (p.scanned u.id) := by
      intro u member
      have apart : u.id ≠ v.id := by
        intro same
        apply distinct.1
        rw [← same]
        exact List.mem_map_of_mem member
      rw [ReapPass.visit_other apart, ControlTable.calls_apply, held u (List.mem_cons_of_mem _ member), callsOn_append]
    rw [List.foldl_cons, ih distinct.2 next, ReapPass.visit_started (held v (List.mem_cons_self ..)), and_assoc]
    apply and_congr_right
    intro _
    constructor
    · intro h n u there
      cases n with
      | zero =>
        cases Option.some.inj there
        simpa using h.1
      | succ n => simpa [List.append_assoc] using h.2 n u there
    · intro h
      refine ⟨by simpa using h 0 v rfl, ?_⟩
      intro n u there
      simpa [List.append_assoc] using h (n + 1) u there

/-- A pass reaps only what is expired when it is reaped, exactly if no call between the scan and the turn of a tenant
that the scan found reapable leaves it unexpired. -/
theorem reaps_only_expired_iff (p : ReapPass) : OnlyExpired p.grace p.now p.reapExpired.started ↔
    ∀ n v, p.visits[n]? = some v → StaysExpired p v ((p.visits.take n).flatMap Visit.calls ++ v.before) := by
  unfold ReapPass.reapExpired
  have pass := @ReapPass.visits_started p ⟨p.scanned, []⟩ [] p.visits p.distinct fun _ _ => rfl
  rw [pass]
  simp [OnlyExpired]

end

/-- The item of a fresh checkout. -/
def checkedOut (id : String) (now ttlSeconds : Nat) : TenantItem :=
  CheckoutInput.item ⟨id, "facilitator", "workshop-" ++ id, .a, none, ttlSeconds, "demo.otterworks.app", false⟩ now

/-- Two expired tenants; the second is extended while the first is torn down. -/
def extendedPass : ReapPass where
  grace := 300
  now := 1700010000
  scanned := fun id => if id = "a01" ∨ id = "a02" then some (checkedOut id 1700000000 3600) else none
  visits := [⟨"a01", [], [("a02", .extend 28800 1700010060)]⟩, ⟨"a02", [], []⟩]
  distinct := by decide

theorem extended_tenant_reaped :
    ¬ OnlyExpired extendedPass.grace extendedPass.now extendedPass.reapExpired.started := by
  decide

end OtterWorks.Tenants
