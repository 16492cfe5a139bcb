import OtterWorks.Billing.Rollover
import Mathlib.Data.Nat.Pairing

namespace OtterWorks.Billing

/-- A call of `sp_finalize_rating`, for some tenant. -/
structure FinalizeCall (c : Catalog) extends Finalization c where
  tenant : Uuid

namespace FinalizeCall

variable {c : Catalog}

/-- The id of the row that the call stores. -/
def rowId (ids : Md5Ids) (call : FinalizeCall c) : Uuid := ids.resultId (ids.periodId call.tenant call.periodStart)

def run (ids : Md5Ids) (u : Usage c) (call : FinalizeCall c) : Except SqlError (Usage c) :=
  spFinalizeRating ids call.reads call.tenant call.periodStart call.periodEnd (u.before call.toFinalization)

def after (ids : Md5Ids) (u : Usage c) (call : FinalizeCall c) : Usage c := u.after ids call.tenant call.toFinalization

/-- The row of `fn_usage_rating` in the call. -/
def rating (ids : Md5Ids) (u : Usage c) (call : FinalizeCall c) : Except SqlError (Option UsageRating) := do
  let periods ← upsertPeriod c u.periods (ids.periodId call.tenant call.periodStart) call.tenant call.periodStart
    call.periodEnd
  fnUsageRating call.reads.rating { u.before call.toFinalization with periods := periods } call.tenant call.periodStart
    call.periodEnd

end FinalizeCall

/-- A stored row with the units and the amount of a rating, and what the rating leaves of its quota. -/
structure RowOf (rating : UsageRating) (r : RatingResult) : Prop where
  used : r.usedUnits = rating.usedUnits
  billable : r.billableUnits = rating.billableUnits
  amount : r.overageAmount = rating.overageAmount
  rollover : r.rolloverUnits = max (rating.quotaUnits - rating.usedUnits) 0

/-- The tiers make up the billable units, and the amount is their rates. -/
structure Tiered (p : Plan) (rating : UsageRating) : Prop where
  units : rating.firstTierUnits + rating.secondTierUnits = rating.billableUnits
  amount : rating.overageAmount = roundHalfAway 2 (rating.firstTierUnits * p.overageRate +
    rating.secondTierUnits * p.overageRate * (3 / 2))

section

variable {c : Catalog} {ids : Md5Ids} {u u' : Usage c} {call call' : FinalizeCall c} {rating : UsageRating}
  {tenant : Uuid} {periodStart periodEnd : Int} {r row : RatingResult}

/-- A rating has the quota of its plan, and without a suspension its tiers are those billed. -/
theorem fnUsageRating_tiers {scan : Scan Subscription}
    (h : fnUsageRating scan u tenant periodStart periodEnd = .ok (some rating)) :
    HasDigits 2 rating.overageAmount ∧ ∃ s p, u.planOf scan tenant periodStart periodEnd = some (s, p) ∧
      rating.quotaUnits = p.includedUnits ∧ (suspendedPart s periodStart periodEnd = none → Tiered p rating) := by
  obtain ⟨s, p, rated⟩ := fnUsageRating_fields h
  refine ⟨?_, s, p, rated.planned, rated.quota, ?_⟩
  · rw [rated.amount]
    cases suspendedPart s periodStart periodEnd with
    | none => exact hasDigits_round 2 _
    | some part => exact hasDigits_round 2 _
  · intro whole
    have billable := rated.billable
    have amount := rated.amount
    rw [whole] at billable amount
    refine ⟨?_, amount⟩
    have floor : rating.billableUnits = max (rating.usedUnits - rating.rolloverUnits - rating.quotaUnits) 0 :=
      billable.trans (Int.floor_intCast _)
    rw [rated.first, rated.second, floor]
    omega

theorem ratingRow_columns {s : Subscription} (digits : HasDigits 2 rating.overageAmount)
    (h : ratingRow ids tenant periodStart periodEnd s rating = .ok row) :
    RowOf rating row ∧ row.quotaUnits = rating.quotaUnits := by
  obtain ⟨overage, stored, h⟩ := bind_ok h
  have same : overage = rating.overageAmount := by
    unfold numeric12 at stored
    split at stored
    next => exact (Except.ok.inj stored).symm.trans digits
    next => cases stored
  split at h
  next =>
    cases Except.ok.inj h
    exact ⟨⟨rfl, rfl, same, rfl⟩, rfl⟩
  next => cases h

theorem RowOf.replace (h : RowOf rating row) : RowOf rating (row.replace r) := ⟨h.used, h.billable, h.amount, h.rollover⟩

theorem mem_upsert {results : List RatingResult} (member : r ∈ upsert (fun r => r.id = row.id) row.replace row results)
    (same : r.id = row.id) : r = row ∧ (∀ r₀ ∈ results, r₀.id ≠ row.id) ∨ ∃ r₀ ∈ results, r₀.id = row.id ∧ r = row.replace r₀ := by
  by_cases conflict : results.any (fun r => r.id = row.id) = true
  · rw [upsert_conflict conflict] at member
    obtain ⟨r₀, held, rfl⟩ := List.mem_map.mp member
    right
    split at same
    next hit => exact ⟨r₀, held, of_decide_eq_true hit, if_pos hit⟩
    next miss => exact absurd same (by simpa using miss)
  · have new : ∀ r₀ ∈ results, r₀.id ≠ row.id := by
      intro r₀ held hit
      exact conflict (List.any_eq_true.mpr ⟨r₀, held, by simpa using hit⟩)
    rw [upsert_new (by simpa using conflict)] at member
    rcases List.mem_append.mp member with old | added
    · exact absurd same (new r old)
    · exact Or.inl ⟨List.mem_singleton.mp added, new⟩

/-- What a finalization that succeeds stores under the id of its period. -/
structure Stored (ids : Md5Ids) (u u' : Usage c) (call : FinalizeCall c) (rating : UsageRating) : Prop where
  exists_row : ∃ r ∈ u'.results, r.id = call.rowId ids
  row : ∀ r ∈ u'.results, r.id = call.rowId ids → RowOf rating r
  quota : (∀ r ∈ u.results, r.id = call.rowId ids → r.quotaUnits = rating.quotaUnits) →
    ∀ r ∈ u'.results, r.id = call.rowId ids → r.quotaUnits = rating.quotaUnits

theorem run_stored (h : call.run ids u = .ok u') : ∃ rating s p, call.rating ids u = .ok (some rating) ∧
    (u.before call.toFinalization).planOf call.reads.rating call.tenant call.periodStart call.periodEnd = some (s, p) ∧
      (suspendedPart s call.periodStart call.periodEnd = none → Tiered p rating) ∧ Stored ids u u' call rating := by
  obtain ⟨periods, rating, s, row, results, hperiods, hrating, _, hrow, hresults, same⟩ := spFinalizeRating_steps h
  obtain ⟨digits, s', p, planned, quota, tiers⟩ := fnUsageRating_tiers hrating
  obtain ⟨columns, rowQuota⟩ := ratingRow_columns digits hrow
  obtain ⟨rowId, _⟩ := ratingRow_ok hrow
  have upserted := upsertResult_ok hresults
  subst same
  have here : call.rowId ids = row.id := rowId.symm
  refine ⟨rating, s', p, ?_, planned, tiers, ?_, ?_, ?_⟩
  · have first : upsertPeriod c u.periods (ids.periodId call.tenant call.periodStart) call.tenant call.periodStart
        call.periodEnd = .ok periods := hperiods
    unfold FinalizeCall.rating
    rw [first]
    exact hrating
  · have found := @any_upsert _ (fun r : RatingResult => decide (r.id = row.id)) row.replace row u.results
      (fun r hit => hit) (by simp)
    obtain ⟨r, member, hit⟩ := List.any_eq_true.mp found
    refine ⟨r, ?_, (of_decide_eq_true hit).trans here.symm⟩
    show r ∈ results
    rw [upserted]
    exact member
  · intro r member same
    have inRows : r ∈ results := member
    rw [upserted] at inRows
    rcases mem_upsert inRows (same.trans here) with ⟨rfl, _⟩ | ⟨r₀, _, _, rfl⟩
    · exact columns
    · exact columns.replace
  · intro before r member same
    have inRows : r ∈ results := member
    rw [upserted] at inRows
    rcases mem_upsert inRows (same.trans here) with ⟨rfl, _⟩ | ⟨r₀, held, hit, rfl⟩
    · exact rowQuota
    · exact before r₀ held (hit.trans here.symm)

theorem after_ok_run (h : call.run ids u = .ok u') : call.after ids u = u' := by
  unfold FinalizeCall.after Usage.after
  unfold FinalizeCall.run at h
  rw [h]

theorem after_error_run {e : SqlError} (h : call.run ids u = .error e) : call.after ids u = u := by
  unfold FinalizeCall.after Usage.after
  unfold FinalizeCall.run at h
  rw [h]

/-- A finalization of another period leaves the row. -/
theorem after_other (other : call'.rowId ids ≠ call.rowId ids) :
    (call'.after ids u).results.filter (·.id = call.rowId ids) = u.results.filter (·.id = call.rowId ids) := by
  cases h : call'.run ids u with
  | error e => rw [after_error_run h]
  | ok u' =>
    obtain ⟨periods, rating, s, row, results, _, _, _, hrow, hresults, same⟩ := spFinalizeRating_steps h
    obtain ⟨rowId, _⟩ := ratingRow_ok hrow
    have upserted := upsertResult_ok hresults
    have apart : row.id ≠ call.rowId ids := fun eq => other (rowId.symm.trans eq)
    rw [after_ok_run h, same]
    show results.filter _ = _
    rw [upserted]
    apply filter_upsert
    · intro r _ hit
      simpa [of_decide_eq_true hit] using apart
    · intro r _ hit
      have kept : (row.replace r).id = r.id := rfl
      simpa [kept, of_decide_eq_true hit] using apart
    · simpa using apart

/-- Through finalizations of other periods, and failed ones of this period, the row stays as it is. -/
theorem later_same (distinct : ∀ t s t' s', ids.resultId (ids.periodId t s) = ids.resultId (ids.periodId t' s') →
    t = t' ∧ s = s') {later : List (FinalizeCall c)}
    (last : ∀ (n : Nat) (call' : FinalizeCall c), later[n]? = some call' → call'.tenant = call.tenant → call'.periodStart = call.periodStart →
      ∃ e, call'.run ids ((later.take n).foldl (fun u call => call.after ids u) u) = .error e) :
    (later.foldl (fun u call => call.after ids u) u).results.filter (·.id = call.rowId ids) =
      u.results.filter (·.id = call.rowId ids) := by
  induction later generalizing u with
  | nil => rfl
  | cons call' later ih =>
    have here : (call'.after ids u).results.filter (·.id = call.rowId ids) = u.results.filter (·.id = call.rowId ids) := by
      by_cases same : call'.rowId ids = call.rowId ids
      · obtain ⟨tenant, start⟩ := distinct _ _ _ _ same
        obtain ⟨e, failed⟩ := last 0 call' rfl tenant start
        have failed' : call'.run ids u = .error e := failed
        rw [after_error_run failed']
      · exact after_other same
    have rest := @ih (call'.after ids u) fun n call'' at_ => last (n + 1) call'' at_
    rw [List.foldl_cons, rest, here]

/-- In every run of finalizations of any periods and tenants, the row stored for a period is that of the last
finalization of the period that succeeded. -/
theorem finalized_row_consistent
    (distinct : ∀ t s t' s', ids.resultId (ids.periodId t s) = ids.resultId (ids.periodId t' s') → t = t' ∧ s = s')
    (start : Usage c) (earlier : List (FinalizeCall c)) (call : FinalizeCall c) (later : List (FinalizeCall c))
    {u u' : Usage c} (before : earlier.foldl (fun u call => call.after ids u) start = u) (done : call.run ids u = .ok u')
    (last : ∀ (n : Nat) (call' : FinalizeCall c), later[n]? = some call' → call'.tenant = call.tenant → call'.periodStart = call.periodStart →
      ∃ e, call'.run ids ((later.take n).foldl (fun u call => call.after ids u) u') = .error e) :
    ∃ rating s p, call.rating ids u = .ok (some rating) ∧
      (u.before call.toFinalization).planOf call.reads.rating call.tenant call.periodStart call.periodEnd = some (s, p) ∧
      (suspendedPart s call.periodStart call.periodEnd = none → Tiered p rating) ∧
      Stored ids u ((earlier ++ call :: later).foldl (fun u call => call.after ids u) start) call rating := by
  obtain ⟨rating, s, p, rated, planned, tiers, stored⟩ := run_stored done
  refine ⟨rating, s, p, rated, planned, tiers, ?_⟩
  have same := @later_same _ _ u' call distinct later last
  have state : (earlier ++ call :: later).foldl (fun u call => call.after ids u) start =
      later.foldl (fun u call => call.after ids u) u' := by
    rw [List.foldl_append, before, List.foldl_cons, after_ok_run done]
  rw [state]
  have rows : ∀ r, (r ∈ (later.foldl (fun u call => call.after ids u) u').results ∧ r.id = call.rowId ids) ↔
      r ∈ u'.results ∧ r.id = call.rowId ids := by
    intro r
    have here := congrArg (r ∈ ·) same
    simpa only [List.mem_filter, decide_eq_true_eq, eq_iff_iff] using here
  refine ⟨?_, ?_, ?_⟩
  · obtain ⟨r, member, id_⟩ := stored.exists_row
    obtain ⟨kept, _⟩ := (rows r).mpr ⟨member, id_⟩
    exact ⟨r, kept, id_⟩
  · intro r member id_
    exact stored.row r ((rows r).mp ⟨member, id_⟩).1 id_
  · intro quota r member id_
    exact stored.quota quota r ((rows r).mp ⟨member, id_⟩).1 id_

end

/-- Two plans, of 100 and of 500 units. -/
def twoPlans : Catalog where
  tenants := [⟨1, false, .active⟩]
  plans := [⟨1, "STARTER", .starter, 49, 100, 1, true, starterFee_nonneg, unitRate_nonneg⟩,
    ⟨2, "GROWTH", .growth, 199, 500, 1, true, by decide, unitRate_nonneg⟩]
  tenantIds := oneTenant_ids
  planIds := by decide
  planCodes := by decide

def onStarter : Subscriptions twoPlans :=
  ⟨[⟨1, 1, 1, 0, none, .active, none, no_end, no_end⟩], oneSubscription_ids, by decide⟩

/-- On the greater plan, and suspended in the middle of February. -/
def suspendedOnGrowth : Subscriptions twoPlans :=
  ⟨[⟨1, 1, 2, 0, none, .suspended, some 45, no_end, by simp⟩], by decide, by decide⟩

def usedInFebruary : List UsageEvent := [⟨1, 40, 800, by decide⟩]

theorem january_days : (0 : Int) ≤ 30 := by decide

theorem february_days : (31 : Int) ≤ 58 := by decide

def january : FinalizeCall twoPlans := ⟨⟨asStored, onStarter, usedInFebruary, 0, 30, january_days⟩, 1⟩

def february : FinalizeCall twoPlans := ⟨⟨asStored, onStarter, usedInFebruary, 31, 58, february_days⟩, 1⟩

def suspendedFebruary : FinalizeCall twoPlans := ⟨⟨asStored, suspendedOnGrowth, usedInFebruary, 31, 58, february_days⟩, 1⟩

def pairIds : Md5Ids :=
  ⟨fun tenant day => Nat.pair tenant (if 0 ≤ day then 2 * day else -2 * day - 1).toNat, id, id,
    fun invoice line => invoice * 10 + line⟩

theorem pairIds_distinct (t : Uuid) (s : Int) (t' : Uuid) (s' : Int)
    (same : pairIds.resultId (pairIds.periodId t s) = pairIds.resultId (pairIds.periodId t' s')) : t = t' ∧ s = s' := by
  have parts := Nat.pair_eq_pair.mp same
  refine ⟨parts.1, ?_⟩
  have days : (if 0 ≤ s then 2 * s else -2 * s - 1).toNat = (if 0 ≤ s' then 2 * s' else -2 * s' - 1).toNat := parts.2
  omega

def unfinalized : Usage twoPlans := ⟨onStarter, [], [], []⟩

/-- February again after a change to the greater plan and a suspension, and January after it. -/
theorem february_consistent :
    ∃ rating s p, suspendedFebruary.rating pairIds
        ([january, february].foldl (fun u call => call.after pairIds u) unfinalized) = .ok (some rating) ∧
      (Usage.before ([january, february].foldl (fun u call => call.after pairIds u) unfinalized)
        suspendedFebruary.toFinalization).planOf asStored.rating 1 31 58 = some (s, p) ∧
      (suspendedPart s 31 58 = none → Tiered p rating) ∧
      Stored pairIds ([january, february].foldl (fun u call => call.after pairIds u) unfinalized)
        (([january, february] ++ suspendedFebruary :: [january]).foldl (fun u call => call.after pairIds u) unfinalized)
        suspendedFebruary rating := by
  have accepted : (suspendedFebruary.run pairIds
      ([january, february].foldl (fun u call => call.after pairIds u) unfinalized)).toOption.isSome = true := by
    decide +kernel
  cases done : suspendedFebruary.run pairIds
      ([january, february].foldl (fun u call => call.after pairIds u) unfinalized) with
  | error e =>
    rw [done] at accepted
    cases accepted
  | ok u' =>
    refine finalized_row_consistent pairIds_distinct unfinalized [january, february] suspendedFebruary [january] rfl done ?_
    intro n call' here _ start
    match n with
    | 0 =>
      cases here
      cases start
    | n + 1 => cases here

/-- The row of February holds what the period leaves of its quota, not the units it draws from January's; in its quota and
its tiers it is as rated. -/
theorem stored_rollover_is_carry_over :
    ∃ rating, february.rating pairIds ([january].foldl (fun u call => call.after pairIds u) unfinalized) =
      .ok (some rating) ∧
    (∃ r ∈ ([january, february].foldl (fun u call => call.after pairIds u) unfinalized).results,
      r.id = february.rowId pairIds ∧ r.quotaUnits = rating.quotaUnits ∧ r.rolloverUnits ≠ rating.rolloverUnits) ∧
    rating.firstTierUnits + rating.secondTierUnits = rating.billableUnits := by
  refine ⟨⟨1, 31, 58, 800, 100, 100, 600, 101, 499, 1699 / 2⟩, by decide +kernel, ?_, by decide⟩
  have found : ∃ r ∈ ([january, february].foldl (fun u call => call.after pairIds u) unfinalized).results,
      r.id = february.rowId pairIds ∧ r.quotaUnits = 100 ∧ r.rolloverUnits = 0 := by decide +kernel
  obtain ⟨r, held, id_, quota, rollover⟩ := found
  refine ⟨r, held, id_, quota, ?_⟩
  rw [rollover]
  decide

end OtterWorks.Billing
