import OtterWorks.Billing.Rating
import OtterWorks.Lib.Transition
import Mathlib.Algebra.BigOperators.Group.List.Basic

namespace OtterWorks.Billing

variable {c : Catalog}

/-- One period finalized: the subscriptions and the usage are whatever they have become by then. -/
structure Finalization (c : Catalog) where
  reads : Reads
  subscriptions : Subscriptions c
  events : List UsageEvent
  periodStart : Int
  periodEnd : Int
  ordered : periodStart ≤ periodEnd

namespace Usage

def before (u : Usage c) (f : Finalization c) : Usage c :=
  { u with subscriptions := f.subscriptions, events := f.events }

/-- A finalization that fails is rolled back. -/
def after (ids : Md5Ids) (tenant : Uuid) (u : Usage c) (f : Finalization c) : Usage c :=
  match spFinalizeRating ids f.reads tenant f.periodStart f.periodEnd (u.before f) with
  | .ok u' => u'
  | .error _ => u

/-- The results of all of a tenant's periods. -/
def ratedOf (u : Usage c) (tenant : Uuid) : List RatingResult := u.resultsOf tenant fun _ => true

end Usage

/-- Units used beyond the quota and not billed: rollover covers them, or a suspension waives them. -/
def RatingResult.drawn (r : RatingResult) : Int := max (r.usedUnits - r.quotaUnits) 0 - r.billableUnits

def RatingResult.unused (r : RatingResult) : Int := max (r.quotaUnits - r.usedUnits) 0

/-- The units of the tenant's quotas that no period has drawn yet. -/
def Usage.balance (u : Usage c) (tenant : Uuid) : Int :=
  ((u.ratedOf tenant).map RatingResult.unused).sum - ((u.ratedOf tenant).map RatingResult.drawn).sum

/-- The units not billed are within the quotas of the periods finalized so far. -/
def Conserved (tenant : Uuid) (u : Usage c) : Prop :=
  ((u.ratedOf tenant).map fun r => r.usedUnits - r.billableUnits).sum ≤
    ((u.ratedOf tenant).map RatingResult.quotaUnits).sum

theorem sum_balance (rows : List RatingResult) :
    (rows.map RatingResult.quotaUnits).sum - (rows.map fun r => r.usedUnits - r.billableUnits).sum =
      (rows.map RatingResult.unused).sum - (rows.map RatingResult.drawn).sum := by
  induction rows with
  | nil => rfl
  | cons r rows ih =>
    have here : r.quotaUnits - (r.usedUnits - r.billableUnits) = r.unused - r.drawn := by
      unfold RatingResult.unused RatingResult.drawn
      omega
    simp only [List.map_cons, List.sum_cons]
    omega

theorem conserved_iff {u : Usage c} {tenant : Uuid} : Conserved tenant u ↔ 0 ≤ u.balance tenant := by
  unfold Conserved Usage.balance
  rw [← sum_balance]
  omega

/-- The units beyond the quota that a period draws: what is used beyond it, less what remains to bill once the
rollover is taken off and a suspension has been prorated. -/
def drawnUnits (used quota rollover : Int) (part : Option ℚ) : Int :=
  max (used - quota) 0 - ⌊prorate 0 (max (used - rollover - quota) 0 : Int) part⌋

/-- The units that the finalization of a period is about to draw. -/
def Usage.draws (scan : Scan Subscription) (u : Usage c) (tenant : Uuid) (periodStart periodEnd : Int) : Int :=
  match u.planOf scan tenant periodStart periodEnd with
  | none => 0
  | some (s, p) =>
    drawnUnits (u.used tenant periodStart periodEnd) p.includedUnits
      (min (2 * (p.includedUnits : Int)) (u.prior tenant periodStart)) (suspendedPart s periodStart periodEnd)

section Step

variable {ids : Md5Ids} {reads : Reads} {tenant : Uuid} {periodStart periodEnd : Int} {u u' : Usage c}

theorem int4_ok {n m : Int} (h : int4 n = .ok m) : m = n := by
  unfold int4 at h
  split at h
  next => exact (Except.ok.inj h).symm
  next => cases h

/-- A rating that does not overflow, field by field. -/
structure RatingOf (scan : Scan Subscription) (u : Usage c) (tenant : Uuid) (periodStart periodEnd : Int) (s : Subscription)
    (p : Plan) (rating : UsageRating) : Prop where
  planned : u.planOf scan tenant periodStart periodEnd = some (s, p)
  used : rating.usedUnits = u.used tenant periodStart periodEnd
  quota : rating.quotaUnits = p.includedUnits
  rollover : rating.rolloverUnits = min (2 * (p.includedUnits : Int)) (u.prior tenant periodStart)
  billable : rating.billableUnits = ⌊prorate 0
    (max (rating.usedUnits - rating.rolloverUnits - rating.quotaUnits) 0 : Int) (suspendedPart s periodStart periodEnd)⌋
  first : rating.firstTierUnits = min (max (rating.usedUnits - rating.rolloverUnits - rating.quotaUnits) 0) 101
  second : rating.secondTierUnits =
    max (max (rating.usedUnits - rating.rolloverUnits - rating.quotaUnits) 0 - 101) 0
  amount : rating.overageAmount = prorate 2 (roundHalfAway 2 (rating.firstTierUnits * p.overageRate +
    rating.secondTierUnits * p.overageRate * (3 / 2))) (suspendedPart s periodStart periodEnd)

theorem fnUsageRating_fields {scan : Scan Subscription} {rating : UsageRating}
    (h : fnUsageRating scan u tenant periodStart periodEnd = .ok (some rating)) :
    ∃ s p, RatingOf scan u tenant periodStart periodEnd s p rating := by
  obtain ⟨used, hused, h⟩ := bind_ok h
  have sameUsed := int4_ok hused
  cases planned : u.planOf scan tenant periodStart periodEnd with
  | none =>
    rw [planned] at h
    cases h
  | some found =>
    obtain ⟨s, p⟩ := found
    rw [planned] at h
    obtain ⟨twice, htwice, h⟩ := bind_ok h
    obtain ⟨prior, hprior, h⟩ := bind_ok h
    obtain ⟨left, hleft, h⟩ := bind_ok h
    have sameTwice := int4_ok htwice
    have samePrior := int4_ok hprior
    have sameLeft := int4_ok hleft
    cases Option.some.inj (Except.ok.inj h)
    subst sameTwice samePrior sameLeft sameUsed
    have capped : ∀ x y : Int, min (min x y) x = min x y := fun x y => min_eq_left (min_le_left _ _)
    exact ⟨s, p, planned, rfl, rfl, capped _ _, rfl, rfl, rfl, rfl⟩

/-- What a rating that does not overflow leaves unbilled beyond the quota. -/
theorem fnUsageRating_ok {scan : Scan Subscription} {rating : UsageRating}
    (h : fnUsageRating scan u tenant periodStart periodEnd = .ok (some rating)) :
    max (rating.usedUnits - rating.quotaUnits) 0 - rating.billableUnits =
      u.draws scan tenant periodStart periodEnd := by
  obtain ⟨s, p, rated⟩ := fnUsageRating_fields h
  rw [rated.billable, rated.rollover, rated.used, rated.quota]
  unfold Usage.draws
  rw [rated.planned]
  rfl

theorem upsertPeriod_ok {periods rows : List RatingPeriod} {id : Uuid}
    (h : upsertPeriod c periods id tenant periodStart periodEnd = .ok rows) : ∃ p : RatingPeriod,
      p.id = id ∧ p.tenantId = tenant ∧ p.periodStart = periodStart ∧ p.periodEnd = periodEnd ∧
      rows = upsert (samePeriod tenant periodStart) (RatingPeriod.extend periodEnd) p periods ∧
      (periods.any (samePeriod tenant periodStart) = true ∨ ∀ q ∈ periods, q.id ≠ id) := by
  unfold upsertPeriod at h
  split at h
  next =>
    split at h
    next => cases h
    next apart =>
      split at h
      next => cases h
      next =>
        refine ⟨_, rfl, rfl, rfl, rfl, (Except.ok.inj h).symm, ?_⟩
        by_cases conflict : periods.any (samePeriod tenant periodStart) = true
        · exact Or.inl conflict
        · right
          intro q hq same
          exact apart ⟨conflict, List.any_eq_true.mpr ⟨q, hq, by simpa using same⟩⟩
  next => cases h

theorem upsertPeriod_new {periods rows : List RatingPeriod} {id : Uuid}
    (fresh : ∀ q ∈ periods, q.tenantId = tenant → q.periodStart < periodStart)
    (h : upsertPeriod c periods id tenant periodStart periodEnd = .ok rows) :
    ∃ p : RatingPeriod, rows = periods ++ [p] ∧ p.id = id ∧ p.tenantId = tenant ∧ p.periodStart = periodStart ∧
      ∀ q ∈ periods, q.id ≠ id := by
  obtain ⟨p, pid, tenantId, start, _, upserted, apart⟩ := upsertPeriod_ok h
  have new : periods.any (samePeriod tenant periodStart) = false := by
    rw [List.any_eq_false]
    intro q hq same
    simp only [samePeriod, decide_eq_true_eq] at same
    have := fresh q hq same.1
    omega
  rw [upsert_new new] at upserted
  refine ⟨p, upserted, pid, tenantId, start, ?_⟩
  rcases apart with conflict | apart
  · rw [new] at conflict
    cases conflict
  · exact apart

theorem upsertResult_ok {row : RatingResult} {rows : List RatingResult} (h : upsertResult u row = .ok rows) :
    rows = upsert (fun r => r.id = row.id) row.replace row u.results := by
  unfold upsertResult at h
  split at h
  next => cases h
  next => exact (Except.ok.inj h).symm

theorem upsertResult_new {row : RatingResult} {rows : List RatingResult} (fresh : ∀ r ∈ u.results, r.id ≠ row.id)
    (h : upsertResult u row = .ok rows) : rows = u.results ++ [row] := by
  rw [upsertResult_ok h]
  apply upsert_new
  rw [List.any_eq_false]
  intro r hr same
  exact fresh r hr (by simpa using same)

/-- The finalization of a period that is not in the tables yet adds one row to each. -/
structure Rated (ids : Md5Ids) (tenant : Uuid) (periodStart drawn : Int) (u u' : Usage c) : Prop where
  period : ∃ p : RatingPeriod, u'.periods = u.periods ++ [p] ∧ p.id = ids.periodId tenant periodStart ∧
    p.tenantId = tenant ∧ p.periodStart = periodStart ∧ ∀ q ∈ u.periods, q.id ≠ ids.periodId tenant periodStart
  result : ∃ r : RatingResult, u'.results = u.results ++ [r] ∧
    r.id = ids.resultId (ids.periodId tenant periodStart) ∧ r.periodId = ids.periodId tenant periodStart ∧
    r.drawn = drawn

/-- No period of the tenant from this day on has been rated. -/
structure Unrated (ids : Md5Ids) (tenant : Uuid) (periodStart : Int) (u : Usage c) : Prop where
  periods : ∀ q ∈ u.periods, q.tenantId = tenant → q.periodStart < periodStart
  results : ∀ r ∈ u.results, ∀ day, r.id = ids.resultId (ids.periodId tenant day) → day < periodStart
  references : ∀ r ∈ u.results, ∃ q ∈ u.periods, q.id = r.periodId

/-- The period that is being rated is not in its own window. -/
theorem draws_new {scan : Scan Subscription} {p : RatingPeriod} (start : p.periodStart = periodStart) :
    ({ u with periods := u.periods ++ [p] } : Usage c).draws scan tenant periodStart periodEnd =
      u.draws scan tenant periodStart periodEnd := by
  have outside : Usage.inWindow periodStart p = false := by
    unfold Usage.inWindow
    rw [decide_eq_false_iff_not]
    omega
  have prior : ({ u with periods := u.periods ++ [p] } : Usage c).prior tenant periodStart =
      u.prior tenant periodStart := by
    simp [Usage.prior, Usage.resultsOf, outside]
  unfold Usage.draws
  rw [prior]
  rfl

theorem ratingRow_ok {s : Subscription} {rating : UsageRating} {row : RatingResult}
    (h : ratingRow ids tenant periodStart periodEnd s rating = .ok row) :
    row.id = ids.resultId (ids.periodId tenant periodStart) ∧ row.periodId = ids.periodId tenant periodStart ∧
      row.drawn = max (rating.usedUnits - rating.quotaUnits) 0 - rating.billableUnits := by
  obtain ⟨overage, _, h⟩ := bind_ok h
  split at h
  next =>
    cases Except.ok.inj h
    exact ⟨rfl, rfl, rfl⟩
  next => cases h

/-- The steps of a finalization that succeeds. -/
theorem spFinalizeRating_steps (h : spFinalizeRating ids reads tenant periodStart periodEnd u = .ok u') :
    ∃ periods rating s row results,
      upsertPeriod c u.periods (ids.periodId tenant periodStart) tenant periodStart periodEnd = .ok periods ∧
      fnUsageRating reads.rating { u with periods := periods } tenant periodStart periodEnd = .ok (some rating) ∧
      u.subscription reads.finalize tenant periodStart periodEnd = some s ∧
      ratingRow ids tenant periodStart periodEnd s rating = .ok row ∧
      upsertResult { u with periods := periods } row = .ok results ∧
      u' = { u with periods := periods, results := results } := by
  obtain ⟨periods, hperiods, h⟩ := bind_ok h
  obtain ⟨rating?, hrating, h⟩ := bind_ok h
  cases rating? with
  | none =>
    cases u.subscription reads.finalize tenant periodStart periodEnd with
    | none => cases h
    | some _ => cases h
  | some rating =>
    cases hs : u.subscription reads.finalize tenant periodStart periodEnd with
    | none =>
      rw [hs] at h
      cases h
    | some s =>
      rw [hs] at h
      obtain ⟨row, hrow, h⟩ := bind_ok h
      obtain ⟨results, hresults, h⟩ := bind_ok h
      exact ⟨periods, rating, s, row, results, hperiods, hrating, rfl, hrow, hresults, (Except.ok.inj h).symm⟩

theorem spFinalizeRating_ok (unrated : Unrated ids tenant periodStart u)
    (h : spFinalizeRating ids reads tenant periodStart periodEnd u = .ok u') :
    Rated ids tenant periodStart (u.draws reads.rating tenant periodStart periodEnd) u u' := by
  obtain ⟨periods, rating, s, row, results, hperiods, hrating, _, hrow, hresults, same⟩ := spFinalizeRating_steps h
  obtain ⟨period, appended, id, tenantId, start, apart⟩ := upsertPeriod_new unrated.periods hperiods
  subst appended same
  have drawn := fnUsageRating_ok hrating
  rw [draws_new start] at drawn
  obtain ⟨resultId, periodId, drawn'⟩ := ratingRow_ok hrow
  have fresh : ∀ r ∈ u.results, r.id ≠ row.id := by
    intro r hr eq
    exact lt_irrefl _ (unrated.results r hr periodStart (eq.trans resultId))
  have added := @upsertResult_new c { u with periods := u.periods ++ [period] } _ _ fresh hresults
  exact ⟨⟨period, rfl, id, tenantId, start, apart⟩, ⟨row, added, resultId, periodId, drawn'.trans drawn⟩⟩

/-- The tenant's results after the finalization are those before it and the new one. -/
theorem Rated.ratedOf {drawn : Int} (unrated : Unrated ids tenant periodStart u)
    (h : Rated ids tenant periodStart drawn u u') :
    ∃ r, u'.ratedOf tenant = u.ratedOf tenant ++ [r] ∧ r.drawn = drawn := by
  obtain ⟨p, periods, id, tenantId, _, apart⟩ := h.period
  obtain ⟨r, results, _, periodId, drawn⟩ := h.result
  refine ⟨r, ?_, drawn⟩
  unfold Usage.ratedOf Usage.resultsOf
  rw [results, periods, List.filter_append]
  congr 1
  · apply List.filter_congr
    intro x hx
    obtain ⟨q, hq, same⟩ := unrated.references x hx
    have other : p.id ≠ x.periodId := by
      rw [← same, id]
      exact fun eq => apart q hq eq.symm
    simp [other]
  · simp [id, tenantId, periodId]

theorem Rated.unrated {drawn : Int} {next : Int} (collisionFree : Function.Injective fun day =>
    ids.resultId (ids.periodId tenant day)) (unrated : Unrated ids tenant periodStart u)
    (h : Rated ids tenant periodStart drawn u u') (later : periodStart < next) : Unrated ids tenant next u' := by
  obtain ⟨p, periods, id, tenantId, start, _⟩ := h.period
  obtain ⟨r, results, resultId, periodId, _⟩ := h.result
  constructor
  · rw [periods]
    intro q hq same
    rcases List.mem_append.mp hq with hq | hq
    · exact (unrated.periods q hq same).trans later
    · have here : q = p := by simpa using hq
      rw [here, start]
      exact later
  · rw [results]
    intro x hx day same
    rcases List.mem_append.mp hx with hx | hx
    · exact (unrated.results x hx day same).trans later
    · have here : x = r := by simpa using hx
      rw [here, resultId] at same
      have : periodStart = day := collisionFree same
      omega
  · rw [results, periods]
    intro x hx
    rcases List.mem_append.mp hx with hx | hx
    · obtain ⟨q, hq, same⟩ := unrated.references x hx
      exact ⟨q, List.mem_append_left _ hq, same⟩
    · have here : x = r := by simpa using hx
      exact ⟨p, by simp, by rw [id, here, periodId]⟩

end Step

section Run

variable {ids : Md5Ids} {tenant : Uuid} {u : Usage c}

/-- The finalization fails, or what it draws is still in the balance. -/
def Covered (ids : Md5Ids) (tenant : Uuid) (u : Usage c) (f : Finalization c) : Prop :=
  (∃ e, spFinalizeRating ids f.reads tenant f.periodStart f.periodEnd (u.before f) = .error e) ∨
    (u.before f).draws f.reads.rating tenant f.periodStart f.periodEnd ≤ u.balance tenant

theorem Unrated.before {periodStart : Int} (h : Unrated ids tenant periodStart u) (f : Finalization c) :
    Unrated ids tenant periodStart (u.before f) := ⟨h.periods, h.results, h.references⟩

theorem after_conserved_iff (f : Finalization c) (unrated : Unrated ids tenant f.periodStart u)
    (conserved : Conserved tenant u) : Conserved tenant (u.after ids tenant f) ↔ Covered ids tenant u f := by
  unfold Usage.after Covered
  cases h : spFinalizeRating ids f.reads tenant f.periodStart f.periodEnd (u.before f) with
  | error e => exact ⟨fun _ => Or.inl ⟨e, rfl⟩, fun _ => conserved⟩
  | ok u' =>
    obtain ⟨r, rows, drawn⟩ := (spFinalizeRating_ok (unrated.before f) h).ratedOf (unrated.before f)
    have balance : u'.balance tenant = u.balance tenant + r.unused - r.drawn := by
      have same : (u.before f).ratedOf tenant = u.ratedOf tenant := rfl
      unfold Usage.balance
      rw [rows, same]
      simp only [List.map_append, List.sum_append, List.map_cons, List.map_nil, List.sum_cons, List.sum_nil]
      omega
    have start := conserved_iff.mp conserved
    have billed := r.nonneg.2.2.2.1
    -- a period that leaves something of its quota has drawn nothing
    have one : r.unused = 0 ∨ r.drawn ≤ 0 := by
      unfold RatingResult.unused RatingResult.drawn
      omega
    have atLeast : 0 ≤ r.unused := le_max_right _ _
    rw [conserved_iff, balance, ← drawn]
    constructor
    · intro h
      right
      omega
    · rintro (⟨e, failed⟩ | within)
      · cases failed
      · omega

theorem after_unrated {f g : Finalization c} (collisionFree : Function.Injective fun day =>
    ids.resultId (ids.periodId tenant day)) (unrated : Unrated ids tenant f.periodStart u)
    (consecutive : g.periodStart = f.periodEnd + 1) :
    Unrated ids tenant g.periodStart (u.after ids tenant f) := by
  have later : f.periodStart < g.periodStart := by
    have := f.ordered
    omega
  unfold Usage.after
  cases h : spFinalizeRating ids f.reads tenant f.periodStart f.periodEnd (u.before f) with
  | error e =>
    exact ⟨fun q hq same => (unrated.periods q hq same).trans later,
      fun r hr day same => (unrated.results r hr day same).trans later, unrated.references⟩
  | ok u' =>
    exact (spFinalizeRating_ok (unrated.before f) h).unrated collisionFree (unrated.before f) later

theorem run_unrated (collisionFree : Function.Injective fun day => ids.resultId (ids.periodId tenant day))
    {periods : List (Finalization c)} (consecutive : periods.IsChain fun f g => g.periodStart = f.periodEnd + 1)
    (unrated : ∀ f, periods.head? = some f → Unrated ids tenant f.periodStart u) {n : Nat} {f : Finalization c}
    (h : periods[n]? = some f) :
    Unrated ids tenant f.periodStart ((periods.take n).foldl (Usage.after ids tenant) u) := by
  induction periods generalizing u n with
  | nil => simp at h
  | cons first rest ih =>
    cases n with
    | zero =>
      exact unrated f h
    | succ n =>
      cases rest with
      | nil => simp at h
      | cons second rest =>
        rw [List.isChain_cons_cons] at consecutive
        apply ih consecutive.2 ?_ h
        intro g hg
        cases Option.some.inj hg
        exact after_unrated collisionFree (unrated first rfl) consecutive.1

/-- Over consecutive periods the units not billed stay within the quotas exactly if no period draws more than the
earlier ones left of their quotas and have not had drawn already. -/
theorem rollover_conserved_iff (collisionFree : Function.Injective fun day => ids.resultId (ids.periodId tenant day))
    (periods : List (Finalization c)) (consecutive : periods.IsChain fun f g => g.periodStart = f.periodEnd + 1)
    (unrated : ∀ f, periods.head? = some f → Unrated ids tenant f.periodStart u) (conserved : Conserved tenant u) :
    (∀ n, Conserved tenant ((periods.take n).foldl (Usage.after ids tenant) u)) ↔
      ∀ n f, periods[n]? = some f → Covered ids tenant ((periods.take n).foldl (Usage.after ids tenant) u) f := by
  rw [foldl_always_iff_of (fun u f unrated conserved => after_conserved_iff f unrated conserved) u periods
    (fun n f h => run_unrated collisionFree consecutive unrated h)]
  exact ⟨fun h => h.2, fun h => ⟨conserved, h⟩⟩

end Run

/-- One plan of 100 units and a tenant who subscribes to it. -/
def monthlyCatalog : Catalog where
  tenants := [⟨1, false, .active⟩]
  plans := [⟨1, "STARTER", .starter, 49, 100, 1, true, by decide, by decide⟩]
  tenantIds := by decide
  planIds := by decide
  planCodes := by decide

def monthlySubscriptions : Subscriptions monthlyCatalog :=
  ⟨[⟨1, 1, 1, 0, none, .active, none, by simp, by simp⟩], by decide, by decide⟩

def plainIds : Md5Ids :=
  ⟨fun _ day => (if 0 ≤ day then 2 * day else -2 * day - 1).toNat, id, id, fun invoice line => invoice * 10 + line⟩

theorem plainIds_injective : Function.Injective fun day => plainIds.resultId (plainIds.periodId 1 day) := by
  intro a b h
  have same : (if 0 ≤ a then 2 * a else -2 * a - 1).toNat = (if 0 ≤ b then 2 * b else -2 * b - 1).toNat := h
  omega

def asStored : Reads := ⟨.asStored, .asStored, .asStored⟩

/-- January without use, then 200 units in February and 200 in March. -/
def quietJanuary : List (Finalization monthlyCatalog) :=
  let events := [⟨1, 40, 200, by decide⟩, ⟨1, 70, 200, by decide⟩]
  [⟨asStored, monthlySubscriptions, events, 0, 30, by decide⟩,
    ⟨asStored, monthlySubscriptions, events, 31, 58, by decide⟩,
    ⟨asStored, monthlySubscriptions, events, 59, 89, by decide⟩]

def unratedUsage : Usage monthlyCatalog := ⟨monthlySubscriptions, [], [], []⟩

/-- The 100 units January leaves cover February's overage and then March's: 400 units of 300 go unbilled. -/
theorem january_rolls_over_twice :
    ¬ Conserved 1 (quietJanuary.foldl (Usage.after plainIds 1) unratedUsage) := by
  unfold Conserved
  decide +kernel

/-- February alone is covered by what January left. -/
theorem january_rolls_over_once :
    Conserved 1 ((quietJanuary.take 2).foldl (Usage.after plainIds 1) unratedUsage) := by
  refine (rollover_conserved_iff plainIds_injective (quietJanuary.take 2) (by decide) ?_ ?_).mpr ?_ 2
  · intro f hf
    exact ⟨by simp [unratedUsage], by simp [unratedUsage], by simp [unratedUsage]⟩
  · simp [Conserved, Usage.ratedOf, Usage.resultsOf, unratedUsage]
  · intro n f hf
    right
    rcases n with _ | _ | n
    · cases Option.some.inj hf
      decide +kernel
    · cases Option.some.inj hf
      decide +kernel
    · simp [quietJanuary] at hf

variable {c : Catalog} {ids : Md5Ids} {reads : Reads} {tenant : Uuid} {periodStart periodEnd : Int} {u u' : Usage c}

theorem RatingPeriod.extend_columns (e : Int) (p : RatingPeriod) :
    (p.extend e).id = p.id ∧ (p.extend e).tenantId = p.tenantId ∧ (p.extend e).periodStart = p.periodStart := by
  unfold RatingPeriod.extend
  split
  · exact ⟨rfl, rfl, rfl⟩
  · exact ⟨rfl, rfl, rfl⟩

theorem RatingPeriod.extend_twice (e : Int) (p : RatingPeriod) : (p.extend e).extend e = p.extend e := by
  by_cases h : p.periodStart ≤ e
  · have once : p.extend e = { p with periodEnd := e, ordered := h } := dif_pos h
    rw [once]
    exact dif_pos h
  · have once : p.extend e = p := dif_neg h
    rw [once, once]

theorem RatingPeriod.extend_self {e : Int} {p : RatingPeriod} (h : p.periodEnd = e) : p.extend e = p := by
  subst h
  exact dif_pos p.ordered

theorem samePeriod_extend (e : Int) (p : RatingPeriod) :
    samePeriod tenant periodStart (p.extend e) = samePeriod tenant periodStart p := by
  obtain ⟨_, tenantId, start⟩ := p.extend_columns e
  simp [samePeriod, tenantId, start]

theorem upsertPeriod_again {periods rows : List RatingPeriod} {id : Uuid}
    (h : upsertPeriod c periods id tenant periodStart periodEnd = .ok rows) :
    upsertPeriod c rows id tenant periodStart periodEnd = .ok rows := by
  obtain ⟨p, pid, tenantId, start, finish, upserted, _⟩ := upsertPeriod_ok h
  have new : samePeriod tenant periodStart p = true := by simp [samePeriod, tenantId, start]
  have keeps : ∀ r, samePeriod tenant periodStart r = true → samePeriod tenant periodStart (r.extend periodEnd) = true :=
    fun r hr => (samePeriod_extend periodEnd r).trans hr
  have conflict : rows.any (samePeriod tenant periodStart) = true := by
    rw [upserted]
    exact any_upsert keeps new
  have ordered : periodStart ≤ periodEnd := by
    rw [← start, ← finish]
    exact p.ordered
  have row : p = ⟨id, tenant, periodStart, periodEnd, ordered⟩ := by
    subst pid tenantId start finish
    rfl
  unfold upsertPeriod
  rw [dif_pos ordered, if_neg (by simp [conflict]), if_neg (by simp [conflict]), ← row, upserted]
  exact congrArg _ (upsert_again keeps new (fun r _ => r.extend_twice periodEnd) (RatingPeriod.extend_self finish))

theorem upsertResult_again {row : RatingResult} {rows : List RatingResult} (h : upsertResult u row = .ok rows) :
    upsertResult { u with results := rows } row = .ok rows := by
  have upserted := upsertResult_ok h
  have keeps : ∀ r : RatingResult, decide (r.id = row.id) = true → decide ((row.replace r).id = row.id) = true :=
    fun r hr => hr
  have conflict : (rows.any fun r => r.id = row.id) = true := by
    rw [upserted]
    exact any_upsert keeps (by simp)
  unfold upsertResult
  rw [if_neg (by simp [conflict]), upserted]
  exact congrArg _ (upsert_again keeps (by simp) (fun r _ => rfl) rfl)

/-- The ids derived for the period are no other row's. -/
structure Owned (ids : Md5Ids) (tenant : Uuid) (periodStart : Int) (u : Usage c) : Prop where
  period : ∀ p ∈ u.periods, p.id = ids.periodId tenant periodStart → p.tenantId = tenant ∧ p.periodStart = periodStart
  result : ∀ r ∈ u.results, r.id = ids.resultId (ids.periodId tenant periodStart) →
    r.periodId = ids.periodId tenant periodStart

/-- The period's own result is not in its window, so finalizing it leaves what the window holds. -/
theorem prior_finalized {periods : List RatingPeriod} {row : RatingResult} {results : List RatingResult}
    (owned : Owned ids tenant periodStart u)
    (hperiods : upsertPeriod c u.periods (ids.periodId tenant periodStart) tenant periodStart periodEnd = .ok periods)
    (rowId : row.id = ids.resultId (ids.periodId tenant periodStart))
    (rowPeriod : row.periodId = ids.periodId tenant periodStart)
    (hresults : results = u.results ∨ results = upsert (fun r => r.id = row.id) row.replace row u.results) :
    ({ u with periods := periods, results := results } : Usage c).prior tenant periodStart =
      u.prior tenant periodStart := by
  obtain ⟨p, _, _, start, _, upserted, _⟩ := upsertPeriod_ok hperiods
  have window : ∀ r : RatingResult,
      (periods.any fun q => q.id = r.periodId && q.tenantId = tenant && Usage.inWindow periodStart q) =
        u.periods.any fun q => q.id = r.periodId && q.tenantId = tenant && Usage.inWindow periodStart q := by
    intro r
    rw [upserted]
    apply any_upsert_iff
    · intro q _ _
      obtain ⟨id, tenantId, start⟩ := q.extend_columns periodEnd
      simp [Usage.inWindow, id, tenantId, start]
    · simp [Usage.inWindow, start]
  have own : ∀ r : RatingResult, r.periodId = ids.periodId tenant periodStart →
      (u.periods.any fun q => q.id = r.periodId && q.tenantId = tenant && Usage.inWindow periodStart q) = false := by
    intro r hr
    rw [List.any_eq_false]
    intro q hq inside
    simp only [Bool.and_eq_true, decide_eq_true_eq, Usage.inWindow] at inside
    have := (owned.period q hq (inside.1.1.trans hr)).2
    omega
  have same : ({ u with periods := periods, results := results } : Usage c).resultsOf tenant
      (Usage.inWindow periodStart) = u.resultsOf tenant (Usage.inWindow periodStart) := by
    unfold Usage.resultsOf
    simp only [window]
    rcases hresults with untouched | upserted
    · rw [untouched]
    · rw [upserted]
      apply filter_upsert
      · intro r hr hit
        exact own r (owned.result r hr ((of_decide_eq_true hit).trans rowId))
      · intro r hr hit
        exact own _ (owned.result r hr ((of_decide_eq_true hit).trans rowId))
      · exact own row rowPeriod
  unfold Usage.prior
  rw [same]

/-- A rating reads the subscriptions, the usage and what is in the window. -/
theorem fnUsageRating_congr {scan : Scan Subscription} (subscriptions : u'.subscriptions = u.subscriptions)
    (events : u'.events = u.events) (prior : u'.prior tenant periodStart = u.prior tenant periodStart) :
    fnUsageRating scan u' tenant periodStart periodEnd = fnUsageRating scan u tenant periodStart periodEnd := by
  unfold fnUsageRating Usage.planOf Usage.subscription Usage.used
  rw [subscriptions, events, prior]

/-- A finalized period is rated as it was before, and finalizing it again changes nothing. -/
theorem refinalize (owned : Owned ids tenant periodStart u)
    (h : spFinalizeRating ids reads tenant periodStart periodEnd u = .ok u') :
    spFinalizeRating ids reads tenant periodStart periodEnd u' = .ok u' ∧ u'.subscriptions = u.subscriptions ∧
      fnUsageRating reads.rating u' tenant periodStart periodEnd =
        fnUsageRating reads.rating u tenant periodStart periodEnd := by
  obtain ⟨periods, rating, s, row, results, hperiods, hrating, hs, hrow, hresults, same⟩ := spFinalizeRating_steps h
  obtain ⟨rowId, rowPeriod, _⟩ := ratingRow_ok hrow
  have upserted : results = upsert (fun r => r.id = row.id) row.replace row u.results :=
    upsertResult_ok (u := { u with periods := periods }) hresults
  have whole := prior_finalized owned hperiods rowId rowPeriod (Or.inr upserted)
  have partly := prior_finalized owned hperiods rowId rowPeriod (Or.inl rfl)
  subst same
  have rated : fnUsageRating reads.rating { u with periods := periods, results := results } tenant periodStart
      periodEnd = .ok (some rating) := by
    rw [← hrating]
    exact fnUsageRating_congr rfl rfl (whole.trans partly.symm)
  refine ⟨?_, rfl, fnUsageRating_congr rfl rfl whole⟩
  have subscribed : ({ u with periods := periods, results := results } : Usage c).subscription reads.finalize tenant
      periodStart periodEnd = some s := hs
  have again := upsertResult_again hresults
  unfold spFinalizeRating
  rw [subscribed]
  simp only [upsertPeriod_again hperiods, rated, hrow, again, bind, Except.bind]

end OtterWorks.Billing
