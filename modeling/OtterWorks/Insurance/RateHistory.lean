import OtterWorks.Insurance.Commission
import OtterWorks.Lib.Transition

namespace OtterWorks.Insurance

/-- Two rates of one scope are never in force on the same date. -/
def CommissionRate.Apart (r r' : CommissionRate) : Prop :=
  r.productCode = r'.productCode → r.agentId = r'.agentId → r.validity.Apart r'.validity

/-- At most one stored rate of a scope contains a date, and `resolve_rate` never chooses between two of them. -/
structure OneRate (s : Schema) : Prop where
  dates : ∀ product agent d, (s.commissionRates.countP fun r =>
    r.productCode = product ∧ r.agentId = agent ∧ r.validity.Contains d) ≤ 1
  choice : ∀ product agent asOf, (resolveRows product agent asOf s).Pairwise fun r r' => r.agentId ≠ r'.agentId

theorem oneRate_iff {s : Schema} : OneRate s ↔ s.commissionRates.Pairwise CommissionRate.Apart := by
  constructor
  · intro h
    have pairs : ∀ product agent d, s.commissionRates.Pairwise fun r r' =>
        ¬ ((r.productCode = product ∧ r.agentId = agent ∧ r.validity.Contains d) ∧
          r'.productCode = product ∧ r'.agentId = agent ∧ r'.validity.Contains d) := by
      intro product agent d
      simpa using countP_le_one_iff.mp (h.dates product agent d)
    rw [List.pairwise_iff_getElem]
    intro i j hi hj less product agent d hd
    have here := List.pairwise_iff_getElem.mp
      (pairs s.commissionRates[i].productCode s.commissionRates[i].agentId d) i j hi hj less
    exact here ⟨⟨rfl, rfl, hd.1⟩, product.symm, agent.symm, hd.2⟩
  · intro apart
    constructor
    · intro product agent d
      rw [countP_le_one_iff]
      apply apart.imp
      intro r r' h hd
      simp only [decide_eq_true_eq] at hd
      obtain ⟨⟨hp, ha, hc⟩, hp', ha', hc'⟩ := hd
      exact h (hp.trans hp'.symm) (ha.trans ha'.symm) d ⟨hc, hc'⟩
    · intro product agent asOf
      have chosen : (resolveRows product agent asOf s).Pairwise CommissionRate.Apart :=
        apart.sublist List.filter_sublist
      apply chosen.imp_of_mem
      intro r r' hr hr' h same
      simp only [resolveRows, List.mem_filter, decide_eq_true_eq] at hr hr'
      exact h (hr.2.1.trans hr'.2.1.symm) same asOf ⟨hr.2.2.2, hr'.2.2.2⟩

/-- What a row may become without changing when which rate is in force. -/
def SamePeriod (r r' : CommissionRate) : Prop :=
  r'.productCode = r.productCode ∧ r'.agentId = r.agentId ∧ r'.validity = r.validity

/-- A row that stays or, if it is open, is closed. -/
def Closed (r r' : CommissionRate) : Prop :=
  r'.productCode = r.productCode ∧ r'.agentId = r.agentId ∧ r'.effectiveFrom = r.effectiveFrom ∧
    (r'.effectiveTo = r.effectiveTo ∨ r.effectiveTo = none)

theorem SamePeriod.closed {r r' : CommissionRate} (h : SamePeriod r r') : Closed r r' := by
  obtain ⟨product, agent, period⟩ := h
  simp only [CommissionRate.validity, Validity.mk.injEq] at period
  exact ⟨product, agent, period.1, Or.inl period.2⟩

theorem Closed.contains {r r' : CommissionRate} (h : Closed r r') {d : Date} (hd : r'.validity.Contains d) :
    r.validity.Contains d := by
  obtain ⟨_, _, start, stop⟩ := h
  have first : r'.effectiveFrom ≤ d := hd.1
  rw [start] at first
  refine ⟨first, ?_⟩
  intro e he
  rcases stop with same | isOpen
  · exact hd.2 e (show e ∈ r'.effectiveTo by rw [same]; exact he)
  · have : e ∈ r.effectiveTo := he
    simp [isOpen] at this

theorem Closed.apart {a b a' b' : CommissionRate} (ha : Closed a a') (hb : Closed b b') (h : a.Apart b) :
    a'.Apart b' := by
  intro product agent d hd
  have hp : a.productCode = b.productCode := by rw [← ha.1, product, hb.1]
  have hg : a.agentId = b.agentId := by rw [← ha.2.1, agent, hb.2.1]
  exact h hp hg d ⟨ha.contains hd.1, hb.contains hd.2⟩

theorem updateRates_ok {set : CommissionRate → Except CommissionError CommissionRate}
    {matching : CommissionRate → Bool} {rows rows' : List CommissionRate} :
    updateRates set matching rows = .ok rows' ↔
      List.Forall₂ (fun r r' => (if matching r then set r else .ok r) = .ok r') rows rows' := mapM_ok

theorem setRate_same {pct : ℚ} {actor : String} {r r' : CommissionRate} (h : r.setRate pct actor = .ok r') :
    SamePeriod r r' := by
  unfold CommissionRate.setRate at h
  split at h
  next =>
    cases Except.ok.inj h
    exact ⟨rfl, rfl, rfl⟩
  next => cases h

theorem setEffectiveTo_ok {last : Option Date} {r r' : CommissionRate} (h : r.setEffectiveTo last = .ok r') :
    r'.productCode = r.productCode ∧ r'.agentId = r.agentId ∧ r'.effectiveFrom = r.effectiveFrom ∧
      r'.effectiveTo = last := by
  unfold CommissionRate.setEffectiveTo at h
  split at h
  next =>
    cases Except.ok.inj h
    exact ⟨rfl, rfl, rfl, rfl⟩
  next => cases h

theorem withRates_ok {s s' : Schema} {rows : List CommissionRate} {n : Nat} (h : s.withRates rows n = .ok s') :
    s'.commissionRates = rows := by
  unfold Schema.withRates at h
  split at h
  next =>
    cases Except.ok.inj h
    rfl
  next => cases h

/-- A same-day correction changes no period. -/
theorem amendRate_ok {product : String} {agent : Option Int} {pct : ℚ} {effectiveFrom : Option Date}
    {actor : String} {s s' : Schema} (h : amendRate product agent pct effectiveFrom actor s = .ok s') :
    List.Forall₂ Closed s.commissionRates s'.commissionRates := by
  obtain ⟨_, _, h⟩ := bind_ok h
  obtain ⟨rows, updated, h⟩ := bind_ok h
  rw [withRates_ok h]
  apply (updateRates_ok.mp updated).imp
  intro r r' hr
  split at hr
  next => exact (setRate_same hr).closed
  next =>
    cases Except.ok.inj hr
    exact SamePeriod.closed ⟨rfl, rfl, rfl⟩

/-- A rate that a supersession leaves in the table: an open one that starts earlier is closed the day before. -/
def Superseded (product : String) (agent : Option Int) (effectiveFrom : Date) (r r' : CommissionRate) : Prop :=
  Closed r r' ∧ if r.supersedes product agent effectiveFrom then r'.effectiveTo = some (effectiveFrom - day)
    else r' = r

theorem supersedeRate_ok {product : String} {agent : Option Int} {pct : ℚ} {effectiveFrom : Date} {actor : String}
    {s s' : Schema} (h : supersedeRate product agent pct effectiveFrom actor s = .ok s') :
    ∃ closed rate, List.Forall₂ (Superseded product agent effectiveFrom) s.commissionRates closed ∧
      s'.commissionRates = closed ++ [rate] ∧ rate.productCode = product ∧ rate.agentId = agent ∧
      rate.validity = ⟨effectiveFrom, none⟩ := by
  obtain ⟨closed, updated, h⟩ := bind_ok h
  obtain ⟨s₁, hs₁, h⟩ := bind_ok h
  obtain ⟨rate, hrate, h⟩ := bind_ok h
  have rows := withRates_ok hs₁
  refine ⟨closed, rate, ?_, by rw [withRates_ok h, rows], ?_⟩
  · apply (updateRates_ok.mp updated).imp
    intro r r' hr
    by_cases matching : r.supersedes product agent effectiveFrom = true
    · rw [if_pos matching] at hr
      obtain ⟨hp, ha, hf, ht⟩ := setEffectiveTo_ok hr
      have isOpen : r.effectiveTo = none := by
        simp only [CommissionRate.supersedes, CommissionRate.inScope, decide_eq_true_eq] at matching
        exact matching.1.2.2
      refine ⟨⟨hp, ha, hf, Or.inr isOpen⟩, ?_⟩
      rw [if_pos matching]
      exact ht
    · rw [if_neg matching] at hr
      cases Except.ok.inj hr
      refine ⟨⟨rfl, rfl, rfl, Or.inl rfl⟩, ?_⟩
      rw [if_neg matching]
  · have made := seqRight_ok hrate
    split at made
    next =>
      cases Except.ok.inj made
      exact ⟨rfl, rfl, rfl⟩
    next => cases made

theorem endCommissionRate_ok {product : String} {agent : Option Int} {last : Option Date} {actor : String}
    {s s' : Schema} (h : endCommissionRate product agent last actor s = .ok s') :
    List.Forall₂ Closed s.commissionRates s'.commissionRates := by
  obtain ⟨rows, updated, h⟩ := bind_ok h
  obtain ⟨ended, hended, h⟩ := bind_ok h
  have same : s' = ended := by
    split at h
    next => exact (Except.ok.inj (seqRight_ok h)).symm
    next => cases h
  rw [same, withRates_ok hended]
  apply (updateRates_ok.mp updated).imp
  intro r r' hr
  by_cases matching : r.inScope product agent = true
  · rw [if_pos matching] at hr
    obtain ⟨hp, ha, hf, _⟩ := setEffectiveTo_ok hr
    simp only [CommissionRate.inScope, decide_eq_true_eq] at matching
    exact ⟨hp, ha, hf, Or.inr matching.2.2⟩
  · rw [if_neg matching] at hr
    cases Except.ok.inj hr
    exact ⟨rfl, rfl, rfl, Or.inl rfl⟩

/-- An upsert amends an open rate that starts on the same day, or the scope's closed rates end before the new one. -/
def Trimmed (s : Schema) : RateCall → Prop
  | .upsert product agent _ (some effectiveFrom) _ =>
    s.commissionRates.any (CommissionRate.amends product agent (some effectiveFrom)) = true ∨
      ∀ r ∈ s.commissionRates, r.productCode = product → r.agentId = agent → ∀ e ∈ r.effectiveTo, e < effectiveFrom
  | _ => True

def Refused (s : Schema) (call : RateCall) : Prop := ∃ e, call.run s = .error e

theorem OneRate.of_closed {s s' : Schema} (h : OneRate s)
    (rows : List.Forall₂ Closed s.commissionRates s'.commissionRates) : OneRate s' :=
  oneRate_iff.mpr (pairwise_forall₂ (fun _ _ _ _ ha hb => ha.apart hb) rows (oneRate_iff.mp h))

/-- The rows of a scope whose rates were superseded, before the new rate: one of them is open only if it was
amended, and the unique index has let the new rate in. -/
theorem superseded_before {product : String} {agent : Option Int} {effectiveFrom : Date} {s : Schema}
    {closed : List CommissionRate} {rate r : CommissionRate}
    (rows : List.Forall₂ (Superseded product agent effectiveFrom) s.commissionRates closed)
    (unique : UxRatesOpen (closed ++ [rate])) (hp : rate.productCode = product) (ha : rate.agentId = agent)
    (isOpen : rate.effectiveTo = none)
    (trimmed : ∀ r ∈ s.commissionRates, r.productCode = product → r.agentId = agent →
      ∀ e ∈ r.effectiveTo, e < effectiveFrom)
    (hr : r ∈ closed) (hrp : r.productCode = product) (hra : r.agentId = agent) :
    ∃ e, r.effectiveTo = some e ∧ e < effectiveFrom := by
  obtain ⟨r₀, hr₀, ⟨hp₀, ha₀, _, _⟩, became⟩ := forall₂_right rows hr
  split at became
  next =>
    have positive : 0 < day := by decide
    exact ⟨effectiveFrom - day, became, Int.sub_lt_self effectiveFrom positive⟩
  next =>
    cases hto : r.effectiveTo with
    | some e =>
      refine ⟨e, rfl, ?_⟩
      subst became
      exact trimmed r hr₀ hrp hra e hto
    | none =>
      have keys : r.openKey = rate.openKey := by
        simp [CommissionRate.openKey, hrp, hra, hp, ha, hto, isOpen]
      unfold UxRatesOpen at unique
      rw [List.map_append, List.nodup_append] at unique
      exact absurd keys (unique.2.2 _ (List.mem_map_of_mem hr) _ (by simp))

theorem supersede_iff {product : String} {agent : Option Int} {pct : ℚ} {effectiveFrom : Date} {actor : String}
    {s s' : Schema} (one : OneRate s) (h : supersedeRate product agent pct effectiveFrom actor s = .ok s') :
    OneRate s' ↔ ∀ r ∈ s.commissionRates, r.productCode = product → r.agentId = agent →
      ∀ e ∈ r.effectiveTo, e < effectiveFrom := by
  obtain ⟨closed, rate, rows, after, hp, ha, period⟩ := supersedeRate_ok h
  have isOpen : rate.effectiveTo = none := congrArg Validity.stop period
  have unique := s'.uxRatesOpen
  rw [after] at unique
  rw [oneRate_iff, after, List.pairwise_append]
  constructor
  · intro apart r hr hrp hra e he
    by_contra reaches
    have last : r.effectiveTo = some e := he
    -- a closed rate is not superseded: it is still in the table beside the new one
    obtain ⟨r', hr', _, became⟩ := forall₂_left rows hr
    have kept : r.supersedes product agent effectiveFrom = false := by
      simp [CommissionRate.supersedes, CommissionRate.inScope, last]
    rw [kept] at became
    have same : r' = r := became
    subst same
    have meets := Validity.meets_of_le_stop (v := r'.validity) (w := rate.validity) he (r'.ckRatesDates e he)
      (by rw [period]) (by rw [period]; exact not_lt.mp reaches)
    exact apart.2.2 r' hr' rate (by simp) (hrp.trans hp.symm) (hra.trans ha.symm) e meets
  · intro trimmed
    refine ⟨?_, by simp, ?_⟩
    · exact pairwise_forall₂ (fun _ _ _ _ h₁ h₂ => h₁.1.apart h₂.1) rows (oneRate_iff.mp one)
    · intro r hr rate' hrate product' agent'
      have : rate' = rate := by simpa using hrate
      subst this
      obtain ⟨e, he, before⟩ := superseded_before rows unique hp ha isOpen trimmed hr
        (product'.trans hp) (agent'.trans ha)
      exact Validity.apart_of_stop_lt he (by rw [period]; exact before)

theorem upsert_ok {product : String} {agent : Option Int} {ratePct : Option ℚ} {effectiveFrom : Option Date}
    {actor : String} {s s' : Schema}
    (h : upsertCommissionRate product agent ratePct effectiveFrom actor s = .ok s') :
    ∃ pct, putRate product agent pct effectiveFrom actor s = .ok s' := by
  obtain ⟨_, _, h⟩ := bind_ok h
  obtain ⟨_, _, h⟩ := bind_ok h
  obtain ⟨_, _, h⟩ := bind_ok h
  exact ⟨_, h⟩

/-- One call keeps at most one rate per scope and date exactly if it is refused or trims the scope. -/
theorem after_oneRate_iff (s : Schema) (call : RateCall) (one : OneRate s) :
    OneRate (s.after call) ↔ Refused s call ∨ Trimmed s call := by
  unfold Schema.after Refused
  cases hrun : call.run s with
  | error e =>
    simp only [one, true_iff]
    exact Or.inl ⟨e, rfl⟩
  | ok s' =>
    have accepted : ¬ ∃ e, (Except.ok s' : Except CommissionError Schema) = .error e := by simp
    simp only [accepted, false_or]
    cases call with
    | finish product agent last actor =>
      simp only [Trimmed, iff_true]
      exact one.of_closed (endCommissionRate_ok hrun)
    | upsert product agent ratePct effectiveFrom actor =>
      obtain ⟨pct, put⟩ := upsert_ok hrun
      unfold putRate at put
      split at put
      next amended =>
        have kept := one.of_closed (amendRate_ok put)
        cases effectiveFrom with
        | none => simpa only [Trimmed, iff_true] using kept
        | some effectiveFrom => simp only [Trimmed, amended, true_or, kept]
      next fresh =>
        cases effectiveFrom with
        | none => cases put
        | some effectiveFrom =>
          simp only [Trimmed, fresh, Bool.false_eq_true, false_or]
          exact supersede_iff one put

/-- Over any sequence of calls the rates of a scope never overlap exactly if the table starts so and no accepted
upsert inserts a rate from a date that a closed rate of its scope still reaches. -/
theorem rates_never_overlap_iff (s : Schema) (calls : List RateCall) :
    (∀ n, OneRate (s.afterAll (calls.take n))) ↔ OneRate s ∧ ∀ n call, calls[n]? = some call →
      Refused (s.afterAll (calls.take n)) call ∨ Trimmed (s.afterAll (calls.take n)) call :=
  foldl_always_iff after_oneRate_iff s calls

def autoSchema : Schema := ⟨["AUTO-STD"], [], [], uxRatesOpen_nil, 1⟩

/-- A rate is ended at a future date and the next one starts before it. -/
theorem future_end_overlaps : ¬ OneRate (autoSchema.afterAll
    [.upsert "AUTO-STD" none (some 8) (some 0) "ops", .finish "AUTO-STD" none (some (100 * day)) "ops",
      .upsert "AUTO-STD" none (some 9) (some (50 * day)) "ops"]) := by
  intro h
  have two := h.dates "AUTO-STD" none (75 * day)
  revert two
  decide +kernel

end OtterWorks.Insurance
