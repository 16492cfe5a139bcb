import OtterWorks.Insurance.RateHistory
import Mathlib.Data.List.Sort

namespace OtterWorks.Insurance

/-- A change of one scope's rate. -/
structure RateChange where
  ratePct : Option ℚ
  effectiveFrom : Date
  actor : String
  deriving DecidableEq, Repr

namespace RateChange

def call (product : String) (agent : Option Int) (c : RateChange) : RateCall :=
  .upsert product agent c.ratePct (some c.effectiveFrom) c.actor

/-- A rate that the column can hold, of a known product and an active agent, by somebody. -/
structure Acceptable (s : Schema) (product : String) (agent : Option Int) (c : RateChange) : Prop where
  rate : ∃ pct ∈ c.ratePct, 0 < pct ∧ pct ≤ 50 ∧ 0 < roundHalfAway 2 pct
  product : product ∈ s.products
  agent : s.assertAgent agent = .ok ()
  actor : c.actor ≠ "" ∧ c.actor.utf8ByteSize ≤ 64

/-- The row that a change has left. -/
structure Stored (product : String) (agent : Option Int) (c : RateChange) (r : CommissionRate) : Prop where
  product : r.productCode = product
  agent : r.agentId = agent
  rate : some r.ratePct = c.ratePct.map (roundHalfAway 2)
  start : r.effectiveFrom = c.effectiveFrom

end RateChange

/-- The row whose id `resolve_rate` answers. -/
def chosenRate (product : String) (agent : Option Int) (asOf : Date) (s : Schema) : Option CommissionRate :=
  ((resolveRows product agent asOf s).mergeSort resolveOrder).head?

/-- No row of the scope. -/
def Unrated (s : Schema) (product : String) (agent : Option Int) : Prop :=
  ∀ r ∈ s.commissionRates, ¬(r.productCode = product ∧ nvl r.agentId = nvl agent)

/-- Each change succeeds, and on the given dates the last change not after the date is resolved. -/
structure HistoryKept (s : Schema) (product : String) (agent : Option Int) (changes : List RateChange)
    (dates : Date → Prop) : Prop where
  succeeds : ∀ (n : Nat) (c : RateChange), changes[n]? = some c →
    ∃ s', (c.call product agent).run (s.afterAll ((changes.take n).map (RateChange.call product agent))) = .ok s'
  resolves : ∀ d, dates d → ∀ c, (changes.filter fun c => c.effectiveFrom ≤ d).getLast? = some c →
    ∃ r, chosenRate product agent d (s.afterAll (changes.map (RateChange.call product agent))) = some r ∧
      resolveRate product agent d (s.afterAll (changes.map (RateChange.call product agent))) = .ok r.rateId ∧
      c.Stored product agent r

/-- The rows of the scope, after all others. -/
def ScopeRows (s : Schema) (product : String) (agent : Option Int) (rows : List CommissionRate) : Prop :=
  ∃ others, s.commissionRates = others ++ rows ∧
    (∀ r ∈ others, ¬(r.productCode = product ∧ nvl r.agentId = nvl agent)) ∧
    ∀ r ∈ rows, r.productCode = product ∧ r.agentId = agent

section

variable {s s' : Schema} {product : String} {agent : Option Int} {c : RateChange} {rows others closed : List CommissionRate}
  {r rate : CommissionRate} {actor : String} {pct : ℚ} {effectiveFrom d : Date}

theorem roundHalfAway_le_fifty (le : pct ≤ 50) (nonneg : 0 ≤ pct) : roundHalfAway 2 pct ≤ 50 := by
  have floor : ⌊pct * 10 ^ 2 + 1 / 2⌋ ≤ 5000 := by
    rw [← Int.lt_add_one_iff, Int.floor_lt]
    push_cast
    linarith
  have cast : (⌊pct * 10 ^ 2 + 1 / 2⌋ : ℚ) ≤ 5000 := by exact_mod_cast floor
  rw [roundHalfAway_of_nonneg nonneg]
  linarith

theorem checkActor_ok {column : String} : checkActor column actor = .ok () ↔ actor ≠ "" ∧ actor.utf8ByteSize ≤ 64 := by
  unfold checkActor
  by_cases empty : actor = ""
  · simp [empty]
  · by_cases long : 64 < actor.utf8ByteSize
    · simp [empty, long]
    · simp [empty, long, not_lt.mp long]

theorem assertRate_ok {ratePct : Option ℚ} : assertRate ratePct = .ok pct ↔ ratePct = some pct ∧ 0 < pct ∧ pct ≤ 50 := by
  unfold assertRate
  cases ratePct with
  | none => simp
  | some p =>
    by_cases bad : p ≤ 0 ∨ 50 < p
    · have no : p = pct → 0 < pct → ¬pct ≤ 50 := by
        rintro rfl positive le
        rcases bad with low | high
        · linarith
        · linarith
      simp only [if_pos bad, reduceCtorEq, Option.some.injEq, false_iff]
      rintro ⟨same, positive, le⟩
      exact no same positive le
    · simp only [if_neg bad, Except.ok.injEq, Option.some.injEq]
      constructor
      · rintro rfl
        exact ⟨rfl, by by_contra low; exact bad (Or.inl (not_lt.mp low)), by by_contra high; exact bad (Or.inr (not_le.mp high))⟩
      · exact fun h => h.1

theorem assertProduct_ok : s.assertProduct product = .ok () ↔ product ∈ s.products := by
  unfold Schema.assertProduct
  by_cases known : product ∈ s.products
  · simp [known]
  · simp [known]

/-- What an upsert comes to after its checks. -/
theorem upsert_iff : (c.call product agent).run s = .ok s' ↔ ∃ pct ∈ c.ratePct, 0 < pct ∧ pct ≤ 50 ∧
    product ∈ s.products ∧ s.assertAgent agent = .ok () ∧
      putRate product agent (roundHalfAway 2 pct) (some c.effectiveFrom) c.actor s = .ok s' := by
  constructor
  · intro h
    obtain ⟨pct, rated, h⟩ := bind_ok h
    obtain ⟨_, known, h⟩ := bind_ok h
    obtain ⟨_, active, put⟩ := bind_ok h
    obtain ⟨given, positive, le⟩ := assertRate_ok.mp rated
    exact ⟨pct, given, positive, le, assertProduct_ok.mp known, active, put⟩
  · rintro ⟨pct, given, positive, le, known, active, put⟩
    have rated : assertRate c.ratePct = .ok pct := assertRate_ok.mpr ⟨given, positive, le⟩
    show upsertCommissionRate product agent c.ratePct (some c.effectiveFrom) c.actor s = .ok s'
    unfold upsertCommissionRate
    rw [rated, assertProduct_ok.mpr known, active]
    exact put

theorem newRate_ok : newRate s product agent pct effectiveFrom actor = .ok rate ↔ (actor ≠ "" ∧ actor.utf8ByteSize ≤ 64) ∧
    ∃ h : 0 < pct ∧ pct ≤ 50, rate = ⟨s.nextRateId, product, agent, pct, effectiveFrom, none, actor, h, by simp⟩ := by
  unfold newRate
  rw [← @checkActor_ok actor "created_by"]
  cases checked : checkActor "created_by" actor with
  | error e => simp [SeqRight.seqRight, Except.bind]
  | ok u =>
    by_cases inRange : 0 < pct ∧ pct ≤ 50
    · simp [SeqRight.seqRight, Except.bind, inRange, eq_comm]
    · simp [SeqRight.seqRight, Except.bind, inRange]

theorem withRates_iff {n : Nat} : s.withRates rows n = .ok s' ↔ ∃ h : UxRatesOpen rows, s' = ⟨s.products, s.agents, rows, h, n⟩ := by
  unfold Schema.withRates
  by_cases unique : UxRatesOpen rows
  · simp [unique, eq_comm]
  · simp [unique]

/-- The second update and the insert, as one statement about the rows. -/
theorem supersede_put : supersedeRate product agent pct effectiveFrom actor s = .ok s' ↔ ∃ closed rate,
    updateRates (CommissionRate.setEffectiveTo (some (effectiveFrom - day)))
      (CommissionRate.supersedes product agent effectiveFrom) s.commissionRates = .ok closed ∧
    newRate s product agent pct effectiveFrom actor = .ok rate ∧
    ∃ h : UxRatesOpen (closed ++ [rate]), s' = ⟨s.products, s.agents, closed ++ [rate], h, s.nextRateId + 1⟩ := by
  constructor
  · intro h
    obtain ⟨closed, updated, h⟩ := bind_ok h
    obtain ⟨s₁, left, h⟩ := bind_ok h
    obtain ⟨rate, made, h⟩ := bind_ok h
    obtain ⟨unique, rfl⟩ := withRates_iff.mp left
    exact ⟨closed, rate, updated, made, withRates_iff.mp h⟩
  · rintro ⟨closed, rate, updated, made, unique, rfl⟩
    have first : UxRatesOpen closed := by
      unfold UxRatesOpen at unique ⊢
      rw [List.map_append] at unique
      exact unique.of_append_left
    unfold supersedeRate
    rw [updated]
    show (s.withRates closed s.nextRateId >>= _) = _
    rw [withRates_iff.mpr ⟨first, rfl⟩]
    show (newRate s product agent pct effectiveFrom actor >>= _) = _
    rw [made]
    exact withRates_iff.mpr ⟨unique, rfl⟩

theorem updateRates_others {set : CommissionRate → Except CommissionError CommissionRate}
    {matching : CommissionRate → Bool} {all : List CommissionRate} (outside : ∀ r ∈ others, matching r = false) :
    updateRates set matching (others ++ rows) = .ok all ↔
      ∃ closed, updateRates set matching rows = .ok closed ∧ all = others ++ closed := by
  simp only [updateRates_ok]
  induction others generalizing all with
  | nil => simp
  | cons r others ih =>
    have here : matching r = false := outside r (List.mem_cons_self ..)
    have rest := fun all => @ih all fun r' member => outside r' (List.mem_cons_of_mem _ member)
    rw [List.cons_append, List.forall₂_cons_left_iff]
    constructor
    · rintro ⟨r', all', kept, updated, rfl⟩
      rw [here] at kept
      cases Except.ok.inj kept
      obtain ⟨closed, below, rfl⟩ := (rest all').mp updated
      exact ⟨closed, below, rfl⟩
    · rintro ⟨closed, below, rfl⟩
      exact ⟨r, others ++ closed, by rw [here]; rfl, (rest _).mpr ⟨closed, below, rfl⟩, rfl⟩

/-- A rate that is over before the date: an open one has been closed the day before. -/
structure EndedBefore (effectiveFrom : Date) (r r' : CommissionRate) : Prop where
  product : r'.productCode = r.productCode
  agent : r'.agentId = r.agentId
  rate : r'.ratePct = r.ratePct
  start : r'.effectiveFrom = r.effectiveFrom
  stop : r'.effectiveTo = some (r.effectiveTo.getD (effectiveFrom - day))

theorem supersedes_iff (inScope : r.productCode = product ∧ r.agentId = agent) (earlier : r.effectiveFrom < effectiveFrom) :
    r.supersedes product agent effectiveFrom = true ↔ r.effectiveTo = none := by
  simp [CommissionRate.supersedes, CommissionRate.inScope, inScope.1, inScope.2, earlier]

theorem ended_of_update (inScope : ∀ r ∈ rows, r.productCode = product ∧ r.agentId = agent)
    (earlier : ∀ r ∈ rows, r.effectiveFrom < effectiveFrom)
    (updated : updateRates (CommissionRate.setEffectiveTo (some (effectiveFrom - day)))
      (CommissionRate.supersedes product agent effectiveFrom) rows = .ok closed) :
    List.Forall₂ (EndedBefore effectiveFrom) rows closed := by
  have steps := updateRates_ok.mp updated
  clear updated
  induction steps with
  | nil => exact .nil
  | @cons r r' rows closed here _ ih =>
    have rest := ih (fun r member => inScope r (List.mem_cons_of_mem _ member))
      fun r member => earlier r (List.mem_cons_of_mem _ member)
    refine .cons ?_ rest
    have isOpen := supersedes_iff (inScope r (List.mem_cons_self ..)) (earlier r (List.mem_cons_self ..))
    cases last : r.effectiveTo with
    | none =>
      rw [if_pos (isOpen.mpr last)] at here
      unfold CommissionRate.setEffectiveTo at here
      split at here
      next =>
        cases Except.ok.inj here
        exact ⟨rfl, rfl, rfl, rfl, by rw [last]; rfl⟩
      next => cases here
    | some e =>
      have kept : ¬r.supersedes product agent effectiveFrom = true := by
        rw [isOpen, last]
        exact Option.some_ne_none e
      rw [if_neg kept] at here
      cases Except.ok.inj here
      exact ⟨rfl, rfl, rfl, rfl, by rw [last]; rfl⟩

theorem ended_rows (inScope : ∀ r ∈ rows, r.productCode = product ∧ r.agentId = agent)
    (ended : List.Forall₂ (EndedBefore effectiveFrom) rows closed) :
    (∀ r ∈ closed, r.productCode = product ∧ r.agentId = agent) ∧ ∀ r ∈ closed, r.effectiveTo ≠ none := by
  constructor
  · intro r member
    obtain ⟨r₀, row, ends⟩ := forall₂_right ended member
    exact ⟨ends.product.trans (inScope r₀ row).1, ends.agent.trans (inScope r₀ row).2⟩
  · intro r member
    obtain ⟨r₀, _, ends⟩ := forall₂_right ended member
    rw [ends.stop]
    exact Option.some_ne_none _

theorem update_succeeds (inScope : ∀ r ∈ rows, r.productCode = product ∧ r.agentId = agent)
    (earlier : ∀ r ∈ rows, r.effectiveFrom < effectiveFrom)
    (dayBefore : ∀ r ∈ rows, r.effectiveTo = none → r.effectiveFrom ≤ effectiveFrom - day) :
    ∃ closed, updateRates (CommissionRate.setEffectiveTo (some (effectiveFrom - day)))
      (CommissionRate.supersedes product agent effectiveFrom) rows = .ok closed := by
  simp only [updateRates_ok]
  apply exists_forall₂
  intro r member
  split
  next closes =>
    have isOpen := (supersedes_iff (inScope r member) (earlier r member)).mp closes
    have proper : ∀ e ∈ some (effectiveFrom - day), r.effectiveFrom ≤ e := by
      intro e last
      cases last
      exact dayBefore r member isOpen
    refine ⟨{ r with effectiveTo := some (effectiveFrom - day), ckRatesDates := proper }, ?_⟩
    unfold CommissionRate.setEffectiveTo
    rw [dif_pos proper]
  next => exact ⟨r, rfl⟩

/-- Closed rates of one scope have one key: the index holds at most one of them. -/
theorem closed_unique (unique : UxRatesOpen (others ++ rows)) (outside : ∀ r ∈ others, ¬(r.productCode = product ∧ nvl r.agentId = nvl agent))
    (inScope : ∀ r ∈ closed, r.productCode = product ∧ r.agentId = agent) (ended : ∀ r ∈ closed, r.effectiveTo ≠ none)
    (rateScope : rate.productCode = product ∧ rate.agentId = agent) (isOpen : rate.effectiveTo = none) :
    UxRatesOpen (others ++ closed ++ [rate]) ↔ closed.length ≤ 1 := by
  have keys : closed.map CommissionRate.openKey = List.replicate closed.length (product, nvl agent, none) := by
    rw [List.eq_replicate_iff]
    refine ⟨List.length_map .., ?_⟩
    intro key member
    obtain ⟨r, held, rfl⟩ := List.mem_map.mp member
    rw [CommissionRate.openKey, (inScope r held).1, (inScope r held).2, if_neg (ended r held)]
  have rateKey : rate.openKey = (product, nvl agent, some 0) := by
    rw [CommissionRate.openKey, rateScope.1, rateScope.2, if_pos isOpen]
  have othersUnique : (others.map CommissionRate.openKey).Nodup := by
    unfold UxRatesOpen at unique
    rw [List.map_append] at unique
    exact unique.of_append_left
  have apart : ∀ key ∈ others.map CommissionRate.openKey, ∀ last, key ≠ (product, nvl agent, last) := by
    intro key member last same
    obtain ⟨r, held, rfl⟩ := List.mem_map.mp member
    exact outside r held ⟨congrArg Prod.fst same, congrArg (fun k => k.2.1) same⟩
  unfold UxRatesOpen
  rw [List.map_append, List.map_append, List.map_singleton, keys, rateKey, List.append_assoc, List.nodup_append,
    List.nodup_append, List.nodup_replicate]
  constructor
  · exact fun h => h.2.1.1
  · intro one
    refine ⟨othersUnique, ⟨one, List.nodup_singleton _, ?_⟩, ?_⟩
    · intro key member key' last
      rw [List.eq_of_mem_replicate member, List.mem_singleton.mp last]
      simp
    · intro key member key' last
      rcases List.mem_append.mp last with old | new
      · rw [List.eq_of_mem_replicate old]
        exact apart key member _
      · rw [List.mem_singleton.mp new]
        exact apart key member _

/-- After `rates` a later change supersedes, it does not amend. -/
theorem put_later (scope : ScopeRows s product agent rows) (earlier : ∀ r ∈ rows, r.effectiveFrom < effectiveFrom) :
    putRate product agent pct (some effectiveFrom) actor s = supersedeRate product agent pct effectiveFrom actor s := by
  obtain ⟨others, held, outside, _⟩ := scope
  have none_ : ¬s.commissionRates.any (CommissionRate.amends product agent (some effectiveFrom)) = true := by
    rw [List.any_eq_true]
    rintro ⟨r, member, amended⟩
    simp only [CommissionRate.amends, CommissionRate.inScope, decide_eq_true_eq, Option.some.injEq] at amended
    rw [held] at member
    rcases List.mem_append.mp member with other | row
    · exact outside r other ⟨amended.1.1, amended.1.2.1⟩
    · exact absurd amended.2 (ne_of_lt (earlier r row))
  unfold putRate
  rw [if_neg none_]

theorem updateRates_scope {all : List CommissionRate} (held : s.commissionRates = others ++ rows)
    (outside : ∀ r ∈ others, ¬(r.productCode = product ∧ nvl r.agentId = nvl agent)) :
    updateRates (CommissionRate.setEffectiveTo (some (effectiveFrom - day)))
      (CommissionRate.supersedes product agent effectiveFrom) s.commissionRates = .ok all ↔
    ∃ closed, updateRates (CommissionRate.setEffectiveTo (some (effectiveFrom - day)))
      (CommissionRate.supersedes product agent effectiveFrom) rows = .ok closed ∧ all = others ++ closed := by
  rw [held]
  apply updateRates_others
  intro r member
  have apart := outside r member
  simp only [CommissionRate.supersedes, CommissionRate.inScope, decide_eq_true_eq, decide_eq_false_iff_not]
  rintro ⟨⟨product', agent', _⟩, _⟩
  exact apart ⟨product', agent'⟩

/-- A later change that succeeds: it found at most one rate of its scope, ended it and stands behind it. -/
theorem change_spec (scope : ScopeRows s product agent rows) (earlier : ∀ r ∈ rows, r.effectiveFrom < c.effectiveFrom)
    (h : (c.call product agent).run s = .ok s') :
    c.Acceptable s product agent ∧ rows.length ≤ 1 ∧ s'.products = s.products ∧ s'.agents = s.agents ∧
      ∃ closed rate, List.Forall₂ (EndedBefore c.effectiveFrom) rows closed ∧ c.Stored product agent rate ∧
        rate.effectiveTo = none ∧ ScopeRows s' product agent (closed ++ [rate]) := by
  obtain ⟨pct, given, positive, le, known, active, put⟩ := upsert_iff.mp h
  rw [put_later scope earlier] at put
  obtain ⟨others, held, outside, inScope⟩ := scope
  obtain ⟨all, rate, updated, made, unique, rfl⟩ := supersede_put.mp put
  obtain ⟨closed, closes, rfl⟩ := (updateRates_scope held outside).mp updated
  obtain ⟨by_, inRange, rfl⟩ := newRate_ok.mp made
  have ended := ended_of_update inScope earlier closes
  obtain ⟨closedScope, closedEnded⟩ := ended_rows inScope ended
  have before := s.uxRatesOpen
  rw [held] at before
  have one := (closed_unique before outside closedScope closedEnded ⟨rfl, rfl⟩ rfl).mp unique
  refine ⟨⟨⟨pct, given, positive, le, inRange.1⟩, known, active, by_⟩, ?_, rfl, rfl, closed, _, ended, ⟨rfl, rfl, ?_, rfl⟩,
    rfl, others, List.append_assoc .., outside, ?_⟩
  · rw [ended.length_eq]
    exact one
  · rw [Option.mem_def.mp given]
    rfl
  · intro r member
    rcases List.mem_append.mp member with old | new
    · exact closedScope r old
    · rw [List.mem_singleton.mp new]
      exact ⟨rfl, rfl⟩

theorem change_succeeds (scope : ScopeRows s product agent rows) (earlier : ∀ r ∈ rows, r.effectiveFrom < c.effectiveFrom)
    (acceptable : c.Acceptable s product agent) (one : rows.length ≤ 1)
    (dayBefore : ∀ r ∈ rows, r.effectiveTo = none → r.effectiveFrom ≤ c.effectiveFrom - day) :
    ∃ s', (c.call product agent).run s = .ok s' := by
  obtain ⟨pct, given, positive, le, stored⟩ := acceptable.rate
  have inRange : 0 < roundHalfAway 2 pct ∧ roundHalfAway 2 pct ≤ 50 :=
    ⟨stored, roundHalfAway_le_fifty le (le_of_lt positive)⟩
  have put := @put_later s product agent rows c.actor (roundHalfAway 2 pct) c.effectiveFrom scope earlier
  obtain ⟨others, held, outside, inScope⟩ := scope
  obtain ⟨closed, updated⟩ := update_succeeds inScope earlier dayBefore
  have ended := ended_of_update inScope earlier updated
  obtain ⟨closedScope, closedEnded⟩ := ended_rows inScope ended
  have before := s.uxRatesOpen
  rw [held] at before
  rw [ended.length_eq] at one
  let rate : CommissionRate :=
    ⟨s.nextRateId, product, agent, roundHalfAway 2 pct, c.effectiveFrom, none, c.actor, inRange, by simp⟩
  have unique : UxRatesOpen (others ++ closed ++ [rate]) :=
    (closed_unique before outside closedScope closedEnded ⟨rfl, rfl⟩ rfl).mpr one
  have superseded : supersedeRate product agent (roundHalfAway 2 pct) c.effectiveFrom c.actor s =
      .ok ⟨s.products, s.agents, others ++ closed ++ [rate], unique, s.nextRateId + 1⟩ :=
    supersede_put.mpr ⟨others ++ closed, rate, (updateRates_scope held outside).mpr ⟨closed, updated, rfl⟩,
      newRate_ok.mpr ⟨acceptable.actor, inRange, rfl⟩, unique, rfl⟩
  exact ⟨_, upsert_iff.mpr ⟨pct, given, positive, le, acceptable.product, acceptable.agent, put.trans superseded⟩⟩

theorem after_of_run {call : RateCall} (h : call.run s = .ok s') : s.after call = s' := by
  unfold Schema.after
  rw [h]

theorem RateChange.Acceptable.congr (products : s'.products = s.products) (agents : s'.agents = s.agents)
    (h : c.Acceptable s' product agent) : c.Acceptable s product agent := by
  have agent' := h.agent
  unfold Schema.assertAgent Schema.assertActiveAgent at agent'
  rw [agents] at agent'
  refine ⟨h.rate, ?_, agent', h.actor⟩
  rw [← products]
  exact h.product

/-- Each change leaves one more rate in the scope, and only two have room there. -/
theorem changes_bounded {changes : List RateChange} (scope : ScopeRows s product agent rows)
    (earlier : ∀ r ∈ rows, ∀ c ∈ changes, r.effectiveFrom < c.effectiveFrom)
    (increasing : changes.Pairwise fun c c' => c.effectiveFrom < c'.effectiveFrom)
    (succeeds : ∀ (n : Nat) (c : RateChange), changes[n]? = some c →
      ∃ s', (c.call product agent).run (s.afterAll ((changes.take n).map (RateChange.call product agent))) = .ok s') :
    (∀ c ∈ changes, c.Acceptable s product agent) ∧ changes.length ≤ 2 - rows.length := by
  induction changes generalizing s rows with
  | nil =>
    refine ⟨?_, Nat.zero_le _⟩
    intro c member
    cases member
  | cons c changes ih =>
    obtain ⟨later, increasing'⟩ := List.pairwise_cons.mp increasing
    obtain ⟨s', run⟩ := succeeds 0 c rfl
    have first := fun r member => earlier r member c (List.mem_cons_self ..)
    obtain ⟨acceptable, one, products, agents, closed, rate, ended, stored, _, scope'⟩ := change_spec scope first run
    have earlier' : ∀ r ∈ closed ++ [rate], ∀ c' ∈ changes, r.effectiveFrom < c'.effectiveFrom := by
      intro r member c' after_
      rcases List.mem_append.mp member with old | new
      · obtain ⟨r₀, row, ends⟩ := forall₂_right ended old
        rw [ends.start]
        exact earlier r₀ row c' (List.mem_cons_of_mem _ after_)
      · rw [List.mem_singleton.mp new, stored.start]
        exact later c' after_
    have succeeds' : ∀ (n : Nat) (c' : RateChange), changes[n]? = some c' →
        ∃ t, (c'.call product agent).run (s'.afterAll ((changes.take n).map (RateChange.call product agent))) = .ok t := by
      intro n c' here
      have next := succeeds (n + 1) c' here
      have ran : s.after (c.call product agent) = s' := after_of_run run
      rw [List.take_succ_cons, List.map_cons, Schema.afterAll, List.foldl_cons, ran] at next
      exact next
    obtain ⟨rest, few⟩ := ih scope' earlier' increasing' succeeds'
    constructor
    · intro c' member
      rcases List.mem_cons.mp member with rfl | after_
      · exact acceptable
      · exact (rest c' after_).congr products agents
    · rw [List.length_append, ← ended.length_eq, List.length_singleton] at few
      rw [List.length_cons]
      omega

theorem resolveOrder_trans {a b c : CommissionRate} (ab : resolveOrder a b = true) (bc : resolveOrder b c = true) :
    resolveOrder a c = true := by
  unfold resolveOrder at ab bc ⊢
  cases ha : a.agentId.isSome <;> cases hb : b.agentId.isSome <;> cases hc : c.agentId.isSome <;>
    simp_all
  · exact le_trans bc ab
  · exact le_trans bc ab

theorem resolveOrder_total (a b : CommissionRate) : (resolveOrder a b || resolveOrder b a) = true := by
  unfold resolveOrder
  cases ha : a.agentId.isSome <;> cases hb : b.agentId.isSome <;> simp [le_total]

/-- A rate that is the only one of its scope on the date is the one resolved. -/
theorem chosen_of_only (member : r ∈ s.commissionRates) (inScope : r.productCode = product ∧ r.agentId = agent)
    (contains : r.validity.Contains d)
    (only : ∀ r' ∈ s.commissionRates, r'.productCode = product → nvl r'.agentId = nvl agent → r'.validity.Contains d →
      r' = r) :
    chosenRate product agent d s = some r := by
  have eligible : r ∈ resolveRows product agent d s := by
    simp only [resolveRows, List.mem_filter, decide_eq_true_eq]
    exact ⟨member, inScope.1, Or.inl inScope.2, contains⟩
  have sorted : ((resolveRows product agent d s).mergeSort resolveOrder).Pairwise fun a b => resolveOrder a b = true :=
    by
    apply List.pairwise_mergeSort
    · intro a b c
      exact resolveOrder_trans
    · exact resolveOrder_total
  have held : r ∈ (resolveRows product agent d s).mergeSort resolveOrder := List.mem_mergeSort.mpr eligible
  unfold chosenRate
  cases rows : (resolveRows product agent d s).mergeSort resolveOrder with
  | nil =>
    rw [rows] at held
    cases held
  | cons head tail =>
    rw [List.head?_cons]
    by_contra other
    have different : head ≠ r := fun same => other (congrArg some same)
    rw [rows] at held sorted
    have behind : r ∈ tail := by
      rcases List.mem_cons.mp held with same | later
      · exact absurd same.symm different
      · exact later
    have first : resolveOrder head r = true := (List.pairwise_cons.mp sorted).1 r behind
    have top : head ∈ (resolveRows product agent d s).mergeSort resolveOrder := by
      rw [rows]
      exact List.mem_cons_self ..
    have headHeld : head ∈ resolveRows product agent d s := List.mem_mergeSort.mp top
    simp only [resolveRows, List.mem_filter, decide_eq_true_eq] at headHeld
    obtain ⟨stored, product', agent', contains'⟩ := headHeld
    -- a rate of another scope is the product's default, and stands behind the agent's own
    have default_ : head.agentId = none ∧ agent ≠ none := by
      rcases agent' with own | none_
      · exact absurd (only head stored product' (by rw [own]) contains') different
      · refine ⟨none_, ?_⟩
        rintro rfl
        exact different (only head stored product' (by rw [none_]) contains')
    obtain ⟨a, named⟩ := Option.ne_none_iff_exists'.mp default_.2
    unfold resolveOrder at first
    rw [default_.1, inScope.2, named] at first
    simp at first

theorem resolve_chosen (h : chosenRate product agent d s = some r) : resolveRate product agent d s = .ok r.rateId := by
  unfold chosenRate at h
  unfold resolveRate
  rw [h]

theorem chosen_mem (h : chosenRate product agent d s = some r) : r ∈ s.commissionRates ∧ r.validity.Contains d := by
  have held : r ∈ (resolveRows product agent d s).mergeSort resolveOrder := List.mem_of_head? h
  rw [List.mem_mergeSort] at held
  simp only [resolveRows, List.mem_filter, decide_eq_true_eq] at held
  exact ⟨held.1, held.2.2.2⟩

/-- A rate alone of the scope's on the date is resolved. -/
theorem ScopeRows.chosen (scope : ScopeRows s product agent rows) (member : r ∈ rows) (contains : r.validity.Contains d)
    (only : ∀ r' ∈ rows, r'.validity.Contains d → r' = r) : chosenRate product agent d s = some r := by
  obtain ⟨others, held, outside, inScope⟩ := scope
  refine chosen_of_only ?_ (inScope r member) contains ?_
  · rw [held]
    exact List.mem_append_right _ member
  · intro r' member' product' agent' contains'
    rw [held] at member'
    rcases List.mem_append.mp member' with other | row
    · exact absurd ⟨product', agent'⟩ (outside r' other)
    · exact only r' row contains'

theorem unrated_scope (unrated : Unrated s product agent) : ScopeRows s product agent [] :=
  ⟨s.commissionRates, (List.append_nil _).symm, unrated, fun _ member => nomatch member⟩

theorem kept_nil {dates : Date → Prop} : HistoryKept s product agent [] dates where
  succeeds := fun _ _ h => nomatch h
  resolves := fun _ _ _ h => nomatch h

theorem kept_one {dates : Date → Prop} (unrated : Unrated s product agent) (acceptable : c.Acceptable s product agent) :
    HistoryKept s product agent [c] dates := by
  have scope := unrated_scope unrated
  obtain ⟨s', run⟩ := change_succeeds scope (fun _ member => nomatch member) acceptable (Nat.zero_le _)
    fun _ member => nomatch member
  obtain ⟨_, _, _, _, closed, rate, ended, stored, isOpen, scope'⟩ := change_spec scope (fun _ member => nomatch member) run
  cases ended
  have ran : s.after (c.call product agent) = s' := after_of_run run
  refine ⟨?_, ?_⟩
  · intro n c' here
    match n with
    | 0 =>
      cases here
      exact ⟨s', run⟩
    | n + 1 => cases here
  · intro d _ c' last
    obtain ⟨rfl, started⟩ : c = c' ∧ c.effectiveFrom ≤ d := by
      by_cases started : c.effectiveFrom ≤ d
      · rw [List.filter_cons_of_pos (by simpa using started)] at last
        exact ⟨Option.some.inj last, started⟩
      · rw [List.filter_cons_of_neg (by simpa using started)] at last
        cases last
    have contains : rate.validity.Contains d := by
      refine ⟨?_, ?_⟩
      · show rate.effectiveFrom ≤ d
        rw [stored.start]
        exact started
      · intro e stop
        have stop' : rate.effectiveTo = some e := stop
        rw [isOpen] at stop'
        cases stop'
    have chosen := scope'.chosen (List.mem_singleton_self rate) contains fun r' member _ => List.mem_singleton.mp member
    rw [List.map_singleton, Schema.afterAll, List.foldl_cons, List.foldl_nil, ran]
    exact ⟨rate, chosen, resolve_chosen chosen, stored⟩

/-- The state and the two rows after two changes. -/
theorem two_changes {c c' : RateChange} (unrated : Unrated s product agent) (increasing : c.effectiveFrom < c'.effectiveFrom)
    (run : (c.call product agent).run s = .ok s') {s'' : Schema} (run' : (c'.call product agent).run s' = .ok s'') :
    ∃ r r', ScopeRows s'' product agent [r, r'] ∧ c.Stored product agent r ∧
      r.effectiveTo = some (c'.effectiveFrom - day) ∧ c'.Stored product agent r' ∧ r'.effectiveTo = none := by
  have scope := unrated_scope unrated
  obtain ⟨_, _, _, _, closed, rate, ended, stored, isOpen, scope'⟩ := change_spec scope (fun _ member => nomatch member) run
  cases ended
  have earlier : ∀ r ∈ [] ++ [rate], r.effectiveFrom < c'.effectiveFrom := by
    intro r member
    rw [List.mem_singleton.mp member, stored.start]
    exact increasing
  obtain ⟨_, _, _, _, closed', rate', ended', stored', isOpen', scope''⟩ := change_spec scope' earlier run'
  cases ended' with
  | cons ends rest =>
    cases rest
    refine ⟨_, rate', scope'', ⟨ends.product.trans stored.product, ends.agent.trans stored.agent, ?_, ?_⟩, ?_, stored', isOpen'⟩
    · rw [ends.rate]
      exact stored.rate
    · exact ends.start.trans stored.start
    · rw [ends.stop, isOpen]
      rfl

theorem kept_two {c c' : RateChange} {dates : Date → Prop} (unrated : Unrated s product agent)
    (acceptable : c.Acceptable s product agent) (acceptable' : c'.Acceptable s product agent)
    (dayBefore : c.effectiveFrom ≤ c'.effectiveFrom - day)
    (noGap : ∀ d, dates d → d < c'.effectiveFrom → d ≤ c'.effectiveFrom - day) :
    HistoryKept s product agent [c, c'] dates := by
  have positive : 0 < day := by decide
  have increasing : c.effectiveFrom < c'.effectiveFrom := by linarith
  have scope := unrated_scope unrated
  obtain ⟨s', run⟩ := change_succeeds scope (fun _ member => nomatch member) acceptable (Nat.zero_le _)
    fun _ member => nomatch member
  obtain ⟨_, _, products, agents, closed, rate, ended, stored, isOpen, scope'⟩ :=
    change_spec scope (fun _ member => nomatch member) run
  cases ended
  have start : ∀ r ∈ [] ++ [rate], r.effectiveFrom = c.effectiveFrom := by
    intro r member
    rw [List.mem_singleton.mp member]
    exact stored.start
  obtain ⟨s'', run'⟩ := change_succeeds scope' (fun r member => by rw [start r member]; exact increasing)
    (acceptable'.congr products.symm agents.symm) (Nat.le_refl 1) fun r member _ => by
      rw [start r member]
      exact dayBefore
  obtain ⟨r, r', scope'', kept, stop, kept', isOpen'⟩ := two_changes unrated increasing run run'
  have ran : s.after (c.call product agent) = s' := after_of_run run
  have ran' : s'.after (c'.call product agent) = s'' := after_of_run run'
  have open_ : ∀ d, r'.validity.Contains d ↔ c'.effectiveFrom ≤ d := by
    intro d
    rw [← kept'.start]
    refine ⟨fun h => h.1, fun h => ⟨h, ?_⟩⟩
    intro e last
    have last' : r'.effectiveTo = some e := last
    rw [isOpen'] at last'
    cases last'
  have closed_ : ∀ d, r.validity.Contains d ↔ c.effectiveFrom ≤ d ∧ d ≤ c'.effectiveFrom - day := by
    intro d
    rw [← kept.start]
    refine ⟨fun h => ⟨h.1, h.2 _ stop⟩, fun h => ⟨h.1, ?_⟩⟩
    intro e last
    have last' : r.effectiveTo = some e := last
    rw [stop] at last'
    cases last'
    exact h.2
  refine ⟨?_, ?_⟩
  · intro n c₀ here
    match n with
    | 0 =>
      cases here
      exact ⟨s', run⟩
    | 1 =>
      cases here
      refine ⟨s'', ?_⟩
      show (c'.call product agent).run (s.after (c.call product agent)) = .ok s''
      rw [ran]
      exact run'
    | n + 2 => cases here
  · intro d given c₀ last
    have state : s.afterAll ([c, c'].map (RateChange.call product agent)) = s'' := by
      show (s.after (c.call product agent)).after (c'.call product agent) = s''
      rw [ran, ran']
    rw [state]
    by_cases second : c'.effectiveFrom ≤ d
    · have first : c.effectiveFrom ≤ d := le_trans (le_of_lt increasing) second
      rw [List.filter_cons_of_pos (by simpa using first), List.filter_cons_of_pos (by simpa using second)] at last
      cases last
      have chosen := scope''.chosen (by simp) ((open_ d).mpr second) fun r₀ member contains => by
        rcases List.mem_cons.mp member with rfl | later
        · have ended := ((closed_ d).mp contains).2
          linarith
        · exact List.mem_singleton.mp later
      exact ⟨r', chosen, resolve_chosen chosen, kept'⟩
    · rw [List.filter_cons] at last
      split at last
      next first =>
        rw [List.filter_cons_of_neg (by simpa using second)] at last
        cases last
        have started : c.effectiveFrom ≤ d := by simpa using first
        have contains := (closed_ d).mpr ⟨started, noGap d given (not_le.mp second)⟩
        have chosen := scope''.chosen (List.mem_cons_self ..) contains fun r₀ member contains' => by
          rcases List.mem_cons.mp member with rfl | later
          · rfl
          · rw [List.mem_singleton.mp later] at contains'
            exact absurd ((open_ d).mp contains') second
        exact ⟨r, chosen, resolve_chosen chosen, kept⟩
      next =>
        rw [List.filter_cons_of_neg (by simpa using second)] at last
        cases last

/-- Between a rate and the one that supersedes it lies the time of the day before, with no rate in force. -/
theorem gap_unresolved {c c' : RateChange} {dates : Date → Prop} (unrated : Unrated s product agent)
    (increasing : c.effectiveFrom < c'.effectiveFrom) (given : dates (c'.effectiveFrom - 1))
    (kept : HistoryKept s product agent [c, c'] dates) : False := by
  obtain ⟨s', run⟩ := kept.succeeds 0 c rfl
  obtain ⟨s'', run'⟩ := kept.succeeds 1 c' rfl
  have ran : s.after (c.call product agent) = s' := after_of_run run
  have run'' : (c'.call product agent).run s' = .ok s'' := by
    rw [← ran]
    exact run'
  have ran' : s'.after (c'.call product agent) = s'' := after_of_run run''
  obtain ⟨r, r', scope, stored, stop, stored', _⟩ := two_changes unrated increasing run run''
  have last : ([c, c'].filter fun x => x.effectiveFrom ≤ c'.effectiveFrom - 1).getLast? = some c := by
    have first : c.effectiveFrom ≤ c'.effectiveFrom - 1 := Int.le_sub_one_of_lt increasing
    have second : ¬c'.effectiveFrom ≤ c'.effectiveFrom - 1 := by
      rw [not_le]
      exact Int.sub_lt_self _ Int.one_pos
    rw [List.filter_cons_of_pos (by simpa using first), List.filter_cons_of_neg (by simp)]
    rfl
  obtain ⟨chosen, held, _, row⟩ := kept.resolves _ given c last
  have state : s.afterAll ([c, c'].map (RateChange.call product agent)) = s'' := by
    show (s.after (c.call product agent)).after (c'.call product agent) = s''
    rw [ran, ran']
  rw [state] at held
  obtain ⟨member, contains⟩ := chosen_mem held
  obtain ⟨others, rows, outside, _⟩ := scope
  rw [rows] at member
  rcases List.mem_append.mp member with other | row_
  · exact outside chosen other ⟨row.product, by rw [row.agent]⟩
  · rcases List.mem_cons.mp row_ with rfl | second
    · have ended := contains.2 _ stop
      have long : (1 : Int) < day := by decide
      linarith
    · have start := row.start
      rw [List.mem_singleton.mp second, stored'.start] at start
      linarith

/-- In whole days a history of at most two changes is kept, and no longer one; by the time of day not even two. -/
theorem rate_history_kept_iff (s : Schema) (product : String) (agent : Option Int) (changes : List RateChange)
    (unrated : Unrated s product agent) (increasing : changes.Pairwise fun c c' => c.effectiveFrom < c'.effectiveFrom) :
    ((∀ c ∈ changes, day ∣ c.effectiveFrom) → (HistoryKept s product agent changes (day ∣ ·) ↔
      (∀ c ∈ changes, c.Acceptable s product agent) ∧ changes.length ≤ 2)) ∧
    (HistoryKept s product agent changes (fun _ => True) ↔
      (∀ c ∈ changes, c.Acceptable s product agent) ∧ changes.length ≤ 1) := by
  have bounded : ∀ dates, HistoryKept s product agent changes dates →
      (∀ c ∈ changes, c.Acceptable s product agent) ∧ changes.length ≤ 2 := by
    intro dates kept
    exact changes_bounded (unrated_scope unrated) (fun _ member => nomatch member) increasing kept.succeeds
  constructor
  · intro wholeDays
    refine ⟨bounded _, ?_⟩
    rintro ⟨acceptable, few⟩
    match changes, few with
    | [], _ => exact kept_nil
    | [c], _ => exact kept_one unrated (acceptable c (by simp))
    | [c, c'], _ =>
      have less : c.effectiveFrom < c'.effectiveFrom := (List.pairwise_cons.mp increasing).1 c' (by simp)
      have apart : ∀ d, day ∣ d → d < c'.effectiveFrom → d ≤ c'.effectiveFrom - day := by
        intro d whole before
        obtain ⟨m, rfl⟩ := whole
        obtain ⟨n, hn⟩ := wholeDays c' (by simp)
        have unit : day = 86400 := rfl
        rw [unit] at hn before ⊢
        omega
      exact kept_two unrated (acceptable c (by simp)) (acceptable c' (by simp))
        (apart c.effectiveFrom (wholeDays c (by simp)) less) apart
    | _ :: _ :: _ :: _, few => simp at few
  · constructor
    · intro kept
      obtain ⟨acceptable, few⟩ := bounded _ kept
      refine ⟨acceptable, ?_⟩
      match changes, few with
      | [], _ => simp
      | [c], _ => simp
      | [c, c'], _ =>
        have less : c.effectiveFrom < c'.effectiveFrom := (List.pairwise_cons.mp increasing).1 c' (by simp)
        exact (gap_unresolved unrated less trivial kept).elim
      | _ :: _ :: _ :: _, few => simp at few
    · rintro ⟨acceptable, few⟩
      match changes, few with
      | [], _ => exact kept_nil
      | [c], _ => exact kept_one unrated (acceptable c (by simp))
      | _ :: _ :: _, few => simp at few

theorem two_changes_kept : HistoryKept autoSchema "AUTO-STD" none
    [⟨some 8, 0, "ops"⟩, ⟨some 9, 50 * day, "ops"⟩] (day ∣ ·) := by
  have acceptable : ∀ pct : ℚ, pct = 8 ∨ pct = 9 → ∀ start, RateChange.Acceptable autoSchema "AUTO-STD" none
      ⟨some pct, start, "ops"⟩ := by
    intro pct rate start
    have actor : "ops" ≠ "" ∧ "ops".utf8ByteSize ≤ 64 := by decide
    refine ⟨⟨pct, rfl, ?_⟩, by decide, rfl, actor⟩
    rcases rate with rfl | rfl
    · decide +kernel
    · decide +kernel
  refine ((rate_history_kept_iff autoSchema "AUTO-STD" none _ (fun _ member => nomatch member) (by decide)).1 ?_).mpr ?_
  · decide
  · refine ⟨?_, by decide⟩
    intro c member
    rcases List.mem_cons.mp member with rfl | later
    · exact acceptable 8 (Or.inl rfl) _
    · rw [List.mem_singleton.mp later]
      exact acceptable 9 (Or.inr rfl) _

/-- The third rate of a product would leave two closed ones, and the index takes only one. -/
theorem third_change_refused : ¬HistoryKept autoSchema "AUTO-STD" none
    [⟨some 8, 0, "ops"⟩, ⟨some 9, 50 * day, "ops"⟩, ⟨some 10, 100 * day, "ops"⟩] (day ∣ ·) := by
  intro kept
  obtain ⟨s', run⟩ := kept.succeeds 2 ⟨some 10, 100 * day, "ops"⟩ rfl
  have refused : ((RateChange.call "AUTO-STD" none ⟨some 10, 100 * day, "ops"⟩).run (autoSchema.afterAll
      ([⟨some 8, 0, "ops"⟩, ⟨some 9, 50 * day, "ops"⟩].map (RateChange.call "AUTO-STD" none)))).toOption = none := by
    decide +kernel
  have same := run ▸ refused
  cases same

end

end OtterWorks.Insurance
