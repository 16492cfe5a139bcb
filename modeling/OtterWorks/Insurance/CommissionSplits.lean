import OtterWorks.Insurance.Commission

namespace OtterWorks.Insurance

/-- `split_alloc_t` -/
structure SplitAlloc where
  agentId : Option Int
  splitPct : Option ℚ
  deriving DecidableEq, Repr

inductive SplitError
  | unknownPolicy (policy : Int)
  | noSplits
  | duplicateAgent
  | badPct (agent : Option Int)
  | agent (e : CommissionError)
  | unknownAgent
  | badTotal (total : ℚ)
  | ckSplitsRange
  | uxSplitsPolicyAgent
  | notNull (column : String)
  | actor (e : CommissionError)
  deriving DecidableEq, Repr

def SplitError.sqlcode : SplitError → Int
  | .unknownPolicy _ => -20005
  | .noSplits => -20006
  | .duplicateAgent => -20006
  | .badPct _ => -20006
  | .agent e => e.sqlcode
  | .unknownAgent => -20002
  | .badTotal _ => -20006
  | .ckSplitsRange => -2290
  | .uxSplitsPolicyAgent => -1
  | .notNull _ => -1400
  | .actor e => e.sqlcode

/-- A row of `commission_splits`: a `NUMBER(5, 2)` and its check. -/
structure CommissionSplit where
  splitId : Nat
  policyId : Int
  agentId : Int
  splitPct : ℚ
  twoDigits : HasDigits 2 splitPct
  ckSplitsRange : 0 < splitPct ∧ splitPct ≤ 100

def UxSplitsPolicyAgent (rows : List CommissionSplit) : Prop := (rows.map fun r => (r.policyId, r.agentId)).Nodup

instance (rows : List CommissionSplit) : Decidable (UxSplitsPolicyAgent rows) := inferInstanceAs (Decidable (List.Nodup _))

/-- The part of the schema that the split procedure reads and writes; `rates` has the agents. -/
structure SplitSchema where
  rates : Schema
  policies : List Int
  commissionSplits : List CommissionSplit
  uxSplitsPolicyAgent : UxSplitsPolicyAgent commissionSplits
  nextSplitId : Nat

namespace SplitSchema

def splitsOf (s : SplitSchema) (policy : Int) : List CommissionSplit := s.commissionSplits.filter (·.policyId = policy)

def percentages (s : SplitSchema) (policy : Int) : List ℚ := (s.splitsOf policy).map CommissionSplit.splitPct

def assertPolicy (s : SplitSchema) (policy : Int) : Except SplitError Unit :=
  if policy ∈ s.policies then .ok () else .error (.unknownPolicy policy)

/-- `assert_active_agent`; no agent has the id null. -/
def assertActiveAgent (s : SplitSchema) (agent : Option Int) : Except SplitError Unit :=
  match agent with
  | none => .error .unknownAgent
  | some agent => (s.rates.assertActiveAgent agent).mapError .agent

/-- One turn of the first loop. -/
def addSplit (plus : ℚ → ℚ → ℚ) (s : SplitSchema) (total : ℚ) (split : SplitAlloc) : Except SplitError ℚ :=
  match split.splitPct with
  | none => .error (.badPct split.agentId)
  | some pct =>
    if pct ≤ 0 ∨ 100 < pct then .error (.badPct split.agentId)
    else (s.assertActiveAgent split.agentId).map fun _ => plus total pct

/-- `DELETE FROM commission_splits WHERE policy_id = p_policy_id` -/
def deleteSplits (s : SplitSchema) (policy : Int) : SplitSchema :=
  { s with
    commissionSplits := s.commissionSplits.filter fun r => ¬r.policyId = policy
    uxSplitsPolicyAgent := s.uxSplitsPolicyAgent.sublist (List.filter_sublist.map _) }

/-- One turn of the second loop: the column rounds what it is given. -/
def insertSplit (policy : Int) (s : SplitSchema) (split : SplitAlloc) : Except SplitError SplitSchema :=
  match split.agentId, split.splitPct with
  | none, _ => .error (.notNull "agent_id")
  | some _, none => .error (.notNull "split_pct")
  | some agent, some pct =>
    if range : 0 < roundHalfAway 2 pct ∧ roundHalfAway 2 pct ≤ 100 then
      let rows := s.commissionSplits ++ [⟨s.nextSplitId, policy, agent, roundHalfAway 2 pct, hasDigits_round 2 pct, range⟩]
      if unique : UxSplitsPolicyAgent rows then .ok ⟨s.rates, s.policies, rows, unique, s.nextSplitId + 1⟩
      else .error .uxSplitsPolicyAgent
    else .error .ckSplitsRange

end SplitSchema

def givenSplits (splits : Option (List SplitAlloc)) : Except SplitError (List SplitAlloc) :=
  match splits with
  | none => .error .noSplits
  | some [] => .error .noSplits
  | some splits => .ok splits

/-- `COUNT(DISTINCT s.agent_id)` passes over nulls. -/
def assertDistinct (splits : List SplitAlloc) : Except SplitError Unit :=
  if (splits.filterMap SplitAlloc.agentId).dedup.length ≠ splits.length then .error .duplicateAgent else .ok ()

def assertTotal (total : ℚ) : Except SplitError Unit := if total ≠ 100 then .error (.badTotal total) else .ok ()

/-- `plus` is the addition of `NUMBER`, which keeps some forty digits. -/
def setCommissionSplits (plus : ℚ → ℚ → ℚ) (policy : Int) (splits : Option (List SplitAlloc)) (actor : String)
    (s : SplitSchema) : Except SplitError SplitSchema := do
  s.assertPolicy policy
  let splits ← givenSplits splits
  assertDistinct splits
  let total ← splits.foldlM (s.addSplit plus) 0
  assertTotal total
  let replaced ← splits.foldlM (SplitSchema.insertSplit policy) (s.deleteSplits policy)
  (checkActor "actor" actor).mapError .actor
  .ok replaced

/-- A call that raises rolls back. -/
def SplitSchema.afterSplits (plus : ℚ → ℚ → ℚ) (policy : Int) (splits : Option (List SplitAlloc)) (actor : String)
    (s : SplitSchema) : SplitSchema :=
  match setCommissionSplits plus policy splits actor s with
  | .ok s' => s'
  | .error _ => s

/-- The percentages that are rounded up are as many as their whole hundredths leave open to one hundred percent. -/
def Closes (splits : List SplitAlloc) : Prop :=
  ((splits.filterMap SplitAlloc.splitPct).countP fun pct => 1 / 2 ≤ Int.fract (pct * 10 ^ 2) : ℤ) =
    10000 - ((splits.filterMap SplitAlloc.splitPct).map fun pct => ⌊pct * 10 ^ 2⌋).sum

instance (splits : List SplitAlloc) : Decidable (Closes splits) := inferInstanceAs (Decidable (_ = _))

section

variable {plus : ℚ → ℚ → ℚ} {s s' : SplitSchema} {policy other : Int} {split : SplitAlloc} {splits : List SplitAlloc}
  {actor : String}

theorem insertSplit_ok (h : s.insertSplit policy split = .ok s') : ∃ agent pct row, split.agentId = some agent ∧
    split.splitPct = some pct ∧ s'.commissionSplits = s.commissionSplits ++ [row] ∧ row.policyId = policy ∧
      row.splitPct = roundHalfAway 2 pct := by
  unfold SplitSchema.insertSplit at h
  split at h
  next => cases h
  next => cases h
  next agent pct named given =>
    split at h
    next range =>
      dsimp only at h
      split at h
      next unique =>
        cases Except.ok.inj h
        exact ⟨agent, pct, _, named, given, rfl, rfl, rfl⟩
      next => cases h
    next => cases h

/-- The second loop appends the rounded percentages to the policy's and leaves all others. -/
theorem insertSplits_ok (h : splits.foldlM (SplitSchema.insertSplit policy) s = .ok s') :
    s'.percentages policy = s.percentages policy ++ (splits.filterMap SplitAlloc.splitPct).map (roundHalfAway 2) ∧
      ∀ other ≠ policy, s'.splitsOf other = s.splitsOf other := by
  induction splits generalizing s with
  | nil =>
    cases Except.ok.inj h
    refine ⟨?_, fun _ _ => rfl⟩
    rw [List.filterMap_nil, List.map_nil, List.append_nil]
  | cons split splits ih =>
    rw [List.foldlM_cons] at h
    obtain ⟨mid, inserted, rest⟩ := bind_ok h
    obtain ⟨agent, pct, row, _, given, rows, mine, rounded⟩ := insertSplit_ok inserted
    obtain ⟨added, others⟩ := ih rest
    constructor
    · have here : mid.percentages policy = s.percentages policy ++ [roundHalfAway 2 pct] := by
        unfold SplitSchema.percentages SplitSchema.splitsOf
        rw [rows, List.filter_append, List.filter_cons_of_pos (by simpa using mine), List.map_append]
        rw [← rounded]
        rfl
      rw [added, here, List.filterMap_cons_some given, List.map_cons, List.append_assoc]
      rfl
    · intro other apart
      have here : mid.splitsOf other = s.splitsOf other := by
        unfold SplitSchema.splitsOf
        rw [rows, List.filter_append, List.filter_cons_of_neg (by simpa [mine] using apart.symm), List.filter_nil,
          List.append_nil]
      rw [others other apart, here]

theorem deleteSplits_percentages : (s.deleteSplits policy).percentages policy = [] := by
  unfold SplitSchema.percentages SplitSchema.splitsOf SplitSchema.deleteSplits
  rw [List.filter_filter, List.map_eq_nil_iff, List.filter_eq_nil_iff]
  intro r _
  simp

theorem deleteSplits_other (apart : other ≠ policy) : (s.deleteSplits policy).splitsOf other = s.splitsOf other := by
  unfold SplitSchema.splitsOf SplitSchema.deleteSplits
  rw [List.filter_filter]
  apply List.filter_congr
  intro r _
  by_cases mine : r.policyId = other
  · simp [mine, apart]
  · simp [mine]

theorem addSplit_ok {total total' : ℚ} (h : s.addSplit plus total split = .ok total') :
    ∀ pct ∈ split.splitPct, 0 ≤ pct := by
  intro pct given
  unfold SplitSchema.addSplit at h
  rw [Option.mem_def.mp given] at h
  dsimp only at h
  split at h
  next => cases h
  next inRange =>
    rw [not_or, not_le, not_lt] at inRange
    exact le_of_lt inRange.1

theorem addSplits_ok {total total' : ℚ} (h : splits.foldlM (s.addSplit plus) total = .ok total') :
    ∀ pct ∈ splits.filterMap SplitAlloc.splitPct, 0 ≤ pct := by
  induction splits generalizing total with
  | nil => exact fun _ member => nomatch member
  | cons split splits ih =>
    rw [List.foldlM_cons] at h
    obtain ⟨mid, added, rest⟩ := bind_ok h
    intro pct member
    obtain ⟨from_, held, given⟩ := List.mem_filterMap.mp member
    rcases List.mem_cons.mp held with rfl | later
    · exact addSplit_ok added pct given
    · exact ih rest pct (List.mem_filterMap.mpr ⟨from_, later, given⟩)

/-- What an accepted call stores. -/
theorem setCommissionSplits_ok (h : setCommissionSplits plus policy (some splits) actor s = .ok s') :
    s'.percentages policy = (splits.filterMap SplitAlloc.splitPct).map (roundHalfAway 2) ∧
      (∀ pct ∈ splits.filterMap SplitAlloc.splitPct, 0 ≤ pct) ∧ ∀ other ≠ policy, s'.splitsOf other = s.splitsOf other := by
  obtain ⟨_, _, h⟩ := bind_ok h
  obtain ⟨given, taken, h⟩ := bind_ok h
  obtain ⟨_, _, h⟩ := bind_ok h
  obtain ⟨total, added, h⟩ := bind_ok h
  obtain ⟨_, _, h⟩ := bind_ok h
  obtain ⟨replaced, inserted, h⟩ := bind_ok h
  obtain ⟨_, _, h⟩ := bind_ok h
  cases Except.ok.inj h
  have same : given = splits := by
    unfold givenSplits at taken
    split at taken
    next => cases taken
    next => cases taken
    next here =>
      cases here
      exact (Except.ok.inj taken).symm
  subst same
  obtain ⟨stored, others⟩ := insertSplits_ok inserted
  refine ⟨?_, addSplits_ok added, ?_⟩
  · rw [stored, deleteSplits_percentages, List.nil_append]
  · intro other apart
    rw [others other apart, deleteSplits_other apart]

/-- The stored percentages of an accepted call sum to one hundred exactly if the roundings close the sum; the other
policies keep theirs, and a rejected call changes none. -/
theorem splits_total_iff (plus : ℚ → ℚ → ℚ) (policy : Int) (splits : Option (List SplitAlloc)) (actor : String)
    (s : SplitSchema) :
    (∀ s', setCommissionSplits plus policy splits actor s = .ok s' →
      ((s'.percentages policy).sum = 100 ↔ Closes (splits.getD [])) ∧
        ∀ other ≠ policy, s'.splitsOf other = s.splitsOf other) ∧
    ∀ e, setCommissionSplits plus policy splits actor s = .error e → s.afterSplits plus policy splits actor = s := by
  constructor
  · intro s' accepted
    cases splits with
    | none =>
      obtain ⟨_, _, accepted⟩ := bind_ok accepted
      obtain ⟨_, none_, _⟩ := bind_ok accepted
      cases none_
    | some splits =>
      obtain ⟨stored, nonneg, others⟩ := setCommissionSplits_ok accepted
      refine ⟨?_, others⟩
      rw [stored, sum_roundHalfAway nonneg, Option.getD_some, Closes, div_eq_iff (by norm_num)]
      constructor
      · intro total
        have whole : ((splits.filterMap SplitAlloc.splitPct).map fun pct => ⌊pct * 10 ^ 2⌋).sum +
            ((splits.filterMap SplitAlloc.splitPct).countP fun pct => 1 / 2 ≤ Int.fract (pct * 10 ^ 2) : ℤ) = 10000 := by
          have cast : (100 : ℚ) * 10 ^ 2 = ((10000 : ℤ) : ℚ) := by norm_num
          rw [cast] at total
          exact_mod_cast total
        omega
      · intro closes
        rw [closes]
        push_cast
        ring
  · intro e rejected
    unfold SplitSchema.afterSplits
    rw [rejected]

def officeSchema : SplitSchema :=
  ⟨⟨["AUTO-STD"], [⟨1, .active⟩, ⟨2, .active⟩, ⟨3, .active⟩], [], uxRatesOpen_nil, 1⟩, [7], [], by decide, 1⟩

def shares (pcts : List ℚ) : List SplitAlloc := pcts.zipIdx.map fun p => ⟨some (p.2 + 1), some p.1⟩

theorem halves_total : ∃ s',
    setCommissionSplits (· + ·) 7 (some (shares [50333 / 1000, 49667 / 1000])) "ops" officeSchema = .ok s' ∧
      (s'.percentages 7).sum = 100 := by
  have accepted : (setCommissionSplits (· + ·) 7 (some (shares [50333 / 1000, 49667 / 1000])) "ops"
      officeSchema).toOption.isSome = true := by decide +kernel
  cases run : setCommissionSplits (· + ·) 7 (some (shares [50333 / 1000, 49667 / 1000])) "ops" officeSchema with
  | error e =>
    rw [run] at accepted
    cases accepted
  | ok s' =>
    have total := ((splits_total_iff (· + ·) 7 (some (shares [50333 / 1000, 49667 / 1000])) "ops" officeSchema).1 s' run).1
    exact ⟨s', rfl, total.mpr (by decide +kernel)⟩

/-- Three agents share alike, and a hundredth is lost. -/
theorem thirds_lose_a_hundredth : ∃ s',
    setCommissionSplits (· + ·) 7 (some (shares [33333 / 1000, 33333 / 1000, 33334 / 1000])) "ops" officeSchema = .ok s' ∧
      (s'.percentages 7).sum = 9999 / 100 ∧ (s'.percentages 7).sum ≠ 100 := by
  have stored : (setCommissionSplits (· + ·) 7 (some (shares [33333 / 1000, 33333 / 1000, 33334 / 1000])) "ops"
      officeSchema).toOption.map (fun s' => (s'.percentages 7).sum) = some (9999 / 100) := by decide +kernel
  cases run : setCommissionSplits (· + ·) 7 (some (shares [33333 / 1000, 33333 / 1000, 33334 / 1000])) "ops" officeSchema with
  | error e =>
    rw [run] at stored
    cases stored
  | ok s' =>
    rw [run] at stored
    have sum : (s'.percentages 7).sum = 9999 / 100 := Option.some.inj stored
    refine ⟨s', rfl, sum, ?_⟩
    rw [sum]
    norm_num

end

end OtterWorks.Insurance
