import OtterWorks.Lib.Fallible
import OtterWorks.Lib.Rounding
import OtterWorks.Lib.Validity

namespace OtterWorks.Insurance

/-- An Oracle `DATE`, in seconds. -/
abbrev Date := Int

/-- `DATE - 1` goes back this far. -/
def day : Int := 86400

inductive AgentStatus
  | active
  | suspended
  | terminated
  deriving DecidableEq, Repr

structure Agent where
  agentId : Int
  status : AgentStatus
  deriving DecidableEq, Repr

inductive CommissionError
  | invalidRate (ratePct : Option ℚ)
  | unknownAgent (agent : Int)
  | inactiveAgent (agent : Int) (status : AgentStatus)
  | unknownProduct (product : String)
  | noRate (product : String) (agent : Option Int)
  | uxRatesOpen
  | ckRatesRange
  | ckRatesDates
  | notNull (column : String)
  | valueTooLarge (column : String)
  deriving DecidableEq, Repr

def CommissionError.sqlcode : CommissionError → Int
  | .invalidRate _ => -20001
  | .unknownAgent _ => -20002
  | .inactiveAgent .. => -20003
  | .unknownProduct _ => -20004
  | .noRate .. => -20007
  | .uxRatesOpen => -1
  | .ckRatesRange => -2290
  | .ckRatesDates => -2290
  | .notNull _ => -1400
  | .valueTooLarge _ => -12899

/-- A row of `commission_rates`, with its two checks. -/
structure CommissionRate where
  rateId : Nat
  productCode : String
  agentId : Option Int
  ratePct : ℚ
  effectiveFrom : Date
  effectiveTo : Option Date
  createdBy : String
  ckRatesRange : 0 < ratePct ∧ ratePct ≤ 50
  ckRatesDates : ∀ e ∈ effectiveTo, effectiveFrom ≤ e
  deriving DecidableEq

def CommissionRate.validity (r : CommissionRate) : Validity Date := ⟨r.effectiveFrom, r.effectiveTo⟩

/-- `NVL(agent_id, -1)`. -/
def nvl (agent : Option Int) : Int := agent.getD (-1)

/-- The key of `ux_rates_open`. Its last column is null for a closed rate, but a key with a column that is
not null is in the index, so closed rates of one scope exclude each other too. -/
def CommissionRate.openKey (r : CommissionRate) : String × Int × Option Nat :=
  (r.productCode, nvl r.agentId, if r.effectiveTo = none then some 0 else none)

def UxRatesOpen (rows : List CommissionRate) : Prop := (rows.map CommissionRate.openKey).Nodup

instance (rows : List CommissionRate) : Decidable (UxRatesOpen rows) := inferInstanceAs (Decidable (List.Nodup _))

theorem uxRatesOpen_nil : UxRatesOpen [] := List.Pairwise.nil

/-- The part of the schema that the rate procedures read and write. -/
structure Schema where
  products : List String
  agents : List Agent
  commissionRates : List CommissionRate
  uxRatesOpen : UxRatesOpen commissionRates
  nextRateId : Nat
  deriving DecidableEq

namespace Schema

/-- A statement that leaves these rows: the unique index is checked at its end. -/
def withRates (s : Schema) (rows : List CommissionRate) (nextRateId : Nat) : Except CommissionError Schema :=
  if h : UxRatesOpen rows then .ok ⟨s.products, s.agents, rows, h, nextRateId⟩ else .error .uxRatesOpen

def assertProduct (s : Schema) (product : String) : Except CommissionError Unit :=
  if product ∈ s.products then .ok () else .error (.unknownProduct product)

def assertActiveAgent (s : Schema) (agent : Int) : Except CommissionError Unit :=
  match s.agents.find? fun a => a.agentId = agent with
  | none => .error (.unknownAgent agent)
  | some a => if a.status = .active then .ok () else .error (.inactiveAgent agent a.status)

def assertAgent (s : Schema) (agent : Option Int) : Except CommissionError Unit :=
  match agent with
  | none => .ok ()
  | some agent => s.assertActiveAgent agent

end Schema

def assertRate (ratePct : Option ℚ) : Except CommissionError ℚ :=
  match ratePct with
  | none => .error (.invalidRate none)
  | some pct => if pct ≤ 0 ∨ 50 < pct then .error (.invalidRate (some pct)) else .ok pct

/-- `p_actor` as a `VARCHAR2(64) NOT NULL` column takes it; the empty string is null. -/
def checkActor (column actor : String) : Except CommissionError Unit :=
  if actor = "" then .error (.notNull column)
  else if 64 < actor.utf8ByteSize then .error (.valueTooLarge column)
  else .ok ()

namespace CommissionRate

def inScope (product : String) (agent : Option Int) (r : CommissionRate) : Bool :=
  r.productCode = product ∧ nvl r.agentId = nvl agent ∧ r.effectiveTo = none

/-- Amended in place: an open rate that already starts on `p_effective_from`. -/
def amends (product : String) (agent : Option Int) (effectiveFrom : Option Date) (r : CommissionRate) : Bool :=
  r.inScope product agent ∧ some r.effectiveFrom = effectiveFrom

/-- Superseded: an open rate that starts before `p_effective_from`. -/
def supersedes (product : String) (agent : Option Int) (effectiveFrom : Date) (r : CommissionRate) : Bool :=
  r.inScope product agent ∧ r.effectiveFrom < effectiveFrom

def setRate (pct : ℚ) (actor : String) (r : CommissionRate) : Except CommissionError CommissionRate :=
  if h : 0 < pct ∧ pct ≤ 50 then .ok { r with ratePct := pct, createdBy := actor, ckRatesRange := h }
  else .error .ckRatesRange

def setEffectiveTo (effectiveTo : Option Date) (r : CommissionRate) : Except CommissionError CommissionRate :=
  if h : ∀ e ∈ effectiveTo, r.effectiveFrom ≤ e then
    .ok { r with effectiveTo := effectiveTo, ckRatesDates := h }
  else .error .ckRatesDates

end CommissionRate

/-- `UPDATE commission_rates SET .. WHERE ..`, row by row. -/
def updateRates (set : CommissionRate → Except CommissionError CommissionRate) (matching : CommissionRate → Bool)
    (rows : List CommissionRate) : Except CommissionError (List CommissionRate) :=
  rows.mapM fun r => if matching r then set r else .ok r

def newRate (s : Schema) (product : String) (agent : Option Int) (pct : ℚ) (effectiveFrom : Date) (actor : String) :
    Except CommissionError CommissionRate :=
  checkActor "created_by" actor *>
    if h : 0 < pct ∧ pct ≤ 50 then
      .ok ⟨s.nextRateId, product, agent, pct, effectiveFrom, none, actor, h, by simp⟩
    else .error .ckRatesRange

/-- The first `UPDATE`, of a rate that starts on the same day. -/
def amendRate (product : String) (agent : Option Int) (pct : ℚ) (effectiveFrom : Option Date) (actor : String)
    (s : Schema) : Except CommissionError Schema := do
  checkActor "created_by" actor
  let rows ← updateRates (CommissionRate.setRate pct actor) (CommissionRate.amends product agent effectiveFrom)
    s.commissionRates
  s.withRates rows s.nextRateId

/-- The second `UPDATE` and the `INSERT`. -/
def supersedeRate (product : String) (agent : Option Int) (pct : ℚ) (effectiveFrom : Date) (actor : String)
    (s : Schema) : Except CommissionError Schema := do
  let closed ← updateRates (CommissionRate.setEffectiveTo (some (effectiveFrom - day)))
    (CommissionRate.supersedes product agent effectiveFrom) s.commissionRates
  let s ← s.withRates closed s.nextRateId
  let rate ← newRate s product agent pct effectiveFrom actor
  s.withRates (s.commissionRates ++ [rate]) (s.nextRateId + 1)

/-- The statements of the upsert, with `rate_pct` as its NUMBER(5, 2) column takes it. -/
def putRate (product : String) (agent : Option Int) (pct : ℚ) (effectiveFrom : Option Date) (actor : String)
    (s : Schema) : Except CommissionError Schema :=
  if s.commissionRates.any (CommissionRate.amends product agent effectiveFrom) then
    amendRate product agent pct effectiveFrom actor s
  else
    match effectiveFrom with
    | none => .error (.notNull "effective_from")
    | some effectiveFrom => supersedeRate product agent pct effectiveFrom actor s

def upsertCommissionRate (product : String) (agent : Option Int) (ratePct : Option ℚ) (effectiveFrom : Option Date)
    (actor : String) (s : Schema) : Except CommissionError Schema := do
  let pct ← assertRate ratePct
  s.assertProduct product
  s.assertAgent agent
  putRate product agent (roundHalfAway 2 pct) effectiveFrom actor s

def endCommissionRate (product : String) (agent : Option Int) (effectiveTo : Option Date) (actor : String)
    (s : Schema) : Except CommissionError Schema := do
  let rows ← updateRates (CommissionRate.setEffectiveTo effectiveTo) (CommissionRate.inScope product agent)
    s.commissionRates
  let ended ← s.withRates rows s.nextRateId
  if s.commissionRates.any (CommissionRate.inScope product agent) then checkActor "actor" actor *> .ok ended
  else .error (.noRate product agent)

/-- The rows `resolve_rate` chooses from. -/
def resolveRows (product : String) (agent : Option Int) (asOf : Date) (s : Schema) : List CommissionRate :=
  s.commissionRates.filter fun r =>
    r.productCode = product ∧ (r.agentId = agent ∨ r.agentId = none) ∧ r.validity.Contains asOf

/-- `ORDER BY agent_id NULLS LAST, effective_from DESC`. -/
def resolveOrder (r r' : CommissionRate) : Bool :=
  if r.agentId.isSome = r'.agentId.isSome then r'.effectiveFrom ≤ r.effectiveFrom else r.agentId.isSome

def resolveRate (product : String) (agent : Option Int) (asOf : Date) (s : Schema) : Except CommissionError Nat :=
  match ((resolveRows product agent asOf s).mergeSort resolveOrder).head? with
  | some r => .ok r.rateId
  | none => .error (.noRate product agent)

inductive RateCall
  | upsert (product : String) (agent : Option Int) (ratePct : Option ℚ) (effectiveFrom : Option Date) (actor : String)
  | finish (product : String) (agent : Option Int) (effectiveTo : Option Date) (actor : String)
  deriving DecidableEq, Repr

def RateCall.run : RateCall → Schema → Except CommissionError Schema
  | .upsert product agent ratePct effectiveFrom actor => upsertCommissionRate product agent ratePct effectiveFrom actor
  | .finish product agent effectiveTo actor => endCommissionRate product agent effectiveTo actor

/-- A call that raises rolls back. -/
def Schema.after (s : Schema) (call : RateCall) : Schema :=
  match call.run s with
  | .ok s' => s'
  | .error _ => s

def Schema.afterAll (s : Schema) (calls : List RateCall) : Schema := calls.foldl Schema.after s

end OtterWorks.Insurance
