import Mathlib.Algebra.Order.Field.Basic
import Mathlib.Tactic.Linarith
import Mathlib.Tactic.Ring

namespace OtterWorks

section Refill

variable {K : Type*} [Field K] [LinearOrder K]

/-- What a bucket holds some time after it held `tokens`. -/
def refilled (capacity rate tokens elapsed : K) : K := min capacity (tokens + elapsed * rate)

variable {capacity rate tokens elapsed more : K}

theorem refilled_le : refilled capacity rate tokens elapsed ≤ capacity := min_le_left _ _

theorem refilled_le_add : refilled capacity rate tokens elapsed ≤ tokens + elapsed * rate := min_le_right _ _

theorem refilled_zero (held : tokens ≤ capacity) : refilled capacity rate tokens 0 = tokens := by
  unfold refilled
  rw [zero_mul, add_zero, min_eq_right held]

theorem refilled_full (full : capacity ≤ tokens + elapsed * rate) :
    refilled capacity rate tokens elapsed = capacity := min_eq_left full

variable [IsStrictOrderedRing K]

/-- It makes no difference in how many steps a bucket is refilled. -/
theorem refilled_refilled (rate_nonneg : 0 ≤ rate) (more_nonneg : 0 ≤ more) :
    refilled capacity rate (refilled capacity rate tokens elapsed) more =
      refilled capacity rate tokens (elapsed + more) := by
  have gain : 0 ≤ more * rate := mul_nonneg more_nonneg rate_nonneg
  have split : tokens + (elapsed + more) * rate = tokens + elapsed * rate + more * rate := by ring
  unfold refilled
  rw [split]
  rcases le_total capacity (tokens + elapsed * rate) with full | short
  · rw [min_eq_left full, min_eq_left (by linarith), min_eq_left (by linarith)]
  · rw [min_eq_right short]

theorem refilled_mono {fewer : K} (le : fewer ≤ tokens) :
    refilled capacity rate fewer elapsed ≤ refilled capacity rate tokens elapsed :=
  min_le_min_left capacity (by linarith)

theorem le_refilled (held : tokens ≤ capacity) (rate_nonneg : 0 ≤ rate) (nonneg : 0 ≤ elapsed) :
    tokens ≤ refilled capacity rate tokens elapsed := by
  have gain : 0 ≤ elapsed * rate := mul_nonneg nonneg rate_nonneg
  exact le_min held (by linarith)

end Refill

section Admitted

variable {K σ ε : Type*} [LinearOrder K] {step : σ → ε → σ} {time : ε → K} {admits : σ → ε → Prop}

/-- The admitted events of a run in a window of time. -/
def admittedIn (step : σ → ε → σ) (time : ε → K) (admits : σ → ε → Prop) [∀ x e, Decidable (admits x e)] (s t : K) :
    σ → List ε → Nat
  | _, [] => 0
  | x, e :: es => (if admits x e ∧ s ≤ time e ∧ time e ≤ t then 1 else 0) +
      admittedIn step time admits s t (step x e) es

variable [∀ x e, Decidable (admits x e)] {s t now : K} {x : σ} {es : List ε}

theorem admittedIn_past (ordered : (now :: es.map time).Pairwise (· ≤ ·)) (past : t < now) :
    admittedIn step time admits s t x es = 0 := by
  induction es generalizing x with
  | nil => rfl
  | cons e es ih =>
    rw [List.map_cons, List.pairwise_cons] at ordered
    obtain ⟨from_, rest⟩ := ordered
    have le : now ≤ time e := from_ _ (by simp)
    have outside : ¬(admits x e ∧ s ≤ time e ∧ time e ≤ t) := by
      rintro ⟨_, _, inside⟩
      exact absurd (lt_of_lt_of_le past le) (not_lt.mpr inside)
    rw [List.pairwise_cons] at rest
    have tail : (now :: es.map time).Pairwise (· ≤ ·) := by
      refine List.pairwise_cons.mpr ⟨fun u member => from_ u (by simp [member]), rest.2⟩
    rw [admittedIn, if_neg outside, ih tail]

end Admitted

section Window

variable {K σ ε : Type*} [Field K] [LinearOrder K] [IsStrictOrderedRing K] {step : σ → ε → σ} {time : ε → K} {admits : σ → ε → Prop} {level : σ → K → K}
  {inv : σ → K → Prop} {rate : K} [∀ x e, Decidable (admits x e)] {s t now : K} {x : σ} {es : List ε}

/-- A level that waiting raises at most at the rate, that no event raises and that an admitted event lowers by one. -/
structure PaysByLevel (step : σ → ε → σ) (time : ε → K) (admits : σ → ε → Prop) (level : σ → K → K)
    (inv : σ → K → Prop) (rate : K) : Prop where
  later : ∀ {x now then_}, inv x now → now ≤ then_ → inv x then_
  after : ∀ {x e}, inv x (time e) → inv (step x e) (time e)
  nonneg : ∀ {x now}, inv x now → 0 ≤ level x now
  raised : ∀ {x now then_}, inv x now → now ≤ then_ → level x then_ ≤ level x now + (then_ - now) * rate
  lowered : ∀ {x e then_}, inv x (time e) → time e ≤ then_ → level (step x e) then_ ≤ level x then_
  paid : ∀ {x e}, inv x (time e) → admits x e → level (step x e) (time e) + 1 ≤ level x (time e)

/-- A run admits in a window what the level at its start and the refill meanwhile pay for. -/
theorem PaysByLevel.admittedIn_le (pays : PaysByLevel step time admits level inv rate) (rate_nonneg : 0 ≤ rate)
    (ordered : (now :: es.map time).Pairwise (· ≤ ·)) (sound : inv x now) (inside : max now s ≤ t) :
    (admittedIn step time admits s t x es : K) ≤ level x (max now s) + (t - max now s) * rate := by
  induction es generalizing x now with
  | nil =>
    have level_nonneg := pays.nonneg (pays.later sound (le_max_left now s))
    have gain : 0 ≤ (t - max now s) * rate := mul_nonneg (by linarith) rate_nonneg
    rw [admittedIn, Nat.cast_zero]
    linarith
  | cons e es ih =>
    rw [List.map_cons, List.pairwise_cons] at ordered
    obtain ⟨from_, rest⟩ := ordered
    have le : now ≤ time e := from_ _ (by simp)
    have here : inv x (time e) := pays.later sound le
    by_cases past : t < time e
    · -- the event and all later ones are past the window
      have outside : ¬(admits x e ∧ s ≤ time e ∧ time e ≤ t) := by
        rintro ⟨_, _, before⟩
        exact absurd past (not_lt.mpr before)
      have level_nonneg := pays.nonneg (pays.later sound (le_max_left now s))
      have gain : 0 ≤ (t - max now s) * rate := mul_nonneg (by linarith) rate_nonneg
      rw [admittedIn, if_neg outside, admittedIn_past rest past, Nat.cast_zero]
      linarith
    · have before : time e ≤ t := not_lt.mp past
      have ordered_max : max now s ≤ max (time e) s := max_le_max_right s le
      have inside' : max (time e) s ≤ t := max_le before (le_trans (le_max_right now s) inside)
      have bound := ih rest (pays.after here) inside'
      have lowered := pays.lowered here (le_max_left (time e) s)
      have raised := pays.raised (pays.later sound (le_max_left now s)) ordered_max
      have waited : (t - max now s) * rate =
          (max (time e) s - max now s) * rate + (t - max (time e) s) * rate := by ring
      rw [admittedIn]
      split
      next admitted =>
        obtain ⟨granted, after_start, _⟩ := admitted
        have paid := pays.paid here granted
        rw [max_eq_left after_start] at bound raised waited
        push_cast
        linarith
      next =>
        rw [zero_add]
        linarith

end Window

end OtterWorks
