import Mathlib.Algebra.Order.Round
import Mathlib.Data.Rat.Floor
import Mathlib.Tactic.Positivity
import Mathlib.Tactic.Linarith

namespace OtterWorks

/-- The nearest multiple of `10 ^ -digits`, ties away from zero: `ROUND(x, digits)` of the SQL databases. -/
def roundHalfAway (digits : Nat) (x : ℚ) : ℚ :=
  let scaled := x * 10 ^ digits
  (if 0 ≤ scaled then (⌊scaled + 1 / 2⌋ : ℚ) else -(⌊-scaled + 1 / 2⌋ : ℚ)) / 10 ^ digits

theorem roundHalfAway_zero (digits : Nat) : roundHalfAway digits 0 = 0 := by
  have half : ⌊(1 / 2 : ℚ)⌋ = 0 := by norm_num
  simp only [roundHalfAway, zero_mul, le_refl, if_true, zero_add, half]
  simp

theorem roundHalfAway_exact (digits : Nat) (n : Int) :
    roundHalfAway digits ((n : ℚ) / 10 ^ digits) = (n : ℚ) / 10 ^ digits := by
  have pow : (10 : ℚ) ^ digits ≠ 0 := by positivity
  have floor : ∀ m : Int, ⌊(m : ℚ) + 1 / 2⌋ = m := by
    intro m
    rw [Int.floor_intCast_add]
    norm_num
  unfold roundHalfAway
  simp only [div_mul_cancel₀ _ pow]
  congr 1
  split
  · rw [floor]
  · have neg : -(n : ℚ) = ((-n : Int) : ℚ) := by push_cast; rfl
    rw [neg, floor]
    push_cast
    ring

/-- A decimal with this many digits after the point. -/
def HasDigits (digits : Nat) (x : ℚ) : Prop := roundHalfAway digits x = x

instance (digits : Nat) (x : ℚ) : Decidable (HasDigits digits x) := inferInstanceAs (Decidable (_ = _))

theorem hasDigits_iff {digits : Nat} {x : ℚ} : HasDigits digits x ↔ ∃ n : Int, x = (n : ℚ) / 10 ^ digits := by
  constructor
  · intro h
    rw [← h]
    unfold roundHalfAway
    simp only
    split
    · exact ⟨_, rfl⟩
    · refine ⟨-⌊-(x * 10 ^ digits) + 1 / 2⌋, ?_⟩
      push_cast
      rfl
  · rintro ⟨n, rfl⟩
    exact roundHalfAway_exact digits n

theorem hasDigits_round (digits : Nat) (x : ℚ) : HasDigits digits (roundHalfAway digits x) := by
  rw [hasDigits_iff]
  unfold roundHalfAway
  simp only
  split
  · exact ⟨_, rfl⟩
  · refine ⟨-⌊-(x * 10 ^ digits) + 1 / 2⌋, ?_⟩
    push_cast
    rfl

namespace HasDigits

variable {digits : Nat} {x y : ℚ}

theorem zero : HasDigits digits 0 := roundHalfAway_zero digits

theorem add (hx : HasDigits digits x) (hy : HasDigits digits y) : HasDigits digits (x + y) := by
  obtain ⟨n, hn⟩ := hasDigits_iff.mp hx
  obtain ⟨m, hm⟩ := hasDigits_iff.mp hy
  refine hasDigits_iff.mpr ⟨n + m, ?_⟩
  rw [hn, hm]
  push_cast
  ring

theorem sub (hx : HasDigits digits x) (hy : HasDigits digits y) : HasDigits digits (x - y) := by
  obtain ⟨n, hn⟩ := hasDigits_iff.mp hx
  obtain ⟨m, hm⟩ := hasDigits_iff.mp hy
  refine hasDigits_iff.mpr ⟨n - m, ?_⟩
  rw [hn, hm]
  push_cast
  ring

theorem neg (hx : HasDigits digits x) : HasDigits digits (-x) := by
  have := zero.sub hx
  rwa [zero_sub] at this

theorem min (hx : HasDigits digits x) (hy : HasDigits digits y) : HasDigits digits (min x y) := by
  rcases min_choice x y with h | h
  · rwa [h]
  · rwa [h]

theorem max (hx : HasDigits digits x) (hy : HasDigits digits y) : HasDigits digits (max x y) := by
  rcases max_choice x y with h | h
  · rwa [h]
  · rwa [h]

theorem sum {l : List ℚ} (h : ∀ x ∈ l, HasDigits digits x) : HasDigits digits l.sum := by
  induction l with
  | nil => exact zero
  | cons x l ih =>
    rw [List.sum_cons]
    exact (h x (List.mem_cons_self ..)).add (ih fun y hy => h y (List.mem_cons_of_mem _ hy))

end HasDigits

theorem roundHalfAway_nonneg (digits : Nat) {x : ℚ} (h : 0 ≤ x) : 0 ≤ roundHalfAway digits x := by
  have scaled : 0 ≤ x * 10 ^ digits := by positivity
  have floor : 0 ≤ ⌊x * 10 ^ digits + 1 / 2⌋ := Int.floor_nonneg.mpr (by linarith)
  unfold roundHalfAway
  simp only [if_pos scaled]
  have : (0 : ℚ) ≤ (⌊x * 10 ^ digits + 1 / 2⌋ : ℚ) := by exact_mod_cast floor
  positivity

section

variable {digits : Nat} {x y : ℚ}

theorem roundHalfAway_of_nonneg (h : 0 ≤ x) : roundHalfAway digits x = (⌊x * 10 ^ digits + 1 / 2⌋ : ℚ) / 10 ^ digits := by
  have scaled : 0 ≤ x * 10 ^ digits := by positivity
  unfold roundHalfAway
  simp only [if_pos scaled]

/-- A part that has the digits already is not touched by rounding the sum. -/
theorem roundHalfAway_add (hx : HasDigits digits x) (hx0 : 0 ≤ x) (hy0 : 0 ≤ y) :
    roundHalfAway digits (x + y) = x + roundHalfAway digits y := by
  obtain ⟨n, hn⟩ := hasDigits_iff.mp hx
  have pow : (10 : ℚ) ^ digits ≠ 0 := by positivity
  have scaled : (x + y) * 10 ^ digits + 1 / 2 = (n : ℚ) + (y * 10 ^ digits + 1 / 2) := by
    rw [hn]
    field_simp
    ring
  rw [roundHalfAway_of_nonneg (by linarith), roundHalfAway_of_nonneg hy0, scaled, Int.floor_intCast_add, hn]
  push_cast
  ring

/-- What is left of a number, in units of the last digit, after whole pairs of them. -/
def pairRest (digits : Nat) (x : ℚ) : ℚ := x * 10 ^ digits - 2 * (⌊x * 10 ^ digits / 2⌋ : ℚ)

/-- The number rounds up while its halves round down. -/
def HalvesShort (digits : Nat) (x : ℚ) : Prop := 1 / 2 ≤ pairRest digits x ∧ pairRest digits x < 1

instance (digits : Nat) (x : ℚ) : Decidable (HalvesShort digits x) := inferInstanceAs (Decidable (_ ∧ _))

theorem pairRest_bounds (digits : Nat) (x : ℚ) : 0 ≤ pairRest digits x ∧ pairRest digits x < 2 := by
  have low := Int.floor_le (x * 10 ^ digits / 2)
  have high := Int.lt_floor_add_one (x * 10 ^ digits / 2)
  unfold pairRest
  constructor
  · linarith
  · linarith

theorem round_pairs (h : 0 ≤ x) {up down : Int}
    (whole : (up : ℚ) ≤ pairRest digits x + 1 / 2 ∧ pairRest digits x + 1 / 2 < up + 1)
    (half : (down : ℚ) ≤ pairRest digits x / 2 + 1 / 2 ∧ pairRest digits x / 2 + 1 / 2 < down + 1) :
    roundHalfAway digits x = 2 * roundHalfAway digits (x / 2) + (up - 2 * down : ℚ) / 10 ^ digits := by
  let k := ⌊x * 10 ^ digits / 2⌋
  have rest : x * 10 ^ digits = 2 * (k : ℚ) + pairRest digits x := by
    simp only [pairRest, k]
    ring
  have roundWhole : ⌊x * 10 ^ digits + 1 / 2⌋ = 2 * k + up := by
    rw [Int.floor_eq_iff, rest]
    push_cast
    exact ⟨by linarith [whole.1], by linarith [whole.2]⟩
  have roundHalf : ⌊x / 2 * 10 ^ digits + 1 / 2⌋ = k + down := by
    have halved : x / 2 * 10 ^ digits = (x * 10 ^ digits) / 2 := by ring
    rw [Int.floor_eq_iff, halved, rest]
    push_cast
    exact ⟨by linarith [half.1], by linarith [half.2]⟩
  rw [roundHalfAway_of_nonneg h, roundHalfAway_of_nonneg (by linarith), roundWhole, roundHalf]
  push_cast
  ring

theorem HalvesShort.round (short : HalvesShort digits x) (h : 0 ≤ x) :
    roundHalfAway digits x = 2 * roundHalfAway digits (x / 2) + 1 / 10 ^ digits := by
  obtain ⟨low, high⟩ := short
  have one := @round_pairs digits x h 1 0 ⟨by push_cast; linarith, by push_cast; linarith⟩
    ⟨by push_cast; linarith, by push_cast; linarith⟩
  rw [one]
  norm_num

theorem round_le_halves (enough : ¬ HalvesShort digits x) (h : 0 ≤ x) :
    roundHalfAway digits x ≤ 2 * roundHalfAway digits (x / 2) := by
  obtain ⟨low, high⟩ := pairRest_bounds digits x
  have unit : (0 : ℚ) < 1 / 10 ^ digits := by positivity
  rcases lt_or_ge (pairRest digits x) (1 / 2) with small | large
  · have none := @round_pairs digits x h 0 0 ⟨by push_cast; linarith, by push_cast; linarith⟩
      ⟨by push_cast; linarith, by push_cast; linarith⟩
    rw [none]
    norm_num
  · have past : 1 ≤ pairRest digits x := by
      by_contra below
      exact enough ⟨large, not_le.mp below⟩
    rcases lt_or_ge (pairRest digits x) (3 / 2) with middle | top
    · have one := @round_pairs digits x h 1 1 ⟨by push_cast; linarith, by push_cast; linarith⟩
        ⟨by push_cast; linarith, by push_cast; linarith⟩
      have below : ((1 : Int) - 2 * (1 : Int) : ℚ) / 10 ^ digits = -(1 / 10 ^ digits) := by
        push_cast
        ring
      rw [one, below]
      linarith
    · have two := @round_pairs digits x h 2 1 ⟨by push_cast; linarith, by push_cast; linarith⟩
        ⟨by push_cast; linarith, by push_cast; linarith⟩
      rw [two]
      norm_num

/-- Numbers with the digits differ by a whole unit of the last one. -/
theorem HasDigits.lt_iff (hx : HasDigits digits x) (hy : HasDigits digits y) : x < y + 1 / 10 ^ digits ↔ x ≤ y := by
  obtain ⟨n, hn⟩ := hasDigits_iff.mp hx
  obtain ⟨m, hm⟩ := hasDigits_iff.mp hy
  have pow : (0 : ℚ) < 10 ^ digits := by positivity
  rw [hn, hm, ← add_div, div_lt_div_iff_of_pos_right pow, div_le_div_iff_of_pos_right pow]
  exact_mod_cast Int.lt_add_one_iff

theorem floor_add_half (x : ℚ) : ⌊x + 1 / 2⌋ = ⌊x⌋ + if 1 / 2 ≤ Int.fract x then 1 else 0 := by
  have split := Int.floor_add_fract x
  have low := Int.fract_nonneg x
  have high := Int.fract_lt_one x
  rw [Int.floor_eq_iff]
  split
  next up =>
    push_cast
    constructor
    · linarith
    · linarith
  next down =>
    push_cast
    constructor
    · linarith
    · linarith

/-- Rounded numbers sum to their whole units and one unit for each that is rounded up. -/
theorem sum_roundHalfAway {l : List ℚ} (nonneg : ∀ x ∈ l, 0 ≤ x) : (l.map (roundHalfAway digits)).sum =
    (((l.map fun x => ⌊x * 10 ^ digits⌋).sum + (l.countP fun x => 1 / 2 ≤ Int.fract (x * 10 ^ digits) : ℤ) : ℤ) : ℚ) /
      10 ^ digits := by
  induction l with
  | nil => simp
  | cons x l ih =>
    have rest := ih fun y member => nonneg y (List.mem_cons_of_mem _ member)
    rw [List.map_cons, List.sum_cons, rest, roundHalfAway_of_nonneg (nonneg x (List.mem_cons_self ..)), floor_add_half,
      ← add_div, List.map_cons, List.sum_cons, List.countP_cons]
    simp only [decide_eq_true_eq]
    push_cast
    split
    next => ring
    next => ring

end

end OtterWorks
