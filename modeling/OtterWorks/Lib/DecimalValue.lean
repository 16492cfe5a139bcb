import OtterWorks.Lib.Decimal
import Mathlib.Data.Rat.Cast.Order
import Mathlib.Tactic.FieldSimp
import Mathlib.Tactic.Positivity
import Mathlib.Tactic.Linarith
import Mathlib.Tactic.Ring

namespace OtterWorks.Decimal

/-- The number a decimal stands for. -/
def value (d : Decimal) : ℚ := d.coeff * (10 : ℚ) ^ d.exponent

/-- A number with a decimal of at most `precision` digits. -/
def Fits (precision : Nat) (x : ℚ) : Prop := ∃ d : Decimal, d.coeff.natAbs < 10 ^ precision ∧ x = d.value

/-- A number of `NUMERIC(precision, scale)`. -/
def OnGrid (precision scale : Nat) (x : ℚ) : Prop :=
  ∃ n : Int, n.natAbs < 10 ^ precision ∧ x = (⟨n, -(scale : Int)⟩ : Decimal).value

section

variable {a b d : Decimal} {e : Int} {precision scale k n : Nat} {x : ℚ}

theorem ten_zpow_ne_zero (e : Int) : (10 : ℚ) ^ e ≠ 0 := zpow_ne_zero _ (by norm_num)

theorem ten_zpow_pos (e : Int) : (0 : ℚ) < 10 ^ e := zpow_pos (by norm_num) _

theorem value_coeffAt (below : e ≤ d.exponent) : (d.coeffAt e : ℚ) * 10 ^ e = d.value := by
  have split : (10 : ℚ) ^ d.exponent = 10 ^ (d.exponent - e).toNat * 10 ^ e := by
    rw [← zpow_natCast, ← zpow_add₀ (by norm_num)]
    congr 1
    omega
  rw [coeffAt, value, split]
  push_cast
  ring

theorem value_zero : zero.value = 0 := by simp [value, zero]

theorem same_iff : same a b = true ↔ a.value = b.value := by
  have left := value_coeffAt (min_le_left a.exponent b.exponent)
  have right := value_coeffAt (min_le_right a.exponent b.exponent)
  rw [same, beq_iff_eq, ← left, ← right]
  constructor
  · intro h
    rw [h]
  · intro h
    exact_mod_cast mul_right_cancel₀ (ten_zpow_ne_zero _) h

theorem value_inj_exponent {m n : Int} : (⟨m, e⟩ : Decimal).value = (⟨n, e⟩ : Decimal).value ↔ m = n := by
  unfold value
  constructor
  · intro h
    exact_mod_cast mul_right_cancel₀ (ten_zpow_ne_zero _) h
  · rintro rfl
    rfl

/-- The number of a coefficient that is a multiple of a power of ten. -/
theorem value_shift (q : Int) (k : Nat) : (⟨q, e + k⟩ : Decimal).value = (⟨q * 10 ^ k, e⟩ : Decimal).value := by
  unfold value
  rw [zpow_add₀ (by norm_num), zpow_natCast]
  push_cast
  ring

theorem digitCount_pos (n : Nat) : 0 < digitCount n := Nat.length_toDigits_pos

theorem pow_le_of_lt_digitCount (more : k < digitCount n) (pos : 0 < k) : 10 ^ k ≤ n := by
  by_contra less
  have few := (digitCount_le_iff pos).mpr (Nat.lt_of_not_le less)
  omega

theorem natAbs_sign_mul_le (s : Int) (q : Nat) : (s.sign * (q : Int)).natAbs ≤ q := by
  have unit : s.sign.natAbs ≤ 1 := by
    rw [Int.natAbs_sign]
    split <;> omega
  rw [Int.natAbs_mul, Int.natAbs_natCast]
  calc
    s.sign.natAbs * q ≤ 1 * q := Nat.mul_le_mul_right _ unit
    _ = q := Nat.one_mul _

/-- Rounding keeps to the digits it may use. -/
theorem roundTo_fits (pos : 0 < precision) : Fits precision (roundTo precision d).value := by
  unfold roundTo
  simp only
  split
  next few =>
    refine ⟨d, ?_, rfl⟩
    exact (digitCount_le_iff pos).mp (by omega)
  next many =>
    split
    next carry =>
      refine ⟨_, ?_, rfl⟩
      have tenth : (divHalfEven d.coeff.natAbs (digitCount d.coeff.natAbs - precision) : Int) / 10 =
          (divHalfEven d.coeff.natAbs (digitCount d.coeff.natAbs - precision) / 10 : Nat) := by omega
      simp only
      rw [tenth]
      refine Nat.lt_of_le_of_lt (natAbs_sign_mul_le _ _) ?_
      have less := lt_pow_digitCount d.coeff.natAbs
      have rounded := divHalfEven_le d.coeff.natAbs (digitCount d.coeff.natAbs - precision)
      have quotient : d.coeff.natAbs / 10 ^ (digitCount d.coeff.natAbs - precision) < 10 ^ precision := by
        rw [Nat.div_lt_iff_lt_mul (Nat.pow_pos (by omega)), ← Nat.pow_add]
        exact Nat.lt_of_lt_of_le less (Nat.pow_le_pow_right (by omega) (by omega))
      have large : 1 < 10 ^ precision := Nat.one_lt_pow (by omega) (by omega)
      omega
    next kept =>
      refine ⟨_, ?_, rfl⟩
      refine Nat.lt_of_le_of_lt (natAbs_sign_mul_le _ _) ?_
      exact (digitCount_le_iff pos).mp (by omega)

/-- A number that has few enough digits ends in as many zeros as its coefficient has too many. -/
theorem dvd_of_fits (fits : Fits precision d.value) (pos : 0 < precision) :
    10 ^ (digitCount d.coeff.natAbs - precision) ∣ d.coeff.natAbs := by
  obtain ⟨f, few, same⟩ := fits
  let k := digitCount d.coeff.natAbs - precision
  by_cases none : k = 0
  · change 10 ^ k ∣ _
    rw [none]
    exact one_dvd _
  have more : 10 ^ (precision + k - 1) ≤ d.coeff.natAbs := pow_le_of_lt_digitCount (by omega) (by omega)
  by_cases below : d.exponent + k ≤ f.exponent
  · have at_ := @value_coeffAt f (d.exponent + k) below
    have equal : d.coeff = f.coeffAt (d.exponent + k) * 10 ^ k := by
      apply (@value_inj_exponent d.exponent _ _).mp
      rw [← value_shift]
      exact same.trans at_.symm
    have natural := congrArg Int.natAbs equal
    rw [Int.natAbs_mul, Int.natAbs_pow] at natural
    exact ⟨(f.coeffAt (d.exponent + k)).natAbs, natural.trans (Nat.mul_comm _ _)⟩
  · exfalso
    -- the number is too large for so small an exponent
    have size : ((d.coeff.natAbs : ℚ)) * 10 ^ d.exponent = (f.coeff.natAbs : ℚ) * 10 ^ f.exponent := by
      have abs := congrArg abs same
      unfold value at abs
      rw [abs_mul, abs_mul, abs_of_pos (ten_zpow_pos _), abs_of_pos (ten_zpow_pos _)] at abs
      rw [Nat.cast_natAbs, Nat.cast_natAbs]
      push_cast
      exact abs
    have lower : (10 : ℚ) ^ (precision + k - 1) ≤ d.coeff.natAbs := by exact_mod_cast more
    have upper : (f.coeff.natAbs : ℚ) < 10 ^ precision := by exact_mod_cast few
    have step : (10 : ℚ) ^ f.exponent ≤ 10 ^ (d.exponent + k - 1) := zpow_le_zpow_right₀ (by norm_num) (by omega)
    have power : (10 : ℚ) ^ precision * 10 ^ (d.exponent + k - 1) = 10 ^ (precision + k - 1) * 10 ^ d.exponent := by
      rw [← zpow_natCast, ← zpow_natCast, ← zpow_add₀ (by norm_num), ← zpow_add₀ (by norm_num)]
      congr 1
      omega
    have less : (f.coeff.natAbs : ℚ) * 10 ^ f.exponent < d.coeff.natAbs * 10 ^ d.exponent := by
      calc
        (f.coeff.natAbs : ℚ) * 10 ^ f.exponent < 10 ^ precision * 10 ^ f.exponent :=
          mul_lt_mul_of_pos_right upper (ten_zpow_pos _)
        _ ≤ 10 ^ precision * 10 ^ (d.exponent + k - 1) := mul_le_mul_of_nonneg_left step (by positivity)
        _ = 10 ^ (precision + k - 1) * 10 ^ d.exponent := power
        _ ≤ d.coeff.natAbs * 10 ^ d.exponent := mul_le_mul_of_nonneg_right lower (ten_zpow_pos _).le
    exact absurd size (ne_of_gt less)

/-- Rounding changes no number that has few enough digits, and every other. -/
theorem roundTo_value_iff (pos : 0 < precision) : (roundTo precision d).value = d.value ↔ Fits precision d.value := by
  constructor
  · intro kept
    rw [← kept]
    exact roundTo_fits pos
  · intro fits
    have exact := dvd_of_fits fits pos
    have back := sign_mul_divHalfEven exact
    have less := lt_pow_digitCount d.coeff.natAbs
    unfold roundTo
    simp only
    split
    next => rfl
    next many =>
      split
      next carry =>
        exfalso
        have quotient : divHalfEven d.coeff.natAbs (digitCount d.coeff.natAbs - precision) < 10 ^ precision := by
          have product := divHalfEven_of_dvd exact
          rw [← Nat.mul_lt_mul_right (a := 10 ^ (digitCount d.coeff.natAbs - precision)) (Nat.pow_pos (by omega)), product,
            ← Nat.pow_add]
          exact Nat.lt_of_lt_of_le less (Nat.pow_le_pow_right (by omega) (by omega))
        have few := (digitCount_le_iff pos).mpr quotient
        omega
      next => rw [value_shift, back]

theorem add_value_iff (pos : 0 < precision) :
    (add precision a b).value = a.value + b.value ↔ Fits precision (a.value + b.value) := by
  have sum : (⟨a.coeffAt (min a.exponent b.exponent) + b.coeffAt (min a.exponent b.exponent),
      min a.exponent b.exponent⟩ : Decimal).value = a.value + b.value := by
    rw [← value_coeffAt (min_le_left a.exponent b.exponent), ← value_coeffAt (min_le_right a.exponent b.exponent),
      value]
    push_cast
    ring
  rw [← sum]
  exact roundTo_value_iff pos

/-- How far a decimal is from zero, in units of the last place of a scale. -/
theorem abs_value_mul (d : Decimal) (scale : Nat) :
    |d.value| * 10 ^ scale = d.coeff.natAbs * (10 : ℚ) ^ (d.exponent + scale) := by
  unfold value
  rw [abs_mul, abs_of_pos (ten_zpow_pos _), zpow_add₀ (by norm_num), zpow_natCast, mul_assoc, Nat.cast_natAbs, Int.cast_abs]

/-- What a cast makes of a number whose digits it keeps. -/
theorem castNumeric_kept (kept : -(scale : Int) ≤ d.exponent) (m : Nat) :
    (d.rescale (-scale)).natAbs < m ↔ |d.value| * 10 ^ scale + 1 / 2 < m := by
  have whole : (d.coeff.natAbs : ℚ) * 10 ^ (d.exponent + scale) = ((d.rescale (-scale)).natAbs : ℚ) := by
    have shift : d.exponent + scale = ((d.exponent - -(scale : Int)).toNat : Int) := by omega
    rw [rescale, if_pos kept, coeffAt, Int.natAbs_mul, shift, zpow_natCast]
    push_cast [Int.natAbs_pow]
    rfl
  rw [abs_value_mul, whole]
  generalize (d.rescale (-scale)).natAbs = n
  constructor
  · intro fits
    have le : ((n + 1 : Nat) : ℚ) ≤ m := by exact_mod_cast fits
    push_cast at le
    linarith
  · intro fits
    have less : (n : ℚ) < m := by linarith
    exact_mod_cast less

/-- What it makes of one of which it drops `k + 1` digits. -/
theorem castNumeric_dropped {k : Nat} (drop : (-(scale : Int) - d.exponent).toNat = k + 1) :
    d.castNumeric precision scale =
        (if (d.coeff.sign * ((d.coeff.natAbs + 5 * 10 ^ k) / 10 ^ (k + 1) : Nat)).natAbs < 10 ^ precision then
          some ⟨d.coeff.sign * ((d.coeff.natAbs + 5 * 10 ^ k) / 10 ^ (k + 1) : Nat), -scale⟩ else none) ∧
      ∀ m : Nat, (d.coeff.sign * ((d.coeff.natAbs + 5 * 10 ^ k) / 10 ^ (k + 1) : Nat)).natAbs < m ↔
        |d.value| * 10 ^ scale + 1 / 2 < m := by
  constructor
  · unfold castNumeric
    simp only [drop, Nat.add_sub_cancel, Nat.succ_ne_zero, if_false]
  intro m
  have exponent : d.exponent + scale = -((k + 1 : Nat) : Int) := by omega
  have unit : (0 : ℚ) < 10 ^ (k + 1) := by positivity
  have quotient : (d.coeff.natAbs : ℚ) * 10 ^ (d.exponent + scale) = d.coeff.natAbs / 10 ^ (k + 1) := by
    rw [exponent, zpow_neg, zpow_natCast, div_eq_mul_inv]
  -- The rounded coefficient is zero with the coefficient.
  have rounded : (d.coeff.sign * ((d.coeff.natAbs + 5 * 10 ^ k) / 10 ^ (k + 1) : Nat)).natAbs =
      (d.coeff.natAbs + 5 * 10 ^ k) / 10 ^ (k + 1) := by
    by_cases zero : d.coeff = 0
    · have positive : 0 < 10 ^ k := Nat.pow_pos (by omega)
      have half : (0 + 5 * 10 ^ k) / 10 ^ (k + 1) = 0 := Nat.div_eq_of_lt (by rw [pow_succ]; omega)
      rw [zero, Int.sign_zero, Int.zero_mul, Int.natAbs_zero, half]
    · rw [Int.natAbs_mul, Int.natAbs_sign_of_ne_zero zero, Nat.one_mul, Int.natAbs_natCast]
  have half : ((5 * 10 ^ k : Nat) : ℚ) = 1 / 2 * 10 ^ (k + 1) := by
    push_cast
    rw [pow_succ]
    ring
  rw [abs_value_mul, quotient, rounded, Nat.div_lt_iff_lt_mul (by positivity), ← @Nat.cast_lt ℚ, Nat.cast_add, half, Nat.cast_mul,
    div_add' _ _ _ unit.ne', div_lt_iff₀ unit]
  push_cast
  rfl

/-- A cast rounds to the nearest unit of the last place: it is kept if it is more than half a unit short of the bound. -/
theorem castNumeric_eq : ∃ n : Int, d.castNumeric precision scale = (if n.natAbs < 10 ^ precision then some ⟨n, -scale⟩ else none) ∧
    ∀ m : Nat, n.natAbs < m ↔ |d.value| * 10 ^ scale + 1 / 2 < m := by
  by_cases kept : -(scale : Int) ≤ d.exponent
  · exact ⟨_, castNumeric_of_le kept, castNumeric_kept kept⟩
  · obtain ⟨k, drop⟩ : ∃ k : Nat, (-(scale : Int) - d.exponent).toNat = k + 1 := ⟨(-(scale : Int) - d.exponent).toNat - 1, by omega⟩
    obtain ⟨cast, bounds⟩ := @castNumeric_dropped d precision scale k drop
    exact ⟨_, cast, bounds⟩

theorem castNumeric_isSome_iff : (d.castNumeric precision scale).isSome ↔ |d.value| * 10 ^ scale + 1 / 2 < 10 ^ precision := by
  obtain ⟨n, cast, bounds⟩ := @castNumeric_eq d precision scale
  rw [cast, Option.isSome_ite, bounds]
  push_cast
  rfl

/-- What is less than half a unit becomes zero. -/
theorem castNumeric_zero_iff {t : Decimal} (h : d.castNumeric precision scale = some t) :
    t.coeff = 0 ↔ |d.value| * 10 ^ scale < 1 / 2 := by
  obtain ⟨n, cast, bounds⟩ := @castNumeric_eq d precision scale
  rw [cast] at h
  obtain ⟨-, same⟩ := Option.ite_none_right_eq_some.mp h
  have small := bounds 1
  rw [← Option.some.inj same, ← Int.natAbs_eq_zero, ← Nat.lt_one_iff, small]
  push_cast
  constructor
  · intro less
    linarith
  · intro less
    linarith

/-- The cast keeps the numbers of the column, and of the others none. -/
theorem castNumeric_value_iff :
    (∃ t, d.castNumeric precision scale = some t ∧ t.value = d.value) ↔ OnGrid precision scale d.value := by
  constructor
  · rintro ⟨t, cast, same⟩
    unfold castNumeric at cast
    simp only [Option.ite_none_right_eq_some] at cast
    obtain ⟨fits, made⟩ := cast
    cases Option.some.inj made
    exact ⟨_, fits, same.symm⟩
  · rintro ⟨n, fits, same⟩
    let k := (-(scale : Int) - d.exponent).toNat
    refine ⟨⟨n, -(scale : Int)⟩, ?_, same.symm⟩
    have coeff : (if k = 0 then d.coeffAt (-(scale : Int)) else
        d.coeff.sign * ((d.coeff.natAbs + (if k = 0 then 0 else 5 * 10 ^ (k - 1))) / 10 ^ k : Nat)) = n := by
      by_cases kept : k = 0
      · rw [if_pos kept]
        apply (@value_inj_exponent (-(scale : Int)) _ _).mp
        rw [← same]
        exact value_coeffAt (by omega)
      · rw [if_neg kept, if_neg kept]
        have shifted : d.coeff = n * 10 ^ k := by
          apply (@value_inj_exponent d.exponent _ _).mp
          rw [← value_shift, show d.exponent + (k : Int) = -(scale : Int) by omega]
          exact same
        have magnitude : d.coeff.natAbs = n.natAbs * 10 ^ k := by
          rw [shifted, Int.natAbs_mul, Int.natAbs_pow]
          rfl
        have half : 5 * 10 ^ (k - 1) < 10 ^ k := by
          have power : 10 ^ k = 10 ^ (k - 1) * 10 := by rw [← Nat.pow_succ, Nat.succ_eq_add_one, Nat.sub_add_cancel (by omega)]
          have pos : 0 < 10 ^ (k - 1) := Nat.pow_pos (by omega)
          omega
        have quotient : (d.coeff.natAbs + 5 * 10 ^ (k - 1)) / 10 ^ k = n.natAbs := by
          rw [magnitude, Nat.add_comm, Nat.add_mul_div_right _ _ (Nat.pow_pos (by omega)), Nat.div_eq_of_lt half,
            Nat.zero_add]
        have sign : d.coeff.sign = n.sign := by
          have positive : (10 ^ k : Int).sign = 1 := Int.sign_eq_one_of_pos (by positivity)
          rw [shifted, Int.sign_mul, positive, Int.mul_one]
        rw [quotient, sign]
        exact Int.sign_mul_natAbs n
    unfold castNumeric
    simp only [Option.ite_none_right_eq_some]
    refine ⟨?_, ?_⟩
    · exact coeff ▸ fits
    · exact congrArg some (congrArg (Decimal.mk · _) coeff)

/-- A running sum is exact all the way exactly if every exact sum on the way has few enough digits. -/
theorem foldl_add_exact_iff (pos : 0 < precision) {xs : List Decimal} :
    (∀ pre, pre <+: xs → (pre.foldl (add precision) zero).value = (pre.map value).sum) ↔
      ∀ pre, pre <+: xs → Fits precision (pre.map value).sum := by
  have last : ∀ (pre : List Decimal) (x : Decimal), ((pre ++ [x]).foldl (add precision) zero) =
      add precision (pre.foldl (add precision) zero) x := by
    intro pre x
    rw [List.foldl_append]
    rfl
  have sums : ∀ (pre : List Decimal) (x : Decimal), ((pre ++ [x]).map value).sum = (pre.map value).sum + x.value := by
    intro pre x
    simp
  constructor
  · intro exact pre sub
    induction pre using List.reverseRecOn with
    | nil => exact ⟨zero, Nat.pow_pos (by omega), value_zero.symm⟩
    | append_singleton pre x _ =>
      have before := exact pre ((List.prefix_append pre [x]).trans sub)
      have here := exact (pre ++ [x]) sub
      rw [last, sums, ← before] at here
      rw [sums, ← before]
      exact (add_value_iff pos).mp here
  · intro fits pre sub
    induction pre using List.reverseRecOn with
    | nil => exact value_zero
    | append_singleton pre x ih =>
      have before := ih ((List.prefix_append pre [x]).trans sub)
      have here := fits (pre ++ [x]) sub
      rw [sums, ← before] at here
      rw [last, sums, ← before]
      exact (add_value_iff pos).mpr here

end

end OtterWorks.Decimal
