import Mathlib.Algebra.Order.Round
import Mathlib.Algebra.Ring.Parity
import Mathlib.Data.Nat.Factorization.Basic
import Mathlib.Data.Int.Log
import Mathlib.Data.Rat.Floor
import Mathlib.RingTheory.Coprime.Lemmas
import Mathlib.Tactic.Positivity
import Mathlib.Tactic.Linarith
import Mathlib.Tactic.FieldSimp

namespace OtterWorks.BinaryFloat

/-- The nearest whole number, the even one of two. -/
def halfEven (x : ℚ) : ℤ :=
  if Int.fract x < 1 / 2 then ⌊x⌋
  else if 1 / 2 < Int.fract x then ⌊x⌋ + 1
  else 2 * ((⌊x⌋ + 1) / 2)

/-- The distance of the numbers around `x > 0` that have `p` binary digits after the first. -/
def spacing (p : Nat) (x : ℚ) : ℚ := 2 ^ (Int.log 2 x - p)

/-- The nearest of these numbers, where the exponent has no bounds. -/
def nearest (p : Nat) (x : ℚ) : ℚ := halfEven (x / spacing p x) * spacing p x

def Held (p : Nat) (x : ℚ) : Prop := nearest p x = x

instance (p : Nat) (x : ℚ) : Decidable (Held p x) := inferInstanceAs (Decidable (_ = _))

section

variable {n : ℤ} {p : Nat} {x y : ℚ}

theorem floor_le_halfEven (x : ℚ) : ⌊x⌋ ≤ halfEven x := by
  unfold halfEven
  split
  · exact le_refl _
  split
  · omega
  · omega

theorem halfEven_le_floor_add_one (x : ℚ) : halfEven x ≤ ⌊x⌋ + 1 := by
  unfold halfEven
  split
  · omega
  split
  · exact le_refl _
  · omega

theorem le_halfEven (h : n ≤ x) : n ≤ halfEven x := (Int.le_floor.mpr h).trans (floor_le_halfEven x)

theorem halfEven_le (h : x ≤ n) : halfEven x ≤ n := by
  have floor_le := Int.floor_le x
  have parts := Int.floor_add_fract x
  by_cases low : Int.fract x < 1 / 2
  · have same : halfEven x = ⌊x⌋ := if_pos low
    rw [same]
    exact_mod_cast floor_le.trans h
  · have lt : (⌊x⌋ : ℚ) < n := by linarith
    have lt' : ⌊x⌋ < n := by exact_mod_cast lt
    have le := halfEven_le_floor_add_one x
    omega

theorem lt_halfEven (h : n + 1 / 2 < x) : n < halfEven x := by
  have parts := Int.floor_add_fract x
  have le : n ≤ ⌊x⌋ := Int.le_floor.mpr (by linarith)
  rcases le.lt_or_eq with lt | rfl
  · exact lt.trans_le (floor_le_halfEven x)
  · have high : 1 / 2 < Int.fract x := by linarith
    have up : halfEven x = ⌊x⌋ + 1 := by
      unfold halfEven
      rw [if_neg (by linarith), if_pos high]
    omega

theorem halfEven_intCast (n : ℤ) : halfEven n = n := le_antisymm (halfEven_le le_rfl) (le_halfEven le_rfl)

theorem two_zpow_pos (e : ℤ) : (0 : ℚ) < 2 ^ e := zpow_pos (by norm_num) e

theorem spacing_pos (p : Nat) (x : ℚ) : 0 < spacing p x := two_zpow_pos _

theorem pow_mul_spacing (p : Nat) (x : ℚ) : 2 ^ p * spacing p x = 2 ^ Int.log 2 x := by
  have two : (2 : ℚ) ≠ 0 := by norm_num
  unfold spacing
  rw [← zpow_natCast, ← zpow_add₀ two]
  congr 1
  omega

theorem pow_log_le (pos : 0 < x) : (2 : ℚ) ^ Int.log 2 x ≤ x := by
  have h := Int.zpow_log_le_self (R := ℚ) one_lt_two pos
  exact_mod_cast h

theorem lt_pow_log (x : ℚ) : x < (2 : ℚ) ^ (Int.log 2 x + 1) := by
  have h := Int.lt_zpow_succ_log_self (R := ℚ) one_lt_two x
  exact_mod_cast h

theorem pow_le_pow_log (h : Int.log 2 y < Int.log 2 x) : (2 : ℚ) ^ (Int.log 2 y + 1) ≤ 2 ^ Int.log 2 x :=
  zpow_le_zpow_right₀ (by norm_num) (by omega)

theorem pow_log_le_nearest (pos : 0 < x) : (2 : ℚ) ^ Int.log 2 x ≤ nearest p x := by
  have step := spacing_pos p x
  have scaled : ((2 ^ p : ℤ) : ℚ) ≤ x / spacing p x := by
    rw [le_div_iff₀ step]
    push_cast
    rw [pow_mul_spacing]
    exact pow_log_le pos
  have le : ((2 ^ p : ℤ) : ℚ) ≤ halfEven (x / spacing p x) := by exact_mod_cast le_halfEven scaled
  calc (2 : ℚ) ^ Int.log 2 x = ((2 ^ p : ℤ) : ℚ) * spacing p x := by push_cast; rw [pow_mul_spacing]
    _ ≤ nearest p x := mul_le_mul_of_nonneg_right le step.le

theorem nearest_le_pow_log (p : Nat) (x : ℚ) : nearest p x ≤ 2 ^ (Int.log 2 x + 1) := by
  have step := spacing_pos p x
  have two : (2 : ℚ) ≠ 0 := by norm_num
  have top : (2 : ℚ) ^ (Int.log 2 x + 1) = ((2 ^ (p + 1) : ℤ) : ℚ) * spacing p x := by
    push_cast
    rw [zpow_add₀ two, ← pow_mul_spacing p x]
    ring
  have scaled : x / spacing p x ≤ ((2 ^ (p + 1) : ℤ) : ℚ) := by
    rw [div_le_iff₀ step, ← top]
    exact (lt_pow_log x).le
  have le : (halfEven (x / spacing p x) : ℚ) ≤ ((2 ^ (p + 1) : ℤ) : ℚ) := by exact_mod_cast halfEven_le scaled
  rw [top]
  exact mul_le_mul_of_nonneg_right le step.le

theorem nearest_pos (pos : 0 < x) : 0 < nearest p x := (two_zpow_pos _).trans_le (pow_log_le_nearest pos)

theorem held_iff : Held p x ↔ ∃ k : ℤ, x = k * spacing p x := by
  constructor
  · intro held
    exact ⟨halfEven (x / spacing p x), held.symm⟩
  · intro h
    obtain ⟨k, hk⟩ := h
    have scaled : x / spacing p x = k := by
      rw [div_eq_iff (spacing_pos p x).ne']
      exact hk
    unfold Held nearest
    rw [scaled, halfEven_intCast]
    exact hk.symm

/-- A whole multiple of a power of two is held where the factor has at most one digit more than `p`. -/
theorem held_of_mul {k e : ℤ} (pos : 0 < k) (le : k ≤ 2 ^ (p + 1)) : Held p (k * 2 ^ e) := by
  have two : (2 : ℚ) ≠ 0 := by norm_num
  have power := two_zpow_pos e
  have kpos : (0 : ℚ) < k := by exact_mod_cast pos
  have kle : (k : ℚ) ≤ 2 ^ (p + 1) := by exact_mod_cast le
  have xpos : (0 : ℚ) < k * 2 ^ e := mul_pos kpos power
  rw [held_iff]
  generalize hx : (k : ℚ) * 2 ^ e = x at xpos ⊢
  have log_le : Int.log 2 x ≤ p + 1 + e := by
    have bound : (2 : ℚ) ^ Int.log 2 x ≤ 2 ^ ((p : ℤ) + 1 + e) := by
      calc (2 : ℚ) ^ Int.log 2 x ≤ x := pow_log_le xpos
        _ = k * 2 ^ e := hx.symm
        _ ≤ 2 ^ (p + 1) * 2 ^ e := mul_le_mul_of_nonneg_right kle power.le
        _ = 2 ^ ((p : ℤ) + 1 + e) := by rw [zpow_add₀ two]; norm_cast
    exact (zpow_le_zpow_iff_right₀ (by norm_num)).mp bound
  by_cases inside : Int.log 2 x - p ≤ e
  · refine ⟨k * 2 ^ (e - (Int.log 2 x - p)).toNat, ?_⟩
    have split : (2 : ℚ) ^ e = 2 ^ (e - (Int.log 2 x - p)).toNat * spacing p x := by
      unfold spacing
      rw [← zpow_natCast, ← zpow_add₀ two]
      congr 1
      omega
    calc x = k * 2 ^ e := hx.symm
      _ = _ := by rw [split]; push_cast; ring
  · -- the factor is the power of two itself
    have log_eq : Int.log 2 x = p + 1 + e := by omega
    have ge : (2 : ℚ) ^ ((p : ℤ) + 1 + e) ≤ x := by
      rw [← log_eq]
      exact pow_log_le xpos
    have le' : x ≤ (2 : ℚ) ^ ((p : ℤ) + 1 + e) := by
      rw [← hx, zpow_add₀ two]
      exact_mod_cast mul_le_mul_of_nonneg_right kle power.le
    refine ⟨2 ^ p, ?_⟩
    push_cast
    rw [pow_mul_spacing, log_eq]
    exact le_antisymm le' ge

theorem held_natCast {m : Nat} (pos : 0 < m) (le : m ≤ 2 ^ (p + 1)) : Held p m := by
  have h : Held p ((m : ℤ) * 2 ^ (0 : ℤ)) := held_of_mul (by omega) (by exact_mod_cast le)
  simpa using h

theorem nearest_eq (pos : 0 < x) : ∃ k : ℤ, 0 < k ∧ k ≤ 2 ^ (p + 1) ∧ nearest p x = k * spacing p x := by
  have step := spacing_pos p x
  have npos : (0 : ℚ) < nearest p x := nearest_pos pos
  have kpos : (0 : ℚ) < halfEven (x / spacing p x) := (mul_pos_iff_of_pos_right step).mp npos
  have two : (2 : ℚ) ≠ 0 := by norm_num
  have top : nearest p x ≤ 2 ^ (p + 1) * spacing p x := by
    have h := nearest_le_pow_log p x
    rw [zpow_add₀ two, ← pow_mul_spacing p x] at h
    calc nearest p x ≤ 2 ^ p * spacing p x * 2 ^ (1 : ℤ) := h
      _ = 2 ^ (p + 1) * spacing p x := by rw [zpow_one]; ring
  have kle : (halfEven (x / spacing p x) : ℚ) ≤ 2 ^ (p + 1) := le_of_mul_le_mul_right top step
  exact ⟨_, by exact_mod_cast kpos, by exact_mod_cast kle, rfl⟩

theorem held_nearest (pos : 0 < x) : Held p (nearest p x) := by
  obtain ⟨k, kpos, kle, hk⟩ := nearest_eq (p := p) pos
  rw [hk]
  exact held_of_mul kpos kle

theorem nearest_le (held : Held p y) (pos : 0 < x) (le : x ≤ y) : nearest p x ≤ y := by
  have step := spacing_pos p x
  rcases (Int.log_mono_right pos le).lt_or_eq with lt | same
  · calc nearest p x ≤ 2 ^ (Int.log 2 x + 1) := nearest_le_pow_log p x
      _ ≤ 2 ^ Int.log 2 y := pow_le_pow_log lt
      _ ≤ y := pow_log_le (pos.trans_le le)
  · obtain ⟨k, hk⟩ := held_iff.mp held
    have equal : spacing p y = spacing p x := by unfold spacing; rw [same]
    rw [equal] at hk
    have scaled : x / spacing p x ≤ k := by
      rw [div_le_iff₀ step, ← hk]
      exact le
    rw [hk]
    exact mul_le_mul_of_nonneg_right (by exact_mod_cast halfEven_le scaled) step.le

theorem lt_nearest (held : Held p y) (pos : 0 < y) (lt : y + spacing p y / 2 < x) : y < nearest p x := by
  have step := spacing_pos p y
  have le : y ≤ x := by linarith
  rcases (Int.log_mono_right pos le).lt_or_eq with less | same
  · calc y < 2 ^ (Int.log 2 y + 1) := lt_pow_log y
      _ ≤ 2 ^ Int.log 2 x := pow_le_pow_log less
      _ ≤ nearest p x := pow_log_le_nearest (pos.trans_le le)
  · obtain ⟨k, hk⟩ := held_iff.mp held
    have equal : spacing p y = spacing p x := by unfold spacing; rw [same]
    rw [equal] at hk lt step
    have scaled : (k : ℚ) + 1 / 2 < x / spacing p x := by
      rw [lt_div_iff₀ step, add_mul, ← hk]
      linarith
    rw [hk]
    exact mul_lt_mul_of_pos_right (by exact_mod_cast lt_halfEven scaled) step

theorem spacing_dvd (pos : 0 < y) (le : y ≤ x) : ∃ d : Nat, spacing p x = 2 ^ d * spacing p y := by
  have two : (2 : ℚ) ≠ 0 := by norm_num
  have mono := Int.log_mono_right (b := 2) pos le
  refine ⟨(Int.log 2 x - Int.log 2 y).toNat, ?_⟩
  unfold spacing
  rw [← zpow_natCast, ← zpow_add₀ two]
  congr 1
  omega

/-- Two numbers that are held are apart by no less than the distance at the lower one. -/
theorem add_spacing_le (hx : Held p x) (hy : Held p y) (pos : 0 < y) (lt : y < x) : y + spacing p y ≤ x := by
  have step := spacing_pos p y
  obtain ⟨d, hd⟩ := spacing_dvd (p := p) pos lt.le
  obtain ⟨k, hk⟩ := held_iff.mp hx
  obtain ⟨i, hi⟩ := held_iff.mp hy
  have whole : x = ((k * 2 ^ d : ℤ) : ℚ) * spacing p y := by
    push_cast
    rw [hk, hd]
    ring
  have less : (i : ℚ) < ((k * 2 ^ d : ℤ) : ℚ) := by
    have h : i * spacing p y < ((k * 2 ^ d : ℤ) : ℚ) * spacing p y := by
      rw [← whole, ← hi]
      exact lt
    exact lt_of_mul_lt_mul_right h step.le
  have next : ((i : ℚ) + 1) ≤ ((k * 2 ^ d : ℤ) : ℚ) := by exact_mod_cast less
  calc y + spacing p y = (i + 1) * spacing p y := by rw [add_mul, one_mul, ← hi]
    _ ≤ ((k * 2 ^ d : ℤ) : ℚ) * spacing p y := mul_le_mul_of_nonneg_right next step.le
    _ = x := whole.symm

/-- The rounded quotient stays above `y` where the dividend is above `d * y`. -/
theorem lt_nearest_div {d : Nat} (dpos : 0 < d) (hx : Held p x) (hy : Held p y) (product : Held p (d * y)) (pos : 0 < y)
    (lt : d * y < x) : y < nearest p (x / d) := by
  have step := spacing_pos p y
  have two : (2 : ℚ) ≠ 0 := by norm_num
  have dpos' : (0 : ℚ) < d := by exact_mod_cast dpos
  have low : 2 ^ Nat.log 2 d ≤ d := Nat.pow_log_le_self 2 dpos.ne'
  have high : d < 2 ^ (Nat.log 2 d + 1) := Nat.lt_pow_succ_log_self one_lt_two d
  have apart := add_spacing_le hx product (mul_pos dpos' pos) lt
  have wide : 2 ^ Nat.log 2 d * spacing p y ≤ spacing p (d * y) := by
    have power : ((2 : Nat) : ℚ) ^ ((Nat.log 2 d : ℤ) + Int.log 2 y) ≤ d * y := by
      rw [zpow_add₀ (by norm_num), zpow_natCast]
      exact mul_le_mul (by exact_mod_cast low) (by exact_mod_cast pow_log_le pos)
        (by exact_mod_cast (two_zpow_pos _).le) dpos'.le
    have log_le := (Int.zpow_le_iff_le_log one_lt_two (mul_pos dpos' pos)).mp power
    unfold spacing
    rw [← zpow_natCast, ← zpow_add₀ two]
    exact zpow_le_zpow_right₀ (by norm_num) (by omega)
  refine lt_nearest hy pos ?_
  rw [lt_div_iff₀ dpos']
  have half : (d : ℚ) < 2 ^ Nat.log 2 d * 2 := by
    rw [← pow_succ]
    exact_mod_cast high
  have more : d * spacing p y < 2 ^ Nat.log 2 d * 2 * spacing p y := mul_lt_mul_of_pos_right half step
  linarith

/-- The odd part of a factor is no greater than that of the product. -/
theorem held_factor {n m : Nat} (npos : 0 < n) (mpos : 0 < m) (held : Held p (n * m : Nat)) : Held p n := by
  have two : (2 : ℚ) ≠ 0 := by norm_num
  have xpos : (0 : ℚ) < (n * m : Nat) := by exact_mod_cast Nat.mul_pos npos mpos
  obtain ⟨k, kpos, kle, hk⟩ := nearest_eq (p := p) xpos
  rw [held] at hk
  obtain ⟨a, o, odd, hn⟩ := Nat.exists_eq_two_pow_mul_odd npos.ne'
  have opos : 0 < o := odd.pos
  have ole : (o : ℤ) ≤ k := by
    unfold spacing at hk
    generalize Int.log 2 ((n * m : Nat) : ℚ) - (p : ℤ) = e at hk
    rcases Int.le_total 0 e with up | down
    · obtain ⟨d, rfl⟩ := Int.eq_ofNat_of_zero_le up
      have product : ((n * m : Nat) : ℤ) = k * 2 ^ d := by exact_mod_cast hk
      have divides : (o : ℤ) ∣ k * 2 ^ d := by
        rw [← product, hn]
        exact ⟨2 ^ a * m, by push_cast; ring⟩
      have coprime : IsCoprime (o : ℤ) (2 ^ d) := by
        have h : Nat.Coprime o (2 ^ d) := (Nat.coprime_two_right.mpr odd).pow_right d
        exact_mod_cast Nat.isCoprime_iff_coprime.mpr h
      exact Int.le_of_dvd kpos (coprime.dvd_of_dvd_mul_right divides)
    · obtain ⟨d, hd⟩ := Int.eq_ofNat_of_zero_le (Int.neg_nonneg.mpr down)
      have split : (2 : ℚ) ^ e * 2 ^ d = 1 := by
        rw [← zpow_natCast, ← zpow_add₀ two, show e + (d : ℤ) = 0 by omega, zpow_zero]
      have product : ((n * m * 2 ^ d : Nat) : ℚ) = k := by
        push_cast at hk ⊢
        rw [hk, mul_assoc, split, mul_one]
      have product' : ((n * m * 2 ^ d : Nat) : ℤ) = k := by exact_mod_cast product
      have le : o ≤ n * m * 2 ^ d := by
        calc o ≤ 2 ^ a * o := Nat.le_mul_of_pos_left o (by positivity)
          _ = n := hn.symm
          _ ≤ n * m := Nat.le_mul_of_pos_right n mpos
          _ ≤ n * m * 2 ^ d := Nat.le_mul_of_pos_right _ (by positivity)
      omega
  have h : Held p ((o : ℤ) * 2 ^ (a : ℤ)) := held_of_mul (by omega) (ole.trans kle)
  have same : (n : ℚ) = (o : ℤ) * 2 ^ (a : ℤ) := by
    rw [hn]
    push_cast
    rw [zpow_natCast]
    ring
  rw [same]
  exact h

end

end OtterWorks.BinaryFloat
