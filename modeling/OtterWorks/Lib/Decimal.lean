import OtterWorks.Lib.Text

namespace OtterWorks

/-- A finite decimal number `coeff * 10 ^ exponent`. -/
structure Decimal where
  coeff : Int
  exponent : Int
  deriving DecidableEq, Repr

namespace Decimal

def digitCount (n : Nat) : Nat := (Nat.toDigits 10 n).length

/-- `n / 10 ^ k`, the nearest integer, ties to even. -/
def divHalfEven (n k : Nat) : Nat :=
  let q := n / 10 ^ k
  let twice := 2 * (n % 10 ^ k)
  if twice > 10 ^ k ∨ (twice = 10 ^ k ∧ q % 2 = 1) then q + 1 else q

/-- The nearest number of at most `precision` digits, ties to even. -/
def roundTo (precision : Nat) (d : Decimal) : Decimal :=
  let k := digitCount d.coeff.natAbs - precision
  if k = 0 then d
  else
    let q := divHalfEven d.coeff.natAbs k
    -- a carry past the last digit leaves one digit too many
    if digitCount q > precision then ⟨d.coeff.sign * (q / 10), d.exponent + k + 1⟩
    else ⟨d.coeff.sign * q, d.exponent + k⟩

/-- The coefficient at a given exponent not above the number's own. -/
def coeffAt (d : Decimal) (exponent : Int) : Int := d.coeff * 10 ^ (d.exponent - exponent).toNat

/-- Addition rounded to the precision of the context. -/
def add (precision : Nat) (a b : Decimal) : Decimal :=
  let e := min a.exponent b.exponent
  roundTo precision ⟨a.coeffAt e + b.coeffAt e, e⟩

/-- The coefficient at another exponent, ties to even. -/
def rescale (exponent : Int) (d : Decimal) : Int :=
  if exponent ≤ d.exponent then d.coeffAt exponent
  else d.coeff.sign * divHalfEven d.coeff.natAbs (exponent - d.exponent).toNat

/-- The number with another exponent, unless it would take more than `precision` digits. -/
def quantize (precision : Nat) (exponent : Int) (d : Decimal) : Option Decimal :=
  if digitCount (d.rescale exponent).natAbs ≤ precision then some ⟨d.rescale exponent, exponent⟩ else none

/-- `int(d)`: the fraction is cut off. -/
def truncate (d : Decimal) : Int := (d.coeffAt (min d.exponent 0)).tdiv (10 ^ (-d.exponent).toNat)

/-- The cast to `NUMERIC(precision, scale)`, which rounds half away from zero. -/
def castNumeric (precision scale : Nat) (d : Decimal) : Option Decimal :=
  let k := (-(scale : Int) - d.exponent).toNat
  let rounded := (d.coeff.natAbs + (if k = 0 then 0 else 5 * 10 ^ (k - 1))) / 10 ^ k
  let coeff := if k = 0 then d.coeffAt (-(scale : Int)) else d.coeff.sign * rounded
  if coeff.natAbs < 10 ^ precision then some ⟨coeff, -(scale : Int)⟩ else none

/-- Equality of the numbers, whatever their exponents. -/
def same (a b : Decimal) : Bool :=
  let e := min a.exponent b.exponent
  a.coeffAt e == b.coeffAt e

def zero : Decimal := ⟨0, 0⟩

/-- The number without an exponent, `format(d, "f")`. -/
def fixed (d : Decimal) : Text :=
  let point := (-d.exponent).toNat
  let digits := Nat.toDigits 10 (d.coeffAt (min d.exponent 0)).natAbs
  let padded := List.replicate (point + 1 - digits.length) '0' ++ digits
  let sign := if d.coeff < 0 then ['-'] else []
  let fraction := if point = 0 then [] else '.' :: padded.drop (padded.length - point)
  sign ++ padded.take (padded.length - point) ++ fraction

/-- The scientific string of the decimal arithmetic standard. -/
def str (d : Decimal) : String :=
  let digits := Nat.toDigits 10 d.coeff.natAbs
  let sign := if d.coeff < 0 then "-" else ""
  let adjusted := d.exponent + (digits.length - 1 : Int)
  let body :=
    if d.exponent ≤ 0 ∧ adjusted ≥ -6 then
      let point := (-d.exponent).toNat
      let padded := List.replicate (point + 1 - digits.length) '0' ++ digits
      if point = 0 then String.ofList padded
      else String.ofList (padded.take (padded.length - point)) ++ "." ++
        String.ofList (padded.drop (padded.length - point))
    else
      let mantissa := match digits with
        | [d] => String.ofList [d]
        | d :: ds => String.ofList (d :: '.' :: ds)
        | [] => ""
      mantissa ++ "E" ++ (if adjusted < 0 then "-" else "+") ++ toString adjusted.natAbs
  sign ++ body

section

variable {d : Decimal} {n k places precision : Nat} {exponent whole : Int}

theorem digitCount_le_iff (pos : 0 < k) : digitCount n ≤ k ↔ n < 10 ^ k :=
  Nat.length_toDigits_le_iff (by omega) pos

theorem lt_pow_digitCount (n : Nat) : n < 10 ^ digitCount n :=
  (digitCount_le_iff Nat.length_toDigits_pos).mp (Nat.le_refl _)

theorem divHalfEven_le (n k : Nat) : divHalfEven n k ≤ n / 10 ^ k + 1 := by
  simp only [divHalfEven]
  split
  · exact Nat.le_refl _
  · exact Nat.le_succ _

theorem divHalfEven_of_dvd (exact : 10 ^ k ∣ n) : divHalfEven n k * 10 ^ k = n := by
  have none : n % 10 ^ k = 0 := Nat.mod_eq_zero_of_dvd exact
  have pos : 0 < 10 ^ k := Nat.pow_pos (by omega)
  have kept : divHalfEven n k = n / 10 ^ k := by
    simp only [divHalfEven, none]
    split
    next up => omega
    next => rfl
  rw [kept, Nat.div_mul_cancel exact]

theorem coeffAt_self (d : Decimal) : d.coeffAt d.exponent = d.coeff := by
  rw [coeffAt, Int.sub_self]
  simp

/-- A number of at most `whole` digits before its point takes a carry more when it is rescaled. -/
theorem rescale_lt (fits : (digitCount d.coeff.natAbs : Int) + d.exponent ≤ whole) (room : whole + places < precision)
    (pos : 0 < precision) :
    (d.rescale (-places)).natAbs < 10 ^ precision := by
  have coeff := lt_pow_digitCount d.coeff.natAbs
  unfold rescale
  split
  next kept =>
    have digits : digitCount d.coeff.natAbs + (d.exponent - -(places : Int)).toNat ≤ precision := by omega
    rw [coeffAt, Int.natAbs_mul, Int.natAbs_pow, show Int.natAbs 10 = 10 from rfl]
    calc
      d.coeff.natAbs * 10 ^ (d.exponent - -(places : Int)).toNat
          < 10 ^ digitCount d.coeff.natAbs * 10 ^ (d.exponent - -(places : Int)).toNat :=
        Nat.mul_lt_mul_of_pos_right coeff (Nat.pow_pos (by omega))
      _ = 10 ^ (digitCount d.coeff.natAbs + (d.exponent - -(places : Int)).toNat) := (Nat.pow_add ..).symm
      _ ≤ 10 ^ precision := Nat.pow_le_pow_right (by omega) digits
  next rounded =>
    let k := (-(places : Int) - d.exponent).toNat
    have sign : (d.coeff.sign * (divHalfEven d.coeff.natAbs k : Int)).natAbs ≤ divHalfEven d.coeff.natAbs k := by
      rw [Int.natAbs_mul, Int.natAbs_natCast]
      have unit : d.coeff.sign.natAbs ≤ 1 := by
        rw [Int.natAbs_sign]
        split <;> omega
      calc
        d.coeff.sign.natAbs * divHalfEven d.coeff.natAbs k ≤ 1 * divHalfEven d.coeff.natAbs k :=
          Nat.mul_le_mul_right _ unit
        _ = divHalfEven d.coeff.natAbs k := Nat.one_mul _
    have digits : digitCount d.coeff.natAbs ≤ precision - 1 + k := by omega
    have quotient : d.coeff.natAbs / 10 ^ k < 10 ^ (precision - 1) := by
      rw [Nat.div_lt_iff_lt_mul (Nat.pow_pos (by omega)), ← Nat.pow_add]
      exact Nat.lt_of_lt_of_le coeff (Nat.pow_le_pow_right (by omega) digits)
    have carry : 10 ^ (precision - 1) < 10 ^ precision := Nat.pow_lt_pow_right (by omega) (by omega)
    have rounded := divHalfEven_le d.coeff.natAbs k
    exact Nat.lt_of_le_of_lt sign (by omega)

theorem sign_mul_divHalfEven (exact : 10 ^ k ∣ d.coeff.natAbs) :
    d.coeff.sign * (divHalfEven d.coeff.natAbs k : Int) * 10 ^ k = d.coeff := by
  have back : ((divHalfEven d.coeff.natAbs k * 10 ^ k : Nat) : Int) = d.coeff.natAbs := by
    rw [divHalfEven_of_dvd exact]
  rw [Int.natCast_mul, Int.natCast_pow] at back
  calc
    d.coeff.sign * (divHalfEven d.coeff.natAbs k : Int) * 10 ^ k
        = d.coeff.sign * ((divHalfEven d.coeff.natAbs k : Int) * 10 ^ k) := Int.mul_assoc ..
    _ = d.coeff.sign * (d.coeff.natAbs : Int) := by rw [show ((10 : Int) ^ k) = ((10 : Nat) : Int) ^ k from rfl, back]
    _ = d.coeff := Int.sign_mul_natAbs _

/-- Rescaling keeps the number exactly when it drops nothing but zeros. -/
theorem rescale_same_iff : same ⟨d.rescale exponent, exponent⟩ d ↔ 10 ^ (exponent - d.exponent).toNat ∣ d.coeff := by
  unfold same rescale
  rw [beq_iff_eq]
  by_cases kept : exponent ≤ d.exponent
  · have least : min exponent d.exponent = exponent := by omega
    have drop : (exponent - d.exponent).toNat = 0 := by omega
    simp only [if_pos kept, least, drop]
    rw [coeffAt, Int.sub_self]
    simp
  · have least : min exponent d.exponent = d.exponent := by omega
    simp only [if_neg kept, least, coeffAt_self]
    rw [coeffAt]
    let k := (exponent - d.exponent).toNat
    change d.coeff.sign * (divHalfEven d.coeff.natAbs k : Int) * 10 ^ k = d.coeff ↔ (10 : Int) ^ k ∣ d.coeff
    constructor
    · intro h
      rw [← h]
      exact Int.dvd_mul_left _ _
    · intro exact
      have natural : 10 ^ k ∣ d.coeff.natAbs := by
        have := Int.natAbs_dvd_natAbs.mpr exact
        rwa [Int.natAbs_pow] at this
      exact sign_mul_divHalfEven natural

/-- A cast that drops no digit succeeds when the whole number fits. -/
theorem castNumeric_of_le (kept : -(places : Int) ≤ d.exponent) :
    d.castNumeric precision places =
      if (d.rescale (-places)).natAbs < 10 ^ precision then some ⟨d.rescale (-places), -places⟩ else none := by
  have drop : (-(places : Int) - d.exponent).toNat = 0 := by omega
  simp only [castNumeric, rescale, drop, if_true, if_pos kept]

end

/-- The digits of `MathContext.DECIMAL128`. -/
def decimal128 : Nat := 34

def mul (precision : Nat) (a b : Decimal) : Decimal := roundTo precision ⟨a.coeff * b.coeff, a.exponent + b.exponent⟩

def sub (precision : Nat) (a b : Decimal) : Decimal := add precision a ⟨-b.coeff, b.exponent⟩

/-- The quotient rounded to the precision, unless the divisor is zero. The digit after the precision stands for the
rest of the quotient. -/
def div (precision : Nat) (a b : Decimal) : Option Decimal :=
  if b.coeff = 0 then none
  else
    let k := precision + 1 + digitCount b.coeff.natAbs - digitCount a.coeff.natAbs
    let shifted := a.coeff.natAbs * 10 ^ k
    let rest := if shifted % b.coeff.natAbs = 0 then 0 else 1
    some (roundTo precision
      ⟨a.coeff.sign * b.coeff.sign * (shifted / b.coeff.natAbs * 10 + rest : Nat), a.exponent - b.exponent - k - 1⟩)

/-- `setScale(scale, HALF_UP)`. -/
def setScale (scale : Nat) (d : Decimal) : Decimal :=
  let k := (-(scale : Int) - d.exponent).toNat
  let rounded := (d.coeff.natAbs + (if k = 0 then 0 else 5 * 10 ^ (k - 1))) / 10 ^ k
  ⟨if k = 0 then d.coeffAt (-(scale : Int)) else d.coeff.sign * rounded, -(scale : Int)⟩

end Decimal

end OtterWorks
