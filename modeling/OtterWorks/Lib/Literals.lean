import OtterWorks.Lib.Decimal
import Mathlib.Data.List.TakeWhile

namespace OtterWorks

/-- The zeros of the blocks of decimal digits, Unicode 15.0. -/
def decimalZeros : List Nat :=
  [0x30, 0x660, 0x6f0, 0x7c0, 0x966, 0x9e6, 0xa66, 0xae6, 0xb66, 0xbe6, 0xc66, 0xce6, 0xd66, 0xde6, 0xe50,
    0xed0, 0xf20, 0x1040, 0x1090, 0x17e0, 0x1810, 0x1946, 0x19d0, 0x1a80, 0x1a90, 0x1b50, 0x1bb0, 0x1c40,
    0x1c50, 0xa620, 0xa8d0, 0xa900, 0xa9d0, 0xa9f0, 0xaa50, 0xabf0, 0xff10, 0x104a0, 0x10d30, 0x11066,
    0x110f0, 0x11136, 0x111d0, 0x112f0, 0x11450, 0x114d0, 0x11650, 0x116c0, 0x11730, 0x118e0, 0x11950,
    0x11c50, 0x11d50, 0x11da0, 0x11f50, 0x16a60, 0x16ac0, 0x16b50, 0x1d7ce, 0x1d7d8, 0x1d7e2, 0x1d7ec,
    0x1d7f6, 0x1e140, 0x1e2f0, 0x1e4f0, 0x1e950, 0x1fbf0]

def decimalDigit (c : Char) : Option Nat :=
  (decimalZeros.find? fun first => decide (first ≤ c.toNat ∧ c.toNat ≤ first + 9)).map (c.toNat - ·)

def isDecimal (c : Char) : Bool := (decimalDigit c).isSome

def isSpace (c : Char) : Bool :=
  let n := c.toNat
  decide ((0x9 ≤ n ∧ n ≤ 0xd) ∨ (0x1c ≤ n ∧ n ≤ 0x20) ∨ (0x2000 ≤ n ∧ n ≤ 0x200a) ∨
    n ∈ [0x85, 0xa0, 0x1680, 0x2028, 0x2029, 0x202f, 0x205f, 0x3000])

/-- `str.strip()`. -/
def strip (s : Text) : Text := ((s.dropWhile isSpace).reverse.dropWhile isSpace).reverse

def splitSign : Text → Bool × Text
  | '-' :: s => (true, s)
  | '+' :: s => (false, s)
  | s => (false, s)

def signed (negative : Bool) (n : Nat) : Int := if negative then -n else n

def digitsValue (s : Text) : Nat := (s.filterMap decimalDigit).foldl (fun n d => 10 * n + d) 0

/-- `n` with zeros on its left. -/
def zeroPad (width n : Nat) : Text :=
  List.replicate (width - (Nat.toDigits 10 n).length) '0' ++ Nat.toDigits 10 n

/-- The digits that `int` reads of a text before it refuses the length. -/
def intDigitsLimit : Nat := 4300

/-- `int(text)`: single underscores may stand between digits. -/
def intOf (s : Text) : Option Int :=
  let (negative, body) := splitSign (strip s)
  let digits := body.filter (· ≠ '_')
  if (body.splitOn '_').all (fun part => !part.isEmpty && part.all isDecimal) ∧
      digits.length ≤ intDigitsLimit then
    some (signed negative (digitsValue digits))
  else none

/-- What `Decimal(text)` makes: the sign of a zero is kept, and there are infinities and NaNs. -/
inductive Literal
  | finite (negative : Bool) (d : Decimal)
  | special (name : String)
  deriving DecidableEq, Repr

def Literal.str : Literal → String
  | .finite negative d => (if negative ∧ d.coeff = 0 then "-" else "") ++ d.str
  | .special name => name

def Literal.value : Literal → Option Decimal
  | .finite _ d => some d
  | .special _ => none

def specialOf (negative : Bool) (body : Text) : Option Literal :=
  let sign := if negative then "-" else ""
  let letters := (body.takeWhile fun c => !isDecimal c).map Char.toLower
  let payload := body.dropWhile fun c => !isDecimal c
  let diagnostic := if digitsValue payload = 0 then "" else toString (digitsValue payload)
  if letters = text "inf" ∨ letters = text "infinity" then
    if payload = [] then some (.special (sign ++ "Infinity")) else none
  else if ¬ payload.all isDecimal then none
  else if letters = text "nan" then some (.special (sign ++ "NaN" ++ diagnostic))
  else if letters = text "snan" then some (.special (sign ++ "sNaN" ++ diagnostic))
  else none

def exponentOf : Text → Option Int
  | [] => some 0
  | c :: s =>
    let (negative, digits) := splitSign s
    if (c = 'e' ∨ c = 'E') ∧ digits ≠ [] ∧ digits.all isDecimal then some (signed negative (digitsValue digits))
    else none

def fractionOf : Text → Text × Text
  | '.' :: s => (s.takeWhile isDecimal, s.dropWhile isDecimal)
  | s => ([], s)

/-- The exponents that an exact conversion may have. -/
def exactDecimal (d : Decimal) : Prop :=
  -1999999999999999997 ≤ d.exponent ∧ d.exponent + Decimal.digitCount d.coeff.natAbs ≤ 1000000000000000000

instance (d : Decimal) : Decidable (exactDecimal d) := inferInstanceAs (Decidable (_ ∧ _))

/-- `Decimal(text)`. -/
def decimalOf (s : Text) : Option Literal :=
  let (negative, body) := splitSign ((strip s).filter (· ≠ '_'))
  let whole := body.takeWhile isDecimal
  let (fraction, rest) := fractionOf (body.dropWhile isDecimal)
  if whole ++ fraction = [] then specialOf negative body
  else
    (exponentOf rest).bind fun e =>
      let d : Decimal := ⟨signed negative (digitsValue (whole ++ fraction)), e - fraction.length⟩
      if exactDecimal d then some (.finite negative d) else none

section

variable {c : Char} {s whole fraction : Text} {n w : Nat}

theorem toNat_of_isDigit (h : c.isDigit) : 48 ≤ c.toNat ∧ c.toNat ≤ 57 := by
  simp only [Char.isDigit, Bool.and_eq_true, decide_eq_true_eq, ge_iff_le, UInt32.le_iff_toNat_le] at h
  exact h

theorem decimalDigit_of_isDigit (h : c.isDigit) : decimalDigit c = some (c.toNat - 48) := by
  have bounds := toNat_of_isDigit h
  have first : decide (0x30 ≤ c.toNat ∧ c.toNat ≤ 0x30 + 9) = true := by
    rw [decide_eq_true_eq]
    omega
  simp only [decimalDigit, decimalZeros, List.find?_cons, first, Option.map_some]

theorem isDecimal_of_isDigit (h : c.isDigit) : isDecimal c = true := by
  rw [isDecimal, decimalDigit_of_isDigit h, Option.isSome_some]

/-- Among the ASCII characters only the ten digits are decimal. -/
theorem isDigit_of_isDecimal (decimal : isDecimal c = true) (ascii : c.toNat < 128) : c.isDigit := by
  obtain ⟨value, found⟩ := Option.isSome_iff_exists.mp decimal
  obtain ⟨first, held, _⟩ := Option.map_eq_some_iff.mp found
  have listed := List.mem_of_find?_eq_some held
  have inside := List.find?_some held
  simp only [decide_eq_true_eq] at inside
  have low : ∀ x ∈ decimalZeros, x < 128 → x = 0x30 := by decide
  have zero := low first listed (by omega)
  have code : c.val.toNat = c.toNat := rfl
  simp only [Char.isDigit, Bool.and_eq_true, decide_eq_true_eq, ge_iff_le, UInt32.le_iff_toNat_le]
  change 48 ≤ c.toNat ∧ c.toNat ≤ 57
  omega

theorem isSpace_of_isDigit (h : c.isDigit) : isSpace c = false := by
  have bounds := toNat_of_isDigit h
  have outside : c.toNat ∉ [0x85, 0xa0, 0x1680, 0x2028, 0x2029, 0x202f, 0x205f, 0x3000] := by
    intro h
    have large : ∀ x ∈ [0x85, 0xa0, 0x1680, 0x2028, 0x2029, 0x202f, 0x205f, 0x3000], 57 < x := by decide
    have := large _ h
    omega
  rw [isSpace, decide_eq_false_iff_not]
  rintro (low | low | high | listed)
  · omega
  · omega
  · omega
  · exact outside listed

theorem digitsValue_eq (digits : ∀ c ∈ s, c.isDigit) : digitsValue s = Nat.ofDigitChars 10 s 0 := by
  have read : ∀ start, (s.filterMap decimalDigit).foldl (fun n d => 10 * n + d) start = Nat.ofDigitChars 10 s start := by
    induction s with
    | nil => simp
    | cons c s ih =>
      intro start
      have here := decimalDigit_of_isDigit (digits c (List.mem_cons_self ..))
      rw [List.filterMap_cons_some here, List.foldl_cons, ih fun x hx => digits x (List.mem_cons_of_mem _ hx),
        Nat.ofDigitChars_cons]
      rfl
  exact read 0

theorem isDigit_zeros (h : c ∈ List.replicate w '0' ++ Nat.toDigits 10 n) : c.isDigit := by
  rcases List.mem_append.mp h with pad | digit
  · rw [List.eq_of_mem_replicate pad]
    rfl
  · exact Nat.isDigit_of_mem_toDigits (by omega) (by omega) digit

/-- Digits padded with zeros are read back. -/
theorem digitsValue_zeros : digitsValue (List.replicate w '0' ++ Nat.toDigits 10 n) = n := by
  rw [digitsValue_eq fun c hc => isDigit_zeros hc, Nat.ofDigitChars_append, Nat.ofDigitChars_replicate_zero,
    Nat.mul_zero, Nat.ofDigitChars_ten_toDigits]

theorem digitChar_of_isDigit (h : c.isDigit) : Nat.digitChar (c.toNat - 48) = c := by
  have bounds := toNat_of_isDigit h
  apply Char.toNat_inj.mp
  rw [Nat.toNat_digitChar_of_lt_ten (by omega)]
  omega

/-- Digits after a number that is not zero are digits of the number they continue. -/
theorem toDigits_ofDigitChars (digits : ∀ c ∈ s, c.isDigit) (pos : 0 < n) :
    Nat.toDigits 10 (Nat.ofDigitChars 10 s n) = Nat.toDigits 10 n ++ s := by
  induction s generalizing n with
  | nil => simp
  | cons c s ih =>
    have digit := digits c (List.mem_cons_self ..)
    have bounds := toNat_of_isDigit digit
    have next : c.toNat - '0'.toNat = c.toNat - 48 := rfl
    have last : Nat.toDigits 10 (c.toNat - 48) = [c] := by
      rw [Nat.toDigits_of_lt_base (by omega), digitChar_of_isDigit digit]
    rw [Nat.ofDigitChars_cons, next, ih (fun x hx => digits x (List.mem_cons_of_mem _ hx)) (by omega),
      ← Nat.toDigits_append_toDigits (by omega) pos (by omega), last, List.append_assoc]
    rfl

@[simp]
theorem length_zeroPad (fits : (Nat.toDigits 10 n).length ≤ w) : (zeroPad w n).length = w := by
  rw [zeroPad, List.length_append, List.length_replicate]
  omega

/-- A text of digits is its number, padded to the length of the text. -/
theorem zeroPad_digitsValue (digits : ∀ c ∈ s, c.isDigit) (some : s ≠ []) : zeroPad s.length (digitsValue s) = s := by
  rw [digitsValue_eq digits]
  induction s with
  | nil => exact absurd rfl some
  | cons c s ih =>
    have digit := digits c (List.mem_cons_self ..)
    have rest : ∀ x ∈ s, x.isDigit := fun x hx => digits x (List.mem_cons_of_mem _ hx)
    have bounds := toNat_of_isDigit digit
    rw [Nat.ofDigitChars_cons, Nat.mul_zero, Nat.zero_add]
    by_cases zero : c = '0'
    · subst zero
      have first : '0'.toNat - '0'.toNat = 0 := rfl
      rw [first]
      cases s with
      | nil => rfl
      | cons d s =>
        have tail := ih rest (by simp)
        have length := congrArg List.length tail
        rw [zeroPad, List.length_append, List.length_replicate] at length
        have one : (d :: s).length + 1 - (Nat.toDigits 10 (Nat.ofDigitChars 10 (d :: s) 0)).length =
            (d :: s).length - (Nat.toDigits 10 (Nat.ofDigitChars 10 (d :: s) 0)).length + 1 := by omega
        rw [zeroPad, List.length_cons, one, List.replicate_succ, List.cons_append]
        exact congrArg (List.cons '0') tail
    · have pos : 0 < c.toNat - '0'.toNat := by
        have other : c.toNat ≠ 48 := fun h => zero (Char.toNat_inj.mp h)
        have code : '0'.toNat = 48 := rfl
        omega
      have all : Nat.toDigits 10 (Nat.ofDigitChars 10 s (c.toNat - '0'.toNat)) = c :: s := by
        have code : c.toNat - '0'.toNat = c.toNat - 48 := rfl
        rw [toDigits_ofDigitChars rest pos, code, Nat.toDigits_of_lt_base (by omega), digitChar_of_isDigit digit]
        rfl
      rw [zeroPad, all, Nat.sub_self]
      rfl

theorem digitsValue_lt (digits : ∀ c ∈ s, c.isDigit) (nonempty : s ≠ []) : digitsValue s < 10 ^ s.length := by
  have length := congrArg List.length (zeroPad_digitsValue digits nonempty)
  rw [zeroPad, List.length_append, List.length_replicate] at length
  have positive : 0 < s.length := List.length_pos_iff.mpr nonempty
  have short : Decimal.digitCount (digitsValue s) ≤ s.length := by
    change (Nat.toDigits 10 (digitsValue s)).length ≤ s.length
    omega
  exact (Decimal.digitCount_le_iff positive).mp short

/-- Digits that do not begin with a zero are their number. -/
theorem toDigits_digitsValue (digits : ∀ c ∈ s, c.isDigit) (nonempty : s ≠ []) (leading : s.head? ≠ some '0') :
    Nat.toDigits 10 (digitsValue s) = s := by
  have padded := zeroPad_digitsValue digits nonempty
  rw [zeroPad] at padded
  cases count : s.length - (Nat.toDigits 10 (digitsValue s)).length with
  | zero =>
    rw [count] at padded
    exact padded
  | succ k =>
    rw [count, List.replicate_succ, List.cons_append] at padded
    rw [← padded] at leading
    exact absurd rfl leading

theorem isDigit_zeroPad (h : c ∈ zeroPad w n) : c.isDigit := isDigit_zeros h

theorem digitsValue_zeroPad : digitsValue (zeroPad w n) = n := digitsValue_zeros

theorem digitsValue_cons (digit : c.isDigit) (digits : ∀ x ∈ s, x.isDigit) :
    digitsValue (c :: s) = (c.toNat - 48) * 10 ^ s.length + digitsValue s := by
  have all : ∀ x ∈ c :: s, x.isDigit := List.forall_mem_cons.mpr ⟨digit, digits⟩
  have code : c.toNat - '0'.toNat = c.toNat - 48 := rfl
  rw [digitsValue_eq all, digitsValue_eq digits, Nat.ofDigitChars_cons, Nat.ofDigitChars_eq_ofDigitChars_zero, Nat.mul_zero,
    Nat.zero_add, code, Nat.mul_comm]

/-- Texts of one length in a row are compared one after the other. -/
theorem compare_append_of_length {a a' : Text} (length : a.length = a'.length) (b b' : Text) :
    compare (a ++ b) (a' ++ b') = (compare a a').then (compare b b') := by
  induction a generalizing a' with
  | nil =>
    cases List.length_eq_zero_iff.mp length.symm
    rfl
  | cons c a ih =>
    cases a' with
    | nil => cases length
    | cons c' a' =>
      simp only [List.cons_append, List.compare_cons_cons, ih (Nat.succ.inj length)]
      cases compare c c' with
      | lt => rfl
      | eq => rfl
      | gt => rfl

theorem compare_char {d : Char} : compare c d = compare c.toNat d.toNat := by
  rcases lt_trichotomy c.toNat d.toNat with lt | same | gt
  · have less : c < d := lt
    rw [Nat.compare_eq_lt.mpr lt]
    exact compareOfLessAndEq_eq_lt.mpr less
  · cases Char.toNat_inj.mp same
    simp
  · have less : d < c := gt
    rw [Nat.compare_eq_gt.mpr gt]
    exact Std.OrientedCmp.gt_of_lt (compareOfLessAndEq_eq_lt.mpr less)

theorem digitsValue_lt_pow (digits : ∀ c ∈ s, c.isDigit) : digitsValue s < 10 ^ s.length := by
  cases s with
  | nil => decide
  | cons c s => exact digitsValue_lt digits (List.cons_ne_nil c s)

/-- As many digits are in the order of their numbers. -/
theorem compare_digits {t : Text} (length : s.length = t.length) (digits : ∀ c ∈ s, c.isDigit) (digits' : ∀ c ∈ t, c.isDigit) :
    compare s t = compare (digitsValue s) (digitsValue t) := by
  induction s generalizing t with
  | nil =>
    cases List.length_eq_zero_iff.mp length.symm
    rfl
  | cons c s ih =>
    cases t with
    | nil => cases length
    | cons d t =>
      obtain ⟨digit, digits⟩ := List.forall_mem_cons.mp digits
      obtain ⟨digit', digits'⟩ := List.forall_mem_cons.mp digits'
      have low := toNat_of_isDigit digit
      have low' := toNat_of_isDigit digit'
      have lengths : s.length = t.length := Nat.succ.inj length
      have small := digitsValue_lt_pow digits
      have small' := digitsValue_lt_pow digits'
      rw [lengths] at small
      rw [List.compare_cons_cons, ih lengths digits digits', digitsValue_cons digit digits, digitsValue_cons digit' digits',
        lengths]
      generalize 10 ^ t.length = unit at small small'
      rcases lt_trichotomy c.toNat d.toNat with lt | same | gt
      · have more : (c.toNat - 48 + 1) * unit ≤ (d.toNat - 48) * unit := Nat.mul_le_mul_right _ (by omega)
        have less : (c.toNat - 48) * unit + digitsValue s < (d.toNat - 48) * unit + digitsValue t := by
          rw [Nat.add_mul, Nat.one_mul] at more
          omega
        rw [compare_char, Nat.compare_eq_lt.mpr lt, Nat.compare_eq_lt.mpr less]
        rfl
      · cases Char.toNat_inj.mp same
        have head : compare c c = .eq := Std.ReflCmp.compare_self
        rw [head]
        rcases lt_trichotomy (digitsValue s) (digitsValue t) with lt | same | gt
        · rw [Nat.compare_eq_lt.mpr lt, Nat.compare_eq_lt.mpr (Nat.add_lt_add_left lt _)]
          rfl
        · rw [same, Nat.compare_eq_eq.mpr rfl, Nat.compare_eq_eq.mpr rfl]
          rfl
        · rw [Nat.compare_eq_gt.mpr gt, Nat.compare_eq_gt.mpr (Nat.add_lt_add_left gt _)]
          rfl
      · have more : (d.toNat - 48 + 1) * unit ≤ (c.toNat - 48) * unit := Nat.mul_le_mul_right _ (by omega)
        have less : (d.toNat - 48) * unit + digitsValue t < (c.toNat - 48) * unit + digitsValue s := by
          rw [Nat.add_mul, Nat.one_mul] at more
          omega
        rw [compare_char, Nat.compare_eq_gt.mpr gt, Nat.compare_eq_gt.mpr less]
        rfl

theorem compare_cons_self (c : Char) (s t : Text) : compare (c :: s) (c :: t) = compare s t := by
  have head : compare c c = .eq := Std.ReflCmp.compare_self
  rw [List.compare_cons_cons, head]
  rfl

theorem then_lt {m : Nat} {rest : Ordering} (h : n < m ∨ n = m ∧ rest = .lt) : (compare n m).then rest = .lt := by
  rcases h with lt | ⟨rfl, below⟩
  · rw [Nat.compare_eq_lt.mpr lt]
    rfl
  · rw [Nat.compare_eq_eq.mpr rfl, below]
    rfl

/-- A padded number ahead of a text is compared first. -/
theorem compare_zeroPad {m : Nat} (fits : n < 10 ^ w) (fits' : m < 10 ^ w) (pos : 0 < w) (rest rest' : Text) :
    compare (zeroPad w n ++ rest) (zeroPad w m ++ rest') = (compare n m).then (compare rest rest') := by
  have length := @length_zeroPad n w ((Decimal.digitCount_le_iff pos).mpr fits)
  have length' := @length_zeroPad m w ((Decimal.digitCount_le_iff pos).mpr fits')
  rw [compare_append_of_length (length.trans length'.symm),
    compare_digits (length.trans length'.symm) (fun _ => isDigit_zeroPad) (fun _ => isDigit_zeroPad), digitsValue_zeroPad,
    digitsValue_zeroPad]

theorem strip_of_no_space (plain : ∀ c ∈ s, isSpace c = false) : strip s = s := by
  have front : ∀ t : Text, (∀ c ∈ t, isSpace c = false) → t.dropWhile isSpace = t := by
    intro t ht
    cases t with
    | nil => rfl
    | cons c t => rw [List.dropWhile_cons_of_neg]; simp [ht c (List.mem_cons_self ..)]
  rw [strip, front s plain, front _ fun c hc => plain c (List.mem_reverse.mp hc), List.reverse_reverse]

theorem splitSign_of_digits (digits : ∀ c ∈ whole, c.isDigit) (some : whole ≠ []) (rest : Text) :
    splitSign (whole ++ rest) = (false, whole ++ rest) := by
  cases whole with
  | nil => exact absurd rfl some
  | cons c whole =>
    have bounds := toNat_of_isDigit (digits c (List.mem_cons_self ..))
    rw [List.cons_append, splitSign]
    · intro t h
      rw [(List.cons.inj h).1] at bounds
      exact absurd bounds.1 (by decide)
    · intro t h
      rw [(List.cons.inj h).1] at bounds
      exact absurd bounds.1 (by decide)

/-- `Decimal` reads a plain number with a fraction. -/
theorem decimalOf_plain {negative : Bool} (wholeDigits : ∀ c ∈ whole, c.isDigit) (nonempty : whole ≠ [])
    (fractionDigits : ∀ c ∈ fraction, c.isDigit)
    (exact : exactDecimal ⟨signed negative (digitsValue (whole ++ fraction)), -fraction.length⟩) :
    decimalOf ((if negative then ['-'] else []) ++ whole ++ '.' :: fraction) =
      some (.finite negative ⟨signed negative (digitsValue (whole ++ fraction)), -fraction.length⟩) := by
  have chars : ∀ c ∈ (if negative then ['-'] else []) ++ whole ++ '.' :: fraction,
      c = '-' ∨ c = '.' ∨ c.isDigit := by
    intro c hc
    simp only [List.mem_append, List.mem_cons] at hc
    rcases hc with (sign | digit) | point | digit
    · cases negative with
      | true => exact Or.inl (List.mem_singleton.mp sign)
      | false => cases sign
    · exact Or.inr (Or.inr (wholeDigits c digit))
    · exact Or.inr (Or.inl point)
    · exact Or.inr (Or.inr (fractionDigits c digit))
  have noSpace : strip ((if negative then ['-'] else []) ++ whole ++ '.' :: fraction) =
      (if negative then ['-'] else []) ++ whole ++ '.' :: fraction := by
    apply strip_of_no_space
    intro c hc
    rcases chars c hc with rfl | rfl | digit
    · decide
    · decide
    · exact isSpace_of_isDigit digit
  have noUnderscore : ((if negative then ['-'] else []) ++ whole ++ '.' :: fraction).filter (· ≠ '_') =
      (if negative then ['-'] else []) ++ whole ++ '.' :: fraction := by
    apply List.filter_eq_self.mpr
    intro c hc
    rcases chars c hc with rfl | rfl | digit
    · decide
    · decide
    · have bounds := toNat_of_isDigit digit
      rw [decide_eq_true_eq]
      rintro rfl
      exact absurd bounds.2 (by decide)
  have split : splitSign ((if negative then ['-'] else []) ++ whole ++ '.' :: fraction) =
      (negative, whole ++ '.' :: fraction) := by
    cases negative with
    | true => rfl
    | false => simpa using splitSign_of_digits wholeDigits nonempty ('.' :: fraction)
  have all (t : Text) (digits : ∀ c ∈ t, c.isDigit) : ∀ c ∈ t, isDecimal c = true :=
    fun c hc => isDecimal_of_isDigit (digits c hc)
  have point : isDecimal '.' = false := by decide
  have front : (whole ++ '.' :: fraction).takeWhile isDecimal = whole := by
    rw [List.takeWhile_append_of_pos (all whole wholeDigits), List.takeWhile_cons_of_neg (by simp [point]),
      List.append_nil]
  have back : (whole ++ '.' :: fraction).dropWhile isDecimal = '.' :: fraction := by
    rw [List.dropWhile_append_of_pos (all whole wholeDigits), List.dropWhile_cons_of_neg (by simp [point])]
  have tail : fractionOf ('.' :: fraction) = (fraction, []) := by
    simp only [fractionOf, List.takeWhile_eq_self_iff.mpr (all fraction fractionDigits),
      List.dropWhile_eq_nil_iff.mpr (all fraction fractionDigits)]
  have digits : whole ++ fraction ≠ [] := by
    intro h
    exact nonempty (List.append_eq_nil_iff.mp h).1
  simp only [decimalOf, noSpace, noUnderscore, split, front, back, tail, if_neg digits, exponentOf,
    Option.bind_some, Int.zero_sub, if_pos exact]

theorem no_underscore (digits : ∀ c ∈ s, c.isDigit) : s.filter (· ≠ '_') = s := by
  apply List.filter_eq_self.mpr
  intro c hc
  have bounds := toNat_of_isDigit (digits c hc)
  rw [decide_eq_true_eq]
  rintro rfl
  exact absurd bounds.2 (by decide)

/-- `int` reads a text of digits that is not too long. -/
theorem intOf_digits (digits : ∀ c ∈ s, c.isDigit) (some : s ≠ []) :
    intOf s = if s.length ≤ intDigitsLimit then .some (digitsValue s : Int) else none := by
  have plain : strip s = s := strip_of_no_space fun c hc => isSpace_of_isDigit (digits c hc)
  have split : splitSign s = (false, s) := by simpa using splitSign_of_digits digits some []
  have parts : s.splitOn '_' = [s] := by
    apply List.splitOnP_eq_singleton
    intro c hc
    have bounds := toNat_of_isDigit (digits c hc)
    rw [beq_eq_false_iff_ne]
    rintro rfl
    exact absurd bounds.2 (by decide)
  have decimal : s.all isDecimal = true := List.all_eq_true.mpr fun c hc => isDecimal_of_isDigit (digits c hc)
  have full : s.isEmpty = false := by
    rw [List.isEmpty_eq_false_iff]
    exact some
  unfold intOf
  rw [plain, split]
  simp only [parts, no_underscore digits, List.all_cons, List.all_nil, full, decimal, Bool.not_false, Bool.and_true,
    true_and]
  rfl

/-- `Decimal` reads a whole number. -/
theorem decimalOf_digits (digits : ∀ c ∈ s, c.isDigit) (some : s ≠ []) (exact : exactDecimal ⟨digitsValue s, 0⟩) :
    decimalOf s = .some (.finite false ⟨digitsValue s, 0⟩) := by
  have plain : strip s = s := strip_of_no_space fun c hc => isSpace_of_isDigit (digits c hc)
  have split : splitSign s = (false, s) := by simpa using splitSign_of_digits digits some []
  have all : ∀ c ∈ s, isDecimal c = true := fun c hc => isDecimal_of_isDigit (digits c hc)
  have front : s.takeWhile isDecimal = s := List.takeWhile_eq_self_iff.mpr all
  have back : s.dropWhile isDecimal = [] := List.dropWhile_eq_nil_iff.mpr all
  have tail : fractionOf [] = ([], []) := rfl
  have number : (⟨signed false (digitsValue (s ++ [])), 0 - ([] : Text).length⟩ : Decimal) = ⟨digitsValue s, 0⟩ := by
    rw [List.append_nil]
    rfl
  simp only [decimalOf, plain, no_underscore digits, split, front, back, tail, List.append_nil, if_neg some, exponentOf,
    Option.bind_some]
  rw [List.append_nil] at number
  rw [number, if_pos exact]

theorem signed_natAbs (n : Int) : signed (decide (n < 0)) n.natAbs = n := by
  unfold signed
  by_cases below : n < 0
  · simp only [below, decide_true, if_true]
    omega
  · simp only [below, decide_false, Bool.false_eq_true, if_false]
    omega

/-- A number written without an exponent is read back. -/
theorem decimalOf_fixed {d : Decimal} (below : d.exponent < 0) (exact : exactDecimal d) :
    decimalOf d.fixed = some (.finite (decide (d.coeff < 0)) d) := by
  have least : min d.exponent 0 = d.exponent := by omega
  have coeff : d.coeffAt (min d.exponent 0) = d.coeff := by
    rw [least, Decimal.coeffAt, Int.sub_self]
    simp
  have point : (-d.exponent).toNat ≠ 0 := by omega
  let padded := List.replicate ((-d.exponent).toNat + 1 - (Nat.toDigits 10 d.coeff.natAbs).length) '0' ++
    Nat.toDigits 10 d.coeff.natAbs
  have length : (-d.exponent).toNat + 1 ≤ padded.length := by
    simp only [padded, List.length_append, List.length_replicate]
    omega
  have digits : ∀ c ∈ padded, c.isDigit := fun c hc => isDigit_zeros hc
  have whole : padded.take (padded.length - (-d.exponent).toNat) ≠ [] := by
    intro h
    have := congrArg List.length h
    rw [List.length_take, List.length_nil] at this
    omega
  have fraction : (padded.drop (padded.length - (-d.exponent).toNat)).length = (-d.exponent).toNat := by
    rw [List.length_drop]
    omega
  have value : digitsValue (padded.take (padded.length - (-d.exponent).toNat) ++
      padded.drop (padded.length - (-d.exponent).toNat)) = d.coeff.natAbs := by
    rw [List.take_append_drop]
    exact digitsValue_zeros
  have number : (⟨signed (decide (d.coeff < 0)) (digitsValue (padded.take (padded.length - (-d.exponent).toNat) ++
      padded.drop (padded.length - (-d.exponent).toNat))),
      -((padded.drop (padded.length - (-d.exponent).toNat)).length : Int)⟩ : Decimal) = d := by
    rw [value, fraction, signed_natAbs]
    have back : -(((-d.exponent).toNat : Nat) : Int) = d.exponent := by omega
    rw [back]
  have written : d.fixed = (if decide (d.coeff < 0) then ['-'] else []) ++
      padded.take (padded.length - (-d.exponent).toNat) ++ '.' :: padded.drop (padded.length - (-d.exponent).toNat) := by
    simp only [Decimal.fixed, coeff, if_neg point, decide_eq_true_eq, padded]
  rw [written, decimalOf_plain (fun c hc => digits c (List.mem_of_mem_take hc)) whole
    (fun c hc => digits c (List.mem_of_mem_drop hc)) (by rw [number]; exact exact), number]

end

end OtterWorks
