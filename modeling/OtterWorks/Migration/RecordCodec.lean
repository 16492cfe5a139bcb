import OtterWorks.Lib.FixedWidth
import OtterWorks.Migration.Record

namespace OtterWorks.Migration

/-- A codec both ways. It reads back what it writes, and writes a digit as one byte. -/
structure Charset where
  encode : Text → Except String Bytes
  decode : Bytes → Except DecodeError Text
  decode_encode : ∀ s b, encode s = .ok b → decode b = .ok s
  digits : ∀ s : Text, (∀ c ∈ s, c.isDigit) → ∃ b, encode s = .ok b ∧ b.length = s.length

abbrev Charsets := String → Charset

def Charsets.codecs (charsets : Charsets) : Codecs := fun encoding => some (charsets encoding).decode

/-- `_pic_layout`: the bytes of a numeric picture. -/
def picLength (usage : Usage) (digits : Nat) : Option Nat :=
  match usage with
  | .comp => if digits ≤ 4 then some 2 else if digits ≤ 9 then some 4 else if digits ≤ 18 then some 8 else none
  | .comp3 => some ((digits + 2) / 2)
  | .display => some digits

theorem no_digits_lt : 0 < 2 ^ 60 := by decide

/-- A column with the rest of its copybook field, which fits in memory. -/
structure RecordColumn where
  spec : ColumnSpec
  isNumeric : Bool
  signed : Bool
  digits : Nat
  length_eq : isNumeric = true → picLength spec.field.usage digits = some spec.field.length
  scale_le : isNumeric = true → spec.field.scale ≤ digits
  digits_lt : digits < 2 ^ 60

/-- `int(v or 0)`. -/
def intOfValue : Value → Except String Int
  | .null => .ok 0
  | .int n => .ok n
  | .decimal d => .ok d.truncate
  | .text [] => .ok 0
  | .text s =>
    match intOf s with
    | some n => .ok n
    | none => .error "invalid literal for int() with base 10"
  | _ => .error "int() argument must be a string, a bytes-like object or a real number"

/-- `Decimal(v or 0)`. -/
def decimalOfValue : Value → Except String Literal
  | .null => .ok (.finite false .zero)
  | .int n => .ok (.finite (decide (n < 0)) ⟨n, 0⟩)
  | .decimal d => .ok (if d.coeff = 0 then .finite false .zero else .finite (decide (d.coeff < 0)) d)
  | .text [] => .ok (.finite false .zero)
  | .text s =>
    match decimalOf s with
    | some literal => .ok literal
    | none => .error "decimal.ConversionSyntax"
  | _ => .error "conversion to Decimal is not supported"

/-- The first letter of an infinity or a NaN. -/
def specialLetter (name : String) : Option Char := (name.toList.filter (· ≠ '-')).head?

/-- `value.quantize(Decimal(1).scaleb(-scale))`; of the specials only a quiet NaN passes. -/
def quantizeTo (scale : Nat) : Literal → Except String Literal
  | .finite negative d =>
    match d.quantize decimalPrecision (-(scale : Int)) with
    | some q => .ok (.finite negative q)
    | none => .error "decimal.InvalidOperation"
  | .special name => if specialLetter name = some 'N' then .ok (.special name) else .error "decimal.InvalidOperation"

/-- `f"{abs(q):f}".replace(".", "")`. -/
def unsignedDigits : Literal → Except String Text
  | .finite _ d => .ok ((Decimal.fixed (Decimal.roundTo decimalPrecision ⟨d.coeff.natAbs, d.exponent⟩)).filter (· ≠ '.'))
  | .special name =>
    if specialLetter name = some 's' then .error "decimal.InvalidOperation" else .ok (name.toList.filter (· ≠ '-'))

/-- `str.rjust` with zeros. -/
def rjustZeros (s : Text) (n : Nat) : Text := List.replicate (n - s.length) '0' ++ s

def packNibbles : List Nat → Bytes
  | a :: b :: rest => UInt8.ofNat (16 * a + b) :: packNibbles rest
  | _ => []

def packComp3 (value : Literal) (length scale : Nat) : Except String Bytes := do
  let q ← quantizeTo scale value
  let digits ← unsignedDigits q
  if 2 * length < digits.length + 1 then .error s!"{value.str} does not fit in {length}-byte packed decimal"
  else
    match q with
    | .special _ => .error "invalid literal for int() with base 10"
    | .finite _ d =>
      .ok (packNibbles (((rjustZeros digits (2 * length - 1)).map fun c => (decimalDigit c).getD 0) ++
        [if d.coeff < 0 then 0xD else 0xC]))

/-- The digits of a display numeric. -/
def displayDigits (value : Literal) (scale : Nat) : Except String Text := do
  let q ← (if scale = 0 then .ok value else quantizeTo scale value)
  unsignedDigits q

/-- The text of a value in a text field, `""` for none. -/
def textOfValue : Value → Text
  | .text s => s
  | .timestamp12 s => s
  | .date s => s
  | .int n => (toString n).toList
  | .decimal d => d.str.toList
  | _ => []

def padByte (encoding : String) : UInt8 := if encoding.toLower = "cp037" then 0x40 else 0x20

/-- The bytes of a field before their number is checked. -/
def fieldBytes (charset : Charset) (c : RecordColumn) (v : Value) : Except String Bytes :=
  let f := c.spec.field
  match v with
  | .bytes b => .ok (b ++ List.replicate (f.length - b.length) (padByte c.spec.encoding))
  | _ =>
    if c.isNumeric then
      match f.usage with
      | .comp => do toBytes f.length (← intOfValue v)
      | .comp3 => do packComp3 (← decimalOfValue v) f.length f.scale
      | .display => do
        let digits ← displayDigits (← decimalOfValue v) f.scale
        charset.encode (rjustZeros digits f.length)
    else charset.encode (ljust (textOfValue v) f.length)

def encodeField (charset : Charset) (c : RecordColumn) (v : Value) : Except String Bytes := do
  let b ← fieldBytes charset c v
  if b.length ≠ c.spec.field.length then
    .error s!"column {c.spec.name}: value does not fit {c.spec.field.length} bytes"
  else .ok b

def encodeColumn (charsets : Charsets) (values : Fields) (out : Bytes) (c : RecordColumn) : Except String Bytes := do
  let b ← encodeField (charsets c.spec.encoding) c (values.get c.spec.name)
  .ok (splice c.spec.field.offset b out)

/-- `encode_record`: the fields over a record of blanks. -/
def encodeRecord (charsets : Charsets) (values : Fields) (cols : List RecordColumn) (recordLength : Nat) :
    Except String Raw :=
  cols.foldlM (encodeColumn charsets values) (List.replicate recordLength 0x20)

section

variable {d : Decimal} {n w scale length k : Nat} {digits : List Nat} {raw : Bytes} {negative : Bool} {c : Int}

theorem rjustZeros_zeroPad (fits : (zeroPad k n).length ≤ w) : rjustZeros (zeroPad k n) w = zeroPad w n := by
  unfold zeroPad at fits ⊢
  rw [List.length_append, List.length_replicate] at fits
  rw [rjustZeros, List.length_append, List.length_replicate, ← List.append_assoc, List.replicate_append_replicate]
  congr 2
  omega

theorem length_zeroPad_eq : (zeroPad w n).length = max w (Decimal.digitCount n) := by
  rw [zeroPad, List.length_append, List.length_replicate, Decimal.digitCount]
  omega

/-- Without its point and its sign a number is its digits, one of them before the point at least. -/
theorem fixed_digits : (Decimal.fixed ⟨n, c⟩).filter (· ≠ '.') =
    zeroPad ((-c).toNat + 1) ((⟨n, c⟩ : Decimal).coeffAt (min c 0)).natAbs := by
  have plain : ∀ s : Text, (∀ x ∈ s, x.isDigit) → s.filter (· ≠ '.') = s := by
    intro s digits
    apply List.filter_eq_self.mpr
    intro x hx
    have bounds := toNat_of_isDigit (digits x hx)
    rw [decide_eq_true_eq]
    rintro rfl
    exact absurd bounds.1 (by decide)
  have positive : ¬((n : Int) < 0) := by omega
  let padded := zeroPad ((-c).toNat + 1) ((⟨n, c⟩ : Decimal).coeffAt (min c 0)).natAbs
  have digits : ∀ x ∈ padded, x.isDigit := fun x hx => isDigit_zeroPad hx
  have front := plain (padded.take (padded.length - (-c).toNat)) fun x hx => digits x (List.mem_of_mem_take hx)
  have back := plain (padded.drop (padded.length - (-c).toNat)) fun x hx => digits x (List.mem_of_mem_drop hx)
  change (Decimal.fixed ⟨n, c⟩).filter (· ≠ '.') = padded
  unfold Decimal.fixed
  simp only [if_neg positive, List.nil_append]
  change (padded.take (padded.length - (-c).toNat) ++
    if (-c).toNat = 0 then [] else '.' :: padded.drop (padded.length - (-c).toNat)).filter (· ≠ '.') = padded
  by_cases point : (-c).toNat = 0
  · rw [if_pos point, List.append_nil, point, Nat.sub_zero, List.take_length]
    exact plain padded digits
  · rw [if_neg point, List.filter_append, front, List.filter_cons_of_neg (by decide), back, List.take_append_drop]

/-- A number with no digit past the scale keeps its value if its digits fit the context. -/
theorem quantizeTo_kept (above : -(scale : Int) ≤ d.exponent) : quantizeTo scale (.finite negative d) =
    if Decimal.digitCount (d.coeffAt (-(scale : Int))).natAbs ≤ decimalPrecision then
      .ok (.finite negative ⟨d.coeffAt (-(scale : Int)), -(scale : Int)⟩) else .error "decimal.InvalidOperation" := by
  unfold quantizeTo Decimal.quantize Decimal.rescale
  simp only [if_pos above]
  by_cases fits : Decimal.digitCount (d.coeffAt (-(scale : Int))).natAbs ≤ decimalPrecision
  · simp only [if_pos fits]
  · simp only [if_neg fits]

theorem roundTo_fits (fits : Decimal.digitCount d.coeff.natAbs ≤ decimalPrecision) :
    Decimal.roundTo decimalPrecision d = d := by
  unfold Decimal.roundTo
  rw [if_pos (by omega)]

theorem unsignedDigits_fits (fits : Decimal.digitCount d.coeff.natAbs ≤ decimalPrecision) :
    unsignedDigits (.finite negative d) =
      .ok (zeroPad ((-d.exponent).toNat + 1) (d.coeffAt (min d.exponent 0)).natAbs) := by
  have whole : Decimal.digitCount (⟨d.coeff.natAbs, d.exponent⟩ : Decimal).coeff.natAbs ≤ decimalPrecision := by
    rw [Int.natAbs_natCast]
    exact fits
  have coeff : ((⟨d.coeff.natAbs, d.exponent⟩ : Decimal).coeffAt (min d.exponent 0)).natAbs =
      (d.coeffAt (min d.exponent 0)).natAbs := by
    rw [Decimal.coeffAt, Decimal.coeffAt, Int.natAbs_mul, Int.natAbs_mul, Int.natAbs_natCast]
  rw [unsignedDigits, roundTo_fits whole, fixed_digits, coeff]

theorem nibbles_packNibbles (even : digits.length % 2 = 0) (small : ∀ x ∈ digits, x < 16) :
    nibbles (packNibbles digits) = digits := by
  induction digits using packNibbles.induct with
  | case1 a b rest ih =>
    have first := small a (List.mem_cons_self ..)
    have second := small b (List.mem_cons_of_mem _ (List.mem_cons_self ..))
    have later := ih (by rw [List.length_cons, List.length_cons] at even; omega)
      fun x hx => small x (List.mem_cons_of_mem _ (List.mem_cons_of_mem _ hx))
    have byte : (UInt8.ofNat (16 * a + b)).toNat = 16 * a + b := by
      rw [UInt8.toNat_ofNat']
      omega
    rw [packNibbles, nibbles, List.flatMap_cons, byte]
    change [(16 * a + b) / 16, (16 * a + b) % 16] ++ nibbles (packNibbles rest) = _
    rw [later]
    simp only [List.cons_append, List.nil_append, List.cons.injEq, and_true]
    omega
  | case2 rest other =>
    cases rest with
    | nil => rfl
    | cons a rest =>
      cases rest with
      | nil => cases even
      | cons b rest => exact absurd rfl (other a b rest)

theorem length_packNibbles : (packNibbles digits).length = digits.length / 2 := by
  induction digits using packNibbles.induct with
  | case1 a b rest ih =>
    rw [packNibbles, List.length_cons, List.length_cons, List.length_cons, ih]
    omega
  | case2 rest other =>
    cases rest with
    | nil => rfl
    | cons a rest =>
      cases rest with
      | nil => simp [packNibbles]
      | cons b rest => exact absurd rfl (other a b rest)

/-- The nibbles of a packed number. -/
def packedNibbles (w : Nat) (c : Int) : List Nat :=
  ((zeroPad w c.natAbs).map fun x => (decimalDigit x).getD 0) ++ [if c < 0 then 0xD else 0xC]

/-- A number of the scale is packed if it fits the context and, with a zero before its point, the field. -/
theorem packComp3_ok (above : -(scale : Int) ≤ d.exponent) {b : Bytes} : packComp3 (.finite negative d) length scale = .ok b ↔
    (Decimal.digitCount (d.coeffAt (-(scale : Int))).natAbs ≤ decimalPrecision ∧
      max (scale + 1) (Decimal.digitCount (d.coeffAt (-(scale : Int))).natAbs) < 2 * length) ∧
    b = packNibbles (packedNibbles (2 * length - 1) (d.coeffAt (-(scale : Int)))) := by
  let n := d.coeffAt (-(scale : Int))
  change _ ↔ (Decimal.digitCount n.natAbs ≤ decimalPrecision ∧ max (scale + 1) (Decimal.digitCount n.natAbs) < 2 * length) ∧
    b = packNibbles (packedNibbles (2 * length - 1) n)
  have kept : quantizeTo scale (.finite negative d) = if Decimal.digitCount n.natAbs ≤ decimalPrecision then
      .ok (.finite negative ⟨n, -(scale : Int)⟩) else .error "decimal.InvalidOperation" := quantizeTo_kept above
  unfold packComp3
  rw [kept]
  by_cases fits : Decimal.digitCount n.natAbs ≤ decimalPrecision
  · have written : unsignedDigits (.finite negative ⟨n, -(scale : Int)⟩) = .ok (zeroPad (scale + 1) n.natAbs) := by
      rw [unsignedDigits_fits fits]
      have point : (- -(scale : Int)).toNat = scale := by omega
      have least : min (-(scale : Int)) 0 = -(scale : Int) := by omega
      simp only [point, least]
      rw [show (⟨n, -(scale : Int)⟩ : Decimal).coeffAt (-(scale : Int)) = n from Decimal.coeffAt_self ⟨n, -(scale : Int)⟩]
    rw [if_pos fits]
    simp only [written, bind, Except.bind]
    have count := @length_zeroPad_eq n.natAbs (scale + 1)
    by_cases wide : 2 * length < (zeroPad (scale + 1) n.natAbs).length + 1
    · rw [if_pos wide]
      constructor
      · intro h
        cases h
      · rintro ⟨⟨_, room⟩, _⟩
        omega
    · rw [if_neg wide]
      have padded := @rjustZeros_zeroPad n.natAbs (2 * length - 1) (scale + 1) (by omega)
      rw [padded]
      constructor
      · intro h
        exact ⟨⟨fits, by omega⟩, (Except.ok.inj h).symm⟩
      · rintro ⟨_, rfl⟩
        rfl
  · rw [if_neg fits]
    constructor
    · intro h
      cases h
    · rintro ⟨⟨small, _⟩, _⟩
      exact absurd small fits

theorem packedValue_zeroPad : packedValue ((zeroPad w n).map fun x => (decimalDigit x).getD 0) = n := by
  have digits : (zeroPad w n).filterMap decimalDigit = (zeroPad w n).map fun x => (decimalDigit x).getD 0 := by
    rw [← List.filterMap_eq_map]
    apply List.filterMap_congr
    intro x hx
    simp only [Function.comp_apply, decimalDigit_of_isDigit (isDigit_zeroPad hx), Option.getD_some]
  have value := @digitsValue_zeroPad n w
  rw [digitsValue, digits] at value
  exact value

/-- A packed number is unpacked at any scale of its digits, with its sign. -/
theorem unpackComp3_packed (pos : 0 < length) (room : Decimal.digitCount c.natAbs < 2 * length) :
    unpackComp3 (packNibbles (packedNibbles (2 * length - 1) c)) scale =
      .ok (.finite (decide (c < 0)) ⟨c, -(min scale (2 * length - 1) : Nat)⟩) := by
  let digits := (zeroPad (2 * length - 1) c.natAbs).map fun x => (decimalDigit x).getD 0
  let sign := if c < 0 then 0xD else 0xC
  have count : digits.length = 2 * length - 1 := by
    rw [List.length_map, length_zeroPad_eq]
    omega
  have small : ∀ x ∈ digits, x < 10 := by
    intro x hx
    obtain ⟨y, hy, rfl⟩ := List.mem_map.mp hx
    have bounds := toNat_of_isDigit (isDigit_zeroPad hy)
    rw [decimalDigit_of_isDigit (isDigit_zeroPad hy), Option.getD_some]
    omega
  have signed_ : sign < 16 ∧ packedSign sign = some (decide (c < 0)) := by
    by_cases below : c < 0
    · simp [sign, below, packedSign]
    · simp [sign, below, packedSign]
  have read : nibbles (packNibbles (packedNibbles (2 * length - 1) c)) = digits ++ [sign] := by
    apply nibbles_packNibbles
    · rw [packedNibbles, List.length_append, List.length_map, length_zeroPad_eq, List.length_singleton]
      omega
    · intro x hx
      rcases List.mem_append.mp hx with digit | last
      · have := small x digit
        omega
      · rw [List.mem_singleton.mp last]
        exact signed_.1
  have valid : (digits.any fun x => decide (9 < x)) = false := by
    rw [List.any_eq_false]
    intro x hx
    have := small x hx
    simp only [decide_eq_true_eq]
    omega
  unfold unpackComp3
  rw [read, List.getLast?_concat]
  simp only [List.dropLast_concat, valid, Bool.false_eq_true, if_false, signed_.2, count]
  rw [show packedValue digits = c.natAbs from packedValue_zeroPad, signed_natAbs]

theorem digitCount_mono {m : Nat} (le : m ≤ n) (pos : 0 < k) (fits : Decimal.digitCount n ≤ k) : Decimal.digitCount m ≤ k :=
  (Decimal.digitCount_le_iff pos).mpr (Nat.lt_of_le_of_lt le ((Decimal.digitCount_le_iff pos).mp fits))

theorem displayDigits_kept (above : -(scale : Int) ≤ d.exponent)
    (fits : Decimal.digitCount (d.coeffAt (-(scale : Int))).natAbs ≤ decimalPrecision) :
    displayDigits (.finite negative d) scale = .ok (zeroPad (scale + 1) (d.coeffAt (-(scale : Int))).natAbs) := by
  unfold displayDigits
  by_cases zero : scale = 0
  · subst zero
    have e : 0 ≤ d.exponent := by omega
    have coeff : d.coeff.natAbs ≤ (d.coeffAt (-((0 : Nat) : Int))).natAbs := by
      rw [Decimal.coeffAt, Int.natAbs_mul, Int.natAbs_pow]
      exact Nat.le_mul_of_pos_right _ (Nat.pow_pos (by decide))
    have point : (-d.exponent).toNat = 0 := by omega
    have least : min d.exponent 0 = -((0 : Nat) : Int) := by omega
    simp only [if_true, bind, Except.bind]
    rw [unsignedDigits_fits (digitCount_mono coeff (by decide) fits), point, least]
  · have point : (- -(scale : Int)).toNat = scale := by omega
    have least : min (-(scale : Int)) 0 = -(scale : Int) := by omega
    have self : (⟨d.coeffAt (-(scale : Int)), -(scale : Int)⟩ : Decimal).coeffAt (-(scale : Int)) =
        d.coeffAt (-(scale : Int)) := Decimal.coeffAt_self ⟨d.coeffAt (-(scale : Int)), -(scale : Int)⟩
    simp only [if_neg zero, quantizeTo_kept above, if_pos fits, bind, Except.bind]
    rw [unsignedDigits_fits fits]
    simp only [point, least, self]

theorem displayDigits_wide (above : -(scale : Int) ≤ d.exponent) (some : scale ≠ 0)
    (wide : ¬Decimal.digitCount (d.coeffAt (-(scale : Int))).natAbs ≤ decimalPrecision) :
    displayDigits (.finite negative d) scale = .error "decimal.InvalidOperation" := by
  unfold displayDigits
  simp only [if_neg some, quantizeTo_kept above, if_neg wide, bind, Except.bind]

/-- Cutting off the fraction divides the digits by the scale. -/
theorem truncate_eq (above : -(scale : Int) ≤ d.exponent) : d.truncate = (d.coeffAt (-(scale : Int))).tdiv (10 ^ scale) := by
  unfold Decimal.truncate Decimal.coeffAt
  by_cases whole : 0 ≤ d.exponent
  · have none : (-d.exponent).toNat = 0 := by omega
    have least : min d.exponent 0 = 0 := by omega
    have split : (d.exponent - -(scale : Int)).toNat = d.exponent.toNat + scale := by omega
    rw [none, least, split, Int.sub_zero, Int.pow_zero, Int.tdiv_one, Int.pow_add, ← Int.mul_assoc,
      Int.mul_tdiv_cancel _ (Int.ne_of_gt (Int.pow_pos (by decide)))]
  · have least : min d.exponent 0 = d.exponent := by omega
    have split : scale = (-d.exponent).toNat + (d.exponent - -(scale : Int)).toNat := by omega
    have power : (10 : Int) ^ scale = 10 ^ (-d.exponent).toNat * 10 ^ (d.exponent - -(scale : Int)).toNat := by
      rw [← Int.pow_add, ← split]
    rw [least, Int.sub_self, power, Int.mul_tdiv_mul_of_pos_left _ _ (Int.pow_pos (by decide))]
    simp

theorem fromBytes_toBytes {m : Int} {b : Bytes} (h : toBytes length m = .ok b) : b.length = length ∧ fromBytes b = m := by
  unfold toBytes at h
  split at h
  next range =>
    cases h
    refine ⟨length_beBytes, ?_⟩
    have pos : (0 : Int) < 256 ^ length := Int.pow_pos (by decide)
    have cast : ((256 ^ length : Nat) : Int) = 256 ^ length := by push_cast; rfl
    have low := Int.emod_nonneg m (Int.ne_of_gt pos)
    have high := Int.emod_lt_of_pos m pos
    have value : beValue (beBytes length (m % 256 ^ length).toNat) = (m % 256 ^ length).toNat := by
      rw [beValue_beBytes]
      apply Nat.mod_eq_of_lt
      omega
    change (if 256 ^ (beBytes length (m % 256 ^ length).toNat).length ≤ 2 * beValue (beBytes length (m % 256 ^ length).toNat) then
      (beValue (beBytes length (m % 256 ^ length).toNat) : Int) - 256 ^ (beBytes length (m % 256 ^ length).toNat).length
      else (beValue (beBytes length (m % 256 ^ length).toNat) : Int)) = m
    rw [value, length_beBytes]
    by_cases negative : m < 0
    · have wrapped : m % 256 ^ length = m + 256 ^ length := by
        rw [← Int.add_mul_emod_self_left m (256 ^ length) 1, Int.mul_one]
        exact Int.emod_eq_of_lt (by omega) (by omega)
      rw [if_pos (by omega)]
      omega
    · have same : m % 256 ^ length = m := Int.emod_eq_of_lt (by omega) (by omega)
      rw [if_neg (by omega)]
      omega
  next => cases h

end

end OtterWorks.Migration
