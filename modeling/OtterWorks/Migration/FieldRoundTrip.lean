import OtterWorks.Lib.DecimalValue
import OtterWorks.Lib.Fallible
import OtterWorks.Migration.RecordCodec

namespace OtterWorks.Migration

def Value.number? : Value → Option Decimal
  | .int n => some ⟨n, 0⟩
  | .decimal d => some d
  | _ => none

/-- The digits of a number at the scale of its field. -/
def RecordColumn.unscaled (c : RecordColumn) (d : Decimal) : Int := d.coeffAt (-(c.spec.field.scale : Int))

/-- The bytes of a number in COMP, without its fraction. -/
def RecordColumn.compBytes (c : RecordColumn) (d : Decimal) : Bytes :=
  beBytes c.spec.field.length ((c.unscaled d).tdiv (10 ^ c.spec.field.scale) % 256 ^ c.spec.field.length).toNat

def RecordColumn.comp3Bytes (c : RecordColumn) (d : Decimal) : Bytes :=
  packNibbles (packedNibbles (2 * c.spec.field.length - 1) (c.unscaled d))

/-- A number within the digits, the scale and the sign of its field. -/
structure NumberFits (c : RecordColumn) (d : Decimal) : Prop where
  numeric : c.isNumeric = true
  scale : -(c.spec.field.scale : Int) ≤ d.exponent
  digits : (c.unscaled d).natAbs < 10 ^ c.digits
  sign : c.unscaled d < 0 → c.signed = true

/-- A text within the bytes of its field. -/
structure TextFits (charset : Charset) (c : RecordColumn) (s : Text) : Prop where
  text : c.isNumeric = false
  bytes : ∃ b, charset.encode s = .ok b ∧ b.length ≤ c.spec.field.length

/-- A value of the column's kind that its field and its target type hold. -/
def ValidFor (charset : Charset) (c : RecordColumn) (v : Value) : Prop :=
  let width := c.spec.field.length
  match c.spec.kind with
  | .char => ∃ s, v = .text s ∧ TextFits charset c s ∧ controlByte (ljust s width) [] = none ∧
      (c.spec.targetLength = 0 ∨ (charValue c.spec (ljust s width)).length ≤ c.spec.targetLength)
  | .date8 => ∃ s year month day, v = .text s ∧ TextFits charset c s ∧
      date8Groups (ljust s width) = some (year, month, day) ∧ dateError year month day = none
  | .timestamp12 => ∃ s, (v = .text s ∨ v = .timestamp12 s) ∧ TextFits charset c s ∧ timestamp12Tail (ljust s width) ≠ none
  | .binary => ∃ b, v = .bytes b ∧ b.length ≤ width
  | .int => ∃ d m, v.number? = some d ∧ NumberFits c d ∧ c.unscaled d = m * 10 ^ c.spec.field.scale ∧
      -(2 ^ integerBits c.spec.targetType) ≤ m ∧ m < 2 ^ integerBits c.spec.targetType
  | .decimal => ∃ d, v.number? = some d ∧ NumberFits c d ∧
      Decimal.digitCount (c.unscaled d).natAbs ≤ c.spec.targetPrecision

/-- The value that a record gives back: a number equal to it, a text or bytes padded to the field. -/
def ReturnedAs (c : RecordColumn) (v returned : Value) : Prop :=
  match v with
  | .bytes b => returned = .bytes (b ++ List.replicate (c.spec.field.length - b.length) (padByte c.spec.encoding))
  | .int n => ∃ r, returned.number? = some r ∧ r.same ⟨n, 0⟩ = true
  | .decimal d => ∃ r, returned.number? = some r ∧ r.same d = true
  | v => returned = .text (ljust (textOfValue v) c.spec.field.length)

/-- The numbers that come back. -/
structure NumberReturns (c : RecordColumn) (d : Decimal) : Prop where
  sign : c.spec.field.usage = .display → 0 ≤ c.unscaled d
  display : c.spec.field.usage = .display → c.spec.field.scale < c.spec.field.length
  packed : c.spec.field.usage = .comp3 → c.spec.field.scale + 1 < 2 * c.spec.field.length
  length : c.spec.field.usage = .display → c.spec.kind = .int → c.spec.field.length ≤ intDigitsLimit
  -- `convert_record` reads an int without its scale, and a COMP decimal is written without it
  scale : c.unscaled d = 0 ∨ c.spec.field.scale = 0 ∨ (c.spec.kind = .decimal ↔ c.spec.field.usage ≠ .comp)

/-- The values that come back. -/
def ValueReturns (charset : Charset) (c : RecordColumn) (v : Value) : Prop :=
  match v.number? with
  | some d => NumberReturns c d
  | none => c.spec.kind ≠ .binary →
      ∃ b, charset.encode (ljust (textOfValue v) c.spec.field.length) = .ok b ∧ b.length = c.spec.field.length

/-- The field of a value is written, and read as the value. -/
def ComesBack (charsets : Charsets) (c : RecordColumn) (v : Value) : Prop :=
  ∃ b, encodeField (charsets c.spec.encoding) c v = .ok b ∧ ∃ value source,
    convertField charsets.codecs c.spec b = .ok (value, source) ∧ ReturnedAs c v source

section

variable {charset : Charset} {charsets : Charsets} {c : RecordColumn} {v : Value} {s : Text} {d : Decimal} {b : Bytes} {m : Int}
  {n k : Nat}

theorem encodeField_ok : encodeField charset c v = .ok b ↔
    fieldBytes charset c v = .ok b ∧ b.length = c.spec.field.length := by
  unfold encodeField
  cases made : fieldBytes charset c v with
  | error e =>
    constructor
    · intro h
      cases h
    · rintro ⟨h, _⟩
      cases h
  | ok b' =>
    simp only [bind, Except.bind]
    by_cases fits : b'.length = c.spec.field.length
    · rw [if_neg (not_not.mpr fits)]
      constructor
      · intro h
        cases h
        exact ⟨rfl, fits⟩
      · rintro ⟨h, _⟩
        exact h
    · rw [if_pos fits]
      constructor
      · intro h
        cases h
      · rintro ⟨h, length⟩
        cases h
        exact absurd length fits

theorem controlByte_none (raw : Bytes) (h : controlByte s [] = none) : controlByte s raw = none := by
  unfold controlByte at h ⊢
  rw [Option.map_eq_none_iff] at h ⊢
  exact h

/-- A text is written if the padded text takes the bytes of its field, and is decoded then. -/
theorem encodeField_text (fits : TextFits charset c s) (is : v = .text s ∨ v = .timestamp12 s) :
    (encodeField charset c v = .ok b ↔
      charset.encode (ljust s c.spec.field.length) = .ok b ∧ b.length = c.spec.field.length) ∧
    textOfValue v = s ∧ v.number? = none := by
  have plain := fits.text
  rw [encodeField_ok]
  rcases is with rfl | rfl
  · simp [fieldBytes, plain, textOfValue, Value.number?]
  · simp [fieldBytes, plain, textOfValue, Value.number?]

theorem decodeField_encoded (written : (charsets c.spec.encoding).encode s = .ok b) :
    decodeField charsets.codecs c.spec.encoding b = .ok (.ok s) := by
  rw [decodeField, Charsets.codecs]
  simp only
  rw [(charsets c.spec.encoding).decode_encode s b written]

theorem convertField_text (written : (charsets c.spec.encoding).encode s = .ok b)
    (kind : c.spec.kind = .char ∨ c.spec.kind = .date8 ∨ c.spec.kind = .timestamp12) :
    convertField charsets.codecs c.spec b =
      match c.spec.kind with
      | .char => convertChar c.spec b s
      | .date8 => convertDate8 b s
      | _ => convertTimestamp12 b s := by
  have decoded := decodeField_encoded written
  unfold convertField
  rcases kind with kind | kind | kind
  · simp only [kind, decoded, bind, Except.bind]
  · simp only [kind, decoded, bind, Except.bind]
  · simp only [kind, decoded, bind, Except.bind]

theorem zero_of_coeff (h : d.coeff = 0) (e : Int) : d.coeffAt e = 0 := by
  rw [Decimal.coeffAt, h, Int.zero_mul]

/-- The number that the encoder takes has the same digits at the field's scale. -/
theorem decimalOfValue_number {scale : Nat} (number : v.number? = some d) (above : -(scale : Int) ≤ d.exponent) :
    ∃ negative d', decimalOfValue v = .ok (.finite negative d') ∧ -(scale : Int) ≤ d'.exponent ∧
      d'.coeffAt (-(scale : Int)) = d.coeffAt (-(scale : Int)) := by
  cases v with
  | int n =>
    cases number
    exact ⟨_, _, rfl, above, rfl⟩
  | decimal d =>
    cases number
    by_cases zero : d.coeff = 0
    · refine ⟨false, .zero, ?_, ?_, ?_⟩
      · rw [decimalOfValue, if_pos zero]
      · change -(scale : Int) ≤ 0
        omega
      · rw [zero_of_coeff zero, zero_of_coeff rfl]
    · refine ⟨decide (d.coeff < 0), d, ?_, above, rfl⟩
      rw [decimalOfValue, if_neg zero]
  | _ => cases number

theorem intOfValue_number (number : v.number? = some d) : intOfValue v = .ok d.truncate := by
  cases v with
  | int n =>
    cases number
    rw [intOfValue, Decimal.truncate, Decimal.coeffAt]
    simp
  | decimal d =>
    cases number
    rfl
  | _ => cases number

theorem fieldBytes_number (number : v.number? = some d) (numeric : c.isNumeric = true) : fieldBytes charset c v =
    match c.spec.field.usage with
    | .comp => intOfValue v >>= toBytes c.spec.field.length
    | .comp3 => decimalOfValue v >>= fun x => packComp3 x c.spec.field.length c.spec.field.scale
    | .display => decimalOfValue v >>= fun x => displayDigits x c.spec.field.scale >>= fun digits =>
        charset.encode (rjustZeros digits c.spec.field.length) := by
  cases v with
  | int n =>
    refine (if_pos numeric).trans ?_
    cases c.spec.field.usage with
    | display => rfl
    | comp => rfl
    | comp3 => rfl
  | decimal d =>
    refine (if_pos numeric).trans ?_
    cases c.spec.field.usage with
    | display => rfl
    | comp => rfl
    | comp3 => rfl
  | _ => cases number

theorem digitCount_le_of_lt (fits : n < 10 ^ k) : Decimal.digitCount n ≤ max 1 k := by
  cases k with
  | zero =>
    have zero : n = 0 := by
      rw [Nat.pow_zero] at fits
      omega
    rw [zero]
    decide
  | succ k =>
    have le := (Decimal.digitCount_le_iff (Nat.succ_pos k)).mpr fits
    omega

/-- A number is written in COMP without its fraction. -/
theorem encodeField_comp (number : v.number? = some d) (fits : NumberFits c d) (usage : c.spec.field.usage = .comp) :
    encodeField charset c v = .ok (c.compBytes d) ∧
      fromBytes (c.compBytes d) = (c.unscaled d).tdiv (10 ^ c.spec.field.scale) := by
  have bytes := c.length_eq fits.numeric
  rw [usage] at bytes
  have le : ((c.unscaled d).tdiv (10 ^ c.spec.field.scale)).natAbs ≤ (c.unscaled d).natAbs := by
    rw [Int.natAbs_tdiv]
    exact Nat.div_le_self _ _
  have written : toBytes c.spec.field.length ((c.unscaled d).tdiv (10 ^ c.spec.field.scale)) = .ok (c.compBytes d) := by
    have bound : 2 * 10 ^ c.digits ≤ 256 ^ c.spec.field.length := by
      have power : ∀ k, c.digits ≤ k → 10 ^ c.digits ≤ 10 ^ k := fun k le => Nat.pow_le_pow_right (by decide) le
      unfold picLength at bytes
      by_cases two : c.digits ≤ 4
      · rw [if_pos two] at bytes
        rw [← Option.some.inj bytes]
        have := power 4 two
        omega
      · by_cases four : c.digits ≤ 9
        · rw [if_neg two, if_pos four] at bytes
          rw [← Option.some.inj bytes]
          have := power 9 four
          omega
        · by_cases eight : c.digits ≤ 18
          · rw [if_neg two, if_neg four, if_pos eight] at bytes
            rw [← Option.some.inj bytes]
            have := power 18 eight
            omega
          · rw [if_neg two, if_neg four, if_neg eight] at bytes
            cases bytes
    have digits := fits.digits
    have cast : ((256 ^ c.spec.field.length : Nat) : Int) = 256 ^ c.spec.field.length := by push_cast; rfl
    unfold toBytes
    rw [if_pos (by omega), RecordColumn.compBytes]
  obtain ⟨length, back⟩ := fromBytes_toBytes written
  refine ⟨encodeField_ok.mpr ⟨?_, length⟩, back⟩
  rw [fieldBytes_number number fits.numeric, intOfValue_number number, usage, truncate_eq fits.scale]
  exact written

/-- A number is packed if its field has room for a zero before the point. -/
theorem encodeField_comp3 (number : v.number? = some d) (fits : NumberFits c d) (usage : c.spec.field.usage = .comp3) :
    encodeField charset c v = .ok b ↔ (Decimal.digitCount (c.unscaled d).natAbs ≤ decimalPrecision ∧
      c.spec.field.scale + 1 < 2 * c.spec.field.length) ∧
      b = c.comp3Bytes d := by
  have bytes := c.length_eq fits.numeric
  rw [usage, picLength, Option.some.injEq] at bytes
  have count := digitCount_le_of_lt fits.digits
  obtain ⟨negative, d', read, above, same⟩ := decimalOfValue_number number fits.scale
  have packed := @packComp3_ok d' c.spec.field.scale c.spec.field.length negative above b
  rw [same] at packed
  change _ ↔ (Decimal.digitCount (c.unscaled d).natAbs ≤ decimalPrecision ∧
    max (c.spec.field.scale + 1) (Decimal.digitCount (c.unscaled d).natAbs) < 2 * c.spec.field.length) ∧
    b = c.comp3Bytes d at packed
  have made : fieldBytes charset c v = packComp3 (.finite negative d') c.spec.field.length c.spec.field.scale := by
    rw [fieldBytes_number number fits.numeric, usage, read]
    rfl
  rw [encodeField_ok, made, packed]
  constructor
  · rintro ⟨⟨⟨small, room⟩, written⟩, _⟩
    exact ⟨⟨small, by omega⟩, written⟩
  · rintro ⟨⟨small, room⟩, written⟩
    refine ⟨⟨⟨small, by omega⟩, written⟩, ?_⟩
    rw [written, RecordColumn.comp3Bytes, length_packNibbles, packedNibbles, List.length_append, List.length_map, length_zeroPad_eq,
      List.length_singleton]
    omega

theorem display_length (numeric : c.isNumeric = true) (usage : c.spec.field.usage = .display) :
    c.digits = c.spec.field.length := by
  have bytes := c.length_eq numeric
  rw [usage, picLength, Option.some.injEq] at bytes
  exact bytes

/-- A number is written in display without its sign, if its field has room for a zero before the point. -/
theorem encodeField_display (number : v.number? = some d) (fits : NumberFits c d) (usage : c.spec.field.usage = .display)
    (small : Decimal.digitCount (c.unscaled d).natAbs ≤ decimalPrecision) : encodeField charset c v = .ok b ↔
      c.spec.field.scale < c.spec.field.length ∧ charset.encode (zeroPad c.spec.field.length (c.unscaled d).natAbs) = .ok b := by
  have bytes := display_length fits.numeric usage
  have count := digitCount_le_of_lt fits.digits
  obtain ⟨negative, d', read, above, same⟩ := decimalOfValue_number number fits.scale
  have shown : displayDigits (.finite negative d') c.spec.field.scale =
      .ok (zeroPad (c.spec.field.scale + 1) (c.unscaled d).natAbs) := by
    rw [displayDigits_kept above (by rw [same]; exact small), same]
    rfl
  have made : fieldBytes charset c v = charset.encode
      (rjustZeros (zeroPad (c.spec.field.scale + 1) (c.unscaled d).natAbs) c.spec.field.length) := by
    rw [fieldBytes_number number fits.numeric, usage, read]
    simp only [bind, Except.bind, shown]
  have length := @length_zeroPad_eq (c.unscaled d).natAbs (c.spec.field.scale + 1)
  rw [encodeField_ok, made]
  constructor
  · rintro ⟨written, fills⟩
    have all : ∀ x ∈ rjustZeros (zeroPad (c.spec.field.scale + 1) (c.unscaled d).natAbs) c.spec.field.length, x.isDigit := by
      intro x hx
      rcases List.mem_append.mp hx with zero | digit
      · rw [List.eq_of_mem_replicate zero]
        rfl
      · exact isDigit_zeroPad digit
    obtain ⟨b', written', count'⟩ := charset.digits _ all
    rw [written] at written'
    cases written'
    rw [rjustZeros, List.length_append, List.length_replicate] at count'
    rw [rjustZeros_zeroPad (by omega)] at written
    exact ⟨by omega, written⟩
  · rintro ⟨room, written⟩
    rw [rjustZeros_zeroPad (by omega)]
    refine ⟨written, ?_⟩
    obtain ⟨b', written', count'⟩ := charset.digits (zeroPad c.spec.field.length (c.unscaled d).natAbs)
      fun x hx => isDigit_zeroPad hx
    rw [written] at written'
    cases written'
    rw [count', length_zeroPad_eq]
    omega

theorem encodeField_wide (number : v.number? = some d) (fits : NumberFits c d) (usage : c.spec.field.usage = .display)
    (some : c.spec.field.scale ≠ 0) (wide : ¬Decimal.digitCount (c.unscaled d).natAbs ≤ decimalPrecision) :
    encodeField charset c v ≠ .ok b := by
  obtain ⟨negative, d', read, above, same⟩ := decimalOfValue_number number fits.scale
  intro h
  have made := (encodeField_ok.mp h).1
  rw [fieldBytes_number number fits.numeric, usage, read] at made
  simp only [bind, Except.bind, displayDigits_wide above some (by rw [same]; exact wide)] at made
  cases made

/-! What the bytes of a number are read as. -/

theorem value_unscaled (fits : NumberFits c d) :
    (⟨c.unscaled d, -(c.spec.field.scale : Int)⟩ : Decimal).value = d.value := Decimal.value_coeffAt fits.scale

theorem same_at_scale (fits : NumberFits c d) {x : Int} :
    Decimal.same ⟨x, -(c.spec.field.scale : Int)⟩ d = true ↔ x = c.unscaled d := by
  rw [Decimal.same_iff, ← value_unscaled fits, Decimal.value_inj_exponent]

theorem same_whole (fits : NumberFits c d) {x : Int} :
    Decimal.same ⟨x, 0⟩ d = true ↔ x * 10 ^ c.spec.field.scale = c.unscaled d := by
  have shifted := @Decimal.value_shift (-(c.spec.field.scale : Int)) x c.spec.field.scale
  rw [Int.add_left_neg] at shifted
  rw [Decimal.same_iff, shifted, ← value_unscaled fits, Decimal.value_inj_exponent]

theorem integerBits_le (targetType : String) : integerBits targetType ≤ 63 := by
  unfold integerBits
  split <;> decide

theorem convertInt_ok_of (kind : c.spec.kind = .int) (field : intField charsets.codecs c.spec b = .ok m)
    (range : -(2 ^ integerBits c.spec.targetType) ≤ m ∧ m < 2 ^ integerBits c.spec.targetType) :
    convertField charsets.codecs c.spec b = .ok (.int m, .int m) := by
  unfold convertField
  simp only [kind, convertInt, field, bind, Except.bind]
  rw [if_pos range]

theorem convertInt_source (kind : c.spec.kind = .int) (field : intField charsets.codecs c.spec b = .ok m) {value source : Value}
    (h : convertField charsets.codecs c.spec b = .ok (value, source)) : source = .int m := by
  unfold convertField at h
  simp only [kind] at h
  obtain ⟨n, read, -, rfl⟩ := convertInt_ok h
  rw [field] at read
  cases read
  rfl

theorem convertDecimal_ok_of (kind : c.spec.kind = .decimal) {negative : Bool}
    (field : decimalField charsets.codecs c.spec b = .ok (.finite negative ⟨m, -(c.spec.field.scale : Int)⟩))
    (fits : Decimal.digitCount m.natAbs ≤ c.spec.targetPrecision) : convertField charsets.codecs c.spec b =
      .ok (.decimal ⟨m, -(c.spec.field.scale : Int)⟩, .decimal ⟨m, -(c.spec.field.scale : Int)⟩) := by
  have scale := c.spec.scale_eq kind
  have whole : decimalFits c.spec.targetPrecision c.spec.targetScale (.finite negative ⟨m, -(c.spec.field.scale : Int)⟩) = true := by
    apply decide_eq_true
    simp only
    omega
  unfold convertField
  simp only [kind, convertDecimal, field, bind, Except.bind, Literal.value]
  rw [if_pos whole]

theorem intField_display (usage : c.spec.field.usage = .display)
    (pos : 0 < c.spec.field.length) (fits : (zeroPad c.spec.field.length n).length = c.spec.field.length)
    (written : (charsets c.spec.encoding).encode (zeroPad c.spec.field.length n) = .ok b) : intField charsets.codecs c.spec b =
      if c.spec.field.length ≤ intDigitsLimit then .ok (n : Int) else .error (numericInvalid b) := by
  have some : zeroPad c.spec.field.length n ≠ [] := by
    intro none
    rw [none] at fits
    exact absurd fits (by simp; omega)
  unfold intField
  simp only [usage, decodeField_encoded written, bind, Except.bind]
  rw [intOf_digits (fun x hx => isDigit_zeroPad hx) some, digitsValue_zeroPad, fits]
  by_cases short : c.spec.field.length ≤ intDigitsLimit
  · simp only [if_pos short]
  · simp only [if_neg short]

theorem decimalField_display (usage : c.spec.field.usage = .display)
    (room : c.spec.field.scale < c.spec.field.length)
    (fits : (zeroPad c.spec.field.length n).length = c.spec.field.length)
    (written : (charsets c.spec.encoding).encode (zeroPad c.spec.field.length n) = .ok b)
    (exact : exactDecimal ⟨n, -(c.spec.field.scale : Int)⟩) : decimalField charsets.codecs c.spec b =
      .ok (.finite false ⟨n, -(c.spec.field.scale : Int)⟩) := by
  have digits : ∀ x ∈ zeroPad c.spec.field.length n, x.isDigit := fun x hx => isDigit_zeroPad hx
  have read : decimalOf (displayDecimal c.spec.field.scale (zeroPad c.spec.field.length n)) =
      some (.finite false ⟨n, -(c.spec.field.scale : Int)⟩) := by
    have value : digitsValue (zeroPad c.spec.field.length n) = n := digitsValue_zeroPad
    by_cases zero : c.spec.field.scale = 0
    · have nonempty : zeroPad c.spec.field.length n ≠ [] := by
        intro none
        rw [none] at fits
        exact absurd fits (by simp; omega)
      rw [zero] at exact ⊢
      rw [displayDecimal, if_pos rfl, decimalOf_digits digits nonempty (by rw [value]; exact exact), value]
      rfl
    · let point := c.spec.field.length - c.spec.field.scale
      let whole := (zeroPad c.spec.field.length n).take point
      let fraction := (zeroPad c.spec.field.length n).drop point
      have shown : displayDecimal c.spec.field.scale (zeroPad c.spec.field.length n) = whole ++ '.' :: fraction := by
        rw [displayDecimal, if_neg zero, fits, if_pos (by omega)]
      have nonempty : whole ≠ [] := by
        intro none
        have count : whole.length = point := by rw [List.length_take, fits]; omega
        rw [none, List.length_nil] at count
        omega
      have places : fraction.length = c.spec.field.scale := by
        rw [List.length_drop, fits]
        omega
      have number : (⟨signed false (digitsValue (whole ++ fraction)), -(fraction.length : Int)⟩ : Decimal) =
          ⟨n, -(c.spec.field.scale : Int)⟩ := by
        rw [List.take_append_drop, value, places]
        rfl
      have plain := @decimalOf_plain whole fraction false (fun x hx => digits x (List.mem_of_mem_take hx)) nonempty
        (fun x hx => digits x (List.mem_of_mem_drop hx)) (by rw [number]; exact exact)
      rw [number] at plain
      rw [shown]
      exact plain
  unfold decimalField
  simp only [usage, decodeField_encoded written, bind, Except.bind, read]

theorem returnedAs_number (number : v.number? = some d) {x : Value} :
    ReturnedAs c v x ↔ ∃ r, x.number? = some r ∧ r.same d = true := by
  cases v with
  | int n =>
    cases number
    exact Iff.rfl
  | decimal d =>
    cases number
    exact Iff.rfl
  | _ => cases number

theorem returnedAs_int (number : v.number? = some d) (fits : NumberFits c d) (whole : c.unscaled d = m * 10 ^ c.spec.field.scale)
    {x : Int} : ReturnedAs c v (.int x) ↔ x = m := by
  rw [returnedAs_number number]
  have same := @same_whole c d fits x
  rw [whole] at same
  constructor
  · rintro ⟨r, held, equal⟩
    cases held
    exact Int.eq_of_mul_eq_mul_right (Int.ne_of_gt (Int.pow_pos (by decide))) (same.mp equal)
  · rintro rfl
    exact ⟨_, rfl, same.mpr rfl⟩

theorem returnedAs_decimal (number : v.number? = some d) (fits : NumberFits c d) {x : Int} :
    ReturnedAs c v (.decimal ⟨x, -(c.spec.field.scale : Int)⟩) ↔ x = c.unscaled d := by
  rw [returnedAs_number number, ← same_at_scale fits]
  constructor
  · rintro ⟨r, held, equal⟩
    cases held
    exact equal
  · exact fun equal => ⟨_, rfl, equal⟩

theorem unscaled_eq_iff (whole : c.unscaled d = m * 10 ^ c.spec.field.scale) :
    c.unscaled d = m ↔ c.unscaled d = 0 ∨ c.spec.field.scale = 0 := by
  by_cases zero : c.spec.field.scale = 0
  · rw [zero, Int.pow_zero, Int.mul_one] at whole
    exact iff_of_true whole (Or.inr zero)
  · have large : (1 : Int) < 10 ^ c.spec.field.scale := by
      have power := Nat.one_lt_pow zero (show 1 < 10 by decide)
      exact_mod_cast power
    rw [whole]
    constructor
    · intro same
      have none : m * (10 ^ c.spec.field.scale - 1) = 0 := by
        rw [Int.mul_sub, Int.mul_one]
        omega
      rcases Int.mul_eq_zero.mp none with zero | one
      · rw [zero, Int.zero_mul]
        exact Or.inl rfl
      · omega
    · rintro (none | none)
      · rcases Int.mul_eq_zero.mp none with zero | power
        · rw [zero, Int.zero_mul]
        · omega
      · exact absurd none zero

/-- Cutting the fraction off changes every number but zero, where there is a scale. -/
theorem unscaled_tdiv_iff : (c.unscaled d).tdiv (10 ^ c.spec.field.scale) = c.unscaled d ↔
    c.unscaled d = 0 ∨ c.spec.field.scale = 0 := by
  let n := c.unscaled d
  change n.tdiv (10 ^ c.spec.field.scale) = n ↔ n = 0 ∨ c.spec.field.scale = 0
  by_cases zero : c.spec.field.scale = 0
  · rw [zero, Int.pow_zero, Int.tdiv_one]
    simp
  · have large : 1 < 10 ^ c.spec.field.scale := Nat.one_lt_pow zero (by decide)
    constructor
    · intro same
      have abs := congrArg Int.natAbs same
      rw [Int.natAbs_tdiv, Int.natAbs_pow] at abs
      by_contra other
      have pos : 0 < n.natAbs := by omega
      have less := Nat.div_lt_self pos large
      change n.natAbs / 10 ^ c.spec.field.scale = n.natAbs at abs
      omega
    · rintro (none | none)
      · rw [none, Int.zero_tdiv]
      · exact absurd none zero

theorem natAbs_lt_of_range (range : -(2 ^ integerBits c.spec.targetType) ≤ m ∧ m < 2 ^ integerBits c.spec.targetType) :
    m.natAbs < 10 ^ decimalPrecision := by
  have power : 2 ^ integerBits c.spec.targetType ≤ 2 ^ 63 :=
    Nat.pow_le_pow_right (by decide) (integerBits_le c.spec.targetType)
  have cast : ((2 ^ integerBits c.spec.targetType : Nat) : Int) = 2 ^ integerBits c.spec.targetType := by push_cast; rfl
  have context : 10 ^ decimalPrecision = 10 ^ 64 := rfl
  omega

/-- An int comes back when a number is read as it. -/
theorem int_comesBack_of (number : v.number? = some d) (fits : NumberFits c d) (kind : c.spec.kind = .int)
    (whole : c.unscaled d = m * 10 ^ c.spec.field.scale)
    (range : -(2 ^ integerBits c.spec.targetType) ≤ m ∧ m < 2 ^ integerBits c.spec.targetType)
    (written : encodeField (charsets c.spec.encoding) c v = .ok b) {x : Int}
    (read : intField charsets.codecs c.spec b = .ok x) : ComesBack charsets c v ↔ x = m := by
  constructor
  · rintro ⟨b', written', value, source, converted, returned⟩
    rw [written] at written'
    cases written'
    rw [convertInt_source kind read converted] at returned
    exact (returnedAs_int number fits whole).mp returned
  · rintro rfl
    exact ⟨b, written, _, _, convertInt_ok_of kind read range, (returnedAs_int number fits whole).mpr rfl⟩

theorem int_comp_comesBack (number : v.number? = some d) (fits : NumberFits c d) (kind : c.spec.kind = .int)
    (whole : c.unscaled d = m * 10 ^ c.spec.field.scale)
    (range : -(2 ^ integerBits c.spec.targetType) ≤ m ∧ m < 2 ^ integerBits c.spec.targetType)
    (usage : c.spec.field.usage = .comp) : ComesBack charsets c v := by
  obtain ⟨written, back⟩ : encodeField (charsets c.spec.encoding) c v = .ok (c.compBytes d) ∧ _ :=
    encodeField_comp number fits usage
  have read : intField charsets.codecs c.spec (c.compBytes d) = .ok m := by
    unfold intField
    simp only [usage]
    rw [back, whole, Int.mul_tdiv_cancel _ (Int.ne_of_gt (Int.pow_pos (by decide)))]
  exact (int_comesBack_of number fits kind whole range written read).mpr rfl

/-- The digits of a number at the scale that the context does not hold are more than an int's. -/
theorem scaled_of_wide (whole : c.unscaled d = m * 10 ^ c.spec.field.scale)
    (range : -(2 ^ integerBits c.spec.targetType) ≤ m ∧ m < 2 ^ integerBits c.spec.targetType)
    (wide : ¬Decimal.digitCount (c.unscaled d).natAbs ≤ decimalPrecision) :
    ¬(c.unscaled d = 0 ∨ c.spec.field.scale = 0) := by
  intro same
  rw [(unscaled_eq_iff whole).mpr same] at wide
  exact wide ((Decimal.digitCount_le_iff (by decide)).mpr (natAbs_lt_of_range range))

theorem int_comp3_comesBack (number : v.number? = some d) (fits : NumberFits c d) (kind : c.spec.kind = .int)
    (whole : c.unscaled d = m * 10 ^ c.spec.field.scale)
    (range : -(2 ^ integerBits c.spec.targetType) ≤ m ∧ m < 2 ^ integerBits c.spec.targetType)
    (usage : c.spec.field.usage = .comp3) : ComesBack charsets c v ↔
      c.spec.field.scale + 1 < 2 * c.spec.field.length ∧ (c.unscaled d = 0 ∨ c.spec.field.scale = 0) := by
  have bytes := c.length_eq fits.numeric
  rw [usage, picLength, Option.some.injEq] at bytes
  have count := digitCount_le_of_lt fits.digits
  by_cases room : Decimal.digitCount (c.unscaled d).natAbs ≤ decimalPrecision ∧
      c.spec.field.scale + 1 < 2 * c.spec.field.length
  · have written : encodeField (charsets c.spec.encoding) c v = .ok (c.comp3Bytes d) :=
      (encodeField_comp3 number fits usage).mpr ⟨room, rfl⟩
    have read : intField charsets.codecs c.spec (c.comp3Bytes d) = .ok (c.unscaled d) := by
      unfold intField RecordColumn.comp3Bytes
      simp only [usage, bind, Except.bind, unpackComp3_packed (show 0 < c.spec.field.length by omega)
        (show Decimal.digitCount (c.unscaled d).natAbs < 2 * c.spec.field.length by omega)]
    rw [int_comesBack_of number fits kind whole range written read, unscaled_eq_iff whole]
    simp only [room.2, true_and]
  · constructor
    · rintro ⟨b, written, _⟩
      exact absurd ((encodeField_comp3 number fits usage).mp written).1 room
    · rintro ⟨places, same⟩
      have small : Decimal.digitCount (c.unscaled d).natAbs ≤ decimalPrecision := by
        by_contra wide
        exact scaled_of_wide whole range wide same
      exact absurd ⟨small, places⟩ room

/-- The digits of a display numeric fill its field. -/
theorem length_display (fits : NumberFits c d) (usage : c.spec.field.usage = .display) (pos : 0 < c.spec.field.length) :
    (zeroPad c.spec.field.length (c.unscaled d).natAbs).length = c.spec.field.length := by
  have bytes := display_length fits.numeric usage
  have count := digitCount_le_of_lt fits.digits
  rw [length_zeroPad_eq]
  omega

theorem display_encoded (number : v.number? = some d) (fits : NumberFits c d) (usage : c.spec.field.usage = .display)
    (small : Decimal.digitCount (c.unscaled d).natAbs ≤ decimalPrecision) (room : c.spec.field.scale < c.spec.field.length) :
    ∃ b, encodeField charset c v = .ok b ∧ charset.encode (zeroPad c.spec.field.length (c.unscaled d).natAbs) = .ok b := by
  obtain ⟨b, written, _⟩ := charset.digits (zeroPad c.spec.field.length (c.unscaled d).natAbs) fun x hx => isDigit_zeroPad hx
  exact ⟨b, (encodeField_display number fits usage small).mpr ⟨room, written⟩, written⟩

theorem int_display_comesBack (number : v.number? = some d) (fits : NumberFits c d) (kind : c.spec.kind = .int)
    (whole : c.unscaled d = m * 10 ^ c.spec.field.scale)
    (range : -(2 ^ integerBits c.spec.targetType) ≤ m ∧ m < 2 ^ integerBits c.spec.targetType)
    (usage : c.spec.field.usage = .display) : ComesBack charsets c v ↔
      c.spec.field.scale < c.spec.field.length ∧ c.spec.field.length ≤ intDigitsLimit ∧ 0 ≤ c.unscaled d ∧
        (c.unscaled d = 0 ∨ c.spec.field.scale = 0) := by
  have same := unscaled_eq_iff whole
  by_cases small : Decimal.digitCount (c.unscaled d).natAbs ≤ decimalPrecision
  · by_cases room : c.spec.field.scale < c.spec.field.length
    · obtain ⟨b, written, digits⟩ : ∃ b, encodeField (charsets c.spec.encoding) c v = .ok b ∧ _ :=
        display_encoded number fits usage small room
      have field := intField_display usage (by omega) (length_display fits usage (by omega)) digits
      by_cases short : c.spec.field.length ≤ intDigitsLimit
      · rw [if_pos short] at field
        rw [int_comesBack_of number fits kind whole range written field, ← same]
        constructor
        · intro read
          have nonneg : 0 ≤ c.unscaled d := by
            rw [whole, ← read]
            exact Int.mul_nonneg (Int.natCast_nonneg _) (Int.le_of_lt (Int.pow_pos (by decide)))
          exact ⟨room, short, nonneg, by omega⟩
        · rintro ⟨_, _, nonneg, equal⟩
          omega
      · rw [if_neg short] at field
        constructor
        · rintro ⟨b', written', value, source, converted, _⟩
          rw [written] at written'
          cases written'
          unfold convertField at converted
          simp only [kind, convertInt, field, bind, Except.bind] at converted
          cases converted
        · rintro ⟨_, short', _⟩
          exact absurd short' short
    · constructor
      · rintro ⟨b, written, _⟩
        exact absurd ((encodeField_display number fits usage small).mp written).1 room
      · rintro ⟨room', _⟩
        exact absurd room' room
  · have scaled := scaled_of_wide whole range small
    constructor
    · rintro ⟨b, written, _⟩
      exact absurd written (encodeField_wide number fits usage (by omega) small)
    · rintro ⟨_, _, _, same⟩
      exact absurd same scaled

/-- An int comes back unless its scale or its sign is lost. -/
theorem int_comesBack_iff (number : v.number? = some d) (fits : NumberFits c d) (kind : c.spec.kind = .int)
    (whole : c.unscaled d = m * 10 ^ c.spec.field.scale)
    (range : -(2 ^ integerBits c.spec.targetType) ≤ m ∧ m < 2 ^ integerBits c.spec.targetType) :
    ComesBack charsets c v ↔ NumberReturns c d := by
  have int : c.spec.kind ≠ .decimal := by
    rw [kind]
    decide
  cases usage : c.spec.field.usage with
  | comp =>
    have back : ComesBack charsets c v := int_comp_comesBack number fits kind whole range usage
    refine iff_of_true back ⟨?_, ?_, ?_, ?_, Or.inr (Or.inr (iff_of_false int ?_))⟩ <;> simp [usage]
  | comp3 =>
    rw [int_comp3_comesBack number fits kind whole range usage]
    constructor
    · rintro ⟨room, same⟩
      refine ⟨?_, ?_, fun _ => room, ?_, or_assoc.mp (Or.inl same)⟩ <;> simp [usage]
    · intro returns
      refine ⟨returns.packed usage, ?_⟩
      rcases returns.scale with zero | none | other
      · exact Or.inl zero
      · exact Or.inr none
      · exact absurd (other.mpr (by simp [usage])) int
  | display =>
    rw [int_display_comesBack number fits kind whole range usage]
    constructor
    · rintro ⟨room, short, nonneg, same⟩
      refine ⟨fun _ => nonneg, fun _ => room, ?_, fun _ _ => short, or_assoc.mp (Or.inl same)⟩
      simp [usage]
    · intro returns
      refine ⟨returns.display usage, returns.length usage kind, returns.sign usage, ?_⟩
      rcases returns.scale with zero | none | other
      · exact Or.inl zero
      · exact Or.inr none
      · exact absurd (other.mpr (by simp [usage])) int

/-- A decimal comes back when a number is read as it. -/
theorem decimal_comesBack_of (number : v.number? = some d) (fits : NumberFits c d) (kind : c.spec.kind = .decimal)
    (written : encodeField (charsets c.spec.encoding) c v = .ok b) {negative : Bool} {x : Int}
    (read : decimalField charsets.codecs c.spec b = .ok (.finite negative ⟨x, -(c.spec.field.scale : Int)⟩))
    (narrow : Decimal.digitCount x.natAbs ≤ c.spec.targetPrecision) : ComesBack charsets c v ↔ x = c.unscaled d := by
  have converted := convertDecimal_ok_of kind read narrow
  constructor
  · rintro ⟨b', written', value, source, converted', returned⟩
    rw [written] at written'
    cases written'
    rw [converted] at converted'
    cases converted'
    exact (returnedAs_decimal number fits).mp returned
  · intro same
    exact ⟨b, written, _, _, converted, (returnedAs_decimal number fits).mpr same⟩

theorem decimal_comesBack_iff (number : v.number? = some d) (fits : NumberFits c d) (kind : c.spec.kind = .decimal)
    (narrow : Decimal.digitCount (c.unscaled d).natAbs ≤ c.spec.targetPrecision) :
    ComesBack charsets c v ↔ NumberReturns c d := by
  have precision := c.spec.precision_le kind
  have context : decimalPrecision = 64 := rfl
  have small : Decimal.digitCount (c.unscaled d).natAbs ≤ decimalPrecision := by omega
  have count := digitCount_le_of_lt fits.digits
  have bytes := c.length_eq fits.numeric
  have int : c.spec.kind ≠ .int := by
    rw [kind]
    decide
  cases usage : c.spec.field.usage with
  | comp =>
    obtain ⟨written, back⟩ : encodeField (charsets c.spec.encoding) c v = .ok (c.compBytes d) ∧ _ := encodeField_comp number fits usage
    have le : ((c.unscaled d).tdiv (10 ^ c.spec.field.scale)).natAbs ≤ (c.unscaled d).natAbs := by
      rw [Int.natAbs_tdiv]
      exact Nat.div_le_self _ _
    have positive := Decimal.digitCount_pos (c.unscaled d).natAbs
    have fewer := digitCount_mono le (by omega) narrow
    have read : decimalField charsets.codecs c.spec (c.compBytes d) = .ok (.finite (decide (fromBytes (c.compBytes d) < 0))
        ⟨(c.unscaled d).tdiv (10 ^ c.spec.field.scale), -(c.spec.field.scale : Int)⟩) := by
      unfold decimalField
      simp only [usage]
      rw [roundTo_fits (by rw [back]; simp only; omega), back]
    rw [decimal_comesBack_of number fits kind written read fewer, unscaled_tdiv_iff]
    constructor
    · intro same
      refine ⟨?_, ?_, ?_, ?_, or_assoc.mp (Or.inl same)⟩ <;> simp [usage]
    · intro returns
      rcases returns.scale with zero | none | other
      · exact Or.inl zero
      · exact Or.inr none
      · exact absurd usage (other.mp kind)
  | comp3 =>
    rw [usage, picLength, Option.some.injEq] at bytes
    have room : c.spec.field.scale + 1 < 2 * c.spec.field.length ↔ NumberReturns c d := by
      constructor
      · intro room
        refine ⟨?_, ?_, fun _ => room, ?_, Or.inr (Or.inr (iff_of_true kind ?_))⟩ <;> simp [usage]
      · intro returns
        exact returns.packed usage
    rw [← room]
    by_cases places : c.spec.field.scale + 1 < 2 * c.spec.field.length
    · have written : encodeField (charsets c.spec.encoding) c v = .ok (c.comp3Bytes d) :=
        (encodeField_comp3 number fits usage).mpr ⟨⟨small, places⟩, rfl⟩
      have read : decimalField charsets.codecs c.spec (c.comp3Bytes d) =
            .ok (.finite (decide (c.unscaled d < 0)) ⟨c.unscaled d, -(c.spec.field.scale : Int)⟩) := by
        unfold decimalField RecordColumn.comp3Bytes
        simp only [usage]
        rw [unpackComp3_packed (by omega) (by omega), Nat.min_eq_left (by omega)]
      exact iff_of_true ((decimal_comesBack_of number fits kind written read narrow).mpr rfl) places
    · refine iff_of_false ?_ places
      rintro ⟨b, written, _⟩
      exact places ((encodeField_comp3 number fits usage).mp written).1.2
  | display =>
    have room : c.spec.field.scale < c.spec.field.length ∧ 0 ≤ c.unscaled d ↔ NumberReturns c d := by
      constructor
      · rintro ⟨room, nonneg⟩
        refine ⟨fun _ => nonneg, fun _ => room, ?_, fun _ => ?_, Or.inr (Or.inr (iff_of_true kind ?_))⟩
        · simp [usage]
        · intro other
          exact absurd other int
        · simp [usage]
      · intro returns
        exact ⟨returns.display usage, returns.sign usage⟩
    rw [← room]
    by_cases places : c.spec.field.scale < c.spec.field.length
    · obtain ⟨b, written, digits⟩ : ∃ b, encodeField (charsets c.spec.encoding) c v = .ok b ∧ _ :=
        display_encoded number fits usage small places
      have exact_ : exactDecimal ⟨(c.unscaled d).natAbs, -(c.spec.field.scale : Int)⟩ := by
        have least := c.scale_le fits.numeric
        have memory := c.digits_lt
        simp only [exactDecimal, Int.natAbs_natCast]
        omega
      have read := decimalField_display usage places (length_display fits usage (by omega)) digits exact_
      rw [decimal_comesBack_of number fits kind written read (by rw [Int.natAbs_natCast]; exact narrow)]
      omega
    · refine iff_of_false ?_ (fun h => places h.1)
      rintro ⟨b, written, _⟩
      exact places ((encodeField_display number fits usage small).mp written).1

/-- A text that its field's conversion takes comes back if its padded form takes the bytes of the field. -/
theorem text_comesBack_iff (fits : TextFits (charsets c.spec.encoding) c s) (is : v = .text s ∨ v = .timestamp12 s)
    (kind : c.spec.kind = .char ∨ c.spec.kind = .date8 ∨ c.spec.kind = .timestamp12)
    (taken : ∀ b, ∃ value, (match c.spec.kind with
      | .char => convertChar c.spec b (ljust s c.spec.field.length)
      | .date8 => convertDate8 b (ljust s c.spec.field.length)
      | _ => convertTimestamp12 b (ljust s c.spec.field.length)) = .ok (value, .text (ljust s c.spec.field.length))) :
    ComesBack charsets c v ↔ ValueReturns (charsets c.spec.encoding) c v := by
  have shown : textOfValue v = s := by rcases is with rfl | rfl <;> rfl
  have none : v.number? = none := by rcases is with rfl | rfl <;> rfl
  have source : ReturnedAs c v (.text (ljust s c.spec.field.length)) := by rcases is with rfl | rfl <;> rfl
  have other : c.spec.kind ≠ .binary := by
    rcases kind with kind | kind | kind <;> simp [kind]
  have returns : ValueReturns (charsets c.spec.encoding) c v ↔
      ∃ b, (charsets c.spec.encoding).encode (ljust s c.spec.field.length) = .ok b ∧ b.length = c.spec.field.length := by
    unfold ValueReturns
    rw [none, shown]
    exact forall_prop_of_true other
  rw [returns]
  constructor
  · rintro ⟨b, written, _⟩
    exact ⟨b, (encodeField_text fits is).1.mp written⟩
  · rintro ⟨b, written, length⟩
    obtain ⟨value, converted⟩ := taken b
    rw [← convertField_text written kind] at converted
    exact ⟨b, (encodeField_text fits is).1.mpr ⟨written, length⟩, value, _, converted, source⟩

theorem binary_comesBack (kind : c.spec.kind = .binary) (is : v = .bytes b) (fits : b.length ≤ c.spec.field.length) :
    ComesBack charsets c v := by
  subst is
  let raw := b ++ List.replicate (c.spec.field.length - b.length) (padByte c.spec.encoding)
  have converted : convertField charsets.codecs c.spec raw = .ok (.bytes raw, .bytes raw) := by
    unfold convertField
    simp only [kind]
  have length : raw.length = c.spec.field.length := by
    rw [List.length_append, List.length_replicate]
    omega
  exact ⟨raw, encodeField_ok.mpr ⟨rfl, length⟩, _, _, converted, rfl⟩

/-- The values of a column that come back. -/
theorem comesBack_iff (valid : ValidFor (charsets c.spec.encoding) c v) :
    ComesBack charsets c v ↔ ValueReturns (charsets c.spec.encoding) c v := by
  unfold ValidFor at valid
  cases kind : c.spec.kind with
  | char =>
    simp only [kind] at valid
    obtain ⟨s, is, fits, control, width⟩ := valid
    apply text_comesBack_iff fits (Or.inl is) (Or.inl kind)
    intro b
    refine ⟨.text (charValue c.spec (ljust s c.spec.field.length)), ?_⟩
    have narrow : ¬(c.spec.targetLength ≠ 0 ∧
        c.spec.targetLength < (charValue c.spec (ljust s c.spec.field.length)).length) := by omega
    simp only [kind, convertChar, controlByte_none b control]
    rw [if_neg narrow]
  | date8 =>
    simp only [kind] at valid
    obtain ⟨s, year, month, day, is, fits, groups, calendar⟩ := valid
    apply text_comesBack_iff fits (Or.inl is) (Or.inr (Or.inl kind))
    intro b
    refine ⟨.date (isoDate year month day), ?_⟩
    simp only [kind, convertDate8, groups, calendar]
  | timestamp12 =>
    simp only [kind] at valid
    obtain ⟨s, is, fits, tail⟩ := valid
    apply text_comesBack_iff fits is (Or.inr (Or.inr kind))
    intro b
    obtain ⟨n, held⟩ := Option.ne_none_iff_exists'.mp tail
    refine ⟨.timestamp12 (ljust s c.spec.field.length), ?_⟩
    simp only [kind, convertTimestamp12, held]
  | binary =>
    simp only [kind] at valid
    obtain ⟨b, rfl, fits⟩ := valid
    refine iff_of_true (binary_comesBack kind rfl fits) ?_
    intro other
    exact absurd kind other
  | int =>
    simp only [kind] at valid
    obtain ⟨d, m, number, fits, whole, range⟩ := valid
    rw [int_comesBack_iff number fits kind whole range, ValueReturns, number]
  | decimal =>
    simp only [kind] at valid
    obtain ⟨d, number, fits, narrow⟩ := valid
    rw [decimal_comesBack_iff number fits kind narrow, ValueReturns, number]

end

end OtterWorks.Migration
