import OtterWorks.Migration.PictureTypes
import OtterWorks.Migration.Timestamps

namespace OtterWorks.Migration

/-! What the shipped maps make of an inferred type. -/

def charBase : Target → Text
  | .azuresql => text "NCHAR"
  | .postgresql => text "CHAR"

def decimalBase : Target → Text
  | .azuresql => text "DECIMAL"
  | .postgresql => text "NUMERIC"

def binaryType (n : Text) : Target → Text
  | .azuresql => text "VARBINARY" ++ '(' :: (n ++ [')'])
  | .postgresql => text "BYTEA"

section

variable {src : Text} {item : Item} {target : Target}

theorem rule_char (target : Target) (n : Text) : firstRule ⟨text "CHAR", [n], false⟩ (shippedMap target).rules =
    .ok (some (charBase target ++ '(' :: (n ++ [')']), .char)) := by
  cases target with
  | azuresql => rfl
  | postgresql => rfl

theorem rule_timestamp (target : Target) :
    ∃ t, firstRule ⟨text "TIMESTAMP", [text "12"], false⟩ (shippedMap target).rules = .ok (some (t, .timestamp12)) := by
  cases target with
  | azuresql => exact ⟨text "DATETIME2(7)", rfl⟩
  | postgresql => exact ⟨text "TIMESTAMP(6)", rfl⟩

theorem rule_bits (target : Target) (n : Text) : firstRule ⟨text "CHAR", [n], true⟩ (shippedMap target).rules =
    .ok (some (binaryType n target, .binary)) := by
  cases target with
  | azuresql => rfl
  | postgresql => rfl

theorem rule_decimal (target : Target) (p s : Text) :
    firstRule ⟨text "DECIMAL", [p, s], false⟩ (shippedMap target).rules =
      .ok (some (decimalBase target ++ '(' :: (p ++ ',' :: (s ++ [')'])), .decimal)) := by
  cases target with
  | azuresql => rfl
  | postgresql => rfl

def integerNameOf : Target → Text
  | .azuresql => text "INT"
  | .postgresql => text "INTEGER"

/-- A type that the shipped maps give a column without an override of it. -/
inductive TypeForm (target : Target) (item : Item) : Text → Kind → Prop
  | timestamp (t : Text) : item.isNumeric = false → TypeForm target item t .timestamp12
  | char (n : Text) : item.isNumeric = false → IsNumber n → digitsValue n = item.field.length →
    TypeForm target item (charBase target ++ '(' :: (n ++ [')'])) .char
  | integer (row : Nat × Text) : item.isNumeric = true → item.field.usage = .comp → item.field.scale = 0 →
    row ∈ [(2, text "SMALLINT"), (4, integerNameOf target), (8, text "BIGINT")] → item.field.length = row.1 →
    TypeForm target item row.2 .int
  | decimal (p s : Text) : item.isNumeric = true → item.field.usage ≠ .comp → IsNumber p → IsNumber s →
    digitsValue p = item.digits → digitsValue s = item.field.scale →
    TypeForm target item (decimalBase target ++ '(' :: (p ++ ',' :: (s ++ [')']))) .decimal

theorem mapSourceType_eq {parsed : ParsedType} {found : Text × Kind} (read : parseType src = .ok parsed)
    (rule : firstRule parsed (shippedMap target).rules = .ok (some found)) :
    (shippedMap target).mapSourceType src = .ok found := by
  unfold TypeMap.mapSourceType
  simp only [read, Bind.bind, Except.bind, rule]

section

variable {ov : TypeOverride} {column : String} {t : Text} {kind : Kind} {parsed : ParsedType} {typeMap : TypeMap}

theorem applyOverride_none (plain : ov.targetType = none) : typeMap.applyOverride kind t ov column = .ok (t, kind) := by
  unfold TypeMap.applyOverride
  rw [plain]

/-- An encoding only changes the type of a `CHAR`. -/
theorem encodedSource_other (read : parseType src = .ok parsed) (other : parsed.base ≠ text "CHAR") :
    encodedSource ov src = .ok src := by
  unfold encodedSource
  rw [read]
  split
  next => rfl
  next =>
    change Except.ok (if parsed.base = text "CHAR" then _ else _) = _
    rw [if_neg other]

theorem decodedType_other (other : kind ≠ .binary) : typeMap.decodedType ov src t kind = .ok (t, kind) := by
  unfold TypeMap.decodedType
  rw [if_neg fun h => other h.1]

theorem columnType_ok {found : Text × Kind} {sourceType : Text} (plain : ov.targetType = none)
    (h : typeMap.columnType item ov column = .ok found) (inferred : typeMap.inferSourceType item = .ok src)
    (source : encodedSource ov src = .ok sourceType) (mapped : typeMap.mapSourceType sourceType = .ok (t, kind)) :
    typeMap.decodedType ov sourceType t kind = .ok found := by
  unfold TypeMap.columnType at h
  obtain ⟨_, inferred', h⟩ := bind_ok h
  cases Except.ok.inj (inferred.symm.trans inferred')
  obtain ⟨_, source', h⟩ := bind_ok h
  cases Except.ok.inj (source.symm.trans source')
  obtain ⟨_, mapped', h⟩ := bind_ok h
  cases Except.ok.inj (mapped.symm.trans mapped')
  obtain ⟨⟨t', kind'⟩, decoded, h⟩ := bind_ok h
  cases Except.ok.inj ((applyOverride_none plain).symm.trans h)
  exact decoded

end

theorem charType_eq (target : Target) : (shippedMap target).charType = charBase target := by
  cases target with
  | azuresql => rfl
  | postgresql => rfl

/-- What the maps make of the integer types. -/
theorem rule_integer (target : Target) {row : Nat × Text}
    (member : row ∈ [(2, text "SMALLINT"), (4, text "INTEGER"), (8, text "BIGINT")]) :
    ∃ parsed row', parseType row.2 = .ok parsed ∧ parsed.base ≠ text "CHAR" ∧
      firstRule parsed (shippedMap target).rules = .ok (some (row'.2, .int)) ∧ row'.1 = row.1 ∧
      row' ∈ [(2, text "SMALLINT"), (4, integerNameOf target), (8, text "BIGINT")] := by
  simp only [List.mem_cons, List.not_mem_nil, or_false] at member
  rcases member with rfl | rfl | rfl
  · refine ⟨⟨text "SMALLINT", [], false⟩, (2, text "SMALLINT"), rfl, by decide, ?_, rfl, by simp⟩
    cases target with
    | azuresql => rfl
    | postgresql => rfl
  · refine ⟨⟨text "INTEGER", [], false⟩, (4, integerNameOf target), rfl, by decide, ?_, rfl, by simp⟩
    cases target with
    | azuresql => rfl
    | postgresql => rfl
  · refine ⟨⟨text "BIGINT", [], false⟩, (8, text "BIGINT"), rfl, by decide, ?_, rfl, by simp⟩
    cases target with
    | azuresql => rfl
    | postgresql => rfl

/-- A column in another encoding is typed as bits first, and then as a text of the same length. -/
theorem char_form {ov : TypeOverride} {column : String} {t n : Text} {kind : Kind} (plain : ov.targetType = none)
    (h : (shippedMap target).columnType item ov column = .ok (t, kind)) (noNumber : item.isNumeric = false)
    (number : IsNumber n) (length : digitsValue n = item.field.length)
    (inferred : (shippedMap target).inferSourceType item = .ok (text "CHAR(" ++ n ++ [')'])) : TypeForm target item t kind := by
  have same : text "CHAR(" ++ n ++ [')'] = text "CHAR" ++ '(' :: (n ++ ')' :: bitEnd false) := by simp [text, bitEnd]
  rw [same] at inferred
  have read : ∀ b, parseType (text "CHAR" ++ '(' :: (n ++ ')' :: bitEnd b)) = .ok ⟨text "CHAR", [n], b⟩ :=
    fun b => parseType_one (letters_of_all (by decide)) (by decide) number
  by_cases encoding : given ov.encoding = none
  · have source : encodedSource ov (text "CHAR" ++ '(' :: (n ++ ')' :: bitEnd false)) =
        .ok (text "CHAR" ++ '(' :: (n ++ ')' :: bitEnd false)) := if_pos encoding
    have decoded := columnType_ok plain h inferred source (mapSourceType_eq (read false) (rule_char target n))
    rw [decodedType_other (by decide)] at decoded
    cases decoded
    exact .char n noNumber number length
  · have source : encodedSource ov (text "CHAR" ++ '(' :: (n ++ ')' :: bitEnd false)) =
        .ok (text "CHAR" ++ '(' :: (n ++ ')' :: bitEnd true)) := by
      unfold encodedSource
      rw [if_neg encoding, read false]
      simp [bitEnd, Bind.bind, Except.bind]
    have decoded := columnType_ok plain h inferred source (mapSourceType_eq (read true) (rule_bits target n))
    unfold TypeMap.decodedType at decoded
    rw [if_pos ⟨rfl, encoding⟩, read true] at decoded
    obtain ⟨parsed, same, decoded⟩ := bind_ok decoded
    cases same
    obtain ⟨k, argument, decoded⟩ := bind_ok decoded
    have value : k = digitsValue n := argument_number number argument
    cases decoded
    rw [charType_eq]
    refine .char _ noNumber (isNumber_toDigits k) ?_
    rw [← length, ← value]
    exact digitsValue_zeros (w := 0)

theorem columnType_form {ov : TypeOverride} {column : String} {t : Text} {kind : Kind} (plain : ov.targetType = none)
    (h : (shippedMap target).columnType item ov column = .ok (t, kind)) : TypeForm target item t kind := by
  have more := h
  unfold TypeMap.columnType at more
  obtain ⟨src, inferred, _⟩ := bind_ok more
  cases infer_form inferred with
  | timestamp noNumber =>
    have read : parseType (text "TIMESTAMP(12)") = .ok ⟨text "TIMESTAMP", [text "12"], false⟩ := rfl
    obtain ⟨t', rule⟩ := rule_timestamp target
    have decoded := columnType_ok plain h inferred (encodedSource_other read (by decide)) (mapSourceType_eq read rule)
    rw [decodedType_other (by decide)] at decoded
    cases decoded
    exact .timestamp _ noNumber
  | char n noNumber number length => exact char_form plain h noNumber number length inferred
  | integer row numeric comp scale member length =>
    obtain ⟨parsed, row', read, other, rule, same, member'⟩ := rule_integer target member
    have decoded := columnType_ok plain h inferred (encodedSource_other read other) (mapSourceType_eq read rule)
    rw [decodedType_other (by decide)] at decoded
    cases decoded
    exact .integer row' numeric comp scale member' (length.trans same.symm)
  | decimal p s numeric other number number' digits scale =>
    have read : parseType (text "DECIMAL" ++ '(' :: (p ++ ',' :: s ++ [')'])) = .ok ⟨text "DECIMAL", [p, s], false⟩ :=
      parseType_two (letters_of_all (by decide)) (by decide) number number'
    have same : text "DECIMAL(" ++ (p ++ ',' :: s) ++ [')'] = text "DECIMAL" ++ '(' :: (p ++ ',' :: s ++ [')']) := by
      simp [text]
    rw [same] at inferred
    have notChar : text "DECIMAL" ≠ text "CHAR" := by decide
    have mapped := mapSourceType_eq read (rule_decimal target p s)
    have decoded := columnType_ok plain h inferred (encodedSource_other read notChar) mapped
    rw [decodedType_other (by decide)] at decoded
    cases decoded
    exact .decimal p s numeric other number number' digits scale

end

/-- The bytes are a value of the item's picture, which the column converts to the value. -/
def Pictured (codecs : Codecs) (item : Item) (spec : ColumnSpec) (raw : Bytes) (value : Value) : Prop :=
  match spec.kind with
  | .int => item.field.usage = .comp ∧ value = .int (fromBytes raw)
  | .decimal => item.field.usage = .comp3 ∧ ∃ negative d, unpackComp3 raw item.field.scale = .ok (.finite negative d) ∧
      Decimal.digitCount d.coeff.natAbs ≤ item.digits ∧ value = .decimal d
  | .char => item.isNumeric = false ∧ ∃ s, decodeField codecs spec.encoding raw = .ok (.ok s) ∧ controlByte s raw = none ∧
      value = .text (if spec.trim then rtrim s else s)
  | .timestamp12 => item.isNumeric = false ∧ ∃ s, decodeField codecs spec.encoding raw = .ok (.ok s) ∧
      (timestamp12Tail s).isSome ∧ value = .timestamp12 s
  | _ => False

/-- The timestamp comes back from the two columns that the target has for it: its own, which drops the last digits of the
fraction, and the one of the `NANOS_TAIL`. -/
def Target.KeepsTimestamp (zeroPads : Bool) (ts : Timestamp12) : Target → Prop
  | .postgresql => joinTimestamp12 zeroPads (splitTimestamp12 ts).1 (splitTimestamp12 ts).2 = some ts
  | .azuresql => Timestamp12.fromTarget ts.datetime2Literal ts.nanosTail = some ts

/-- The column of the target takes the value and does not change it. A derived column holds no other kinds of values. -/
def ColumnSpec.Takes (target : Target) (zeroPads : Bool) (spec : ColumnSpec) : Value → Prop
  | .int n => -(2 ^ integerBits spec.targetType) ≤ n ∧ n < 2 ^ integerBits spec.targetType
  | .decimal d => d.castNumeric spec.targetPrecision spec.targetScale = some d
  | .text s => spec.targetLength = 0 ∨ s.length ≤ spec.targetLength
  | .timestamp12 s => ∃ ts, Timestamp12.parse s = some ts ∧ target.KeepsTimestamp zeroPads ts
  | .bytes _ | .date _ | .null => False

section

variable {codecs : Codecs} {item : Item} {spec : ColumnSpec} {raw : Bytes} {value source : Value} {literal : Literal}
  {scale : Nat} {s : Text} {d : Decimal} {target : Target} {zeroPads : Bool}

theorem length_nibbles (raw : Bytes) : (nibbles raw).length = 2 * raw.length := by
  induction raw with
  | nil => rfl
  | cons b raw ih =>
    have cons : nibbles (b :: raw) = [b.toNat / 16, b.toNat % 16] ++ nibbles raw := rfl
    rw [cons, List.length_append, ih, List.length_cons, List.length_cons, List.length_cons, List.length_nil]
    omega

/-- A field with room for its places is unpacked to a number with just those. -/
theorem unpackComp3_exponent (room : scale < 2 * raw.length) (h : unpackComp3 raw scale = .ok literal) :
    ∃ negative d, literal = .finite negative d ∧ d.exponent = -(scale : Int) := by
  unfold unpackComp3 at h
  split at h
  next => cases h
  next sign _ =>
    have digits : min scale (nibbles raw).dropLast.length = scale := by
      rw [List.length_dropLast, length_nibbles]
      omega
    by_cases wrong : (nibbles raw).dropLast.any fun n => decide (9 < n)
    · simp only [wrong, if_true] at h
      cases h
    · simp only [wrong, if_false, Bool.false_eq_true, digits] at h
      cases hsign : packedSign sign with
      | none =>
        rw [hsign] at h
        cases h
      | some negative =>
        rw [hsign] at h
        exact ⟨negative, _, (Except.ok.inj h).symm, rfl⟩

theorem foldl_bytes_lt (raw : Bytes) (start : Nat) :
    raw.foldl (fun n b => 256 * n + b.toNat) start < (start + 1) * 256 ^ raw.length := by
  induction raw generalizing start with
  | nil => simp
  | cons b raw ih =>
    have byte : b.toNat < 256 := b.toNat_lt
    have next := ih (256 * start + b.toNat)
    rw [List.foldl_cons, List.length_cons]
    calc
      _ < (256 * start + b.toNat + 1) * 256 ^ raw.length := next
      _ ≤ (256 * start + 256) * 256 ^ raw.length := Nat.mul_le_mul_right _ (by omega)
      _ = (start + 1) * 256 ^ (raw.length + 1) := by ring

theorem fromBytes_range (raw : Bytes) :
    -(256 ^ raw.length : Int) ≤ 2 * fromBytes raw ∧ 2 * fromBytes raw < 256 ^ raw.length := by
  have bound := foldl_bytes_lt raw 0
  rw [Nat.zero_add, Nat.one_mul] at bound
  have bound' : ((raw.foldl (fun n b => 256 * n + b.toNat) 0 : Nat) : Int) < 256 ^ raw.length := by exact_mod_cast bound
  unfold fromBytes
  simp only
  split
  next negative =>
    have negative' : (256 : Int) ^ raw.length ≤ 2 * (raw.foldl (fun n b => 256 * n + b.toNat) 0 : Nat) := by
      exact_mod_cast negative
    omega
  next positive =>
    have positive' : 2 * ((raw.foldl (fun n b => 256 * n + b.toNat) 0 : Nat) : Int) < 256 ^ raw.length := by
      exact_mod_cast Nat.lt_of_not_le positive
    omega

theorem castNumeric_self (places : d.exponent = -(scale : Int)) {precision : Nat}
    (fits : d.coeff.natAbs < 10 ^ precision) : d.castNumeric precision scale = some d := by
  have same : d.rescale (-(scale : Int)) = d.coeff := by
    unfold Decimal.rescale Decimal.coeffAt
    rw [if_pos (by omega), places, Int.sub_self]
    simp
  rw [Decimal.castNumeric_of_le (by omega), same, if_pos fits, ← places]

theorem columnShape_ok {typeMap : TypeMap} {ov : TypeOverride} {column : String} {shape : ColumnShape item}
    (h : typeMap.columnShape item ov column = .ok shape) :
    typeMap.columnType item ov column = .ok (shape.targetType, shape.kind) ∧
      parseType shape.targetType = .ok shape.parsed ∧ shape.parsed.precision = .ok shape.precision ∧
      shape.parsed.scale = .ok shape.scale := by
  unfold TypeMap.columnShape at h
  obtain ⟨⟨t, kind⟩, typed, h⟩ := bind_ok h
  obtain ⟨_, _, h⟩ := bind_ok h
  obtain ⟨parsed, read, h⟩ := bind_ok h
  obtain ⟨precision, first, h⟩ := bind_ok h
  split at h
  next => cases h
  next =>
    obtain ⟨scale, second, h⟩ := bind_ok h
    split at h
    next => cases h
    next =>
      cases h
      exact ⟨typed, read, first, second⟩

theorem integerBits_row {target : Target} {row : Nat × Text}
    (member : row ∈ [(2, text "SMALLINT"), (4, integerNameOf target), (8, text "BIGINT")]) :
    2 * 2 ^ integerBits (String.ofList row.2) = 256 ^ row.1 := by
  simp only [List.mem_cons, List.not_mem_nil, or_false] at member
  rcases member with rfl | rfl | rfl
  · decide
  · cases target with
    | azuresql => decide
    | postgresql => decide
  · decide

/-- What a column without an override of its type is. -/
inductive Derived (item : Item) (spec : ColumnSpec) : Prop
  | timestamp : item.isNumeric = false → spec.kind = .timestamp12 → Derived item spec
  | char : item.isNumeric = false → spec.kind = .char → spec.targetLength = item.field.length → Derived item spec
  | integer : item.field.usage = .comp → spec.kind = .int → 2 * 2 ^ integerBits spec.targetType = 256 ^ item.field.length →
    Derived item spec
  | decimal : item.isNumeric = true → item.field.usage ≠ .comp → spec.kind = .decimal → spec.targetPrecision = item.digits →
    Derived item spec

theorem derived_of_columnSpec {target : Target} {table : TableConfig} {textEncoding column : String}
    (plain : (table.override column).targetType = none)
    (h : columnSpec table (shippedMap target) textEncoding item column = .ok spec) : Derived item spec := by
  unfold columnSpec at h
  obtain ⟨shape, shaped, h⟩ := bind_ok h
  obtain ⟨typed, read, first, second⟩ := columnShape_ok shaped
  have form := columnType_form plain typed
  cases h
  obtain ⟨targetType, kind, parsed, precision, scale, le, eq⟩ := shape
  simp only at form read first second
  cases form with
  | timestamp t noNumber => exact .timestamp noNumber rfl
  | char n noNumber number length =>
    have letters : ∀ c ∈ charBase target, c.isUpper ∨ c.isDigit := letters_of_all (by cases target <;> decide)
    have some : charBase target ≠ [] := by cases target <;> decide
    have parts := parseType_one (b := false) letters some number
    cases Except.ok.inj (parts.symm.trans read)
    refine .char noNumber rfl ?_
    exact (argument_number number first).trans length
  | integer row numeric comp places member length =>
    refine .integer comp rfl ?_
    rw [length]
    exact integerBits_row member
  | decimal p s numeric other number number' digits places =>
    have letters : ∀ c ∈ decimalBase target, c.isUpper ∨ c.isDigit := letters_of_all (by cases target <;> decide)
    have some : decimalBase target ≠ [] := by cases target <;> decide
    have parts := parseType_two letters some number number'
    rw [List.append_assoc] at parts
    cases Except.ok.inj (parts.symm.trans read)
    refine .decimal numeric other rfl ?_
    exact (argument_number number first).trans digits

theorem charValue_plain (plain : spec.valueMap = []) (s : Text) : charValue spec s = if spec.trim then rtrim s else s := by
  unfold charValue
  rw [plain]
  rfl

theorem length_trimmed (trim : Bool) (s : Text) : (if trim then rtrim s else s).length ≤ s.length := by
  cases trim with
  | false => exact Nat.le_refl _
  | true =>
    have shorter := (List.dropWhile_suffix (l := s.reverse) (· == ' ')).length_le
    simpa [rtrim] using shorter

theorem derived_integer (target : Target) (zeroPads : Bool) (codecs : Codecs) (comp : item.field.usage = .comp)
    (kind : spec.kind = .int) (bits : 2 * 2 ^ integerBits spec.targetType = 256 ^ item.field.length)
    (same : spec.field = item.field)
    (length : raw.length = item.field.length) :
    convertField codecs spec raw = .ok (.int (fromBytes raw), .int (fromBytes raw)) ∧
      spec.Takes target zeroPads (.int (fromBytes raw)) := by
  have read : intField codecs spec raw = .ok (fromBytes raw) := by
    unfold intField
    rw [same, comp]
  have range := fromBytes_range raw
  have wide : (2 : Int) * 2 ^ integerBits spec.targetType = 256 ^ raw.length := by
    rw [length]
    exact_mod_cast bits
  have inside : -(2 ^ integerBits spec.targetType) ≤ fromBytes raw ∧ fromBytes raw < 2 ^ integerBits spec.targetType := by
    omega
  refine ⟨?_, inside⟩
  unfold convertField
  simp only [kind]
  unfold convertInt
  rw [read]
  exact if_pos inside

theorem derived_packed (target : Target) (zeroPads : Bool) (codecs : Codecs) (value : Value) (packed : item.field.usage = .comp3)
    (numeric : item.isNumeric = true) (kind : spec.kind = .decimal) (digits : spec.targetPrecision = item.digits)
    (same : spec.field = item.field) (length : raw.length = item.field.length) :
    ((∃ source, convertField codecs spec raw = .ok (value, source)) ↔ ∃ negative d,
      unpackComp3 raw item.field.scale = .ok (.finite negative d) ∧ Decimal.digitCount d.coeff.natAbs ≤ item.digits ∧
      value = .decimal d) ∧
    ∀ negative d, unpackComp3 raw item.field.scale = .ok (.finite negative d) →
      Decimal.digitCount d.coeff.natAbs ≤ item.digits → spec.Takes target zeroPads (.decimal d) := by
  obtain ⟨bytes, places⟩ := picLayout_numeric item.layout numeric
  rw [packed] at bytes
  have width : item.field.length = (item.digits + 2) / 2 := (Option.some.inj bytes).symm
  simp only at places
  have room : item.field.scale < 2 * raw.length := by omega
  have scale : spec.targetScale = item.field.scale := by rw [← spec.scale_eq kind, same]
  have fits : ∀ negative d, unpackComp3 raw item.field.scale = .ok (.finite negative d) →
      (decimalFits spec.targetPrecision spec.targetScale (.finite negative d) = true ↔
        Decimal.digitCount d.coeff.natAbs ≤ item.digits) := by
    intro negative d read
    obtain ⟨negative', d', is, exponent⟩ := unpackComp3_exponent room read
    cases is
    simp only [decimalFits, decide_eq_true_eq, exponent, digits, scale]
    omega
  have field : decimalField codecs spec raw = unpackComp3 raw item.field.scale := by
    unfold decimalField
    rw [same, packed]
  have convert : convertField codecs spec raw = convertDecimal codecs spec raw := by
    unfold convertField
    simp only [kind]
  refine ⟨⟨?_, ?_⟩, ?_⟩
  · rintro ⟨source, h⟩
    rw [convert] at h
    obtain ⟨literal, d, read, number, whole, rfl, _⟩ := convertDecimal_ok h
    rw [field] at read
    obtain ⟨negative, d', is, _⟩ := unpackComp3_exponent room read
    cases is
    cases number
    exact ⟨negative, _, read, (fits negative _ read).mp whole, rfl⟩
  · rintro ⟨negative, d, read, few, rfl⟩
    refine ⟨.decimal d, ?_⟩
    rw [convert, convertDecimal, field, read]
    exact if_pos ((fits negative d read).mpr few)
  · intro negative d read few
    obtain ⟨_, _, is, exponent⟩ := unpackComp3_exponent room read
    cases is
    have below : d.coeff.natAbs < 10 ^ spec.targetPrecision := by
      rw [digits]
      exact Nat.lt_of_lt_of_le (Decimal.lt_pow_digitCount _) (Nat.pow_le_pow_right (by omega) few)
    unfold ColumnSpec.Takes
    rw [scale]
    exact castNumeric_self exponent below

theorem derived_text (target : Target) (zeroPads : Bool) (value : Value) (kind : spec.kind = .char)
    (size : spec.targetLength = item.field.length) (plain : spec.valueMap = []) (length : raw.length = item.field.length)
    (short : ∀ s, decodeField codecs spec.encoding raw = .ok (.ok s) → s.length ≤ raw.length) :
    ((∃ source, convertField codecs spec raw = .ok (value, source)) ↔ ∃ s,
      decodeField codecs spec.encoding raw = .ok (.ok s) ∧ controlByte s raw = none ∧
      value = .text (if spec.trim then rtrim s else s)) ∧
    ∀ s, decodeField codecs spec.encoding raw = .ok (.ok s) →
      spec.Takes target zeroPads (.text (if spec.trim then rtrim s else s)) := by
  have room : ∀ s, decodeField codecs spec.encoding raw = .ok (.ok s) →
      (if spec.trim then rtrim s else s).length ≤ spec.targetLength := by
    intro s decoded
    have := short s decoded
    have := length_trimmed spec.trim s
    omega
  have converts : ∀ s, decodeField codecs spec.encoding raw = .ok (.ok s) → controlByte s raw = none →
      convertChar spec raw s = .ok (.text (if spec.trim then rtrim s else s), .text s) := by
    intro s decoded clear
    have fits := room s decoded
    unfold convertChar
    rw [clear]
    simp only [charValue_plain plain]
    rw [if_neg]
    omega
  refine ⟨⟨?_, ?_⟩, fun s decoded => Or.inr (room s decoded)⟩
  · rintro ⟨source, h⟩
    unfold convertField at h
    simp only [kind] at h
    obtain ⟨read, decoded, h⟩ := bind_ok h
    cases read with
    | error e => cases h
    | ok s =>
      have h' : convertChar spec raw s = .ok (value, source) := h
      cases clear : controlByte s raw with
      | some found =>
        unfold convertChar at h'
        rw [clear] at h'
        cases h'
      | none =>
        cases Except.ok.inj ((converts s decoded clear).symm.trans h')
        exact ⟨s, decoded, clear, rfl⟩
  · rintro ⟨s, decoded, clear, rfl⟩
    refine ⟨.text s, ?_⟩
    unfold convertField
    simp only [kind]
    rw [decoded]
    exact converts s decoded clear

theorem derived_timestamp (kind : spec.kind = .timestamp12) :
    (∃ source, convertField codecs spec raw = .ok (value, source)) ↔ ∃ s,
      decodeField codecs spec.encoding raw = .ok (.ok s) ∧ (timestamp12Tail s).isSome ∧ value = .timestamp12 s := by
  constructor
  · rintro ⟨source, h⟩
    unfold convertField at h
    simp only [kind] at h
    obtain ⟨read, decoded, h⟩ := bind_ok h
    cases read with
    | error e => cases h
    | ok s =>
      have h' : convertTimestamp12 raw s = .ok (value, source) := h
      unfold convertTimestamp12 at h'
      split at h'
      next => cases h'
      next tail is =>
        cases h'
        exact ⟨s, decoded, by rw [is]; rfl, rfl⟩
  · rintro ⟨s, decoded, tail, rfl⟩
    refine ⟨.text s, ?_⟩
    obtain ⟨n, is⟩ := Option.isSome_iff_exists.mp tail
    have convert : convertTimestamp12 raw s = .ok (.timestamp12 s, .text s) := by
      unfold convertTimestamp12
      rw [is]
    unfold convertField
    simp only [kind]
    rw [decoded]
    exact convert

/-- A timestamp that the conversion accepts is kept by both targets if it is plain and its year is written in full. -/
theorem takes_timestamp (target : Target) (valid : (timestamp12Tail s).isSome) (plain : Plain s)
    (wide : zeroPads = true ∨ s.head? ≠ some '0') : spec.Takes target zeroPads (.timestamp12 s) := by
  rw [timestamp12Tail_eq, Option.isSome_map] at valid
  obtain ⟨ts, read⟩ := Option.isSome_iff_exists.mp valid
  have back := (timestamp12_round_trip_iff zeroPads read).mpr ⟨plain, wide⟩
  refine ⟨ts, read, ?_⟩
  cases target with
  | azuresql => exact back.2
  | postgresql => exact back.1

/-- A column without an override and value map converts the bytes that are a value of its picture, and no others, and the
type that the map gives it takes the value unchanged, a timestamp together with its tail if it is plain and the platform
writes its year in full. -/
theorem derived_columns_total {table : TableConfig} {book : Copybook} {textEncoding : String}
    {specs : List ColumnSpec} {file : Option (List Text)} {recordLength : Nat}
    (made : buildTableSpec file recordLength table (shippedMap target) textEncoding = .ok (book, specs)) (member : spec ∈ specs)
    (plain : (table.override spec.name).targetType = none ∧ spec.valueMap = [])
    (noDisplay : spec.kind = .decimal → spec.field.usage ≠ .display) (length : raw.length = spec.field.length)
    (short : ∀ s, decodeField codecs spec.encoding raw = .ok (.ok s) → s.length ≤ raw.length) :
    ∃ item ∈ book.fields, item.field = spec.field ∧
      ((∃ source, convertField codecs spec raw = .ok (value, source)) ↔ Pictured codecs item spec raw value) ∧
      (Pictured codecs item spec raw value →
        (∀ s, value = .timestamp12 s → Plain s ∧ (zeroPads = true ∨ s.head? ≠ some '0')) →
        spec.Takes target zeroPads value) := by
  have built := buildColumnSpecs_forall₂ (buildTableSpec_ok made).2
  obtain ⟨entry, _, item, found, made⟩ := forall₂_right built member
  obtain ⟨same, named⟩ := columnSpec_field made
  rw [named] at plain
  rw [same] at noDisplay length
  refine ⟨item, (Copybook.field_eq found).1, same.symm, ?_⟩
  unfold Pictured
  cases derived_of_columnSpec plain.1 made with
  | timestamp noNumber kind =>
    simp only [kind]
    refine ⟨⟨fun h => ⟨noNumber, (derived_timestamp kind).mp h⟩, fun h => (derived_timestamp kind).mpr h.2⟩, ?_⟩
    rintro ⟨_, s, _, valid, rfl⟩ written
    obtain ⟨plain', wide⟩ := written s rfl
    exact takes_timestamp target valid plain' wide
  | char noNumber kind size =>
    obtain ⟨iff, takes⟩ := derived_text target zeroPads value kind size plain.2 length short
    simp only [kind]
    refine ⟨⟨fun h => ⟨noNumber, iff.mp h⟩, fun h => iff.mpr h.2⟩, ?_⟩
    rintro ⟨_, s, decoded, _, rfl⟩ _
    exact takes s decoded
  | integer comp kind bits =>
    obtain ⟨converts, takes⟩ := derived_integer target zeroPads codecs comp kind bits same length
    simp only [kind]
    refine ⟨⟨?_, ?_⟩, ?_⟩
    · rintro ⟨source, h⟩
      cases Except.ok.inj (converts.symm.trans h)
      exact ⟨comp, rfl⟩
    · rintro ⟨_, rfl⟩
      exact ⟨_, converts⟩
    · rintro ⟨_, rfl⟩ _
      exact takes
  | decimal numeric other kind digits =>
    have packed : item.field.usage = .comp3 := by
      cases usage : item.field.usage with
      | display => exact absurd usage (noDisplay kind)
      | comp => exact absurd usage other
      | comp3 => rfl
    obtain ⟨iff, takes⟩ := derived_packed target zeroPads codecs value packed numeric kind digits same length
    simp only [kind]
    refine ⟨⟨fun h => ⟨packed, iff.mp h⟩, fun h => iff.mpr h.2⟩, ?_⟩
    rintro ⟨_, negative, d, read, few, rfl⟩ _
    exact takes negative d read few

end

/-- The two bytes of `PIC S9(4) COMP` are converted whatever they are. -/
theorem account_delta_converted : ∃ spec : ColumnSpec, spec.targetType = "SMALLINT" ∧
    (∃ source, convertField (Charsets.codecs fun _ => latin1Charset) spec [0xff, 0xfe] = .ok (.int (-2), source)) ∧
    spec.Takes .postgresql false (.int (-2)) := by
  have accepted : ((buildTableSpec (some accountLines) 9 accountTable (shippedMap .postgresql) "latin-1").toOption.bind fun r =>
      r.2.find? fun spec => spec.kind = .int ∧ spec.targetType = "SMALLINT" ∧ spec.valueMap = [] ∧ spec.field.length = 2 ∧
        spec.field.usage = .comp).isSome = true := by
    decide +kernel
  obtain ⟨spec, found⟩ := Option.isSome_iff_exists.mp accepted
  obtain ⟨⟨book, specs⟩, some, found⟩ := Option.bind_eq_some_iff.mp found
  have made : buildTableSpec (.some accountLines) 9 accountTable (shippedMap .postgresql) "latin-1" = .ok (book, specs) := by
    cases built : buildTableSpec (.some accountLines) 9 accountTable (shippedMap .postgresql) "latin-1" with
    | error e =>
      rw [built] at some
      cases some
    | ok built' =>
      rw [built] at some
      cases some
      rfl
  have facts := List.find?_some found
  rw [decide_eq_true_eq] at facts
  obtain ⟨kind, type, plain, length, comp⟩ := facts
  have decodes : ∀ s, decodeField (Charsets.codecs fun _ => latin1Charset) spec.encoding [0xff, 0xfe] = .ok (.ok s) →
      s.length ≤ ([0xff, 0xfe] : Bytes).length := by
    intro s read
    cases read
    decide
  have size : ([0xff, 0xfe] : Bytes).length = spec.field.length := length.symm
  have integer : spec.kind = .decimal → spec.field.usage ≠ .display := fun decimal => by cases kind.symm.trans decimal
  obtain ⟨item, _, same, converts, takes⟩ :=
    @derived_columns_total _ _ _ (.int (-2)) .postgresql false _ _ _ _ _ _ made (List.mem_of_find?_eq_some found)
      ⟨rfl, plain⟩ integer size decodes
  have pictured : Pictured (Charsets.codecs fun _ => latin1Charset) item spec [0xff, 0xfe] (.int (-2)) := by
    have value : fromBytes [0xff, 0xfe] = -2 := by decide
    unfold Pictured
    rw [kind]
    rw [← same] at comp
    exact ⟨comp, by rw [value]⟩
  exact ⟨spec, type, converts.mpr pictured, takes pictured fun _ h => by cases h⟩

end OtterWorks.Migration
