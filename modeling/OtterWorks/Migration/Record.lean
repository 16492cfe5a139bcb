import OtterWorks.Lib.Dict
import OtterWorks.Lib.Fallible
import OtterWorks.Lib.Literals
import OtterWorks.Lib.Text
import OtterWorks.Migration.Data

namespace OtterWorks.Migration

inductive Usage
  | display
  | comp
  | comp3
  deriving DecidableEq, Repr

structure Field where
  usage : Usage
  offset : Nat
  length : Nat
  scale : Nat
  deriving DecidableEq, Repr

def Field.slice (f : Field) (record : Raw) : Bytes := (record.drop f.offset).take f.length

inductive Kind
  | char
  | int
  | decimal
  | timestamp12
  | date8
  | binary
  deriving DecidableEq, Repr

theorem Kind.char_ne_decimal : Kind.char ≠ .decimal := nofun

theorem Kind.int_ne_decimal : Kind.int ≠ .decimal := nofun

theorem Kind.timestamp12_ne_decimal : Kind.timestamp12 ≠ .decimal := nofun

theorem Kind.date8_ne_decimal : Kind.date8 ≠ .decimal := nofun

/-- A column as `build_column_specs` builds it, which refuses a decimal of more than 38 digits and one
whose copybook scale is not the target's. -/
structure ColumnSpec where
  name : String
  field : Field
  targetType : String
  kind : Kind
  isKey : Bool
  encoding : String
  trim : Bool
  valueMap : List (Text × Text)
  targetPrecision : Nat
  targetScale : Nat
  targetLength : Nat
  precision_le : kind = .decimal → targetPrecision ≤ 38
  scale_eq : kind = .decimal → field.scale = targetScale
  deriving DecidableEq

/-- Where a text breaks off, and what the exception says. -/
structure DecodeError where
  start : Nat
  message : String
  deriving DecidableEq, Repr

/-- The codecs by name. -/
abbrev Codecs := String → Option (Bytes → Except DecodeError Text)

/-- How converting a field ends when it yields no value: a reject, or an exception nothing catches. -/
inductive FieldFailure
  | reject (rule message : String) (sqlstate : Option String)
  | raised (error : String)
  deriving DecidableEq, Repr

def hexByte (b : UInt8) : String := (String.ofList (hex [b])).toUpper

def hexUpper (b : Bytes) : String := (String.ofList (hex b)).toUpper

/-- `_control_byte`: the offset and the byte of the first control character. -/
def controlByte (s : Text) (raw : Bytes) : Option (Nat × UInt8) :=
  (s.zipIdx.find? fun (c, _) => decide (c.toNat < 0x20 ∨ (0x7f ≤ c.toNat ∧ c.toNat ≤ 0x9f))).map
    fun (c, i) => (i, raw.getD i (UInt8.ofNat c.toNat))

def nibbles (raw : Bytes) : List Nat := raw.flatMap fun b => [b.toNat / 16, b.toNat % 16]

def packedSign : Nat → Option Bool
  | 0xC | 0xF | 0xA | 0xE => some false
  | 0xD | 0xB => some true
  | _ => none

def packedValue (digits : List Nat) : Nat := digits.foldl (fun n d => 10 * n + d) 0

def unpackComp3 (raw : Bytes) (scale : Nat) : Except FieldFailure Literal :=
  match (nibbles raw).getLast? with
  | none => .error (.raised "pop from empty list")
  | some signNibble =>
    let digits := (nibbles raw).dropLast
    if digits.any fun d => decide (9 < d) then
      .error (.reject "PACKED_INVALID" s!"invalid packed decimal digit in X'{hexUpper raw}'" (some "22018"))
    else
      match packedSign signNibble with
      | none =>
        .error (.reject "PACKED_INVALID"
          s!"invalid packed decimal sign nibble X'{hexDigit signNibble |>.toUpper}' in X'{hexUpper raw}'"
          (some "22018"))
      | some negative =>
        .ok (.finite negative ⟨signed negative (packedValue digits), -(min scale digits.length : Nat)⟩)

def decimalFits (precision scale : Nat) : Literal → Bool
  | .special _ => false
  | .finite _ d =>
    decide ((Decimal.digitCount d.coeff.natAbs : Int) + d.exponent ≤ (precision : Int) - (scale : Int))

/-- `int.from_bytes(raw, "big", signed=True)`. -/
def fromBytes (raw : Bytes) : Int :=
  let n : Nat := raw.foldl (fun n b => 256 * n + b.toNat) 0
  if 256 ^ raw.length ≤ 2 * n then (n : Int) - 256 ^ raw.length else n

def daysInMonth (year month : Nat) : Nat :=
  if month = 2 then (if year % 4 = 0 ∧ (year % 100 ≠ 0 ∨ year % 400 = 0) then 29 else 28)
  else if month ∈ [4, 6, 9, 11] then 30
  else 31

/-- What `date(year, month, day)` objects to. -/
def dateError (year month day : Nat) : Option String :=
  if year < 1 ∨ 9999 < year then some s!"year {year} is out of range"
  else if month < 1 ∨ 12 < month then some "month must be in 1..12"
  else if day < 1 ∨ daysInMonth year month < day then some "day is out of range for month"
  else none

/-- A text of `n` decimal digits at the front. -/
def digitsFront (n : Nat) (s : Text) : Option (Text × Text) :=
  if (s.take n).length = n ∧ (s.take n).all isDecimal then some (s.take n, s.drop n) else none

theorem digitsFront_eq {n : Nat} {s front rest : Text} :
    digitsFront n s = some (front, rest) ↔ s = front ++ rest ∧ front.length = n ∧ front.all isDecimal := by
  unfold digitsFront
  constructor
  · intro h
    split at h
    next whole =>
      cases Option.some.inj h
      exact ⟨(List.take_append_drop n s).symm, whole⟩
    next => cases h
  · rintro ⟨rfl, rfl, digits⟩
    rw [List.take_left, List.drop_left, if_pos ⟨rfl, digits⟩]

/-- Where a pattern's `$` matches: at the end, or before a line break there. -/
def atEnd (s : Text) : Bool := s == [] || s == ['\n']

/-- The groups of `DATE8_RE`. -/
def date8Groups (s : Text) : Option (Nat × Nat × Nat) := do
  let (y, s) ← digitsFront 4 s
  let (m, s) ← digitsFront 2 s
  let (d, s) ← digitsFront 2 s
  if atEnd s then some (digitsValue y, digitsValue m, digitsValue d) else none

def isoDate (year month day : Nat) : Text :=
  zeroPad 4 year ++ '-' :: zeroPad 2 month ++ '-' :: zeroPad 2 day

def literalFront (c : Char) : Text → Option Text
  | [] => none
  | d :: s => if d = c then some s else none

theorem literalFront_eq {c : Char} {s rest : Text} : literalFront c s = some rest ↔ s = c :: rest := by
  cases s with
  | nil => simp [literalFront]
  | cons d s =>
    by_cases same : d = c
    · simp [literalFront, same]
    · simp [literalFront, same]

/-- The groups of `TS12_RE`. -/
def timestamp12Groups (s : Text) : Option (List Nat × Text) := do
  let (y, s) ← digitsFront 4 s
  let s ← literalFront '-' s
  let (mo, s) ← digitsFront 2 s
  let s ← literalFront '-' s
  let (d, s) ← digitsFront 2 s
  let s ← literalFront '-' s
  let (h, s) ← digitsFront 2 s
  let s ← literalFront '.' s
  let (mi, s) ← digitsFront 2 s
  let s ← literalFront '.' s
  let (sec, s) ← digitsFront 2 s
  let s ← literalFront '.' s
  let (frac, s) ← digitsFront 12 s
  if atEnd s then some ([y, mo, d, h, mi, sec].map digitsValue, frac) else none

/-- `Timestamp12.parse`, down to the five digits of the tail. -/
def timestamp12Tail (s : Text) : Option Nat := do
  match ← timestamp12Groups s with
  | ([y, mo, d, h, mi, sec], frac) =>
    if dateError y mo d = none ∧ h < 24 ∧ mi < 60 ∧ sec < 60 then some (digitsValue (frac.drop 7)) else none
  | _ => none

/-- `repr` of a text that a pattern of digits matched. -/
def digitsRepr (s : Text) : String :=
  "'" ++ String.ofList (s.flatMap fun c => if c = '\n' then ['\\', 'n'] else [c]) ++ "'"

def decodeField (codecs : Codecs) (encoding : String) (raw : Bytes) : Except FieldFailure (Except DecodeError Text) :=
  match codecs encoding with
  | none => .error (.raised s!"unknown encoding: {encoding}")
  | some decode => .ok (decode raw)

def unmappable (label : String) (byte : UInt8) (offset : Nat) : FieldFailure :=
  .reject "CCSID_UNMAPPABLE" s!"{label} byte X'{hexByte byte}' at offset {offset} has no UTF-8 mapping" none

def charValue (spec : ColumnSpec) (s : Text) : Text :=
  let value := if spec.trim then rtrim s else s
  match spec.valueMap.lookup (rtrim value) with
  | some mapped => if spec.trim then mapped else ljust mapped value.length
  | none => value

def convertChar (spec : ColumnSpec) (raw : Bytes) (s : Text) : Except FieldFailure (Value × Value) :=
  match controlByte s raw with
  | some (offset, byte) =>
    .error (unmappable (if spec.encoding.toLower = "cp037" then "CCSID037" else spec.encoding) byte offset)
  | none =>
    let value := charValue spec s
    if spec.targetLength ≠ 0 ∧ spec.targetLength < value.length then
      .error (.reject "STRING_TRUNCATION" s!"value of length {value.length} exceeds {spec.targetType}"
        (some "22001"))
    else .ok (.text value, .text s)

def convertDate8 (raw : Bytes) (s : Text) : Except FieldFailure (Value × Value) :=
  match date8Groups s with
  | none =>
    .error (.reject "DATE_INVALID"
      (s!"DATE text X'{hexUpper raw}' rejected by target: Conversion failed when converting " ++
        "date and/or time from character string.") (some "22007"))
  | some (y, m, d) =>
    match dateError y m d with
    | some e => .error (.reject "DATE_INVALID" s!"DATE text {digitsRepr s} is not a calendar date: {e}" (some "22007"))
    | none => .ok (.date (isoDate y m d), .text s)

def convertTimestamp12 (raw : Bytes) (s : Text) : Except FieldFailure (Value × Value) :=
  match timestamp12Tail s with
  | none => .error (.reject "TIMESTAMP_INVALID" s!"TIMESTAMP(12) text X'{hexUpper raw}' is invalid" (some "22007"))
  | some _ => .ok (.timestamp12 s, .text s)

def numericInvalid (raw : Bytes) : FieldFailure :=
  .reject "NUMERIC_INVALID" s!"display numeric X'{hexUpper raw}' is invalid" (some "22018")

def integerBits (targetType : String) : Nat :=
  match targetType.toList.takeWhile (· ≠ '(') |> String.ofList with
  | "SMALLINT" => 15
  | "INT" | "INTEGER" => 31
  | "TINYINT" => 8
  | _ => 63

def intField (codecs : Codecs) (spec : ColumnSpec) (raw : Bytes) : Except FieldFailure Int :=
  match spec.field.usage with
  | .comp => .ok (fromBytes raw)
  | .display => do
    match ← decodeField codecs spec.encoding raw with
    | .error _ => .error (numericInvalid raw)
    | .ok s =>
      match intOf s with
      | none => .error (numericInvalid raw)
      | some n => .ok n
  | .comp3 => do
    match ← unpackComp3 raw 0 with
    | .finite _ d => .ok d.coeff
    | .special _ => .error (numericInvalid raw)

def convertInt (codecs : Codecs) (spec : ColumnSpec) (raw : Bytes) : Except FieldFailure (Value × Value) := do
  let value ← intField codecs spec raw
  if -(2 ^ integerBits spec.targetType) ≤ value ∧ value < 2 ^ integerBits spec.targetType then
    .ok (.int value, .int value)
  else .error (.reject "INTEGER_OVERFLOW" s!"value {value} exceeds {spec.targetType}" (some "22003"))

/-- The text of a display decimal with its point; a slice position below zero counts from the end. -/
def displayDecimal (scale : Nat) (s : Text) : Text :=
  let point := if scale ≤ s.length then s.length - scale else 2 * s.length - scale
  if scale = 0 then s else s.take point ++ '.' :: s.drop point

def decimalField (codecs : Codecs) (spec : ColumnSpec) (raw : Bytes) : Except FieldFailure Literal :=
  match spec.field.usage with
  | .comp3 => unpackComp3 raw spec.field.scale
  | .display => do
    match ← decodeField codecs spec.encoding raw with
    | .error _ => .error (numericInvalid raw)
    | .ok s =>
      match decimalOf (displayDecimal spec.field.scale s) with
      | none => .error (numericInvalid raw)
      | some value => .ok value
  | .comp =>
    .ok (.finite (decide (fromBytes raw < 0))
      (Decimal.roundTo decimalPrecision ⟨fromBytes raw, -(spec.field.scale : Int)⟩))

def convertDecimal (codecs : Codecs) (spec : ColumnSpec) (raw : Bytes) : Except FieldFailure (Value × Value) := do
  let literal ← decimalField codecs spec raw
  let overflow := FieldFailure.reject "DECIMAL_OVERFLOW" s!"value {literal.str} exceeds {spec.targetType}" (some "22003")
  match literal.value with
  | none => .error overflow
  | some d =>
    if decimalFits spec.targetPrecision spec.targetScale literal then .ok (.decimal d, .decimal d)
    else .error overflow

/-- `_convert_field`: the value for the target and the source's own. -/
def convertField (codecs : Codecs) (spec : ColumnSpec) (raw : Bytes) : Except FieldFailure (Value × Value) :=
  let decoded (convert : Text → Except FieldFailure (Value × Value)) := do
    match ← decodeField codecs spec.encoding raw with
    | .error e => .error (unmappable spec.encoding (raw.getD e.start 0) e.start)
    | .ok s => convert s
  match spec.kind with
  | .binary => .ok (.bytes raw, .bytes raw)
  | .char => decoded (convertChar spec raw)
  | .date8 => decoded (convertDate8 raw)
  | .timestamp12 => decoded (convertTimestamp12 raw)
  | .int => convertInt codecs spec raw
  | .decimal => convertDecimal codecs spec raw

def decodeKeyPart (codecs : Codecs) (record : Raw) (spec : ColumnSpec) : Except String Text :=
  match codecs spec.encoding with
  | none => .error s!"unknown encoding: {spec.encoding}"
  | some decode => (decode (spec.field.slice record)).mapError DecodeError.message

def sourceKeyOf (codecs : Codecs) (record : Raw) (specs : List ColumnSpec) : Except String Key :=
  ((specs.filter ColumnSpec.isKey).mapM (decodeKeyPart codecs record)).map (List.intercalate ['|'])

/-- The columns filled so far, and the source's own values of them. -/
structure ConvertedColumns where
  values : Fields
  sourceText : Fields
  deriving DecidableEq, Repr

def convertColumn (codecs : Codecs) (record : Raw) (rec : ConvertedColumns) (spec : ColumnSpec) :
    Except (ColumnSpec × FieldFailure) ConvertedColumns :=
  match convertField codecs spec (spec.field.slice record) with
  | .error failure => .error (spec, failure)
  | .ok (value, source) => .ok ⟨assign spec.name value rec.values, assign spec.name source rec.sourceText⟩

/-- `convert_record`: the first failing field stops it. -/
def convertRecord (codecs : Codecs) (specs : List ColumnSpec) (record : Raw) : Conversion :=
  match sourceKeyOf codecs record specs with
  | .error e => .undecodable e
  | .ok key =>
    match specs.foldlM (convertColumn codecs record) ⟨[], []⟩ with
    | .ok rec => .ok key rec.values rec.sourceText
    | .error (_, .raised e) => .undecodable e
    | .error (spec, .reject rule message sqlstate) =>
      .malformed key ⟨spec.name, rule, message, spec.field.slice record, sqlstate⟩

def nanosTail (column : String) : String := column ++ "_NANOS_TAIL"

/-- `target_row`: a timestamp stays whole and its tail stands beside it. -/
def targetRow (values : Fields) : Fields :=
  values.foldl (fun row (column, value) =>
    let row := assign column value row
    match value with
    | .timestamp12 s => assign (nanosTail column) (.int ((timestamp12Tail s).getD 0)) row
    | _ => row) []

section

variable {codecs : Codecs} {spec : ColumnSpec} {raw : Bytes} {value source : Value}

/-- What an integer column takes is the field's own number. -/
theorem convertInt_ok (h : convertInt codecs spec raw = .ok (value, source)) :
    ∃ n, intField codecs spec raw = .ok n ∧ value = .int n ∧ source = .int n := by
  unfold convertInt at h
  obtain ⟨n, read, h⟩ := bind_ok h
  split at h
  next =>
    cases h
    exact ⟨n, read, rfl, rfl⟩
  next => cases h

/-- A decimal column takes a value whose digits before the point fit it. -/
theorem convertDecimal_ok (h : convertDecimal codecs spec raw = .ok (value, source)) :
    ∃ literal d, decimalField codecs spec raw = .ok literal ∧ literal.value = some d ∧
      decimalFits spec.targetPrecision spec.targetScale literal = true ∧ value = .decimal d ∧ source = .decimal d := by
  unfold convertDecimal at h
  obtain ⟨literal, read, h⟩ := bind_ok h
  dsimp only at h
  split at h
  next => cases h
  next d number =>
    split at h
    next fits =>
      cases h
      exact ⟨literal, d, read, number, fits, rfl, rfl⟩
    next => cases h

end

end OtterWorks.Migration
