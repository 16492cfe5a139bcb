import OtterWorks.Migration.Record

namespace OtterWorks.Migration

/-- The columns of a table and the ones its business hash is over; the manifest's check finds each of
these among the columns. -/
structure HashedColumns where
  specs : List ColumnSpec
  hashColumns : List String
  hash_named : ∀ n ∈ hashColumns, n ∈ specs.map ColumnSpec.name

/-- The last specification of a name. -/
def byName (specs : List ColumnSpec) : List (String × ColumnSpec) :=
  specs.foldl (fun names spec => assign spec.name spec names) []

/-- `strftime("%Y%m%d")`: the platform pads the year to four digits or does not. -/
def yearMonthDay (zeroPads : Bool) (iso : Text) : Text :=
  (if zeroPads then iso.take 4 else (iso.take 4).dropWhile (· == '0')) ++ (iso.drop 5).take 2 ++ iso.drop 8

def asText (zeroPads : Bool) : Value → Value
  | .null => .text []
  | .timestamp12 s => .text s
  | .date iso => .text (yearMonthDay zeroPads iso)
  | .bytes b => .text (hexUpper b).toList
  | v => v

/-- Eight fraction digits, and no sign on a zero. -/
def renderDecimal (d : Decimal) : Option Text := (d.quantize decimalPrecision (-8)).map Decimal.fixed

def render (kind : Kind) (isKey : Bool) : Value → Option Text
  | .int n =>
    match kind with
    | .int => some (toString n).toList
    | .decimal => renderDecimal ⟨n, 0⟩
    | _ => none
  | .decimal d =>
    match kind with
    | .int => some (toString d.truncate).toList
    | .decimal => renderDecimal d
    | _ => none
  | .text s =>
    match kind with
    | .int => (intOf s).map fun n => (toString n).toList
    | .decimal => ((decimalOf s).bind Literal.value).bind renderDecimal
    | .char => some (if isKey then s else rtrim s)
    | _ => some s
  | _ => none

def renderKind : Kind → Kind
  | .int => .int
  | .decimal => .decimal
  | _ => .char

def mapSource (spec : ColumnSpec) : Value → Value
  | .text s =>
    match spec.kind, spec.valueMap.lookup (rtrim s) with
    | .char, some mapped => .text (if spec.trim then mapped else ljust mapped s.length)
    | _, _ => .text s
  | v => v

def renderSourceColumn (zeroPads : Bool) (v : Value) (spec : ColumnSpec) : Option Text :=
  render (renderKind spec.kind) spec.isKey (mapSource spec (asText zeroPads v))

def renderTargetColumn (zeroPads : Bool) (row : Fields) (spec : ColumnSpec) : Option Text :=
  (row.lookup spec.name).bind fun v => render (renderKind spec.kind) spec.isKey (asText zeroPads v)

def sourceText (zeroPads : Bool) (t : HashedColumns) (values : Fields) (column : String) : Option Text := do
  let v ← values.lookup column
  let spec ← (byName t.specs).lookup column
  renderSourceColumn zeroPads v spec

def targetText (zeroPads : Bool) (t : HashedColumns) (row : Fields) (column : String) : Option Text := do
  let spec ← (byName t.specs).lookup column
  renderTargetColumn zeroPads row spec

/-- The text that the hash of the source's own values is of. -/
def sourceInput (zeroPads : Bool) (t : HashedColumns) (values : Fields) : Option Text :=
  (t.hashColumns.mapM (sourceText zeroPads t values)).map (List.intercalate ['|'])

/-- The text that the hash of a target row is of. -/
def targetInput (zeroPads : Bool) (t : HashedColumns) (row : Fields) : Option Text :=
  (t.hashColumns.mapM (targetText zeroPads t row)).map (List.intercalate ['|'])

/-- The expression of `pg_hash_expression` for a decimal column. -/
def decimalExpression (d : Decimal) : Option Text := (d.castNumeric 38 8).map Decimal.fixed

def encodeText (s : Text) : Bytes := (String.ofList s).toUTF8.toList

def sourceHash (sha256 : Bytes → Hash) (zeroPads : Bool) (t : HashedColumns) (values : Fields) : Option Hash :=
  (sourceInput zeroPads t values).map fun s => sha256 (encodeText s)

def targetHash (sha256 : Bytes → Hash) (zeroPads : Bool) (t : HashedColumns) (row : Fields) : Option Hash :=
  (targetInput zeroPads t row).map fun s => sha256 (encodeText s)

section

variable {codecs : Codecs} {spec : ColumnSpec} {raw : Bytes} {value source : Value} {literal : Literal} {d : Decimal}

theorem unpackComp3_finite {scale : Nat} (h : unpackComp3 raw scale = .ok literal) :
    ∃ negative d, literal = .finite negative d ∧ -(scale : Int) ≤ d.exponent := by
  unfold unpackComp3 at h
  split at h
  next => cases h
  next sign _ =>
    by_cases wrong : (nibbles raw).dropLast.any fun n => decide (9 < n)
    · simp only [wrong, if_true] at h
      cases h
    · simp only [wrong, if_false, Bool.false_eq_true] at h
      cases hsign : packedSign sign with
      | none =>
        rw [hsign] at h
        cases h
      | some negative =>
        rw [hsign] at h
        have made := Except.ok.inj h
        refine ⟨negative, _, made.symm, ?_⟩
        simp only
        omega

theorem decimalFits_whole {precision scale : Nat} (value : literal.value = some d)
    (fits : decimalFits precision scale literal = true) :
    (Decimal.digitCount d.coeff.natAbs : Int) + d.exponent ≤ (precision : Int) - scale := by
  cases literal with
  | special => cases value
  | finite negative number =>
    cases Option.some.inj value
    exact of_decide_eq_true fits

/-- Every decimal that a column takes is rendered, at eight fraction digits. -/
theorem renderDecimal_of_fits (kind : spec.kind = .decimal) (value : literal.value = some d)
    (fits : decimalFits spec.targetPrecision spec.targetScale literal = true) :
    (d.rescale (-8)).natAbs < 10 ^ decimalPrecision ∧ renderDecimal d = some (Decimal.fixed ⟨d.rescale (-8), -8⟩) := by
  have whole := decimalFits_whole value fits
  have bound := spec.precision_le kind
  have small : (d.rescale (-8)).natAbs < 10 ^ decimalPrecision := by
    have narrow : (Decimal.digitCount d.coeff.natAbs : Int) + d.exponent ≤ 38 := by omega
    have places : (-8 : Int) = -((8 : Nat) : Int) := rfl
    rw [places]
    exact Decimal.rescale_lt narrow (by decide) (by decide)
  have digits : Decimal.digitCount (d.rescale (-8)).natAbs ≤ decimalPrecision :=
    (Decimal.digitCount_le_iff (by decide)).mpr small
  refine ⟨small, ?_⟩
  rw [renderDecimal, Decimal.quantize, if_pos digits]
  rfl

/-- What is rendered reads as the number with the coefficient rounded to eight fraction digits. -/
theorem decimalOf_rendered (small : (d.rescale (-8)).natAbs < 10 ^ decimalPrecision) :
    decimalOf (Decimal.fixed ⟨d.rescale (-8), -8⟩) =
      some (.finite (decide (d.rescale (-8) < 0)) ⟨d.rescale (-8), -8⟩) := by
  apply decimalOf_fixed
  · show (-8 : Int) < 0
    omega
  · have digits : Decimal.digitCount (d.rescale (-8)).natAbs ≤ decimalPrecision :=
      (Decimal.digitCount_le_iff (by decide)).mpr small
    have precision : decimalPrecision = 64 := rfl
    simp only [exactDecimal]
    omega

theorem renderSourceColumn_decimal (zeroPads : Bool) (kind : spec.kind = .decimal) :
    renderSourceColumn zeroPads (.decimal d) spec = renderDecimal d := by
  simp only [renderSourceColumn, kind, renderKind, asText, mapSource, render]

theorem renderTargetColumn_decimal (zeroPads : Bool) (kind : spec.kind = .decimal) {row : Fields}
    (here : row.lookup spec.name = some (.decimal d)) : renderTargetColumn zeroPads row spec = renderDecimal d := by
  simp only [renderTargetColumn, here, Option.bind_some, kind, renderKind, asText, render]

/-- A packed decimal that its column takes is rendered on both sides as the fixed text of it at eight fraction digits. The
text reads back as the number if it has no digit past the eighth of its fraction, and the target's expression is the same
text as long as the number fits `NUMERIC(38,8)`. -/
theorem packed_decimal_rendered (codecs : Codecs) (zeroPads : Bool) (spec : ColumnSpec) (raw : Bytes)
    (value source : Value) (kind : spec.kind = .decimal) (packed : spec.field.usage = .comp3)
    (accepted : convertField codecs spec raw = .ok (value, source)) :
    ∃ negative d t, unpackComp3 raw spec.field.scale = .ok (.finite negative d) ∧
      value = .decimal d ∧ source = .decimal d ∧
      renderSourceColumn zeroPads source spec = some t ∧
      (∀ row : Fields, row.lookup spec.name = some value → renderTargetColumn zeroPads row spec = some t) ∧
      ((∃ sign read, decimalOf t = some (.finite sign read) ∧ read.same d) ↔
        10 ^ (-8 - d.exponent).toNat ∣ d.coeff) ∧
      (spec.targetScale ≤ 8 → (10 : Int) ^ (-8 - d.exponent).toNat ∣ d.coeff ∧
        (decimalExpression d = some t ↔ (d.rescale (-8)).natAbs < 10 ^ 38)) := by
  have converted : convertDecimal codecs spec raw = .ok (value, source) := by
    simpa only [convertField, kind] using accepted
  obtain ⟨literal, d, field, number, fits, rfl, rfl⟩ := convertDecimal_ok converted
  have unpacked : unpackComp3 raw spec.field.scale = .ok literal := by
    simpa only [decimalField, packed] using field
  obtain ⟨negative, unpackedValue, rfl, scale⟩ := unpackComp3_finite unpacked
  cases Option.some.inj number
  obtain ⟨small, rendered⟩ := renderDecimal_of_fits kind number fits
  have reads := decimalOf_rendered small
  refine ⟨negative, d, Decimal.fixed ⟨d.rescale (-8), -8⟩, unpacked, rfl, rfl, ?_, ?_, ?_, ?_⟩
  · exact (renderSourceColumn_decimal zeroPads kind).trans rendered
  · intro row here
    exact (renderTargetColumn_decimal zeroPads kind here).trans rendered
  · rw [← Decimal.rescale_same_iff]
    constructor
    · rintro ⟨sign, read, hread, same⟩
      have again := Option.some.inj (reads.symm.trans hread)
      have same' : (⟨d.rescale (-8), -8⟩ : Decimal) = read := by injection again
      rwa [same']
    · intro same
      exact ⟨_, _, reads, same⟩
  · intro places
    have scales := spec.scale_eq kind
    have kept : -((8 : Nat) : Int) ≤ d.exponent := by omega
    have drop : (-8 - d.exponent).toNat = 0 := by omega
    refine ⟨by rw [drop, Int.pow_zero]; exact Int.one_dvd _, ?_⟩
    rw [decimalExpression, Decimal.castNumeric_of_le kept]
    by_cases room : (d.rescale (-((8 : Nat) : Int))).natAbs < 10 ^ 38
    · rw [if_pos room]
      exact iff_of_true rfl room
    · rw [if_neg room]
      exact iff_of_false (by simp) room

end

/-- A packed amount of `digits` digits, `scale` of them after the point. -/
def amountColumn (name targetType : String) (length digits scale : Nat) (narrow : digits ≤ 38) : ColumnSpec where
  name := name
  field := ⟨.comp3, 0, length, scale⟩
  targetType := targetType
  kind := .decimal
  isKey := false
  encoding := "cp037"
  trim := false
  valueMap := []
  targetPrecision := digits
  targetScale := scale
  targetLength := digits
  precision_le _ := narrow
  scale_eq _ := rfl

theorem widest_rate_rendered :
    ∃ t, renderSourceColumn true (.decimal ⟨10 ^ 31 - 1, -8⟩) (amountColumn "UNIT_RATE" "NUMERIC(31,8)" 16 31 8 (by omega)) =
        some t ∧
      renderTargetColumn true [("UNIT_RATE", .decimal ⟨10 ^ 31 - 1, -8⟩)]
        (amountColumn "UNIT_RATE" "NUMERIC(31,8)" 16 31 8 (by omega)) = some t := by
  obtain ⟨_, d, t, _, _, _, source, target, _⟩ :=
    packed_decimal_rendered (fun _ => none) true (amountColumn "UNIT_RATE" "NUMERIC(31,8)" 16 31 8 (by omega))
      (List.replicate 15 0x99 ++ [0x9C]) (.decimal ⟨10 ^ 31 - 1, -8⟩) (.decimal ⟨10 ^ 31 - 1, -8⟩) rfl rfl rfl
  exact ⟨t, source, target _ rfl⟩

/-- A ninth fraction digit is taken by the column and not rendered. -/
theorem ninth_digit_not_rendered :
    let spec := amountColumn "FX_RATE" "NUMERIC(12,9)" 7 12 9 (by omega)
    convertField (fun _ => none) spec [0, 0, 0, 0, 0, 0, 0x1C] = .ok (.decimal ⟨1, -9⟩, .decimal ⟨1, -9⟩) ∧
      renderSourceColumn true (.decimal ⟨1, -9⟩) spec = some (text "0.00000000") ∧
      decimalOf (text "0.00000000") = some (.finite false ⟨0, -8⟩) ∧ Decimal.same ⟨0, -8⟩ ⟨1, -9⟩ = false := by
  refine ⟨rfl, rfl, ?_, rfl⟩
  decide

end OtterWorks.Migration
