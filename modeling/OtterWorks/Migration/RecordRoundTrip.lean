import OtterWorks.Migration.FieldRoundTrip
import OtterWorks.Migration.HashedRecords

namespace OtterWorks.Migration

/-- The columns of a table: no name twice, and fields beside one another in the record. -/
structure Layout (cols : List RecordColumn) (recordLength : Nat) : Prop where
  inside : ∀ c ∈ cols, c.spec.field.offset + c.spec.field.length ≤ recordLength
  apart : cols.Pairwise fun c c' => c.spec.field.offset + c.spec.field.length ≤ c'.spec.field.offset ∨
    c'.spec.field.offset + c'.spec.field.length ≤ c.spec.field.offset
  names : (cols.map fun c => c.spec.name).Nodup

/-- The bytes of a value that are no text of the column's encoding. -/
def rawBytes (c : RecordColumn) (v : Value) : Option Bytes :=
  match v with
  | .bytes b => some (b ++ List.replicate (c.spec.field.length - b.length) (padByte c.spec.encoding))
  | v =>
    match v.number?, c.spec.field.usage with
    | some d, .comp => some (c.compBytes d)
    | some d, .comp3 => some (c.comp3Bytes d)
    | _, _ => none

/-- The source key is decoded as text, whatever the key column holds. -/
def KeyDecodes (charset : Charset) (c : RecordColumn) (v : Value) : Prop :=
  c.spec.isKey = true → ∀ raw, rawBytes c v = some raw → ∃ s, charset.decode raw = .ok s

/-- The record of a row is written with its length, and converted to the row. -/
def RowReturns (charsets : Charsets) (cols : List RecordColumn) (recordLength : Nat) (row : Fields) : Prop :=
  ∃ record, encodeRecord charsets row cols recordLength = .ok record ∧ record.length = recordLength ∧
    ∃ key values texts, convertRecord charsets.codecs (cols.map RecordColumn.spec) record = .ok key values texts ∧
      ∀ c ∈ cols, ReturnedAs c (row.get c.spec.name) (texts.get c.spec.name)

section

variable {charset : Charset} {charsets : Charsets} {c : RecordColumn} {v : Value} {b : Bytes} {s : Text} {d : Decimal}
  {cols done : List RecordColumn} {specs : List ColumnSpec} {recordLength : Nat} {row : Fields} {record out : Raw}
  {rec : ConvertedColumns}

/-- A field of text, a display numeric's too, is the encoding of a text; every other field has its raw bytes. -/
theorem encodeField_bytes (valid : ValidFor charset c v) (written : encodeField charset c v = .ok b) :
    rawBytes c v = some b ∨ rawBytes c v = none ∧ ∃ s, charset.encode s = .ok b := by
  have text : ∀ s, TextFits charset c s → v = .text s ∨ v = .timestamp12 s →
      rawBytes c v = none ∧ ∃ s, charset.encode s = .ok b := by
    intro s fits is
    refine ⟨?_, _, ((encodeField_text fits is).1.mp written).1⟩
    rcases is with rfl | rfl <;> rfl
  have number : ∀ d, v.number? = some d → NumberFits c d →
      rawBytes c v = some b ∨ rawBytes c v = none ∧ ∃ s, charset.encode s = .ok b := by
    intro d number fits
    have raw : (c.spec.field.usage = .comp → rawBytes c v = some (c.compBytes d)) ∧
        (c.spec.field.usage = .comp3 → rawBytes c v = some (c.comp3Bytes d)) ∧
        (c.spec.field.usage = .display → rawBytes c v = none) := by
      cases v with
      | int n =>
        cases number
        refine ⟨?_, ?_, ?_⟩ <;> intro usage <;> simp only [rawBytes, Value.number?, usage]
      | decimal d =>
        cases number
        refine ⟨?_, ?_, ?_⟩ <;> intro usage <;> simp only [rawBytes, Value.number?, usage]
      | _ => cases number
    cases usage : c.spec.field.usage with
    | comp =>
      have made : encodeField charset c v = .ok (c.compBytes d) := (encodeField_comp number fits usage).1
      rw [written] at made
      cases made
      exact Or.inl (raw.1 usage)
    | comp3 =>
      rw [((encodeField_comp3 number fits usage).mp written).2]
      exact Or.inl (raw.2.1 usage)
    | display =>
      have made := (encodeField_ok.mp written).1
      rw [fieldBytes_number number fits.numeric, usage] at made
      obtain ⟨literal, _, made⟩ := bind_ok made
      obtain ⟨digits, _, made⟩ := bind_ok made
      exact Or.inr ⟨raw.2.2 usage, _, made⟩
  unfold ValidFor at valid
  cases kind : c.spec.kind with
  | char =>
    simp only [kind] at valid
    obtain ⟨s, is, fits, _⟩ := valid
    exact Or.inr (text s fits (Or.inl is))
  | date8 =>
    simp only [kind] at valid
    obtain ⟨s, _, _, _, is, fits, _⟩ := valid
    exact Or.inr (text s fits (Or.inl is))
  | timestamp12 =>
    simp only [kind] at valid
    obtain ⟨s, is, fits, _⟩ := valid
    exact Or.inr (text s fits is)
  | binary =>
    simp only [kind] at valid
    obtain ⟨raw, rfl, _⟩ := valid
    have made := (encodeField_ok.mp written).1
    exact Or.inl (congrArg some (Except.ok.inj made))
  | int =>
    simp only [kind] at valid
    obtain ⟨d, _, isNumber, fits, _⟩ := valid
    exact number d isNumber fits
  | decimal =>
    simp only [kind] at valid
    obtain ⟨d, isNumber, fits, _⟩ := valid
    exact number d isNumber fits

theorem keyDecodes_iff (valid : ValidFor charset c v) (written : encodeField charset c v = .ok b) :
    KeyDecodes charset c v ↔ (c.spec.isKey = true → ∃ s, charset.decode b = .ok s) := by
  rcases encodeField_bytes valid written with raw | ⟨none, s, encoded⟩
  · constructor
    · intro decodes key
      exact decodes key b raw
    · intro decodes key other same
      rw [raw] at same
      cases same
      exact decodes key
  · constructor
    · intro _ _
      exact ⟨s, charset.decode_encode s b encoded⟩
    · intro _ _ other same
      rw [none] at same
      cases same

/-- What `encode_record` has written of the columns done. -/
structure Encoded (charsets : Charsets) (row : Fields) (done : List RecordColumn) (recordLength : Nat) (out : Raw) : Prop where
  length : out.length = recordLength
  fields : ∀ c ∈ done, encodeField (charsets c.spec.encoding) c (row.get c.spec.name) = .ok (c.spec.field.slice out)

theorem Encoded.column (inv : Encoded charsets row done recordLength out)
    (inside : c.spec.field.offset + c.spec.field.length ≤ recordLength)
    (apart : ∀ c' ∈ done, c'.spec.field.offset + c'.spec.field.length ≤ c.spec.field.offset ∨
      c.spec.field.offset + c.spec.field.length ≤ c'.spec.field.offset)
    {out' : Raw} (h : encodeColumn charsets row out c = .ok out') : Encoded charsets row (done ++ [c]) recordLength out' := by
  obtain ⟨b, written, made⟩ := bind_ok h
  cases made
  have fills := (encodeField_ok.mp written).2
  have length := inv.length
  constructor
  · rw [length_splice (by omega), length]
  · intro c' hc'
    rcases List.mem_append.mp hc' with before | new
    · rw [inv.fields c' before, Field.slice, Field.slice, slice_splice_apart (by omega)]
      rw [fills]
      exact (apart c' before).symm
    · rw [List.mem_singleton.mp new, Field.slice, ← fills, slice_splice (by omega)]
      exact written

theorem Encoded.columns (inv : Encoded charsets row done recordLength out)
    (inside : ∀ c ∈ cols, c.spec.field.offset + c.spec.field.length ≤ recordLength)
    (apart : (done ++ cols).Pairwise fun c c' => c.spec.field.offset + c.spec.field.length ≤ c'.spec.field.offset ∨
      c'.spec.field.offset + c'.spec.field.length ≤ c.spec.field.offset)
    (h : cols.foldlM (encodeColumn charsets row) out = .ok record) :
    Encoded charsets row (done ++ cols) recordLength record := by
  induction cols generalizing done out with
  | nil =>
    cases Except.ok.inj h
    rw [List.append_nil]
    exact inv
  | cons c cols ih =>
    rw [List.foldlM_cons] at h
    obtain ⟨next, first, rest⟩ := bind_ok h
    have before := fun c' hc' => (List.pairwise_append.mp apart).2.2 c' hc' c (List.mem_cons_self ..)
    have step := inv.column (inside c (List.mem_cons_self ..)) before first
    have later := ih step (fun x hx => inside x (List.mem_cons_of_mem _ hx))
      (by rw [List.append_assoc]; exact apart) rest
    rw [List.append_assoc] at later
    exact later

/-- A record that is written has its length, and every field the bytes of its value. -/
theorem encoded_of_ok (layout : Layout cols recordLength) (h : encodeRecord charsets row cols recordLength = .ok record) :
    Encoded charsets row cols recordLength record := by
  have start : Encoded charsets row [] recordLength (List.replicate recordLength 0x20) :=
    ⟨List.length_replicate, fun _ h => absurd h List.not_mem_nil⟩
  exact start.columns layout.inside layout.apart h

theorem encodeRecord_of_fields (fields : ∀ c ∈ cols, ∃ b,
    encodeField (charsets c.spec.encoding) c (row.get c.spec.name) = .ok b) :
    ∃ record, encodeRecord charsets row cols recordLength = .ok record := by
  apply foldlM_ok
  intro c hc out
  obtain ⟨b, written⟩ := fields c hc
  refine ⟨splice c.spec.field.offset b out, ?_⟩
  rw [encodeColumn, written]
  rfl

/-- A record is converted if its keys are decoded and its fields are accepted. -/
theorem convertRecord_of_fields (keys : ∀ spec ∈ specs, spec.isKey = true →
      ∃ s, (charsets spec.encoding).decode (spec.field.slice record) = .ok s)
    (fields : ∀ spec ∈ specs, ∃ value source,
      convertField charsets.codecs spec (spec.field.slice record) = .ok (value, source)) :
    ∃ key values texts, convertRecord charsets.codecs specs record = .ok key values texts := by
  have parts : ∀ spec ∈ specs.filter ColumnSpec.isKey, ∃ s, decodeKeyPart charsets.codecs record spec = .ok s := by
    intro spec hspec
    obtain ⟨listed, key⟩ := List.mem_filter.mp hspec
    obtain ⟨s, decoded⟩ := keys spec listed key
    refine ⟨s, ?_⟩
    rw [decodeKeyPart, Charsets.codecs]
    simp only
    rw [decoded]
    rfl
  obtain ⟨texts, decoded⟩ := exists_forall₂ parts
  obtain ⟨converted, made⟩ : ∃ rec, specs.foldlM (convertColumn charsets.codecs record) ⟨[], []⟩ = .ok rec := by
    apply foldlM_ok
    intro spec hspec rec
    obtain ⟨value, source, accepted⟩ := fields spec hspec
    refine ⟨⟨assign spec.name value rec.values, assign spec.name source rec.sourceText⟩, ?_⟩
    rw [convertColumn, accepted]
  refine ⟨List.intercalate ['|'] texts, converted.values, converted.sourceText, ?_⟩
  unfold convertRecord sourceKeyOf
  rw [mapM_ok.mpr decoded, made]
  rfl

/-- A converted record has the text of every column, and its keys are decoded. -/
theorem convertRecord_fields (names : (specs.map ColumnSpec.name).Nodup) {key : Key} {values texts : Fields}
    (h : convertRecord charsets.codecs specs record = .ok key values texts) {spec : ColumnSpec} (hspec : spec ∈ specs) :
    (∃ value, convertField charsets.codecs spec (spec.field.slice record) = .ok (value, texts.get spec.name)) ∧
      (spec.isKey = true → ∃ s, (charsets spec.encoding).decode (spec.field.slice record) = .ok s) := by
  constructor
  · have inv := named_of_ok h
    obtain ⟨last, found⟩ := inv.covers spec hspec
    obtain ⟨listed, named, value, source, converted, _, text⟩ := inv.entry _ _ found
    have same : last = spec := List.inj_on_of_nodup_map names listed hspec named
    rw [same] at converted
    refine ⟨value, ?_⟩
    rw [converted, Fields.get]
    simp only at text
    rw [text]
    rfl
  · intro isKey
    unfold convertRecord at h
    split at h
    next => cases h
    next key' decoded =>
      unfold sourceKeyOf at decoded
      cases parts : (specs.filter ColumnSpec.isKey).mapM (decodeKeyPart charsets.codecs record) with
      | error e =>
        rw [parts] at decoded
        cases decoded
      | ok texts =>
        obtain ⟨s, _, part⟩ := forall₂_left (mapM_ok.mp parts) (List.mem_filter.mpr ⟨hspec, isKey⟩)
        refine ⟨s, ?_⟩
        rw [decodeKeyPart, Charsets.codecs] at part
        simp only at part
        cases read : (charsets spec.encoding).decode (spec.field.slice record) with
        | error e =>
          rw [read] at part
          cases part
        | ok t =>
          rw [read] at part
          cases part
          rfl

/-- A row comes back if the value of every column does. -/
theorem rowReturns_iff (layout : Layout cols recordLength)
    (valid : ∀ c ∈ cols, ValidFor (charsets c.spec.encoding) c (row.get c.spec.name)) :
    RowReturns charsets cols recordLength row ↔
      ∀ c ∈ cols, ComesBack charsets c (row.get c.spec.name) ∧
        KeyDecodes (charsets c.spec.encoding) c (row.get c.spec.name) := by
  have names : ((cols.map RecordColumn.spec).map ColumnSpec.name).Nodup := by
    rw [List.map_map]
    exact layout.names
  constructor
  · rintro ⟨record, written, _, key, values, texts, converted, returned⟩ c hc
    have fields := (encoded_of_ok layout written).fields c hc
    obtain ⟨⟨value, field⟩, decoded⟩ := convertRecord_fields names converted (List.mem_map_of_mem hc)
    exact ⟨⟨_, fields, value, _, field, returned c hc⟩, (keyDecodes_iff (valid c hc) fields).mpr decoded⟩
  · intro back
    obtain ⟨record, written⟩ : ∃ record, encodeRecord charsets row cols recordLength = .ok record := by
      apply encodeRecord_of_fields
      intro c hc
      obtain ⟨b, encoded, _⟩ := (back c hc).1
      exact ⟨b, encoded⟩
    have inv := encoded_of_ok layout written
    have read : ∀ c ∈ cols, ∃ value source,
        convertField charsets.codecs c.spec (c.spec.field.slice record) = .ok (value, source) ∧
          ReturnedAs c (row.get c.spec.name) source := by
      intro c hc
      obtain ⟨b, encoded, value, source, field, returned⟩ := (back c hc).1
      have same := inv.fields c hc
      rw [encoded] at same
      cases same
      exact ⟨value, source, field, returned⟩
    obtain ⟨key, values, texts, converted⟩ : ∃ key values texts,
        convertRecord charsets.codecs (cols.map RecordColumn.spec) record = .ok key values texts := by
      apply convertRecord_of_fields
      · intro spec hspec
        obtain ⟨c, hc, rfl⟩ := List.mem_map.mp hspec
        exact (keyDecodes_iff (valid c hc) (inv.fields c hc)).mp (back c hc).2
      · intro spec hspec
        obtain ⟨c, hc, rfl⟩ := List.mem_map.mp hspec
        obtain ⟨value, source, field, _⟩ := read c hc
        exact ⟨value, source, field⟩
    refine ⟨record, written, inv.length, key, values, texts, converted, ?_⟩
    intro c hc
    obtain ⟨value, source, field, returned⟩ := read c hc
    obtain ⟨⟨value', field'⟩, _⟩ := convertRecord_fields names converted (List.mem_map_of_mem hc)
    rw [field] at field'
    cases field'
    exact returned

/-- A packed number is unpacked unchanged unless its digits are too many for the context or its field has no
digit before the point. -/
theorem packed_back_iff {negative : Bool} {p scale : Nat} (places : scale ≤ p) (above : -(scale : Int) ≤ d.exponent)
    (fits : (d.coeffAt (-(scale : Int))).natAbs < 10 ^ p) :
    (∃ b, packComp3 (.finite negative d) ((p + 2) / 2) scale = .ok b ∧
      ∃ sign r, unpackComp3 b scale = .ok (.finite sign r) ∧ r.same d = true) ↔
      Decimal.digitCount (d.coeffAt (-(scale : Int))).natAbs ≤ decimalPrecision ∧ (scale < p ∨ p % 2 = 0) := by
  have count := digitCount_le_of_lt fits
  have value := Decimal.value_coeffAt above
  constructor
  · rintro ⟨b, packed, _⟩
    obtain ⟨⟨small, room⟩, _⟩ := (packComp3_ok above).mp packed
    exact ⟨small, by omega⟩
  · rintro ⟨small, room⟩
    refine ⟨_, (packComp3_ok above).mpr ⟨⟨small, by omega⟩, rfl⟩, _, _, unpackComp3_packed (by omega) (by omega), ?_⟩
    rw [Nat.min_eq_left (by omega)]
    exact Decimal.same_iff.mpr value

/-- A record has its length; a row comes back exactly if each of its values does: a number whose digits leave room
for a zero before the point, not negative in display, and with its scale read as it was written; a text whose
padding takes the bytes of its field. -/
theorem record_round_trip (charsets : Charsets) (cols : List RecordColumn) (recordLength : Nat)
    (layout : Layout cols recordLength) :
    (∀ row record, encodeRecord charsets row cols recordLength = .ok record → record.length = recordLength) ∧
      (∀ row, (∀ c ∈ cols, ValidFor (charsets c.spec.encoding) c (row.get c.spec.name)) →
        (RowReturns charsets cols recordLength row ↔
          ∀ c ∈ cols, ValueReturns (charsets c.spec.encoding) c (row.get c.spec.name) ∧
            KeyDecodes (charsets c.spec.encoding) c (row.get c.spec.name))) ∧
      ∀ (negative : Bool) (d : Decimal) (p scale : Nat), scale ≤ p → -(scale : Int) ≤ d.exponent → (d.coeffAt (-(scale : Int))).natAbs < 10 ^ p →
        ((∃ b, packComp3 (.finite negative d) ((p + 2) / 2) scale = .ok b ∧
          ∃ sign r, unpackComp3 b scale = .ok (.finite sign r) ∧ r.same d = true) ↔
          Decimal.digitCount (d.coeffAt (-(scale : Int))).natAbs ≤ decimalPrecision ∧ (scale < p ∨ p % 2 = 0)) := by
  refine ⟨?_, ?_, ?_⟩
  · intro row record written
    exact (encoded_of_ok layout written).length
  · intro row valid
    rw [rowReturns_iff layout valid]
    constructor
    · intro back c hc
      exact ⟨(comesBack_iff (valid c hc)).mp (back c hc).1, (back c hc).2⟩
    · intro returns c hc
      exact ⟨(comesBack_iff (valid c hc)).mpr (returns c hc).1, (returns c hc).2⟩
  · intro negative d p scale places above fits
    exact packed_back_iff places above fits

end

def latin1Charset : Charset where
  encode s :=
    if s.all fun c => c.toNat < 256 then .ok (s.map fun c => UInt8.ofNat c.toNat)
    else .error "'latin-1' codec can't encode characters"
  decode raw := .ok (raw.map fun b => Char.ofNat b.toNat)
  decode_encode := by
    intro s b h
    split at h
    next narrow =>
      cases h
      rw [List.map_map, Except.ok.injEq]
      conv => rhs; rw [← List.map_id s]
      apply List.map_congr_left
      intro c hc
      have small := of_decide_eq_true (List.all_eq_true.mp narrow c hc)
      have byte : (UInt8.ofNat c.toNat).toNat = c.toNat := by
        rw [UInt8.toNat_ofNat']
        omega
      rw [Function.comp_apply, byte, Char.ofNat_toNat]
      rfl
    next => cases h
  digits := by
    intro s digits
    have narrow : (s.all fun c => c.toNat < 256) = true := by
      rw [List.all_eq_true]
      intro c hc
      have bounds := toNat_of_isDigit (digits c hc)
      rw [decide_eq_true_eq]
      omega
    refine ⟨s.map fun c => UInt8.ofNat c.toNat, ?_, List.length_map _⟩
    rw [if_pos narrow]

/-- `PIC X(3)`. -/
def accountColumn : RecordColumn where
  spec := textColumn "ACCOUNT" .char 0 3 true false Kind.char_ne_decimal
  isNumeric := false
  signed := false
  digits := 0
  length_eq h := nomatch h
  scale_le h := nomatch h
  digits_lt := no_digits_lt

/-- `PIC S9(5)V9(2) COMP-3`. -/
def balanceColumn : RecordColumn where
  spec := { amountColumn "BALANCE" "NUMERIC(7,2)" 4 7 2 (by decide) with field := ⟨.comp3, 3, 4, 2⟩ }
  isNumeric := true
  signed := true
  digits := 7
  length_eq _ := rfl
  scale_le _ := by decide
  digits_lt := by decide

/-- `PIC S9(3)`. -/
def deltaColumn : RecordColumn where
  spec := { textColumn "DELTA" .int 0 3 false false Kind.int_ne_decimal with targetType := "SMALLINT" }
  isNumeric := true
  signed := true
  digits := 3
  length_eq _ := rfl
  scale_le _ := by decide
  digits_lt := by decide

theorem overdrawn_balance_returns : RowReturns (fun _ => latin1Charset) [accountColumn, balanceColumn] 7
    [("ACCOUNT", .text (text "K1")), ("BALANCE", .decimal ⟨-1234, -2⟩)] := by
  have layout : Layout [accountColumn, balanceColumn] 7 := ⟨by decide, by decide, by decide⟩
  have valid : ∀ c ∈ [accountColumn, balanceColumn], ValidFor latin1Charset c
      (Fields.get [("ACCOUNT", .text (text "K1")), ("BALANCE", .decimal ⟨-1234, -2⟩)] c.spec.name) := by
    intro c hc
    rcases List.mem_cons.mp hc with rfl | hc
    · exact ⟨text "K1", rfl, ⟨rfl, _, rfl, by decide⟩, by decide, Or.inl rfl⟩
    · rw [List.mem_singleton.mp hc]
      exact ⟨⟨-1234, -2⟩, rfl, ⟨rfl, by decide, by decide, fun _ => rfl⟩, by decide⟩
  refine ((record_round_trip (fun _ => latin1Charset) [accountColumn, balanceColumn] 7 layout).2.1 _ valid).mpr ?_
  intro c hc
  rcases List.mem_cons.mp hc with rfl | hc
  · refine ⟨fun _ => ⟨_, rfl, rfl⟩, ?_⟩
    intro _ raw held
    cases held
  · rw [List.mem_singleton.mp hc]
    constructor
    · exact ⟨by decide, by decide, by decide, by decide, by decide⟩
    · intro key
      cases key

/-- A negative display numeric comes back without its sign. -/
theorem display_sign_lost :
    Layout [deltaColumn] 3 ∧ ValidFor latin1Charset deltaColumn (.int (-5)) ∧
      encodeRecord (fun _ => latin1Charset) [("DELTA", .int (-5))] [deltaColumn] 3 = .ok [0x30, 0x30, 0x35] ∧
      convertRecord (Charsets.codecs fun _ => latin1Charset) [deltaColumn.spec] [0x30, 0x30, 0x35] =
        .ok [] [("DELTA", .int 5)] [("DELTA", .int 5)] ∧
      ¬RowReturns (fun _ => latin1Charset) [deltaColumn] 3 [("DELTA", .int (-5))] := by
  have encoded : encodeRecord (fun _ => latin1Charset) [("DELTA", .int (-5))] [deltaColumn] 3 = .ok [0x30, 0x30, 0x35] := by
    decide +kernel
  have converted : convertRecord (Charsets.codecs fun _ => latin1Charset) [deltaColumn.spec] [0x30, 0x30, 0x35] =
      .ok [] [("DELTA", .int 5)] [("DELTA", .int 5)] := by
    decide +kernel
  refine ⟨⟨by decide, by decide, by decide⟩, ?_, encoded, converted, ?_⟩
  · exact ⟨⟨-5, 0⟩, -5, rfl, ⟨rfl, by decide, by decide, fun _ => rfl⟩, by decide, by decide, by decide⟩
  · rintro ⟨record, written, _, key, values, texts, read, returned⟩
    rw [encoded] at written
    cases written
    rw [List.map_singleton, converted] at read
    cases read
    obtain ⟨r, number, same⟩ := returned deltaColumn (List.mem_singleton_self _)
    cases number
    cases same

end OtterWorks.Migration
