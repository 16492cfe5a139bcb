import OtterWorks.Migration.Runner
import OtterWorks.Migration.TypeMap

namespace OtterWorks.Migration

def cardKey (b : UInt8) : Key := [Char.ofNat b.toNat]

def cardValues (k b : UInt8) : Fields := [("ID", .text (cardKey k)), ("BODY", .int b.toNat)]

def cardHash (values : Fields) : Hash :=
  (values.get "ID").str.map (fun c => UInt8.ofNat c.toNat) ++
    match values.get "BODY" with
    | .int n => [UInt8.ofNat n.toNat]
    | _ => []

def cardConvert : Raw → Conversion
  | [] => .undecodable "empty record"
  | [k, b] => .ok (cardKey k) (cardValues k b) (cardValues k b)
  | k :: _ => .malformed (cardKey k) ⟨"BODY", "NUMERIC_INVALID", "display numeric is invalid", [], some "22018"⟩

def cardUnload (row : SourceRow) : Except String Raw :=
  match row.key, row.columns.get "BODY" with
  | [c], .int n =>
    if c.toNat < 256 then .ok [UInt8.ofNat c.toNat, UInt8.ofNat n.toNat] else .error "key does not fit 1 bytes"
  | _, _ => .error "value does not fit"

theorem cardUnload_key (row : SourceRow) (raw : Raw) (h : cardUnload row = .ok raw) :
    (cardConvert raw).key = some row.key := by
  unfold cardUnload at h
  split at h
  next c n hkey _ =>
    split at h
    next small =>
      cases h
      rw [hkey]
      simp [cardConvert, Conversion.key, cardKey, Nat.mod_eq_of_lt small]
    next => cases h
  next => cases h

theorem cardConvert_key (raw : Raw) (k : Key) (values source : Fields) (h : cardConvert raw = .ok k values source) :
    k ≠ [] := by
  unfold cardConvert at h
  split at h
  next => cases h
  next =>
    cases h
    simp [cardKey]
  next => cases h

/-- A table of one-character keys and one-byte bodies; the target refuses bodies from 200 on. -/
def cardTable (name : String) (order : Int) (role : TableRole) : TableSpec where
  name := name
  order := order
  role := role
  keyColumn := "ID"
  hashColumns := ["ID", "BODY"]
  classTotals := none
  parent := none
  selects _ := true
  foreignKeys _ := []
  unload := cardUnload
  convert := cardConvert
  sourceHash := cardHash
  targetHash := cardHash
  differingColumn _ _ := "BODY"
  valueMap := []
  refuses values :=
    match values.get "BODY" with
    | .int n => if n < 200 then none else some (some "22003", none, "numeric field overflow")
    | _ => none
  targetKey values := (values.get "ID").str
  archReferences _ := []
  unload_key := cardUnload_key
  key_ne_nil := cardConvert_key

def cardRow (k : Char) (body : Int) : Key × Fields := ([k], [("ID", .text [k]), ("BODY", .int body)])

/-- A blank target over the given source tables. -/
def cardWorld (source : List (String × List (Key × Fields))) : World where
  runRow := none
  target _ := .blank
  source name := ⟨KeyMap.upsertAll ∅ ((source.lookup name).getD []), ∅, ∅, ∅⟩

def BatchConfig.of (extract load validate purge : Nat) (he : 0 < extract) (hl : 0 < load) (hv : 0 < validate)
    (hp : 0 < purge) : BatchConfig := ⟨extract, load, validate, purge, 0, he, hl, hv, hp⟩

theorem three_rows : 0 < 3 := by decide

/-! A table of documents whose charge has nine digits after the point, as its copybook and the shipped type map give
it. -/

def chargeLines : List Text :=
  ["      * DOCARCH  LRECL 9", "       01  DOC-REC.", "           05  DOC-KEY             PIC X(1).",
    "           05  DOC-CLASS           PIC X(1).", "           05  DOC-CHARGE          PIC S9(3)V9(9) COMP-3."].map text

def chargeConfig : TableConfig where
  fieldMap := [(text "DOC-KEY", "ARCH_KEY"), (text "DOC-CLASS", "RETENTION_CLASS"), (text "DOC-CHARGE", "STORAGE_CHARGE")]
  keyColumns := ["ARCH_KEY"]
  typeOverrides := []
  fields_nodup := by decide +kernel

/-- `PIC X(1)` at its place in the record. -/
def oneCharColumn (name : String) (offset : Nat) (isKey : Bool) : RecordColumn where
  spec := {
    name := name
    field := ⟨.display, offset, 1, 0⟩
    targetType := "CHAR(1)"
    kind := .char
    isKey := isKey
    encoding := "latin-1"
    trim := false
    valueMap := []
    targetPrecision := 1
    targetScale := 0
    targetLength := 1
    precision_le := fun h => absurd h Kind.char_ne_decimal
    scale_eq := fun h => absurd h Kind.char_ne_decimal }
  isNumeric := false
  signed := false
  digits := 0
  length_eq h := nomatch h
  scale_le h := nomatch h
  digits_lt := no_digits_lt

/-- `PIC S9(3)V9(9) COMP-3`, a DECIMAL(12,9) of the source. -/
def chargeColumn : RecordColumn where
  spec := { amountColumn "STORAGE_CHARGE" "NUMERIC(12,9)" 7 12 9 (by decide) with
    field := ⟨.comp3, 2, 7, 9⟩, encoding := "latin-1" }
  isNumeric := true
  signed := true
  digits := 12
  length_eq _ := rfl
  scale_le _ := by decide
  digits_lt := by decide

def chargeColumns : List RecordColumn :=
  [oneCharColumn "ARCH_KEY" 0 true, oneCharColumn "RETENTION_CLASS" 1 false, chargeColumn]

def chargeSpecs : List ColumnSpec := chargeColumns.map RecordColumn.spec

theorem charge_columns_built :
    (buildTableSpec (some chargeLines) 9 chargeConfig (shippedMap .postgresql) "latin-1").toOption.map Prod.snd =
      some chargeSpecs := by
  decide +kernel

def chargeHashed : HashedColumns where
  specs := chargeSpecs
  hashColumns := ["ARCH_KEY", "RETENTION_CLASS", "STORAGE_CHARGE"]
  hash_named := by decide +kernel

/-- The text that is hashed, for its hash. -/
def chargeHash (input : Option Text) : Hash := (input.getD []).map fun c => UInt8.ofNat c.toNat

/-- The record of a row, if the job reads the row's key from it. -/
def chargeUnload (row : SourceRow) : Except String Raw := do
  let raw ← encodeRecord (fun _ => latin1Charset) row.columns chargeColumns 9
  if (convertRecord latin1 chargeSpecs raw).key = some row.key then .ok raw
  else .error "value does not fit"

/-- Only a record with a charge converts, and its first byte is the key. -/
theorem chargeConvert_ok (raw : Raw) (k : Key) (values source : Fields)
    (h : convertRecord latin1 chargeSpecs raw = .ok k values source) :
    k ≠ [] ∧ (values.get "ARCH_KEY").str = k := by
  have entry := (named_of_ok h).entry
  obtain ⟨_, _, value, _, converted, held, _⟩ := entry "ARCH_KEY" (oneCharColumn "ARCH_KEY" 0 true).spec rfl
  obtain ⟨_, _, _, _, packed, _, _⟩ := entry "STORAGE_CHARGE" chargeColumn.spec rfl
  cases raw with
  | nil => cases packed
  | cons b raw =>
    have key : sourceKeyOf latin1 (b :: raw) chargeSpecs = .ok [Char.ofNat b.toNat] := rfl
    have own : k = [Char.ofNat b.toNat] := by
      unfold convertRecord at h
      rw [key] at h
      simp only at h
      split at h
      next =>
        cases h
        rfl
      next => cases h
      next => cases h
    have read : convertChar (oneCharColumn "ARCH_KEY" 0 true).spec [b] [Char.ofNat b.toNat] = .ok (value, _) := converted
    unfold convertChar at read
    split at read
    next => cases read
    next =>
      cases read
      rw [Fields.get, held, own]
      exact ⟨List.cons_ne_nil _ _, rfl⟩

theorem chargeUnload_key (row : SourceRow) (raw : Raw) (h : chargeUnload row = .ok raw) :
    (convertRecord latin1 chargeSpecs raw).key = some row.key := by
  unfold chargeUnload at h
  obtain ⟨written, _, h⟩ := bind_ok h
  split at h
  next keyed =>
    cases h
    exact keyed
  next => cases h

def chargeTable : TableSpec where
  name := "DOCARCH"
  order := 1
  role := .data
  keyColumn := "ARCH_KEY"
  hashColumns := chargeHashed.hashColumns
  classTotals := some ⟨"RETENTION_CLASS", ["STORAGE_CHARGE"], none⟩
  parent := none
  selects _ := true
  foreignKeys _ := []
  unload := chargeUnload
  convert := convertRecord latin1 chargeSpecs
  sourceHash source := chargeHash (sourceInput true chargeHashed source)
  targetHash values := chargeHash (targetInput true chargeHashed values)
  differingColumn _ _ := "STORAGE_CHARGE"
  valueMap := []
  refuses _ := none
  targetKey values := (values.get "ARCH_KEY").str
  archReferences _ := []
  unload_key := chargeUnload_key
  key_ne_nil raw k values source h := (chargeConvert_ok raw k values source h).1

def chargeRow (k c : Char) (charge : Nat) : Key × Fields :=
  ([k], [("ARCH_KEY", .text [k]), ("RETENTION_CLASS", .text [c]), ("STORAGE_CHARGE", .decimal ⟨charge, -9⟩)])

end OtterWorks.Migration
