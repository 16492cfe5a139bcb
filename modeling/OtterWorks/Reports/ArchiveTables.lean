import Mathlib.Data.List.GetD
import OtterWorks.Migration.RecordRoundTrip
import OtterWorks.Reports.ArchiveStores

namespace OtterWorks.Reports

open Migration

/-- A codec of one byte for each character, given by the characters of its bytes. -/
def charmap (table : List Char) (small : table.length ≤ 256) (digits : ∀ n < 10, Nat.digitChar n ∈ table) : Charset where
  encode s := s.mapM fun c =>
    if c ∈ table then .ok (UInt8.ofNat (table.idxOf c)) else .error "character maps to <undefined>"
  decode raw :=
    match raw.zipIdx.find? fun (b, _) => decide (table.length ≤ b.toNat) with
    | some (_, i) => .error ⟨i, "character maps to <undefined>"⟩
    | none => .ok (raw.map fun b => table.getD b.toNat ' ')
  decode_encode := by
    intro s raw written
    have each : List.Forall₂ (fun (c : Char) (b : UInt8) => b.toNat < table.length ∧ table.getD b.toNat ' ' = c) s raw := by
      refine (mapM_ok.mp written).imp fun c b made => ?_
      split at made
      next listed =>
        cases made
        have inside := List.idxOf_lt_length_of_mem listed
        have byte : (UInt8.ofNat (table.idxOf c)).toNat = table.idxOf c := by
          rw [UInt8.toNat_ofNat']
          omega
        rw [byte]
        refine ⟨inside, ?_⟩
        rw [List.getD_eq_getElem _ _ inside, List.getElem_idxOf]
      next => cases made
    have known : (raw.zipIdx.find? fun (b, _) => decide (table.length ≤ b.toNat)) = none := by
      rw [List.find?_eq_none]
      rintro ⟨b, i⟩ entry
      obtain ⟨c, _, inside, _⟩ := forall₂_right each (List.fst_mem_of_mem_zipIdx entry)
      simp only [decide_eq_true_eq, not_le]
      exact inside
    rw [known]
    have back : raw.map (fun b => table.getD b.toNat ' ') = s := by
      clear written known
      induction each with
      | nil => rfl
      | cons here _ ih => rw [List.map_cons, here.2, ih]
    simp only [back]
  digits := by
    intro s plain
    have each : ∀ c ∈ s, ∃ b : UInt8,
        (if c ∈ table then Except.ok (UInt8.ofNat (table.idxOf c)) else .error "character maps to <undefined>") = .ok b := by
      intro c hc
      have bounds := toNat_of_isDigit (plain c hc)
      have listed := digits (c.toNat - 48) (by omega)
      rw [digitChar_of_isDigit (plain c hc)] at listed
      exact ⟨_, if_pos listed⟩
    obtain ⟨b, made⟩ := exists_forall₂ each
    exact ⟨b, mapM_ok.mpr made, made.length_eq.symm⟩

def asciiTable : List Char := (List.range 128).map Char.ofNat

def ascii : Charset := charmap asciiTable (by simp [asciiTable]) (by decide)

/-- The characters of CCSID 037, in the order of their bytes. -/
def cp037Codes : List Nat := [
    0x0, 0x1, 0x2, 0x3, 0x9c, 0x9, 0x86, 0x7f, 0x97, 0x8d, 0x8e, 0xb, 0xc, 0xd, 0xe, 0xf,
    0x10, 0x11, 0x12, 0x13, 0x9d, 0x85, 0x8, 0x87, 0x18, 0x19, 0x92, 0x8f, 0x1c, 0x1d, 0x1e, 0x1f,
    0x80, 0x81, 0x82, 0x83, 0x84, 0xa, 0x17, 0x1b, 0x88, 0x89, 0x8a, 0x8b, 0x8c, 0x5, 0x6, 0x7,
    0x90, 0x91, 0x16, 0x93, 0x94, 0x95, 0x96, 0x4, 0x98, 0x99, 0x9a, 0x9b, 0x14, 0x15, 0x9e, 0x1a,
    0x20, 0xa0, 0xe2, 0xe4, 0xe0, 0xe1, 0xe3, 0xe5, 0xe7, 0xf1, 0xa2, 0x2e, 0x3c, 0x28, 0x2b, 0x7c,
    0x26, 0xe9, 0xea, 0xeb, 0xe8, 0xed, 0xee, 0xef, 0xec, 0xdf, 0x21, 0x24, 0x2a, 0x29, 0x3b, 0xac,
    0x2d, 0x2f, 0xc2, 0xc4, 0xc0, 0xc1, 0xc3, 0xc5, 0xc7, 0xd1, 0xa6, 0x2c, 0x25, 0x5f, 0x3e, 0x3f,
    0xf8, 0xc9, 0xca, 0xcb, 0xc8, 0xcd, 0xce, 0xcf, 0xcc, 0x60, 0x3a, 0x23, 0x40, 0x27, 0x3d, 0x22,
    0xd8, 0x61, 0x62, 0x63, 0x64, 0x65, 0x66, 0x67, 0x68, 0x69, 0xab, 0xbb, 0xf0, 0xfd, 0xfe, 0xb1,
    0xb0, 0x6a, 0x6b, 0x6c, 0x6d, 0x6e, 0x6f, 0x70, 0x71, 0x72, 0xaa, 0xba, 0xe6, 0xb8, 0xc6, 0xa4,
    0xb5, 0x7e, 0x73, 0x74, 0x75, 0x76, 0x77, 0x78, 0x79, 0x7a, 0xa1, 0xbf, 0xd0, 0xdd, 0xde, 0xae,
    0x5e, 0xa3, 0xa5, 0xb7, 0xa9, 0xa7, 0xb6, 0xbc, 0xbd, 0xbe, 0x5b, 0x5d, 0xaf, 0xa8, 0xb4, 0xd7,
    0x7b, 0x41, 0x42, 0x43, 0x44, 0x45, 0x46, 0x47, 0x48, 0x49, 0xad, 0xf4, 0xf6, 0xf2, 0xf3, 0xf5,
    0x7d, 0x4a, 0x4b, 0x4c, 0x4d, 0x4e, 0x4f, 0x50, 0x51, 0x52, 0xb9, 0xfb, 0xfc, 0xf9, 0xfa, 0xff,
    0x5c, 0xf7, 0x53, 0x54, 0x55, 0x56, 0x57, 0x58, 0x59, 0x5a, 0xb2, 0xd4, 0xd6, 0xd2, 0xd3, 0xd5,
    0x30, 0x31, 0x32, 0x33, 0x34, 0x35, 0x36, 0x37, 0x38, 0x39, 0xb3, 0xdb, 0xdc, 0xd9, 0xda, 0x9f]

def cp037Table : List Char := cp037Codes.map Char.ofNat

def cp037 : Charset := charmap cp037Table (by decide +kernel) (by decide +kernel)

def cp037Char (b : UInt8) : Char := cp037Table.getD b.toNat ' '

/-- Java's IBM037 has the characters of CCSID 037; in the control characters the two may differ. -/
def ReadsCp037 (ibm037 : UInt8 → Char) : Prop :=
  ∀ b, ¬((cp037Char b).toNat < 0x20 ∨ (0x7f ≤ (cp037Char b).toNat ∧ (cp037Char b).toNat ≤ 0x9f)) → ibm037 b = cp037Char b

/-- The two encodings of the manifest. -/
def charsets : Charsets := fun encoding => if encoding = "cp037" then cp037 else ascii

/-- A column's declared type on Db2. -/
inductive Db2Type
  | char (octets : Nat)
  | charForBitData (octets : Nat)
  | smallint
  | bigint
  | decimal (precision scale : Nat)
  | timestamp12
  deriving DecidableEq, Repr

/-- The values a Db2 column can hold; a timestamp is read as its `CHAR()`. -/
def Db2Type.Holds : Db2Type → Value → Prop
  | .char octets, .text s => (s.map Char.utf8Size).sum = octets
  | .charForBitData octets, .bytes b => b.length = octets
  | .smallint, .int n => -(2 ^ 15) ≤ n ∧ n < 2 ^ 15
  | .bigint, .int n => -(2 ^ 63) ≤ n ∧ n < 2 ^ 63
  | .decimal precision scale, .decimal d => d.exponent = -(scale : Int) ∧ d.coeff.natAbs < 10 ^ precision
  | .timestamp12, .timestamp12 s => s.length = 32
  | _, _ => False

/-- A column's type in the PostgreSQL DDL; a `TIMESTAMP(6)` has its `_NANOS_TAIL` column beside it. -/
inductive PgType
  | char (length : Nat)
  | varchar (length : Nat)
  | smallint
  | bigint
  | numeric (precision scale : Nat)
  | timestamp6
  | date
  deriving DecidableEq, Repr

inductive PgValue
  | bpchar (s : Text)
  | varchar (s : Text)
  | int (n : Int)
  | numeric (d : Decimal)
  | timestamp (dt : DateTime) (nanosTail : Nat)
  | date (iso : Text)
  deriving DecidableEq, Repr

/-- A text cut to a column's length, if only blanks are cut. -/
def fitLength (length : Nat) (s : Text) : Option Text :=
  if (s.drop length).all (· == ' ') then some (s.take length) else none

/-- What an insert stores of a bound value, if the column takes it. -/
def PgType.store : PgType → Value → Option PgValue
  | .char length, .text s => (fitLength length s).map fun s => .bpchar (ljust s length)
  | .varchar length, .text s => (fitLength length s).map .varchar
  | .smallint, .int n => if -(2 ^ 15) ≤ n ∧ n < 2 ^ 15 then some (.int n) else none
  | .bigint, .int n => if -(2 ^ 63) ≤ n ∧ n < 2 ^ 63 then some (.int n) else none
  | .numeric precision scale, .decimal d => (d.castNumeric precision scale).map .numeric
  | .timestamp6, .timestamp12 s =>
    (Timestamp12.parse s).map fun ts => .timestamp (splitTimestamp12 ts).1 (splitTimestamp12 ts).2
  | .date, .date iso => some (.date iso)
  | _, _ => none

/-- A column of the record with its types on both sides. -/
structure ArchiveColumn where
  column : RecordColumn
  db2Type : Db2Type
  pgType : PgType

def ArchiveColumn.spec (c : ArchiveColumn) : ColumnSpec := c.column.spec

def ArchiveColumn.name (c : ArchiveColumn) : String := c.spec.name

/-- A display field that is no number. -/
def textField (name : String) (offset length : Nat) (kind : Kind) (targetType : String) (isKey : Bool) (encoding : String)
    (trim : Bool) (valueMap : List (Text × Text)) (argument : Nat) (plain : kind ≠ .decimal) : RecordColumn where
  spec :=
    { name := name
      field := ⟨.display, offset, length, 0⟩
      targetType := targetType
      kind := kind
      isKey := isKey
      encoding := encoding
      trim := trim
      valueMap := valueMap
      targetPrecision := argument
      targetScale := 0
      targetLength := argument
      precision_le := fun h => absurd h plain
      scale_eq := fun h => absurd h plain }
  isNumeric := false
  signed := false
  digits := 0
  length_eq := fun h => nomatch h
  scale_le := fun h => nomatch h
  digits_lt := no_digits_lt

/-- A `PIC X(n)` that stays a `CHAR(n)`. -/
def charColumn (name : String) (offset n : Nat) (isKey : Bool) (valueMap : List (Text × Text)) : ArchiveColumn :=
  ⟨textField name offset n .char s!"CHAR({n})" isKey "ascii" false valueMap n Kind.char_ne_decimal, .char n, .char n⟩

/-- A `PIC X(n)` that becomes a `VARCHAR(n)`, trimmed. -/
def trimmedColumn (name : String) (offset n : Nat) (isKey : Bool) : ArchiveColumn :=
  ⟨textField name offset n .char s!"VARCHAR({n})" isKey "ascii" true [] n Kind.char_ne_decimal, .char n, .varchar n⟩

/-- EBCDIC text that becomes a `VARCHAR(n)`, trimmed. -/
def ebcdicColumn (name : String) (offset n : Nat) : ArchiveColumn :=
  ⟨textField name offset n .char s!"VARCHAR({n})" false "cp037" true [] n Kind.char_ne_decimal, .charForBitData n, .varchar n⟩

/-- Eight EBCDIC digits that become a `DATE`. -/
def dateColumn (name : String) (offset : Nat) : ArchiveColumn :=
  ⟨textField name offset 8 .date8 "DATE" false "cp037" false [] 0 Kind.date8_ne_decimal, .charForBitData 8, .date⟩

def timestampColumn (name : String) (offset : Nat) : ArchiveColumn :=
  ⟨textField name offset 32 .timestamp12 "TIMESTAMP(6)" false "ascii" false [] 6 Kind.timestamp12_ne_decimal, .timestamp12, .timestamp6⟩

/-- A binary `PIC S9(digits) COMP`. -/
def binaryField (name : String) (offset length digits : Nat) (targetType : String)
    (bytes : picLength .comp digits = some length) (narrow : digits ≤ 18) : RecordColumn where
  spec :=
    { name := name
      field := ⟨.comp, offset, length, 0⟩
      targetType := targetType
      kind := .int
      isKey := false
      encoding := "ascii"
      trim := false
      valueMap := []
      targetPrecision := 0
      targetScale := 0
      targetLength := 0
      precision_le := fun h => nomatch h
      scale_eq := fun h => nomatch h }
  isNumeric := true
  signed := true
  digits := digits
  length_eq := fun _ => bytes
  scale_le := fun _ => Nat.zero_le _
  digits_lt := by omega

def smallintColumn (name : String) (offset : Nat) : ArchiveColumn :=
  ⟨binaryField name offset 2 4 "SMALLINT" (by decide) (by decide), .smallint, .smallint⟩

def bigintColumn (name : String) (offset : Nat) : ArchiveColumn :=
  ⟨binaryField name offset 8 18 "BIGINT" (by decide) (by decide), .bigint, .bigint⟩

/-- A packed `PIC S9(23)V9(8)` that becomes a `NUMERIC(precision,8)`. -/
def decimalColumn (name : String) (offset precision : Nat) (narrow : precision ≤ 38) : ArchiveColumn where
  column :=
    { spec :=
        { name := name
          field := ⟨.comp3, offset, 16, 8⟩
          targetType := s!"NUMERIC({precision},8)"
          kind := .decimal
          isKey := false
          encoding := "ascii"
          trim := false
          valueMap := []
          targetPrecision := precision
          targetScale := 8
          targetLength := precision
          precision_le := fun _ => narrow
          scale_eq := fun _ => rfl }
      isNumeric := true
      signed := true
      digits := 31
      length_eq := fun _ => rfl
      scale_le := fun _ => show 8 ≤ 31 by decide
      digits_lt := by decide }
  db2Type := .decimal 31 8
  pgType := .numeric precision 8

/-- A table as copybook, manifest, type map and DDL describe it. -/
structure ArchiveTable where
  columns : List ArchiveColumn
  recordLength : Nat
  hashColumns : List String
  hash_named : ∀ n ∈ hashColumns, n ∈ columns.map ArchiveColumn.name

namespace ArchiveTable

variable (t : ArchiveTable)

def recordColumns : List RecordColumn := t.columns.map ArchiveColumn.column

def hashed : HashedColumns where
  specs := t.columns.map ArchiveColumn.spec
  hashColumns := t.hashColumns
  hash_named := by
    intro n hn
    rw [List.map_map]
    exact t.hash_named n hn

end ArchiveTable

/-- `DOCARCH`; the class codes are mapped by the manifest. -/
def docarch (classMap : List (Text × Text)) : ArchiveTable where
  columns := [trimmedColumn "ARCH_KEY" 0 16 true, charColumn "DOC_ID" 16 36 false [], smallintColumn "VERSION_NO" 52,
    charColumn "RETENTION_CLASS" 54 4 false classMap, timestampColumn "LAST_ACCESS_TS" 58,
    decimalColumn "STORAGE_CHARGE" 90 31 (by decide), decimalColumn "UNIT_RATE" 106 18 (by decide),
    ebcdicColumn "OWNER_NAME" 122 40, dateColumn "DISPOSITION_DT" 162, charColumn "LEGAL_HOLD_FLAG" 170 1 false [],
    charColumn "CHECKSUM_ALG" 171 8 false [], charColumn "CONTENT_SHA256" 179 64 false [], bigintColumn "BYTE_SIZE" 243,
    charColumn "SOURCE_SYS" 251 3 false []]
  recordLength := 256
  hashColumns := ["ARCH_KEY", "DOC_ID", "VERSION_NO", "RETENTION_CLASS", "LAST_ACCESS_TS", "STORAGE_CHARGE", "UNIT_RATE",
    "OWNER_NAME", "DISPOSITION_DT", "LEGAL_HOLD_FLAG", "CONTENT_SHA256", "BYTE_SIZE"]
  hash_named := by simp [ArchiveColumn.name, ArchiveColumn.spec, trimmedColumn, charColumn, smallintColumn, timestampColumn,
    decimalColumn, ebcdicColumn, dateColumn, bigintColumn, textField, binaryField]

/-- `FILEAUD`. -/
def fileaud (classMap : List (Text × Text)) : ArchiveTable where
  columns := [charColumn "AUDIT_KEY" 0 20 true [], trimmedColumn "ARCH_KEY" 20 16 false, charColumn "EVENT_TYPE" 36 4 false [],
    timestampColumn "EVENT_TS" 40, charColumn "ACTOR_ID" 72 12 false [], charColumn "RETENTION_CLASS" 84 4 false classMap,
    charColumn "DISPOSITION_CODE" 88 2 false [], trimmedColumn "CLIENT_IP" 90 15 false, trimmedColumn "DETAIL_TEXT" 105 40 false]
  recordLength := 160
  hashColumns := ["AUDIT_KEY", "ARCH_KEY", "EVENT_TYPE", "EVENT_TS", "ACTOR_ID", "RETENTION_CLASS", "DISPOSITION_CODE",
    "CLIENT_IP", "DETAIL_TEXT"]
  hash_named := by simp [ArchiveColumn.name, ArchiveColumn.spec, trimmedColumn, charColumn, timestampColumn, textField]

/-- A row of the target, by the names of its columns. -/
abbrev PgRow := List (String × PgValue)

/-- The staging insert of a converted row, which promotion copies to the archive. -/
def storeRow (t : ArchiveTable) (values : Fields) : Option PgRow :=
  t.columns.mapM fun c => (c.pgType.store (values.get c.name)).map fun v => (c.name, v)

/-- `TO_CHAR` of a timestamp: the date, the time with its separator, and the microseconds. -/
def toChar (dt : DateTime) (between colon : Char) : Text :=
  zeroPad 4 dt.year ++ '-' :: (zeroPad 2 dt.month ++ '-' :: (zeroPad 2 dt.day ++ between :: (zeroPad 2 dt.hour ++
    colon :: (zeroPad 2 dt.minute ++ colon :: (zeroPad 2 dt.second ++ '.' :: zeroPad 6 dt.microsecond)))))

/-- `RPAD(s, n)`, which also cuts. -/
def rpad (s : Text) (n : Nat) : Text := (ljust s n).take n

/-- `LPAD(s, 6, '0')`, which also cuts. -/
def lpad6 (s : Text) : Text := (List.replicate (6 - s.length) '0' ++ s).take 6

/-- `::text` of a character column: a `bpchar` loses its padding. -/
def PgValue.castText : PgValue → Option Text
  | .bpchar s => some (rtrim s)
  | .varchar s => some s
  | _ => none

/-- The expression of `pg_hash_expression` for a column, over a column of its kind. -/
def pgExpression (spec : ColumnSpec) (v : PgValue) : Option Text :=
  match spec.kind, v with
  | .char, v =>
    if spec.isKey ∧ spec.targetLength ≠ 0 ∧ !spec.trim then v.castText.map fun s => rpad s spec.targetLength
    else if spec.isKey then v.castText
    else v.castText.map rtrim
  | .int, .int n => some (toString n).toList
  | .decimal, .numeric d => decimalExpression d
  | .timestamp12, .timestamp dt nanosTail => some (toChar dt '-' '.' ++ lpad6 (toString nanosTail).toList)
  | .date8, .date iso => some (yearMonthDay true iso)
  | _, _ => none

def pgColumnText (t : ArchiveTable) (row : PgRow) (n : String) : Option Text := do
  let spec ← (byName t.hashed.specs).lookup n
  let v ← row.lookup n
  pgExpression spec v

/-- The text that the target's hash of a row is of. -/
def pgHashText (t : ArchiveTable) (row : PgRow) : Option Text :=
  (t.hashColumns.mapM (pgColumnText t row)).map (List.intercalate ['|'])

/-- What the target computes as the hash of a row. -/
def pgHash (sha256 : Bytes → Hash) (t : ArchiveTable) (row : PgRow) : Option Hash :=
  (pgHashText t row).map fun s => sha256 (encodeText s)

/-! The select lists of the two stores. -/

/-- A column as the driver returns it. -/
def PgRow.plain (row : PgRow) (n : String) : Value :=
  match row.lookup n with
  | some (.bpchar s) => .text s
  | some (.varchar s) => .text s
  | some (.int n) => .int n
  | some (.numeric d) => .decimal d
  | _ => .null

/-- `TO_CHAR(column, 'YYYY-MM-DD HH24:MI:SS.US')`. -/
def PgRow.timestampText (row : PgRow) (n : String) : Value :=
  match row.lookup n with
  | some (.timestamp dt _) => .text (toChar dt ' ' ':')
  | _ => .null

def PgRow.nanosTail (row : PgRow) (n : String) : Value :=
  match row.lookup n with
  | some (.timestamp _ nanosTail) => .int nanosTail
  | _ => .null

/-- `TO_CHAR(column, 'YYYY-MM-DD')`. -/
def PgRow.dateText (row : PgRow) (n : String) : Value :=
  match row.lookup n with
  | some (.date iso) => .text iso
  | _ => .null

def PostgresArchiveStore.selectVersion (row : PgRow) : ResultSet :=
  [("ARCH_KEY", row.plain "ARCH_KEY"), ("DOC_ID", row.plain "DOC_ID"), ("VERSION_NO", row.plain "VERSION_NO"),
    ("RETENTION_CLASS", row.plain "RETENTION_CLASS"), ("LAST_ACCESS_TS", row.timestampText "LAST_ACCESS_TS"),
    ("LAST_ACCESS_TS_NANOS_TAIL", row.nanosTail "LAST_ACCESS_TS"), ("STORAGE_CHARGE", row.plain "STORAGE_CHARGE"),
    ("UNIT_RATE", row.plain "UNIT_RATE"), ("OWNER_NAME", row.plain "OWNER_NAME"),
    ("DISPOSITION_DT", row.dateText "DISPOSITION_DT"), ("LEGAL_HOLD_FLAG", row.plain "LEGAL_HOLD_FLAG"),
    ("CHECKSUM_ALG", row.plain "CHECKSUM_ALG"), ("CONTENT_SHA256", row.plain "CONTENT_SHA256"),
    ("BYTE_SIZE", row.plain "BYTE_SIZE"), ("SOURCE_SYS", row.plain "SOURCE_SYS")]

def PostgresArchiveStore.selectEvent (row : PgRow) : ResultSet :=
  [("AUDIT_KEY", row.plain "AUDIT_KEY"), ("ARCH_KEY", row.plain "ARCH_KEY"), ("EVENT_TYPE", row.plain "EVENT_TYPE"),
    ("EVENT_TS", row.timestampText "EVENT_TS"), ("EVENT_TS_NANOS_TAIL", row.nanosTail "EVENT_TS"),
    ("ACTOR_ID", row.plain "ACTOR_ID"), ("RETENTION_CLASS", row.plain "RETENTION_CLASS"),
    ("DISPOSITION_CODE", row.plain "DISPOSITION_CODE"), ("CLIENT_IP", row.plain "CLIENT_IP"),
    ("DETAIL_TEXT", row.plain "DETAIL_TEXT")]

/-- `CHAR(column)` of a timestamp. -/
def charOf : Value → Value
  | .timestamp12 s => .text s
  | _ => .null

def Db2ArchiveStore.selectVersion (row : Fields) : ResultSet :=
  [("ARCH_KEY", row.get "ARCH_KEY"), ("DOC_ID", row.get "DOC_ID"), ("VERSION_NO", row.get "VERSION_NO"),
    ("RETENTION_CLASS", row.get "RETENTION_CLASS"), ("LAST_ACCESS_TS", charOf (row.get "LAST_ACCESS_TS")),
    ("STORAGE_CHARGE", row.get "STORAGE_CHARGE"), ("UNIT_RATE", row.get "UNIT_RATE"), ("OWNER_NAME", row.get "OWNER_NAME"),
    ("DISPOSITION_DT", row.get "DISPOSITION_DT"), ("LEGAL_HOLD_FLAG", row.get "LEGAL_HOLD_FLAG"),
    ("CHECKSUM_ALG", row.get "CHECKSUM_ALG"), ("CONTENT_SHA256", row.get "CONTENT_SHA256"),
    ("BYTE_SIZE", row.get "BYTE_SIZE"), ("SOURCE_SYS", row.get "SOURCE_SYS")]

def Db2ArchiveStore.selectEvent (row : Fields) : ResultSet :=
  [("AUDIT_KEY", row.get "AUDIT_KEY"), ("ARCH_KEY", row.get "ARCH_KEY"), ("EVENT_TYPE", row.get "EVENT_TYPE"),
    ("EVENT_TS", charOf (row.get "EVENT_TS")), ("ACTOR_ID", row.get "ACTOR_ID"),
    ("RETENTION_CLASS", row.get "RETENTION_CLASS"), ("DISPOSITION_CODE", row.get "DISPOSITION_CODE"),
    ("CLIENT_IP", row.get "CLIENT_IP"), ("DETAIL_TEXT", row.get "DETAIL_TEXT")]

end OtterWorks.Reports
