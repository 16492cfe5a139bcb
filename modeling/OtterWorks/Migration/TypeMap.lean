import OtterWorks.Migration.Copybook
import OtterWorks.Migration.RecordRoundTrip
import Mathlib.Data.List.Sort

namespace OtterWorks.Migration

/-! `typemap.py`: the columns that a table's copybook and type map give. -/

/-- What a `ConfigError` of the type map says, with what it prints; `number` and `missingName` are exceptions that nothing
catches. -/
inductive TypeMapError
  | cannotParse (type : Text)
  | noSourceType (key : Text) (digits : Nat)
  | cannotInfer (key : Text)
  | noRule (sourceType : Text)
  | unmapped (fields : List Text)
  | noField (name : Text)
  | unsupportedOverride (column : String) (type : Text)
  | unsupportedFormat (column : String) (format : String)
  | formatNeedsDate (column : String)
  | dateNeedsEightBytes (column : String)
  | exceedsPrecision (column : String) (type : Text)
  | scaleDiffers (column : String) (copybook target : Nat)
  | number (digits : Text)
  | missingName
  deriving DecidableEq, Repr

inductive Target
  | azuresql
  | postgresql
  deriving DecidableEq, Repr

structure ParsedType where
  base : Text
  args : List Text
  bitData : Bool
  deriving DecidableEq, Repr

/-- `str.upper()` of one character, as far as the pattern of a type can match the outcome. -/
def upperLetters (c : Char) : Text :=
  if c.toNat = 0xdf then ['S', 'S']
  else if c.toNat = 0xfb00 then ['F', 'F']
  else if c.toNat = 0xfb01 then ['F', 'I']
  else if c.toNat = 0xfb02 then ['F', 'L']
  else if c.toNat = 0xfb03 then ['F', 'F', 'I']
  else if c.toNat = 0xfb04 then ['F', 'F', 'L']
  else if c.toNat = 0xfb05 ∨ c.toNat = 0xfb06 then ['S', 'T']
  else [upperChar c]

def isBaseChar (c : Char) : Bool := c.isUpper || c.isDigit || c == '_' || c == ' '

def isArgChar (c : Char) : Bool := c.isAlphanum || ['\x7b', '\x7d', '_', ',', ' '].contains c

def splitComma : Text → List Text
  | [] => [[]]
  | c :: s =>
    if c = ',' then [] :: splitComma s
    else
      match splitComma s with
      | [] => [[c]]
      | part :: parts => (c :: part) :: parts

def bitSuffix : Text := text " FOR BIT DATA"

/-- The groups of `_TYPE_RE`: the shortest base that the rest can follow. -/
def typeGroups (s : Text) : Option (Text × Text × Bool) :=
  match s.takeWhile isBaseChar, s.dropWhile isBaseChar with
  | base, [] =>
    if bitSuffix <:+ base ∧ base ≠ bitSuffix then some (base.take (base.length - bitSuffix.length), [], true)
    else if base = [] then none
    else some (base, [], false)
  | c :: base, '(' :: inner =>
    match inner.takeWhile isArgChar, inner.dropWhile isArgChar with
    | a :: args, ')' :: rest =>
      if rest = [] then some (c :: base, a :: args, false)
      else if rest = bitSuffix then some (c :: base, a :: args, true)
      else none
    | _, _ => none
  | _, _ => none

/-- `_parse_type` -/
def parseType (t : Text) : Except TypeMapError ParsedType :=
  match typeGroups ((strip t).flatMap upperLetters) with
  | some (base, args, bitData) =>
    .ok ⟨strip base, ((splitComma args).map strip).filter (· ≠ []), bitData⟩
  | none => .error (.cannotParse t)

/-- `int` of an argument, or 0 where there is none. -/
def argument (arg : Option Text) : Except TypeMapError Nat :=
  match arg with
  | none => .ok 0
  | some a =>
    match intOf a with
    | some n => .ok n.toNat
    | none => .error (.number a)

def ParsedType.length (t : ParsedType) : Except TypeMapError Nat := argument t.args[0]?

def ParsedType.precision (t : ParsedType) : Except TypeMapError Nat := argument t.args[0]?

def ParsedType.scale (t : ParsedType) : Except TypeMapError Nat := argument t.args[1]?

/-- `str.format`: a template's names in braces. -/
def formatFrom (subs : List (Text × Text)) : Option Text → Text → Option Text
  | none, [] => some []
  | some _, [] => none
  | none, '\x7b' :: s => formatFrom subs (some []) s
  | some name, '\x7d' :: s => do
    let value ← subs.lookup name
    (formatFrom subs none s).map (value ++ ·)
  | some name, c :: s => formatFrom subs (some (name ++ [c])) s
  | none, c :: s => (formatFrom subs none s).map (c :: ·)

def format (template : Text) (subs : List (Text × Text)) : Except TypeMapError Text :=
  match formatFrom subs none template with
  | some t => .ok t
  | none => .error .missingName

structure TypeRule where
  sourcePattern : Text
  targetTemplate : Text
  kind : Kind

/-- A rule of `copybook_inference`: the groups of its pattern, and its source type, or one for each number of digits. -/
structure InferenceRule where
  pic : Text → Option (List (Text × Text))
  source : Text ⊕ List (Nat × Text)

structure TypeMap where
  rules : List TypeRule
  inference : List InferenceRule
  target : Target

def TypeMap.charType (m : TypeMap) : Text := if m.target = .postgresql then text "CHAR" else text "NCHAR"

/-- `_PG_SPELLING` -/
def pgSpelling : List (Text × Text) :=
  [("NCHAR", "CHAR"), ("NVARCHAR", "VARCHAR"), ("DECIMAL", "NUMERIC"), ("INT", "INTEGER"), ("TINYINT", "SMALLINT"),
    ("DATETIME2", "TIMESTAMP"), ("VARBINARY", "BYTEA"), ("BINARY", "BYTEA")].map fun (a, b) => (text a, text b)

def TypeMap.spellTargetType (m : TypeMap) (parsed : ParsedType) : Text :=
  let base := if m.target = .postgresql then (pgSpelling.lookup parsed.base).getD parsed.base else parsed.base
  if m.target = .postgresql ∧ base = text "BYTEA" then base
  else if parsed.args = [] then base
  else base ++ '(' :: List.intercalate [','] parsed.args ++ [')']

/-- `Field.pic_key` -/
def Item.picKey (item : Item) : Text :=
  item.pic ++
    match item.field.usage with
    | .display => []
    | .comp => text " COMP"
    | .comp3 => text " COMP-3"

/-- Both numbers of digits have their sum beside them. -/
def addTotal (g : List (Text × Text)) : Except TypeMapError (List (Text × Text)) :=
  match g.lookup (text "p"), g.lookup (text "s") with
  | some p, some s => do
    let p ← argument (some p)
    let s ← argument (some s)
    .ok ((text "ps", Nat.toDigits 10 (p + s)) :: g)
  | _, _ => .ok g

/-- `infer_source_type`: the first rule whose pattern matches decides. -/
def TypeMap.inferSourceType (m : TypeMap) (item : Item) : Except TypeMapError Text :=
  let key := item.picKey
  match m.inference.findSome? fun rule => (rule.pic key).map fun groups => (rule, groups) with
  | none => .error (.cannotInfer key)
  | some (rule, g) =>
    match rule.source with
    | .inr byDigits => do
      let digits ← argument (some ((g.lookup (text "n")).getD (text "0")))
      match (byDigits.insertionSort fun a b => a.1 ≤ b.1).find? fun limit => digits ≤ limit.1 with
      | some limit => .ok limit.2
      | none => .error (.noSourceType key digits)
    | .inl source => do format source (← addTotal g)

def matchArgs : List Text → List Text → Option (List (Text × Text))
  | pa :: pas, a :: as => do
    let rest ← matchArgs pas as
    if pa.head? = some '\x7b' ∧ pa.getLast? = some '\x7d' then some (rest ++ [(lower (pa.drop 1).dropLast, a)])
    else if pa = a then some rest
    else none
  | _, _ => some []

def TypeRule.apply (rule : TypeRule) (parsed : ParsedType) : Except TypeMapError (Option (Text × Kind)) := do
  let pat ← parseType rule.sourcePattern
  if pat.base ≠ parsed.base ∨ pat.bitData ≠ parsed.bitData ∨ pat.args.length ≠ parsed.args.length then .ok none
  else
    match matchArgs pat.args parsed.args with
    | none => .ok none
    | some subs => do .ok (some (← format rule.targetTemplate subs, rule.kind))

def firstRule (parsed : ParsedType) : List TypeRule → Except TypeMapError (Option (Text × Kind))
  | [] => .ok none
  | rule :: rules => do
    match ← rule.apply parsed with
    | some found => .ok (some found)
    | none => firstRule parsed rules

/-- `map_source_type` -/
def TypeMap.mapSourceType (m : TypeMap) (sourceType : Text) : Except TypeMapError (Text × Kind) := do
  let parsed ← parseType sourceType
  match ← firstRule parsed m.rules with
  | some found => .ok found
  | none => .error (.noRule sourceType)

structure TypeOverride where
  targetType : Option Text
  trim : Option Bool
  encoding : Option String
  format : Option String
  valueMap : List (Text × Text)

/-- The columns of a table's configuration; `field_map` is a dictionary. -/
structure TableConfig where
  fieldMap : List (Text × String)
  keyColumns : List String
  typeOverrides : List (String × TypeOverride)
  fields_nodup : (fieldMap.map Prod.fst).Nodup

def TypeOverride.none : TypeOverride := ⟨.none, .none, .none, .none, []⟩

def TableConfig.override (table : TableConfig) (column : String) : TypeOverride :=
  (table.typeOverrides.lookup column).getD .none

def Copybook.field (book : Copybook) (name : Text) : Except TypeMapError Item :=
  match book.fields.find? (·.name == name) with
  | some item => .ok item
  | none => .error (.noField name)

def overrideKinds : List (List String × Kind) :=
  [(["NCHAR", "NVARCHAR", "CHAR", "VARCHAR", "CHARACTER", "CHARACTER VARYING", "TEXT"], .char),
    (["DECIMAL", "NUMERIC"], .decimal), (["SMALLINT", "INT", "INTEGER", "BIGINT", "TINYINT"], .int), (["DATE"], .date8),
    (["DATETIME2", "TIMESTAMP"], .timestamp12), (["VARBINARY", "BINARY", "BYTEA"], .binary)]

/-- `_apply_override` -/
def TypeMap.applyOverride (m : TypeMap) (kind : Kind) (targetType : Text) (ov : TypeOverride) (column : String) :
    Except TypeMapError (Text × Kind) :=
  match ov.targetType with
  | none => .ok (targetType, kind)
  | some t => do
    let new ← parseType t
    match overrideKinds.find? fun row => row.1.contains (String.ofList new.base) with
    | some row => .ok (m.spellTargetType new, row.2)
    | none => .error (.unsupportedOverride column t)

/-- An option that is given and not empty. -/
def given (s : Option String) : Option String := s.filter (· ≠ "")

/-- A `CHAR` that has an encoding is one of bits. -/
def encodedSource (ov : TypeOverride) (sourceType : Text) : Except TypeMapError Text :=
  if given ov.encoding = none then .ok sourceType
  else do
    let parsed ← parseType sourceType
    .ok (if parsed.base = text "CHAR" then sourceType ++ bitSuffix else sourceType)

/-- Bits that have an encoding are decoded to text. -/
def TypeMap.decodedType (m : TypeMap) (ov : TypeOverride) (sourceType targetType : Text) (kind : Kind) :
    Except TypeMapError (Text × Kind) :=
  if kind = .binary ∧ given ov.encoding ≠ none then do
    let n ← (← parseType sourceType).length
    .ok (m.charType ++ '(' :: (Nat.toDigits 10 n ++ [')']), .char)
  else .ok (targetType, kind)

/-- The type of a column before its arguments are read. -/
def TypeMap.columnType (m : TypeMap) (item : Item) (ov : TypeOverride) (column : String) :
    Except TypeMapError (Text × Kind) := do
  let inferred ← m.inferSourceType item
  let sourceType ← encodedSource ov inferred
  let (targetType, kind) ← m.mapSourceType sourceType
  let (targetType, kind) ← m.decodedType ov sourceType targetType kind
  m.applyOverride kind targetType ov column

/-- The conversion that a column of a type gets, without its name and encoding. -/
structure ColumnShape (item : Item) where
  targetType : Text
  kind : Kind
  parsed : ParsedType
  precision : Nat
  scale : Nat
  precision_le : kind = .decimal → precision ≤ 38
  scale_eq : kind = .decimal → item.field.scale = scale

def checkFormat (item : Item) (ov : TypeOverride) (kind : Kind) (column : String) : Except TypeMapError Unit :=
  match given ov.format with
  | some f =>
    if f ≠ "YYYYMMDD" then .error (.unsupportedFormat column f)
    else if kind ≠ .date8 then .error (.formatNeedsDate column)
    else .ok ()
  | none => if kind = .date8 ∧ item.field.length ≠ 8 then .error (.dateNeedsEightBytes column) else .ok ()

def TypeMap.columnShape (m : TypeMap) (item : Item) (ov : TypeOverride) (column : String) :
    Except TypeMapError (ColumnShape item) := do
  let (targetType, kind) ← m.columnType item ov column
  let _ ← checkFormat item ov kind column
  let parsed ← parseType targetType
  let precision ← parsed.precision
  if wide : kind = .decimal ∧ 38 < precision then .error (.exceedsPrecision column targetType)
  else do
    let scale ← parsed.scale
    if differs : kind = .decimal ∧ item.field.scale ≠ scale then
      .error (.scaleDiffers column item.field.scale scale)
    else
      .ok ⟨targetType, kind, parsed, precision, scale, fun decimal => Nat.le_of_not_lt fun more => wide ⟨decimal, more⟩,
        fun decimal => Decidable.not_not.mp fun other => differs ⟨decimal, other⟩⟩

def columnSpec (table : TableConfig) (m : TypeMap) (textEncoding : String) (item : Item) (column : String) :
    Except TypeMapError ColumnSpec := do
  let ov := table.override column
  let shape ← m.columnShape item ov column
  let wide := [text "NVARCHAR", text "VARCHAR", text "TEXT"].contains shape.parsed.base
  .ok
    { name := column
      field := item.field
      targetType := String.ofList shape.targetType
      kind := shape.kind
      isKey := table.keyColumns.contains column
      encoding := (given ov.encoding).getD textEncoding
      trim := ov.trim.getD (shape.kind = .char && wide)
      valueMap := ov.valueMap
      targetPrecision := shape.precision
      targetScale := shape.scale
      targetLength := shape.precision
      precision_le := shape.precision_le
      scale_eq := shape.scale_eq }

/-- `build_column_specs` -/
def buildColumnSpecs (table : TableConfig) (book : Copybook) (m : TypeMap) (textEncoding : String) :
    Except TypeMapError (List ColumnSpec) := do
  let unmapped := (book.fields.filter fun item => !item.filler && !(table.fieldMap.map Prod.fst).contains item.name)
  if unmapped ≠ [] then .error (.unmapped (unmapped.map Item.name))
  else table.fieldMap.mapM fun (cob, column) => do columnSpec table m textEncoding (← book.field cob) column

/-- One table of `build_table_specs`. -/
def buildTableSpec (file : Option (List Text)) (recordLength : Nat) (table : TableConfig) (m : TypeMap) (textEncoding : String) :
    Except (CopybookError ⊕ TypeMapError) (Copybook × List ColumnSpec) := do
  let book ← (parseCopybook file (some recordLength)).mapError .inl
  let specs ← (buildColumnSpecs table book m textEncoding).mapError .inr
  .ok (book, specs)

section

variable {table : TableConfig} {book : Copybook} {m : TypeMap} {textEncoding column : String} {item item' : Item} {spec : ColumnSpec}
  {specs : List ColumnSpec} {name name' : Text} {file : Option (List Text)} {expected : Option Nat}

theorem Copybook.field_eq (h : book.field name = .ok item) : item ∈ book.fields ∧ item.name = name := by
  unfold Copybook.field at h
  split at h
  next found =>
    cases h
    have same := List.find?_some found
    exact ⟨List.mem_of_find?_eq_some found, by simpa using same⟩
  next => cases h

theorem columnSpec_field (h : columnSpec table m textEncoding item column = .ok spec) :
    spec.field = item.field ∧ spec.name = column := by
  unfold columnSpec at h
  obtain ⟨shape, _, h⟩ := bind_ok h
  cases h
  exact ⟨rfl, rfl⟩

/-- Each entry of `field_map` has its column, made of the item it names. -/
theorem buildColumnSpecs_forall₂ (h : buildColumnSpecs table book m textEncoding = .ok specs) :
    List.Forall₂ (fun entry spec => ∃ item, book.field entry.1 = .ok item ∧
      columnSpec table m textEncoding item entry.2 = .ok spec) table.fieldMap specs := by
  unfold buildColumnSpecs at h
  simp only at h
  split at h
  next => cases h
  next =>
    apply (mapM_ok.mp h).imp
    intro entry spec made
    obtain ⟨item, found, made⟩ := bind_ok made
    exact ⟨item, found, made⟩

/-- The items have no byte in common. -/
def Item.Apart (item item' : Item) : Prop :=
  item.field.offset + item.field.length ≤ item'.field.offset ∨ item'.field.offset + item'.field.length ≤ item.field.offset

theorem Item.apart {recordLength : Nat}
    (tiled : Tiled (fun item : Item => item.field.offset) (fun item => item.field.length) 0 book.fields recordLength)
    (here : item ∈ book.fields) (there : item' ∈ book.fields)
    (other : item.name ≠ item'.name) : item.Apart item' := by
  have : Std.Symm Item.Apart := ⟨fun _ _ => Or.symm⟩
  have apart : book.fields.Pairwise Item.Apart := tiled.pairwise.imp Or.inl
  exact List.Pairwise.forall apart here there fun same => other (congrArg Item.name same)

/-- Two lists that come of one, the second by what is made of the first's entries. -/
theorem map_eq_of_forall₂ {α β γ : Type} {R : α → β → Prop} {f : γ → β} {xs : List α} {ys : List β} {zs : List γ}
    (unique : ∀ x y y', R x y → R x y' → y = y') (h : List.Forall₂ (fun x z => R x (f z)) xs zs)
    (h' : List.Forall₂ R xs ys) : zs.map f = ys := by
  induction h generalizing ys with
  | nil =>
    cases h'
    rfl
  | cons first _ ih =>
    cases h' with
    | cons first' rest => rw [List.map_cons, ih rest, unique _ _ _ first first']

theorem picLayout_numeric {pic : Text} {usage : Usage} {l : PicLayout} (h : picLayout pic usage = .ok l)
    (numeric : l.isNumeric = true) : picLength usage l.digits = some l.length ∧ l.scale ≤ l.digits := by
  unfold picLayout at h
  split at h
  next =>
    split at h
    next => cases h
    next =>
      obtain ⟨n, _, h⟩ := bind_ok h
      cases h
      cases numeric
  next =>
    split at h
    next => cases h
    next =>
      obtain ⟨whole, _, h⟩ := bind_ok h
      obtain ⟨scale, _, h⟩ := bind_ok h
      split at h
      next length has =>
        cases h
        exact ⟨has, Nat.le_add_left ..⟩
      next => cases h

theorem digits_le_of_picLength {usage : Usage} {digits length : Nat} (h : picLength usage digits = some length) :
    digits ≤ 3 * length := by
  unfold picLength at h
  cases usage with
  | comp =>
    simp only at h
    split at h
    · cases h
      omega
    · split at h
      · cases h
        omega
      · split at h
        · cases h
          omega
        · cases h
  | comp3 =>
    cases h
    omega
  | display =>
    cases h
    omega

/-- The column of an item with the rest of the item. -/
theorem Item.recordColumn (item : Item) (same : spec.field = item.field) (small : item.field.length < 2 ^ 58) :
    ∃ c : RecordColumn, c.spec = spec ∧ c.isNumeric = item.isNumeric ∧ c.signed = item.signed := by
  by_cases numeric : item.isNumeric = true
  · obtain ⟨length, scale⟩ := picLayout_numeric item.layout numeric
    have digits := digits_le_of_picLength length
    refine ⟨⟨spec, item.isNumeric, item.signed, item.digits, fun _ => ?_, fun _ => ?_, ?_⟩, rfl, rfl, rfl⟩
    · rw [same]
      exact length
    · rw [same]
      exact scale
    · simp only at digits
      omega
  · exact ⟨⟨spec, item.isNumeric, item.signed, 0, fun h => absurd h numeric, fun h => absurd h numeric, no_digits_lt⟩,
      rfl, rfl, rfl⟩

theorem mapError_ok {ε ε' α : Type} {f : ε → ε'} {x : Except ε α} {a : α} (h : x.mapError f = .ok a) : x = .ok a := by
  cases x with
  | ok b =>
    cases h
    rfl
  | error e => cases h

theorem buildTableSpec_ok {recordLength : Nat} (h : buildTableSpec file recordLength table m textEncoding = .ok (book, specs)) :
    parseCopybook file (some recordLength) = .ok book ∧ buildColumnSpecs table book m textEncoding = .ok specs := by
  unfold buildTableSpec at h
  obtain ⟨_, parsed, h⟩ := bind_ok h
  obtain ⟨_, built, h⟩ := bind_ok h
  cases h
  exact ⟨mapError_ok parsed, mapError_ok built⟩

/-- Columns that lie beside one another in a record, each on the field of the item that its entry of `field_map` names. -/
structure DerivedColumns (table : TableConfig) (book : Copybook) (recordLength : Nat) (specs : List ColumnSpec) : Prop where
  inside : ∀ spec ∈ specs, spec.field.offset + spec.field.length ≤ recordLength
  apart : specs.Pairwise fun spec spec' => spec.field.offset + spec.field.length ≤ spec'.field.offset ∨
    spec'.field.offset + spec'.field.length ≤ spec.field.offset
  named : List.Forall₂ (fun entry spec => ∃ item ∈ book.fields, item.name = entry.1 ∧ spec.name = entry.2 ∧
    spec.field = item.field) table.fieldMap specs

theorem derivedColumns {recordLength : Nat}
    (made : buildTableSpec file recordLength table m textEncoding = .ok (book, specs)) :
    DerivedColumns table book recordLength specs := by
  obtain ⟨parsed, built⟩ := buildTableSpec_ok made
  obtain ⟨tiled, _, total⟩ := parseCopybook_tiled parsed
  rw [Copybook.Tiled, total recordLength rfl] at tiled
  have related := buildColumnSpecs_forall₂ built
  refine ⟨?_, ?_, ?_⟩
  · intro spec member
    obtain ⟨entry, _, item, found, spec_of⟩ := forall₂_right related member
    rw [(columnSpec_field spec_of).1]
    exact (tiled.inside (Copybook.field_eq found).1).2
  · apply pairwise_forall₂ _ related (List.pairwise_map.mp table.fields_nodup)
    intro entry entry' spec spec' here there other
    obtain ⟨item, found, spec_of⟩ := here
    obtain ⟨item', found', spec_of'⟩ := there
    obtain ⟨member, named⟩ := Copybook.field_eq found
    obtain ⟨member', named'⟩ := Copybook.field_eq found'
    rw [(columnSpec_field spec_of).1, (columnSpec_field spec_of').1]
    apply Item.apart tiled member member'
    rw [named, named']
    exact other
  · apply related.imp
    intro entry spec made
    obtain ⟨item, found, spec_of⟩ := made
    obtain ⟨member, named⟩ := Copybook.field_eq found
    obtain ⟨field, column⟩ := columnSpec_field spec_of
    exact ⟨item, member, named, column, field⟩

/-- No two columns have one name, if no two entries of `field_map` name one column. -/
theorem DerivedColumns.names {recordLength : Nat} (derived : DerivedColumns table book recordLength specs)
    (columns : (table.fieldMap.map Prod.snd).Nodup) : (specs.map ColumnSpec.name).Nodup := by
  apply List.pairwise_map.mpr
  apply pairwise_forall₂ _ derived.named (List.pairwise_map.mp columns)
  intro entry entry' spec spec' here there other
  obtain ⟨_, _, _, name, _⟩ := here
  obtain ⟨_, _, _, name', _⟩ := there
  rw [name, name']
  exact other

/-- The columns that an accepted copybook and `field_map` give lie beside one another in the record. Of a record that fits
in memory they are columns of the record's codec, and laid out as it asks if no two entries name one column. -/
theorem derived_layout {recordLength : Nat}
    (made : buildTableSpec file recordLength table m textEncoding = .ok (book, specs)) :
    DerivedColumns table book recordLength specs ∧
      ((table.fieldMap.map Prod.snd).Nodup → (specs.map ColumnSpec.name).Nodup) ∧
      (recordLength < 2 ^ 58 → ∃ cols : List RecordColumn, cols.map RecordColumn.spec = specs ∧
        ((table.fieldMap.map Prod.snd).Nodup → Layout cols recordLength) ∧
        List.Forall₂ (fun entry c => ∃ item ∈ book.fields, item.name = entry.1 ∧ c.spec.name = entry.2 ∧
          c.spec.field = item.field ∧ c.isNumeric = item.isNumeric ∧ c.signed = item.signed) table.fieldMap cols) := by
  have derived := derivedColumns made
  refine ⟨derived, derived.names, ?_⟩
  intro small
  obtain ⟨_, built⟩ := buildTableSpec_ok made
  have related := buildColumnSpecs_forall₂ built
  have made : ∀ entry ∈ table.fieldMap, ∃ c : RecordColumn, ∃ item, book.field entry.1 = .ok item ∧
      columnSpec table m textEncoding item entry.2 = .ok c.spec ∧ c.isNumeric = item.isNumeric ∧ c.signed = item.signed := by
    intro entry member
    obtain ⟨spec, held, item, found, spec_of⟩ := forall₂_left related member
    have inside := derived.inside spec held
    have field := (columnSpec_field spec_of).1
    rw [field] at inside
    obtain ⟨c, rfl, numeric, signed⟩ := item.recordColumn field (by omega)
    exact ⟨c, item, found, spec_of, numeric, signed⟩
  obtain ⟨cols, each⟩ := exists_forall₂ made
  have same : cols.map RecordColumn.spec = specs := by
    apply map_eq_of_forall₂ _ (each.imp _) related
    · intro entry spec spec' here there
      obtain ⟨item, found, made⟩ := here
      obtain ⟨item', found', made'⟩ := there
      cases Except.ok.inj (found.symm.trans found')
      exact Except.ok.inj (made.symm.trans made')
    · intro entry c made
      obtain ⟨item, found, spec_of, _⟩ := made
      exact ⟨item, found, spec_of⟩
  refine ⟨cols, same, ?_, ?_⟩
  · intro columns
    have names := derived.names columns
    have apart := derived.apart
    rw [← same] at names apart
    refine ⟨?_, List.pairwise_map.mp apart, ?_⟩
    · intro c member
      exact derived.inside c.spec (same ▸ List.mem_map_of_mem member)
    · rw [List.map_map] at names
      exact names
  · apply each.imp
    intro entry c made
    obtain ⟨item, found, spec_of, numeric, signed⟩ := made
    obtain ⟨member, named⟩ := Copybook.field_eq found
    obtain ⟨field, column⟩ := columnSpec_field spec_of
    exact ⟨item, member, named, column, field, numeric, signed⟩

end

/-! `db2-to-azuresql.yaml` and `db2-to-postgresql.yaml`, whose inference is one. -/

def picXGroup : Text → Option Text
  | 'X' :: s =>
    match parenthesized s with
    | (some n, []) => some n
    | _ => none
  | _ => none

def nineGroup (key : Text) : Option (Text × Text) :=
  match splitS key with
  | (_, '9' :: s) =>
    match parenthesized s with
    | (some n, rest) => some (n, rest)
    | _ => none
  | _ => none

def fractionGroup : Text → Option (Text × Text)
  | 'V' :: '9' :: s =>
    match parenthesized s with
    | (some n, rest) => some (n, rest)
    | _ => none
  | _ => none

def usageEnd (words : List String) (rest : Text) : Bool := (spaces rest).any fun s => words.contains (String.ofList s)

def compEnds : List String := ["COMP", "COMP-5", "COMPUTATIONAL", "COMPUTATIONAL-5"]

def integerNames : List (Nat × Text) := [(4, text "SMALLINT"), (9, text "INTEGER"), (18, text "BIGINT")]

def bothParts : Text := text "DECIMAL(\x7bps\x7d,\x7bs\x7d)"

def wholePart : Text := text "DECIMAL(\x7bp\x7d,0)"

def timestampPattern (key : Text) : Option (List (Text × Text)) :=
  if key = text "X(32)" then some [(['n'], text "32")] else none

def charPattern (key : Text) : Option (List (Text × Text)) := (picXGroup key).map fun n => [(['n'], n)]

def oneCharPattern (key : Text) : Option (List (Text × Text)) := if key = ['X'] then some [] else none

def compPattern (key : Text) : Option (List (Text × Text)) := do
  let (n, rest) ← nineGroup key
  if usageEnd compEnds rest then some [(['n'], n)] else none

def bothPattern (ends : Text → Bool) (key : Text) : Option (List (Text × Text)) := do
  let (p, rest) ← nineGroup key
  let (s, rest) ← fractionGroup rest
  if ends rest then some [(['p'], p), (['s'], s)] else none

def wholePattern (ends : Text → Bool) (key : Text) : Option (List (Text × Text)) := do
  let (p, rest) ← nineGroup key
  if ends rest then some [(['p'], p)] else none

def copybookInference : List InferenceRule :=
  [⟨timestampPattern, .inl (text "TIMESTAMP(12)")⟩, ⟨charPattern, .inl (text "CHAR(\x7bn\x7d)")⟩,
    ⟨oneCharPattern, .inl (text "CHAR(1)")⟩, ⟨compPattern, .inr integerNames⟩,
    ⟨bothPattern (usageEnd ["COMP-3"]), .inl bothParts⟩, ⟨wholePattern (usageEnd ["COMP-3"]), .inl wholePart⟩,
    ⟨bothPattern List.isEmpty, .inl bothParts⟩, ⟨wholePattern List.isEmpty, .inl wholePart⟩]

/-- The rules, with the target's names of its types. -/
def shippedRules (charType binary varchar integer decimal timestamp : String) : List TypeRule :=
  [⟨text "CHAR(\x7bn\x7d)", text charType, .char⟩, ⟨text "CHAR(\x7bn\x7d) FOR BIT DATA", text binary, .binary⟩,
    ⟨text "VARCHAR(\x7bn\x7d)", text varchar, .char⟩, ⟨text "SMALLINT", text "SMALLINT", .int⟩,
    ⟨text "INTEGER", text integer, .int⟩, ⟨text "BIGINT", text "BIGINT", .int⟩,
    ⟨text "DECIMAL(\x7bp\x7d,\x7bs\x7d)", text decimal, .decimal⟩,
    ⟨text "TIMESTAMP(12)", text timestamp, .timestamp12⟩, ⟨text "DATE", text "DATE", .date8⟩]

def shippedMap : Target → TypeMap
  | .azuresql =>
    ⟨shippedRules "NCHAR(\x7bn\x7d)" "VARBINARY(\x7bn\x7d)" "NVARCHAR(\x7bn\x7d)" "INT"
      "DECIMAL(\x7bp\x7d,\x7bs\x7d)" "DATETIME2(7)", copybookInference, .azuresql⟩
  | .postgresql =>
    ⟨shippedRules "CHAR(\x7bn\x7d)" "BYTEA" "VARCHAR(\x7bn\x7d)" "INTEGER"
      "NUMERIC(\x7bp\x7d,\x7bs\x7d)" "TIMESTAMP(6)", copybookInference, .postgresql⟩

def accountTable : TableConfig where
  fieldMap := [(text "AC-ID", "ID"), (text "AC-BAL", "BALANCE"), (text "AC-DELTA", "DELTA")]
  keyColumns := ["ID"]
  typeOverrides := []
  fields_nodup := by decide +kernel

theorem account_layout : ∃ cols : List RecordColumn, Layout cols 9 ∧
    cols.map (fun c => c.spec.name) = ["ID", "BALANCE", "DELTA"] := by
  have accepted : (buildTableSpec (some accountLines) 9 accountTable (shippedMap .postgresql) "latin-1").isOk = true := by
    decide +kernel
  obtain ⟨_, made⟩ := exists_of_isOk accepted
  obtain ⟨cols, _, layout, each⟩ := (derived_layout made).2.2 (by decide)
  refine ⟨cols, layout (by decide), ?_⟩
  unfold accountTable at each
  cases each with
  | cons first each =>
    cases each with
    | cons second each =>
      cases each with
      | cons third each =>
        cases each
        obtain ⟨_, _, _, id, _⟩ := first
        obtain ⟨_, _, _, balance, _⟩ := second
        obtain ⟨_, _, _, delta, _⟩ := third
        rw [List.map_cons, List.map_cons, List.map_cons, id, balance, delta, List.map_nil]

end OtterWorks.Migration
