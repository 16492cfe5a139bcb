import OtterWorks.Migration.RecordCodec

namespace OtterWorks.Migration

/-! `parse_copybook`: the elementary items of a COBOL record description, each with its bytes of the record. -/

/-- What a `ConfigError` of the copybook says, with what it prints; `number` is an `int` of too many digits. -/
inductive CopybookError
  | notFound
  | cannotParse (stmt : Text)
  | usageWithoutPic (name : Text)
  | occurs
  | unsupportedUsage (raw : Text)
  | cannotBe (pic : Text) (usage : Usage)
  | unsupportedPic (pic : Text)
  | tooManyDigits (pic : Text)
  | number (digits : Text)
  | unterminated (buf : Text)
  | noItems
  | total (offset expected : Nat)
  deriving DecidableEq, Repr

/-- The characters besides the decimal digits that `str.isdigit` takes, Unicode 15.0. -/
def otherDigits : List (Nat × Nat) :=
  [(0xb2, 0xb3), (0xb9, 0xb9), (0x1369, 0x1371), (0x19da, 0x19da), (0x2070, 0x2070), (0x2074, 0x2079), (0x2080, 0x2089),
    (0x2460, 0x2468), (0x2474, 0x247c), (0x2488, 0x2490), (0x24ea, 0x24ea), (0x24f5, 0x24fd), (0x24ff, 0x24ff),
    (0x2776, 0x277e), (0x2780, 0x2788), (0x278a, 0x2792), (0x10a40, 0x10a43), (0x10e60, 0x10e68), (0x11052, 0x1105a),
    (0x1f100, 0x1f10a)]

/-- `str.isdigit()`. -/
def isDigits (s : Text) : Bool :=
  !s.isEmpty && s.all fun c => isDecimal c || otherDigits.any fun r => decide (r.1 ≤ c.toNat ∧ c.toNat ≤ r.2)

/-- `_iter_source_lines`: a line without its sequence and identification areas, if it is no comment and not blank. -/
def sourceLine (raw : Text) : Option Text :=
  if raw[6]? = some '*' ∨ raw[6]? = some '/' then none
  else if (strip raw).head? = some '*' then none
  else
    let line := if 72 < raw.length ∧ isDigits (strip (raw.take 6)) then (raw.take 72).drop 6 else raw
    if strip line = [] then none else some line

/-! `_ITEM_RE`, whose parts leave it one way to match a statement. -/

/-- A letter as a pattern that ignores case compares it. -/
def foldCase (c : Char) : Char :=
  if c.toNat = 0x130 ∨ c.toNat = 0x131 then 'i'
  else if c.toNat = 0x17f then 's'
  else if c.toNat = 0x212a then 'k'
  else c.toLower

/-- `str.upper()` of what such a pattern matched. -/
def upperChar (c : Char) : Char := if c.toNat = 0x131 then 'I' else if c.toNat = 0x17f then 'S' else c.toUpper

def upper (s : Text) : Text := s.map upperChar

def isNameChar (c : Char) : Bool := (foldCase c).isLower || c.isDigit || c == '-'

def isPicChar (c : Char) : Bool := c.isDigit || ['s', 'x', 'v', '(', ')'].contains (foldCase c)

/-- One or more characters of a kind at the front. -/
def someFront (p : Char → Bool) (s : Text) : Option (Text × Text) :=
  if s.takeWhile p = [] then none else some (s.takeWhile p, s.dropWhile p)

def spaces (s : Text) : Option Text := (someFront isSpace s).map Prod.snd

def keyword (word : String) (s : Text) : Option (Text × Text) :=
  let n := word.length
  if (s.take n).map foldCase = (text word).map foldCase then some (s.take n, s.drop n) else none

/-- A keyword that a blank must follow. -/
def word (w : String) (s : Text) : Option Text := (keyword w s).bind fun found => spaces found.2

def pictureClause (s : Text) : Option (Text × Text) := do
  let s ← spaces s
  let s ← (word "PICTURE" s).or (word "PIC" s)
  someFront isPicChar ((word "IS" s).getD s)

def usageWord (s : Text) : Option (Text × Text) :=
  match keyword "COMP" s with
  | some (comp, s) =>
    let (more, s) := (keyword "UTATIONAL" s).getD ([], s)
    let (suffix, s) := ((keyword "-3" s).or (keyword "-5" s)).getD ([], s)
    some (comp ++ more ++ suffix, s)
  | none => (keyword "BINARY" s).or (keyword "PACKED-DECIMAL" s)

def usageClause (s : Text) : Option (Text × Text) := do
  let s ← spaces s
  usageWord (((word "USAGE" s).map fun s => (word "IS" s).getD s).getD s)

structure ItemMatch where
  level : Nat
  name : Text
  pic : Option Text
  usage : Option Text

def optional (clause : Text → Option (Text × Text)) (s : Text) : Option Text × Text :=
  match clause s with
  | some (found, rest) => (some found, rest)
  | none => (none, s)

def matchItem (stmt : Text) : Option ItemMatch := do
  let (level, s) ← digitsFront 2 (stmt.dropWhile isSpace)
  let s ← spaces s
  let (name, s) ← someFront isNameChar s
  let (pic, s) := optional pictureClause s
  let (usage, s) := optional usageClause s
  let s ← literalFront '.' (s.dropWhile isSpace)
  if s.dropWhile isSpace = [] then some ⟨digitsValue level, name, pic, usage⟩ else none

def normalizeUsage : Option Text → Except CopybookError Usage
  | none => .ok .display
  | some raw =>
    let u := String.ofList (upper raw)
    if ["COMP", "COMPUTATIONAL", "COMP-5", "COMPUTATIONAL-5", "BINARY"].contains u then .ok .comp
    else if ["COMP-3", "COMPUTATIONAL-3", "PACKED-DECIMAL"].contains u then .ok .comp3
    else .error (.unsupportedUsage raw)

/-! Pictures. -/

/-- `(?:\((\d+)\))?` -/
def parenthesized (s : Text) : Option Text × Text :=
  match s with
  | '(' :: inner =>
    match inner.takeWhile Char.isDigit, inner.dropWhile Char.isDigit with
    | d :: digits, ')' :: rest => (some (d :: digits), rest)
    | _, _ => (none, s)
  | _ => (none, s)

/-- `_PIC_X_RE` -/
def picX : Text → Option (Option Text)
  | 'X' :: s =>
    match parenthesized s with
    | (n, []) => some n
    | _ => none
  | _ => none

def splitS : Text → Bool × Text
  | 'S' :: s => (true, s)
  | s => (false, s)

/-- `_PIC_9_RE`: whether there is a sign, the digits before the point, and those behind it where there is one. -/
def picNine (pic : Text) : Option (Bool × Option Text × Option (Option Text)) :=
  match splitS pic with
  | (signed, '9' :: s) =>
    match parenthesized s with
    | (n, []) => some (signed, n, none)
    | (n, 'V' :: '9' :: s) =>
      match parenthesized s with
      | (m, []) => some (signed, n, some m)
      | _ => none
    | _ => none
  | _ => none

/-- `int(group or 1)` -/
def groupNumber : Option Text → Except CopybookError Nat
  | none => .ok 1
  | some digits => if digits.length ≤ intDigitsLimit then .ok (digitsValue digits) else .error (.number digits)

structure PicLayout where
  length : Nat
  isNumeric : Bool
  signed : Bool
  digits : Nat
  scale : Nat
  deriving DecidableEq, Repr

/-- `_pic_layout` -/
def picLayout (pic : Text) (usage : Usage) : Except CopybookError PicLayout :=
  match picX pic with
  | some n => do
    if usage ≠ .display then .error (.cannotBe pic usage)
    else .ok ⟨← groupNumber n, false, false, 0, 0⟩
  | none =>
    match picNine pic with
    | none => .error (.unsupportedPic pic)
    | some (signed, whole, fraction) => do
      let whole ← groupNumber whole
      let scale ← fraction.elim (.ok 0) groupNumber
      match picLength usage (whole + scale) with
      | some length => .ok ⟨length, true, signed, whole + scale, scale⟩
      | none => .error (.tooManyDigits pic)

/-- The copybook's `Field`: an elementary item, as long as its picture says. -/
structure Item where
  name : Text
  pic : Text
  field : Field
  isNumeric : Bool
  signed : Bool
  digits : Nat
  layout : picLayout pic field.usage = .ok ⟨field.length, isNumeric, signed, digits, field.scale⟩

def Item.filler (item : Item) : Bool := upper item.name == text "FILLER"

structure Copybook where
  fields : List Item
  recordLength : Nat

/-- What one statement adds at an offset: nothing, for a group item. -/
def parseStatement (stmt : Text) (offset : Nat) : Except CopybookError (Option Item) :=
  match matchItem stmt with
  | none => .error (.cannotParse stmt)
  | some m =>
    match m.pic with
    | none =>
      if m.level ∈ [1, 66, 77, 88] ∨ m.usage = none then .ok none else .error (.usageWithoutPic m.name)
    | some pic =>
      if text "OCCURS" <:+: upper stmt then .error .occurs
      else
        match normalizeUsage m.usage with
        | .error e => .error e
        | .ok usage =>
          match made : picLayout (upper pic) usage with
          | .error e => .error e
          | .ok l =>
            .ok (some ⟨upper m.name, upper pic, ⟨usage, offset, l.length, l.scale⟩, l.isNumeric, l.signed, l.digits, made⟩)

/-- The lines of the copybook one after another: the statement that is open, the items, and the bytes they take. -/
def parseLines : List Text → Text → List Item → Nat → Except CopybookError (Text × List Item × Nat)
  | [], buf, fields, offset => .ok (buf, fields, offset)
  | line :: lines, buf, fields, offset =>
    let buf := strip (buf ++ ' ' :: strip line)
    if buf.getLast? ≠ some '.' then parseLines lines buf fields offset
    else do
      match ← parseStatement buf offset with
      | none => parseLines lines [] fields offset
      | some item => parseLines lines [] (fields ++ [item]) (offset + item.field.length)

/-- `parse_copybook` of the lines of the file, if there is one. -/
def parseCopybook (file : Option (List Text)) (expectedRecordLength : Option Nat) : Except CopybookError Copybook :=
  match file with
  | none => .error .notFound
  | some lines => do
    let (buf, fields, offset) ← parseLines (lines.filterMap sourceLine) [] [] 0
    if buf ≠ [] then .error (.unterminated buf)
    else if fields = [] then .error .noItems
    else
      match expectedRecordLength with
      | some expected => if offset ≠ expected then .error (.total offset expected) else .ok ⟨fields, offset⟩
      | none => .ok ⟨fields, offset⟩

def Copybook.Tiled (book : Copybook) : Prop :=
  OtterWorks.Tiled (fun item : Item => item.field.offset) (fun item => item.field.length) 0 book.fields book.recordLength

section

variable {lines : List Text} {stmt buf rest : Text} {fields done : List Item} {item : Item} {offset total : Nat}
  {file : Option (List Text)} {expected : Option Nat} {book : Copybook}

theorem parseStatement_offset (h : parseStatement stmt offset = .ok (some item)) : item.field.offset = offset := by
  unfold parseStatement at h
  split at h
  next => cases h
  next m found =>
    split at h
    next =>
      split at h
      · cases h
      · cases h
    next pic here =>
      split at h
      · cases h
      · split at h
        next => cases h
        next =>
          split at h
          next => cases h
          next =>
            cases h
            rfl

/-- The items fill the record up to the offset that the next one gets. -/
theorem parseLines_tiled (h : parseLines lines buf done offset = .ok (rest, fields, total))
    (tiled : Tiled (fun item : Item => item.field.offset) (fun item => item.field.length) 0 done offset) :
    Tiled (fun item : Item => item.field.offset) (fun item => item.field.length) 0 fields total := by
  induction lines generalizing buf done offset with
  | nil =>
    cases h
    exact tiled
  | cons line lines ih =>
    rw [parseLines] at h
    split at h
    next => exact ih h tiled
    next =>
      obtain ⟨read, parsed, h⟩ := bind_ok h
      cases read with
      | none => exact ih h tiled
      | some item =>
        apply ih h
        apply tiled.append
        exact ⟨parseStatement_offset parsed, rfl⟩

theorem parseCopybook_tiled (h : parseCopybook file expected = .ok book) :
    book.Tiled ∧ book.fields ≠ [] ∧ ∀ n, expected = some n → book.recordLength = n := by
  unfold parseCopybook at h
  split at h
  next => cases h
  next lines =>
    obtain ⟨⟨buf, fields, offset⟩, parsed, h⟩ := bind_ok h
    have tiled := parseLines_tiled parsed rfl
    simp only at h
    split at h
    next => cases h
    next =>
      split at h
      next => cases h
      next some =>
        split at h
        next n =>
          split at h
          next => cases h
          next same =>
            cases h
            refine ⟨tiled, some, ?_⟩
            intro m is
            cases is
            exact Decidable.not_not.mp same
        next =>
          cases h
          exact ⟨tiled, some, fun _ is => by cases is⟩

/-- The items of an accepted copybook are cut from the record one after another, with no byte left out and none in two. -/
theorem copybook_tiles_record (h : parseCopybook file expected = .ok book) :
    (∀ n, expected = some n → book.recordLength = n) ∧
    (book.fields.Pairwise fun item item' => item.field.offset + item.field.length ≤ item'.field.offset) ∧
    (∀ i < book.recordLength, ∃ item ∈ book.fields, item.field.offset ≤ i ∧ i < item.field.offset + item.field.length) ∧
    ∀ record : Raw, record.length = book.recordLength →
      (book.fields.flatMap fun item => item.field.slice record) = record := by
  obtain ⟨tiled, _, total⟩ := parseCopybook_tiled h
  refine ⟨total, tiled.pairwise, fun i inside => tiled.covers (Nat.zero_le i) inside, ?_⟩
  intro record length
  have whole := tiled.flatMap_slices record
  rw [List.drop_zero, Nat.sub_zero, ← length, List.take_length] at whole
  exact whole

end

/-- A record of three items and a filler. -/
def accountLines : List Text :=
  ["      * ACCOUNT  LRECL 9", "       01  AC-REC.", "           05  AC-ID               PIC X(3).",
    "           05  AC-BAL              PIC S9(3)V9(2)", "                                   COMP-3.",
    "           05  AC-DELTA            PIC S9(4) COMP.", "           05  FILLER              PIC X."].map text

theorem account_record_sliced : ∃ book, parseCopybook (some accountLines) (some 9) = .ok book ∧
    ∀ record : Raw, record.length = 9 → (book.fields.flatMap fun item => item.field.slice record) = record := by
  have accepted : (parseCopybook (some accountLines) (some 9)).isOk = true := by decide +kernel
  obtain ⟨book, parsed⟩ := exists_of_isOk accepted
  obtain ⟨total, _, _, sliced⟩ := copybook_tiles_record parsed
  refine ⟨book, parsed, ?_⟩
  rw [← total 9 rfl]
  exact sliced

end OtterWorks.Migration
