import OtterWorks.Migration.Record

namespace OtterWorks.Migration

/-- A `datetime`, down to the microsecond. -/
structure DateTime where
  year : Nat
  month : Nat
  day : Nat
  hour : Nat
  minute : Nat
  second : Nat
  microsecond : Nat
  deriving DecidableEq, Repr

structure Timestamp12 where
  text : Text
  dt : DateTime
  nanosTail : Nat
  deriving DecidableEq, Repr

namespace Timestamp12

def parse (s : Text) : Option Timestamp12 := do
  match ← timestamp12Groups s with
  | ([y, mo, d, h, mi, sec], frac) =>
    if dateError y mo d = none ∧ h < 24 ∧ mi < 60 ∧ sec < 60 then
      some ⟨s, ⟨y, mo, d, h, mi, sec, digitsValue (frac.take 6)⟩, digitsValue (frac.drop 7)⟩
    else none
  | _ => none

def fraction7 (ts : Timestamp12) : Text := (ts.text.drop 20).take 7

def datetime2Literal (ts : Timestamp12) : Text :=
  ts.text.take 10 ++ ' ' :: ((ts.text.drop 11).take 2 ++ ':' :: ((ts.text.drop 14).take 2 ++
    ':' :: ((ts.text.drop 17).take 2 ++ '.' :: ts.fraction7)))

/-- `split(sep, 1)` of a text that has the separator. -/
def splitOnce (sep : Char) (s : Text) : Option (Text × Text) :=
  match s.dropWhile (· ≠ sep) with
  | [] => none
  | _ :: rest => some (s.takeWhile (· ≠ sep), rest)

/-- The text rebuilt from a DATETIME2(7) literal and the tail, which parses or does not. -/
def fromTarget (dt2Text : Text) (nanosTail : Nat) : Option Timestamp12 := do
  let (hh, t) ← splitOnce ':' (dt2Text.drop 11)
  let (mm, rest) ← splitOnce ':' t
  let (ss, frac) := (splitOnce '.' rest).getD (rest, [])
  parse (dt2Text.take 10 ++ '-' :: (hh ++ '.' :: (mm ++ '.' :: (ss ++ '.' ::
    ((frac ++ List.replicate 7 '0').take 7 ++ zeroPad 5 nanosTail)))))

end Timestamp12

/-- `split_timestamp12`: the microseconds, and the number of the fraction digits after them. -/
def splitTimestamp12 (ts : Timestamp12) : DateTime × Nat := (ts.dt, digitsValue ((ts.text.drop 26).take 6))

/-- `strftime("%Y-%m-%d-%H.%M.%S.%f")`: the platform pads the year to four digits or does not. -/
def strftime (zeroPads : Bool) (dt : DateTime) : Text :=
  (if zeroPads then zeroPad 4 dt.year else Nat.toDigits 10 dt.year) ++ '-' :: (zeroPad 2 dt.month ++
    '-' :: (zeroPad 2 dt.day ++ '-' :: (zeroPad 2 dt.hour ++ '.' :: (zeroPad 2 dt.minute ++
      '.' :: (zeroPad 2 dt.second ++ '.' :: zeroPad 6 dt.microsecond)))))

def joinTimestamp12 (zeroPads : Bool) (dt : DateTime) (tail6 : Nat) : Option Timestamp12 :=
  Timestamp12.parse (strftime zeroPads dt ++ zeroPad 6 tail6)

section

variable {s : Text} {ts : Timestamp12} {n : Nat}

/-- The digits of a timestamp, piece by piece. -/
structure Pieces where
  year : Text
  month : Text
  day : Text
  hour : Text
  minute : Text
  second : Text
  fraction : Text

/-- The pieces have their lengths and are decimal digits. -/
structure Pieces.Fit (p : Pieces) : Prop where
  year : p.year.length = 4 ∧ p.year.all isDecimal
  month : p.month.length = 2 ∧ p.month.all isDecimal
  day : p.day.length = 2 ∧ p.day.all isDecimal
  hour : p.hour.length = 2 ∧ p.hour.all isDecimal
  minute : p.minute.length = 2 ∧ p.minute.all isDecimal
  second : p.second.length = 2 ∧ p.second.all isDecimal
  fraction : p.fraction.length = 12 ∧ p.fraction.all isDecimal

def Pieces.text (p : Pieces) : Text :=
  p.year ++ '-' :: (p.month ++ '-' :: (p.day ++ '-' :: (p.hour ++ '.' :: (p.minute ++ '.' :: (p.second ++
    '.' :: p.fraction)))))

/-- What the pattern of a timestamp matches. -/
theorem timestamp12Groups_eq {values : List Nat} {frac : Text} :
    timestamp12Groups s = some (values, frac) ↔ ∃ (p : Pieces) (rest : Text), p.Fit ∧ s = p.text ++ rest ∧
      atEnd rest = true ∧ p.fraction = frac ∧
      values = [p.year, p.month, p.day, p.hour, p.minute, p.second].map digitsValue := by
  simp only [timestamp12Groups, bind, Option.bind_eq_some_iff, Prod.exists, digitsFront_eq, literalFront_eq]
  constructor
  · rintro ⟨y, _, ⟨rfl, hy⟩, _, rfl, mo, _, ⟨rfl, hmo⟩, _, rfl, d, _, ⟨rfl, hd⟩, _, rfl, h, _, ⟨rfl, hh⟩, _, rfl, mi, _,
      ⟨rfl, hmi⟩, _, rfl, sec, _, ⟨rfl, hsec⟩, _, rfl, f, rest, ⟨rfl, hf⟩, ends⟩
    split at ends
    next ended =>
      cases Option.some.inj ends
      refine ⟨⟨y, mo, d, h, mi, sec, frac⟩, rest, ⟨hy, hmo, hd, hh, hmi, hsec, hf⟩, ?_, ended, rfl, rfl⟩
      simp [Pieces.text]
    next => cases ends
  · rintro ⟨⟨y, mo, d, h, mi, sec, f⟩, rest, ⟨hy, hmo, hd, hh, hmi, hsec, hf⟩, rfl, ended, rfl, rfl⟩
    refine ⟨y, _, ⟨by simp [Pieces.text], hy⟩, _, rfl, mo, _, ⟨rfl, hmo⟩, _, rfl, d, _, ⟨rfl, hd⟩, _, rfl, h, _,
      ⟨rfl, hh⟩, _, rfl, mi, _, ⟨rfl, hmi⟩, _, rfl, sec, _, ⟨rfl, hsec⟩, _, rfl, f, rest, ⟨rfl, hf⟩, ?_⟩
    rw [if_pos ended]

/-- The pieces name a moment. -/
def Pieces.Valid (p : Pieces) : Prop :=
  dateError (digitsValue p.year) (digitsValue p.month) (digitsValue p.day) = none ∧ digitsValue p.hour < 24 ∧
    digitsValue p.minute < 60 ∧ digitsValue p.second < 60

def Pieces.dt (p : Pieces) : DateTime :=
  ⟨digitsValue p.year, digitsValue p.month, digitsValue p.day, digitsValue p.hour, digitsValue p.minute,
    digitsValue p.second, digitsValue (p.fraction.take 6)⟩

theorem parse_eq : Timestamp12.parse s = some ts ↔ ∃ (p : Pieces) (rest : Text), p.Fit ∧ p.Valid ∧ atEnd rest = true ∧
    s = p.text ++ rest ∧ ts = ⟨s, p.dt, digitsValue (p.fraction.drop 7)⟩ := by
  simp only [Timestamp12.parse, bind, Option.bind_eq_some_iff, Prod.exists, timestamp12Groups_eq]
  constructor
  · rintro ⟨_, _, ⟨p, rest, fit, rfl, ended, rfl, rfl⟩, made⟩
    simp only [List.map_cons, List.map_nil] at made
    split at made
    next valid =>
      cases Option.some.inj made
      exact ⟨p, rest, fit, valid, ended, rfl, rfl⟩
    next => cases made
  · rintro ⟨p, rest, fit, valid, ended, rfl, rfl⟩
    refine ⟨_, _, ⟨p, rest, fit, rfl, ended, rfl, rfl⟩, ?_⟩
    exact if_pos valid

/-- The record's conversion accepts exactly the texts that parse. -/
theorem timestamp12Tail_eq : timestamp12Tail s = (Timestamp12.parse s).map (·.nanosTail) := by
  simp only [timestamp12Tail, Timestamp12.parse, bind]
  cases timestamp12Groups s with
  | none => rfl
  | some groups =>
    simp only [Option.bind_some]
    split
    next y mo d h mi sec frac =>
      by_cases valid : dateError y mo d = none ∧ h < 24 ∧ mi < 60 ∧ sec < 60
      · simp only [if_pos valid, Option.map_some]
      · simp only [if_neg valid, Option.map_none]
    next other =>
      obtain ⟨list, frac⟩ := groups
      rcases list with _ | ⟨y, _ | ⟨mo, _ | ⟨d, _ | ⟨h, _ | ⟨mi, _ | ⟨sec, _ | ⟨more, rest⟩⟩⟩⟩⟩⟩⟩
      case cons.cons.cons.cons.cons.cons.nil => exact absurd rfl (other y mo d h mi sec frac)
      all_goals rfl

theorem splitOnce_eq {a rest : Text} {sep : Char} (free : ∀ c ∈ a, c ≠ sep) :
    Timestamp12.splitOnce sep (a ++ sep :: rest) = some (a, rest) := by
  have passes : ∀ c ∈ a, decide (c ≠ sep) = true := fun c hc => decide_eq_true (free c hc)
  rw [Timestamp12.splitOnce, List.dropWhile_append_of_pos passes, List.takeWhile_append_of_pos passes]
  simp

theorem not_separator {a : Text} (digits : a.all isDecimal = true) {sep : Char} (other : isDecimal sep = false) :
    ∀ c ∈ a, c ≠ sep := by
  rintro c hc rfl
  have decimal := List.all_eq_true.mp digits c hc
  rw [other] at decimal
  cases decimal

section

variable {p : Pieces} {rest : Text}

theorem Pieces.Fit.split (fit : p.Fit) {nanosTail : Nat} {dt : DateTime} :
    splitTimestamp12 ⟨p.text ++ rest, dt, nanosTail⟩ = (dt, digitsValue (p.fraction.drop 6)) := by
  have tail : ((p.text ++ rest).drop 26).take 6 = p.fraction.drop 6 := by
    simp [Pieces.text, List.drop_append, List.drop_of_length_le, fit.year.1, fit.month.1, fit.day.1, fit.hour.1,
      fit.minute.1, fit.second.1, fit.fraction.1]
  rw [splitTimestamp12, tail]

/-- The literal of a timestamp. -/
theorem Pieces.Fit.literal (fit : p.Fit) {nanosTail : Nat} {dt : DateTime} :
    Timestamp12.datetime2Literal ⟨p.text ++ rest, dt, nanosTail⟩ =
      (p.year ++ '-' :: (p.month ++ '-' :: p.day)) ++ ' ' :: (p.hour ++ ':' :: (p.minute ++ ':' :: (p.second ++
        '.' :: p.fraction.take 7))) := by
  simp [Timestamp12.datetime2Literal, Timestamp12.fraction7, Pieces.text, List.drop_append, List.take_append,
    List.drop_of_length_le, List.take_of_length_le, fit.year.1, fit.month.1, fit.day.1, fit.hour.1, fit.minute.1,
    fit.second.1, fit.fraction.1]

theorem Pieces.Fit.fromTarget (fit : p.Fit) (nanosTail : Nat) :
    Timestamp12.fromTarget ((p.year ++ '-' :: (p.month ++ '-' :: p.day)) ++ ' ' :: (p.hour ++ ':' :: (p.minute ++
        ':' :: (p.second ++ '.' :: p.fraction.take 7)))) nanosTail =
      Timestamp12.parse { p with fraction := p.fraction.take 7 ++ zeroPad 5 nanosTail }.text := by
  have date : (p.year ++ '-' :: (p.month ++ '-' :: p.day)).length = 10 := by
    simp [fit.year.1, fit.month.1, fit.day.1]
  have clock : ((p.year ++ '-' :: (p.month ++ '-' :: p.day)) ++ ' ' :: (p.hour ++ ':' :: (p.minute ++ ':' :: (p.second ++
      '.' :: p.fraction.take 7)))).drop 11 = p.hour ++ ':' :: (p.minute ++ ':' :: (p.second ++ '.' :: p.fraction.take 7)) := by
    rw [List.drop_append, date, List.drop_of_length_le (by omega)]
    rfl
  have filled : (p.fraction.take 7 ++ List.replicate 7 '0').take 7 = p.fraction.take 7 := by
    have length : (p.fraction.take 7).length = 7 := by simp [fit.fraction.1]
    exact List.take_left' length
  have day : ((p.year ++ '-' :: (p.month ++ '-' :: p.day)) ++ ' ' :: (p.hour ++ ':' :: (p.minute ++ ':' :: (p.second ++
      '.' :: p.fraction.take 7)))).take 10 = p.year ++ '-' :: (p.month ++ '-' :: p.day) := by
    exact List.take_left' date
  have colon : isDecimal ':' = false := by decide
  have point : isDecimal '.' = false := by decide
  rw [Timestamp12.fromTarget, clock, splitOnce_eq (not_separator fit.hour.2 colon), day]
  simp only [bind, Option.bind_some, splitOnce_eq (not_separator fit.minute.2 colon),
    splitOnce_eq (not_separator fit.second.2 point), Option.getD_some, filled]
  simp [Pieces.text]

/-- An ASCII timestamp and nothing more. -/
def Plain (s : Text) : Prop := s.length = 32 ∧ ∀ c ∈ s, c.toNat < 128

theorem Pieces.Fit.length (fit : p.Fit) : p.text.length = 32 := by
  simp [Pieces.text, fit.year.1, fit.month.1, fit.day.1, fit.hour.1, fit.minute.1, fit.second.1, fit.fraction.1]

theorem ascii_digits {a : Text} (decimal : a.all isDecimal = true) (ascii : ∀ c ∈ a, c.toNat < 128) :
    ∀ c ∈ a, c.isDigit := fun c hc => isDigit_of_isDecimal (List.all_eq_true.mp decimal c hc) (ascii c hc)

/-- A piece is its number, padded. -/
theorem zeroPad_piece {a : Text} {k : Nat} (digits : ∀ c ∈ a, c.isDigit) (length : a.length = k) (pos : 0 < k) :
    zeroPad k (digitsValue a) = a := by
  subst length
  exact zeroPad_digitsValue digits (List.length_pos_iff.mp pos)

theorem strftime_plain {zeroPads : Bool} {dt : DateTime} {k : Nat} {c : Char}
    (h : c ∈ strftime zeroPads dt ++ zeroPad 6 k) : c.isDigit ∨ c = '-' ∨ c = '.' := by
  have yearText : ∀ x ∈ (if zeroPads then zeroPad 4 dt.year else Nat.toDigits 10 dt.year), x.isDigit := by
    cases zeroPads with
    | true => exact fun x hx => isDigit_zeroPad hx
    | false => exact fun x hx => Nat.isDigit_of_mem_toDigits (by omega) (by omega) hx
  simp only [strftime, List.mem_append, List.mem_cons] at h
  rcases h with (h | rfl | h | rfl | h | rfl | h | rfl | h | rfl | h | rfl | h) | h
  · exact .inl (yearText c h)
  all_goals first
    | exact .inr (.inl rfl)
    | exact .inr (.inr rfl)
    | exact .inl (isDigit_zeroPad h)

/-- Of an ASCII timestamp, every piece is what is written for its number, the year if it is padded or has four digits. -/
theorem Pieces.Fit.joined (fit : p.Fit) (ascii : ∀ c ∈ p.text, c.toNat < 128) {zeroPads : Bool}
    (wide : zeroPads = true ∨ p.year.head? ≠ some '0') :
    strftime zeroPads p.dt ++ zeroPad 6 (digitsValue (p.fraction.drop 6)) = p.text := by
  have inside : ∀ a : Text, (∀ c ∈ a, c ∈ p.text) → ∀ c ∈ a, c.toNat < 128 := fun a h c hc => ascii c (h c hc)
  have year : ∀ c ∈ p.year, c.isDigit := ascii_digits fit.year.2 (inside _ fun c hc => by simp [Pieces.text, hc])
  have month : ∀ c ∈ p.month, c.isDigit := ascii_digits fit.month.2 (inside _ fun c hc => by simp [Pieces.text, hc])
  have day : ∀ c ∈ p.day, c.isDigit := ascii_digits fit.day.2 (inside _ fun c hc => by simp [Pieces.text, hc])
  have hour : ∀ c ∈ p.hour, c.isDigit := ascii_digits fit.hour.2 (inside _ fun c hc => by simp [Pieces.text, hc])
  have minute : ∀ c ∈ p.minute, c.isDigit := ascii_digits fit.minute.2 (inside _ fun c hc => by simp [Pieces.text, hc])
  have second : ∀ c ∈ p.second, c.isDigit := ascii_digits fit.second.2 (inside _ fun c hc => by simp [Pieces.text, hc])
  have fraction : ∀ c ∈ p.fraction, c.isDigit :=
    ascii_digits fit.fraction.2 (inside _ fun c hc => by simp [Pieces.text, hc])
  have micro : zeroPad 6 (digitsValue (p.fraction.take 6)) = p.fraction.take 6 :=
    zeroPad_piece (fun c hc => fraction c (List.mem_of_mem_take hc)) (by simp [fit.fraction.1]) (by omega)
  have tail : zeroPad 6 (digitsValue (p.fraction.drop 6)) = p.fraction.drop 6 :=
    zeroPad_piece (fun c hc => fraction c (List.mem_of_mem_drop hc)) (by simp [fit.fraction.1]) (by omega)
  have nonempty : p.year ≠ [] := by
    have length := fit.year.1
    intro none
    rw [none] at length
    exact absurd length (by decide)
  have yearText : (if zeroPads then zeroPad 4 (digitsValue p.year) else Nat.toDigits 10 (digitsValue p.year)) = p.year := by
    cases zeroPads with
    | true => exact zeroPad_piece year fit.year.1 (by omega)
    | false =>
      rcases wide with pads | leading
      · cases pads
      · exact toDigits_digitsValue year nonempty leading
  have two : ∀ {a : Text}, (∀ c ∈ a, c.isDigit) → a.length = 2 → zeroPad 2 (digitsValue a) = a :=
    fun digits length => zeroPad_piece digits length (by omega)
  simp only [strftime, Pieces.dt]
  rw [yearText, two month fit.month.1, two day fit.day.1, two hour fit.hour.1, two minute fit.minute.1,
    two second fit.second.1, micro, tail]
  simp [Pieces.text]

/-- A year that begins with a zero is written with fewer than its four digits unless it is padded. -/
theorem Pieces.Fit.leading (fit : p.Fit) (year : ∀ c ∈ p.year, c.isDigit) (zero : p.year.head? = some '0') :
    (Nat.toDigits 10 (digitsValue p.year)).length < p.year.length := by
  obtain ⟨tail, shape⟩ : ∃ tail, p.year = '0' :: tail := List.head?_eq_some_iff.mp zero
  have length := fit.year.1
  have digits : ∀ c ∈ tail, c.isDigit := fun c hc => year c (shape ▸ List.mem_cons_of_mem _ hc)
  rw [shape, List.length_cons] at length
  have nonempty : tail ≠ [] := by
    intro none
    rw [none] at length
    cases length
  have value : digitsValue p.year = digitsValue tail := by
    rw [shape]
    rfl
  have small := digitsValue_lt digits nonempty
  have short : Decimal.digitCount (digitsValue tail) ≤ tail.length :=
    (Decimal.digitCount_le_iff (List.length_pos_iff.mpr nonempty)).mpr small
  rw [value, shape, List.length_cons]
  exact Nat.lt_succ_of_le short

theorem atEnd_eq (ended : atEnd rest = true) : rest = [] ∨ rest = ['\n'] := by
  simpa [atEnd] using ended

end

/-- A timestamp comes back from both targets exactly if its text is ASCII without a line break, and its year is padded
by the platform or needs no padding. -/
theorem timestamp12_round_trip_iff (zeroPads : Bool) (h : Timestamp12.parse s = some ts) :
    (joinTimestamp12 zeroPads (splitTimestamp12 ts).1 (splitTimestamp12 ts).2 = some ts ∧
        Timestamp12.fromTarget ts.datetime2Literal ts.nanosTail = some ts) ↔
      Plain s ∧ (zeroPads = true ∨ s.head? ≠ some '0') := by
  obtain ⟨p, rest, fit, valid, ended, rfl, rfl⟩ := parse_eq.mp h
  have year : p.year ≠ [] := by
    intro none
    have length := fit.year.1
    rw [none] at length
    cases length
  have head : (p.text ++ rest).head? = p.year.head? := by
    rw [Pieces.text, List.append_assoc, List.head?_append_of_ne_nil _ year]
  rw [fit.split, fit.literal, fit.fromTarget, joinTimestamp12, head]
  constructor
  · rintro ⟨joined, _⟩
    have written : p.text ++ rest = strftime zeroPads p.dt ++ zeroPad 6 (digitsValue (p.fraction.drop 6)) := by
      obtain ⟨q, rest', _, _, _, _, made⟩ := parse_eq.mp joined
      exact congrArg Timestamp12.text made
    have characters : ∀ c ∈ p.text ++ rest, c.isDigit ∨ c = '-' ∨ c = '.' :=
      fun c hc => strftime_plain (written ▸ hc)
    have ascii : ∀ c ∈ p.text ++ rest, c.toNat < 128 := by
      intro c hc
      rcases characters c hc with digit | rfl | rfl
      · have bounds := toNat_of_isDigit digit
        omega
      · decide
      · decide
    have whole : rest = [] := by
      rcases atEnd_eq ended with none | line
      · exact none
      · have breaks := characters '\n' (by simp [line])
        exact absurd breaks (by decide)
    subst whole
    refine ⟨⟨by rw [List.append_nil, fit.length], ascii⟩, ?_⟩
    by_contra unpadded
    rw [not_or, not_not, Bool.not_eq_true] at unpadded
    obtain ⟨rfl, zero⟩ := unpadded
    have digits : ∀ c ∈ p.year, c.isDigit :=
      ascii_digits fit.year.2 fun c hc => ascii c (by simp [Pieces.text, hc])
    have short := fit.leading digits zero
    -- the dash after the shorter year stands where the text still has digits of the year
    simp only [List.append_nil, Pieces.text, strftime, Bool.false_eq_true, if_false, List.append_assoc] at written
    rcases List.append_eq_append_iff.mp written with ⟨more, longer, _⟩ | ⟨more, shape, others⟩
    · have longer : Nat.toDigits 10 (digitsValue p.year) = p.year ++ more := longer
      have length := congrArg List.length longer
      rw [List.length_append] at length
      omega
    · have shape : p.year = Nat.toDigits 10 (digitsValue p.year) ++ more := shape
      cases more with
      | nil =>
        rw [List.append_nil] at shape
        rw [← shape] at short
        exact absurd short (Nat.lt_irrefl _)
      | cons c more =>
        obtain ⟨rfl, _⟩ := List.cons.inj others
        have dash := digits '-' (by rw [shape]; simp)
        exact absurd dash (by decide)
  · rintro ⟨⟨length, ascii⟩, wide⟩
    have none : rest = [] := by
      rw [List.length_append, fit.length] at length
      exact List.length_eq_zero_iff.mp (by omega)
    subst none
    rw [List.append_nil] at ascii h ⊢
    have fraction : ∀ c ∈ p.fraction, c.isDigit :=
      ascii_digits fit.fraction.2 fun c hc => ascii c (by simp [Pieces.text, hc])
    have nanos : zeroPad 5 (digitsValue (p.fraction.drop 7)) = p.fraction.drop 7 :=
      zeroPad_piece (fun c hc => fraction c (List.mem_of_mem_drop hc)) (by simp [fit.fraction.1]) (by omega)
    rw [fit.joined ascii wide, nanos, List.take_append_drop]
    exact ⟨h, h⟩

def lastMoment : Timestamp12 :=
  ⟨text "9999-12-31-23.59.59.999999999999", ⟨9999, 12, 31, 23, 59, 59, 999999⟩, 99999⟩

theorem last_moment_returns : joinTimestamp12 false (splitTimestamp12 lastMoment).1 (splitTimestamp12 lastMoment).2 =
      some lastMoment ∧ Timestamp12.fromTarget lastMoment.datetime2Literal lastMoment.nanosTail = some lastMoment := by
  have ascii : (text "9999-12-31-23.59.59.999999999999").all (fun c => decide (c.toNat < 128)) = true := by decide +kernel
  have plain : Plain (text "9999-12-31-23.59.59.999999999999") := by
    refine ⟨rfl, ?_⟩
    intro c hc
    exact of_decide_eq_true (List.all_eq_true.mp ascii c hc)
  exact (timestamp12_round_trip_iff (s := text "9999-12-31-23.59.59.999999999999") false (by decide +kernel)).mpr
    ⟨plain, .inr (by decide +kernel)⟩

/-- A year of three digits does not come back where `strftime` does not pad it, though it does from the other target. -/
theorem year_999_lost : ¬ ∀ (zeroPads : Bool) (s : Text) (ts : Timestamp12), Timestamp12.parse s = some ts →
    joinTimestamp12 zeroPads (splitTimestamp12 ts).1 (splitTimestamp12 ts).2 = some ts ∧
      Timestamp12.fromTarget ts.datetime2Literal ts.nanosTail = some ts := by
  intro h
  have made : Timestamp12.parse (text "0999-12-31-23.59.59.999999999999") =
      some ⟨text "0999-12-31-23.59.59.999999999999", ⟨999, 12, 31, 23, 59, 59, 999999⟩, 99999⟩ := by decide +kernel
  have joined := (h false _ _ made).1
  exact absurd joined (by decide +kernel)

end

end OtterWorks.Migration
