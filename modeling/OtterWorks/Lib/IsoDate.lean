import OtterWorks.Lib.Calendar
import OtterWorks.Lib.Literals
import Mathlib.Data.List.Basic

namespace OtterWorks.IsoDate

/-- The year of an ISO date: four digits, or more with their sign. -/
def parseYear : Text → Option Int
  | '+' :: s => if s.all Char.isDigit ∧ 5 ≤ s.length ∧ s.length ≤ 10 then some (digitsValue s) else none
  | '-' :: s => if s.all Char.isDigit ∧ 4 ≤ s.length ∧ s.length ≤ 10 ∧ digitsValue s ≠ 0 then some (-digitsValue s) else none
  | s => if s.all Char.isDigit ∧ s.length = 4 then some (digitsValue s) else none

def parseCivil (s : Text) : Option Civil :=
  match s.reverse with
  | d :: d' :: '-' :: m :: m' :: '-' :: year =>
    if [m', m, d', d].all Char.isDigit then
      (parseYear year.reverse).map fun y => ⟨y, digitsValue [m', m], digitsValue [d', d]⟩
    else none
  | _ => none

/-- `LocalDate.parse`, as days since 1970-01-01. -/
def parse (s : Text) : Option Int := do
  let c ← parseCivil s
  if -999999999 ≤ c.year ∧ c.year ≤ 999999999 ∧ Civil.ofDays c.toDays = c then some c.toDays else none

/-- `LocalDate.toString`. -/
def print (days : Int) : Text :=
  let c := Civil.ofDays days
  let sign := if c.year < 0 then ['-'] else if 9999 < c.year then ['+'] else []
  sign ++ zeroPad 4 c.year.natAbs ++ ['-'] ++ zeroPad 2 c.month.natAbs ++ ['-'] ++ zeroPad 2 c.day.natAbs

/-- The cast of such a text to `DATE`, which knows no year 0, and of others only four digits: it is kept as that text. -/
def cast (s : Text) : Option Text := do
  let c ← parseCivil s
  if 1 ≤ c.year ∧ c.year ≤ 9999 ∧ Civil.ofDays c.toDays = c then some s else none

section

variable {days days' y z : Int} {s : Text}

theorem parseYear_digits (digits : ∀ c ∈ s, c.isDigit) :
    parseYear s = if s.length = 4 then some (digitsValue s : Int) else none := by
  unfold parseYear
  split
  next => exact absurd (digits '+' (List.mem_cons_self ..)) (by decide)
  next => exact absurd (digits '-' (List.mem_cons_self ..)) (by decide)
  next => simp [List.all_eq_true.mpr digits]

/-- The text of a year: it has a sign unless it has four digits. -/
def yearText (y : Int) : Text := (if y < 0 then ['-'] else if 9999 < y then ['+'] else []) ++ zeroPad 4 y.natAbs

/-- No text of a year is read as another one. -/
theorem parseYear_yearText_some (h : parseYear (yearText y) = some z) : z = y := by
  have value : digitsValue (zeroPad 4 y.natAbs) = y.natAbs := digitsValue_zeroPad
  rw [yearText] at h
  by_cases below : y < 0
  · rw [if_pos below, List.singleton_append, parseYear] at h
    obtain ⟨-, same⟩ := Option.ite_none_right_eq_some.mp h
    rw [← Option.some.inj same, value]
    omega
  by_cases above : 9999 < y
  · rw [if_neg below, if_pos above, List.singleton_append, parseYear] at h
    obtain ⟨-, same⟩ := Option.ite_none_right_eq_some.mp h
    rw [← Option.some.inj same, value]
    omega
  · rw [if_neg below, if_neg above, List.nil_append, parseYear_digits fun _ => isDigit_zeroPad] at h
    obtain ⟨-, same⟩ := Option.ite_none_right_eq_some.mp h
    rw [← Option.some.inj same, value]
    omega

theorem parseYear_yearText (first : 0 ≤ y) (last : y ≤ 9999) : parseYear (yearText y) = some y := by
  have length : (zeroPad 4 y.natAbs).length = 4 := length_zeroPad ((Decimal.digitCount_le_iff (by omega)).mpr (by omega))
  have value : digitsValue (zeroPad 4 y.natAbs) = y.natAbs := digitsValue_zeroPad
  rw [yearText, if_neg (by omega), if_neg (by omega), List.nil_append, parseYear_digits fun _ => isDigit_zeroPad,
    if_pos length, value]
  congr 1
  omega

theorem parseCivil_print : parseCivil (print days) =
    (parseYear (yearText (Civil.ofDays days).year)).map fun y => ⟨y, (Civil.ofDays days).month, (Civil.ofDays days).day⟩ := by
  have ranges := Civil.ofDays_ranges days
  have pair (n : Int) (small : 1 ≤ n ∧ n ≤ 31) : ∃ a b, zeroPad 2 n.natAbs = [a, b] ∧ (digitsValue [a, b] : Int) = n ∧
      a.isDigit ∧ b.isDigit := by
    have length : (zeroPad 2 n.natAbs).length = 2 := length_zeroPad ((Decimal.digitCount_le_iff (by omega)).mpr (by omega))
    obtain ⟨a, b, two⟩ := List.length_eq_two.mp length
    have digits : ∀ c ∈ [a, b], c.isDigit := by
      rw [← two]
      exact fun _ => isDigit_zeroPad
    refine ⟨a, b, two, ?_, digits a (by simp), digits b (by simp)⟩
    rw [← two, digitsValue_zeroPad]
    omega
  obtain ⟨m, m', month, monthValue, hm, hm'⟩ := pair (Civil.ofDays days).month (by omega)
  obtain ⟨d, d', day, dayValue, hd, hd'⟩ := pair (Civil.ofDays days).day (by omega)
  have written : print days = yearText (Civil.ofDays days).year ++ ['-', m, m', '-', d, d'] := by
    rw [print, month, day]
    simp [yearText]
  rw [written, parseCivil, List.reverse_append]
  simp [hm, hm', hd, hd', monthValue, dayValue]

/-- Only the text of its day is read as a day. -/
theorem parseCivil_print_some {c : Civil} (h : parseCivil (print days) = some c) : c = Civil.ofDays days := by
  rw [parseCivil_print] at h
  obtain ⟨y, read, rfl⟩ := Option.map_eq_some_iff.mp h
  rw [parseYear_yearText_some read]

/-- The days whose texts are told apart: those of four-digit years. -/
def FourDigits (days : Int) : Prop := 0 ≤ (Civil.ofDays days).year ∧ (Civil.ofDays days).year ≤ 9999

theorem FourDigits.of_cast (h : (cast (print days)).isSome) : FourDigits days := by
  rw [cast] at h
  cases read : parseCivil (print days) with
  | none =>
    rw [read] at h
    cases h
  | some c =>
    rw [read] at h
    simp only [Option.bind_eq_bind, Option.bind_some, Option.isSome_ite] at h
    rw [parseCivil_print_some read] at h
    unfold FourDigits
    omega

theorem print_inj (four : FourDigits days) (four' : FourDigits days') (same : print days = print days') : days = days' := by
  have read := @parseCivil_print days
  rw [parseYear_yearText four.1 four.2, same, parseCivil_print, parseYear_yearText four'.1 four'.2] at read
  have civil : Civil.ofDays days' = Civil.ofDays days := Option.some.inj read
  rw [← Civil.toDays_ofDays days, ← civil, Civil.toDays_ofDays]

/-- The days between two of four-digit years. -/
theorem FourDigits.between {d : Int} (four : FourDigits days) (four' : FourDigits days') (first : days ≤ d) (last : d ≤ days') :
    FourDigits d := by
  unfold FourDigits at four four' ⊢
  have early : (Civil.ofDays days).year ≤ (Civil.ofDays d).year := by
    rcases first.eq_or_lt with rfl | later
    · exact le_rfl
    · have before := Civil.ofDays_before later
      unfold Civil.Before at before
      omega
  have late : (Civil.ofDays d).year ≤ (Civil.ofDays days').year := by
    rcases last.eq_or_lt with rfl | later
    · exact le_rfl
    · have before := Civil.ofDays_before later
      unfold Civil.Before at before
      omega
  omega

end

end OtterWorks.IsoDate
