import Mathlib.Algebra.Order.Ring.Int

namespace OtterWorks

/-- A day of the proleptic Gregorian calendar. -/
structure Civil where
  year : Int
  month : Int
  day : Int
  deriving DecidableEq, Repr

/-- The text of an instant, with its offset `+00:00` or with `Z`. -/
inductive TimeText
  | offset (t : Nat)
  | zulu (t : Nat)
  deriving DecidableEq, Repr

def TimeText.instant : TimeText → Nat
  | .offset t => t
  | .zulu t => t

namespace Civil

/-- Days since 1970-01-01; years are counted from March, so that the leap day comes last. -/
def toDays (c : Civil) : Int :=
  let year := if c.month ≤ 2 then c.year - 1 else c.year
  let era := year / 400
  let yearOfEra := year - era * 400
  let dayOfYear := (153 * ((c.month + 9) % 12) + 2) / 5 + c.day - 1
  era * 146097 + yearOfEra * 365 + yearOfEra / 4 - yearOfEra / 100 + dayOfYear - 719468

def ofDays (days : Int) : Civil :=
  let era := (days + 719468) / 146097
  let dayOfEra := days + 719468 - era * 146097
  let yearOfEra := (dayOfEra - dayOfEra / 1460 + dayOfEra / 36524 - dayOfEra / 146096) / 365
  let dayOfYear := dayOfEra - (365 * yearOfEra + yearOfEra / 4 - yearOfEra / 100)
  let shifted := (5 * dayOfYear + 2) / 153
  let month := if shifted < 10 then shifted + 3 else shifted - 9
  ⟨yearOfEra + era * 400 + (if month ≤ 2 then 1 else 0), month, dayOfYear - (153 * shifted + 2) / 5 + 1⟩

/-- `date - interval 'n months'`: the same day of the earlier month, or its last day. -/
def monthsBefore (n : Int) (days : Int) : Int :=
  let c := ofDays days
  let months := c.year * 12 + c.month - 1 - n
  let first := toDays ⟨months / 12, months % 12 + 1, 1⟩
  let next := toDays ⟨(months + 1) / 12, (months + 1) % 12 + 1, 1⟩
  first + min c.day (next - first) - 1

/-- A day in years that begin in March: its era, and in it the century, the four years, the year and the day. -/
structure MarchDay (days : Int) where
  era : Int
  century : Int
  quad : Int
  year : Int
  day : Int
  whole : days + 719468 = 146097 * era + 36524 * century + 1461 * quad + 365 * year + day
  centuries : 0 ≤ century ∧ century ≤ 3
  quads : 0 ≤ quad ∧ quad ≤ 24
  years : 0 ≤ year ∧ year ≤ 3
  dayFirst : 0 ≤ day
  dayLast : day ≤ 364 ∨ day = 365 ∧ year = 3 ∧ (quad < 24 ∨ century = 3)

namespace MarchDay

theorem exists_marchDay (days : Int) : Nonempty (MarchDay days) := by
  obtain ⟨era, dayOfEra, whole, dayBounds⟩ : ∃ era dayOfEra : Int, days + 719468 = 146097 * era + dayOfEra ∧
      0 ≤ dayOfEra ∧ dayOfEra < 146097 := ⟨(days + 719468) / 146097, (days + 719468) % 146097, by omega⟩
  obtain ⟨century, rest, centuries, restBounds⟩ : ∃ century rest : Int, (dayOfEra = 36524 * century + rest ∧
      0 ≤ century ∧ century ≤ 3) ∧ 0 ≤ rest ∧ (rest < 36524 ∨ century = 3 ∧ rest = 36524) := by
    by_cases last : dayOfEra = 146096
    · exact ⟨3, 36524, by omega⟩
    · exact ⟨dayOfEra / 36524, dayOfEra % 36524, by omega⟩
  obtain ⟨quad, dayOfQuad, quads, quadBounds⟩ : ∃ quad dayOfQuad : Int, rest = 1461 * quad + dayOfQuad ∧
      0 ≤ dayOfQuad ∧ dayOfQuad < 1461 := ⟨rest / 1461, rest % 1461, by omega⟩
  obtain ⟨year, day, years, dayOfYear⟩ : ∃ year day : Int, (dayOfQuad = 365 * year + day ∧ 0 ≤ year ∧ year ≤ 3) ∧
      0 ≤ day ∧ (day ≤ 364 ∨ year = 3 ∧ day = 365) := by
    by_cases last : dayOfQuad = 1460
    · exact ⟨3, 365, by omega⟩
    · exact ⟨dayOfQuad / 365, dayOfQuad % 365, by omega⟩
  exact ⟨⟨era, century, quad, year, day, by omega, centuries.2, by omega, years.2, dayOfYear.1, by omega⟩⟩

variable {days days' : Int} (m : MarchDay days) (n : MarchDay days')

/-- The year that begins in March. -/
def marchYear : Int := 400 * m.era + 100 * m.century + 4 * m.quad + m.year

/-- Months from March on. -/
def shifted : Int := (5 * m.day + 2) / 153

def month : Int := if m.shifted < 10 then m.shifted + 3 else m.shifted - 9

def civil : Civil :=
  ⟨m.marchYear + (if m.month ≤ 2 then 1 else 0), m.month, m.day - (153 * m.shifted + 2) / 5 + 1⟩

/-- The year that `ofDays` finds in the era. -/
theorem yearOfEra_eq {dayOfEra : Int} (h : dayOfEra = 36524 * m.century + 1461 * m.quad + 365 * m.year + m.day) :
    (dayOfEra - dayOfEra / 1460 + dayOfEra / 36524 - dayOfEra / 146096) / 365 = 100 * m.century + 4 * m.quad + m.year := by
  have centuries := m.centuries
  have quads := m.quads
  have years := m.years
  have first := m.dayFirst
  have last := m.dayLast
  have large : 0 ≤ 24 * m.century + m.quad + 365 * m.year + m.day ∧ 24 * m.century + m.quad + 365 * m.year + m.day < 2920 := by
    omega
  have fours : dayOfEra / 1460 = 25 * m.century + m.quad +
      (if 24 * m.century + m.quad + 365 * m.year + m.day < 1460 then 0 else 1) := by
    rw [Int.ediv_eq_iff_of_pos (by omega)]
    split
    · omega
    · omega
  -- The last day of an era is past the end of its fourth century.
  have ends : dayOfEra / 36524 - dayOfEra / 146096 = m.century := by
    have rest : 1461 * m.quad + 365 * m.year + m.day ≤ 36523 ∨
        m.century = 3 ∧ 1461 * m.quad + 365 * m.year + m.day = 36524 := by omega
    rcases rest with inside | ⟨three, final⟩
    · have era : dayOfEra / 146096 = 0 := Int.ediv_eq_zero_of_lt (by omega) (by omega)
      have century : dayOfEra / 36524 = m.century := by
        rw [Int.ediv_eq_iff_of_pos (by omega)]
        omega
      omega
    · omega
  have numerator : dayOfEra - dayOfEra / 1460 + dayOfEra / 36524 - dayOfEra / 146096 =
      dayOfEra - dayOfEra / 1460 + m.century := by omega
  rw [numerator, Int.ediv_eq_iff_of_pos (by omega), fours]
  split
  · omega
  · omega

theorem ofDays_eq : ofDays days = m.civil := by
  have centuries := m.centuries
  have quads := m.quads
  have years := m.years
  have first := m.dayFirst
  have last := m.dayLast
  have whole := m.whole
  have era : (days + 719468) / 146097 = m.era := by
    rw [Int.ediv_eq_iff_of_pos (by omega)]
    omega
  have leaps : (100 * m.century + 4 * m.quad + m.year) / 4 = 25 * m.century + m.quad := by omega
  have hundreds : (100 * m.century + 4 * m.quad + m.year) / 100 = m.century := by omega
  have day : days + 719468 - m.era * 146097 - (365 * (100 * m.century + 4 * m.quad + m.year) +
      (100 * m.century + 4 * m.quad + m.year) / 4 - (100 * m.century + 4 * m.quad + m.year) / 100) = m.day := by
    rw [leaps, hundreds]
    omega
  have yearOfEra := @yearOfEra_eq _ m (days + 719468 - m.era * 146097) (by omega)
  unfold ofDays
  simp only [era, yearOfEra, day]
  rw [civil, marchYear, month, shifted]
  clear yearOfEra day
  congr 1
  omega

end MarchDay

theorem toDays_ofDays (days : Int) : (ofDays days).toDays = days := by
  obtain ⟨m⟩ := MarchDay.exists_marchDay days
  have centuries := m.centuries
  have quads := m.quads
  have years := m.years
  have first := m.dayFirst
  have last := m.dayLast
  have whole := m.whole
  have months : 0 ≤ m.shifted ∧ m.shifted ≤ 11 := by
    rw [MarchDay.shifted]
    omega
  have back : (m.month + 9) % 12 = m.shifted := by
    rw [MarchDay.month]
    split
    · omega
    · omega
  have year : (if m.month ≤ 2 then m.marchYear + (if m.month ≤ 2 then 1 else 0) - 1
      else m.marchYear + (if m.month ≤ 2 then 1 else 0)) = m.marchYear := by
    split
    · omega
    · omega
  have era : m.marchYear / 400 = m.era := by
    rw [Int.ediv_eq_iff_of_pos (by omega), MarchDay.marchYear]
    omega
  have yearOfEra : m.marchYear - m.era * 400 = 100 * m.century + 4 * m.quad + m.year := by
    rw [MarchDay.marchYear]
    omega
  have leaps : (100 * m.century + 4 * m.quad + m.year) / 4 = 25 * m.century + m.quad := by omega
  have hundreds : (100 * m.century + 4 * m.quad + m.year) / 100 = m.century := by omega
  rw [m.ofDays_eq, MarchDay.civil, toDays]
  simp only [year, back, era, yearOfEra, leaps, hundreds]
  omega

/-- Years, then months, then days. -/
def Before (a b : Civil) : Prop :=
  a.year < b.year ∨ a.year = b.year ∧ (a.month < b.month ∨ a.month = b.month ∧ a.day < b.day)

namespace MarchDay

variable {days days' : Int} (m : MarchDay days) (n : MarchDay days')

/-- A year is over before the next begins. -/
theorem days_lt (later : m.marchYear < n.marchYear) : days < days' := by
  have centuries := m.centuries
  have quads := m.quads
  have years := m.years
  have last := m.dayLast
  have whole := m.whole
  have centuries' := n.centuries
  have quads' := n.quads
  have years' := n.years
  have first' := n.dayFirst
  have whole' := n.whole
  simp only [marchYear] at later
  rcases lt_trichotomy m.era n.era with lt | eq | gt
  · omega
  · rcases lt_trichotomy m.century n.century with lt | same | gt
    · omega
    · rcases lt_trichotomy m.quad n.quad with lt | alike | gt
      · omega
      · omega
      · omega
    · omega
  · omega

/-- Of two days of one year the later one has more days before it. -/
theorem day_lt (same : m.marchYear = n.marchYear) (later : days < days') : m.day < n.day := by
  have centuries := m.centuries
  have quads := m.quads
  have years := m.years
  have whole := m.whole
  have centuries' := n.centuries
  have quads' := n.quads
  have years' := n.years
  have whole' := n.whole
  simp only [marchYear] at same
  have era : m.era = n.era := by omega
  have century : m.century = n.century := by omega
  have quad : m.quad = n.quad := by omega
  omega

theorem before (later : days < days') : m.civil.Before n.civil := by
  have first := m.dayFirst
  have last : m.day ≤ 365 := by
    have := m.dayLast
    omega
  have first' := n.dayFirst
  have last' : n.day ≤ 365 := by
    have := n.dayLast
    omega
  have order : m.marchYear < n.marchYear ∨ m.marchYear = n.marchYear ∧ m.day < n.day := by
    rcases lt_trichotomy m.marchYear n.marchYear with lt | eq | gt
    · exact .inl lt
    · exact .inr ⟨eq, m.day_lt n eq later⟩
    · have sooner := n.days_lt m gt
      omega
  have shift : m.shifted = (5 * m.day + 2) / 153 := rfl
  have shift' : n.shifted = (5 * n.day + 2) / 153 := rfl
  have month : m.month = if m.shifted < 10 then m.shifted + 3 else m.shifted - 9 := rfl
  have month' : n.month = if n.shifted < 10 then n.shifted + 3 else n.shifted - 9 := rfl
  simp only [Before, civil]
  -- January and February close the year that began in March.
  by_cases winter : m.shifted < 10
  · rw [if_pos winter] at month
    by_cases winter' : n.shifted < 10
    · rw [if_pos winter'] at month'
      rw [if_neg (by omega), if_neg (by omega)]
      omega
    · rw [if_neg winter'] at month'
      rw [if_neg (by omega), if_pos (by omega)]
      omega
  · rw [if_neg winter] at month
    by_cases winter' : n.shifted < 10
    · rw [if_pos winter'] at month'
      rw [if_pos (by omega), if_neg (by omega)]
      omega
    · rw [if_neg winter'] at month'
      rw [if_pos (by omega), if_pos (by omega)]
      omega

end MarchDay

theorem ofDays_before {days days' : Int} (later : days < days') : (ofDays days).Before (ofDays days') := by
  obtain ⟨m⟩ := MarchDay.exists_marchDay days
  obtain ⟨n⟩ := MarchDay.exists_marchDay days'
  rw [m.ofDays_eq, n.ofDays_eq]
  exact m.before n later

/-- Months run from 1 to 12, and days from 1 to 31. -/
theorem ofDays_ranges (days : Int) : (1 ≤ (ofDays days).month ∧ (ofDays days).month ≤ 12) ∧
    1 ≤ (ofDays days).day ∧ (ofDays days).day ≤ 31 := by
  obtain ⟨m⟩ := MarchDay.exists_marchDay days
  have first := m.dayFirst
  have last : m.day ≤ 365 := by
    have := m.dayLast
    omega
  have shift : m.shifted = (5 * m.day + 2) / 153 := rfl
  have month : m.month = if m.shifted < 10 then m.shifted + 3 else m.shifted - 9 := rfl
  rw [m.ofDays_eq]
  simp only [MarchDay.civil]
  refine ⟨?_, ?_⟩
  · split at month
    · omega
    · omega
  · omega

end Civil

end OtterWorks
