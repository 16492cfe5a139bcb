import OtterWorks.Lib.IsoDate
import Mathlib.Order.Basic

namespace OtterWorks.Audit

/-- An offset from UTC in minutes, as far as time zones go. -/
structure UtcOffset where
  minutes : Int
  bounded : -840 ≤ minutes ∧ minutes ≤ 840
  deriving DecidableEq

inductive DateTimeKind
  | unspecified
  | utc
  | localTime (offset : UtcOffset)
  deriving DecidableEq

def ticksPerMinute : Int := 600000000

def ticksPerDay : Nat := 864000000000

/-- `DateTime`: the ticks of 100 ns that its clock shows since 0001-01-01. That of a local time stands at an offset. -/
structure DateTime where
  ticks : Nat
  kind : DateTimeKind
  inRange : ticks < 3652059 * ticksPerDay
  deriving DecidableEq

namespace DateTime

def minValue : DateTime := ⟨0, .unspecified, by decide⟩

/-- The ticks in UTC; a time of no kind is taken for UTC. -/
def instant (t : DateTime) : Int :=
  match t.kind with
  | .localTime offset => t.ticks - offset.minutes * ticksPerMinute
  | _ => t.ticks

/-- What `ToString("O")` puts after the time. -/
def suffix (t : DateTime) : Text :=
  match t.kind with
  | .unspecified => []
  | .utc => ['Z']
  | .localTime offset =>
    (if offset.minutes < 0 then '-' else '+') :: (zeroPad 2 (offset.minutes.natAbs / 60) ++ ':' ::
      zeroPad 2 (offset.minutes.natAbs % 60))

/-- Days from 0001-01-01 to 1970-01-01. -/
def epochDays : Int := 719162

def days (t : DateTime) : Nat := t.ticks / ticksPerDay

def timeOfDay (t : DateTime) : Nat := t.ticks % ticksPerDay

def civil (t : DateTime) : Civil := Civil.ofDays (t.days - epochDays)

/-- `ToString("O")`. -/
def text (t : DateTime) : Text :=
  zeroPad 4 t.civil.year.toNat ++ '-' :: (zeroPad 2 t.civil.month.toNat ++ '-' :: (zeroPad 2 t.civil.day.toNat ++
    'T' :: (zeroPad 2 (t.timeOfDay / 36000000000) ++ ':' :: (zeroPad 2 (t.timeOfDay / 600000000 % 60) ++ ':' ::
      (zeroPad 2 (t.timeOfDay / 10000000 % 60) ++ '.' :: (zeroPad 7 (t.timeOfDay % 10000000) ++ t.suffix))))))

/-- The offset that a text of a local time ends in. -/
def parseOffset (s : Text) : Option UtcOffset :=
  let minutes := digitsValue ((s.drop 1).take 2) * 60 + digitsValue (s.drop 4)
  let minutes : Int := if s.head? = some '-' then -minutes else minutes
  if bounded : -840 ≤ minutes ∧ minutes ≤ 840 then some ⟨minutes, bounded⟩ else none

def parseKind : Text → Option DateTimeKind
  | [] => some .unspecified
  | ['Z'] => some .utc
  | s => (parseOffset s).map .localTime

/-- The time on the clock that a text of the format `O` shows. -/
def parseClock (s : Text) : Option DateTime := do
  let part (start length : Nat) : Nat := digitsValue ((s.drop start).take length)
  let days := (Civil.mk (part 0 4) (part 5 2) (part 8 2)).toDays + epochDays
  let time := ((part 11 2 * 60 + part 14 2) * 60 + part 17 2) * 10000000 + part 20 7
  let kind ← parseKind (s.drop 27)
  let ticks := days.toNat * ticksPerDay + time
  if inRange : ticks < 3652059 * ticksPerDay then
    let t : DateTime := ⟨ticks, kind, inRange⟩
    if t.text = s then some t else none
  else none

/-- A local time is turned into one of the machine that reads it, whose zone says the offset at an instant. On the first
day it is taken for a time of the day, which is brought back into the day. -/
def toLocal (zone : Int → UtcOffset) (t : DateTime) : Option DateTime :=
  match t.kind with
  | .localTime _ =>
    let offset := zone t.instant
    let moved := t.instant + offset.minutes * ticksPerMinute
    let ticks := if t.ticks < ticksPerDay ∧ moved < 0 then moved + ticksPerDay else moved
    if h : 0 ≤ ticks ∧ ticks.toNat < 3652059 * ticksPerDay then some ⟨ticks.toNat, .localTime offset, h.2⟩ else none
  | _ => some t

/-- `DateTime.TryParse` with `RoundtripKind`, on the texts that `ToString("O")` makes. -/
def parse (zone : Int → UtcOffset) (s : Text) : Option DateTime := (parseClock s).bind (toLocal zone)

section

variable {a b t : DateTime}

theorem ticks_eq (t : DateTime) : ticksPerDay * t.days + t.timeOfDay = t.ticks := Nat.div_add_mod ..

theorem timeOfDay_lt (t : DateTime) : t.timeOfDay < ticksPerDay := Nat.mod_lt _ (by decide)

theorem civil_ranges (t : DateTime) : (1 ≤ t.civil.year ∧ t.civil.year ≤ 9999) ∧
    (1 ≤ t.civil.month ∧ t.civil.month ≤ 12) ∧ 1 ≤ t.civil.day ∧ t.civil.day ≤ 31 := by
  have range := t.inRange
  have day : t.days < 3652059 := Nat.div_lt_of_lt_mul (by rw [Nat.mul_comm]; exact range)
  have ranges := Civil.ofDays_ranges (t.days - epochDays)
  have first : (Civil.ofDays (0 - epochDays)).year = 1 := by decide
  have last : (Civil.ofDays (3652058 - epochDays)).year = 9999 := by decide
  refine ⟨⟨?_, ?_⟩, ranges⟩
  · by_cases zero : t.days = 0
    · rw [civil, zero]
      exact first.ge
    · have later := @Civil.ofDays_before (0 - epochDays) (t.days - epochDays) (by omega)
      rw [Civil.Before, first] at later
      change 1 ≤ (Civil.ofDays (t.days - epochDays)).year
      omega
  · by_cases final : t.days = 3652058
    · rw [civil, final]
      exact last.le
    · have sooner := @Civil.ofDays_before (t.days - epochDays) (3652058 - epochDays) (by omega)
      rw [Civil.Before, last] at sooner
      change (Civil.ofDays (t.days - epochDays)).year ≤ 9999
      omega

/-- Texts of two times are compared field by field, and last by their suffixes. -/
theorem compare_text (a b : DateTime) : compare a.text b.text =
    (compare a.civil.year.toNat b.civil.year.toNat).then ((compare a.civil.month.toNat b.civil.month.toNat).then
      ((compare a.civil.day.toNat b.civil.day.toNat).then
        ((compare (a.timeOfDay / 36000000000) (b.timeOfDay / 36000000000)).then
          ((compare (a.timeOfDay / 600000000 % 60) (b.timeOfDay / 600000000 % 60)).then
            ((compare (a.timeOfDay / 10000000 % 60) (b.timeOfDay / 10000000 % 60)).then
              ((compare (a.timeOfDay % 10000000) (b.timeOfDay % 10000000)).then
                (compare a.suffix b.suffix))))))) := by
  have ranges := a.civil_ranges
  have ranges' := b.civil_ranges
  have time := a.timeOfDay_lt
  have time' := b.timeOfDay_lt
  have perDay : ticksPerDay = 864000000000 := rfl
  simp only [text]
  rw [compare_zeroPad (by omega) (by omega) (by omega), compare_cons_self, compare_zeroPad (by omega) (by omega) (by omega),
    compare_cons_self, compare_zeroPad (by omega) (by omega) (by omega), compare_cons_self,
    compare_zeroPad (by omega) (by omega) (by omega), compare_cons_self, compare_zeroPad (by omega) (by omega) (by omega),
    compare_cons_self, compare_zeroPad (by omega) (by omega) (by omega), compare_cons_self,
    compare_zeroPad (by omega) (by omega) (by omega)]

/-- The text of a time comes before that of any later reading of the clock. -/
theorem compare_text_lt (sooner : a.ticks < b.ticks) : compare a.text b.text = .lt := by
  have ranges := a.civil_ranges
  have ranges' := b.civil_ranges
  rw [compare_text]
  by_cases days : a.days = b.days
  · have civil : a.civil = b.civil := by rw [DateTime.civil, DateTime.civil, days]
    have rest : a.timeOfDay < b.timeOfDay := by
      have whole := a.ticks_eq
      have whole' := b.ticks_eq
      rw [days] at whole
      omega
    generalize a.timeOfDay = time at rest ⊢
    generalize b.timeOfDay = time' at rest ⊢
    rw [civil]
    refine then_lt (.inr ⟨rfl, then_lt (.inr ⟨rfl, then_lt (.inr ⟨rfl, ?_⟩)⟩)⟩)
    by_cases hour : time / 36000000000 = time' / 36000000000
    · refine then_lt (.inr ⟨hour, ?_⟩)
      by_cases minute : time / 600000000 % 60 = time' / 600000000 % 60
      · refine then_lt (.inr ⟨minute, ?_⟩)
        by_cases second : time / 10000000 % 60 = time' / 10000000 % 60
        · exact then_lt (.inr ⟨second, then_lt (.inl (by omega))⟩)
        · exact then_lt (.inl (by omega))
      · exact then_lt (.inl (by omega))
    · exact then_lt (.inl (by omega))
  · have less : a.days < b.days := by
      have le : a.days ≤ b.days := Nat.div_le_div_right sooner.le
      omega
    have before : a.civil.Before b.civil := Civil.ofDays_before (by omega)
    rcases before with year | ⟨year, month | ⟨month, day⟩⟩
    · exact then_lt (.inl (by omega))
    · exact then_lt (.inr ⟨by rw [year], then_lt (.inl (by omega))⟩)
    · exact then_lt (.inr ⟨by rw [year], then_lt (.inr ⟨by rw [month], then_lt (.inl (by omega))⟩)⟩)

theorem compare_text_same (same : a.ticks = b.ticks) : compare a.text b.text = compare a.suffix b.suffix := by
  have days : a.days = b.days := by rw [DateTime.days, DateTime.days, same]
  have time : a.timeOfDay = b.timeOfDay := by rw [timeOfDay, timeOfDay, same]
  have civil : a.civil = b.civil := by rw [DateTime.civil, DateTime.civil, days]
  rw [compare_text, civil, time]
  simp only [Std.ReflCmp.compare_self, Ordering.then]

/-- One text is not after another exactly if the clock shows less, or the same with a suffix that is not after. -/
theorem text_le_iff : (compare a.text b.text).isLE ↔
    a.ticks < b.ticks ∨ a.ticks = b.ticks ∧ (compare a.suffix b.suffix).isLE := by
  rcases lt_trichotomy a.ticks b.ticks with lt | same | gt
  · rw [compare_text_lt lt]
    exact iff_of_true rfl (.inl lt)
  · rw [compare_text_same same, same]
    simp
  · have after : compare a.text b.text = .gt := Std.OrientedCmp.gt_of_lt (compare_text_lt gt)
    rw [after]
    refine iff_of_false (by decide) ?_
    omega

theorem drop_field {p : Text} {k : Nat} (length : p.length = k) (c : Char) (rest : Text) (n : Nat) :
    (p ++ c :: rest).drop (k + 1 + n) = rest.drop n := by
  rw [← length, Nat.add_assoc, List.drop_append]
  simp [Nat.add_comm 1 n]

theorem take_field {p : Text} {k : Nat} (length : p.length = k) (rest : Text) : (p ++ rest).take k = p := by
  rw [← length, List.take_left]

/-- The fields of a text of the format `O` by their places. -/
theorem fields_of_text {s y mo d h mi sec f z : Text}
    (written : s = y ++ '-' :: (mo ++ '-' :: (d ++ 'T' :: (h ++ ':' :: (mi ++ ':' :: (sec ++ '.' :: (f ++ z)))))))
    (ly : y.length = 4) (lmo : mo.length = 2) (ld : d.length = 2) (lh : h.length = 2) (lmi : mi.length = 2)
    (lsec : sec.length = 2) (lf : f.length = 7) :
    ((s.drop 0).take 4 = y ∧ (s.drop 5).take 2 = mo ∧ (s.drop 8).take 2 = d) ∧ ((s.drop 11).take 2 = h ∧
      (s.drop 14).take 2 = mi ∧ (s.drop 17).take 2 = sec ∧ (s.drop 20).take 7 = f) ∧ s.drop 27 = z := by
  have next (k n : Nat) {p rest : Text} {c : Char} (here : s.drop k = p ++ c :: rest) (length : p.length = n) :
      s.drop (k + (n + 1)) = rest := by
    rw [← List.drop_drop, here]
    exact drop_field length c rest 0
  have at5 := next 0 4 written ly
  have at8 := next 5 2 at5 lmo
  have at11 := next 8 2 at8 ld
  have at14 := next 11 2 at11 lh
  have at17 := next 14 2 at14 lmi
  have at20 := next 17 2 at17 lsec
  have at27 : s.drop (20 + 7) = z := by
    rw [← List.drop_drop, at20, ← lf, List.drop_left]
  refine ⟨⟨?_, ?_, ?_⟩, ⟨?_, ?_, ?_, ?_⟩, at27⟩
  · rw [List.drop_zero, written, take_field ly]
  · rw [at5, take_field lmo]
  · rw [at8, take_field ld]
  · rw [at11, take_field lh]
  · rw [at14, take_field lmi]
  · rw [at17, take_field lsec]
  · rw [at20, take_field lf]

theorem parseOffset_suffix {offset : UtcOffset} (s : Text)
    (written : s = (if offset.minutes < 0 then '-' else '+') :: (zeroPad 2 (offset.minutes.natAbs / 60) ++ ':' ::
      zeroPad 2 (offset.minutes.natAbs % 60))) : parseOffset s = some offset := by
  have bounded := offset.bounded
  have hours := @length_zeroPad (offset.minutes.natAbs / 60) 2 ((Decimal.digitCount_le_iff (by omega)).mpr (by omega))
  have first : (s.drop 1).take 2 = zeroPad 2 (offset.minutes.natAbs / 60) := by
    rw [written, List.drop_succ_cons, List.drop_zero, take_field hours]
  have second : s.drop 4 = zeroPad 2 (offset.minutes.natAbs % 60) := by
    rw [written, List.drop_succ_cons]
    exact drop_field hours ':' _ 0
  have sign : s.head? = some '-' ↔ offset.minutes < 0 := by
    rw [written, List.head?_cons]
    by_cases negative : offset.minutes < 0
    · simp [negative]
    · simp [negative]
  have minutes : (if s.head? = some '-' then -((digitsValue ((s.drop 1).take 2) * 60 + digitsValue (s.drop 4) : Nat) : Int)
      else (digitsValue ((s.drop 1).take 2) * 60 + digitsValue (s.drop 4) : Nat)) = offset.minutes := by
    rw [first, second, digitsValue_zeroPad, digitsValue_zeroPad]
    by_cases negative : offset.minutes < 0
    · rw [if_pos (sign.mpr negative)]
      omega
    · rw [if_neg (mt sign.mp negative)]
      omega
  simp only [parseOffset]
  rw [minutes, dif_pos bounded]

theorem parseKind_suffix (t : DateTime) : parseKind t.suffix = some t.kind := by
  unfold suffix
  cases t.kind with
  | unspecified => rfl
  | utc => rfl
  | localTime offset =>
    have read := @parseOffset_suffix offset _ rfl
    unfold parseKind
    split
    next none => cases none
    next zulu =>
      have tail := congrArg List.length (List.cons.inj zulu).2
      simp at tail
    next => exact congrArg (Option.map DateTimeKind.localTime) read

theorem parseClock_text (t : DateTime) : parseClock t.text = some t := by
  have ranges := t.civil_ranges
  have time := t.timeOfDay_lt
  have perDay : ticksPerDay = 864000000000 := rfl
  have fits {w n : Nat} (pos : 0 < w) (small : n < 10 ^ w) : (zeroPad w n).length = w :=
    length_zeroPad ((Decimal.digitCount_le_iff pos).mpr small)
  have year : (zeroPad 4 t.civil.year.toNat).length = 4 := fits (by omega) (by omega)
  have month : (zeroPad 2 t.civil.month.toNat).length = 2 := fits (by omega) (by omega)
  have day : (zeroPad 2 t.civil.day.toNat).length = 2 := fits (by omega) (by omega)
  have hour : (zeroPad 2 (t.timeOfDay / 36000000000)).length = 2 := fits (by omega) (by omega)
  have minute : (zeroPad 2 (t.timeOfDay / 600000000 % 60)).length = 2 := fits (by omega) (by omega)
  have second : (zeroPad 2 (t.timeOfDay / 10000000 % 60)).length = 2 := fits (by omega) (by omega)
  have fraction : (zeroPad 7 (t.timeOfDay % 10000000)).length = 7 := fits (by omega) (by omega)
  obtain ⟨⟨y, mo, d⟩, ⟨h, mi, sec, f⟩, z⟩ :=
    @fields_of_text t.text _ _ _ _ _ _ _ _ rfl year month day hour minute second fraction
  have civil : (⟨(t.civil.year.toNat : Int), (t.civil.month.toNat : Int), (t.civil.day.toNat : Int)⟩ : Civil) = t.civil := by
    have back (n : Int) (pos : 1 ≤ n) : (n.toNat : Int) = n := by omega
    rw [back _ ranges.1.1, back _ ranges.2.1.1, back _ ranges.2.2.1]
  have days : (t.civil.toDays + epochDays).toNat = t.days := by
    rw [DateTime.civil, Civil.toDays_ofDays]
    omega
  have clock : ((t.timeOfDay / 36000000000 * 60 + t.timeOfDay / 600000000 % 60) * 60 + t.timeOfDay / 10000000 % 60) * 10000000 +
      t.timeOfDay % 10000000 = t.timeOfDay := by omega
  have ticks : t.days * ticksPerDay + t.timeOfDay = t.ticks := by
    rw [Nat.mul_comm]
    exact t.ticks_eq
  unfold parseClock
  simp only [y, mo, d, h, mi, sec, f, z, digitsValue_zeroPad, civil, days, clock, ticks, parseKind_suffix, Option.bind_eq_bind,
    Option.bind_some, dif_pos t.inRange, if_true]

theorem parse_text (zone : Int → UtcOffset) (t : DateTime) : parse zone t.text = toLocal zone t := by
  rw [parse, parseClock_text, Option.bind_some]

end

end DateTime

end OtterWorks.Audit
