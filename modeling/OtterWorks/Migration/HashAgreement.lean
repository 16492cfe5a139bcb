import OtterWorks.Lib.Fallible
import OtterWorks.Lib.Joined
import OtterWorks.Migration.PackedFields

namespace OtterWorks.Migration

/-- What the conversion leaves a source value as: a trimmed key had no blanks to lose, unless it was mapped, and
a date is written as its digits. -/
def Unchanged (zeroPads : Bool) (spec : ColumnSpec) : Value → Prop
  | .text s =>
    match spec.kind with
    | .char => ¬ (spec.isKey ∧ spec.trim ∧ spec.valueMap.lookup (rtrim s) = none ∧ rtrim s ≠ s)
    | .date8 => s.length = 8 ∧ (∀ c ∈ s, c.isDigit) ∧ (zeroPads ∨ s.head? ≠ some '0')
    | _ => True
  | _ => True

section

variable {codecs : Codecs} {zeroPads : Bool} {spec : ColumnSpec} {raw : Bytes} {s : Text} {value source : Value}

theorem dropWhile_idem {α : Type} (p : α → Bool) (l : List α) : (l.dropWhile p).dropWhile p = l.dropWhile p := by
  induction l with
  | nil => rfl
  | cons x l ih =>
    by_cases drop : p x = true
    · rw [List.dropWhile_cons_of_pos drop, ih]
    · rw [List.dropWhile_cons_of_neg drop, List.dropWhile_cons_of_neg drop]

@[simp]
theorem rtrim_rtrim (s : Text) : rtrim (rtrim s) = rtrim s := by
  simp only [rtrim, List.reverse_reverse, dropWhile_idem]

theorem length_rtrim_le (s : Text) : (rtrim s).length ≤ s.length := by
  have := List.length_dropWhile_le (· == ' ') s.reverse
  rw [List.length_reverse] at this
  rwa [rtrim, List.length_reverse]

theorem rtrim_of_no_blank (plain : ∀ c ∈ s, c ≠ ' ') : rtrim s = s := by
  have none : s.reverse.dropWhile (· == ' ') = s.reverse := by
    cases h : s.reverse with
    | nil => rfl
    | cons c t =>
      have here : c ≠ ' ' := plain c (List.mem_reverse.mp (by rw [h]; exact List.mem_cons_self ..))
      rw [List.dropWhile_cons_of_neg (by simpa using here)]
  rw [rtrim, none, List.reverse_reverse]

/-- A text that `DATE8_RE` matches: its groups, and perhaps a line break. -/
theorem date8Groups_eq {y m d : Nat} (h : date8Groups s = some (y, m, d)) :
    ∃ year month day rest : Text, s = year ++ (month ++ (day ++ rest)) ∧ (rest = [] ∨ rest = ['\n']) ∧
      (year.length = 4 ∧ ∀ c ∈ year, isDecimal c = true) ∧ (month.length = 2 ∧ ∀ c ∈ month, isDecimal c = true) ∧
      (day.length = 2 ∧ ∀ c ∈ day, isDecimal c = true) ∧
      y = digitsValue year ∧ m = digitsValue month ∧ d = digitsValue day := by
  unfold date8Groups at h
  obtain ⟨⟨year, s₁⟩, hyear, afterYear⟩ := Option.bind_eq_some_iff.mp h
  obtain ⟨⟨month, s₂⟩, hmonth, afterMonth⟩ := Option.bind_eq_some_iff.mp afterYear
  obtain ⟨⟨day, rest⟩, hday, found⟩ := Option.bind_eq_some_iff.mp afterMonth
  clear h afterYear afterMonth
  change (if atEnd rest then some (digitsValue year, digitsValue month, digitsValue day) else none) = _ at found
  obtain ⟨rfl, yearLength, yearDigits⟩ := digitsFront_eq.mp hyear
  obtain ⟨rfl, monthLength, monthDigits⟩ := digitsFront_eq.mp hmonth
  obtain ⟨rfl, dayLength, dayDigits⟩ := digitsFront_eq.mp hday
  by_cases ended : atEnd rest = true
  · rw [if_pos ended] at found
    cases found
    have tail : rest = [] ∨ rest = ['\n'] := by
      rw [atEnd, Bool.or_eq_true, beq_iff_eq, beq_iff_eq] at ended
      exact ended
    exact ⟨year, month, day, rest, rfl, tail, ⟨yearLength, List.all_eq_true.mp yearDigits⟩, ⟨monthLength, List.all_eq_true.mp monthDigits⟩,
      ⟨dayLength, List.all_eq_true.mp dayDigits⟩, rfl, rfl, rfl⟩
  · rw [if_neg ended] at found
    cases found

theorem dateError_none {y m d : Nat} (h : dateError y m d = none) : 1 ≤ y ∧ y ≤ 9999 ∧ m ≤ 12 ∧ d ≤ 31 := by
  unfold dateError at h
  split at h
  next => cases h
  next year =>
    split at h
    next => cases h
    next month =>
      split at h
      next => cases h
      next day =>
        have most : daysInMonth y m ≤ 31 := by
          unfold daysInMonth
          split
          · split <;> omega
          · split <;> omega
        omega

theorem yearMonthDay_isoDate {y m d : Nat} (year : y ≤ 9999) (month : m ≤ 12) :
    yearMonthDay zeroPads (isoDate y m d) =
      (if zeroPads then zeroPad 4 y else (zeroPad 4 y).dropWhile (· == '0')) ++ zeroPad 2 m ++ zeroPad 2 d := by
  have yearLength : (zeroPad 4 y).length = 4 :=
    length_zeroPad ((Nat.length_toDigits_le_iff (by omega) (by omega)).mpr (by omega))
  have monthLength : (zeroPad 2 m).length = 2 :=
    length_zeroPad ((Nat.length_toDigits_le_iff (by omega) (by omega)).mpr (by omega))
  have front : (isoDate y m d).take 4 = zeroPad 4 y := by
    rw [isoDate, List.append_assoc]
    exact List.take_left' yearLength
  have middle : ((isoDate y m d).drop 5).take 2 = zeroPad 2 m := by
    have past : (isoDate y m d).drop 5 = zeroPad 2 m ++ '-' :: zeroPad 2 d := by
      have shape : isoDate y m d = (zeroPad 4 y ++ ['-']) ++ (zeroPad 2 m ++ '-' :: zeroPad 2 d) := by
        simp [isoDate]
      rw [shape]
      apply List.drop_left'
      rw [List.length_append, yearLength]
      rfl
    rw [past, List.take_left' monthLength]
  have back : (isoDate y m d).drop 8 = zeroPad 2 d := by
    have shape : isoDate y m d = (zeroPad 4 y ++ '-' :: zeroPad 2 m ++ ['-']) ++ zeroPad 2 d := by
      simp [isoDate]
    rw [shape]
    apply List.drop_left'
    simp only [List.length_append, List.length_cons, List.length_nil]
    omega
  rw [yearMonthDay, front, middle, back]

/-- The digits a date is written with are the source's own exactly when the source wrote eight plain digits, the
first of which is kept. -/
theorem yearMonthDay_eq_iff (zeroPads : Bool) {y m d : Nat} (groups : date8Groups s = some (y, m, d))
    (valid : dateError y m d = none) :
    (∀ c ∈ s, c ≠ ' ') ∧ (yearMonthDay zeroPads (isoDate y m d)).length ≤ s.length ∧
      (∀ c ∈ yearMonthDay zeroPads (isoDate y m d), c ≠ ' ') ∧
      (s = yearMonthDay zeroPads (isoDate y m d) ↔
        s.length = 8 ∧ (∀ c ∈ s, c.isDigit) ∧ (zeroPads ∨ s.head? ≠ some '0')) := by
  obtain ⟨year, month, day, rest, rfl, tail, ⟨yearLength, yearDigits⟩, ⟨monthLength, monthDigits⟩,
    ⟨dayLength, dayDigits⟩, rfl, rfl, rfl⟩ := date8Groups_eq groups
  obtain ⟨_, yearMost, monthMost, dayMost⟩ := dateError_none valid
  have blank : ∀ c, isDecimal c = true → c ≠ ' ' := by
    rintro c hc rfl
    exact absurd hc (by decide)
  have width (w n : Nat) (pos : 0 < w) (fits : n < 10 ^ w) : (zeroPad w n).length = w :=
    length_zeroPad ((Nat.length_toDigits_le_iff (by omega) pos).mpr fits)
  have yearWidth := width 4 (digitsValue year) (by omega) (by omega)
  have monthWidth := width 2 (digitsValue month) (by omega) (by omega)
  have dayWidth := width 2 (digitsValue day) (by omega) (by omega)
  have cut := List.length_dropWhile_le (· == '0') (zeroPad 4 (digitsValue year))
  rw [yearMonthDay_isoDate yearMost monthMost]
  let front := if zeroPads then zeroPad 4 (digitsValue year) else (zeroPad 4 (digitsValue year)).dropWhile (· == '0')
  have frontLength : front.length ≤ 4 := by
    simp only [front]
    split <;> omega
  have frontDigits : ∀ c ∈ front, c.isDigit := by
    intro c hc
    simp only [front] at hc
    split at hc
    · exact isDigit_zeroPad hc
    · exact isDigit_zeroPad ((List.dropWhile_sublist _).mem hc)
  have digits : ∀ c ∈ front ++ zeroPad 2 (digitsValue month) ++ zeroPad 2 (digitsValue day), c.isDigit := by
    intro c hc
    rcases List.mem_append.mp hc with hc | hc
    · rcases List.mem_append.mp hc with hc | hc
      · exact frontDigits c hc
      · exact isDigit_zeroPad hc
    · exact isDigit_zeroPad hc
  have length : (front ++ zeroPad 2 (digitsValue month) ++ zeroPad 2 (digitsValue day)).length = front.length + 4 := by
    rw [List.length_append, List.length_append]
    omega
  have total : (year ++ (month ++ (day ++ rest))).length = 8 + rest.length := by
    simp only [List.length_append]
    omega
  refine ⟨?_, ?_, fun c hc => blank c (isDecimal_of_isDigit (digits c hc)), ?_, ?_⟩
  · intro c hc
    simp only [List.mem_append] at hc
    rcases hc with hc | hc | hc | hc
    · exact blank c (yearDigits c hc)
    · exact blank c (monthDigits c hc)
    · exact blank c (dayDigits c hc)
    · rcases tail with rfl | rfl
      · cases hc
      · rw [List.mem_singleton.mp hc]
        decide
  · change (front ++ zeroPad 2 (digitsValue month) ++ zeroPad 2 (digitsValue day)).length ≤ _
    omega
  · intro same
    change _ = front ++ zeroPad 2 (digitsValue month) ++ zeroPad 2 (digitsValue day) at same
    have lengths := congrArg List.length same
    have ends : rest.length = 0 := by omega
    refine ⟨by omega, ?_, ?_⟩
    · rw [same]
      exact digits
    · by_cases pads : zeroPads = true
      · exact Or.inl pads
      · refine Or.inr fun zero => ?_
        have whole : front.length = 4 := by omega
        have cutFront : front = (zeroPad 4 (digitsValue year)).dropWhile (· == '0') := if_neg pads
        rw [same] at zero
        cases hfront : front with
        | nil =>
          rw [hfront] at whole
          cases whole
        | cons c t =>
          rw [hfront, List.append_assoc, List.cons_append, List.head?_cons] at zero
          have first : (zeroPad 4 (digitsValue year)).dropWhile (· == '0') = '0' :: t := by
            rw [← cutFront, hfront, Option.some.inj zero]
          have kept := List.head_dropWhile_not (· == '0') (l := zeroPad 4 (digitsValue year)) (by rw [first]; simp)
          simp [first] at kept
  · rintro ⟨eight, plain, pads⟩
    have ends : rest = [] := List.eq_nil_of_length_eq_zero (by omega)
    subst ends
    have part (t : Text) (n : Nat) (h : t.length = n) (pos : 0 < n) (ht : ∀ c ∈ t, c.isDigit) :
        zeroPad n (digitsValue t) = t := by
      subst h
      exact zeroPad_digitsValue ht (List.ne_nil_of_length_pos pos)
    have yearBack := part year 4 yearLength (by omega) fun c hc => plain c (by simp [hc])
    have monthBack := part month 2 monthLength (by omega) fun c hc => plain c (by simp [hc])
    have dayBack := part day 2 dayLength (by omega) fun c hc => plain c (by simp [hc])
    rw [yearBack, monthBack, dayBack]
    have kept : (if zeroPads then year else year.dropWhile (· == '0')) = year := by
      by_cases padded : zeroPads = true
      · rw [if_pos padded]
      · rw [if_neg padded]
        cases year with
        | nil => rfl
        | cons c year =>
          have first : c ≠ '0' := by
            have := pads.resolve_left padded
            simpa using this
          rw [List.dropWhile_cons_of_neg (by simpa using first)]
    rw [kept, List.append_nil, List.append_assoc]

theorem render_text (s : Text) (isKey : Bool) : render .char isKey (.text s) = some (if isKey then s else rtrim s) := rfl

theorem rtrim_if_key {isKey : Bool} (plain : ∀ c ∈ s, c ≠ ' ') : (if isKey then s else rtrim s) = s := by
  rw [rtrim_of_no_blank plain, ite_self]

/-- How the two renderings of a column compare. -/
def Compares (zeroPads : Bool) (spec : ColumnSpec) (value source : Value) : Prop :=
  ∃ a b, renderSourceColumn zeroPads source spec = some a ∧
    render (renderKind spec.kind) spec.isKey (asText zeroPads value) = some b ∧
    b.length ≤ a.length ∧ (a = b ↔ Unchanged zeroPads spec source)

theorem compares_char (kind : spec.kind = .char) : Compares zeroPads spec (.text (charValue spec s)) (.text s) := by
  have key : rtrim (if spec.trim then rtrim s else s) = rtrim s := by
    split
    · exact rtrim_rtrim s
    · rfl
  have length : (if spec.trim then rtrim s else s).length ≤ s.length := by
    split
    · exact length_rtrim_le s
    · exact Nat.le_refl _
  cases mapped : spec.valueMap.lookup (rtrim s) with
  | some text =>
    have same : (if spec.trim then text else ljust text s.length) = charValue spec s := by
      simp only [charValue, key, mapped]
      by_cases trimmed : spec.trim = true
      · simp [trimmed]
      · simp [trimmed]
    refine ⟨if spec.isKey then charValue spec s else rtrim (charValue spec s), _, ?_, ?_, Nat.le_refl _, ?_⟩
    · simp only [renderSourceColumn, asText, mapSource, kind, mapped, same, renderKind, render_text]
    · simp only [kind, renderKind, asText, render_text]
    · exact iff_of_true rfl (by simp [Unchanged, kind, mapped])
  | none =>
    have value : charValue spec s = if spec.trim then rtrim s else s := by
      simp only [charValue, key, mapped]
    refine ⟨if spec.isKey then s else rtrim s, if spec.isKey then charValue spec s else rtrim (charValue spec s),
      ?_, ?_, ?_, ?_⟩
    · simp only [renderSourceColumn, asText, mapSource, kind, mapped, renderKind, render_text]
    · simp only [kind, renderKind, asText, render_text]
    · rw [value, key]
      split
      · exact length
      · exact Nat.le_refl _
    · rw [value, key]
      simp only [Unchanged, kind, mapped, true_and]
      by_cases isKey : spec.isKey = true
      · by_cases trimmed : spec.trim = true
        · simp only [isKey, trimmed, if_true, true_and, ne_eq, not_not]
          exact eq_comm
        · simp [isKey, trimmed]
      · simp [isKey]

theorem compares_date8 (kind : spec.kind = .date8) (h : convertDate8 raw s = .ok (value, source)) :
    Compares zeroPads spec value source := by
  unfold convertDate8 at h
  split at h
  next => cases h
  next y m d groups =>
    split at h
    next => cases h
    next valid =>
      cases h
      obtain ⟨plain, shorter, plainDigits, agree⟩ := yearMonthDay_eq_iff zeroPads groups valid
      refine ⟨s, yearMonthDay zeroPads (isoDate y m d), ?_, ?_, shorter, ?_⟩
      · simp only [renderSourceColumn, asText, mapSource, kind, renderKind, render_text, rtrim_if_key plain]
      · simp only [kind, renderKind, asText, render_text, rtrim_if_key plainDigits]
      · rw [agree]
        simp only [Unchanged, kind]

/-- A value that both sides render alike. -/
theorem compares_same {t : Text} (hsource : renderSourceColumn zeroPads source spec = some t)
    (hvalue : render (renderKind spec.kind) spec.isKey (asText zeroPads value) = some t)
    (unchanged : Unchanged zeroPads spec source) : Compares zeroPads spec value source :=
  ⟨t, t, hsource, hvalue, Nat.le_refl _, iff_of_true rfl unchanged⟩

theorem decoded_ok {convert : Text → Except FieldFailure (Value × Value)}
    (h : (do
      match ← decodeField codecs spec.encoding raw with
      | .error e => .error (unmappable spec.encoding (raw.getD e.start 0) e.start)
      | .ok s => convert s) = .ok (value, source)) : ∃ s, convert s = .ok (value, source) := by
  obtain ⟨decoded, _, h⟩ := bind_ok h
  cases decoded with
  | error e => cases h
  | ok s => exact ⟨s, h⟩

/-- Both sides render every column of an accepted record, and alike unless the conversion changed it. -/
theorem compares_of_ok (zeroPads : Bool) (h : convertField codecs spec raw = .ok (value, source)) :
    Compares zeroPads spec value source := by
  unfold convertField at h
  cases kind : spec.kind with
  | binary =>
    simp only [kind] at h
    cases h
    apply compares_same (t := if spec.isKey then (hexUpper raw).toList else rtrim (hexUpper raw).toList)
    · simp only [renderSourceColumn, asText, mapSource, kind, renderKind, render_text]
    · simp only [kind, renderKind, asText, render_text]
    · exact True.intro
  | char =>
    simp only [kind] at h
    obtain ⟨s, h⟩ := decoded_ok h
    simp only [convertChar] at h
    split at h
    next => cases h
    next =>
      split at h
      next => cases h
      next =>
        cases h
        exact compares_char kind
  | date8 =>
    simp only [kind] at h
    obtain ⟨s, h⟩ := decoded_ok h
    exact compares_date8 kind h
  | timestamp12 =>
    simp only [kind] at h
    obtain ⟨s, h⟩ := decoded_ok h
    unfold convertTimestamp12 at h
    split at h
    next => cases h
    next =>
      cases h
      apply compares_same (t := if spec.isKey then s else rtrim s)
      · simp only [renderSourceColumn, asText, mapSource, kind, renderKind, render_text]
      · simp only [kind, renderKind, asText, render_text]
      · simp only [Unchanged, kind]
  | int =>
    simp only [kind] at h
    obtain ⟨n, -, rfl, rfl⟩ := convertInt_ok h
    apply compares_same (t := (toString n).toList)
    · simp only [renderSourceColumn, asText, mapSource, kind, renderKind, render]
    · simp only [kind, renderKind, asText, render]
    · exact True.intro
  | decimal =>
    simp only [kind] at h
    obtain ⟨literal, d, _, number, fits, rfl, rfl⟩ := convertDecimal_ok h
    have rendered := (renderDecimal_of_fits kind number fits).2
    apply compares_same (t := Decimal.fixed ⟨d.rescale (-8), -8⟩)
    · exact (renderSourceColumn_decimal zeroPads kind).trans rendered
    · simpa only [kind, renderKind, asText, render] using rendered
    · exact True.intro

end

end OtterWorks.Migration
