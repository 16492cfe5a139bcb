import OtterWorks.Reports.ArchiveTables

namespace OtterWorks.Reports

open Migration

section

variable {s a b m first last : Text} {c : Char} {n start k : Nat}

theorem trim_of_ends (first_ : first ≠ []) (last_ : last ≠ []) (open_ : ∀ c ∈ first, 0x20 < c.toNat)
    (close : ∀ c ∈ last, 0x20 < c.toNat) : trim (first ++ m ++ last) = first ++ m ++ last := by
  have kept : ∀ {front rest : Text}, front ≠ [] → (∀ c ∈ front, 0x20 < c.toNat) →
      ((front ++ rest).dropWhile fun c => decide (c.toNat ≤ 0x20)) = front ++ rest := by
    intro front rest some visible
    cases front with
    | nil => exact absurd rfl some
    | cons c front =>
      have here := visible c (List.mem_cons_self ..)
      rw [List.cons_append, List.dropWhile_cons_of_neg]
      simp only [decide_eq_true_eq]
      omega
  have back : ∀ c ∈ last.reverse, 0x20 < c.toNat := fun c hc => close c (List.mem_reverse.mp hc)
  unfold trim
  rw [List.append_assoc, kept first_ open_, ← List.append_assoc, List.reverse_append,
    kept (by simpa using last_) back, ← List.reverse_append, List.reverse_reverse]

theorem substring_front (length : a.length = n) : substring (a ++ b) 0 n = .ok a := by
  unfold substring
  rw [if_pos ⟨by omega, by rw [List.length_append]; omega⟩, List.take_left' length]
  rfl

theorem substring_back (length : a.length = n) : substring (a ++ b) n (a ++ b).length = .ok b := by
  unfold substring
  rw [if_pos ⟨by rw [List.length_append]; omega, le_refl _⟩, List.take_length, List.drop_left' length]

theorem indexOf_after (shape : s = a ++ (m ++ c :: b)) (length : a.length = start) (free : ∀ x ∈ m, x ≠ c) :
    indexOf c s start = some (start + m.length) := by
  have found : (m ++ c :: b).findIdx? (· == c) = some m.length := by
    clear shape length
    induction m with
    | nil => simp [List.findIdx?_cons]
    | cons x m ih =>
      have other := free x (List.mem_cons_self ..)
      rw [List.cons_append, List.findIdx?_cons, ih fun y hy => free y (List.mem_cons_of_mem _ hy)]
      simp [other]
  rw [indexOf, shape, List.drop_left' length, found, Option.map_some, Nat.add_comm]

theorem splitAtDot_at (length : a.length = n) : Db2Text.splitAtDot (a ++ '.' :: b) (some n) = (a, b) := by
  have past : (a ++ '.' :: b).drop (n + 1) = b := by
    rw [List.drop_append, List.drop_of_length_le (by omega), show n + 1 - a.length = 1 by omega]
    rfl
  rw [Db2Text.splitAtDot, List.take_left' length, past]

theorem not_control_of_isDecimal (h : isDecimal c = true) : ¬(c.toNat < 0x20 ∨ (0x7f ≤ c.toNat ∧ c.toNat ≤ 0x9f)) := by
  obtain ⟨digit, found⟩ := Option.isSome_iff_exists.mp h
  obtain ⟨block, held, _⟩ := Option.map_eq_some_iff.mp found
  have apart : ∀ x ∈ decimalZeros, x = 0x30 ∨ 0x9f < x := by decide
  have inside := List.find?_some held
  have listed := apart block (List.mem_of_find?_eq_some held)
  simp only [decide_eq_true_eq] at inside
  omega

theorem visible_of_isDecimal (h : isDecimal c = true) : 0x20 < c.toNat := by
  obtain ⟨digit, found⟩ := Option.isSome_iff_exists.mp h
  obtain ⟨block, held, _⟩ := Option.map_eq_some_iff.mp found
  have least : ∀ x ∈ decimalZeros, 0x20 < x := by decide
  have inside := List.find?_some held
  have listed := least block (List.mem_of_find?_eq_some held)
  simp only [decide_eq_true_eq] at inside
  omega

theorem replace_of_absent {old new : Char} (absent : ∀ x ∈ s, x ≠ old) : replace old new s = s := by
  unfold replace
  conv => rhs; rw [← List.map_id s]
  exact List.map_congr_left fun x hx => if_neg (absent x hx)

/-- A timestamp is read from Db2 as it is written there. -/
theorem timestamp12FromJdbc_text {p : Pieces} (fit : p.Fit) :
    Db2Text.timestamp12FromJdbc (some p.text) = .ok (some p.text) := by
  let date := p.year ++ '-' :: (p.month ++ '-' :: p.day)
  let time := p.hour ++ '.' :: (p.minute ++ '.' :: (p.second ++ '.' :: p.fraction))
  have shape : p.text = (date ++ ['-']) ++ time := by simp [Pieces.text, date, time]
  have free : ∀ {x : Text}, x.all isDecimal = true → ∀ y ∈ x, y ≠ '.' := fun digits => not_separator digits (by decide)
  have ends : trim p.text = p.text := by
    have parts : p.text = p.year ++ ('-' :: (p.month ++ '-' :: (p.day ++ '-' :: (p.hour ++ '.' :: (p.minute ++ '.' ::
        (p.second ++ ['.'])))))) ++ p.fraction := by simp [Pieces.text]
    rw [parts]
    apply trim_of_ends
    · exact List.ne_nil_of_length_pos (by rw [fit.year.1]; decide)
    · exact List.ne_nil_of_length_pos (by rw [fit.fraction.1]; decide)
    · exact fun c hc => visible_of_isDecimal (List.all_eq_true.mp fit.year.2 c hc)
    · exact fun c hc => visible_of_isDecimal (List.all_eq_true.mp fit.fraction.2 c hc)
  have dateLength : date.length = 10 := by simp [date, fit.year.1, fit.month.1, fit.day.1]
  have front : substring p.text 0 10 = .ok date := by
    rw [shape, List.append_assoc]
    exact substring_front dateLength
  have back : substring p.text 11 p.text.length = .ok time := by
    rw [shape]
    exact substring_back (by rw [List.length_append, dateLength]; rfl)
  have colons : replace ':' '.' time = time := by
    apply replace_of_absent
    intro x hx
    simp only [time, List.mem_append, List.mem_cons] at hx
    have digit : ∀ {y : Text}, y.all isDecimal = true → x ∈ y → x ≠ ':' := fun digits h =>
      not_separator digits (by decide) x h
    rcases hx with h | rfl | h | rfl | h | rfl | h
    · exact digit fit.hour.2 h
    · decide
    · exact digit fit.minute.2 h
    · decide
    · exact digit fit.second.2 h
    · decide
    · exact digit fit.fraction.2 h
  have firstDot : indexOf '.' time 0 = some 2 := by
    rw [indexOf_after (a := []) (m := p.hour) (b := p.minute ++ '.' :: (p.second ++ '.' :: p.fraction)) (by simp [time])
      (by rfl) (free fit.hour.2), fit.hour.1]
  have secondDot : indexOf '.' time 3 = some 5 := by
    rw [indexOf_after (a := p.hour ++ ['.']) (m := p.minute) (b := p.second ++ '.' :: p.fraction) (by simp [time])
      (by simp [fit.hour.1]) (free fit.minute.2), fit.minute.1]
  have fractionDot : indexOf '.' time 6 = some 8 := by
    rw [indexOf_after (a := p.hour ++ '.' :: (p.minute ++ ['.'])) (m := p.second) (b := p.fraction) (by simp [time])
      (by simp [fit.hour.1, fit.minute.1]) (free fit.second.2), fit.second.1]
  have cut : Db2Text.splitAtDot time (some 8) = (p.hour ++ '.' :: (p.minute ++ '.' :: p.second), p.fraction) := by
    have parts : time = (p.hour ++ '.' :: (p.minute ++ '.' :: p.second)) ++ '.' :: p.fraction := by simp [time]
    rw [parts]
    exact splitAtDot_at (by simp [fit.hour.1, fit.minute.1, fit.second.1])
  have whole : Db2Text.padRight p.fraction 12 = p.fraction := by
    rw [Db2Text.padRight, fit.fraction.1, Nat.sub_self, List.replicate_zero, List.append_nil]
  simp only [Db2Text.timestamp12FromJdbc, ends, front, back, bind, Except.bind, colons, firstDot, Option.map_some,
    Option.getD_some, Nat.reduceAdd, secondDot, fractionDot, cut, whole]
  simp [Pieces.text, date]

/-- The parts of a moment have no more digits than their places. -/
structure Placed (dt : DateTime) : Prop where
  year : dt.year < 10 ^ 4
  month : dt.month < 10 ^ 2
  day : dt.day < 10 ^ 2
  hour : dt.hour < 10 ^ 2
  minute : dt.minute < 10 ^ 2
  second : dt.second < 10 ^ 2
  microsecond : dt.microsecond < 10 ^ 6

theorem length_zeroPad_of_lt (fits : n < 10 ^ k) (pos : 0 < k) : (zeroPad k n).length = k :=
  length_zeroPad ((Nat.length_toDigits_le_iff (by omega) pos).mpr fits)

theorem replace_append {old new : Char} : replace old new (a ++ b) = replace old new a ++ replace old new b := List.map_append

theorem not_mem_zeroPad {sep : Char} (other : sep.isDigit = false) : ∀ x ∈ zeroPad k n, x ≠ sep := by
  rintro x hx rfl
  rw [isDigit_zeroPad hx] at other
  cases other

/-- A timestamp is put together again from what PostgreSQL stores of it. -/
theorem timestamp12FromPg_text {dt : DateTime} (placed : Placed dt) :
    Db2Text.timestamp12FromPgTimestamp (some (toChar dt ' ' ':')) n = .ok (some (toChar dt '-' '.' ++ zeroPad 6 n)) := by
  let date := zeroPad 4 dt.year ++ '-' :: (zeroPad 2 dt.month ++ '-' :: zeroPad 2 dt.day)
  let hms (colon : Char) := zeroPad 2 dt.hour ++ colon :: (zeroPad 2 dt.minute ++ colon :: zeroPad 2 dt.second)
  have shape : ∀ between colon, toChar dt between colon =
      (date ++ [between]) ++ (hms colon ++ '.' :: zeroPad 6 dt.microsecond) := by
    intro between colon
    simp [toChar, date, hms]
  have visible : ∀ {w m : Nat}, ∀ c ∈ zeroPad w m, 0x20 < c.toNat :=
    fun c hc => visible_of_isDecimal (isDecimal_of_isDigit (isDigit_zeroPad hc))
  have yearLength := length_zeroPad_of_lt placed.year (by decide)
  have monthLength := length_zeroPad_of_lt placed.month (by decide)
  have dayLength := length_zeroPad_of_lt placed.day (by decide)
  have hourLength := length_zeroPad_of_lt placed.hour (by decide)
  have minuteLength := length_zeroPad_of_lt placed.minute (by decide)
  have secondLength := length_zeroPad_of_lt placed.second (by decide)
  have microLength := length_zeroPad_of_lt placed.microsecond (by decide)
  have ends : trim (toChar dt ' ' ':') = toChar dt ' ' ':' := by
    have parts : toChar dt ' ' ':' = zeroPad 4 dt.year ++ ('-' :: (zeroPad 2 dt.month ++ '-' :: (zeroPad 2 dt.day ++ ' ' ::
        (hms ':' ++ ['.'])))) ++ zeroPad 6 dt.microsecond := by simp [toChar, hms]
    rw [parts]
    apply trim_of_ends
    · exact List.ne_nil_of_length_pos (by omega)
    · exact List.ne_nil_of_length_pos (by omega)
    · exact visible
    · exact visible
  have dateLength : date.length = 10 := by simp only [date, List.length_append, List.length_cons]; omega
  have plain : replace 'T' ' ' (toChar dt ' ' ':') = toChar dt ' ' ':' := by
    apply replace_of_absent
    intro x hx
    simp only [toChar, List.mem_append, List.mem_cons] at hx
    have digit : ∀ {w m : Nat}, x ∈ zeroPad w m → x ≠ 'T' := fun h => not_mem_zeroPad (by decide) x h
    rcases hx with h | rfl | h | rfl | h | rfl | h | rfl | h | rfl | h | rfl | h
    all_goals first
      | exact digit h
      | decide
  have front : substring (toChar dt ' ' ':') 0 10 = .ok date := by
    rw [shape, List.append_assoc]
    exact substring_front dateLength
  have back : substring (toChar dt ' ' ':') 11 (toChar dt ' ' ':').length =
      .ok (hms ':' ++ '.' :: zeroPad 6 dt.microsecond) := by
    rw [shape]
    exact substring_back (by rw [List.length_append, dateLength]; rfl)
  have clock : (hms ':').length = 8 := by simp only [hms, List.length_append, List.length_cons]; omega
  have noDot : ∀ x ∈ hms ':', x ≠ '.' := by
    intro x hx
    simp only [hms, List.mem_append, List.mem_cons] at hx
    have digit : ∀ {w m : Nat}, x ∈ zeroPad w m → x ≠ '.' := fun h => not_mem_zeroPad (by decide) x h
    rcases hx with h | rfl | h | rfl | h
    all_goals first
      | exact digit h
      | decide
  have dot : indexOf '.' (hms ':' ++ '.' :: zeroPad 6 dt.microsecond) 0 = some 8 := by
    rw [indexOf_after (a := []) (m := hms ':') (b := zeroPad 6 dt.microsecond) (by simp) (by rfl) noDot, clock]
  have cut := splitAtDot_at (b := zeroPad 6 dt.microsecond) clock
  have filled : substring (Db2Text.padRight (zeroPad 6 dt.microsecond) 6) 0 6 = .ok (zeroPad 6 dt.microsecond) := by
    rw [Db2Text.padRight, microLength]
    exact substring_front microLength
  have dots : replace ':' '.' (hms ':') = hms '.' := by
    have digit : ∀ {w m : Nat}, replace ':' '.' (zeroPad w m) = zeroPad w m :=
      replace_of_absent (not_mem_zeroPad (by decide))
    have colon : ∀ rest, replace ':' '.' (':' :: rest) = '.' :: replace ':' '.' rest := fun _ => rfl
    simp only [hms, replace_append, digit, colon]
  have tail : formatInt 6 (n : Int) = zeroPad 6 n := by
    unfold formatInt
    rw [if_neg (by omega), Int.natAbs_natCast]
  simp only [Db2Text.timestamp12FromPgTimestamp, ends, plain, front, back, bind, Except.bind, dot, cut, filled, dots, tail]
  rw [shape]
  simp

theorem lpad6_toString (fits : n < 10 ^ 6) : lpad6 (toString n).toList = zeroPad 6 n := by
  have digits : (toString n).toList = Nat.toDigits 10 n := by simp
  have width := length_zeroPad_of_lt fits (by decide)
  rw [lpad6, digits]
  change (zeroPad 6 n).take 6 = zeroPad 6 n
  rw [List.take_of_length_le (by omega)]

/-- A text is what is left of it without its last blanks, filled up again. -/
theorem ljust_rtrim : ljust (rtrim s) s.length = s := by
  let blanks := s.reverse.takeWhile (· == ' ')
  have parts : s = rtrim s ++ blanks.reverse := by
    rw [rtrim, ← List.reverse_append, List.takeWhile_append_dropWhile, List.reverse_reverse]
  have length : s.length = (rtrim s).length + blanks.length := by
    have total := congrArg List.length parts
    rw [List.length_append, List.length_reverse] at total
    exact total
  have fill : blanks.reverse = List.replicate (s.length - (rtrim s).length) ' ' := by
    apply List.eq_replicate_iff.mpr
    constructor
    · rw [List.length_reverse]
      omega
    · intro c hc
      have blank := List.mem_takeWhile_imp (List.mem_reverse.mp hc)
      simpa using blank
  rw [ljust, ← fill]
  exact parts.symm

theorem rpad_rtrim (length : s.length = n) : rpad (rtrim s) n = s := by
  subst length
  rw [rpad, ljust_rtrim, List.take_length]

/-- A number of eight fraction digits is written alike on both sides. -/
theorem decimal_texts {d : Decimal} (scale : d.exponent = -8) :
    (d.coeff.natAbs < 10 ^ 38 → decimalExpression d = some (Decimal.fixed d)) ∧
      Db2Text.decimal8 (some d) = .ok (some (Decimal.fixed d)) ∧ d.rescale (-8) = d.coeff := by
  have self : d.coeffAt (-8) = d.coeff := by rw [← scale, Decimal.coeffAt_self]
  have whole : (⟨d.coeff, -8⟩ : Decimal) = d := by rw [← scale]
  have kept : -8 ≤ d.exponent := by omega
  have rescaled : d.rescale (-8) = d.coeff := by rw [Decimal.rescale, if_pos kept, self]
  refine ⟨fun fits => ?_, ?_, rescaled⟩
  · have cast := @Decimal.castNumeric_of_le d 8 38 kept
    change d.castNumeric 38 8 = if (d.rescale (-8)).natAbs < 10 ^ 38 then some ⟨d.rescale (-8), -8⟩ else none at cast
    rw [rescaled, if_pos fits, whole] at cast
    rw [decimalExpression, cast, Option.map_some]
  · have exact_ : Db2Text.setScaleExact 8 d = .ok d := by
      unfold Db2Text.setScaleExact
      simp only [Nat.cast_ofNat, if_pos kept, self, whole]
    rw [Db2Text.decimal8, exact_]
    rfl

/-! What the columns of a stored row hold. -/

variable {x : PgValue} {v : Value}

theorem digitsValue_bound (s : Text) : digitsValue s < 10 ^ s.length := by
  have bounded : ∀ (ds : List Nat) (start : Nat), (∀ d ∈ ds, d ≤ 9) →
      ds.foldl (fun n d => 10 * n + d) start < (start + 1) * 10 ^ ds.length := by
    intro ds
    induction ds with
    | nil => intro start _; simp
    | cons d ds ih =>
      intro start small
      have here := small d (List.mem_cons_self ..)
      have later := ih (10 * start + d) fun x hx => small x (List.mem_cons_of_mem _ hx)
      rw [List.foldl_cons, List.length_cons, Nat.pow_succ']
      calc ds.foldl (fun n d => 10 * n + d) (10 * start + d)
          < (10 * start + d + 1) * 10 ^ ds.length := later
        _ ≤ ((start + 1) * 10) * 10 ^ ds.length := Nat.mul_le_mul_right _ (by omega)
        _ = (start + 1) * (10 * 10 ^ ds.length) := Nat.mul_assoc _ _ _
  have digits : ∀ d ∈ s.filterMap decimalDigit, d ≤ 9 := by
    intro d hd
    obtain ⟨c, _, found⟩ := List.mem_filterMap.mp hd
    obtain ⟨block, held, rfl⟩ := Option.map_eq_some_iff.mp found
    have inside := List.find?_some held
    simp only [decide_eq_true_eq] at inside
    omega
  have value := bounded (s.filterMap decimalDigit) 0 digits
  have fewer := Nat.pow_le_pow_right (show 0 < 10 by decide) (List.length_filterMap_le decimalDigit s)
  rw [Nat.zero_add, Nat.one_mul] at value
  exact Nat.lt_of_lt_of_le value fewer

theorem fitLength_length {t : Text} (h : fitLength n s = some t) : t.length ≤ n := by
  unfold fitLength at h
  split at h
  next =>
    cases h
    exact List.length_take_le n s
  next => cases h

theorem store_char (h : (PgType.char n).store v = some x) : ∃ s, x = .bpchar s ∧ s.length = n := by
  cases v with
  | text s =>
    obtain ⟨t, fits, rfl⟩ := Option.map_eq_some_iff.mp h
    have short := fitLength_length fits
    refine ⟨ljust t n, rfl, ?_⟩
    rw [ljust, List.length_append, List.length_replicate]
    omega
  | _ => cases h

theorem store_varchar (h : (PgType.varchar n).store v = some x) :
    ∃ s t, v = .text s ∧ fitLength n s = some t ∧ x = .varchar t := by
  cases v with
  | text s =>
    obtain ⟨t, fits, rfl⟩ := Option.map_eq_some_iff.mp h
    exact ⟨s, t, rfl, fits, rfl⟩
  | _ => cases h

theorem store_int {type : PgType} (is : type = .smallint ∨ type = .bigint) (h : type.store v = some x) : ∃ m, x = .int m := by
  cases v with
  | int m =>
    have made : some (PgValue.int m) = some x := by
      rcases is with rfl | rfl
      · exact (Option.ite_none_right_eq_some.mp h).2
      · exact (Option.ite_none_right_eq_some.mp h).2
    exact ⟨m, (Option.some.inj made).symm⟩
  | _ => rcases is with rfl | rfl <;> cases h

theorem store_numeric {p k : Nat} (h : (PgType.numeric p k).store v = some x) :
    ∃ d, x = .numeric d ∧ d.exponent = -(k : Int) ∧ d.coeff.natAbs < 10 ^ p := by
  cases v with
  | decimal d =>
    obtain ⟨cast, made, rfl⟩ := Option.map_eq_some_iff.mp h
    obtain ⟨m, shape, _⟩ := @Decimal.castNumeric_eq d p k
    rw [shape] at made
    split at made
    next fits =>
      cases made
      exact ⟨_, rfl, rfl, fits⟩
    next => cases made
  | _ => cases h

theorem store_timestamp (h : PgType.timestamp6.store v = some x) :
    ∃ dt tail, x = .timestamp dt tail ∧ Placed dt ∧ tail < 10 ^ 6 := by
  cases v with
  | timestamp12 s =>
    obtain ⟨ts, parsed, rfl⟩ := Option.map_eq_some_iff.mp h
    obtain ⟨p, rest, fit, valid, _, rfl, rfl⟩ := parse_eq.mp parsed
    rw [fit.split]
    obtain ⟨date, hour, minute, second⟩ := valid
    obtain ⟨_, year, month, day⟩ := dateError_none date
    have tail := digitsValue_bound (p.fraction.drop 6)
    have micro := digitsValue_bound (p.fraction.take 6)
    rw [List.length_drop, fit.fraction.1] at tail
    rw [List.length_take, fit.fraction.1] at micro
    have placed : Placed p.dt :=
      { year := show digitsValue p.year < 10 ^ 4 by omega
        month := show digitsValue p.month < 10 ^ 2 by omega
        day := show digitsValue p.day < 10 ^ 2 by omega
        hour := show digitsValue p.hour < 10 ^ 2 by omega
        minute := show digitsValue p.minute < 10 ^ 2 by omega
        second := show digitsValue p.second < 10 ^ 2 by omega
        microsecond := micro }
    exact ⟨p.dt, _, rfl, placed, tail⟩
  | _ => cases h

/-! Columns by their names. -/

variable {t : ArchiveTable} {c : ArchiveColumn} {row : PgRow} {values : Fields}

theorem byName_lookup {specs : List ColumnSpec} (names : (specs.map ColumnSpec.name).Nodup) {spec : ColumnSpec}
    (h : spec ∈ specs) : (byName specs).lookup spec.name = some spec := by
  have others : ∀ (specs : List ColumnSpec) (start : List (String × ColumnSpec)) (n : String),
      n ∉ specs.map ColumnSpec.name →
      (specs.foldl (fun names spec => assign spec.name spec names) start).lookup n = start.lookup n := by
    intro specs
    induction specs with
    | nil => exact fun _ _ _ => rfl
    | cons first specs ih =>
      intro start n absent
      rw [List.map_cons, List.mem_cons, not_or] at absent
      rw [List.foldl_cons, ih _ n absent.2, lookup_assign_ne absent.1]
  unfold byName
  generalize ([] : List (String × ColumnSpec)) = start
  induction specs generalizing start with
  | nil => exact absurd h List.not_mem_nil
  | cons first specs ih =>
    obtain ⟨fresh, distinct⟩ := List.nodup_cons.mp names
    rw [List.foldl_cons]
    rcases List.mem_cons.mp h with rfl | later
    · rw [others specs _ _ fresh, lookup_assign_self]
    · exact ih distinct later _

theorem stored_column (stored : storeRow t values = some row) (names : (t.columns.map ArchiveColumn.name).Nodup)
    (h : c ∈ t.columns) : ∃ x, row.lookup c.name = some x ∧ c.pgType.store (values.get c.name) = some x := by
  have each := mapM_some.mp stored
  clear stored
  generalize t.columns = columns at each names h
  induction each with
  | nil => exact absurd h List.not_mem_nil
  | @cons first entry columns row here rest ih =>
    obtain ⟨x, made, rfl⟩ := Option.map_eq_some_iff.mp here
    obtain ⟨fresh, distinct⟩ := List.nodup_cons.mp names
    rcases List.mem_cons.mp h with rfl | later
    · exact ⟨x, List.lookup_cons_self, made⟩
    · obtain ⟨y, found, store⟩ := ih distinct later
      have other : (c.name == first.name) = false := by
        rw [beq_eq_false_iff_ne]
        intro same
        exact fresh (same ▸ List.mem_map_of_mem later)
      refine ⟨y, ?_, store⟩
      rw [List.lookup_cons, other]
      exact found

theorem pgColumnText_eq (names : (t.columns.map ArchiveColumn.name).Nodup) (h : c ∈ t.columns) {x : PgValue}
    (held : row.lookup c.name = some x) : pgColumnText t row c.name = pgExpression c.spec x := by
  have distinct : (t.hashed.specs.map ColumnSpec.name).Nodup := by
    rw [ArchiveTable.hashed, List.map_map]
    exact names
  have found := byName_lookup distinct (List.mem_map_of_mem h)
  change (byName t.hashed.specs).lookup c.name = some c.spec at found
  rw [pgColumnText, found, held]
  rfl

/-! The text of each column of a stored row, as the hash expression has it and as the report service reads it. -/

theorem column_char {name : String} {offset width : Nat} {valueMap : List (Text × Text)} {isKey : Bool}
    (names : (t.columns.map ArchiveColumn.name).Nodup) (stored : storeRow t values = some row)
    (h : charColumn name offset width isKey valueMap ∈ t.columns) (pos : width ≠ 0) :
    ∃ s, row.plain name = .text s ∧ pgColumnText t row name = some (if isKey then s else rtrim s) := by
  obtain ⟨x, held, made⟩ := stored_column stored names h
  obtain ⟨s, rfl, length⟩ := store_char made
  have expression := pgColumnText_eq names h held
  change row.lookup name = _ at held
  change pgColumnText t row name = _ at expression
  refine ⟨s, by rw [PgRow.plain, held], ?_⟩
  rw [expression]
  cases isKey with
  | true => simp [pgExpression, charColumn, textField, ArchiveColumn.spec, PgValue.castText, pos, rpad_rtrim length]
  | false => simp [pgExpression, charColumn, textField, ArchiveColumn.spec, PgValue.castText]

theorem column_varchar (name : String) (names : (t.columns.map ArchiveColumn.name).Nodup)
    (stored : storeRow t values = some row) (h : c ∈ t.columns) (is : c.name = name)
    (type : c.pgType = .varchar n) (kind : c.spec.kind = .char) (trim_ : c.spec.trim = true) :
    ∃ s u, values.get name = .text s ∧ fitLength n s = some u ∧ row.plain name = .text u ∧
      pgColumnText t row name = some (if c.spec.isKey then u else rtrim u) := by
  subst is
  obtain ⟨x, held, made⟩ := stored_column stored names h
  rw [type] at made
  obtain ⟨s, u, value, fits, rfl⟩ := store_varchar made
  refine ⟨s, u, value, fits, by rw [PgRow.plain, held], ?_⟩
  rw [pgColumnText_eq names h held]
  unfold pgExpression
  rw [kind]
  cases isKey : c.spec.isKey with
  | true => simp [trim_, PgValue.castText]
  | false => simp [PgValue.castText]

theorem column_int (name : String) (names : (t.columns.map ArchiveColumn.name).Nodup) (stored : storeRow t values = some row)
    (h : c ∈ t.columns) (is : c.name = name) (type : c.pgType = .smallint ∨ c.pgType = .bigint) (kind : c.spec.kind = .int) :
    ∃ m, row.plain name = .int m ∧ pgColumnText t row name = some (toString m).toList := by
  subst is
  obtain ⟨x, held, made⟩ := stored_column stored names h
  obtain ⟨m, rfl⟩ := store_int type made
  refine ⟨m, by rw [PgRow.plain, held], ?_⟩
  rw [pgColumnText_eq names h held]
  unfold pgExpression
  rw [kind]

theorem column_decimal {name : String} {offset precision : Nat} {narrow : precision ≤ 38}
    (names : (t.columns.map ArchiveColumn.name).Nodup) (stored : storeRow t values = some row)
    (h : decimalColumn name offset precision narrow ∈ t.columns) :
    ∃ d u, row.plain name = .decimal d ∧ Db2Text.decimal8 (some d) = .ok (some u) ∧ pgColumnText t row name = some u := by
  obtain ⟨x, held, made⟩ := stored_column stored names h
  obtain ⟨d, rfl, scale, fits⟩ := store_numeric made
  have expression := pgColumnText_eq names h held
  change row.lookup name = _ at held
  change pgColumnText t row name = _ at expression
  obtain ⟨written, read, _⟩ := decimal_texts scale
  have wide : d.coeff.natAbs < 10 ^ 38 := Nat.lt_of_lt_of_le fits (Nat.pow_le_pow_right (by decide) narrow)
  refine ⟨d, Decimal.fixed d, by rw [PgRow.plain, held], read, ?_⟩
  rw [expression, ← written wide]
  rfl

theorem column_timestamp {name : String} {offset : Nat} (names : (t.columns.map ArchiveColumn.name).Nodup)
    (stored : storeRow t values = some row) (h : timestampColumn name offset ∈ t.columns) :
    ∃ s m u, row.timestampText name = .text s ∧ row.nanosTail name = .int m ∧
      Db2Text.timestamp12FromPgTimestamp (some s) m = .ok (some u) ∧ pgColumnText t row name = some u := by
  obtain ⟨x, held, made⟩ := stored_column stored names h
  obtain ⟨dt, tail, rfl, placed, fits⟩ := store_timestamp made
  have expression := pgColumnText_eq names h held
  change row.lookup name = _ at held
  change pgColumnText t row name = _ at expression
  refine ⟨toChar dt ' ' ':', tail, toChar dt '-' '.' ++ zeroPad 6 tail, by rw [PgRow.timestampText, held],
    by rw [PgRow.nanosTail, held], timestamp12FromPg_text placed, ?_⟩
  rw [expression, ← lpad6_toString fits]
  rfl

theorem column_date {name : String} {offset y m d : Nat} (names : (t.columns.map ArchiveColumn.name).Nodup)
    (stored : storeRow t values = some row) (h : dateColumn name offset ∈ t.columns)
    (value : values.get name = .date (isoDate y m d)) (valid : dateError y m d = none) :
    ∃ iso u, row.dateText name = .text iso ∧ Db2Text.yyyymmddFromIso (some iso) = some u ∧
      pgColumnText t row name = some u := by
  obtain ⟨x, held, made⟩ := stored_column stored names h
  change PgType.date.store (values.get name) = some x at made
  rw [value] at made
  cases made
  have expression := pgColumnText_eq names h held
  change row.lookup name = _ at held
  change pgColumnText t row name = _ at expression
  obtain ⟨_, year, month, day⟩ := dateError_none valid
  refine ⟨isoDate y m d, yearMonthDay true (isoDate y m d), by rw [PgRow.dateText, held], ?_, ?_⟩
  · have visible : ∀ {w k : Nat}, ∀ c ∈ zeroPad w k, 0x20 < c.toNat :=
      fun c hc => visible_of_isDecimal (isDecimal_of_isDigit (isDigit_zeroPad hc))
    have yearLength := length_zeroPad_of_lt (n := y) (k := 4) (by omega) (by decide)
    have dayLength := length_zeroPad_of_lt (n := d) (k := 2) (by omega) (by decide)
    have parts : isoDate y m d = zeroPad 4 y ++ ('-' :: (zeroPad 2 m ++ ['-'])) ++ zeroPad 2 d := by simp [isoDate]
    have ends : trim (isoDate y m d) = isoDate y m d := by
      rw [parts]
      apply trim_of_ends
      · exact List.ne_nil_of_length_pos (by omega)
      · exact List.ne_nil_of_length_pos (by omega)
      · exact visible
      · exact visible
    have digits : ∀ {w k : Nat}, (zeroPad w k).filter (· ≠ '-') = zeroPad w k := by
      intro w k
      rw [List.filter_eq_self]
      intro c hc
      exact decide_eq_true (not_mem_zeroPad (by decide) c hc)
    rw [Db2Text.yyyymmddFromIso, Option.map_some, ends, yearMonthDay_isoDate year month, isoDate]
    simp only [List.filter_append, digits, if_true, ne_eq, not_true_eq_false, decide_false, Bool.false_eq_true,
      not_false_eq_true, List.filter_cons_of_neg, List.append_assoc]
  · rw [expression]
    rfl

theorem docarch_names (classMap : List (Text × Text)) : ((docarch classMap).columns.map ArchiveColumn.name).Nodup := by
  show ["ARCH_KEY", "DOC_ID", "VERSION_NO", "RETENTION_CLASS", "LAST_ACCESS_TS", "STORAGE_CHARGE", "UNIT_RATE",
    "OWNER_NAME", "DISPOSITION_DT", "LEGAL_HOLD_FLAG", "CHECKSUM_ALG", "CONTENT_SHA256", "BYTE_SIZE", "SOURCE_SYS"].Nodup
  decide

theorem fileaud_names (classMap : List (Text × Text)) : ((fileaud classMap).columns.map ArchiveColumn.name).Nodup := by
  show ["AUDIT_KEY", "ARCH_KEY", "EVENT_TYPE", "EVENT_TS", "ACTOR_ID", "RETENTION_CLASS", "DISPOSITION_CODE", "CLIENT_IP",
    "DETAIL_TEXT"].Nodup
  decide

namespace ResultSet

variable {rs : ResultSet} {label : String}

theorem getString_of (h : rs.get label = .text s) : rs.getString label = some s := by rw [getString, h]

theorem getInt_of {m : Int} (h : rs.get label = .int m) : rs.getInt label = m := by rw [getInt, h]

theorem getBigDecimal_of {d : Decimal} (h : rs.get label = .decimal d) : rs.getBigDecimal label = some d := by
  rw [getBigDecimal, h]

theorem getBytes_of {raw : Bytes} (h : rs.get label = .bytes raw) : rs.getBytes label = some raw := by rw [getBytes, h]

end ResultSet

/-- The text that is hashed of a version, by what the mapping has read. -/
theorem mapVersionWith_text {rs : ResultSet} (lastAccessTs ownerName rawDispositionDt dispositionDt : Option Text)
    {charge rate : Option Text}
    (chargeRead : Db2Text.decimal8 (rs.getBigDecimal "STORAGE_CHARGE") = .ok charge)
    (rateRead : Db2Text.decimal8 (rs.getBigDecimal "UNIT_RATE") = .ok rate) :
    ∃ v, mapVersionWith rs lastAccessTs ownerName rawDispositionDt dispositionDt = .ok v ∧
      BusinessHash.docarchText v = joinColumns [rs.getString "ARCH_KEY", Db2Text.rtrim (rs.getString "DOC_ID"),
        some (toString (rs.getInt "VERSION_NO")).toList, Db2Text.rtrim (rs.getString "RETENTION_CLASS"), lastAccessTs, charge,
        rate, Db2Text.rtrim ownerName, rawDispositionDt, Db2Text.rtrim (rs.getString "LEGAL_HOLD_FLAG"),
        Db2Text.rtrim (rs.getString "CONTENT_SHA256"), some (toString (rs.getInt "BYTE_SIZE")).toList] := by
  unfold mapVersionWith
  rw [chargeRead, rateRead]
  exact ⟨_, rfl, rfl⟩

theorem fileaudText_mapEventWith {rs : ResultSet} {eventTs : Option Text} : BusinessHash.fileaudText (mapEventWith rs eventTs) =
    joinColumns [rs.getString "AUDIT_KEY", Db2Text.rtrim (rs.getString "ARCH_KEY"), Db2Text.rtrim (rs.getString "EVENT_TYPE"),
      eventTs, Db2Text.rtrim (rs.getString "ACTOR_ID"), Db2Text.rtrim (rs.getString "RETENTION_CLASS"),
      Db2Text.rtrim (rs.getString "DISPOSITION_CODE"), Db2Text.rtrim (rs.getString "CLIENT_IP"),
      Db2Text.rtrim (rs.getString "DETAIL_TEXT")] := rfl

/-- A stored version is hashed by the report service as the target hashes it. -/
theorem docarch_stored {classMap : List (Text × Text)} {y m d : Nat} (stored : storeRow (docarch classMap) values = some row)
    (date : values.get "DISPOSITION_DT" = .date (isoDate y m d)) (valid : dateError y m d = none) :
    ∃ v written key rest, PostgresArchiveStore.mapVersion (PostgresArchiveStore.selectVersion row) = .ok v ∧
      pgHashText (docarch classMap) row = some (BusinessHash.docarchText v) ∧ values.get "ARCH_KEY" = .text written ∧
      fitLength 16 written = some key ∧ BusinessHash.docarchText v = key ++ '|' :: rest := by
  have names := docarch_names classMap
  obtain ⟨keyWritten, key, keyIs, keyFits, keyPlain, keyText⟩ := column_varchar "ARCH_KEY" names stored
    (show trimmedColumn "ARCH_KEY" 0 16 true ∈ _ by simp [docarch]) rfl rfl rfl rfl
  obtain ⟨docId, docIdPlain, docIdText⟩ := column_char names stored
    (show charColumn "DOC_ID" 16 36 false [] ∈ _ by simp [docarch]) (by decide)
  obtain ⟨version, versionPlain, versionText⟩ := column_int "VERSION_NO" names stored
    (show smallintColumn "VERSION_NO" 52 ∈ _ by simp [docarch]) rfl (.inl rfl) rfl
  obtain ⟨cls, clsPlain, clsText⟩ := column_char names stored
    (show charColumn "RETENTION_CLASS" 54 4 false classMap ∈ _ by simp [docarch]) (by decide)
  obtain ⟨stamp, tail, access, stampPlain, tailPlain, accessRead, accessText⟩ := column_timestamp names stored
    (show timestampColumn "LAST_ACCESS_TS" 58 ∈ _ by simp [docarch])
  obtain ⟨charge, chargeWritten, chargePlain, chargeRead, chargeText⟩ := column_decimal names stored
    (show decimalColumn "STORAGE_CHARGE" 90 31 (by decide) ∈ _ by simp [docarch])
  obtain ⟨rate, rateWritten, ratePlain, rateRead, rateText⟩ := column_decimal names stored
    (show decimalColumn "UNIT_RATE" 106 18 (by decide) ∈ _ by simp [docarch])
  obtain ⟨_, owner, _, _, ownerPlain, ownerText⟩ := column_varchar "OWNER_NAME" names stored
    (show ebcdicColumn "OWNER_NAME" 122 40 ∈ _ by simp [docarch]) rfl rfl rfl rfl
  obtain ⟨iso, written, isoPlain, isoRead, isoText⟩ := column_date names stored
    (show dateColumn "DISPOSITION_DT" 162 ∈ _ by simp [docarch]) date valid
  obtain ⟨hold, holdPlain, holdText⟩ := column_char names stored
    (show charColumn "LEGAL_HOLD_FLAG" 170 1 false [] ∈ _ by simp [docarch]) (by decide)
  obtain ⟨sha, shaPlain, shaText⟩ := column_char names stored
    (show charColumn "CONTENT_SHA256" 179 64 false [] ∈ _ by simp [docarch]) (by decide)
  obtain ⟨size, sizePlain, sizeText⟩ := column_int "BYTE_SIZE" names stored
    (show bigintColumn "BYTE_SIZE" 243 ∈ _ by simp [docarch]) rfl (.inr rfl) rfl
  have hashed : (docarch classMap).hashColumns.mapM (pgColumnText (docarch classMap) row) =
      some [key, rtrim docId, (toString version).toList, rtrim cls, access, chargeWritten, rateWritten, rtrim owner, written,
        rtrim hold, rtrim sha, (toString size).toList] := by
    rw [mapM_some]
    exact .cons keyText (.cons docIdText (.cons versionText (.cons clsText (.cons accessText (.cons chargeText
      (.cons rateText (.cons ownerText (.cons isoText (.cons holdText (.cons shaText (.cons sizeText .nil)))))))))))
  let rs := PostgresArchiveStore.selectVersion row
  have keyRead : rs.getString "ARCH_KEY" = some key := ResultSet.getString_of keyPlain
  have docIdRead : rs.getString "DOC_ID" = some docId := ResultSet.getString_of docIdPlain
  have versionRead : rs.getInt "VERSION_NO" = version := ResultSet.getInt_of versionPlain
  have clsRead : rs.getString "RETENTION_CLASS" = some cls := ResultSet.getString_of clsPlain
  have stampRead : rs.getString "LAST_ACCESS_TS" = some stamp := ResultSet.getString_of stampPlain
  have tailRead : rs.getInt "LAST_ACCESS_TS_NANOS_TAIL" = tail := ResultSet.getInt_of tailPlain
  have chargeIs : rs.getBigDecimal "STORAGE_CHARGE" = some charge := ResultSet.getBigDecimal_of chargePlain
  have rateIs : rs.getBigDecimal "UNIT_RATE" = some rate := ResultSet.getBigDecimal_of ratePlain
  have ownerRead : rs.getString "OWNER_NAME" = some owner := ResultSet.getString_of ownerPlain
  have dateRead : rs.getString "DISPOSITION_DT" = some iso := ResultSet.getString_of isoPlain
  have holdRead : rs.getString "LEGAL_HOLD_FLAG" = some hold := ResultSet.getString_of holdPlain
  have shaRead : rs.getString "CONTENT_SHA256" = some sha := ResultSet.getString_of shaPlain
  have sizeRead : rs.getInt "BYTE_SIZE" = size := ResultSet.getInt_of sizePlain
  rw [← chargeIs] at chargeRead
  rw [← rateIs] at rateRead
  obtain ⟨v, mapped, hashText⟩ := mapVersionWith_text (some access) (some owner) (some written)
    (Db2Text.rtrim (some iso)) chargeRead rateRead
  rw [keyRead, docIdRead, versionRead, clsRead, holdRead, shaRead, sizeRead] at hashText
  refine ⟨v, keyWritten, key, _, ?_, ?_, keyIs, keyFits, hashText.trans rfl⟩
  · unfold PostgresArchiveStore.mapVersion
    rw [stampRead, tailRead, accessRead, ownerRead, dateRead, isoRead]
    exact mapped
  · rw [pgHashText, hashed, hashText]
    rfl

/-- A stored event is hashed by the report service as the target hashes it. -/
theorem fileaud_stored {classMap : List (Text × Text)} (stored : storeRow (fileaud classMap) values = some row) :
    ∃ e, PostgresArchiveStore.mapEvent (PostgresArchiveStore.selectEvent row) = .ok e ∧
      pgHashText (fileaud classMap) row = some (BusinessHash.fileaudText e) := by
  have names := fileaud_names classMap
  obtain ⟨auditKey, auditKeyPlain, auditKeyText⟩ := column_char names stored
    (show charColumn "AUDIT_KEY" 0 20 true [] ∈ _ by simp [fileaud]) (by decide)
  obtain ⟨_, archKey, _, _, archKeyPlain, archKeyText⟩ := column_varchar "ARCH_KEY" names stored
    (show trimmedColumn "ARCH_KEY" 20 16 false ∈ _ by simp [fileaud]) rfl rfl rfl rfl
  obtain ⟨type, typePlain, typeText⟩ := column_char names stored
    (show charColumn "EVENT_TYPE" 36 4 false [] ∈ _ by simp [fileaud]) (by decide)
  obtain ⟨stamp, tail, moment, stampPlain, tailPlain, momentRead, momentText⟩ := column_timestamp names stored
    (show timestampColumn "EVENT_TS" 40 ∈ _ by simp [fileaud])
  obtain ⟨actor, actorPlain, actorText⟩ := column_char names stored
    (show charColumn "ACTOR_ID" 72 12 false [] ∈ _ by simp [fileaud]) (by decide)
  obtain ⟨cls, clsPlain, clsText⟩ := column_char names stored
    (show charColumn "RETENTION_CLASS" 84 4 false classMap ∈ _ by simp [fileaud]) (by decide)
  obtain ⟨code, codePlain, codeText⟩ := column_char names stored
    (show charColumn "DISPOSITION_CODE" 88 2 false [] ∈ _ by simp [fileaud]) (by decide)
  obtain ⟨_, ip, _, _, ipPlain, ipText⟩ := column_varchar "CLIENT_IP" names stored
    (show trimmedColumn "CLIENT_IP" 90 15 false ∈ _ by simp [fileaud]) rfl rfl rfl rfl
  obtain ⟨_, detail, _, _, detailPlain, detailText⟩ := column_varchar "DETAIL_TEXT" names stored
    (show trimmedColumn "DETAIL_TEXT" 105 40 false ∈ _ by simp [fileaud]) rfl rfl rfl rfl
  have hashed : (fileaud classMap).hashColumns.mapM (pgColumnText (fileaud classMap) row) =
      some [auditKey, rtrim archKey, rtrim type, moment, rtrim actor, rtrim cls, rtrim code, rtrim ip, rtrim detail] := by
    rw [mapM_some]
    exact .cons auditKeyText (.cons archKeyText (.cons typeText (.cons momentText (.cons actorText (.cons clsText
      (.cons codeText (.cons ipText (.cons detailText .nil))))))))
  let rs := PostgresArchiveStore.selectEvent row
  have auditKeyRead : rs.getString "AUDIT_KEY" = some auditKey := ResultSet.getString_of auditKeyPlain
  have archKeyRead : rs.getString "ARCH_KEY" = some archKey := ResultSet.getString_of archKeyPlain
  have typeRead : rs.getString "EVENT_TYPE" = some type := ResultSet.getString_of typePlain
  have stampRead : rs.getString "EVENT_TS" = some stamp := ResultSet.getString_of stampPlain
  have tailRead : rs.getInt "EVENT_TS_NANOS_TAIL" = tail := ResultSet.getInt_of tailPlain
  have actorRead : rs.getString "ACTOR_ID" = some actor := ResultSet.getString_of actorPlain
  have clsRead : rs.getString "RETENTION_CLASS" = some cls := ResultSet.getString_of clsPlain
  have codeRead : rs.getString "DISPOSITION_CODE" = some code := ResultSet.getString_of codePlain
  have ipRead : rs.getString "CLIENT_IP" = some ip := ResultSet.getString_of ipPlain
  have detailRead : rs.getString "DETAIL_TEXT" = some detail := ResultSet.getString_of detailPlain
  refine ⟨mapEventWith rs (some moment), ?_, ?_⟩
  · unfold PostgresArchiveStore.mapEvent
    rw [stampRead, tailRead, momentRead]
    rfl
  · rw [pgHashText, hashed, fileaudText_mapEventWith, auditKeyRead, archKeyRead, typeRead, actorRead, clsRead, codeRead, ipRead,
      detailRead]
    rfl

/-! The source's rows. -/

/-- A row that the source holds, that is unloaded, and that the job accepts. -/
structure Accepted (t : ArchiveTable) (source values texts : Fields) : Prop where
  held : ∀ c ∈ t.columns, c.db2Type.Holds (source.get c.name)
  converted : ∃ record key, encodeRecord charsets source t.recordColumns t.recordLength = .ok record ∧
    convertRecord charsets.codecs t.hashed.specs record = .ok key values texts

variable {source texts : Fields}

/-- What the job reads of a column, and takes it for. -/
theorem Accepted.column (acc : Accepted t source values texts) (layout : Layout t.recordColumns t.recordLength)
    (h : c ∈ t.columns) : ∃ b value src, encodeField (charsets c.spec.encoding) c.column (source.get c.name) = .ok b ∧
      convertField charsets.codecs c.spec b = .ok (value, src) ∧ values.get c.name = value ∧
      ∀ zeroPads, sourceText zeroPads t.hashed texts c.name = renderSourceColumn zeroPads src c.spec := by
  obtain ⟨record, key, written, accepted⟩ := acc.converted
  have encoded := encoded_of_ok layout written
  have names : (t.hashed.specs.map ColumnSpec.name).Nodup := by
    have distinct := layout.names
    rw [ArchiveTable.recordColumns, List.map_map] at distinct
    rw [ArchiveTable.hashed, List.map_map]
    exact distinct
  have listed : c.spec ∈ t.hashed.specs := List.mem_map_of_mem h
  have inv := named_of_ok accepted
  obtain ⟨last, found⟩ := inv.covers c.spec listed
  obtain ⟨there, named, value, src, converted, inValues, inTexts⟩ := inv.entry _ _ found
  have same : last = c.spec := List.inj_on_of_nodup_map names there listed named
  rw [same] at converted found
  refine ⟨c.spec.field.slice record, value, src, encoded.fields c.column (List.mem_map_of_mem h), converted, ?_, ?_⟩
  · change (values.lookup c.spec.name).getD .null = value
    have found : values.lookup c.spec.name = some value := inValues
    rw [found, Option.getD_some]
  · intro zeroPads
    have found' : texts.lookup c.spec.name = some src := inTexts
    change (do
      let v ← texts.lookup c.spec.name
      let spec ← (byName t.hashed.specs).lookup c.spec.name
      renderSourceColumn zeroPads v spec) = _
    rw [found', found]
    rfl

theorem charsets_ascii : charsets "ascii" = ascii := if_neg (by decide)

theorem charsets_cp037 : charsets "cp037" = cp037 := if_pos rfl

theorem mem_of_encode {table : List Char} {small : table.length ≤ 256} {digits : ∀ n < 10, Nat.digitChar n ∈ table} {b : Bytes}
    (h : (charmap table small digits).encode s = .ok b) : ∀ x ∈ s, x ∈ table := by
  intro x hx
  obtain ⟨byte, _, made⟩ := forall₂_left (mapM_ok.mp h) hx
  split at made
  next listed => exact listed
  next => cases made

/-- A text of as many octets as its field has, all ASCII, fills the field. -/
theorem fills_field {b : Bytes} (octets : (s.map Char.utf8Size).sum = n) (h : ascii.encode (ljust s n) = .ok b) :
    s.length = n := by
  have narrow : ∀ x ∈ s, x ∈ asciiTable := fun x hx => mem_of_encode h x (List.mem_append_left _ hx)
  have one : (asciiTable.all fun x => x.utf8Size == 1) = true := by decide +kernel
  have sizes : s.map Char.utf8Size = s.map fun _ => 1 :=
    List.map_congr_left fun x hx => eq_of_beq (List.all_eq_true.mp one x (narrow x hx))
  rw [sizes] at octets
  simpa using octets

theorem ljust_of_length (length : s.length = n) : ljust s n = s := by
  rw [ljust, length, Nat.sub_self, List.replicate_zero, List.append_nil]

theorem fieldBytes_text {charset : Charset} {column : RecordColumn} {v : Value} (is : v = .text s ∨ v = .timestamp12 s)
    (plain : column.isNumeric = false) : fieldBytes charset column v = charset.encode (ljust s column.spec.field.length) := by
  rcases is with rfl | rfl
  · simp [fieldBytes, plain, textOfValue]
  · simp [fieldBytes, plain, textOfValue]

/-- A character column is taken as its text stands, and rendered by whether it is a key unless it is mapped. -/
theorem Accepted.char (acc : Accepted t source values texts) (layout : Layout t.recordColumns t.recordLength) (name : String)
    (h : c ∈ t.columns) (is : c.name = name) (type : c.db2Type = .char n) (kind : c.spec.kind = .char)
    (encoding : c.spec.encoding = "ascii") (plain : c.column.isNumeric = false) (width : c.spec.field.length = n) :
    ∃ s, source.get name = .text s ∧ s.length = n ∧ values.get name = .text (charValue c.spec s) ∧
      (c.spec.valueMap.lookup (rtrim s) = none → ∀ zeroPads,
        sourceText zeroPads t.hashed texts name = some (if c.spec.isKey then s else rtrim s)) := by
  subst is
  obtain ⟨b, value, src, written, converted, taken, rendered⟩ := acc.column layout h
  have held := acc.held c h
  rw [type] at held
  cases found : source.get c.name with
  | text s =>
    rw [found] at held written
    rw [encoding, charsets_ascii, encodeField_ok, fieldBytes_text (.inl rfl) plain] at written
    obtain ⟨encoded, _⟩ := written
    rw [show c.column.spec.field.length = n from width] at encoded
    have length := fills_field held encoded
    rw [ljust_of_length length] at encoded
    have decoded : convertField charsets.codecs c.spec b = convertChar c.spec b s := by
      have text := @convertField_text charsets c.column s b (by rw [show c.column.spec.encoding = "ascii" from encoding]; exact encoded)
        (.inl kind)
      rw [show c.column.spec.kind = .char from kind] at text
      exact text
    rw [decoded, convertChar] at converted
    split at converted
    next => cases converted
    next =>
      simp only at converted
      split at converted
      next => cases converted
      next =>
        cases converted
        refine ⟨s, rfl, length, taken, fun unmapped zeroPads => ?_⟩
        rw [rendered zeroPads]
        simp only [renderSourceColumn, asText, mapSource, kind, unmapped, renderKind, render_text]
  | _ =>
    rw [found] at held
    exact absurd held id

variable {ibm037 : UInt8 → Char} {raw : Bytes}

theorem cp037_decode (raw : Bytes) : cp037.decode raw = .ok (raw.map cp037Char) := by
  rw [cp037, charmap]
  dsimp only
  rw [List.find?_eq_none.mpr]
  · rfl
  rintro ⟨b, i⟩ _
  have size : cp037Table.length = 256 := by decide +kernel
  have byte := b.toNat_lt
  simp only [decide_eq_true_eq, size]
  omega

theorem controlByte_eq_none {bytes : Bytes} (h : controlByte s bytes = none) :
    ∀ x ∈ s, ¬(x.toNat < 0x20 ∨ (0x7f ≤ x.toNat ∧ x.toNat ≤ 0x9f)) := by
  intro x hx
  obtain ⟨i, there⟩ := List.mem_iff_getElem?.mp hx
  have entry : (x, i) ∈ s.zipIdx := List.mem_zipIdx_iff_getElem?.mpr there
  have clean := List.find?_eq_none.mp (Option.map_eq_none_iff.mp h) (x, i) entry
  simpa using clean

/-- Java reads the bytes as the job does if they are no control characters. -/
theorem decodeCp037_eq (reads : ReadsCp037 ibm037)
    (clean : ∀ x ∈ raw.map cp037Char, ¬(x.toNat < 0x20 ∨ (0x7f ≤ x.toNat ∧ x.toNat ≤ 0x9f))) :
    Db2Text.decodeCp037 ibm037 (some raw) = some (raw.map cp037Char) := by
  rw [Db2Text.decodeCp037, Option.map_some]
  congr 1
  exact List.map_congr_left fun b hb => reads b (clean _ (List.mem_map_of_mem hb))

theorem fieldBytes_bytes {charset : Charset} {column : RecordColumn} (length : raw.length = column.spec.field.length) :
    fieldBytes charset column (.bytes raw) = .ok raw := by
  rw [fieldBytes, length, Nat.sub_self, List.replicate_zero, List.append_nil]

/-- EBCDIC bytes reach the conversion as they are. -/
theorem Accepted.bits (acc : Accepted t source values texts) (layout : Layout t.recordColumns t.recordLength)
    (h : c ∈ t.columns) (type : c.db2Type = .charForBitData n) (encoding : c.spec.encoding = "cp037")
    (width : c.spec.field.length = n) :
    ∃ (raw : Bytes) (value src : Value), source.get c.name = .bytes raw ∧ raw.length = n ∧ values.get c.name = value ∧
      decodeField charsets.codecs c.spec.encoding raw = .ok (.ok (raw.map cp037Char)) ∧
      convertField charsets.codecs c.spec raw = .ok (value, src) ∧
      ∀ zeroPads, sourceText zeroPads t.hashed texts c.name = renderSourceColumn zeroPads src c.spec := by
  obtain ⟨b, value, src, written, converted, taken, rendered⟩ := acc.column layout h
  have held := acc.held c h
  rw [type] at held
  cases found : source.get c.name with
  | bytes raw =>
    rw [found] at held written
    have length : raw.length = n := held
    rw [encodeField_ok, fieldBytes_bytes (length.trans width.symm)] at written
    obtain ⟨same, _⟩ := written
    cases same
    refine ⟨b, value, src, rfl, length, taken, ?_, converted, rendered⟩
    rw [decodeField, Charsets.codecs, encoding, charsets_cp037]
    simp only [cp037_decode]
  | _ =>
    rw [found] at held
    exact absurd held id

/-- EBCDIC text is rendered without its last blanks, as Java reads it. -/
theorem Accepted.ebcdic (acc : Accepted t source values texts) (layout : Layout t.recordColumns t.recordLength)
    (reads : ReadsCp037 ibm037) {name : String} {offset : Nat} (h : ebcdicColumn name offset n ∈ t.columns) :
    ∃ raw s, source.get name = .bytes raw ∧ Db2Text.decodeCp037 ibm037 (some raw) = some s ∧
      ∀ zeroPads, sourceText zeroPads t.hashed texts name = some (rtrim s) := by
  obtain ⟨raw, value, src, found, _, _, decoded, converted, rendered⟩ := acc.bits layout h rfl rfl rfl
  unfold convertField at converted
  rw [decoded] at converted
  change convertChar (ebcdicColumn name offset n).spec raw (raw.map cp037Char) = _ at converted
  rw [convertChar] at converted
  split at converted
  next => cases converted
  next clean =>
    simp only at converted
    split at converted
    next => cases converted
    next =>
      cases converted
      refine ⟨raw, raw.map cp037Char, found, decodeCp037_eq reads (controlByte_eq_none clean), fun zeroPads => ?_⟩
      have text := rendered zeroPads
      change sourceText zeroPads t.hashed texts name = _ at text
      rw [text]
      rfl

/-- A date is rendered as its eight digits, as Java reads them. -/
theorem Accepted.date (acc : Accepted t source values texts) (layout : Layout t.recordColumns t.recordLength)
    (reads : ReadsCp037 ibm037) {name : String} {offset : Nat} (h : dateColumn name offset ∈ t.columns) :
    ∃ raw s y m d, source.get name = .bytes raw ∧ Db2Text.decodeCp037 ibm037 (some raw) = some s ∧
      values.get name = .date (isoDate y m d) ∧ dateError y m d = none ∧
      ∀ zeroPads, sourceText zeroPads t.hashed texts name = some s := by
  obtain ⟨raw, value, src, found, length, taken, decoded, converted, rendered⟩ := acc.bits layout h rfl rfl rfl
  unfold convertField at converted
  rw [decoded] at converted
  change convertDate8 raw (raw.map cp037Char) = _ at converted
  unfold convertDate8 at converted
  split at converted
  next => cases converted
  next y m d groups =>
    split at converted
    next => cases converted
    next valid =>
      cases converted
      obtain ⟨plain, _⟩ := yearMonthDay_eq_iff true groups valid
      obtain ⟨year, month, day, rest, parts, tail, yearDigits, monthDigits, dayDigits, _⟩ := date8Groups_eq groups
      have whole : rest = [] := by
        have total := congrArg List.length parts
        simp only [List.length_map, List.length_append] at total
        exact List.eq_nil_of_length_eq_zero (by omega)
      have digits : ∀ x ∈ raw.map cp037Char, isDecimal x = true := by
        intro x hx
        rw [parts, whole] at hx
        simp only [List.mem_append, List.not_mem_nil, or_false] at hx
        rcases hx with h | h | h
        · exact yearDigits.2 x h
        · exact monthDigits.2 x h
        · exact dayDigits.2 x h
      refine ⟨raw, raw.map cp037Char, y, m, d, found,
        decodeCp037_eq reads fun x hx => not_control_of_isDecimal (digits x hx), taken, valid, fun zeroPads => ?_⟩
      have text := rendered zeroPads
      change sourceText zeroPads t.hashed texts name = _ at text
      rw [text]
      change some (rtrim (raw.map cp037Char)) = _
      rw [rtrim_of_no_blank plain]

/-- A timestamp is rendered as its text, as Java reads it. -/
theorem Accepted.timestamp (acc : Accepted t source values texts) (layout : Layout t.recordColumns t.recordLength)
    {name : String} {offset : Nat} (h : timestampColumn name offset ∈ t.columns) :
    ∃ s, source.get name = .timestamp12 s ∧ Db2Text.timestamp12FromJdbc (some s) = .ok (some s) ∧
      ∀ zeroPads, sourceText zeroPads t.hashed texts name = some s := by
  obtain ⟨b, value, src, written, converted, taken, rendered⟩ := acc.column layout h
  have held := acc.held _ h
  change Db2Type.timestamp12.Holds (source.get name) at held
  change encodeField (charsets "ascii") (timestampColumn name offset).column (source.get name) = .ok b at written
  cases found : source.get name with
  | timestamp12 s =>
    rw [found] at held written
    have length : s.length = 32 := held
    rw [charsets_ascii, encodeField_ok, fieldBytes_text (.inr rfl) rfl] at written
    obtain ⟨encoded, _⟩ := written
    change ascii.encode (ljust s 32) = .ok b at encoded
    rw [ljust_of_length length] at encoded
    have decoded : convertField charsets.codecs (timestampColumn name offset).spec b = convertTimestamp12 b s :=
      @convertField_text charsets (timestampColumn name offset).column s b encoded (.inr (.inr rfl))
    rw [decoded, convertTimestamp12, timestamp12Tail_eq] at converted
    cases parsed : Timestamp12.parse s with
    | none =>
      rw [parsed] at converted
      cases converted
    | some ts =>
      rw [parsed] at converted
      cases converted
      obtain ⟨p, rest, fit, _, ended, rfl, _⟩ := parse_eq.mp parsed
      have whole : rest = [] := by
        rw [List.length_append, fit.length] at length
        exact List.eq_nil_of_length_eq_zero (by omega)
      subst whole
      rw [List.append_nil] at rendered ⊢
      refine ⟨p.text, rfl, timestamp12FromJdbc_text fit, fun zeroPads => ?_⟩
      have text := rendered zeroPads
      change sourceText zeroPads t.hashed texts name = some (rtrim p.text) at text
      have plain : ∀ x ∈ p.text, x ≠ ' ' := by
        intro x hx
        simp only [Pieces.text, List.mem_append, List.mem_cons] at hx
        have digit : ∀ {y : Text}, y.all isDecimal = true → x ∈ y → x ≠ ' ' := fun digits h =>
          not_separator digits (by decide) x h
        rcases hx with h | rfl | h | rfl | h | rfl | h | rfl | h | rfl | h | rfl | h
        · exact digit fit.year.2 h
        · decide
        · exact digit fit.month.2 h
        · decide
        · exact digit fit.day.2 h
        · decide
        · exact digit fit.hour.2 h
        · decide
        · exact digit fit.minute.2 h
        · decide
        · exact digit fit.second.2 h
        · decide
        · exact digit fit.fraction.2 h
      rw [text, rtrim_of_no_blank plain]
  | _ =>
    rw [found] at held
    exact absurd held id

theorem Accepted.int (acc : Accepted t source values texts) (layout : Layout t.recordColumns t.recordLength) (name : String)
    (h : c ∈ t.columns) (is : c.name = name) (type : c.db2Type = .smallint ∨ c.db2Type = .bigint) (kind : c.spec.kind = .int)
    (numeric : c.column.isNumeric = true) (usage : c.spec.field.usage = .comp) :
    ∃ m, source.get name = .int m ∧ ∀ zeroPads, sourceText zeroPads t.hashed texts name = some (toString m).toList := by
  subst is
  obtain ⟨b, value, src, written, converted, taken, rendered⟩ := acc.column layout h
  have held := acc.held c h
  cases found : source.get c.name with
  | int m =>
    rw [found, encodeField_ok] at written
    have made : toBytes c.spec.field.length m = .ok b := by
      rw [← written.1, fieldBytes]
      · rw [if_pos numeric, show c.column.spec.field.usage = .comp from usage]
        rfl
      · exact fun _ same => by cases same
    have back := (fromBytes_toBytes made).2
    have field : intField charsets.codecs c.column.spec b = .ok m := by
      rw [intField, show c.column.spec.field.usage = .comp from usage, back]
    have same : src = .int m := convertInt_source (c := c.column) kind field converted
    refine ⟨m, rfl, fun zeroPads => ?_⟩
    rw [rendered zeroPads, same]
    simp only [renderSourceColumn, asText, mapSource, kind, renderKind, render]
  | _ =>
    rw [found] at held
    rcases type with type | type
    · rw [type] at held
      exact absurd held id
    · rw [type] at held
      exact absurd held id

theorem Accepted.decimal (acc : Accepted t source values texts) (layout : Layout t.recordColumns t.recordLength)
    {name : String} {offset precision : Nat} {narrow : precision ≤ 38} (h : decimalColumn name offset precision narrow ∈ t.columns) :
    ∃ d u, source.get name = .decimal d ∧ Db2Text.decimal8 (some d) = .ok (some u) ∧
      ∀ zeroPads, sourceText zeroPads t.hashed texts name = some u := by
  obtain ⟨b, value, src, written, converted, taken, rendered⟩ := acc.column layout h
  have held := acc.held _ h
  let column := (decimalColumn name offset precision narrow).column
  change (Db2Type.decimal 31 8).Holds (source.get name) at held
  change encodeField (charsets "ascii") column (source.get name) = .ok b at written
  cases found : source.get name with
  | decimal d =>
    rw [found] at held written
    obtain ⟨scale, digits⟩ : d.exponent = -8 ∧ d.coeff.natAbs < 10 ^ 31 := held
    obtain ⟨_, read, rescaled⟩ := decimal_texts scale
    have unscaled : column.unscaled d = d.coeff := by
      change d.coeffAt (-8) = d.coeff
      rw [← scale, Decimal.coeffAt_self]
    have fits : NumberFits column d :=
      { numeric := rfl
        scale := by change (-8 : Int) ≤ d.exponent; omega
        digits := by rw [unscaled]; exact digits
        sign := fun _ => rfl }
    obtain ⟨_, bytes⟩ := (encodeField_comp3 rfl fits rfl).mp written
    have packed : b = packNibbles (packedNibbles (2 * 16 - 1) d.coeff) := by
      rw [bytes, RecordColumn.comp3Bytes, unscaled]
      rfl
    have few : Decimal.digitCount d.coeff.natAbs < 2 * 16 :=
      Nat.lt_succ_of_le ((Decimal.digitCount_le_iff (by decide)).mpr digits)
    have unpacked : unpackComp3 b 8 = .ok (.finite (decide (d.coeff < 0)) ⟨d.coeff, -8⟩) := by
      rw [packed]
      exact unpackComp3_packed (by decide) few
    change convertDecimal charsets.codecs column.spec b = _ at converted
    obtain ⟨literal, d', field, number, narrowed, rfl, rfl⟩ := convertDecimal_ok converted
    change unpackComp3 b 8 = .ok literal at field
    rw [unpacked] at field
    cases field
    cases number
    have whole : (⟨d.coeff, -8⟩ : Decimal) = d := by rw [← scale]
    rw [whole] at rendered narrowed
    refine ⟨d, Decimal.fixed d, rfl, read, fun zeroPads => ?_⟩
    have text := rendered zeroPads
    change sourceText zeroPads t.hashed texts name = _ at text
    have kind : column.spec.kind = .decimal := rfl
    have written := (renderDecimal_of_fits kind rfl narrowed).2
    rw [rescaled, whole] at written
    rw [text]
    exact (renderSourceColumn_decimal zeroPads kind).trans written
  | _ =>
    rw [found] at held
    exact absurd held id

/-- Fields that stand apart in their record, by where they begin and how long they are. -/
theorem layout_of_spans (bytes : Nat) (spans : List (Nat × Nat)) (width : t.recordLength = bytes)
    (is : t.recordColumns.map (fun c => (c.spec.field.offset, c.spec.field.length)) = spans)
    (inside : ∀ s ∈ spans, s.1 + s.2 ≤ bytes)
    (apart : spans.Pairwise fun s s' => s.1 + s.2 ≤ s'.1 ∨ s'.1 + s'.2 ≤ s.1)
    (names : (t.columns.map ArchiveColumn.name).Nodup) : Layout t.recordColumns t.recordLength := by
  subst is width
  refine ⟨fun c hc => inside _ (List.mem_map_of_mem hc), List.pairwise_map.mp apart, ?_⟩
  rw [ArchiveTable.recordColumns, List.map_map]
  exact names

theorem docarch_layout (classMap : List (Text × Text)) :
    Layout (docarch classMap).recordColumns (docarch classMap).recordLength :=
  layout_of_spans 256 [(0, 16), (16, 36), (52, 2), (54, 4), (58, 32), (90, 16), (106, 16), (122, 40), (162, 8), (170, 1),
    (171, 8), (179, 64), (243, 8), (251, 3)] rfl rfl (by decide) (by decide) (docarch_names classMap)

theorem fileaud_layout (classMap : List (Text × Text)) :
    Layout (fileaud classMap).recordColumns (fileaud classMap).recordLength :=
  layout_of_spans 160 [(0, 20), (20, 16), (36, 4), (40, 32), (72, 12), (84, 4), (88, 2), (90, 15), (105, 40)] rfl rfl
    (by decide) (by decide) (fileaud_names classMap)

/-- An accepted version, as the Db2 store maps it: its key and its date as the job takes them, and, if its class is not
mapped, the text that the job hashes. -/
theorem docarch_accepted {classMap : List (Text × Text)} (acc : Accepted (docarch classMap) source values texts)
    (reads : ReadsCp037 ibm037) :
    ∃ v key rest cls y m d,
      Db2ArchiveStore.mapVersion ibm037 (Db2ArchiveStore.selectVersion source) = .ok v ∧
      source.get "ARCH_KEY" = .text key ∧ key.length = 16 ∧ values.get "ARCH_KEY" = .text (rtrim key) ∧
      values.get "DISPOSITION_DT" = .date (isoDate y m d) ∧ dateError y m d = none ∧
      source.get "RETENTION_CLASS" = .text cls ∧
      BusinessHash.docarchText v = key ++ '|' :: rest ∧
      (classMap.lookup (rtrim cls) = none → ∀ zeroPads,
        sourceInput zeroPads (docarch classMap).hashed texts = some (BusinessHash.docarchText v)) := by
  have layout := docarch_layout classMap
  obtain ⟨key, keyIs, keyLength, keyValue, keyText⟩ := acc.char layout "ARCH_KEY"
    (show trimmedColumn "ARCH_KEY" 0 16 true ∈ _ by simp [docarch]) rfl rfl rfl rfl rfl rfl
  obtain ⟨docId, docIdIs, _, _, docIdText⟩ := acc.char layout "DOC_ID"
    (show charColumn "DOC_ID" 16 36 false [] ∈ _ by simp [docarch]) rfl rfl rfl rfl rfl rfl
  obtain ⟨version, versionIs, versionText⟩ := acc.int layout "VERSION_NO"
    (show smallintColumn "VERSION_NO" 52 ∈ _ by simp [docarch]) rfl (.inl rfl) rfl rfl rfl
  obtain ⟨cls, clsIs, _, _, clsText⟩ := acc.char layout "RETENTION_CLASS"
    (show charColumn "RETENTION_CLASS" 54 4 false classMap ∈ _ by simp [docarch]) rfl rfl rfl rfl rfl rfl
  obtain ⟨access, accessIs, accessRead, accessText⟩ := acc.timestamp layout
    (show timestampColumn "LAST_ACCESS_TS" 58 ∈ _ by simp [docarch])
  obtain ⟨charge, chargeWritten, chargeIs, chargeRead, chargeText⟩ := acc.decimal layout
    (show decimalColumn "STORAGE_CHARGE" 90 31 (by decide) ∈ _ by simp [docarch])
  obtain ⟨rate, rateWritten, rateIs, rateRead, rateText⟩ := acc.decimal layout
    (show decimalColumn "UNIT_RATE" 106 18 (by decide) ∈ _ by simp [docarch])
  obtain ⟨ownerRaw, owner, ownerIs, ownerRead, ownerText⟩ := acc.ebcdic layout reads
    (show ebcdicColumn "OWNER_NAME" 122 40 ∈ _ by simp [docarch])
  obtain ⟨dateRaw, date, y, m, d, dateIs, dateRead, dateValue, valid, dateText⟩ := acc.date layout reads
    (show dateColumn "DISPOSITION_DT" 162 ∈ _ by simp [docarch])
  obtain ⟨hold, holdIs, _, _, holdText⟩ := acc.char layout "LEGAL_HOLD_FLAG"
    (show charColumn "LEGAL_HOLD_FLAG" 170 1 false [] ∈ _ by simp [docarch]) rfl rfl rfl rfl rfl rfl
  obtain ⟨sha, shaIs, _, _, shaText⟩ := acc.char layout "CONTENT_SHA256"
    (show charColumn "CONTENT_SHA256" 179 64 false [] ∈ _ by simp [docarch]) rfl rfl rfl rfl rfl rfl
  obtain ⟨size, sizeIs, sizeText⟩ := acc.int layout "BYTE_SIZE"
    (show bigintColumn "BYTE_SIZE" 243 ∈ _ by simp [docarch]) rfl (.inr rfl) rfl rfl rfl
  let rs := Db2ArchiveStore.selectVersion source
  have keyGot : rs.getString "ARCH_KEY" = some key := ResultSet.getString_of keyIs
  have docIdGot : rs.getString "DOC_ID" = some docId := ResultSet.getString_of docIdIs
  have versionGot : rs.getInt "VERSION_NO" = version := ResultSet.getInt_of versionIs
  have clsGot : rs.getString "RETENTION_CLASS" = some cls := ResultSet.getString_of clsIs
  have accessGot : rs.getString "LAST_ACCESS_TS" = some access :=
    ResultSet.getString_of (show charOf (source.get "LAST_ACCESS_TS") = .text access by rw [accessIs]; rfl)
  have chargeGot : rs.getBigDecimal "STORAGE_CHARGE" = some charge := ResultSet.getBigDecimal_of chargeIs
  have rateGot : rs.getBigDecimal "UNIT_RATE" = some rate := ResultSet.getBigDecimal_of rateIs
  have ownerGot : rs.getBytes "OWNER_NAME" = some ownerRaw := ResultSet.getBytes_of ownerIs
  have dateGot : rs.getBytes "DISPOSITION_DT" = some dateRaw := ResultSet.getBytes_of dateIs
  have holdGot : rs.getString "LEGAL_HOLD_FLAG" = some hold := ResultSet.getString_of holdIs
  have shaGot : rs.getString "CONTENT_SHA256" = some sha := ResultSet.getString_of shaIs
  have sizeGot : rs.getInt "BYTE_SIZE" = size := ResultSet.getInt_of sizeIs
  rw [← chargeGot] at chargeRead
  rw [← rateGot] at rateRead
  obtain ⟨v, mapped, hashText⟩ := mapVersionWith_text (some access) (some owner) (some date)
    (Db2Text.isoDateFromYyyymmdd (some date)) chargeRead rateRead
  rw [keyGot, docIdGot, versionGot, clsGot, holdGot, shaGot, sizeGot] at hashText
  refine ⟨v, key, _, cls, y, m, d, ?_, keyIs, keyLength, keyValue, dateValue, valid, clsIs, hashText.trans rfl, ?_⟩
  · unfold Db2ArchiveStore.mapVersion
    rw [accessGot, accessRead, ownerGot, ownerRead, dateGot, dateRead]
    exact mapped
  · intro unmapped zeroPads
    have hashed : (docarch classMap).hashColumns.mapM (sourceText zeroPads (docarch classMap).hashed texts) =
        some [key, rtrim docId, (toString version).toList, rtrim cls, access, chargeWritten, rateWritten, rtrim owner, date,
          rtrim hold, rtrim sha, (toString size).toList] := by
      rw [mapM_some]
      exact .cons (keyText rfl _) (.cons (docIdText rfl _) (.cons (versionText _) (.cons (clsText unmapped _)
        (.cons (accessText _) (.cons (chargeText _) (.cons (rateText _) (.cons (ownerText _) (.cons (dateText _)
          (.cons (holdText rfl _) (.cons (shaText rfl _) (.cons (sizeText _) .nil)))))))))))
    rw [sourceInput]
    change ((docarch classMap).hashColumns.mapM (sourceText zeroPads (docarch classMap).hashed texts)).map _ = _
    rw [hashed, hashText]
    rfl

/-- An accepted event, as the Db2 store maps it: the text that the job hashes, if its class is not mapped. -/
theorem fileaud_accepted {classMap : List (Text × Text)} (acc : Accepted (fileaud classMap) source values texts) :
    ∃ e cls, Db2ArchiveStore.mapEvent (Db2ArchiveStore.selectEvent source) = .ok e ∧ source.get "RETENTION_CLASS" = .text cls ∧
      (classMap.lookup (rtrim cls) = none → ∀ zeroPads,
        sourceInput zeroPads (fileaud classMap).hashed texts = some (BusinessHash.fileaudText e)) := by
  have layout := fileaud_layout classMap
  obtain ⟨auditKey, auditKeyIs, _, _, auditKeyText⟩ := acc.char layout "AUDIT_KEY"
    (show charColumn "AUDIT_KEY" 0 20 true [] ∈ _ by simp [fileaud]) rfl rfl rfl rfl rfl rfl
  obtain ⟨archKey, archKeyIs, _, _, archKeyText⟩ := acc.char layout "ARCH_KEY"
    (show trimmedColumn "ARCH_KEY" 20 16 false ∈ _ by simp [fileaud]) rfl rfl rfl rfl rfl rfl
  obtain ⟨type, typeIs, _, _, typeText⟩ := acc.char layout "EVENT_TYPE"
    (show charColumn "EVENT_TYPE" 36 4 false [] ∈ _ by simp [fileaud]) rfl rfl rfl rfl rfl rfl
  obtain ⟨moment, momentIs, momentRead, momentText⟩ := acc.timestamp layout
    (show timestampColumn "EVENT_TS" 40 ∈ _ by simp [fileaud])
  obtain ⟨actor, actorIs, _, _, actorText⟩ := acc.char layout "ACTOR_ID"
    (show charColumn "ACTOR_ID" 72 12 false [] ∈ _ by simp [fileaud]) rfl rfl rfl rfl rfl rfl
  obtain ⟨cls, clsIs, _, _, clsText⟩ := acc.char layout "RETENTION_CLASS"
    (show charColumn "RETENTION_CLASS" 84 4 false classMap ∈ _ by simp [fileaud]) rfl rfl rfl rfl rfl rfl
  obtain ⟨code, codeIs, _, _, codeText⟩ := acc.char layout "DISPOSITION_CODE"
    (show charColumn "DISPOSITION_CODE" 88 2 false [] ∈ _ by simp [fileaud]) rfl rfl rfl rfl rfl rfl
  obtain ⟨ip, ipIs, _, _, ipText⟩ := acc.char layout "CLIENT_IP"
    (show trimmedColumn "CLIENT_IP" 90 15 false ∈ _ by simp [fileaud]) rfl rfl rfl rfl rfl rfl
  obtain ⟨detail, detailIs, _, _, detailText⟩ := acc.char layout "DETAIL_TEXT"
    (show trimmedColumn "DETAIL_TEXT" 105 40 false ∈ _ by simp [fileaud]) rfl rfl rfl rfl rfl rfl
  let rs := Db2ArchiveStore.selectEvent source
  have auditKeyGot : rs.getString "AUDIT_KEY" = some auditKey := ResultSet.getString_of auditKeyIs
  have archKeyGot : rs.getString "ARCH_KEY" = some archKey := ResultSet.getString_of archKeyIs
  have typeGot : rs.getString "EVENT_TYPE" = some type := ResultSet.getString_of typeIs
  have momentGot : rs.getString "EVENT_TS" = some moment :=
    ResultSet.getString_of (show charOf (source.get "EVENT_TS") = .text moment by rw [momentIs]; rfl)
  have actorGot : rs.getString "ACTOR_ID" = some actor := ResultSet.getString_of actorIs
  have clsGot : rs.getString "RETENTION_CLASS" = some cls := ResultSet.getString_of clsIs
  have codeGot : rs.getString "DISPOSITION_CODE" = some code := ResultSet.getString_of codeIs
  have ipGot : rs.getString "CLIENT_IP" = some ip := ResultSet.getString_of ipIs
  have detailGot : rs.getString "DETAIL_TEXT" = some detail := ResultSet.getString_of detailIs
  refine ⟨mapEventWith rs (some moment), cls, ?_, clsIs, ?_⟩
  · unfold Db2ArchiveStore.mapEvent
    rw [momentGot, momentRead]
    rfl
  · intro unmapped zeroPads
    have hashed : (fileaud classMap).hashColumns.mapM (sourceText zeroPads (fileaud classMap).hashed texts) =
        some [auditKey, rtrim archKey, rtrim type, moment, rtrim actor, rtrim cls, rtrim code, rtrim ip, rtrim detail] := by
      rw [mapM_some]
      exact .cons (auditKeyText rfl _) (.cons (archKeyText rfl _) (.cons (typeText rfl _) (.cons (momentText _)
        (.cons (actorText rfl _) (.cons (clsText unmapped _) (.cons (codeText rfl _) (.cons (ipText rfl _)
          (.cons (detailText rfl _) .nil))))))))
    rw [sourceInput]
    change ((fileaud classMap).hashColumns.mapM (sourceText zeroPads (fileaud classMap).hashed texts)).map _ = _
    rw [hashed, fileaudText_mapEventWith, auditKeyGot, archKeyGot, typeGot, actorGot, clsGot, codeGot, ipGot, detailGot]
    rfl

end

/-- The two data tables of the archive. -/
inductive DataTable
  | docarch
  | fileaud
  deriving DecidableEq, Repr

def DataTable.table (classMap : List (Text × Text)) : DataTable → ArchiveTable
  | .docarch => Reports.docarch classMap
  | .fileaud => Reports.fileaud classMap

/-- The text the report service hashes of a stored row. -/
def postgresText (row : PgRow) : DataTable → Java Text
  | .docarch => do
    let v ← PostgresArchiveStore.mapVersion (PostgresArchiveStore.selectVersion row)
    .ok (BusinessHash.docarchText v)
  | .fileaud => do
    let e ← PostgresArchiveStore.mapEvent (PostgresArchiveStore.selectEvent row)
    .ok (BusinessHash.fileaudText e)

/-- The text it hashes of a source row. -/
def db2Text (ibm037 : UInt8 → Char) (source : Fields) : DataTable → Java Text
  | .docarch => do
    let v ← Db2ArchiveStore.mapVersion ibm037 (Db2ArchiveStore.selectVersion source)
    .ok (BusinessHash.docarchText v)
  | .fileaud => do
    let e ← Db2ArchiveStore.mapEvent (Db2ArchiveStore.selectEvent source)
    .ok (BusinessHash.fileaudText e)

def postgresHash (sha256 : Bytes → Hash) (row : PgRow) (table : DataTable) : Java String :=
  (postgresText row table).map (BusinessHash.sha256Hex sha256)

def db2Hash (sha256 : Bytes → Hash) (ibm037 : UInt8 → Char) (source : Fields) (table : DataTable) : Java String :=
  (db2Text ibm037 source table).map (BusinessHash.sha256Hex sha256)

theorem hexUpper_injective {a b : Bytes} (h : hexUpper a = hexUpper b) : a = b := by
  have digits : ∀ m < 16, ∀ n < 16, (hexDigit m).toUpper = (hexDigit n).toUpper → m = n := by decide +kernel
  have texts := congrArg String.toList h
  simp only [hexUpper, String.toUpper, String.toList_map, String.toList_ofList] at texts
  clear h
  induction a generalizing b with
  | nil =>
    cases b with
    | nil => rfl
    | cons y b => cases texts
  | cons x a ih =>
    cases b with
    | nil => cases texts
    | cons y b =>
      simp only [hex, List.flatMap_cons, List.map_cons, List.cons_append, List.nil_append, List.cons.injEq] at texts
      obtain ⟨high, low, rest⟩ := texts
      have below := x.toNat_lt
      have below' := y.toNat_lt
      have highs := digits _ (by omega) _ (by omega) high
      have lows := digits _ (by omega) _ (by omega) low
      have same : x = y := UInt8.toNat_inj.mp (by omega)
      rw [same, ih rest]

/-- A text that loses blanks at its end does not begin as it did. -/
theorem trimmed_differs {key rest rest' : Text} (blanks : rtrim key ≠ key) : rtrim key ++ '|' :: rest ≠ key ++ '|' :: rest' := by
  have filled := @ljust_rtrim key
  rw [ljust] at filled
  intro same
  cases count : key.length - (rtrim key).length with
  | zero =>
    rw [count, List.replicate_zero, List.append_nil] at filled
    exact blanks filled
  | succ k =>
    rw [count, List.replicate_succ] at filled
    clear blanks count
    generalize rtrim key = front at filled same
    rw [← filled, List.append_assoc] at same
    have next := List.append_cancel_left same
    cases next

/-- The report service's hash of a stored row is the one the job promoted it under, and its hash of the source row too
if the row's class is not mapped; where the conversion trims a key the two are of different texts. -/
theorem report_hash_eq_row_hash (sha256 : Bytes → Hash) (zeroPads : Bool) (ibm037 : UInt8 → Char) (reads : ReadsCp037 ibm037)
    (classMap : List (Text × Text)) (table : DataTable) (source values texts : Fields) (row : PgRow)
    (acc : Accepted (table.table classMap) source values texts) (stored : storeRow (table.table classMap) values = some row) :
    (∀ rowHash, sourceHash sha256 zeroPads (table.table classMap).hashed texts = some rowHash →
      pgHash sha256 (table.table classMap) row = some rowHash →
      postgresHash sha256 row table = .ok (hexUpper rowHash) ∧
        ((∀ cls, source.get "RETENTION_CLASS" = .text cls → classMap.lookup (rtrim cls) = none) →
          db2Hash sha256 ibm037 source table = .ok (hexUpper rowHash))) ∧
    ∀ c ∈ (table.table classMap).columns, c.spec.isKey = true → c.spec.trim = true → ∀ key, source.get c.name = .text key →
      rtrim key ≠ key → ∃ p d, postgresText row table = .ok p ∧ db2Text ibm037 source table = .ok d ∧ p ≠ d ∧
        ((sha256 (encodeText p) = sha256 (encodeText d) → p = d) →
          postgresHash sha256 row table ≠ db2Hash sha256 ibm037 source table) := by
  have hashes : ∀ p d, postgresText row table = .ok p → db2Text ibm037 source table = .ok d → p ≠ d →
      (sha256 (encodeText p) = sha256 (encodeText d) → p = d) →
      postgresHash sha256 row table ≠ db2Hash sha256 ibm037 source table := by
    intro p d read read' other apart same
    rw [postgresHash, db2Hash, read, read'] at same
    exact other (apart (hexUpper_injective (Except.ok.inj same)))
  cases table with
  | docarch =>
    obtain ⟨v', key, rest', cls, y, m, d, mapped', keyIs, keyLength, keyValue, date, valid, clsIs, shape', hashed'⟩ :=
      docarch_accepted acc reads
    obtain ⟨v, written, taken, rest, mapped, hashed, writtenIs, fits, shape⟩ := docarch_stored stored date valid
    have read : postgresText row .docarch = .ok (BusinessHash.docarchText v) := by rw [postgresText, mapped]; rfl
    have read' : db2Text ibm037 source .docarch = .ok (BusinessHash.docarchText v') := by rw [db2Text, mapped']; rfl
    refine ⟨fun rowHash bySource byTarget => ⟨?_, fun unmapped => ?_⟩, ?_⟩
    · have target : (pgHashText (docarch classMap) row).map _ = some rowHash := byTarget
      rw [hashed] at target
      cases target
      rw [postgresHash, read]
      rfl
    · have input : (sourceInput zeroPads (docarch classMap).hashed texts).map _ = some rowHash := bySource
      rw [hashed' (unmapped cls clsIs) zeroPads] at input
      cases input
      rw [db2Hash, read']
      rfl
    · intro c hc isKey trimmed k found blanks
      have only : (docarch classMap).columns.all (fun c => !(c.spec.isKey && c.spec.trim) || c.name == "ARCH_KEY") = true := rfl
      have name := List.all_eq_true.mp only c hc
      rw [isKey, trimmed, Bool.and_self, Bool.not_true, Bool.false_or, beq_iff_eq] at name
      rw [name, keyIs] at found
      cases found
      have same : written = rtrim key := by
        rw [writtenIs] at keyValue
        exact Value.text.inj keyValue
      have shorter := length_rtrim_le key
      have taken_ : taken = rtrim key := by
        rw [same, fitLength, List.drop_of_length_le (by omega), List.take_of_length_le (by omega)] at fits
        exact (Option.some.inj fits).symm
      have other : BusinessHash.docarchText v ≠ BusinessHash.docarchText v' := by
        rw [shape, shape', taken_]
        exact trimmed_differs blanks
      exact ⟨_, _, read, read', other, hashes _ _ read read' other⟩
  | fileaud =>
    obtain ⟨e', cls, mapped', clsIs, hashed'⟩ := fileaud_accepted acc
    obtain ⟨e, mapped, hashed⟩ := fileaud_stored stored
    have read : postgresText row .fileaud = .ok (BusinessHash.fileaudText e) := by rw [postgresText, mapped]; rfl
    have read' : db2Text ibm037 source .fileaud = .ok (BusinessHash.fileaudText e') := by rw [db2Text, mapped']; rfl
    refine ⟨fun rowHash bySource byTarget => ⟨?_, fun unmapped => ?_⟩, ?_⟩
    · have target : (pgHashText (fileaud classMap) row).map _ = some rowHash := byTarget
      rw [hashed] at target
      cases target
      rw [postgresHash, read]
      rfl
    · have input : (sourceInput zeroPads (fileaud classMap).hashed texts).map _ = some rowHash := bySource
      rw [hashed' (unmapped cls clsIs) zeroPads] at input
      cases input
      rw [db2Hash, read']
      rfl
    · intro c hc isKey trimmed
      have none : (fileaud classMap).columns.all (fun c => !(c.spec.isKey && c.spec.trim)) = true := rfl
      have clear_ := List.all_eq_true.mp none c hc
      rw [isKey, trimmed] at clear_
      cases clear_

/-- A version whose key is padded. -/
def sampleVersion : Fields :=
  [("ARCH_KEY", .text ('K' :: List.replicate 15 ' ')), ("DOC_ID", .text (List.replicate 36 'd')), ("VERSION_NO", .int 3),
    ("RETENTION_CLASS", .text "R001".toList), ("LAST_ACCESS_TS", .timestamp12 "2021-03-04-05.06.07.123456789012".toList),
    ("STORAGE_CHARGE", .decimal ⟨1250000000, -8⟩), ("UNIT_RATE", .decimal ⟨2500000, -8⟩),
    ("OWNER_NAME", .bytes ([0xc4, 0xd6] ++ List.replicate 38 0x40)),
    ("DISPOSITION_DT", .bytes [0xf2, 0xf0, 0xf3, 0xf0, 0xf0, 0xf1, 0xf1, 0xf5]), ("LEGAL_HOLD_FLAG", .text ['N']),
    ("CHECKSUM_ALG", .text "SHA-256 ".toList), ("CONTENT_SHA256", .text (List.replicate 64 'A')),
    ("BYTE_SIZE", .int 1048576), ("SOURCE_SYS", .text "OTW".toList)]

def sampleEvent : Fields :=
  [("AUDIT_KEY", .text (List.replicate 20 'E')), ("ARCH_KEY", .text (List.replicate 16 'K')), ("EVENT_TYPE", .text "READ".toList),
    ("EVENT_TS", .timestamp12 "2021-03-04-05.06.07.123456789012".toList), ("ACTOR_ID", .text (List.replicate 12 'U')),
    ("RETENTION_CLASS", .text "R001".toList), ("DISPOSITION_CODE", .text ['0', '0']), ("CLIENT_IP", .text (List.replicate 15 '1')),
    ("DETAIL_TEXT", .text ('d' :: List.replicate 39 ' '))]

/-- The row that the job makes of a source row, with the texts of its fields. -/
def converted (t : ArchiveTable) (source : Fields) : Option (Fields × Fields × PgRow) :=
  match encodeRecord charsets source t.recordColumns t.recordLength with
  | .error _ => none
  | .ok record =>
    match convertRecord charsets.codecs t.hashed.specs record with
    | .ok _ values texts => (storeRow t values).map fun row => (values, texts, row)
    | _ => none

theorem accepted_of_converted {t : ArchiveTable} {source values texts : Fields} {row : PgRow}
    (held : ∀ c ∈ t.columns, c.db2Type.Holds (source.get c.name)) (made : converted t source = some (values, texts, row)) :
    Accepted t source values texts ∧ storeRow t values = some row := by
  unfold converted at made
  split at made
  next => cases made
  next record written =>
    split at made
    next key values' texts' accepted =>
      obtain ⟨row', stored, same⟩ := Option.map_eq_some_iff.mp made
      cases same
      exact ⟨⟨held, record, key, written, accepted⟩, stored⟩
    next => cases made

theorem sampleVersion_held : ∀ c ∈ (docarch []).columns, c.db2Type.Holds (sampleVersion.get c.name) := by
  intro c hc
  simp only [docarch, List.mem_cons, List.not_mem_nil, or_false] at hc
  rcases hc with rfl | rfl | rfl | rfl | rfl | rfl | rfl | rfl | rfl | rfl | rfl | rfl | rfl | rfl
  · show (('K' :: List.replicate 15 ' ').map Char.utf8Size).sum = 16
    decide
  · show ((List.replicate 36 'd').map Char.utf8Size).sum = 36
    decide
  · show -(2 ^ 15 : Int) ≤ 3 ∧ (3 : Int) < 2 ^ 15
    omega
  · rfl
  · rfl
  · exact ⟨rfl, by decide⟩
  · exact ⟨rfl, by decide⟩
  · rfl
  · rfl
  · rfl
  · rfl
  · show ((List.replicate 64 'A').map Char.utf8Size).sum = 64
    decide
  · show -(2 ^ 63 : Int) ≤ 1048576 ∧ (1048576 : Int) < 2 ^ 63
    omega
  · rfl

theorem sampleEvent_held : ∀ c ∈ (fileaud []).columns, c.db2Type.Holds (sampleEvent.get c.name) := by
  intro c hc
  simp only [fileaud, List.mem_cons, List.not_mem_nil, or_false] at hc
  rcases hc with rfl | rfl | rfl | rfl | rfl | rfl | rfl | rfl | rfl
  · show ((List.replicate 20 'E').map Char.utf8Size).sum = 20
    decide
  · show ((List.replicate 16 'K').map Char.utf8Size).sum = 16
    decide
  · rfl
  · rfl
  · rfl
  · rfl
  · rfl
  · show ((List.replicate 15 '1').map Char.utf8Size).sum = 15
    decide
  · show (('d' :: List.replicate 39 ' ').map Char.utf8Size).sum = 40
    decide

theorem report_hash_of_samples :
    (∃ row rowHash, postgresHash id row .fileaud = .ok (hexUpper rowHash) ∧
      db2Hash id cp037Char sampleEvent .fileaud = .ok (hexUpper rowHash)) ∧
    ∃ row p d, postgresText row .docarch = .ok p ∧ db2Text cp037Char sampleVersion .docarch = .ok d ∧ p ≠ d := by
  have event : ((converted (fileaud []) sampleEvent).any fun (_, texts, row) =>
      (pgHash id (fileaud []) row).isSome && sourceHash id false (fileaud []).hashed texts == pgHash id (fileaud []) row) =
      true := by decide +kernel
  have version : (converted (docarch []) sampleVersion).isSome = true := by decide +kernel
  obtain ⟨⟨values, texts, row⟩, made, same⟩ := (Option.any_eq_true ..).mp event
  obtain ⟨⟨values', texts', row'⟩, made'⟩ := Option.isSome_iff_exists.mp version
  refine ⟨?_, ?_⟩
  · obtain ⟨acc, stored⟩ := accepted_of_converted sampleEvent_held made
    obtain ⟨some, agree⟩ := Bool.and_eq_true_iff.mp same
    obtain ⟨rowHash, byTarget⟩ := Option.isSome_iff_exists.mp some
    have bySource := (beq_iff_eq.mp agree).trans byTarget
    have both := (report_hash_eq_row_hash id false cp037Char (fun _ _ => rfl) [] .fileaud sampleEvent values texts row acc stored).1
      rowHash bySource byTarget
    exact ⟨row, rowHash, both.1, both.2 fun _ _ => rfl⟩
  · obtain ⟨acc, stored⟩ := accepted_of_converted sampleVersion_held made'
    obtain ⟨p, d, read, read', apart, _⟩ := (report_hash_eq_row_hash id false cp037Char (fun _ _ => rfl) [] .docarch sampleVersion
      values' texts' row' acc stored).2 _ (List.mem_cons_self ..) rfl rfl _ rfl (by decide)
    exact ⟨row', p, d, read, read', apart⟩

end OtterWorks.Reports
