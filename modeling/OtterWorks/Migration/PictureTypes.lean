import OtterWorks.Migration.TypeMap

namespace OtterWorks.Migration

/-! Texts of pictures and types. -/

def IsNumber (digits : Text) : Prop := digits ≠ [] ∧ ∀ c ∈ digits, c.isDigit

/-- What `parenthesized` reads. -/
def paren : Option Text → Text
  | none => []
  | some digits => '(' :: (digits ++ [')'])

section

variable {c : Char} {s n p rest key base inner : Text} {m : Option Text} {b : Bool}

theorem parenthesized_eq (h : parenthesized s = (m, rest)) :
    s = paren m ++ rest ∧ ∀ digits, m = some digits → IsNumber digits := by
  have plain : ∀ s : Text, (none, s) = (m, rest) → s = paren m ++ rest ∧ ∀ digits, m = some digits → IsNumber digits := by
    intro s h
    cases h
    exact ⟨rfl, fun _ h => by cases h⟩
  unfold parenthesized at h
  split at h
  next inner =>
    split at h
    next d digits after front back =>
      cases h
      have whole := List.takeWhile_append_dropWhile (p := Char.isDigit) (l := inner)
      rw [front, back] at whole
      refine ⟨?_, ?_⟩
      · rw [← whole]
        simp [paren]
      · intro found is
        cases is
        refine ⟨List.cons_ne_nil _ _, ?_⟩
        intro c member
        rw [← front] at member
        exact List.mem_takeWhile_imp member
    next => exact plain _ h
  next => exact plain _ h

theorem parenthesized_paren (number : IsNumber n) : parenthesized ('(' :: (n ++ ')' :: rest)) = (some n, rest) := by
  obtain ⟨nonempty, digits⟩ := number
  have front : (n ++ ')' :: rest).takeWhile Char.isDigit = n := by
    rw [List.takeWhile_append_of_pos digits]
    simp
  have back : (n ++ ')' :: rest).dropWhile Char.isDigit = ')' :: rest := by
    rw [List.dropWhile_append_of_pos digits]
    simp
  obtain ⟨d, digits', rfl⟩ := List.exists_cons_of_ne_nil nonempty
  simp only [parenthesized, front, back]

theorem parenthesized_append (number : IsNumber n) : parenthesized (paren (some n) ++ rest) = (some n, rest) := by
  rw [paren, List.cons_append, List.append_assoc]
  exact parenthesized_paren number

theorem parenthesized_none (other : s.head? ≠ some '(') : parenthesized s = (none, s) := by
  unfold parenthesized
  split
  next => exact absurd rfl other
  next => rfl

theorem splitS_eq (h : splitS s = (b, rest)) : s = (if b then ['S'] else []) ++ rest ∧ (b = false → s.head? ≠ some 'S') := by
  unfold splitS at h
  split at h
  next =>
    cases h
    exact ⟨rfl, fun no => by cases no⟩
  next other =>
    cases h
    refine ⟨rfl, fun _ starts => ?_⟩
    cases s with
    | nil => cases starts
    | cons c s =>
      cases starts
      exact other s rfl

theorem lt_of_isUpper (h : c.isUpper) : 65 ≤ c.toNat ∧ c.toNat ≤ 90 := by
  obtain ⟨low, high⟩ : c.val ≥ 'A'.val ∧ c.val ≤ 'Z'.val := of_decide_eq_true h
  exact ⟨UInt32.le_iff_toNat_le.mp low, UInt32.le_iff_toNat_le.mp high⟩

/-- The characters of a type's text, none of them a blank or a lower case letter. -/
def IsTypeChar (c : Char) : Prop := c.isUpper ∨ c.isDigit ∨ c = '(' ∨ c = ')' ∨ c = ','

theorem IsTypeChar.range (h : IsTypeChar c) : 40 ≤ c.toNat ∧ c.toNat ≤ 90 := by
  rcases h with upper | digit | rfl | rfl | rfl
  · have := lt_of_isUpper upper
    omega
  · have := toNat_of_isDigit digit
    omega
  · decide
  · decide
  · decide

theorem IsTypeChar.upperLetters (h : IsTypeChar c) : upperLetters c = [c] := by
  have range := h.range
  have lower : c.toUpper = c := by
    unfold Char.toUpper
    rw [dif_neg]
    rintro ⟨low, _⟩
    have : 97 ≤ c.toNat := low
    omega
  unfold Migration.upperLetters upperChar
  simp only [lower]
  repeat rw [if_neg (by omega)]

theorem IsTypeChar.notSpace (h : IsTypeChar c) : isSpace c = false := by
  have range := h.range
  have listed : c.toNat ∉ [0x85, 0xa0, 0x1680, 0x2028, 0x2029, 0x202f, 0x205f, 0x3000] := by
    simp only [List.mem_cons, List.not_mem_nil, or_false]
    omega
  simp only [isSpace, listed, or_false, decide_eq_false_iff_not]
  omega

theorem flatMap_upperLetters (chars : ∀ c ∈ s, IsTypeChar c) : s.flatMap upperLetters = s := by
  induction s with
  | nil => rfl
  | cons c s ih =>
    rw [List.flatMap_cons, (chars c (List.mem_cons_self ..)).upperLetters, ih fun d h => chars d (List.mem_cons_of_mem _ h)]
    rfl

theorem splitComma_of_digits (digits : ∀ c ∈ n, c.isDigit) : splitComma n = [n] := by
  induction n with
  | nil => rfl
  | cons c n ih =>
    have digit := digits c (List.mem_cons_self ..)
    have other : c ≠ ',' := by
      rintro rfl
      cases digit
    rw [splitComma, if_neg other, ih fun d h => digits d (List.mem_cons_of_mem _ h)]

theorem splitComma_digits (digits : ∀ c ∈ p, c.isDigit) : splitComma (p ++ ',' :: n) = p :: splitComma n := by
  induction p with
  | nil => rfl
  | cons c p ih =>
    have digit := digits c (List.mem_cons_self ..)
    have other : c ≠ ',' := by
      rintro rfl
      cases digit
    rw [List.cons_append, splitComma, if_neg other, ih fun d h => digits d (List.mem_cons_of_mem _ h)]

theorem strip_of_ends (first : ∀ c, s.head? = some c → isSpace c = false)
    (last : ∀ c, s.getLast? = some c → isSpace c = false) : strip s = s := by
  have kept : ∀ t : Text, (∀ c, t.head? = some c → isSpace c = false) → t.dropWhile isSpace = t := by
    intro t head
    cases t with
    | nil => rfl
    | cons c t => rw [List.dropWhile_cons_of_neg (by simp [head c rfl])]
  have back : ∀ c, s.reverse.head? = some c → isSpace c = false := by
    intro c h
    rw [List.head?_reverse] at h
    exact last c h
  rw [strip, kept s first, kept s.reverse back, List.reverse_reverse]

def bitEnd (b : Bool) : Text := if b then bitSuffix else []

theorem IsTypeChar.of_base (letters : ∀ c ∈ base, c.isUpper ∨ c.isDigit) : ∀ c ∈ base, IsTypeChar c := by
  intro c member
  rcases letters c member with upper | digit
  · exact Or.inl upper
  · exact Or.inr (Or.inl digit)

theorem IsTypeChar.of_inner (digits : ∀ c ∈ inner, c.isDigit ∨ c = ',') : ∀ c ∈ inner, IsTypeChar c := by
  intro c member
  rcases digits c member with digit | rfl
  · exact Or.inr (Or.inl digit)
  · exact Or.inr (Or.inr (Or.inr (Or.inr rfl)))

theorem upper_call (baseChars : ∀ c ∈ base, IsTypeChar c) (innerChars : ∀ c ∈ inner, IsTypeChar c) :
    (base ++ '(' :: (inner ++ ')' :: bitEnd b)).flatMap upperLetters = base ++ '(' :: (inner ++ ')' :: bitEnd b) := by
  have suffix : (bitEnd b).flatMap upperLetters = bitEnd b := by
    cases b with
    | false => rfl
    | true => decide +kernel
  have opening : upperLetters '(' = ['('] := by decide
  have closing : upperLetters ')' = [')'] := by decide
  rw [List.flatMap_append, List.flatMap_cons, List.flatMap_append, List.flatMap_cons, flatMap_upperLetters baseChars,
    flatMap_upperLetters innerChars, suffix, opening, closing]
  rfl

theorem strip_call (baseChars : ∀ c ∈ base, IsTypeChar c) (some : base ≠ []) :
    strip (base ++ '(' :: (inner ++ ')' :: bitEnd b)) = base ++ '(' :: (inner ++ ')' :: bitEnd b) := by
  apply strip_of_ends
  · intro c head
    obtain ⟨d, base, rfl⟩ := List.exists_cons_of_ne_nil some
    cases head
    exact (baseChars _ (List.mem_cons_self ..)).notSpace
  · intro c final
    have last : (base ++ '(' :: (inner ++ ')' :: bitEnd b)).getLast? = (')' :: bitEnd b).getLast? := by
      rw [List.getLast?_append_of_ne_nil _ (List.cons_ne_nil _ _), ← List.cons_append,
        List.getLast?_append_of_ne_nil _ (List.cons_ne_nil _ _)]
    rw [last] at final
    cases b with
    | false =>
      cases final
      decide
    | true =>
      have letter : (')' :: bitEnd true).getLast? = .some 'A' := by decide
      rw [letter] at final
      cases final
      decide

/-- The name runs to the opening bracket, and the arguments to the closing one. -/
theorem typeGroups_call (letters : ∀ c ∈ base, c.isUpper ∨ c.isDigit) (some : base ≠ []) (nonempty : inner ≠ [])
    (digits : ∀ c ∈ inner, c.isDigit ∨ c = ',') :
    typeGroups (base ++ '(' :: (inner ++ ')' :: bitEnd b)) = .some (base, inner, b) := by
  have baseChars : ∀ c ∈ base, isBaseChar c = true := by
    intro c member
    rcases letters c member with upper | digit
    · simp [isBaseChar, upper]
    · simp [isBaseChar, digit]
  have argChars : ∀ c ∈ inner, isArgChar c = true := by
    intro c member
    rcases digits c member with digit | rfl
    · simp [isArgChar, Char.isAlphanum, digit]
    · decide
  have front : (base ++ '(' :: (inner ++ ')' :: bitEnd b)).takeWhile isBaseChar = base := by
    rw [List.takeWhile_append_of_pos baseChars, List.takeWhile_cons_of_neg (by decide), List.append_nil]
  have back : (base ++ '(' :: (inner ++ ')' :: bitEnd b)).dropWhile isBaseChar = '(' :: (inner ++ ')' :: bitEnd b) := by
    rw [List.dropWhile_append_of_pos baseChars, List.dropWhile_cons_of_neg (by decide)]
  have args : (inner ++ ')' :: bitEnd b).takeWhile isArgChar = inner := by
    rw [List.takeWhile_append_of_pos argChars, List.takeWhile_cons_of_neg (by decide), List.append_nil]
  have close : (inner ++ ')' :: bitEnd b).dropWhile isArgChar = ')' :: bitEnd b := by
    rw [List.dropWhile_append_of_pos argChars, List.dropWhile_cons_of_neg (by decide)]
  obtain ⟨c, base, rfl⟩ := List.exists_cons_of_ne_nil some
  obtain ⟨a, inner, rfl⟩ := List.exists_cons_of_ne_nil nonempty
  simp only [typeGroups, front, back, args, close]
  cases b with
  | false => rfl
  | true => exact if_neg (by decide)

/-- A type with arguments is parsed to its parts. -/
theorem parseType_call (letters : ∀ c ∈ base, c.isUpper ∨ c.isDigit) (some : base ≠ []) (nonempty : inner ≠ [])
    (digits : ∀ c ∈ inner, c.isDigit ∨ c = ',') :
    parseType (base ++ '(' :: (inner ++ ')' :: bitEnd b)) =
      .ok ⟨base, ((splitComma inner).map strip).filter (· ≠ []), b⟩ := by
  have baseChars := IsTypeChar.of_base letters
  have stripped : strip base = base := strip_of_no_space fun c member => (baseChars c member).notSpace
  rw [parseType, strip_call baseChars some, upper_call baseChars (IsTypeChar.of_inner digits),
    typeGroups_call letters some nonempty digits]
  simp only [stripped]

theorem strip_number (number : IsNumber n) : strip n = n :=
  strip_of_no_space fun c member => isSpace_of_isDigit (number.2 c member)

theorem letters_of_all (checked : base.all (fun c => c.isUpper || c.isDigit) = true) :
    ∀ c ∈ base, c.isUpper ∨ c.isDigit := by
  intro c member
  have letter := List.all_eq_true.mp checked c member
  simpa using letter

theorem parseType_one (letters : ∀ c ∈ base, c.isUpper ∨ c.isDigit) (some : base ≠ []) (number : IsNumber n) :
    parseType (base ++ '(' :: (n ++ ')' :: bitEnd b)) = .ok ⟨base, [n], b⟩ := by
  rw [parseType_call letters some number.1 fun c member => Or.inl (number.2 c member), splitComma_of_digits number.2,
    List.map_cons, strip_number number]
  simp [number.1]

theorem parseType_two (letters : ∀ c ∈ base, c.isUpper ∨ c.isDigit) (some : base ≠ []) (number : IsNumber p)
    (number' : IsNumber n) : parseType (base ++ '(' :: (p ++ ',' :: n ++ [')'])) = .ok ⟨base, [p, n], false⟩ := by
  change parseType (base ++ '(' :: (p ++ ',' :: n ++ ')' :: bitEnd false)) = _
  have digits : ∀ c ∈ p ++ ',' :: n, c.isDigit ∨ c = ',' := by
    intro c member
    simp only [List.mem_append, List.mem_cons] at member
    rcases member with first | rfl | second
    · exact Or.inl (number.2 c first)
    · exact Or.inr rfl
    · exact Or.inl (number'.2 c second)
  rw [parseType_call letters some (by simp) digits, splitComma_digits number.2, splitComma_of_digits number'.2,
    List.map_cons, List.map_cons, strip_number number, strip_number number']
  simp [number.1, number'.1]

theorem argument_number (number : IsNumber n) {k : Nat} (h : argument (some n) = .ok k) : k = digitsValue n := by
  unfold argument at h
  simp only [intOf_digits number.2 number.1] at h
  split at h
  next value read =>
    split at read
    next =>
      cases read
      cases h
      rfl
    next => cases read
  next => cases h

end

/-! What the shipped maps infer. -/

def sign (b : Bool) : Text := if b then ['S'] else []

/-- What follows the digits before the point. -/
def fractionText : Option (Option Text) → Text
  | none => []
  | some m => 'V' :: '9' :: paren m

def usageText : Usage → Text
  | .display => []
  | .comp => text " COMP"
  | .comp3 => text " COMP-3"

section

variable {pic tail n p src : Text} {usage : Usage} {l : PicLayout} {m : Option Text} {f : Option (Option Text)} {b : Bool}
  {item : Item} {target : Target} {k : Nat} {key : Text} {rule : InferenceRule} {g : List (Text × Text)}

theorem picX_eq (h : picX pic = some m) : pic = 'X' :: paren m ∧ ∀ digits, m = some digits → IsNumber digits := by
  unfold picX at h
  split at h
  next s =>
    split at h
    next found =>
      cases h
      obtain ⟨whole, number⟩ := parenthesized_eq found
      rw [List.append_nil] at whole
      rw [whole]
      exact ⟨rfl, number⟩
    next => cases h
  next => cases h

theorem picNine_eq (h : picNine pic = some (b, m, f)) :
    pic = sign b ++ '9' :: (paren m ++ fractionText f) ∧ (∀ digits, m = some digits → IsNumber digits) ∧
      ∀ digits, f = some (some digits) → IsNumber digits := by
  unfold picNine at h
  split at h
  next signed s front =>
    have whole := (splitS_eq front).1
    split at h
    next found =>
      cases h
      obtain ⟨rest, number⟩ := parenthesized_eq found
      refine ⟨?_, number, fun _ no => by cases no⟩
      rw [whole, rest]
      rfl
    next found =>
      split at h
      next found' =>
        cases h
        obtain ⟨rest, number⟩ := parenthesized_eq found
        obtain ⟨rest', number'⟩ := parenthesized_eq found'
        refine ⟨?_, number, ?_⟩
        · rw [List.append_nil] at rest'
          rw [whole, rest, rest']
          rfl
        · intro digits is
          cases is
          exact number' digits rfl
      next => cases h
    next => cases h
  next => cases h

theorem groupNumber_eq (h : groupNumber m = .ok k) : k = m.elim 1 digitsValue := by
  unfold groupNumber at h
  split at h
  next =>
    cases h
    rfl
  next digits =>
    split at h
    next =>
      cases h
      rfl
    next => cases h

/-- A picture's text, and what it says of the bytes. -/
theorem picLayout_cases (h : picLayout pic usage = .ok l) :
    (l.isNumeric = false ∧ l.scale = 0 ∧ usage = .display ∧
      ∃ m, pic = 'X' :: paren m ∧ (∀ digits, m = some digits → IsNumber digits) ∧ l.length = m.elim 1 digitsValue) ∨
    (l.isNumeric = true ∧ ∃ b m f, pic = sign b ++ '9' :: (paren m ++ fractionText f) ∧
      (∀ digits, m = some digits → IsNumber digits) ∧ (∀ digits, f = some (some digits) → IsNumber digits) ∧
      l.scale = f.elim 0 (fun m => m.elim 1 digitsValue) ∧ l.digits = m.elim 1 digitsValue + l.scale ∧
      picLength usage l.digits = some l.length) := by
  unfold picLayout at h
  split at h
  next m found =>
    split at h
    next => cases h
    next display =>
      obtain ⟨n, number, h⟩ := bind_ok h
      cases h
      obtain ⟨whole, digits⟩ := picX_eq found
      exact Or.inl ⟨rfl, rfl, Decidable.not_not.mp display, m, whole, digits, groupNumber_eq number⟩
  next =>
    split at h
    next => cases h
    next b m f found =>
      obtain ⟨whole, number, h⟩ := bind_ok h
      obtain ⟨scale, places, h⟩ := bind_ok h
      split at h
      next length has =>
        cases h
        obtain ⟨shape, digits, digits'⟩ := picNine_eq found
        refine Or.inr ⟨rfl, b, m, f, shape, digits, digits', ?_, ?_, has⟩
        · cases f with
          | none =>
            cases places
            rfl
          | some m' => exact groupNumber_eq places
        · rw [groupNumber_eq number]
      next => cases h

theorem splitS_sign (b : Bool) (tail : Text) : splitS (sign b ++ '9' :: tail) = (b, '9' :: tail) := by
  cases b with
  | false => rfl
  | true => rfl

theorem nineGroup_number (number : IsNumber n) : nineGroup (sign b ++ '9' :: (paren (some n) ++ tail)) = some (n, tail) := by
  simp only [nineGroup, splitS_sign, parenthesized_append number]

theorem nineGroup_none (other : tail.head? ≠ some '(') : nineGroup (sign b ++ '9' :: tail) = none := by
  simp only [nineGroup, splitS_sign, parenthesized_none other]

theorem fractionGroup_number (number : IsNumber n) :
    fractionGroup ('V' :: '9' :: (paren (some n) ++ tail)) = some (n, tail) := by
  simp only [fractionGroup, parenthesized_append number]

theorem fractionGroup_none (other : tail.head? ≠ some '(') : fractionGroup ('V' :: '9' :: tail) = none := by
  simp only [fractionGroup, parenthesized_none other]

/-- No pattern of a text is one of a number. -/
theorem text_patterns_none (key : Text) (numeric : ∃ b tail, key = sign b ++ '9' :: tail) :
    timestampPattern key = none ∧ charPattern key = none ∧ oneCharPattern key = none := by
  obtain ⟨b, tail, rfl⟩ := numeric
  have stamp : text "X(32)" = ['X', '(', '3', '2', ')'] := rfl
  cases b with
  | false => simp [timestampPattern, charPattern, oneCharPattern, picXGroup, sign, stamp]
  | true => simp [timestampPattern, charPattern, oneCharPattern, picXGroup, sign, stamp]

theorem usageEnd_letter (words : List String) (rest : Text) : usageEnd words ('V' :: rest) = false := by
  have letter : spaces ('V' :: rest) = none := by simp [spaces, someFront, isSpace]
  simp only [usageEnd, letter, Option.any_none]

theorem usageText_head (usage : Usage) : (usageText usage).head? ≠ some '(' := by
  cases usage with
  | display => decide
  | comp => decide
  | comp3 => decide

def firstMatch (key : Text) : Option (InferenceRule × List (Text × Text)) :=
  copybookInference.findSome? fun rule => (rule.pic key).map fun groups => (rule, groups)

/-- A picture of one digit without a number of them matches no pattern. -/
theorem firstMatch_bare (other : tail.head? ≠ some '(') : firstMatch (sign b ++ '9' :: tail) = none := by
  obtain ⟨stamp, chars, one⟩ := text_patterns_none (sign b ++ '9' :: tail) ⟨b, _, rfl⟩
  have nine := nineGroup_none (b := b) other
  simp [firstMatch, copybookInference, stamp, chars, one, compPattern, bothPattern, wholePattern, nine]

/-- No fraction: a binary number is named after its digits, another is a decimal without places. -/
theorem firstMatch_whole (number : IsNumber n)
    (h : firstMatch (sign b ++ '9' :: (paren (some n) ++ usageText usage)) = some (rule, g)) :
    (usage = .comp ∧ rule.source = .inr integerNames ∧ g = [(['n'], n)]) ∨
      (usage ≠ .comp ∧ rule.source = .inl wholePart ∧ g = [(['p'], n)]) := by
  obtain ⟨stamp, chars, one⟩ := text_patterns_none (sign b ++ '9' :: (paren (some n) ++ usageText usage)) ⟨b, _, rfl⟩
  have nine : nineGroup (sign b ++ '9' :: (paren (some n) ++ usageText usage)) = some (n, usageText usage) :=
    nineGroup_number number
  have fraction : fractionGroup (usageText usage) = none := by
    cases usage <;> rfl
  simp only [firstMatch, copybookInference, List.findSome?_cons, List.findSome?_nil, stamp, chars, one, compPattern,
    bothPattern, wholePattern, nine, fraction, Option.map_none, Option.bind_eq_bind, Option.bind_some, Option.bind_none] at h
  cases usage with
  | comp =>
    have isComp : usageEnd compEnds (usageText .comp) = true := by decide
    simp only [isComp, if_true, Option.map_some, Option.some.injEq, Prod.mk.injEq] at h
    obtain ⟨rfl, rfl⟩ := h
    exact Or.inl ⟨rfl, rfl, rfl⟩
  | comp3 =>
    have notComp : usageEnd compEnds (usageText .comp3) = false := by decide
    have packed : usageEnd ["COMP-3"] (usageText .comp3) = true := by decide
    simp [notComp, packed] at h
    obtain ⟨rfl, rfl⟩ := h
    exact Or.inr ⟨by simp, rfl, rfl⟩
  | display =>
    have notComp : usageEnd compEnds (usageText .display) = false := by decide
    have packed : usageEnd ["COMP-3"] (usageText .display) = false := by decide
    have done : List.isEmpty (usageText .display) = true := rfl
    simp [notComp, packed, done] at h
    obtain ⟨rfl, rfl⟩ := h
    exact Or.inr ⟨by simp, rfl, rfl⟩

/-- A fraction: the number of its digits is written out, and the number is no binary one. -/
theorem firstMatch_part (number : IsNumber n) (places : ∀ digits, m = some digits → IsNumber digits)
    (h : firstMatch (sign b ++ '9' :: (paren (some n) ++ ('V' :: '9' :: (paren m ++ usageText usage)))) = some (rule, g)) :
    usage ≠ .comp ∧ ∃ s, m = some s ∧ rule.source = .inl bothParts ∧ g = [(['p'], n), (['s'], s)] := by
  obtain ⟨stamp, chars, one⟩ := text_patterns_none
    (sign b ++ '9' :: (paren (some n) ++ ('V' :: '9' :: (paren m ++ usageText usage)))) ⟨b, _, rfl⟩
  have nine : nineGroup (sign b ++ '9' :: (paren (some n) ++ ('V' :: '9' :: (paren m ++ usageText usage)))) =
      some (n, 'V' :: '9' :: (paren m ++ usageText usage)) := nineGroup_number number
  have notComp : usageEnd compEnds ('V' :: '9' :: (paren m ++ usageText usage)) = false := usageEnd_letter ..
  have packed : usageEnd ["COMP-3"] ('V' :: '9' :: (paren m ++ usageText usage)) = false := usageEnd_letter ..
  simp only [firstMatch, copybookInference, List.findSome?_cons, List.findSome?_nil, stamp, chars, one, compPattern,
    bothPattern, wholePattern, nine, notComp, packed, Option.map_none, Option.bind_eq_bind, Option.bind_some] at h
  cases m with
  | none =>
    have fraction : fractionGroup ('V' :: '9' :: (paren none ++ usageText usage)) = none :=
      fractionGroup_none (usageText_head usage)
    simp [fraction] at h
  | some s =>
    have fraction : fractionGroup ('V' :: '9' :: (paren (some s) ++ usageText usage)) = some (s, usageText usage) :=
      fractionGroup_number (places s rfl)
    simp only [fraction] at h
    cases usage with
    | comp =>
      have notPacked : usageEnd ["COMP-3"] (usageText .comp) = false := by decide
      have after : usageText .comp ≠ [] := by decide
      simp [notPacked, after] at h
    | comp3 =>
      have isPacked : usageEnd ["COMP-3"] (usageText .comp3) = true := by decide
      simp [isPacked] at h
      obtain ⟨rfl, rfl⟩ := h
      exact ⟨by simp, s, rfl, rfl, rfl⟩
    | display =>
      have notPacked : usageEnd ["COMP-3"] [] = false := by decide
      simp [notPacked, usageText] at h
      obtain ⟨rfl, rfl⟩ := h
      exact ⟨by simp, s, rfl, rfl, rfl⟩

theorem firstMatch_text (numbers : ∀ digits, m = some digits → IsNumber digits)
    (h : firstMatch ('X' :: paren m) = some (rule, g)) :
    (rule.source = .inl (text "TIMESTAMP(12)")) ∨
    (rule.source = .inl (text "CHAR(\x7bn\x7d)") ∧ ∃ n, m = some n ∧ g = [(['n'], n)]) ∨
    (rule.source = .inl (text "CHAR(1)") ∧ m = none) := by
  cases m with
  | none =>
    have found : firstMatch ('X' :: paren none) = some (⟨oneCharPattern, .inl (text "CHAR(1)")⟩, []) := by rfl
    rw [found] at h
    cases h
    exact Or.inr (Or.inr ⟨rfl, rfl⟩)
  | some n =>
    have read : picXGroup ('X' :: paren (some n)) = some n := by
      have read : parenthesized ('(' :: (n ++ [')'])) = (some n, []) := parenthesized_paren (numbers n rfl)
      simp only [picXGroup, paren, read]
    by_cases stamp : 'X' :: paren (some n) = text "X(32)"
    · simp [firstMatch, copybookInference, timestampPattern, stamp] at h
      exact Or.inl (by rw [← h.1])
    · simp [firstMatch, copybookInference, timestampPattern, stamp, charPattern, read] at h
      obtain ⟨rfl, rfl⟩ := h
      exact Or.inr (Or.inl ⟨rfl, n, rfl, rfl⟩)

inductive SourceForm (item : Item) : Text → Prop
  | timestamp : item.isNumeric = false → SourceForm item (text "TIMESTAMP(12)")
  | char (n : Text) : item.isNumeric = false → IsNumber n → digitsValue n = item.field.length →
    SourceForm item (text "CHAR(" ++ n ++ [')'])
  | integer (row : Nat × Text) : item.isNumeric = true → item.field.usage = .comp → item.field.scale = 0 →
    row ∈ [(2, text "SMALLINT"), (4, text "INTEGER"), (8, text "BIGINT")] → item.field.length = row.1 → SourceForm item row.2
  | decimal (p s : Text) : item.isNumeric = true → item.field.usage ≠ .comp → IsNumber p → IsNumber s →
    digitsValue p = item.digits → digitsValue s = item.field.scale → SourceForm item (text "DECIMAL(" ++ (p ++ ',' :: s) ++ [')'])

theorem isNumber_toDigits (k : Nat) : IsNumber (Nat.toDigits 10 k) := by
  refine ⟨Nat.toDigits_ne_nil, ?_⟩
  intro c member
  exact Nat.isDigit_of_mem_toDigits (b := 10) (n := k) (by omega) (by omega) member

theorem shipped_inference (target : Target) : (shippedMap target).inference = copybookInference := by
  cases target with
  | azuresql => rfl
  | postgresql => rfl

theorem sorted_integerNames : (integerNames.insertionSort fun a b => a.1 ≤ b.1) = integerNames := by decide

/-- The rule that matches the picture fills its template with the groups, or names the bytes of the digits. -/
theorem infer_match (h : (shippedMap target).inferSourceType item = .ok src) :
    ∃ rule g, firstMatch item.picKey = some (rule, g) ∧
    (∀ template, rule.source = .inl template → ∃ g', addTotal g = .ok g' ∧ format template g' = .ok src) ∧
    ∀ n, rule.source = .inr integerNames → g = [(['n'], n)] → ∃ k limit, argument (some n) = .ok k ∧
      integerNames.find? (fun limit => k ≤ limit.1) = some limit ∧ limit.2 = src := by
  unfold TypeMap.inferSourceType at h
  rw [shipped_inference] at h
  simp only at h
  split at h
  next => cases h
  next rule g found =>
    refine ⟨rule, g, found, ?_, ?_⟩
    · intro template source
      rw [source] at h
      obtain ⟨g', total, h⟩ := bind_ok h
      exact ⟨g', total, h⟩
    · rintro n source rfl
      simp only [source, sorted_integerNames] at h
      obtain ⟨k, read, h⟩ := bind_ok h
      split at h
      next limit named =>
        cases h
        exact ⟨k, limit, read, named, rfl⟩
      next => cases h

/-- The name for a number of digits is that of the bytes they take. -/
theorem name_form {limit : Nat × Text} (numeric : item.isNumeric = true) (comp : item.field.usage = .comp)
    (scale : item.field.scale = 0) (length : picLength .comp k = some item.field.length)
    (named : integerNames.find? (fun limit => k ≤ limit.1) = some limit) : SourceForm item limit.2 := by
  have row : ∀ row : Nat × Text, row ∈ [(2, text "SMALLINT"), (4, text "INTEGER"), (8, text "BIGINT")] →
      item.field.length = row.1 → SourceForm item row.2 :=
    fun row member same => .integer row numeric comp scale member same
  simp only [integerNames, List.find?_cons, List.find?_nil] at named
  simp only [picLength] at length
  by_cases four : k ≤ 4
  · simp only [four, decide_true, if_true, Option.some.injEq] at named length
    cases named
    exact row (2, text "SMALLINT") (by simp) length.symm
  · by_cases nine : k ≤ 9
    · simp only [four, nine, decide_true, decide_false, if_true, if_false, Option.some.injEq] at named length
      cases named
      exact row (4, text "INTEGER") (by simp) length.symm
    · by_cases eighteen : k ≤ 18
      · simp only [four, nine, eighteen, decide_true, decide_false, if_true, if_false, Option.some.injEq] at named length
        cases named
        exact row (8, text "BIGINT") (by simp) length.symm
      · simp only [four, nine, eighteen, if_false] at length
        cases length

theorem text_form (plain : item.isNumeric = false) (numbers : ∀ digits, m = some digits → IsNumber digits)
    (length : item.field.length = m.elim 1 digitsValue) (found : firstMatch ('X' :: paren m) = some (rule, g))
    (fills : ∀ template, rule.source = .inl template → ∃ g', addTotal g = .ok g' ∧ format template g' = .ok src) :
    SourceForm item src := by
  rcases firstMatch_text numbers found with stamp | ⟨chars, n, rfl, rfl⟩ | ⟨one, rfl⟩
  · obtain ⟨g', _, made⟩ := fills _ stamp
    have made' : format (text "TIMESTAMP(12)") g' = .ok (text "TIMESTAMP(12)") := rfl
    cases Except.ok.inj (made'.symm.trans made)
    exact .timestamp plain
  · obtain ⟨g', total, made⟩ := fills _ chars
    cases total
    have made' : format (text "CHAR(\x7bn\x7d)") [(['n'], n)] = .ok (text "CHAR(" ++ n ++ [')']) := rfl
    cases Except.ok.inj (made'.symm.trans made)
    exact .char n plain (numbers n rfl) length.symm
  · obtain ⟨g', _, made⟩ := fills _ one
    have made' : format (text "CHAR(1)") g' = .ok (text "CHAR(" ++ ['1'] ++ [')']) := rfl
    cases Except.ok.inj (made'.symm.trans made)
    exact .char ['1'] plain ⟨by simp, by simp⟩ length.symm

theorem whole_form (number : IsNumber n) (numeric : item.isNumeric = true) (other : item.field.usage ≠ .comp)
    (scale : item.field.scale = 0) (digits : item.digits = digitsValue n)
    (made : format wholePart [(['p'], n)] = .ok src) : SourceForm item src := by
  have made' : format wholePart [(['p'], n)] = .ok (text "DECIMAL(" ++ (n ++ ',' :: ['0']) ++ [')']) := by
    simp [format, formatFrom, wholePart, text]
  cases Except.ok.inj (made'.symm.trans made)
  exact .decimal n ['0'] numeric other number ⟨by simp, by simp⟩ digits.symm (by rw [scale]; rfl)

theorem both_form {g' : List (Text × Text)} (number : IsNumber n) (number' : IsNumber p) (numeric : item.isNumeric = true)
    (other : item.field.usage ≠ .comp) (scale : item.field.scale = digitsValue p)
    (digits : item.digits = digitsValue n + digitsValue p)
    (total : addTotal [(['p'], n), (['s'], p)] = .ok g') (made : format bothParts g' = .ok src) : SourceForm item src := by
  have lookups : addTotal [(['p'], n), (['s'], p)] = (do
      let whole ← argument (some n)
      let part ← argument (some p)
      .ok [(text "ps", Nat.toDigits 10 (whole + part)), (['p'], n), (['s'], p)]) := rfl
  rw [lookups] at total
  obtain ⟨whole, readWhole, total⟩ := bind_ok total
  obtain ⟨part, readPart, total⟩ := bind_ok total
  cases total
  have made' : format bothParts [(text "ps", Nat.toDigits 10 (whole + part)), (['p'], n), (['s'], p)] =
      .ok (text "DECIMAL(" ++ (Nat.toDigits 10 (whole + part) ++ ',' :: p) ++ [')']) := by
    simp [format, formatFrom, bothParts, text, List.lookup_cons]
  cases Except.ok.inj (made'.symm.trans made)
  refine .decimal _ p numeric other (isNumber_toDigits _) number' ?_ scale.symm
  rw [digits, ← argument_number number readWhole, ← argument_number number' readPart]
  exact digitsValue_zeros (w := 0)

/-- The shipped maps infer a type with the digits and the places of the picture. -/
theorem infer_form (h : (shippedMap target).inferSourceType item = .ok src) : SourceForm item src := by
  obtain ⟨rule, g, found, fills, names⟩ := infer_match h
  rcases picLayout_cases item.layout with ⟨plain, _, display, m, shape, numbers, length⟩ |
    ⟨numeric, b, m, f, shape, numbers, places, scale, digits, length⟩
  · have key : item.picKey = 'X' :: paren m := by
      unfold Item.picKey
      rw [shape, display, List.append_nil]
    rw [key] at found
    exact text_form plain numbers length found fills
  · have suffix : item.picKey = item.pic ++ usageText item.field.usage := by
      unfold Item.picKey usageText
      rfl
    have key : item.picKey = sign b ++ '9' :: (paren m ++ (fractionText f ++ usageText item.field.usage)) := by
      rw [suffix, shape, List.append_assoc, List.cons_append, List.append_assoc]
    rw [key] at found
    cases m with
    | none =>
      have bare : (fractionText f ++ usageText item.field.usage).head? ≠ some '(' := by
        cases f with
        | none => exact usageText_head item.field.usage
        | some m => simp [fractionText]
      have missed := firstMatch_bare (b := b) bare
      cases missed.symm.trans found
    | some n =>
      have number := numbers n rfl
      cases f with
      | none =>
        rcases firstMatch_whole number found with ⟨comp, source, groups⟩ | ⟨other, source, rfl⟩
        · obtain ⟨k, limit, read, named, rfl⟩ := names n source groups
          rw [comp, digits, scale] at length
          rw [argument_number number read] at named
          exact name_form numeric comp scale length named
        · obtain ⟨g', total, made⟩ := fills _ source
          cases total
          rw [scale] at digits
          exact whole_form number numeric other scale digits made
      | some m' =>
        have part : ∀ digits, m' = some digits → IsNumber digits := fun digits is => places digits (congrArg some is)
        obtain ⟨other, p, rfl, source, rfl⟩ := firstMatch_part number part found
        obtain ⟨g', total, made⟩ := fills _ source
        rw [scale] at digits
        exact both_form number (places p rfl) numeric other scale digits total made

end

end OtterWorks.Migration
