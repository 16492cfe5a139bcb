import Mathlib.Data.List.TakeWhile
import OtterWorks.Tenants.Sanitize

namespace OtterWorks.Tenants

/-- Some ASCII letter or digit stands after the first line break. -/
def wordsBelow (raw : Text) : Bool := ((raw.map Char.toLower).dropWhile (· != '\n')).any isLowerOrDigit

/-- The text ends within a word. -/
def endsInWord (s : Text) : Bool := s.getLast?.any isLowerOrDigit

/-- The words of a text, and the dash that the next word will put behind them. -/
def openSlug (s : Text) : Text := slug s ++ if s.any isLowerOrDigit && !endsInWord s then ['-'] else []

/-- The hidden letters of a text make no difference: there is none; or the words before the first fill the 40 characters;
or it does not continue a word, and what stands from it on gives with and without the letters the same characters up to
the cut. -/
def HiddenLettersLost (raw : Text) : Prop :=
  let before := openSlug ((raw.takeWhile fun c => !isHiddenLetter c).map Char.toLower)
  let rest := raw.dropWhile fun c => !isHiddenLetter c
  rest = [] ∨ 40 ≤ before.length ∨
    (endsInWord ((raw.takeWhile fun c => !isHiddenLetter c).map Char.toLower) = false ∧
      trimRight '-' ((slug (lower rest)).take (40 - before.length)) =
        trimRight '-' ((slug (rest.map Char.toLower)).take (40 - before.length)))

section

variable {s t x y : Text} {c d : Char} {started pending : Bool}

theorem trimRight_append (c : Char) (s t : Text) :
    trimRight c (s ++ t) = if trimRight c t = [] then trimRight c s else s ++ trimRight c t := by
  unfold trimRight
  rw [List.reverse_append, List.dropWhile_append]
  by_cases gone : t.reverse.dropWhile (· == c) = []
  · simp [gone]
  · have kept : (t.reverse.dropWhile (· == c)).isEmpty = false := by simpa using gone
    simp [kept, gone]

theorem trimRight_eq_nil_iff : trimRight c s = [] ↔ ∀ d ∈ s, d = c := by
  unfold trimRight
  rw [List.reverse_eq_nil_iff, List.dropWhile_eq_nil_iff]
  simp

/-- Behind a common front, what is trimmed is the same exactly if the rests are. -/
theorem trimRight_append_inj (c : Char) (s t u : Text) :
    trimRight c (s ++ t) = trimRight c (s ++ u) ↔ trimRight c t = trimRight c u := by
  have shorter := (prefix_trimRight c s).length_le
  rw [trimRight_append, trimRight_append]
  by_cases none₁ : trimRight c t = []
  · by_cases none₂ : trimRight c u = []
    · simp [none₁, none₂]
    · rw [if_pos none₁, if_neg none₂, none₁]
      have pos := List.length_pos_of_ne_nil none₂
      refine iff_of_false (fun same => ?_) (fun same => none₂ same.symm)
      have lengths := congrArg List.length same
      rw [List.length_append] at lengths
      omega
  · by_cases none₂ : trimRight c u = []
    · rw [if_neg none₁, if_pos none₂, none₂]
      have pos := List.length_pos_of_ne_nil none₁
      refine iff_of_false (fun same => ?_) none₁
      have lengths := congrArg List.length same
      rw [List.length_append] at lengths
      omega
    · rw [if_neg none₁, if_neg none₂, List.append_right_inj]

theorem words_eq_nil (none' : s.any isLowerOrDigit = false) (started pending : Bool) : words s started pending = [] := by
  induction s generalizing started pending with
  | nil => rfl
  | cons c s ih =>
    rw [List.any_cons, Bool.or_eq_false_iff] at none'
    rw [words, none'.1, if_neg (by simp)]
    exact ih none'.2 started true

/-- What is pending behind a text. -/
def pendingAfter (s : Text) (pending : Bool) : Bool :=
  match s.getLast? with
  | none => pending
  | some c => !isLowerOrDigit c

theorem pendingAfter_cons (c : Char) (s : Text) (pending : Bool) :
    pendingAfter (c :: s) pending = pendingAfter s (!isLowerOrDigit c) := by
  unfold pendingAfter
  rw [List.getLast?_cons]
  cases s.getLast? with
  | none => rfl
  | some d => rfl

theorem words_append (s t : Text) (started pending : Bool) :
    words (s ++ t) started pending =
      words s started pending ++ words t (started || s.any isLowerOrDigit) (pendingAfter s pending) := by
  induction s generalizing started pending with
  | nil => simp [words, pendingAfter]
  | cons c s ih =>
    rw [List.cons_append, words, words, pendingAfter_cons, List.any_cons]
    cases plain : isLowerOrDigit c with
    | true =>
      rw [if_pos rfl, if_pos rfl, ih, List.append_assoc]
      simp
    | false =>
      rw [if_neg (by simp), if_neg (by simp), ih]
      simp

theorem words_pending (s : Text) : words s true true = if slug s = [] then [] else '-' :: slug s := by
  induction s with
  | nil => rfl
  | cons c s ih =>
    unfold slug
    rw [words, words]
    by_cases plain : isLowerOrDigit c = true
    · simp [plain]
    · rw [if_neg plain, if_neg plain, words_unstarted]
      exact ih

/-- A text that ends in a separator, or has no word yet, leaves the slug of what follows as it is. -/
theorem slug_append_apart (apart : endsInWord s = false) (t : Text) :
    slug (s ++ t) = slug s ++ (if s.any isLowerOrDigit && decide (slug t ≠ []) then ['-'] else []) ++ slug t := by
  rw [slug, words_append]
  show slug s ++ _ = _
  cases started : s.any isLowerOrDigit with
  | false =>
    rw [Bool.false_or, words_unstarted]
    simp
  | true =>
    have behind : pendingAfter s false = true := by
      unfold pendingAfter
      unfold endsInWord at apart
      cases last : s.getLast? with
      | none =>
        rw [List.getLast?_eq_none_iff.mp last] at started
        cases started
      | some c =>
        rw [last] at apart
        simpa using apart
    rw [behind, Bool.false_or, words_pending]
    by_cases none' : slug t = []
    · simp [none']
    · simp [none']

/-- The cut and the last trim do not see whether a dash without a word follows. -/
theorem cut_slug_append (apart : endsInWord s = false) (t : Text) :
    trimRight '-' ((slug (s ++ t)).take 40) = trimRight '-' ((openSlug s ++ slug t).take 40) := by
  rw [slug_append_apart apart, openSlug, apart]
  by_cases some' : slug t = []
  · rw [some']
    cases s.any isLowerOrDigit with
    | false => simp
    | true =>
      have room : (slug s ++ ['-']).take 40 = (slug s).take 40 ++ ['-'].take (40 - (slug s).length) := List.take_append
      simp only [ne_eq, not_true_eq_false, decide_false, Bool.and_false, Bool.false_eq_true, if_false, List.append_nil,
        Bool.not_false, Bool.and_true, if_true, room]
      rw [trimRight_append, if_pos]
      rw [trimRight_eq_nil_iff]
      intro d member
      simpa using List.mem_of_mem_take member
  · simp [some']

/-- The letter of a hidden letter, and what the lower case has behind it. -/
theorem lowerChar_hidden (hidden : isHiddenLetter c = true) :
    ∃ letter behind, lowerChar c = letter :: behind ∧ isLowerOrDigit letter = true := by
  simp only [isHiddenLetter, Bool.or_eq_true, decide_eq_true_eq] at hidden
  rcases hidden with kelvin | dotted
  · exact ⟨'k', [], by rw [lowerChar, if_pos kelvin], by decide⟩
  · refine ⟨'i', [Char.ofNat 0x307], ?_, by decide⟩
    rw [lowerChar, if_neg (by omega), if_pos dotted]

theorem toLower_hidden (hidden : isHiddenLetter c = true) : isLowerOrDigit c.toLower = false := by
  simp only [isHiddenLetter, Bool.or_eq_true, decide_eq_true_eq] at hidden
  have same : c.toLower = c := by
    unfold Char.toLower
    rw [dif_neg]
    intro upper
    have high : c.toNat ≤ 90 := upper.2
    omega
  rw [same]
  by_contra plain
  have code := toNat_of_allowed (Or.inl (by simpa using plain))
  omega

/-- Within a word a hidden letter shows, unless the cut is before it. -/
theorem cut_within_word {letter : Char} (within : endsInWord s = true) (plain : isLowerOrDigit letter = true)
    (other : isLowerOrDigit c = false) (x y : Text) :
    trimRight '-' ((slug (s ++ letter :: x)).take 40) = trimRight '-' ((slug (s ++ c :: y)).take 40) ↔
      40 ≤ (slug s).length := by
  have started : s.any isLowerOrDigit = true := by
    unfold endsInWord at within
    cases last : s.getLast? with
    | none => simp [last] at within
    | some d =>
      rw [last] at within
      exact List.any_eq_true.mpr ⟨d, List.mem_of_getLast? last, by simpa using within⟩
  have open' : pendingAfter s false = false := by
    unfold pendingAfter
    unfold endsInWord at within
    cases last : s.getLast? with
    | none => rfl
    | some d =>
      rw [last] at within
      simpa using within
  have shown : slug (s ++ letter :: x) = slug s ++ letter :: words x true false := by
    rw [slug, words_append, started, open', words, if_pos plain]
    rfl
  have dropped : slug (s ++ c :: y) = slug s ++ words y true true := by
    rw [slug, words_append, started, open', words, other]
    rfl
  rw [shown, dropped]
  constructor
  · intro same
    by_contra short
    have room : 0 < 40 - (slug s).length := by omega
    obtain ⟨n, hn⟩ := Nat.exists_eq_add_of_lt room
    rw [Nat.zero_add] at hn
    rw [List.take_append, List.take_append, hn, List.take_succ_cons, List.take_of_length_le (by omega),
      trimRight_append_inj, trimRight_cons, if_neg fun both => ne_dash plain both.2, words_pending] at same
    split at same
    · simp [trimRight] at same
    · rw [List.take_succ_cons, trimRight_cons] at same
      split at same
      · cases same
      · exact ne_dash plain (List.cons.inj same).1
  · intro full
    rw [List.take_append_of_le_length full, List.take_append_of_le_length full]

theorem take_after (full : ¬40 ≤ s.length) (t : Text) : (s ++ t).take 40 = s ++ t.take (40 - s.length) := by
  rw [List.take_append, List.take_of_length_le (by omega)]

/-- The two lower cases give the same id exactly if the hidden letters are lost. -/
theorem normalizeId_lower_iff (raw : Text) :
    normalizeId (raw.map Char.toLower) = normalizeId (lower raw) ↔ HiddenLettersLost raw := by
  have split := (List.takeWhile_append_dropWhile (p := fun c => !isHiddenLetter c) (l := raw)).symm
  have plain : ∀ c ∈ raw.takeWhile fun c => !isHiddenLetter c, isHiddenLetter c = false := by
    intro c member
    simpa using List.mem_takeWhile_imp member
  unfold HiddenLettersLost
  dsimp only
  cases rest : raw.dropWhile fun c => !isHiddenLetter c with
  | nil =>
    rw [rest, List.append_nil] at split
    rw [← split] at plain
    rw [lower_plain plain]
    exact iff_of_true rfl (Or.inl rfl)
  | cons z q =>
    have hidden : isHiddenLetter z = true := by
      have first := List.head_dropWhile_not (fun c => !isHiddenLetter c) (l := raw) (by rw [rest]; simp)
      simpa [rest] using first
    rw [rest] at split
    generalize raw.takeWhile (fun c => !isHiddenLetter c) = p at split plain
    subst split
    have lowered : lower (p ++ z :: q) = p.map Char.toLower ++ lower (z :: q) := by
      rw [lower, List.flatMap_append, ← lower, ← lower, lower_plain plain]
    rw [lowered, List.map_append, normalizeId_eq, normalizeId_eq]
    generalize p.map Char.toLower = P
    obtain ⟨letter, behind, shape, letterPlain⟩ := lowerChar_hidden hidden
    have front : lower (z :: q) = letter :: (behind ++ lower q) := by
      rw [lower, List.flatMap_cons, shape]
      rfl
    cases within : endsInWord P with
    | true =>
      have openSlug_eq : openSlug P = slug P := by simp [openSlug, within]
      rw [front, List.map_cons, eq_comm, cut_within_word within letterPlain (toLower_hidden hidden), openSlug_eq]
      simp
    | false =>
      rw [cut_slug_append within, cut_slug_append within]
      by_cases full : 40 ≤ (openSlug P).length
      · rw [List.take_append_of_le_length full, List.take_append_of_le_length full]
        exact iff_of_true rfl (Or.inr (Or.inl full))
      · rw [take_after full, take_after full, trimRight_append_inj]
        simp only [reduceCtorEq, full, false_or, true_and]
        exact eq_comm

theorem slug_eq_nil_iff : slug s = [] ↔ s.any isLowerOrDigit = false := by
  constructor
  · intro none'
    induction s with
    | nil => rfl
    | cons c s ih =>
      unfold slug at none'
      rw [words] at none'
      by_cases plain : isLowerOrDigit c = true
      · rw [if_pos plain] at none'
        cases none'
      · rw [if_neg plain, words_unstarted] at none'
        simpa [plain] using ih none'
  · intro none'
    exact words_eq_nil none' false false

theorem normalizeId_eq_nil_iff : normalizeId s = [] ↔ s.any isLowerOrDigit = false := by
  rw [normalizeId_eq, ← slug_eq_nil_iff, trimRight_eq_nil_iff]
  constructor
  · intro dashes
    cases shape : slug s with
    | nil => rfl
    | cons c rest =>
      have first : c = '-' := dashes c (by rw [shape]; simp)
      have apart := (slugged_slug s).single.rel_head? (Option.mem_def.mpr (by rw [shape]; rfl : (slug s).head? = some c))
      simp [NoPair, first] at apart
  · intro none'
    simp [none']

theorem mem_intercalate_break {lines : List Text} (member : c ∈ ['\n'].intercalate lines) :
    c = '\n' ∨ ∃ line ∈ lines, c ∈ line := by
  induction lines with
  | nil => cases member
  | cons line lines ih =>
    cases lines with
    | nil =>
      rw [List.intercalate_singleton] at member
      exact Or.inr ⟨line, List.mem_cons_self .., member⟩
    | cons next lines =>
      rw [List.intercalate_cons_cons, List.mem_append, List.mem_append] at member
      rcases member with (here | sep) | later
      · exact Or.inr ⟨line, List.mem_cons_self .., here⟩
      · exact Or.inl (List.mem_singleton.mp sep)
      · rcases ih later with sep | ⟨other, inside, here⟩
        · exact Or.inl sep
        · exact Or.inr ⟨other, List.mem_cons_of_mem _ inside, here⟩

theorem mem_intercalate_of_mem {lines : List Text} {line : Text} (inside : line ∈ lines) (member : c ∈ line) :
    c ∈ ['\n'].intercalate lines := by
  induction lines with
  | nil => cases inside
  | cons first lines ih =>
    cases lines with
    | nil =>
      rw [List.intercalate_singleton, ← List.mem_singleton.mp inside]
      exact member
    | cons next lines =>
      rw [List.intercalate_cons_cons, List.mem_append, List.mem_append]
      rcases List.mem_cons.mp inside with rfl | later
      · exact Or.inl (Or.inl member)
      · exact Or.inr (ih later)

/-- The shell's id of a text with more than one line. -/
theorem lines_joined (first more : Text) (line : '\n' ∉ first) :
    trimRight '\n' (['\n'].intercalate (((first ++ '\n' :: more).splitOn '\n').map normalizeId)) =
      trimRight '\n' (normalizeId first ++ '\n' :: ['\n'].intercalate ((more.splitOn '\n').map normalizeId)) := by
  rw [List.splitOn_append_cons_self_of_not_mem line, List.map_cons]
  rw [List.intercalate_cons_of_ne_nil (by simp), List.append_assoc]
  rfl

/-- With nothing but separators below, the shell sees the first line, and so does the dashboard. -/
theorem shellSanitizeId_of_not_below {raw : Text} (none' : wordsBelow raw = false) :
    shellSanitizeId raw = sanitizeId raw := by
  show shellSanitizeId raw = normalizeId (raw.map Char.toLower)
  unfold wordsBelow at none'
  unfold shellSanitizeId
  generalize raw.map Char.toLower = t at none'
  have split := (List.takeWhile_append_dropWhile (p := (· != '\n')) (l := t)).symm
  have line : '\n' ∉ t.takeWhile (· != '\n') := by
    intro member
    simpa using List.mem_takeWhile_imp member
  have same : normalizeId t = normalizeId (t.takeWhile (· != '\n')) := by
    rw [normalizeId_eq, normalizeId_eq]
    congr 2
    conv_lhs => rw [split, slug, words_append, words_eq_nil none', List.append_nil]
    rfl
  rw [same]
  cases rest : t.dropWhile (· != '\n') with
  | nil =>
    rw [rest, List.append_nil] at split
    rw [← split] at line ⊢
    rw [List.splitOn_eq_singleton line, List.map_singleton, List.intercalate_singleton, trimRight_break]
  | cons c more =>
    have first : c = '\n' := by
      have head := List.head_dropWhile_not (· != '\n') (l := t) (by rw [rest]; simp)
      simpa [rest] using head
    rw [rest, first] at split
    rw [rest, List.any_cons, Bool.or_eq_false_iff] at none'
    conv_lhs => rw [split]
    rw [lines_joined _ _ line, trimRight_append, if_pos, trimRight_break]
    rw [trimRight_eq_nil_iff]
    intro d member
    rcases List.mem_cons.mp member with rfl | later
    · rfl
    · rcases mem_intercalate_break later with sep | ⟨norm, inside, here⟩
      · exact sep
      · obtain ⟨l, listed, rfl⟩ := List.mem_map.mp inside
        have empty : normalizeId l = [] := by
          rw [normalizeId_eq_nil_iff, List.any_eq_false]
          intro e memberL
          have whole := mem_intercalate_of_mem listed memberL
          rw [List.intercalate_splitOn] at whole
          exact List.any_eq_false.mp none'.2 e whole
        rw [empty] at here
        cases here

/-- A word below the first line leaves a line break in the shell's id. -/
theorem break_mem_of_below {raw : Text} (below : wordsBelow raw = true) : '\n' ∈ shellSanitizeId raw := by
  unfold wordsBelow at below
  unfold shellSanitizeId
  generalize raw.map Char.toLower = t at below
  have split := (List.takeWhile_append_dropWhile (p := (· != '\n')) (l := t)).symm
  have line : '\n' ∉ t.takeWhile (· != '\n') := by
    intro member
    simpa using List.mem_takeWhile_imp member
  cases rest : t.dropWhile (· != '\n') with
  | nil =>
    rw [rest] at below
    cases below
  | cons c more =>
    have first : c = '\n' := by
      have head := List.head_dropWhile_not (· != '\n') (l := t) (by rw [rest]; simp)
      simpa [rest] using head
    rw [rest, first] at split
    rw [rest, first, List.any_cons, not_isLowerOrDigit_break, Bool.false_or] at below
    obtain ⟨d, member, plain⟩ := List.any_eq_true.mp below
    have other : d ≠ '\n' := by
      rintro rfl
      exact absurd plain (by decide)
    have whole : ['\n'].intercalate (more.splitOn '\n') = more := List.intercalate_splitOn '\n'
    rw [← whole] at member
    obtain ⟨l, listed, here⟩ := (mem_intercalate_break member).resolve_left other
    have shown : normalizeId l ≠ [] := by
      intro none'
      have plain' := List.any_eq_false.mp (normalizeId_eq_nil_iff.mp none') d here
      exact plain' plain
    obtain ⟨e, inside⟩ := List.exists_mem_of_ne_nil _ shown
    have ne : e ≠ '\n' := fun same => normalizeId_oneLine l (same ▸ inside)
    have stays : trimRight '\n' (['\n'].intercalate ((more.splitOn '\n').map normalizeId)) ≠ [] := by
      intro gone
      exact ne (trimRight_eq_nil_iff.mp gone e (mem_intercalate_of_mem (List.mem_map_of_mem listed) inside))
    have kept : trimRight '\n' ('\n' :: ['\n'].intercalate ((more.splitOn '\n').map normalizeId)) =
        '\n' :: trimRight '\n' (['\n'].intercalate ((more.splitOn '\n').map normalizeId)) := by
      rw [trimRight_cons, if_neg fun both => stays both.1]
    rw [split, lines_joined _ _ line, trimRight_append, kept, if_neg (by simp)]
    simp

/-- The two sanitizers give the same id. -/
theorem sanitize_same_iff (raw : Text) :
    shellSanitizeId raw = dashboardSanitizeId raw ↔ wordsBelow raw = false ∧ HiddenLettersLost raw := by
  cases below : wordsBelow raw with
  | true =>
    refine iff_of_false ?_ (by simp)
    intro same
    have member := break_mem_of_below below
    rw [same] at member
    exact normalizeId_oneLine _ member
  | false =>
    have lowered : sanitizeId raw = normalizeId (raw.map Char.toLower) := rfl
    rw [shellSanitizeId_of_not_below below, lowered, dashboardSanitizeId, normalizeId_lower_iff]
    simp

/-- An id as either side may give it. -/
def IsId (id : Text) : Prop := id = [] ∨ isValidId id = true

theorem IsId.shape {id : Text} (is : IsId id) :
    Dashed id ∧ (∀ c ∈ id.head?, isLowerOrDigit c = true) ∧ ∀ c ∈ id.getLast?, isLowerOrDigit c = true := by
  rcases is with rfl | valid
  · exact ⟨by simp [Dashed], by simp, by simp⟩
  · cases id with
    | nil => cases valid
    | cons first rest =>
      rw [isValidId, Bool.and_eq_true, Bool.or_eq_true] at valid
      obtain ⟨head, tail⟩ := valid
      refine ⟨?_, by simpa using head, ?_⟩
      · intro c member
        rcases List.mem_cons.mp member with rfl | later
        · exact Or.inl head
        · rcases tail with none' | more
          · rw [List.isEmpty_iff.mp none'] at later
            cases later
          · simp only [Bool.and_eq_true] at more
            have nonempty : rest ≠ [] := by
              rintro rfl
              cases later
            rw [← List.dropLast_append_getLast nonempty, List.mem_append, List.mem_singleton] at later
            rcases later with inner | last
            · simpa using List.all_eq_true.mp more.1.1 c inner
            · have ends := more.1.2
              rw [List.getLast?_eq_some_getLast nonempty] at ends
              rw [last]
              exact Or.inl (by simpa using ends)
      · intro c member
        rw [List.getLast?_cons] at member
        rcases tail with none' | more
        · rw [List.isEmpty_iff.mp none'] at member
          cases member
          exact head
        · simp only [Bool.and_eq_true] at more
          cases last : rest.getLast? with
          | none =>
            rw [last] at member
            cases member
            exact head
          | some d =>
            rw [last] at member more
            cases member
            simpa using more.1.2

/-- In an id the database name only turns the dashes. -/
theorem tenantDbName_eq {id : Text} (is : IsId id) :
    tenantDbName id = text "otterworks_" ++ id.map fun c => if isLowerOrDigit c then c else '_' := by
  obtain ⟨dashed, head, last⟩ := is.shape
  have other {c : Char} (plain : isLowerOrDigit c = true) : c ≠ '_' := by
    rintro rfl
    exact absurd plain (by decide)
  have left : trimLeft '_' (id.map fun c => if isLowerOrDigit c then c else '_') =
      id.map fun c => if isLowerOrDigit c then c else '_' := by
    cases id with
    | nil => rfl
    | cons c id =>
      have plain : isLowerOrDigit c = true := head c rfl
      rw [List.map_cons, trimLeft, List.dropWhile_cons_of_neg]
      simpa [plain] using other plain
  have right : trimRight '_' (id.map fun c => if isLowerOrDigit c then c else '_') =
      id.map fun c => if isLowerOrDigit c then c else '_' := by
    refine trimRight_self ?_
    rw [List.getLast?_map]
    intro same
    obtain ⟨c, ends, turned⟩ := Option.map_eq_some_iff.mp same
    have plain := last c ends
    rw [if_pos plain] at turned
    exact other plain turned
  rw [tenantDbName, map_toLower_self dashed, left, right]

theorem tenantDbName_injective {a b : Text} (isA : IsId a) (isB : IsId b) (same : tenantDbName a = tenantDbName b) :
    a = b := by
  rw [tenantDbName_eq isA, tenantDbName_eq isB, List.append_right_inj] at same
  have back {id : Text} (is : IsId id) :
      (id.map fun c => if isLowerOrDigit c then c else '_').map (fun c => if c = '_' then '-' else c) = id := by
    rw [List.map_map]
    refine (List.map_congr_left ?_).trans (List.map_id id)
    intro c member
    rcases is.shape.1 c member with plain | rfl
    · have other : c ≠ '_' := by
        rintro rfl
        exact absurd plain (by decide)
      simp [plain, other]
    · rfl
  rw [← back isA, ← back isB, same]

/-- What a tenant's names rest on. -/
structure SameId (raw : Text) : Prop where
  same : shellSanitizeId raw = dashboardSanitizeId raw
  shellId : IsId (shellSanitizeId raw)
  dashboardId : IsId (dashboardSanitizeId raw)
  shellAgain : shellSanitizeId (shellSanitizeId raw) = shellSanitizeId raw
  dashboardAgain : dashboardSanitizeId (dashboardSanitizeId raw) = dashboardSanitizeId raw

/-- Both sides give a text the same id exactly if no word stands below its first line and its hidden letters are lost;
ids never share a database name. -/
theorem sameId_iff (raw : Text) : (SameId raw ↔ wordsBelow raw = false ∧ HiddenLettersLost raw) ∧
    ∀ a b, IsId a → IsId b → tenantDbName a = tenantDbName b → a = b := by
  refine ⟨?_, fun a b => tenantDbName_injective⟩
  constructor
  · intro h
    exact (sanitize_same_iff raw).mp h.same
  · intro h
    have same := (sanitize_same_iff raw).mpr h
    have valid : IsId (dashboardSanitizeId raw) := normalizeId_valid (lower raw)
    obtain ⟨shell, dashboard⟩ := sanitize_again (lower raw)
    refine ⟨same, ?_, valid, ?_, dashboard⟩
    · rw [same]
      exact valid
    · rw [same]
      exact shell

/-- Two lines are one id for the dashboard and two for the shell. -/
theorem two_lines_differ : shellSanitizeId (text "ana\nben") = text "ana\nben" ∧
    dashboardSanitizeId (text "ana\nben") = text "ana-ben" ∧ ¬SameId (text "ana\nben") := by
  refine ⟨by decide +kernel, by decide +kernel, ?_⟩
  intro h
  exact absurd h.same (by decide +kernel)

end

end OtterWorks.Tenants
