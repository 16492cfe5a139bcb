import OtterWorks.Lib.Text
import Mathlib.Data.List.Chain

namespace OtterWorks.Tenants

def isLowerOrDigit (c : Char) : Bool := ('a' ≤ c && c ≤ 'z') || ('0' ≤ c && c ≤ '9')

def trimLeft (c : Char) (s : Text) : Text := s.dropWhile (· == c)

def trimRight (c : Char) (s : Text) : Text := (s.reverse.dropWhile (· == c)).reverse

/-- Runs of a character become one. -/
def squeeze (c : Char) : Text → Text
  | [] => []
  | a :: s => if a = c ∧ s.head? = some c then squeeze c s else a :: squeeze c s

/-- `sanitize_id`, of a text that is one line. -/
def sanitizeId (id : Text) : Text :=
  let dashed := (id.map Char.toLower).map fun c => if isLowerOrDigit c || c == '-' then c else '-'
  trimRight '-' ((trimRight '-' (trimLeft '-' (squeeze '-' dashed))).take 40)

def tenantNamespace (id : Text) : Text := text "otterworks-" ++ sanitizeId id

def tenantDbName (id : Text) : Text :=
  text "otterworks_" ++
    trimRight '_' (trimLeft '_' ((id.map Char.toLower).map fun c => if isLowerOrDigit c then c else '_'))

/-- `S3_TENANT_ROOT`. -/
def s3TenantRoot : Text := text "tenants/"

/-- `${name#prefix}`. -/
def stripPrefix (before name : Text) : Text := if before <+: name then name.drop before.length else name

/-- `${name%/}`. -/
def stripSlash (name : Text) : Text := if [ '/'] <:+ name then name.dropLast else name

/-- What both sanitizers do to a lower-case text: replace, collapse, trim, cut, trim again. -/
def normalizeId (s : Text) : Text :=
  let dashed := s.map fun c => if isLowerOrDigit c || c == '-' then c else '-'
  trimRight '-' ((trimRight '-' (trimLeft '-' (squeeze '-' dashed))).take 40)

/-- `sanitizeId` of the dashboard. -/
def dashboardSanitizeId (raw : Text) : Text := normalizeId (lower raw)

/-- `$(sanitize_id "$1")`: `tr` knows the ASCII capitals, `sed` and `cut` work on each line by itself, and the substitution
drops the line breaks at the end. -/
def shellSanitizeId (raw : Text) : Text :=
  trimRight '\n' (['\n'].intercalate (((raw.map Char.toLower).splitOn '\n').map normalizeId))

/-- `/^[a-z0-9]([a-z0-9-]{0,38}[a-z0-9])?$/` -/
def isValidId (id : Text) : Bool :=
  match id with
  | [] => false
  | first :: rest =>
    isLowerOrDigit first &&
      (rest.isEmpty || ((rest.dropLast.all fun c => isLowerOrDigit c || c == '-') && rest.getLast?.any isLowerOrDigit &&
        decide (rest.length ≤ 39)))

/-- The letters and digits of a text, with one dash for whatever stands between two of them. -/
def words : Text → Bool → Bool → Text
  | [], _, _ => []
  | c :: s, started, pending =>
    if isLowerOrDigit c then (if started && pending then ['-', c] else [c]) ++ words s true false
    else words s started true

def slug (s : Text) : Text := words s false false

section

variable {s t : Text} {c d : Char} {started pending : Bool}

theorem trimRight_cons (c d : Char) (s : Text) :
    trimRight c (d :: s) = if trimRight c s = [] ∧ d = c then [] else d :: trimRight c s := by
  unfold trimRight
  rw [List.reverse_cons, List.dropWhile_append]
  by_cases gone : s.reverse.dropWhile (· == c) = []
  · rw [gone]
    by_cases same : d = c
    · simp [same]
    · simp [same]
  · have kept : (s.reverse.dropWhile (· == c)).isEmpty = false := by simpa using gone
    rw [kept]
    simp [gone]

theorem squeeze_cons_ne (other : d ≠ c) : squeeze c (d :: s) = d :: squeeze c s := by
  rw [squeeze, if_neg (by simp [other])]

theorem squeeze_cons_cons : squeeze c (c :: c :: s) = squeeze c (c :: s) := by
  rw [squeeze, if_pos (by simp)]

theorem squeeze_cons_of_ne (other : d ≠ c) : squeeze c (c :: d :: s) = c :: squeeze c (d :: s) := by
  rw [squeeze, if_neg (by simpa using other)]

/-- The characters that are left once the others have become dashes. -/
def Dashed (s : Text) : Prop := ∀ c ∈ s, isLowerOrDigit c = true ∨ c = '-'

theorem not_isLowerOrDigit_dash : isLowerOrDigit '-' = false := by decide

theorem ne_dash (plain : isLowerOrDigit c = true) : c ≠ '-' := by
  intro same
  rw [same] at plain
  exact absurd plain (by decide)

/-- Behind a letter, collapsing and trimming leave the words, with a dash ahead if one is pending. -/
theorem trimRight_squeeze (dashed : Dashed s) :
    trimRight '-' (squeeze '-' s) = words s true false ∧ trimRight '-' (squeeze '-' ('-' :: s)) = words s true true := by
  induction s with
  | nil => exact ⟨rfl, by decide⟩
  | cons c s ih =>
    obtain ⟨plainly, behind⟩ := ih fun d member => dashed d (List.mem_cons_of_mem _ member)
    rcases dashed c (List.mem_cons_self ..) with plain | rfl
    · have other := ne_dash plain
      have one : trimRight '-' (squeeze '-' (c :: s)) = c :: words s true false := by
        rw [squeeze_cons_ne other, trimRight_cons, if_neg (by simp [other]), plainly]
      refine ⟨?_, ?_⟩
      · rw [one, words, if_pos plain]
        rfl
      · rw [squeeze_cons_of_ne other, trimRight_cons, one, if_neg (by simp), words, if_pos plain]
        rfl
    · rw [squeeze_cons_cons, words, words, not_isLowerOrDigit_dash]
      exact ⟨behind, behind⟩

theorem words_unstarted (s : Text) (pending : Bool) : words s false pending = slug s := by
  cases s with
  | nil => rfl
  | cons c s =>
    unfold slug
    rw [words, words]
    rfl

theorem trim_squeeze (dashed : Dashed s) : trimRight '-' (trimLeft '-' (squeeze '-' s)) = slug s := by
  induction s with
  | nil => rfl
  | cons c s ih =>
    have rest : Dashed s := fun d member => dashed d (List.mem_cons_of_mem _ member)
    rcases dashed c (List.mem_cons_self ..) with plain | rfl
    · have other := ne_dash plain
      have kept : trimLeft '-' (squeeze '-' (c :: s)) = squeeze '-' (c :: s) := by
        rw [squeeze_cons_ne other, trimLeft, List.dropWhile_cons_of_neg (by simpa using other)]
      rw [kept, (trimRight_squeeze dashed).1, slug, words, words, if_pos plain, if_pos plain]
      rfl
    · have same : trimLeft '-' (squeeze '-' ('-' :: s)) = trimLeft '-' (squeeze '-' s) := by
        cases s with
        | nil => rfl
        | cons d s =>
          by_cases again : d = '-'
          · rw [again, squeeze_cons_cons]
          · rw [squeeze_cons_of_ne again]
            rfl
      rw [same, ih rest, slug, slug, words, not_isLowerOrDigit_dash]
      exact (words_unstarted s true).symm

/-- Words do not tell a dash from any other separator. -/
theorem words_dashed (s : Text) (started pending : Bool) :
    words (s.map fun c => if isLowerOrDigit c || c == '-' then c else '-') started pending = words s started pending := by
  induction s generalizing started pending with
  | nil => rfl
  | cons c s ih =>
    rw [List.map_cons, words, words, ih, ih]
    by_cases plain : isLowerOrDigit c = true
    · simp [plain]
    · by_cases dash : c = '-'
      · simp [dash]
      · simp [plain, dash, not_isLowerOrDigit_dash]

theorem normalizeId_eq (s : Text) : normalizeId s = trimRight '-' ((slug s).take 40) := by
  have dashed : Dashed (s.map fun c => if isLowerOrDigit c || c == '-' then c else '-') := by
    intro c member
    obtain ⟨d, _, rfl⟩ := List.mem_map.mp member
    by_cases plain : isLowerOrDigit d = true
    · simp [plain]
    · by_cases dash : d = '-'
      · simp [dash]
      · simp [plain, dash]
  unfold normalizeId
  dsimp only
  rw [trim_squeeze dashed, slug, words_dashed, ← slug]

/-- No two dashes in a row. -/
def NoPair (a b : Char) : Prop := a ≠ '-' ∨ b ≠ '-'

/-- What the sanitizers give: letters, digits and single dashes between them. -/
structure Slugged (s : Text) : Prop where
  dashed : Dashed s
  single : List.IsChain NoPair ('-' :: s)
  closed : s.getLast? ≠ some '-'

theorem words_started (s : Text) (pending : Bool) {a : Char} (plain : isLowerOrDigit a = true) :
    Dashed (words s true pending) ∧ List.IsChain NoPair (a :: words s true pending) ∧
      (words s true pending).getLast? ≠ some '-' := by
  induction s generalizing pending a with
  | nil => exact ⟨by simp [Dashed, words], List.isChain_singleton a, by simp [words]⟩
  | cons c s ih =>
    rw [words]
    by_cases here : isLowerOrDigit c = true
    · rw [if_pos here]
      obtain ⟨dashed, chain, closed⟩ := ih false here
      have more : Dashed (c :: words s true false) := by
        intro d member
        rcases List.mem_cons.mp member with rfl | later
        · exact Or.inl here
        · exact dashed d later
      have ends : (c :: words s true false).getLast? ≠ some '-' := by
        rw [List.getLast?_cons]
        cases last : (words s true false).getLast? with
        | none => simpa using ne_dash here
        | some d =>
          rw [last] at closed
          simpa using closed
      cases pending with
      | false => exact ⟨more, chain.cons (by simpa [NoPair] using Or.inl (ne_dash plain)), ends⟩
      | true =>
        refine ⟨?_, ?_, ?_⟩
        · intro d member
          rcases List.mem_cons.mp member with rfl | later
          · exact Or.inr rfl
          · exact more d later
        · exact (chain.cons (by simpa [NoPair] using ne_dash here)).cons (by simpa [NoPair] using ne_dash plain)
        · show ('-' :: c :: words s true false).getLast? ≠ some '-'
          rw [List.getLast?_cons_cons]
          exact ends
    · rw [if_neg here]
      exact ih true plain

theorem slugged_slug (s : Text) : Slugged (slug s) := by
  induction s with
  | nil => exact ⟨by simp [Dashed, slug, words], List.isChain_singleton _, by simp [slug, words]⟩
  | cons c s ih =>
    unfold slug
    rw [words]
    by_cases here : isLowerOrDigit c = true
    · rw [if_pos here]
      obtain ⟨dashed, chain, closed⟩ := words_started s false here
      refine ⟨?_, ?_, ?_⟩
      · intro d member
        rcases List.mem_cons.mp member with rfl | later
        · exact Or.inl here
        · exact dashed d later
      · exact chain.cons (by simpa [NoPair] using ne_dash here)
      · show (c :: words s true false).getLast? ≠ some '-'
        rw [List.getLast?_cons]
        cases last : (words s true false).getLast? with
        | none => simpa using ne_dash here
        | some d =>
          rw [last] at closed
          simpa using closed
    · rw [if_neg here, words_unstarted]
      exact ih

theorem prefix_trimRight (c : Char) (s : Text) : trimRight c s <+: s := by
  unfold trimRight
  have dropped : s.reverse.dropWhile (· == c) <:+ s.reverse := List.dropWhile_suffix _
  simpa using List.reverse_prefix.mpr dropped

theorem trimRight_last (c : Char) (s : Text) : (trimRight c s).getLast? ≠ some c := by
  unfold trimRight
  rw [List.getLast?_reverse]
  cases kept : s.reverse.dropWhile (· == c) with
  | nil => simp
  | cons d rest =>
    have first := List.head_dropWhile_not (· == c) (l := s.reverse) (by rw [kept]; simp)
    simpa [kept] using first

theorem slugged_normalizeId (s : Text) : Slugged (normalizeId s) ∧ (normalizeId s).length ≤ 40 := by
  rw [normalizeId_eq]
  have front : trimRight '-' ((slug s).take 40) <+: slug s :=
    (prefix_trimRight _ _).trans (List.take_prefix 40 _)
  have whole := slugged_slug s
  refine ⟨⟨fun c member => whole.dashed c (front.subset member), ?_, trimRight_last _ _⟩, ?_⟩
  · exact whole.single.prefix ((List.prefix_cons_inj '-').mpr front)
  · have short := (prefix_trimRight '-' ((slug s).take 40)).length_le
    rw [List.length_take] at short
    omega

/-- A text of that shape is its own slug. -/
theorem words_self (dashed : Dashed s) (chain : List.IsChain NoPair s) (closed : s.getLast? ≠ some '-') :
    words s true false = s ∧ (s.head? ≠ some '-' → s ≠ [] → words s true true = '-' :: s) := by
  induction s with
  | nil => exact ⟨rfl, fun _ nonempty => absurd rfl nonempty⟩
  | cons c s ih =>
    have rest : Dashed s := fun d member => dashed d (List.mem_cons_of_mem _ member)
    have closed' : s.getLast? ≠ some '-' := by
      intro last
      cases s with
      | nil => cases last
      | cons d s =>
        rw [List.getLast?_cons_cons] at closed
        exact closed last
    obtain ⟨plainly, behind⟩ := ih rest chain.tail closed'
    rcases dashed c (List.mem_cons_self ..) with plain | rfl
    · refine ⟨?_, fun _ _ => ?_⟩
      · rw [words, if_pos plain, plainly]
        rfl
      · rw [words, if_pos plain, plainly]
        rfl
    · refine ⟨?_, fun head => absurd rfl head⟩
      have nonempty : s ≠ [] := by
        intro none'
        rw [none'] at closed
        exact closed rfl
      have next : s.head? ≠ some '-' := by
        intro head
        have apart := chain.rel_head? (Option.mem_def.mpr head)
        simp [NoPair] at apart
      rw [words, not_isLowerOrDigit_dash]
      exact behind next nonempty

theorem slug_self (slugged : Slugged s) : slug s = s := by
  cases s with
  | nil => rfl
  | cons c s =>
    have apart := slugged.single.rel_head? (Option.mem_def.mpr (rfl : (c :: s).head? = some c))
    have plain : isLowerOrDigit c = true := by
      rcases slugged.dashed c (List.mem_cons_self ..) with plain | rfl
      · exact plain
      · simp [NoPair] at apart
    have fixed := (words_self slugged.dashed slugged.single.tail slugged.closed).1
    rw [words, if_pos plain] at fixed
    rw [slug, words, if_pos plain]
    exact fixed

theorem trimRight_self (closed : s.getLast? ≠ some c) : trimRight c s = s := by
  unfold trimRight
  cases shape : s.reverse with
  | nil => rw [List.reverse_eq_nil_iff.mp shape]; rfl
  | cons d rest =>
    have other : d ≠ c := by
      rintro rfl
      rw [← List.head?_reverse, shape] at closed
      exact closed rfl
    rw [List.dropWhile_cons_of_neg (by simpa using other), ← shape, List.reverse_reverse]

theorem normalizeId_self (slugged : Slugged s) (short : s.length ≤ 40) : normalizeId s = s := by
  rw [normalizeId_eq, slug_self slugged, List.take_of_length_le short, trimRight_self slugged.closed]

theorem isValidId_of_slugged (slugged : Slugged s) (short : s.length ≤ 40) (nonempty : s ≠ []) : isValidId s = true := by
  cases s with
  | nil => exact absurd rfl nonempty
  | cons c s =>
    have apart := slugged.single.rel_head? (Option.mem_def.mpr (rfl : (c :: s).head? = some c))
    have plain : isLowerOrDigit c = true := by
      rcases slugged.dashed c (List.mem_cons_self ..) with plain | rfl
      · exact plain
      · simp [NoPair] at apart
    rw [isValidId, plain, Bool.true_and, Bool.or_eq_true_iff]
    cases last : s.getLast? with
    | none => exact Or.inl (by rw [List.getLast?_eq_none_iff.mp last]; rfl)
    | some d =>
      refine Or.inr ?_
      have member : d ∈ s := List.mem_of_getLast? last
      have ends : isLowerOrDigit d = true := by
        rcases slugged.dashed d (List.mem_cons_of_mem _ member) with plain | rfl
        · exact plain
        · have closed := slugged.closed
          rw [List.getLast?_cons, last] at closed
          exact absurd rfl closed
      have inner : (s.dropLast.all fun c => isLowerOrDigit c || c == '-') = true := by
        rw [List.all_eq_true]
        intro e inside
        rcases slugged.dashed e (List.mem_cons_of_mem _ (List.dropLast_subset s inside)) with plain | rfl
        · simp [plain]
        · simp
      have length : s.length ≤ 39 := by
        rw [List.length_cons] at short
        omega
      simp [inner, ends, length]

theorem toNat_of_allowed (allowed : isLowerOrDigit c = true ∨ c = '-') :
    (97 ≤ c.toNat ∧ c.toNat ≤ 122) ∨ (48 ≤ c.toNat ∧ c.toNat ≤ 57) ∨ c.toNat = 45 := by
  rcases allowed with plain | rfl
  · rw [isLowerOrDigit, Bool.or_eq_true, Bool.and_eq_true, Bool.and_eq_true] at plain
    rcases plain with ⟨low, high⟩ | ⟨low, high⟩
    · have low : 'a'.toNat ≤ c.toNat := of_decide_eq_true low
      have high : c.toNat ≤ 'z'.toNat := of_decide_eq_true high
      exact Or.inl ⟨low, high⟩
    · have low : '0'.toNat ≤ c.toNat := of_decide_eq_true low
      have high : c.toNat ≤ '9'.toNat := of_decide_eq_true high
      exact Or.inr (Or.inl ⟨low, high⟩)
  · exact Or.inr (Or.inr rfl)

theorem toLower_self (allowed : isLowerOrDigit c = true ∨ c = '-') : c.toLower = c := by
  have code := toNat_of_allowed allowed
  unfold Char.toLower
  rw [dif_neg]
  intro upper
  have low : 65 ≤ c.toNat := upper.1
  have high : c.toNat ≤ 90 := upper.2
  omega

/-- The Kelvin sign and the dotted capital I. -/
def isHiddenLetter (c : Char) : Bool := c.toNat = 0x212a || c.toNat = 0x130

theorem lowerChar_plain (plain : isHiddenLetter c = false) : lowerChar c = [c.toLower] := by
  simp only [isHiddenLetter, Bool.or_eq_false_iff, decide_eq_false_iff_not] at plain
  rw [lowerChar, if_neg plain.1, if_neg plain.2]

theorem lower_plain (plain : ∀ c ∈ s, isHiddenLetter c = false) : lower s = s.map Char.toLower := by
  induction s with
  | nil => rfl
  | cons c s ih =>
    rw [lower, List.flatMap_cons, lowerChar_plain (plain c (List.mem_cons_self ..)), ← lower,
      ih fun d member => plain d (List.mem_cons_of_mem _ member)]
    rfl

theorem map_toLower_self (dashed : Dashed s) : s.map Char.toLower = s := by
  rw [List.map_congr_left fun c member => toLower_self (dashed c member), List.map_id']

theorem lower_self (dashed : Dashed s) : lower s = s := by
  rw [lower_plain, map_toLower_self dashed]
  intro c member
  have code := toNat_of_allowed (dashed c member)
  simp only [isHiddenLetter, Bool.or_eq_false_iff, decide_eq_false_iff_not]
  omega

theorem not_isLowerOrDigit_break : isLowerOrDigit '\n' = false := by decide

/-- A single line is sanitized as a whole. -/
theorem shellSanitizeId_line (line : '\n' ∉ s.map Char.toLower) :
    shellSanitizeId s = trimRight '\n' (normalizeId (s.map Char.toLower)) := by
  rw [shellSanitizeId, List.splitOn_eq_singleton line]
  simp [List.intercalate]

theorem normalizeId_oneLine (s : Text) : '\n' ∉ normalizeId s := by
  intro member
  rcases (slugged_normalizeId s).1.dashed '\n' member with plain | dash
  · exact absurd plain (by decide)
  · exact absurd dash (by decide)

theorem trimRight_break (s : Text) : trimRight '\n' (normalizeId s) = normalizeId s :=
  trimRight_self fun last => normalizeId_oneLine s (List.mem_of_getLast? last)

/-- Sanitizing an id of either side again gives the same id. -/
theorem sanitize_again (s : Text) :
    shellSanitizeId (normalizeId s) = normalizeId s ∧ dashboardSanitizeId (normalizeId s) = normalizeId s := by
  obtain ⟨slugged, short⟩ := slugged_normalizeId s
  have lowered := map_toLower_self slugged.dashed
  refine ⟨?_, ?_⟩
  · rw [shellSanitizeId_line (by rw [lowered]; exact normalizeId_oneLine s), trimRight_break, lowered,
      normalizeId_self slugged short]
  · rw [dashboardSanitizeId, lower_self slugged.dashed, normalizeId_self slugged short]

theorem normalizeId_valid (s : Text) : normalizeId s = [] ∨ isValidId (normalizeId s) = true := by
  obtain ⟨slugged, short⟩ := slugged_normalizeId s
  by_cases none' : normalizeId s = []
  · exact Or.inl none'
  · exact Or.inr (isValidId_of_slugged slugged short none')

end

end OtterWorks.Tenants
