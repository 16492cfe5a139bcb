import OtterWorks.Lib.Literals
import OtterWorks.Tenants.TtlText
import Mathlib.Data.List.Induction
import Mathlib.Data.Bool.AllAny

namespace OtterWorks.Tenants.TtlText

open BinaryFloat (Held)
open JsText (isBlank trim eq_nil_of_blank trim_eq trim_of_plain)

/-- How a text that the dashboard accepts is put together. -/
structure Parts (ttl lead num gap unit trail : Text) (u : TtlUnit) : Prop where
  eq : ttl = lead ++ (num ++ (gap ++ (unit ++ trail)))
  leadBlank : ∀ c ∈ lead, isBlank c
  gapBlank : ∀ c ∈ gap, isBlank c
  trailBlank : ∀ c ∈ trail, isBlank c
  digits : ∀ c ∈ num, c.isDigit
  nonempty : num ≠ []
  unitCase : unitCase unit = some u

section

variable {ttl lead num gap unit trail : Text} {u : TtlUnit} {c : Char} {n m now : Nat} {seconds : Number}

theorem not_isDigit_of_isBlank (h : isBlank c) : c.isDigit = false := by
  rw [Bool.eq_false_iff]
  intro digit
  have bounds := toNat_of_isDigit digit
  simp only [isBlank, Bool.or_eq_true, Bool.and_eq_true, decide_eq_true_eq] at h
  omega

theorem unitCase_of_not (h : unitCase unit = some u) : ∀ c ∈ unit, c.isDigit = false ∧ isBlank c = false := by
  intro c mem
  unfold TtlText.unitCase at h
  split at h
  case h_3 => cases mem
  case h_8 => cases h
  all_goals
    obtain rfl := List.mem_singleton.mp mem
    decide

theorem takeWhile_eq_nil {α : Type} {p : α → Bool} {l : List α} (h : ∀ x ∈ l, p x = false) : l.takeWhile p = [] := by
  cases l with
  | nil => rfl
  | cons x l => exact List.takeWhile_cons_of_neg (by simp [h x (List.mem_cons_self ..)])

theorem ttlMatch_some {s : Text} (h : ttlMatch s = some (num, unit)) :
    (∃ gap : Text, (∀ c ∈ gap, isBlank c) ∧ s = num ++ (gap ++ unit)) ∧ (∀ c ∈ num, c.isDigit) ∧ num ≠ [] ∧
      unit.length ≤ 1 ∧ unit.all (· ∈ text "hmdHMD") := by
  unfold ttlMatch at h
  dsimp only at h
  split at h
  case isFalse => cases h
  case isTrue ok =>
    cases h
    refine ⟨⟨(s.dropWhile Char.isDigit).takeWhile isBlank, ?_, ?_⟩, ?_, ok⟩
    · exact fun c mem => List.mem_takeWhile_imp mem
    · rw [List.takeWhile_append_dropWhile, List.takeWhile_append_dropWhile]
    · exact fun c mem => List.mem_takeWhile_imp mem

/-- The switch of the dashboard and the case of the shells know the same units. -/
theorem secondsOf_eq (short : unit.length ≤ 1) (known : unit.all (· ∈ text "hmdHMD")) (x : Number) :
    ∃ u, unitCase unit = some u ∧
      secondsOf x ((if unit = [] then ['h'] else unit).map Char.toLower) = some (secondsOf.times x u.mult) := by
  cases unit with
  | nil => exact ⟨.h, rfl, rfl⟩
  | cons c unit =>
    have alone : unit = [] := List.eq_nil_of_length_eq_zero (by simpa using short)
    subst alone
    have listed : c ∈ text "hmdHMD" := by simpa using known
    have six : c = 'h' ∨ c = 'm' ∨ c = 'd' ∨ c = 'H' ∨ c = 'M' ∨ c = 'D' := by simpa [text] using listed
    rcases six with rfl | rfl | rfl | rfl | rfl | rfl
    · exact ⟨.h, rfl, rfl⟩
    · exact ⟨.m, rfl, rfl⟩
    · exact ⟨.d, rfl, rfl⟩
    · exact ⟨.h, rfl, rfl⟩
    · exact ⟨.m, rfl, rfl⟩
    · exact ⟨.d, rfl, rfl⟩

theorem ttlToSeconds_some (accepted : ttlToSeconds ttl = some seconds) (ends : isNeverTtl ttl = false) :
    ∃ lead num gap unit trail u, Parts ttl lead num gap unit trail u ∧ 0 < decimal num ∧
      reading ttl = some (decimal num, u) ∧ seconds = secondsOf.times (number (decimal num)) u.mult := by
  unfold ttlToSeconds at accepted
  rw [ends] at accepted
  simp only [Bool.false_eq_true, if_false] at accepted
  split at accepted
  case h_1 => cases accepted
  case h_2 num unit matched =>
    obtain ⟨⟨gap, gapBlank, eq⟩, digits, nonempty, short, known⟩ := ttlMatch_some matched
    obtain ⟨u, unitCase, value⟩ := secondsOf_eq short known (number (decimal num))
    obtain ⟨lead, trail, leadBlank, trailBlank, whole⟩ := trim_eq ttl
    split at accepted
    case isTrue => cases accepted
    case isFalse positive =>
      rw [value] at accepted
      refine ⟨lead, num, gap, unit, trail, u, ⟨?_, leadBlank, gapBlank, trailBlank, digits, nonempty, unitCase⟩, ?_, ?_, ?_⟩
      · rw [whole, eq]
        simp only [List.append_assoc]
      · by_contra none
        have zero : decimal num = 0 := by omega
        refine positive (Or.inr ?_)
        rw [zero]
        decide +kernel
      · simp [reading, ends, matched, unitCase]
      · exact (Option.some.inj accepted).symm

theorem decimal_concat (digits : Text) (c : Char) : decimal (digits ++ [c]) = 10 * decimal digits + (c.toNat - 48) := by
  simp [decimal, Nat.ofDigitChars_append, Nat.ofDigitChars_cons]

theorem le_decimal {digits : Text} (mem : c ∈ digits) : c.toNat - 48 ≤ decimal digits := by
  induction digits using List.reverseRecOn with
  | nil => cases mem
  | append_singleton digits d ih =>
    rw [decimal_concat]
    rcases List.mem_append.mp mem with mem | mem
    · have := ih mem
      omega
    · rw [List.mem_singleton.mp mem]
      omega

theorem octal_decimal {digits : Text} (small : ∀ c ∈ digits, c < '8') : Nat.ofDigitChars 8 digits 0 ≤ decimal digits ∧
    (Nat.ofDigitChars 8 digits 0 = decimal digits ↔ decimal digits < 8) := by
  induction digits using List.reverseRecOn with
  | nil => decide
  | append_singleton digits d ih =>
    have last : d.toNat < 56 := small d (by simp)
    have next : Nat.ofDigitChars 8 (digits ++ [d]) 0 = 8 * Nat.ofDigitChars 8 digits 0 + (d.toNat - 48) := by
      simp [Nat.ofDigitChars_append, Nat.ofDigitChars_cons]
    obtain ⟨le, same⟩ := ih fun c mem => small c (List.mem_append_left _ mem)
    rw [next, decimal_concat]
    omega

theorem decimal_zero_cons (digits : Text) : decimal ('0' :: digits) = decimal digits := by
  simp [decimal, Nat.ofDigitChars_cons]

theorem shellNumber_le {k : Nat} (h : shellNumber num = some k) : k ≤ decimal num := by
  unfold shellNumber at h
  split at h
  next rest =>
    split at h
    case isTrue small =>
      cases h
      rw [decimal_zero_cons]
      exact (octal_decimal (by simpa using small)).1
    case isFalse => cases h
  next =>
    cases h
    exact le_refl _

theorem shellNumber_iff (nonempty : num ≠ []) (digits : ∀ c ∈ num, c.isDigit) :
    shellNumber num = some (decimal num) ↔ (num.head? = some '0' → decimal num < 8) := by
  unfold shellNumber
  split
  next rest =>
    rw [decimal_zero_cons]
    constructor
    · intro h zero
      split at h
      case isTrue small => exact (octal_decimal (by simpa using small)).2.mp (Option.some.inj h)
      case isFalse => cases h
    · intro h
      have below := h rfl
      have small : ∀ c ∈ rest, c < '8' := by
        intro c mem
        have le := le_decimal mem
        have bounds := toNat_of_isDigit (digits c (List.mem_cons_of_mem _ mem))
        show c.toNat < 56
        omega
      rw [if_pos (by simpa using small), (octal_decimal small).2.mpr below]
  next other =>
    constructor
    · intro h zero
      obtain ⟨rest, hrest⟩ := List.head?_eq_some_iff.mp zero
      exact absurd hrest (other rest)
    · exact fun _ => rfl

theorem number_some {x y : ℚ} (h : number x = (y : Number)) : y = BinaryFloat.nearest 52 x ∧ y < 2 ^ 1024 := by
  unfold number at h
  dsimp only at h
  split at h
  case isTrue low =>
    obtain rfl := WithTop.coe_inj.mp h
    exact ⟨rfl, low⟩
  case isFalse => cases h

theorem number_of_held {x : ℚ} (held : Held 52 x) (low : x < 2 ^ 1024) : number x = (x : Number) := by
  have same : BinaryFloat.nearest 52 x = x := held
  unfold number
  rw [same]
  exact if_pos low

theorem finite_of_lt (h : n < 2 ^ 63) : (n : ℚ) < 2 ^ 1024 := by
  have low : (n : ℚ) < 2 ^ 63 := by exact_mod_cast h
  exact low.trans_le (pow_le_pow_right₀ (by norm_num) (by norm_num))

theorem times_eq_iff (npos : 0 < n) (mpos : 0 < m) : secondsOf.times (number n) m = ((n * m : Nat) : ℚ) ↔
    Held 52 (n * m : Nat) ∧ ((n * m : Nat) : ℚ) < 2 ^ 1024 := by
  have npos' : (0 : ℚ) < n := by exact_mod_cast npos
  have mpos' : (0 : ℚ) < m := by exact_mod_cast mpos
  constructor
  · intro h
    unfold secondsOf.times at h
    split at h
    case h_1 x hx =>
      obtain ⟨rfl, -⟩ := number_some hx
      obtain ⟨value, low⟩ := number_some h
      rw [value]
      rw [value] at low
      exact ⟨BinaryFloat.held_nearest (mul_pos (BinaryFloat.nearest_pos npos') mpos'), low⟩
    case h_2 => cases h
  · intro h
    obtain ⟨held, low⟩ := h
    have factor := BinaryFloat.held_factor npos mpos held
    have le : (n : ℚ) ≤ (n * m : Nat) := by exact_mod_cast Nat.le_mul_of_pos_right n mpos
    rw [number_of_held factor (le.trans_lt low)]
    have product : (n : ℚ) * m = (n * m : Nat) := by push_cast; rfl
    show number ((n : ℚ) * m) = _
    rw [product]
    exact number_of_held held low

/-- Arithmetic of 64 bits gives the sum where it is below `2 ^ 63`. -/
theorem shell_sum_iff {k t : Nat} (le : k ≤ n) (exact' : t = now + n * m) (mpos : 0 < m) :
    (BitVec.ofNat 64 now + BitVec.ofNat 64 k * BitVec.ofNat 64 m).toInt = t ↔ k = n ∧ t < 2 ^ 63 := by
  rw [← BitVec.ofNat_mul, ← BitVec.ofNat_add, BitVec.toInt_ofNat']
  have product : k * m ≤ n * m := Nat.mul_le_mul_right m le
  constructor
  · intro h
    have high := Int.bmod_lt (x := ((now + k * m : Nat) : ℤ)) (m := 2 ^ 64) (by norm_num)
    have low : t < 2 ^ 63 := by
      rw [h] at high
      norm_num at high
      omega
    rw [Int.bmod_eq_of_le (by omega) (by omega)] at h
    have same : k * m = n * m := by omega
    exact ⟨Nat.eq_of_mul_eq_mul_right mpos same, low⟩
  · intro h
    obtain ⟨rfl, low⟩ := h
    rw [Int.bmod_eq_of_le (by omega) (by omega), exact']

namespace Parts

theorem rest_not_digit (h : Parts ttl lead num gap unit trail u) :
    ∀ c ∈ gap ++ (unit ++ trail), c.isDigit = false := by
  intro c mem
  rcases List.mem_append.mp mem with mem | mem
  · exact not_isDigit_of_isBlank (h.gapBlank c mem)
  rcases List.mem_append.mp mem with mem | mem
  · exact (unitCase_of_not h.unitCase c mem).1
  · exact not_isDigit_of_isBlank (h.trailBlank c mem)

theorem plain_iff (h : Parts ttl lead num gap unit trail u) :
    ttl.all (fun c => !isBlank c) ↔ lead = [] ∧ gap = [] ∧ trail = [] := by
  constructor
  · intro plain
    have clear : ∀ c ∈ ttl, isBlank c = false := by simpa using plain
    rw [h.eq] at clear
    refine ⟨eq_nil_of_blank h.leadBlank fun c mem => clear c ?_, eq_nil_of_blank h.gapBlank fun c mem => clear c ?_,
      eq_nil_of_blank h.trailBlank fun c mem => clear c ?_⟩
    all_goals simp [mem]
  · intro none
    obtain ⟨rfl, rfl, rfl⟩ := none
    refine List.all_eq_true.mpr fun c mem => ?_
    rw [h.eq] at mem
    simp only [List.nil_append, List.append_nil, List.mem_append] at mem
    rcases mem with mem | mem
    · have digit := h.digits c mem
      cases blank : isBlank c with
      | false => rfl
      | true =>
        rw [not_isDigit_of_isBlank blank] at digit
        cases digit
    · rw [(unitCase_of_not h.unitCase c mem).2]
      rfl

theorem leadingDigits (h : Parts ttl lead num gap unit trail u) : leadingDigits ttl = if lead = [] then num else [] := by
  unfold TtlText.leadingDigits
  rw [h.eq]
  cases lead with
  | nil =>
    rw [List.nil_append, List.takeWhile_append_of_pos h.digits, takeWhile_eq_nil h.rest_not_digit, List.append_nil]
    rfl
  | cons c lead =>
    have blank := not_isDigit_of_isBlank (h.leadBlank c (List.mem_cons_self ..))
    exact List.takeWhile_cons_of_neg (by simp [blank])

theorem afterDigits (h : Parts ttl lead num gap unit trail u) : afterDigits ttl = gap ++ (unit ++ trail) := by
  have rest : ∀ c ∈ (gap ++ (unit ++ trail)).reverse, (!c.isDigit) = true := by
    intro c mem
    rw [h.rest_not_digit c (List.mem_reverse.mp mem)]
    rfl
  have stop : (num.reverse ++ lead.reverse).takeWhile (fun c => !c.isDigit) = [] := by
    cases last : num.reverse with
    | nil => exact absurd (List.reverse_eq_nil_iff.mp last) h.nonempty
    | cons c l =>
      have mem : c ∈ num := List.mem_reverse.mp (by rw [last]; exact List.mem_cons_self ..)
      exact List.takeWhile_cons_of_neg (by simp [h.digits c mem])
  unfold TtlText.afterDigits
  rw [h.eq, List.reverse_append, List.reverse_append, List.append_assoc, List.takeWhile_append_of_pos rest, stop,
    List.append_nil, List.reverse_reverse]

/-- Where there is a blank somewhere, the shells find no number or no unit. -/
theorem shells (h : Parts ttl lead num gap unit trail u) :
    (ttl.all (fun c => !isBlank c) ∧ TtlText.leadingDigits ttl = num ∧ TtlText.unitCase (TtlText.afterDigits ttl) = some u) ∨
      ¬ ttl.all (fun c => !isBlank c) ∧
        (TtlText.leadingDigits ttl = [] ∨ TtlText.unitCase (TtlText.afterDigits ttl) = none) := by
  by_cases plain : ttl.all (fun c => !isBlank c)
  · obtain ⟨rfl, rfl, rfl⟩ := h.plain_iff.mp plain
    refine Or.inl ⟨plain, h.leadingDigits, ?_⟩
    rw [h.afterDigits, List.nil_append, List.append_nil]
    exact h.unitCase
  · refine Or.inr ⟨plain, ?_⟩
    rw [h.leadingDigits, h.afterDigits]
    by_cases front : lead = []
    · right
      by_contra found
      obtain ⟨v, hv⟩ := Option.ne_none_iff_exists'.mp found
      have known := unitCase_of_not hv
      refine plain (h.plain_iff.mpr ⟨front, eq_nil_of_blank h.gapBlank fun c mem => (known c ?_).2,
        eq_nil_of_blank h.trailBlank fun c mem => (known c ?_).2⟩)
      all_goals simp [mem]
    · exact Or.inl (if_neg front)

/-- The first character is that of the number. -/
theorem head_eq (h : Parts ttl lead num gap unit trail u) (plain : ttl.all (fun c => !isBlank c)) :
    ttl.head? = num.head? := by
  obtain ⟨rfl, rfl, rfl⟩ := h.plain_iff.mp plain
  rw [h.eq, List.nil_append]
  exact List.head?_append_of_ne_nil _ h.nonempty

end Parts

theorem expiryEpoch_num (other : ttl ≠ never) (read : leadingDigits ttl = num) (nonempty : num ≠ [])
    (found : unitCase (afterDigits ttl) = some u) : expiryEpoch ttl now = (shellNumber num).map fun n =>
      (BitVec.ofNat 64 now + BitVec.ofNat 64 n * BitVec.ofNat 64 u.mult).toInt := by
  unfold expiryEpoch
  rw [if_neg other]
  simp only [read, found, nonempty, if_false]
  cases shellNumber num with
  | none => rfl
  | some n => rfl

theorem expiryEpoch_none (other : ttl ≠ never) (h : leadingDigits ttl = [] ∨ unitCase (afterDigits ttl) = none) :
    expiryEpoch ttl now = none := by
  unfold expiryEpoch
  rw [if_neg other]
  rcases h with h | h
  · exact if_pos h
  · simp only [h]
    split
    · rfl
    · rfl

theorem ttlToExpiry_num {date : DateCommand} (other : ttl ≠ never) (read : leadingDigits ttl = num) (nonempty : num ≠ [])
    (found : unitCase (afterDigits ttl) = some u) : ttlToExpiry date ttl now = date num u now := by
  unfold ttlToExpiry
  rw [if_neg other]
  simp only [read, found, nonempty, if_false]
  rfl

theorem mult_pos (u : TtlUnit) : 0 < u.mult := by
  cases u <;> decide

section

variable {date : DateCommand} {most : TtlUnit → Nat → Nat} {later : Nat}

theorem Displaces.some_iff (h : Displaces date most) (nonempty : num ≠ []) (digits : ∀ c ∈ num, c.isDigit) {t : Nat} :
    date num u later = some ((later + t : Nat) : Int) ↔ decimal num ≤ most u later ∧ t = decimal num * u.mult := by
  rw [h num nonempty digits]
  split
  case isTrue inside =>
    rw [Option.some_inj]
    constructor
    · intro eq
      exact ⟨inside, by omega⟩
    · intro both
      rw [both.2]
  case isFalse outside => exact ⟨nofun, fun both => absurd both.1 outside⟩

theorem agree_never (h : Displaces date most) : Agree date never now later ↔ Fits most never now later := by
  have read : reading never = some (3650, .d) := by decide
  have seconds : ttlToSeconds never = some ((neverTtlSeconds : ℚ) : Number) := by
    unfold ttlToSeconds
    exact if_pos (by decide)
  have runner : expiryEpoch never now =
      some (BitVec.ofNat 64 now + BitVec.ofNat 64 3650 * BitVec.ofNat 64 TtlUnit.d.mult).toInt := by
    unfold expiryEpoch
    exact if_pos rfl
  have deploy : ttlToExpiry date never later = date (text "3650") .d later := if_pos rfl
  have digits : decimal (text "3650") = 3650 := by decide +kernel
  have shown : ∀ t : Nat, date (text "3650") .d later = some ((later + t : Nat) : Int) ↔
      decimal (text "3650") ≤ most .d later ∧ t = decimal (text "3650") * TtlUnit.d.mult :=
    fun _ => h.some_iff (by decide) (List.all_iff_forall_prop.mp (by decide +kernel))
  have held : Held 52 (3650 * TtlUnit.d.mult : Nat) := BinaryFloat.held_natCast (by decide) (by decide)
  have sum : ∀ t, t = now + 3650 * TtlUnit.d.mult →
      ((BitVec.ofNat 64 now + BitVec.ofNat 64 3650 * BitVec.ofNat 64 TtlUnit.d.mult).toInt = t ↔ t < 2 ^ 63) := by
    intro t ht
    rw [shell_sum_iff (le_refl 3650) ht (by decide), and_iff_right rfl]
  unfold Agree Fits
  rw [seconds, runner, deploy, read]
  simp only [Option.mem_some_iff, forall_eq', Option.some_inj]
  constructor
  · intro agree
    obtain ⟨t, -, ht, hd⟩ := agree
    obtain ⟨inside, rfl⟩ := (shown t).mp hd
    rw [digits] at inside ht
    exact ⟨inside, (sum _ rfl).mp ht, held⟩
  · intro fits
    obtain ⟨inside, low, -⟩ := fits
    refine ⟨neverTtlSeconds, rfl, (sum _ rfl).mpr low, (shown _).mpr ?_⟩
    rw [digits]
    exact ⟨inside, rfl⟩

theorem agree_iff (h : Displaces date most) (accepted : ttlToSeconds ttl = some seconds) (ends : isNeverTtl ttl = false) :
    Agree date ttl now later ↔ Plain ttl ∧ Fits most ttl now later := by
  obtain ⟨lead, num, gap, unit, trail, u, parts, npos, read, value⟩ := ttlToSeconds_some accepted ends
  have other : ttl ≠ never := by
    intro eq
    rw [eq] at ends
    revert ends
    decide
  unfold Agree Plain Fits
  rw [accepted, read, ends]
  simp only [Option.mem_some_iff, forall_eq', Option.some_inj, Bool.false_eq_true, if_false]
  rcases parts.shells with ⟨plain, first, last⟩ | ⟨blank, missed⟩
  · rw [expiryEpoch_num other first parts.nonempty last, ttlToExpiry_num other first parts.nonempty last,
      parts.head_eq plain, value, and_iff_right plain, ← shellNumber_iff parts.nonempty parts.digits]
    have shown : ∀ t : Nat, date num u later = some ((later + t : Nat) : Int) ↔
        decimal num ≤ most u later ∧ t = decimal num * u.mult := fun _ => h.some_iff parts.nonempty parts.digits
    constructor
    · intro agree
      obtain ⟨t, dashboard, runner, deploy⟩ := agree
      obtain ⟨inside, rfl⟩ := (shown t).mp deploy
      obtain ⟨k, hk, sum⟩ := Option.map_eq_some_iff.mp runner
      obtain ⟨rfl, low⟩ := (shell_sum_iff (shellNumber_le hk) rfl (mult_pos u)).mp sum
      exact ⟨hk, inside, low, ((times_eq_iff npos (mult_pos u)).mp dashboard).1⟩
    · intro fits
      obtain ⟨hk, inside, low, held⟩ := fits
      have small := finite_of_lt (n := decimal num * u.mult) (by omega)
      refine ⟨decimal num * u.mult, (times_eq_iff npos (mult_pos u)).mpr ⟨held, small⟩, ?_, (shown _).mpr ⟨inside, rfl⟩⟩
      rw [hk]
      exact congrArg some ((shell_sum_iff (le_refl _) rfl (mult_pos u)).mpr ⟨rfl, low⟩)
  · rw [expiryEpoch_none other missed]
    constructor
    · intro agree
      obtain ⟨_, _, runner, _⟩ := agree
      cases runner
    · intro plain
      exact absurd plain.1.1 blank

end

end

section

variable {s : ℚ}

theorem ceil_minutes (pos : 0 < s) (top : s ≤ 2 ^ 53) (held : Held 52 s) :
    ⌈BinaryFloat.nearest 52 (s / 60)⌉ = ⌈s / 60⌉ := by
  have quotient : 0 < s / 60 := by positivity
  have ceil_pos := Int.ceil_pos.mpr quotient
  have above := Int.le_ceil (s / 60)
  have below := Int.ceil_lt_add_one (s / 60)
  obtain ⟨n, hn⟩ : ∃ n : Nat, ⌈s / 60⌉ = ((n + 1 : Nat) : ℤ) := ⟨⌈s / 60⌉.toNat - 1, by omega⟩
  rw [hn] at above below
  rw [hn, Int.ceil_eq_iff]
  push_cast at above below ⊢
  have low : 60 * (n : ℚ) < s := by linarith
  have whole : 60 * n < 2 ^ 53 := by
    have h : 60 * (n : ℚ) < 2 ^ 53 := low.trans_le top
    exact_mod_cast h
  constructor
  · rw [add_sub_cancel_right]
    rcases Nat.eq_zero_or_pos n with rfl | npos
    · exact_mod_cast BinaryFloat.nearest_pos quotient
    · have product : Held 52 ((60 : Nat) * (n : ℚ)) := by
        have h : Held 52 ((60 * n : Nat) : ℚ) := BinaryFloat.held_natCast (by omega) (by omega)
        exact_mod_cast h
      have h := BinaryFloat.lt_nearest_div (d := 60) (by norm_num) held
        (BinaryFloat.held_natCast npos (by omega)) product (by exact_mod_cast npos) (by exact_mod_cast low)
      exact_mod_cast h
  · have next : Held 52 ((n + 1 : Nat) : ℚ) := BinaryFloat.held_natCast (by omega) (by omega)
    push_cast at next
    exact BinaryFloat.nearest_le next quotient above

/-- The minutes that are printed. -/
theorem minutes_bounds (pos : 0 < s) (top : s ≤ 2 ^ 53) (held : Held 52 s) : ∃ m : Nat,
    secondsToTtl s = Nat.toDigits 10 m ++ ['m'] ∧ 0 < m ∧ m ≤ 2 ^ 48 ∧ s ≤ (m * 60 : Nat) ∧
      ((m * 60 : Nat) : ℚ) < s + 60 := by
  have ceil_pos := Int.ceil_pos.mpr (show 0 < s / 60 by positivity)
  have above := Int.le_ceil (s / 60)
  have below := Int.ceil_lt_add_one (s / 60)
  obtain ⟨m, hm⟩ := Int.eq_ofNat_of_zero_le ceil_pos.le
  rw [hm] at above below ceil_pos
  have within : m ≤ 2 ^ 48 := by
    push_cast at below
    have h : (m : ℚ) ≤ ((2 ^ 48 : Nat) : ℚ) := by
      push_cast
      linarith
    exact_mod_cast h
  refine ⟨m, ?_, by omega, within, ?_, ?_⟩
  · unfold secondsToTtl
    rw [ceil_minutes pos top held, hm]
    dsimp only
    rw [max_eq_right (by omega), Int.toNat_natCast]
  · push_cast at above ⊢
    linarith
  · push_cast at below ⊢
    linarith

theorem toDigits_head {n : Nat} (pos : 0 < n) : (Nat.toDigits 10 n).head? ≠ some '0' := by
  induction n using Nat.strongRecOn with
  | ind n ih =>
    rcases Nat.lt_or_ge n 10 with small | large
    · have digit : ∀ d < 10, 0 < d → Nat.digitChar d ≠ '0' := by decide
      rw [Nat.toDigits_of_lt_base small]
      exact fun h => digit n small pos (Option.some.inj h)
    · rw [Nat.toDigits_of_base_le (by norm_num) large, List.head?_append_of_ne_nil _ Nat.toDigits_ne_nil]
      exact ih (n / 10) (by omega) (by omega)

section

variable {m : Nat}

theorem printed_plain : ∀ c ∈ Nat.toDigits 10 m ++ ['m'], isBlank c = false := by
  intro c mem
  rcases List.mem_append.mp mem with mem | mem
  · have digit : c.isDigit := Nat.isDigit_of_mem_toDigits (by norm_num) (by norm_num) mem
    cases blank : isBlank c with
    | false => rfl
    | true =>
      rw [not_isDigit_of_isBlank blank] at digit
      cases digit
  · rw [List.mem_singleton.mp mem]
    decide

theorem printed_ends : isNeverTtl (Nat.toDigits 10 m ++ ['m']) = false := by
  unfold isNeverTtl
  rw [trim_of_plain printed_plain, beq_eq_false_iff_ne]
  intro h
  have last := congrArg List.getLast? h
  rw [List.map_append, List.map_singleton, List.getLast?_concat] at last
  revert last
  decide

theorem printed_match : ttlMatch (trim (Nat.toDigits 10 m ++ ['m'])) = some (Nat.toDigits 10 m, ['m']) := by
  have digits : ∀ c ∈ Nat.toDigits 10 m, c.isDigit := fun c mem =>
    Nat.isDigit_of_mem_toDigits (by norm_num) (by norm_num) mem
  have first : (Nat.toDigits 10 m ++ ['m']).takeWhile Char.isDigit = Nat.toDigits 10 m := by
    rw [List.takeWhile_append_of_pos digits]
    exact List.append_nil _
  have rest : (Nat.toDigits 10 m ++ ['m']).dropWhile Char.isDigit = ['m'] := by
    rw [List.dropWhile_append_of_pos digits]
    rfl
  unfold ttlMatch
  rw [trim_of_plain printed_plain, first, rest]
  exact if_pos ⟨Nat.toDigits_ne_nil, by decide⟩

theorem printed_decimal : decimal (Nat.toDigits 10 m) = m := Nat.ofDigitChars_ten_toDigits

theorem printed_reading : reading (Nat.toDigits 10 m ++ ['m']) = some (m, .m) := by
  unfold reading
  rw [printed_ends, printed_match]
  show some (decimal (Nat.toDigits 10 m), TtlUnit.m) = _
  rw [printed_decimal]

theorem printed_seconds (pos : 0 < m) (low : m ≤ 2 ^ 48) :
    ttlToSeconds (Nat.toDigits 10 m ++ ['m']) = some (((m * 60 : Nat) : ℚ) : Number) := by
  have held : Held 52 (m * 60 : Nat) := by
    have h := BinaryFloat.held_of_mul (p := 52) (k := 15 * m) (e := 2) (by omega) (by omega)
    have same : ((15 * m : ℤ) : ℚ) * 2 ^ (2 : ℤ) = (m * 60 : Nat) := by
      push_cast
      ring
    rwa [same] at h
  have product := (times_eq_iff pos (m := 60) (by norm_num)).mpr ⟨held, finite_of_lt (by omega)⟩
  have count := number_of_held (BinaryFloat.held_natCast (p := 52) pos (by omega)) (finite_of_lt (n := m) (by omega))
  unfold ttlToSeconds
  rw [printed_ends, printed_match]
  simp only [Bool.false_eq_true, if_false, printed_decimal]
  rw [if_neg]
  · show some (secondsOf.times (number m) 60) = _
    rw [product]
  · rw [count]
    intro h
    rcases h with h | h
    · cases h
    · have le : (m : ℚ) ≤ 0 := by exact_mod_cast h
      have pos' : (0 : ℚ) < m := by exact_mod_cast pos
      linarith

theorem printed_canonical (pos : 0 < m) : Plain (Nat.toDigits 10 m ++ ['m']) := by
  unfold Plain
  rw [printed_ends]
  refine ⟨List.all_eq_true.mpr fun c mem => ?_, fun zero => ?_⟩
  · rw [printed_plain c mem]
    rfl
  · rw [List.head?_append_of_ne_nil _ Nat.toDigits_ne_nil] at zero
    exact absurd zero (toDigits_head pos)

end

end

/-- The text of a redeploy is that of the lifetime which the model of a tenancy passes on. -/
theorem secondsToTtl_refines {s : Nat} (pos : 0 < s) (top : s ≤ 2 ^ 53) :
    ∃ m, reading (secondsToTtl s) = some (m, .m) ∧ Tenants.secondsToTtl s = .of m .m := by
  obtain ⟨m, printed, mpos, -, above, below⟩ := minutes_bounds (s := (s : ℚ)) (by exact_mod_cast pos)
    (by exact_mod_cast top) (BinaryFloat.held_natCast pos top)
  have above' : s ≤ m * 60 := by exact_mod_cast above
  have below' : m * 60 < s + 60 := by exact_mod_cast below
  have minutes : max 1 ((s + 59) / 60) = m := by omega
  refine ⟨m, ?_, ?_⟩
  · rw [printed, printed_reading]
  · unfold Tenants.secondsToTtl
    rw [minutes]

/-- The three parsers agree on what a checkout hands on where the text is plain and the size is one that all of them can
count with, and on what a redeploy hands on where the size is; what a redeploy prints is less than a minute too long. -/
theorem ttl_parsers_agree_iff {date : DateCommand} {most : TtlUnit → Nat → Nat} (documented : Displaces date most) :
    (∀ mayBePerpetual body ttl seconds now later, checkoutTtl mayBePerpetual body = some (ttl, seconds) →
      (Agree date ttl now later ↔ Plain ttl ∧ Fits most ttl now later)) ∧
    (∀ perpetual s now later, 0 < s → s ≤ 2 ^ 53 → Held 52 s →
      (Agree date (redeployTtl perpetual s) now later ↔ Fits most (redeployTtl perpetual s) now later)) ∧
    ∀ s, 0 < s → s ≤ 2 ^ 53 → Held 52 s →
      ∃ seconds : ℚ, ttlToSeconds (secondsToTtl s) = some (seconds : Number) ∧ s ≤ seconds ∧ seconds < s + 60 := by
  refine ⟨?_, ?_, ?_⟩
  · intro mayBePerpetual body ttl seconds now later handed
    unfold checkoutTtl at handed
    dsimp only at handed
    split at handed
    case isTrue => cases handed
    case isFalse =>
      obtain ⟨read, accepted, eq⟩ := Option.map_eq_some_iff.mp handed
      obtain ⟨rfl, rfl⟩ := Prod.mk.inj eq
      cases perpetual : body.persistent || isNeverTtl (body.ttl.getD []) with
      | true =>
        have plain : Plain never := by
          unfold Plain
          rw [if_pos (by decide)]
        rw [if_pos rfl, agree_never documented]
        exact (and_iff_right plain).symm
      | false =>
        rw [perpetual, if_neg Bool.false_ne_true] at accepted
        rw [if_neg Bool.false_ne_true]
        refine agree_iff documented accepted ?_
        split
        case isTrue => exact (Bool.or_eq_false_iff.mp perpetual).2
        case isFalse => decide
  · intro perpetual s now later pos top held
    cases perpetual with
    | true => exact agree_never documented
    | false =>
      obtain ⟨m, printed, mpos, low, -, -⟩ := minutes_bounds pos top held
      show Agree date (secondsToTtl s) now later ↔ Fits most (secondsToTtl s) now later
      rw [printed, agree_iff documented (printed_seconds mpos low) printed_ends]
      exact and_iff_right (printed_canonical mpos)
  · intro s pos top held
    obtain ⟨m, printed, mpos, low, above, below⟩ := minutes_bounds pos top held
    rw [printed]
    exact ⟨_, printed_seconds mpos low, above, below⟩

/-- GNU `date` shows years up to 2147485547 and adds days as an `int`. -/
def gnuMost : TtlUnit → Nat → Nat
  | .d, _ => 2 ^ 31 - 32
  | unit, now => (67768036191676799 - now) / unit.mult

def gnuDate : DateCommand := fun digits unit now =>
  if decimal digits ≤ gnuMost unit now then some ((now + decimal digits * unit.mult : Nat) : Int) else none

theorem eight_hours_agree : Agree gnuDate (text "8h") 1700000000 1700000060 := by
  have handed : checkoutTtl false ⟨some (text "8h"), false⟩ = some (text "8h", ((28800 : ℚ) : Number)) := by
    decide +kernel
  have read : reading (text "8h") = some (8, .h) := by decide
  refine ((ttl_parsers_agree_iff (fun _ _ _ _ _ => rfl : Displaces gnuDate gnuMost)).1 false _ _ _ _ _ handed).mpr ⟨?_, ?_⟩
  · unfold Plain
    rw [if_neg (by decide)]
    exact ⟨by decide, fun zero => absurd zero (by decide)⟩
  · intro r hr
    obtain rfl := Option.some.inj (read.symm.trans hr)
    decide +kernel

/-- A leading zero makes the runner count eight hours where the record says ten; blanks make it give up. -/
theorem octal_ttl_differs :
    checkoutTtl false ⟨some (text "010h"), false⟩ = some (text "010h", ((36000 : ℚ) : Number)) ∧
    expiryEpoch (text "010h") 0 = some 28800 ∧ gnuDate (text "010") .h 0 = some 36000 ∧
    ¬ Agree gnuDate (text "010h") 0 0 ∧
    checkoutTtl false ⟨some (text "8 h"), false⟩ = some (text "8 h", ((28800 : ℚ) : Number)) ∧
    ¬ Agree gnuDate (text "8 h") 0 0 := by
  have recorded : ttlToSeconds (text "010h") = some ((36000 : ℚ) : Number) := by decide +kernel
  have run : expiryEpoch (text "010h") 0 = some 28800 := by decide +kernel
  have dies : expiryEpoch (text "8 h") 0 = none := by decide +kernel
  refine ⟨by decide +kernel, run, by decide +kernel, ?_, by decide +kernel, ?_⟩
  · intro agree
    obtain ⟨seconds, dashboard, runner, -⟩ := agree
    have ten : ((36000 : Nat) : ℚ) = seconds := WithTop.coe_inj.mp (Option.some.inj (recorded.symm.trans dashboard))
    have eight : (28800 : Int) = (0 + seconds : Nat) := Option.some.inj (run.symm.trans runner)
    have ten' : 36000 = seconds := by exact_mod_cast ten
    omega
  · intro agree
    obtain ⟨seconds, -, runner, -⟩ := agree
    cases dies.symm.trans runner

end OtterWorks.Tenants.TtlText
