import Mathlib.Logic.Relation
import Mathlib.Data.List.Induction

namespace OtterWorks

/-- A partial step function over labelled events, with the events a run is allowed to take. -/
def StepBy {σ α : Type*} (step : σ → α → Option σ) (allowed : σ → α → Prop) (s t : σ) : Prop :=
  ∃ a, allowed s a ∧ step s a = some t

/-- States reached by finitely many allowed steps. -/
abbrev Reaches {σ α : Type*} (step : σ → α → Option σ) (allowed : σ → α → Prop) : σ → σ → Prop :=
  Relation.ReflTransGen (StepBy step allowed)

/-- The run that takes the listed events in order, if each is allowed and possible. -/
def runEvents {σ α : Type*} (step : σ → α → Option σ) (allowed : σ → α → Prop)
    [∀ s a, Decidable (allowed s a)] : σ → List α → Option σ
  | s, [] => some s
  | s, a :: as => if allowed s a then (step s a).bind fun t => runEvents step allowed t as else none

theorem Reaches.preserves {σ α : Type*} {step : σ → α → Option σ} {allowed : σ → α → Prop}
    {inv : σ → Prop} (stepInv : ∀ s a t, inv s → allowed s a → step s a = some t → inv t)
    {s t : σ} (reach : Reaches step allowed s t) (start : inv s) : inv t := by
  induction reach with
  | refl => exact start
  | tail _ last ih =>
    obtain ⟨a, ha, hs⟩ := last
    exact stepInv _ a _ ih ha hs

theorem Reaches.of_runEvents {σ α : Type*} {step : σ → α → Option σ} {allowed : σ → α → Prop}
    [∀ s a, Decidable (allowed s a)] {s t : σ} {as : List α}
    (h : runEvents step allowed s as = some t) : Reaches step allowed s t := by
  induction as generalizing s with
  | nil =>
    cases Option.some.inj h
    exact .refl
  | cons a as ih =>
    unfold runEvents at h
    split at h
    next ha =>
      obtain ⟨u, hu, hr⟩ := Option.bind_eq_some_iff.mp h
      exact Relation.ReflTransGen.head ⟨a, ha, hu⟩ (ih hr)
    next => simp at h

section Fold

variable {σ α : Type*} {step : σ → α → σ} {inv : σ → Prop} {pre cond : σ → α → Prop}

/-- Where one step keeps the invariant exactly under a condition, a run keeps it throughout exactly if each of
its steps meets the condition; the steps may ask something of the states they are taken in. -/
theorem foldl_always_iff_of (stepIff : ∀ s a, pre s a → inv s → (inv (step s a) ↔ cond s a)) (s : σ) (as : List α)
    (met : ∀ n a, as[n]? = some a → pre ((as.take n).foldl step s) a) :
    (∀ n, inv ((as.take n).foldl step s)) ↔
      inv s ∧ ∀ n a, as[n]? = some a → cond ((as.take n).foldl step s) a := by
  induction as generalizing s with
  | nil =>
    constructor
    · intro h
      exact ⟨h 0, by simp⟩
    · intro h n
      rw [List.take_nil]
      exact h.1
  | cons a as ih =>
    have ih := ih (step s a) fun n b hb => met (n + 1) b hb
    have first : inv s → (inv (step s a) ↔ cond s a) := stepIff s a (met 0 a rfl)
    constructor
    · intro h
      have start : inv s := h 0
      have tail := ih.mp fun n => h (n + 1)
      refine ⟨start, ?_⟩
      intro n b hb
      cases n with
      | zero =>
        cases Option.some.inj hb
        exact (first start).mp (h 1)
      | succ n => exact tail.2 n b hb
    · intro h n
      cases n with
      | zero => exact h.1
      | succ n =>
        have next : inv (step s a) := (first h.1).mpr (h.2 0 a rfl)
        exact ih.mpr ⟨next, fun m b hb => h.2 (m + 1) b hb⟩ n

theorem foldl_always_iff (stepIff : ∀ s a, inv s → (inv (step s a) ↔ cond s a)) (s : σ) (as : List α) :
    (∀ n, inv ((as.take n).foldl step s)) ↔
      inv s ∧ ∀ n a, as[n]? = some a → cond ((as.take n).foldl step s) a :=
  @foldl_always_iff_of _ _ _ _ (fun _ _ => True) _ (fun s a _ => stepIff s a) s as fun _ _ _ => trivial

/-- As above, with a second invariant that the steps keep as long as the first one holds. -/
theorem foldl_always_iff_with {aux : σ → Prop} (auxStep : ∀ s a, aux s → inv s → aux (step s a))
    (stepIff : ∀ s a, aux s → inv s → (inv (step s a) ↔ cond s a)) {s : σ} (start : aux s) (as : List α) :
    (∀ n, inv ((as.take n).foldl step s)) ↔
      inv s ∧ ∀ n a, as[n]? = some a → cond ((as.take n).foldl step s) a := by
  have both : ∀ t, inv t → aux t → ∀ a, (aux (step t a) ∧ inv (step t a) ↔ cond t a) := by
    intro t h ht a
    rw [← stepIff t a ht h]
    exact ⟨fun after => after.2, fun after => ⟨auxStep t a ht h, after⟩⟩
  have always : (∀ n, aux ((as.take n).foldl step s) ∧ inv ((as.take n).foldl step s)) ↔
      (aux s ∧ inv s) ∧ ∀ n a, as[n]? = some a → cond ((as.take n).foldl step s) a :=
    foldl_always_iff (fun t a (h : aux t ∧ inv t) => both t h.2 h.1 a) s as
  constructor
  · intro h
    have together : ∀ n, aux ((as.take n).foldl step s) ∧ inv ((as.take n).foldl step s) := by
      intro n
      induction n with
      | zero => exact ⟨start, h 0⟩
      | succ n ih =>
        refine ⟨?_, h (n + 1)⟩
        cases there : as[n]? with
        | none =>
          rw [List.take_of_length_le (by have := List.getElem?_eq_none_iff.mp there; omega)]
          rw [List.take_of_length_le (List.getElem?_eq_none_iff.mp there)] at ih
          exact ih.1
        | some a =>
          rw [List.take_add_one, there, List.foldl_append]
          exact auxStep _ a ih.1 ih.2
    exact ⟨h 0, (always.mp together).2⟩
  · intro h n
    exact (always.mpr ⟨⟨start, h.1⟩, h.2⟩ n).2

/-- What each step keeps under what it asks for holds throughout a run that meets it. -/
theorem foldl_always_of (stepInv : ∀ s a, pre s a → inv s → inv (step s a)) {s : σ} (start : inv s) (as : List α)
    (met : ∀ n a, as[n]? = some a → pre ((as.take n).foldl step s) a) (n : Nat) : inv ((as.take n).foldl step s) := by
  induction as generalizing s n with
  | nil => simpa using start
  | cons a as ih =>
    cases n with
    | zero => exact start
    | succ n => exact ih (stepInv s a (met 0 a rfl) start) (fun n b hb => met (n + 1) b hb) n

/-- Where the first step that misses its condition does harm for good, a run ends well exactly if each of its
steps meets the condition. -/
theorem foldl_end_iff {good lost : σ → Prop} (keep : ∀ s a, inv s → cond s a → inv (step s a))
    (lose : ∀ s a, inv s → ¬ cond s a → lost (step s a)) (stays : ∀ s a, lost s → lost (step s a))
    (ends : ∀ s, inv s → good s) (harms : ∀ s, lost s → ¬ good s) {s : σ} (start : inv s) (as : List α) :
    good (as.foldl step s) ↔ ∀ n a, as[n]? = some a → cond ((as.take n).foldl step s) a := by
  have staysLost : ∀ (bs : List α) t, lost t → lost (bs.foldl step t) := by
    intro bs
    induction bs with
    | nil => exact fun _ h => h
    | cons b bs ih => exact fun t h => ih (step t b) (stays t b h)
  induction as generalizing s with
  | nil =>
    constructor
    · intro _ n a h
      simp at h
    · intro _
      exact ends s start
  | cons a as ih =>
    by_cases first : cond s a
    · have tail := ih (keep s a start first)
      refine tail.trans ⟨?_, ?_⟩
      · intro h n b hb
        cases n with
        | zero =>
          cases Option.some.inj hb
          exact first
        | succ n => exact h n b hb
      · intro h n b hb
        exact h (n + 1) b hb
    · constructor
      · intro h
        exact absurd h (harms _ (staysLost as _ (lose s a start first)))
      · intro h
        exact absurd (h 0 a rfl) first

/-- What some events set and others clear holds at the end of a run exactly if an event of the run set it and no
later one cleared it. -/
theorem foldl_latch_iff {latch : σ → Prop} {sets clears : σ → α → Prop} (keep : ∀ s a, inv s → inv (step s a))
    (stepIff : ∀ s a, inv s → (latch (step s a) ↔ sets s a ∨ (latch s ∧ ¬ clears s a))) {s : σ} (start : inv s)
    (unset : ¬ latch s) (as : List α) :
    latch (as.foldl step s) ↔ ∃ n a, as[n]? = some a ∧ sets ((as.take n).foldl step s) a ∧
      ∀ m b, n < m → as[m]? = some b → ¬ clears ((as.take m).foldl step s) b := by
  induction as using List.reverseRecOn with
  | nil =>
    constructor
    · intro h
      exact absurd h unset
    · intro h
      obtain ⟨n, a, ha, _⟩ := h
      simp at ha
  | append_singleton as a ih =>
    have kept : inv (as.foldl step s) := as.foldlRecOn step start fun t h b _ => keep t b h
    have last : (as ++ [a])[as.length]? = some a := by simp
    have whole : (as ++ [a]).take as.length = as := List.take_left
    -- the events before the last one, with the states they are taken in
    have old : ∀ n, n < as.length → (as ++ [a])[n]? = as[n]? ∧ (as ++ [a]).take n = as.take n := by
      intro n before
      exact ⟨List.getElem?_append_left before, List.take_append_of_le_length (by omega)⟩
    rw [List.foldl_append, List.foldl_cons, List.foldl_nil, stepIff _ a kept, ih]
    constructor
    · intro h
      rcases h with now | ⟨⟨n, b, hb, set, later⟩, standing⟩
      · refine ⟨as.length, a, last, by rwa [whole], ?_⟩
        intro m c past hc
        have bound := (List.getElem?_eq_some_iff.mp hc).1
        rw [List.length_append, List.length_singleton] at bound
        omega
      · have before := (List.getElem?_eq_some_iff.mp hb).1
        refine ⟨n, b, by rwa [(old n before).1], by rwa [(old n before).2], ?_⟩
        intro m c past hc
        by_cases end_ : m < as.length
        · rw [(old m end_).1] at hc
          rw [(old m end_).2]
          exact later m c past hc
        · have bound := (List.getElem?_eq_some_iff.mp hc).1
          rw [List.length_append, List.length_singleton] at bound
          have here : m = as.length := by omega
          subst here
          cases Option.some.inj (last.symm.trans hc)
          rwa [whole]
    · intro h
      obtain ⟨n, b, hb, set, later⟩ := h
      by_cases before : n < as.length
      · right
        refine ⟨⟨n, b, by rwa [← (old n before).1], by rwa [← (old n before).2], ?_⟩, ?_⟩
        · intro m c past hc
          have bound := (List.getElem?_eq_some_iff.mp hc).1
          rw [← (old m bound).2]
          exact later m c past (by rwa [(old m bound).1])
        · have unclear := later as.length a before last
          rwa [whole] at unclear
      · left
        have bound := (List.getElem?_eq_some_iff.mp hb).1
        rw [List.length_append, List.length_singleton] at bound
        have here : n = as.length := by omega
        subst here
        cases Option.some.inj (last.symm.trans hb)
        rwa [whole] at set

end Fold

/-- A property of the events at their places, in the form in which it is decided. -/
theorem forall_getElem?_iff {α : Type*} {P : Nat → α → Prop} {as : List α} :
    (∀ n a, as[n]? = some a → P n a) ↔ ∀ n : Fin as.length, P n as[n] := by
  constructor
  · intro h n
    exact h n as[n] (List.getElem?_eq_getElem n.isLt)
  · intro h n a hn
    obtain ⟨bound, here⟩ := List.getElem?_eq_some_iff.mp hn
    have there := h ⟨n, bound⟩
    rw [← here]
    exact there

end OtterWorks
