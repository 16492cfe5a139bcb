import Mathlib.Data.List.Basic

namespace OtterWorks

section

variable {σ τ α ρ : Type*}

/-- What a machine answers to one event after another. -/
def answers (step : σ → α → σ × ρ) : σ → List α → List ρ
  | _, [] => []
  | s, a :: as => (step s a).2 :: answers step (step s a).1 as

/-- The state a machine is in after some events. -/
def after (step : σ → α → σ × ρ) (s : σ) (as : List α) : σ := as.foldl (fun s a => (step s a).1) s

/-- Two machines that a relation ties together give the same answers exactly if every event meets the condition
under which a single answer is the same. -/
theorem answers_eq_iff {f : σ → α → σ × ρ} {g : τ → α → τ × ρ} {tie : σ → τ → Prop} {ok : α → Prop}
    {cond : σ → α → Prop} (same : ∀ s t a, tie s t → ok a → ((f s a).2 = (g t a).2 ↔ cond s a))
    (keep : ∀ s t a, tie s t → ok a → cond s a → tie (f s a).1 (g t a).1) {s : σ} {t : τ} (start : tie s t)
    (as : List α) (sound : ∀ a ∈ as, ok a) :
    answers f s as = answers g t as ↔ ∀ n a, as[n]? = some a → cond (after f s (as.take n)) a := by
  induction as generalizing s t with
  | nil => simp [answers]
  | cons a as ih =>
    have okFirst := sound a (List.mem_cons_self ..)
    have okRest : ∀ b ∈ as, ok b := fun b hb => sound b (List.mem_cons_of_mem _ hb)
    have first := same s t a start okFirst
    constructor
    · intro h
      obtain ⟨head, tail⟩ := List.cons.inj h
      have met := first.mp head
      have rest := (ih (keep s t a start okFirst met) okRest).mp tail
      intro n b hb
      cases n with
      | zero =>
        cases Option.some.inj hb
        exact met
      | succ n => exact rest n b hb
    · intro h
      have met : cond s a := h 0 a rfl
      have rest := (ih (keep s t a start okFirst met) okRest).mpr fun n b hb => h (n + 1) b hb
      rw [answers, answers, first.mpr met, rest]

end

end OtterWorks
