import Mathlib.Data.List.Count
import Mathlib.Order.Lattice

namespace OtterWorks

/-- A validity period with its first and, once it is closed, its last day. -/
structure Validity (α : Type*) where
  start : α
  stop : Option α
  deriving DecidableEq

namespace Validity

variable {α : Type*} [LinearOrder α]

def Contains (v : Validity α) (d : α) : Prop := v.start ≤ d ∧ ∀ e ∈ v.stop, d ≤ e

instance (v : Validity α) (d : α) : Decidable (v.Contains d) := inferInstanceAs (Decidable (_ ∧ _))

/-- No day lies in both. -/
def Apart (v w : Validity α) : Prop := ∀ d, ¬ (v.Contains d ∧ w.Contains d)

theorem Apart.symm {v w : Validity α} (h : v.Apart w) : w.Apart v := fun d hd => h d ⟨hd.2, hd.1⟩

theorem Contains.reopen {v : Validity α} {d e : α} (h : Contains ⟨v.start, some e⟩ d) (isOpen : v.stop = none) :
    v.Contains d := ⟨h.1, by simp [isOpen]⟩

theorem Apart.close {v w : Validity α} {e : α} (h : v.Apart w) (isOpen : v.stop = none) :
    Apart ⟨v.start, some e⟩ w := fun d hd => h d ⟨hd.1.reopen isOpen, hd.2⟩

theorem apart_of_stop_lt {v w : Validity α} {e : α} (stop : v.stop = some e) (before : e < w.start) : v.Apart w := by
  intro d hd
  have last : d ≤ e := hd.1.2 e stop
  have first : w.start ≤ d := hd.2.1
  exact absurd before (not_lt.mpr (first.trans last))

/-- A period that is still open meets every closed one that reaches its first day. -/
theorem meets_of_le_stop {v w : Validity α} {e : α} (stop : v.stop = some e) (proper : v.start ≤ e)
    (isOpen : w.stop = none) (reaches : w.start ≤ e) : v.Contains e ∧ w.Contains e := by
  refine ⟨⟨proper, ?_⟩, ⟨reaches, by simp [isOpen]⟩⟩
  intro e' he'
  rw [Option.mem_def, stop] at he'
  exact le_of_eq (Option.some.inj he')

end Validity

theorem countP_le_one_iff {β : Type*} {p : β → Bool} {l : List β} :
    l.countP p ≤ 1 ↔ l.Pairwise fun a b => ¬ (p a = true ∧ p b = true) := by
  induction l with
  | nil => simp
  | cons x l ih =>
    by_cases hx : p x = true
    · rw [List.countP_cons_of_pos hx, List.pairwise_cons]
      constructor
      · intro h
        have none : l.countP p = 0 := by omega
        have outside := List.countP_eq_zero.mp none
        exact ⟨fun a ha hp => outside a ha hp.2, ih.mp (by omega)⟩
      · rintro ⟨first, _⟩
        have none : l.countP p = 0 := List.countP_eq_zero.mpr fun a ha hp => first a ha ⟨hx, hp⟩
        omega
    · rw [List.countP_cons_of_neg hx, List.pairwise_cons, ih]
      exact ⟨fun h => ⟨fun a _ hp => hx hp.1, h⟩, fun h => h.2⟩

end OtterWorks
