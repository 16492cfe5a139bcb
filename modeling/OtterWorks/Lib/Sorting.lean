import Mathlib.Data.List.Pairwise
import Mathlib.Data.List.Sort

namespace OtterWorks

/-- Of two different elements of an ordered list one stands before the other. -/
theorem pairwise_or_swap {α : Type*} {r : α → α → Prop} {l : List α} (ordered : l.Pairwise r) {a b : α} (ha : a ∈ l)
    (hb : b ∈ l) (different : a ≠ b) : r a b ∨ r b a := by
  induction ordered with
  | nil => cases ha
  | @cons x l first _ ih =>
    rcases List.mem_cons.mp ha with here | later
    · subst here
      rcases List.mem_cons.mp hb with same | after
      · exact absurd same.symm different
      · exact Or.inl (first b after)
    · rcases List.mem_cons.mp hb with here | after
      · subst here
        exact Or.inr (first a later)
      · exact ih later after

section

variable {α : Type*} {r s : α → α → Prop} [DecidableRel r] [DecidableRel s]

theorem orderedInsert_congr {a : α} {l : List α} (agree : ∀ b ∈ l, (r a b ↔ s a b)) :
    l.orderedInsert r a = l.orderedInsert s a := by
  induction l with
  | nil => rfl
  | cons b l ih =>
    have rest := ih fun x hx => agree x (List.mem_cons_of_mem _ hx)
    have here := agree b (List.mem_cons_self ..)
    rw [List.orderedInsert_cons, List.orderedInsert_cons, rest]
    by_cases less : r a b
    · rw [if_pos less, if_pos (here.mp less)]
    · rw [if_neg less, if_neg fun h => less (here.mpr h)]

/-- A stable sort compares an element only with those that came after it. -/
theorem insertionSort_congr {l : List α} (agree : l.Pairwise fun a b => (r a b ↔ s a b)) :
    l.insertionSort r = l.insertionSort s := by
  induction l with
  | nil => rfl
  | cons a l ih =>
    obtain ⟨first, rest⟩ := List.pairwise_cons.mp agree
    rw [List.insertionSort_cons, List.insertionSort_cons, ih rest]
    apply orderedInsert_congr
    intro b hb
    exact first b ((List.mem_insertionSort s).mp hb)

end

section

variable {α κ : Type*} [LinearOrder κ] {key : α → κ}

/-- There is one list of given elements in the order of their keys. -/
theorem eq_of_keys_sorted {as bs : List α} (ha : as.Pairwise fun x y => key x < key y)
    (hb : bs.Pairwise fun x y => key x < key y) (same : ∀ x, x ∈ as ↔ x ∈ bs) : as = bs := by
  have irrefl : Std.Irrefl fun x y : α => key x < key y := ⟨fun x => lt_irrefl _⟩
  have antisymm : Std.Antisymm fun x y : α => key x < key y := ⟨fun x y h k => absurd h (lt_asymm k)⟩
  exact ha.eq_of_mem_iff hb same

theorem nodup_of_keys_sorted {as : List α} (sorted : as.Pairwise fun x y => key x < key y) : as.Nodup := by
  apply sorted.imp
  intro x y less same
  rw [same] at less
  exact lt_irrefl _ less

/-- In a list that two keys sort, they order any two of its elements in the same way. -/
theorem keys_agree_of_sorted {ι : Type*} [LinearOrder ι] {rank : α → ι} {l : List α}
    (sorted : l.Pairwise fun x y => rank x ≤ rank y ∧ key x < key y) {x y : α} (hx : x ∈ l) (hy : y ∈ l)
    (less : rank x < rank y) : key x < key y := by
  have both : l.Pairwise fun x y => (rank x < rank y → key x < key y) ∧ (rank y < rank x → key y < key x) :=
    sorted.imp fun {x y} h => ⟨fun _ => h.2, fun back => absurd h.1 (not_le.mpr back)⟩
  have symm : Std.Symm fun x y : α => (rank x < rank y → key x < key y) ∧ (rank y < rank x → key y < key x) :=
    ⟨fun x y h => ⟨h.2, h.1⟩⟩
  have other : x ≠ y := by
    intro same
    rw [same] at less
    exact lt_irrefl _ less
  exact (both.forall hx hy other).1 less

end

end OtterWorks
