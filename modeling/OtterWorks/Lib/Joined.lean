import Mathlib.Algebra.Order.BigOperators.Group.List
import Mathlib.Algebra.Order.Ring.Nat
import Mathlib.Data.List.Forall2

namespace OtterWorks

section

variable {α : Type*} {sep : α} {as bs : List (List α)}

theorem length_intercalate (a : List α) (as : List (List α)) :
    ([sep].intercalate (a :: as)).length = ((a :: as).map List.length).sum + as.length := by
  induction as generalizing a with
  | nil => simp
  | cons next as ih =>
    rw [List.intercalate_cons_cons, List.length_append, ih]
    simp only [List.length_append, List.length_cons, List.length_nil, List.map_cons, List.sum_cons]
    omega

theorem sum_length_le (shorter : List.Forall₂ (fun a b : List α => b.length ≤ a.length) as bs) :
    (bs.map List.length).sum ≤ (as.map List.length).sum := by
  induction shorter with
  | nil => simp
  | cons here _ ih =>
    simp only [List.map_cons, List.sum_cons]
    omega

/-- Joined texts that are nowhere longer than others are the same joined only if they are the same. -/
theorem intercalate_eq_iff_of_length_le (shorter : List.Forall₂ (fun a b : List α => b.length ≤ a.length) as bs) :
    [sep].intercalate as = [sep].intercalate bs ↔ as = bs := by
  refine ⟨fun joined => ?_, fun same => by rw [same]⟩
  induction shorter with
  | nil => rfl
  | @cons a b as bs here rest ih =>
    cases rest with
    | nil => simpa using joined
    | @cons a' b' as bs here' rest =>
      have total := sum_length_le (List.Forall₂.cons here' rest)
      have count := rest.length_eq
      rw [List.intercalate_cons_cons, List.intercalate_cons_cons, List.append_assoc, List.append_assoc] at joined
      have lengths := congrArg List.length joined
      simp only [List.length_append, length_intercalate, List.length_singleton] at lengths
      have same : a.length = b.length := by omega
      obtain ⟨first, others⟩ := List.append_inj joined same
      rw [first, ih (List.append_cancel_left others)]

variable [DecidableEq α]

theorem count_intercalate (a : List α) (as : List (List α)) :
    ([sep].intercalate (a :: as)).count sep = ((a :: as).map (List.count sep)).sum + as.length := by
  induction as generalizing a with
  | nil => simp
  | cons next as ih =>
    rw [List.intercalate_cons_cons, List.count_append, ih]
    simp only [List.count_append, List.count_singleton_self, List.length_cons, List.map_cons, List.sum_cons]
    omega

theorem not_mem_of_sum_count (absent : (as.map (List.count sep)).sum = 0) : ∀ a ∈ as, sep ∉ a := by
  intro a ha
  have least := List.single_le_sum (fun n _ => Nat.zero_le n) _ (List.mem_map_of_mem (f := List.count sep) ha)
  exact List.count_eq_zero.mp (by omega)

/-- Joined texts tell apart what was joined, where one side holds no separator. -/
theorem intercalate_eq_iff (same : as.length = bs.length) (plain : ∀ a ∈ as, sep ∉ a) :
    [sep].intercalate as = [sep].intercalate bs ↔ as = bs := by
  refine ⟨fun joined => ?_, fun h => by rw [h]⟩
  cases as with
  | nil =>
    cases bs with
    | nil => rfl
    | cons b bs => simp at same
  | cons a as =>
    cases bs with
    | nil => simp at same
    | cons b bs =>
      have counts := congrArg (List.count sep) joined
      rw [count_intercalate, count_intercalate] at counts
      have noneHere : ((a :: as).map (List.count sep)).sum = 0 := by
        apply List.sum_eq_zero
        intro n hn
        obtain ⟨x, hx, rfl⟩ := List.mem_map.mp hn
        exact List.count_eq_zero.mpr (plain x hx)
      simp only [List.length_cons] at same
      have noneThere : ((b :: bs).map (List.count sep)).sum = 0 := by omega
      calc
        a :: as = ([sep].intercalate (a :: as)).splitOn sep := (List.splitOn_intercalate sep plain (by simp)).symm
        _ = ([sep].intercalate (b :: bs)).splitOn sep := by rw [joined]
        _ = b :: bs := List.splitOn_intercalate sep (not_mem_of_sum_count noneThere) (by simp)

end

end OtterWorks
