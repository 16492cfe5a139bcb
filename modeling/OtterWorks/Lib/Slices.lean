import Mathlib.Data.List.Basic

namespace OtterWorks

section

variable {α : Type*} {n p : Nat} {l : List α}

/-- Page `p` of a listing, counted from 0. -/
def pageAt (n : Nat) (l : List α) (p : Nat) : List α := (l.drop (p * n)).take n

/-- The slices that start at `0, n, 2n, ..` -/
def slices (n : Nat) (l : List α) : List (List α) := (List.range ((l.length + n - 1) / n)).map (pageAt n l)

/-- Page after page from `p` on, up to the first empty one. -/
def pagesFrom (n : Nat) (l : List α) (p : Nat) : List α :=
  if _h : n = 0 ∨ (pageAt n l p).isEmpty then [] else pageAt n l p ++ pagesFrom n l (p + 1)
termination_by l.length - p * n
decreasing_by
  obtain ⟨pos, more⟩ := not_or.mp _h
  have room : p * n < l.length := by
    by_contra past
    rw [pageAt, List.drop_eq_nil_of_le (by omega)] at more
    simp at more
  rw [Nat.add_mul]
  omega

theorem flatten_pageAt (n : Nat) (l : List α) (k : Nat) :
    ((List.range k).map (pageAt n l)).flatten = l.take (k * n) := by
  induction k with
  | zero => simp
  | succ k ih =>
    rw [List.range_succ, List.map_append, List.flatten_append, ih, Nat.add_mul, Nat.one_mul, List.take_add]
    simp [pageAt]

theorem slices_flatten (pos : 0 < n) (l : List α) : (slices n l).flatten = l := by
  have all : l.length ≤ (l.length + n - 1) / n * n := by
    have rest := Nat.mod_lt (l.length + n - 1) pos
    have parts := Nat.div_add_mod (l.length + n - 1) n
    rw [Nat.mul_comm] at parts
    omega
  rw [slices, flatten_pageAt, List.take_of_length_le all]

theorem pagesFrom_eq (pos : 0 < n) (l : List α) (p : Nat) : pagesFrom n l p = l.drop (p * n) := by
  induction p using pagesFrom.induct n l with
  | case1 p stops =>
    have nil : pageAt n l p = [] := by
      rcases stops with zero | empty
      · omega
      · exact List.isEmpty_iff.mp empty
    have past : l.drop (p * n) = [] := by
      rcases List.take_eq_nil_iff.mp nil with zero | nil
      · omega
      · exact nil
    rw [pagesFrom, dif_pos stops, past]
  | case2 p more ih =>
    have split : l.drop (p * n + n) = (l.drop (p * n)).drop n := List.drop_drop.symm
    rw [pagesFrom, dif_neg more, ih, Nat.add_mul, Nat.one_mul, split, pageAt, List.take_append_drop]

theorem pageAt_eq_nil (pos : 0 < n) : pageAt n l p = [] ↔ l.length ≤ p * n := by
  rw [pageAt, List.take_eq_nil_iff, List.drop_eq_nil_iff]
  omega

theorem length_pageAt : (pageAt n l p).length = min n (l.length - p * n) := by
  simp [pageAt]

/-- Page `p` is decided by the first `(p + 1) * n` entries. -/
theorem pageAt_take (n : Nat) (l : List α) (p : Nat) : pageAt n (l.take ((p + 1) * n)) p = pageAt n l p := by
  have width : (p + 1) * n - p * n = n := by rw [Nat.add_mul]; omega
  rw [pageAt, pageAt, List.drop_take, width, List.take_take, Nat.min_self]

/-- The first `k` of two lists in a row need the first `k` of each. -/
theorem take_append_takes (k : Nat) (l l' : List α) : (l.take k ++ l'.take k).take k = (l ++ l').take k := by
  have left : k - (l.take k).length = k - l.length := by
    rw [List.length_take]
    omega
  rw [List.take_append, List.take_append, left, List.take_take, List.take_take, Nat.min_self]
  congr 2
  omega

/-- A reader who turns the pages from 1 on, up to the first empty one, reads `all`: `last` pages, of which all but the last
are full. -/
structure Paged (n : Nat) (page : Nat → List α) (all : List α) (last : Nat) : Prop where
  whole : ((List.range last).map fun p => page (p + 1)).flatten = all
  filled : ∀ p, 1 ≤ p → p ≤ last → page p ≠ []
  ended : page (last + 1) = []
  full : ∀ p, 1 ≤ p → p < last → (page p).length = n

theorem paged_pageAt (pos : 0 < n) {page : Nat → List α} (cut : ∀ p, 1 ≤ p → page p = pageAt n l (p - 1)) :
    Paged n page l ((l.length + n - 1) / n) := by
  have rest := Nat.mod_lt (l.length + n - 1) pos
  have parts := Nat.div_add_mod (l.length + n - 1) n
  rw [Nat.mul_comm] at parts
  generalize (l.length + n - 1) / n = last at *
  have before (p : Nat) (le : p < last) : (p + 1) * n ≤ last * n := Nat.mul_le_mul_right n le
  refine ⟨?_, ?_, ?_, ?_⟩
  · have same : (List.range last).map (fun p => page (p + 1)) = (List.range last).map (pageAt n l) :=
      List.map_congr_left fun p _ => cut (p + 1) (by omega)
    rw [same, flatten_pageAt, List.take_of_length_le (by omega)]
  · intro p first le
    have here := before (p - 1) (by omega)
    rw [Nat.add_mul] at here
    rw [cut p first, Ne, pageAt_eq_nil pos]
    omega
  · rw [cut (last + 1) (by omega), pageAt_eq_nil pos, Nat.add_sub_cancel]
    omega
  · intro p first lt
    have next := before p lt
    have width : (p + 1) * n = (p - 1) * n + n + n := by
      have turned : p + 1 = p - 1 + 1 + 1 := by omega
      rw [turned, Nat.add_mul, Nat.add_mul, Nat.one_mul]
    rw [cut p first, length_pageAt]
    omega

end

end OtterWorks
