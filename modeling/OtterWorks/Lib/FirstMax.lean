import Mathlib.Data.List.Perm.Basic
import Mathlib.Order.Lattice

namespace OtterWorks

section

variable {α β : Type*} [LinearOrder β] {key : α → β}

/-- The entry with the greatest key, the first of equals: Python's `max(.., key=.., default=None)`, and
`ORDER BY .. DESC LIMIT 1` over the order in which the rows happen to be read. -/
def firstMax (key : α → β) : List α → Option α
  | [] => none
  | x :: xs => some (xs.foldl (fun best y => if key best < key y then y else best) x)

theorem foldl_max (x : α) (xs : List α) :
    xs.foldl (fun best y => if key best < key y then y else best) x ∈ x :: xs ∧
      ∀ y ∈ x :: xs, key y ≤ key (xs.foldl (fun best y => if key best < key y then y else best) x) := by
  induction xs generalizing x with
  | nil => simp
  | cons y ys ih =>
    rw [List.foldl_cons]
    by_cases less : key x < key y
    · rw [if_pos less]
      obtain ⟨mem, top⟩ := ih y
      refine ⟨List.mem_cons_of_mem _ mem, ?_⟩
      intro z hz
      rcases List.mem_cons.mp hz with rfl | hz
      · exact less.le.trans (top y (List.mem_cons_self ..))
      · exact top z hz
    · rw [if_neg less]
      obtain ⟨mem, top⟩ := ih x
      constructor
      · rcases List.mem_cons.mp mem with here | there
        · rw [here]
          exact List.mem_cons_self ..
        · exact List.mem_cons_of_mem _ (List.mem_cons_of_mem _ there)
      · intro z hz
        rcases List.mem_cons.mp hz with rfl | hz
        · exact top z (List.mem_cons_self ..)
        · rcases List.mem_cons.mp hz with rfl | hz
          · exact (not_lt.mp less).trans (top x (List.mem_cons_self ..))
          · exact top z (List.mem_cons_of_mem _ hz)

theorem firstMax_some {l : List α} {m : α} (h : firstMax key l = some m) :
    m ∈ l ∧ ∀ y ∈ l, key y ≤ key m := by
  cases l with
  | nil => cases h
  | cons x xs =>
    cases Option.some.inj h
    exact foldl_max x xs

theorem firstMax_none {l : List α} : firstMax key l = none ↔ l = [] := by
  cases l with
  | nil => simp [firstMax]
  | cons x xs => simp [firstMax]

theorem firstMax_head {x : α} {xs : List α} (top : ∀ y ∈ xs, key y ≤ key x) :
    firstMax key (x :: xs) = some x := by
  have stays : xs.foldl (fun best y => if key best < key y then y else best) x = x := by
    induction xs with
    | nil => rfl
    | cons y ys ih =>
      rw [List.foldl_cons, if_neg (not_lt.mpr (top y (List.mem_cons_self ..)))]
      exact ih fun z hz => top z (List.mem_cons_of_mem _ hz)
  simp [firstMax, stays]

theorem firstMax_map {γ : Type*} (f : γ → α) (l : List γ) :
    firstMax key (l.map f) = (firstMax (key ∘ f) l).map f := by
  cases l with
  | nil => rfl
  | cons x xs =>
    simp only [List.map_cons, firstMax, Option.map_some, Option.some.injEq]
    induction xs generalizing x with
    | nil => rfl
    | cons y ys ih =>
      simp only [List.map_cons, List.foldl_cons, Function.comp_apply]
      by_cases less : key (f x) < key (f y)
      · rw [if_pos less, if_pos less]
        exact ih y
      · rw [if_neg less, if_neg less]
        exact ih x

end

/-- An order in which a table may be read: SQL promises none without `ORDER BY`. -/
structure Scan (α : Type*) where
  order : List α → List α
  perm : ∀ l, (order l).Perm l

namespace Scan

variable {α : Type*}

def asStored : Scan α := ⟨id, fun l => .refl l⟩

/-- Reads one entry before the others. -/
def front [DecidableEq α] (a : α) : Scan α where
  order l := if a ∈ l then a :: l.erase a else l
  perm l := by
    split
    next h => exact (List.perm_cons_erase h).symm
    next => exact .refl l

/-- Reads one entry after the others. -/
def back [DecidableEq α] (a : α) : Scan α where
  order l := if a ∈ l then l.erase a ++ [a] else l
  perm l := by
    split
    next h => exact (List.perm_append_singleton a _).trans (List.perm_cons_erase h).symm
    next => exact .refl l

theorem mem_order {scan : Scan α} {l : List α} {a : α} : a ∈ scan.order l ↔ a ∈ l := (scan.perm l).mem_iff

end Scan

end OtterWorks
