import Mathlib.Data.List.Basic

namespace OtterWorks

section Lookup

variable {α : Type*} {as : List α} {a x : α} {i j : Nat}

/-- What a list that was set at one place has at a place. -/
theorem getElem?_of_set (h : (as.set i a)[j]? = some x) : (j = i ∧ x = a) ∨ (j ≠ i ∧ as[j]? = some x) := by
  by_cases same : i = j
  · subst same
    rw [List.getElem?_set_self'] at h
    obtain ⟨_, _, here⟩ := Option.map_eq_some_iff.mp h
    exact Or.inl ⟨rfl, here.symm⟩
  · rw [List.getElem?_set_ne same] at h
    exact Or.inr ⟨Ne.symm same, h⟩

theorem getElem?_set_here (h : as[i]? = some x) : (as.set i a)[i]? = some a :=
  List.getElem?_set_self (List.getElem?_eq_some_iff.mp h).1

theorem set_of_getElem? (h : as[i]? = some a) : as.set i a = as := by
  apply List.ext_getElem?
  intro j
  by_cases same : i = j
  · subst same
    rw [getElem?_set_here h, h]
  · exact List.getElem?_set_ne same

/-- What a list with one more element has at a place. -/
theorem getElem?_of_concat (h : (as ++ [a])[j]? = some x) : (j = as.length ∧ x = a) ∨ as[j]? = some x := by
  by_cases old : j < as.length
  · rw [List.getElem?_append_left old] at h
    exact Or.inr h
  · rw [List.getElem?_append_right (by omega)] at h
    obtain ⟨bound, here⟩ := List.getElem?_eq_some_iff.mp h
    simp only [List.length_singleton] at bound
    have last : j = as.length := by omega
    subst last
    simp only [Nat.sub_self, List.getElem_cons_zero] at here
    exact Or.inl ⟨rfl, here.symm⟩

theorem getElem?_concat_of (h : as[j]? = some x) (a : α) : (as ++ [a])[j]? = some x := by
  rw [List.getElem?_append_left (List.getElem?_eq_some_iff.mp h).1]
  exact h

theorem lt_of_getElem? (h : as[j]? = some x) : j < as.length := (List.getElem?_eq_some_iff.mp h).1

end Lookup

section

variable {κ β : Type*} [DecidableEq κ] {k key : κ} {value : β} {rows : List (κ × β)}

/-- `d[key] = value` on a dictionary, which remembers the order of the first assignments. -/
def assign (key : κ) (value : β) : List (κ × β) → List (κ × β)
  | [] => [(key, value)]
  | row :: rows => if row.1 = key then (key, value) :: rows else row :: assign key value rows

@[simp]
theorem lookup_assign_self : (assign key value rows).lookup key = some value := by
  induction rows with
  | nil => simp [assign]
  | cons row rows ih =>
    obtain ⟨old, _⟩ := row
    by_cases here : old = key
    · simp [assign, here]
    · have later : (key == old) = false := by simpa using Ne.symm here
      simpa [assign, here, List.lookup_cons, later] using ih

theorem lookup_assign_ne (other : k ≠ key) : (assign key value rows).lookup k = rows.lookup k := by
  have miss : (k == key) = false := by simpa using other
  induction rows with
  | nil => simp [assign, List.lookup_cons, miss]
  | cons row rows ih =>
    obtain ⟨old, _⟩ := row
    by_cases here : old = key
    · simp [assign, here, List.lookup_cons, miss]
    · simp only [assign, if_neg here, List.lookup_cons, ih]

theorem mem_keys_assign : k ∈ (assign key value rows).map Prod.fst ↔ k = key ∨ k ∈ rows.map Prod.fst := by
  induction rows with
  | nil => simp [assign]
  | cons row rows ih =>
    by_cases here : row.1 = key
    · simp [assign, here]
    · simp only [assign, if_neg here, List.map_cons, List.mem_cons, ih]
      exact or_left_comm

theorem nodup_keys_assign (distinct : (rows.map Prod.fst).Nodup) :
    ((assign key value rows).map Prod.fst).Nodup := by
  induction rows with
  | nil => simp [assign]
  | cons row rows ih =>
    obtain ⟨fresh, rest⟩ := List.nodup_cons.mp distinct
    by_cases here : row.1 = key
    · subst here
      simpa [assign] using distinct
    · simp only [assign, if_neg here, List.map_cons]
      refine List.nodup_cons.mpr ⟨?_, ih rest⟩
      intro again
      rcases mem_keys_assign.mp again with same | old
      · exact here same
      · exact fresh old

end

end OtterWorks
