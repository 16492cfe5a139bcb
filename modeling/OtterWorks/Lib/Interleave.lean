import Mathlib.Data.List.Perm.Basic

namespace OtterWorks

/-- One order in which concurrent lists of actions happen: each pick takes the next action of the list
it names, and what no pick took follows list by list. -/
def interleave {α : Type} : List Nat → List (List α) → List α
  | [], lists => lists.flatten
  | pick :: picks, lists =>
    match lists[pick]? with
    | some (a :: rest) => a :: interleave picks (lists.set pick rest)
    | _ => interleave picks lists

theorem interleave_flatMap {α β : Type} {g : α → List β} {i : Nat} (picks : List Nat) (lists : List (List α))
    (only : ∀ j l, lists[j]? = some l → j ≠ i → ∀ a ∈ l, g a = []) :
    (interleave picks lists).flatMap g = ((lists[i]?).getD []).flatMap g := by
  induction picks generalizing lists with
  | nil =>
    unfold interleave
    induction lists generalizing i with
    | nil => simp
    | cons l lists ih =>
      rw [List.flatten_cons, List.flatMap_append]
      cases i with
      | zero =>
        have rest : lists.flatten.flatMap g = [] := by
          apply List.flatMap_eq_nil_iff.mpr
          intro a ha
          obtain ⟨l', hl', ha⟩ := List.mem_flatten.mp ha
          obtain ⟨j, hj⟩ := List.getElem?_of_mem hl'
          exact only (j + 1) l' (by simpa using hj) (by omega) a ha
        simp [rest]
      | succ i =>
        have first : l.flatMap g = [] := by
          apply List.flatMap_eq_nil_iff.mpr
          exact only 0 l rfl (by omega)
        rw [first, List.nil_append, ih]
        · rfl
        · intro j l' hl' hj
          exact only (j + 1) l' (by simpa using hl') (by omega)
  | cons pick picks ih =>
    unfold interleave
    split
    next a rest hpick =>
      have inside : pick < lists.length := (List.getElem?_eq_some_iff.mp hpick).1
      rw [List.flatMap_cons, ih]
      · by_cases here : pick = i
        · subst here
          rw [List.getElem?_set_self inside, hpick]
          exact List.flatMap_cons.symm
        · have silent : g a = [] := only pick _ hpick here a (List.mem_cons_self ..)
          rw [silent, List.nil_append, List.getElem?_set_ne here]
      · intro j l hl hj
        by_cases here : pick = j
        · subst here
          rw [List.getElem?_set_self inside] at hl
          cases Option.some.inj hl
          intro b hb
          exact only pick _ hpick hj b (List.mem_cons_of_mem _ hb)
        · rw [List.getElem?_set_ne here] at hl
          exact only j l hl hj
    next => exact ih _ only

theorem interleave_perm {α : Type} (picks : List Nat) (lists : List (List α)) :
    (interleave picks lists).Perm lists.flatten := by
  induction picks generalizing lists with
  | nil => exact .refl _
  | cons pick picks ih =>
    unfold interleave
    split
    next a rest hpick =>
      obtain ⟨inside, hl⟩ := List.getElem?_eq_some_iff.mp hpick
      have whole : lists = lists.take pick ++ (a :: rest) :: lists.drop (pick + 1) := by
        rw [← hl]
        simp
      have shorter : lists.set pick rest = lists.take pick ++ rest :: lists.drop (pick + 1) :=
        List.set_eq_take_append_cons_drop.trans (if_pos inside)
      refine ((ih _).cons a).trans ?_
      rw [shorter]
      conv_rhs => rw [whole]
      simp only [List.flatten_append, List.flatten_cons, List.cons_append]
      exact List.perm_middle.symm
    next => exact ih _

end OtterWorks
