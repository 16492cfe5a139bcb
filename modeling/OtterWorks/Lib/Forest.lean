import Mathlib.Logic.Function.Basic
import Mathlib.Logic.Relation

namespace OtterWorks

/-- Nodes by their parents: a node is absent, a root, or below another node. -/
abbrev Parents (α : Type*) := α → Option (Option α)

namespace Parents

variable {α : Type*} {g : Parents α} {x y z p : α} {parent : Option α}

/-- Following the parents leads through nodes of the graph to a root. -/
inductive Rooted (g : Parents α) : α → Prop
  | root {x : α} (top : g x = some none) : Rooted g x
  | child {x p : α} (up : g x = some (some p)) (rest : Rooted g p) : Rooted g x

/-- Every node leads to a root. -/
def Forest (g : Parents α) : Prop := ∀ x, (g x).isSome → Rooted g x

/-- `y` is `x` or stands above it. -/
def Under (g : Parents α) : α → α → Prop := Relation.ReflTransGen fun a b => g a = some (some b)

theorem Rooted.isSome (h : Rooted g x) : (g x).isSome := by
  cases h with
  | root top =>
    rw [top]
    rfl
  | child up _ =>
    rw [up]
    rfl

theorem Rooted.onward (h : Rooted g x) (up : g x = some (some p)) : Rooted g p := by
  cases h with
  | root top =>
    rw [up] at top
    cases top
  | child up' rest =>
    rw [up] at up'
    cases up'
    exact rest

/-- What leads to a root does not come back to where it was. -/
theorem Rooted.no_cycle (h : Rooted g x) (up : g x = some (some p)) : ¬Under g p x := by
  induction h generalizing p with
  | root top =>
    rw [up] at top
    cases top
  | @child x q up' rest ih =>
    rw [up] at up'
    cases up'
    intro back
    -- the way back to `x` comes to `p` again one step later
    cases back.cases_head with
    | inl same =>
      subst same
      exact ih up .refl
    | inr next =>
      obtain ⟨r, first, onward⟩ := next
      exact ih first (onward.tail up)

variable [DecidableEq α]

theorem update_other (other : y ≠ x) (v : Option (Option α)) : (Function.update g x v : Parents α) y = g y :=
  Function.update_of_ne other v g

/-- A way that does not pass the changed node is there before and after. -/
theorem Rooted.update (h : Rooted g y) {v : Option (Option α)} (apart : ¬Under g y x) : Rooted (Function.update g x v) y := by
  induction h with
  | @root y top =>
    have other : y ≠ x := fun same => apart (same ▸ .refl)
    exact .root ((update_other other v).trans top)
  | @child y p up rest ih =>
    have other : y ≠ x := fun same => apart (same ▸ .refl)
    exact .child ((update_other other v).trans up) (ih fun way => apart (way.head up))

/-- A way to the changed node passes it only at its end. -/
theorem Under.update (h : Under g y x) (v : Option (Option α)) : Under (Function.update g x v) y x := by
  induction h using Relation.ReflTransGen.head_induction_on with
  | refl => exact .refl
  | @head a b up _ ih =>
    by_cases same : a = x
    · subst same
      exact .refl
    · exact ih.head ((update_other same v).trans up)

/-- To hang a node below another keeps a forest exactly if that node is there and not under the one that is hung. -/
theorem forest_hang_iff (forest : Forest g) :
    Forest (Function.update g x (some parent)) ↔ ∀ p ∈ parent, (g p).isSome ∧ ¬Under g p x := by
  constructor
  · intro kept p given
    have up : (Function.update g x (some parent) : Parents α) x = some (some p) := by
      rw [Function.update_self, Option.mem_def.mp given]
    have rooted : Rooted (Function.update g x (some parent)) x := kept x (by rw [up]; rfl)
    have apart : ¬Under g p x := fun way => rooted.no_cycle up (way.update _)
    refine ⟨?_, apart⟩
    have other : p ≠ x := fun same => apart (same ▸ .refl)
    have there := (rooted.onward up).isSome
    rw [update_other other] at there
    exact there
  · intro fits y there
    have hung : Rooted (Function.update g x (some parent)) x := by
      cases parent with
      | none => exact .root (Function.update_self ..)
      | some p =>
        obtain ⟨present, apart⟩ := fits p rfl
        exact .child (Function.update_self ..) ((forest p present).update apart)
    by_cases same : y = x
    · subst same
      exact hung
    · rw [update_other same] at there
      -- up to the changed node the way is as before, and from there on it is the new one
      induction forest y there with
      | @root y top => exact .root ((update_other same _).trans top)
      | @child y p up rest ih =>
        refine .child ((update_other same _).trans up) ?_
        by_cases here : p = x
        · subst here
          exact hung
        · exact ih rest.isSome here

/-- To take a node away keeps a forest exactly if nothing hangs below it. -/
theorem forest_remove_iff (forest : Forest g) : Forest (Function.update g x none) ↔ ∀ y, g y ≠ some (some x) := by
  constructor
  · intro kept y up
    have other : y ≠ x := by
      rintro rfl
      exact (forest y (by rw [up]; rfl)).no_cycle up .refl
    have up' : (Function.update g x none : Parents α) y = some (some x) := (update_other other _).trans up
    have rooted := (kept y (by rw [up']; rfl)).onward up'
    have there := rooted.isSome
    rw [Function.update_self] at there
    cases there
  · intro bare y there
    have other : y ≠ x := by
      rintro rfl
      rw [Function.update_self] at there
      cases there
    rw [update_other other] at there
    refine (forest y there).update ?_
    intro way
    cases way.cases_tail with
    | inl same => exact other same.symm
    | inr last =>
      obtain ⟨z, _, up⟩ := last
      exact bare z up

end Parents

end OtterWorks
