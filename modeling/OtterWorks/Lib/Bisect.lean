import OtterWorks.Lib.Program
import Mathlib.Tactic.Cases

namespace OtterWorks

section

variable {σ α ε : Type} (take : σ → α → Except ε σ)

/-- A store offered one value after the other: what becomes of each, and the store at the end. -/
def oneByOne : σ → List α → List (α × Option ε) × σ
  | s, [] => ([], s)
  | s, x :: xs =>
    match take s x with
    | .ok s' => ((x, none) :: (oneByOne s' xs).1, (oneByOne s' xs).2)
    | .error e => ((x, some e) :: (oneByOne s xs).1, (oneByOne s xs).2)

def takenOf (outcomes : List (α × Option ε)) : List α :=
  outcomes.filterMap fun o => if o.2.isNone then some o.1 else none

def refusedOf (outcomes : List (α × Option ε)) : List (α × ε) :=
  outcomes.filterMap fun o => o.2.map fun e => (o.1, e)

def refusal : Except ε σ → Option ε
  | .ok _ => none
  | .error e => some e

/-- All of the values or none of them; on failure the two halves, down to single values. -/
def bisect : Nat → List α → Prog σ ε (List (α × ε))
  | 0, _ => pure []
  | depth + 1, xs =>
    tryCatch (do
      Prog.attempt fun s =>
        match xs.foldlM take s with
        | .ok s' => (.ok (), s')
        | .error e => (.error e, s)
      pure []) fun e =>
        match xs with
        | [x] => pure [(x, e)]
        | _ => do
          let left ← bisect depth (xs.take (xs.length / 2))
          let right ← bisect depth (xs.drop (xs.length / 2))
          pure (left ++ right)

variable {take} {s : σ} {xs ys : List α} {x : α} {e : ε} {depth : Nat}

theorem oneByOne_append : oneByOne take s (xs ++ ys) =
    ((oneByOne take s xs).1 ++ (oneByOne take (oneByOne take s xs).2 ys).1,
      (oneByOne take (oneByOne take s xs).2 ys).2) := by
  induction xs generalizing s with
  | nil => rfl
  | cons x xs ih =>
    rw [List.cons_append, oneByOne, oneByOne]
    cases take s x with
    | ok s' => simp only [ih, List.cons_append]
    | error e => simp only [ih, List.cons_append]

/-- Every value has one outcome, in its place. -/
theorem oneByOne_values : (oneByOne take s xs).1.map Prod.fst = xs := by
  induction xs generalizing s with
  | nil => rfl
  | cons x xs ih =>
    rw [oneByOne]
    cases take s x with
    | ok s' => simp only [List.map_cons, ih]
    | error e => simp only [List.map_cons, ih]

/-- The store at the end is that of the taken values, offered alone. -/
theorem oneByOne_taken : (takenOf (oneByOne take s xs).1).foldlM take s = .ok (oneByOne take s xs).2 := by
  induction xs generalizing s with
  | nil => rfl
  | cons x xs ih =>
    rw [oneByOne]
    cases taken : take s x with
    | ok s' =>
      have next : (takenOf ((x, (none : Option ε)) :: (oneByOne take s' xs).1)) =
          x :: takenOf (oneByOne take s' xs).1 := rfl
      simp only [next, List.foldlM_cons, taken]
      exact ih
    | error e => exact ih

/-- A value is refused exactly if the store of the values taken before it refuses it. -/
theorem oneByOne_outcome {before after : List (α × Option ε)} {outcome : Option ε}
    (h : (oneByOne take s xs).1 = before ++ (x, outcome) :: after) :
    ∃ t, (takenOf before).foldlM take s = .ok t ∧ outcome = refusal (take t x) := by
  have place := congrArg (List.map Prod.fst) h
  rw [oneByOne_values, List.map_append, List.map_cons] at place
  rw [place, oneByOne_append] at h
  have length : (oneByOne take s (before.map Prod.fst)).1.length = before.length := by
    rw [← List.length_map Prod.fst, oneByOne_values, List.length_map]
  obtain ⟨same, rest⟩ := List.append_inj h length
  refine ⟨(oneByOne take s (before.map Prod.fst)).2, ?_, ?_⟩
  · have stored := @oneByOne_taken _ _ _ take s (before.map Prod.fst)
    rw [same] at stored
    exact stored
  · rw [oneByOne] at rest
    cases taken : take (oneByOne take s (before.map Prod.fst)).2 x with
    | ok t =>
      rw [taken] at rest
      exact ((Prod.mk.inj (List.cons.inj rest).1).2).symm
    | error e =>
      rw [taken] at rest
      exact ((Prod.mk.inj (List.cons.inj rest).1).2).symm

/-- Values that are all taken are taken one by one. -/
theorem oneByOne_all {t : σ} (all : xs.foldlM take s = .ok t) :
    refusedOf (oneByOne take s xs).1 = [] ∧ (oneByOne take s xs).2 = t := by
  induction xs generalizing s with
  | nil => exact ⟨rfl, Except.ok.inj all⟩
  | cons x xs ih =>
    rw [List.foldlM_cons] at all
    rw [oneByOne]
    cases taken : take s x with
    | ok s' =>
      rw [taken] at all
      exact ih all
    | error e =>
      rw [taken] at all
      cases all

theorem refusedOf_append {before after : List (α × Option ε)} :
    refusedOf (before ++ after) = refusedOf before ++ refusedOf after := List.filterMap_append

/-- Halving on failure comes to the same as one value after the other, and ends. -/
theorem eval_bisect (enough : xs.length ≤ depth) :
    (bisect take depth xs).eval s = (.ok (refusedOf (oneByOne take s xs).1), (oneByOne take s xs).2) := by
  induction depth generalizing xs s with
  | zero =>
    have none : xs = [] := List.length_eq_zero_iff.mp (by omega)
    subst none
    rfl
  | succ depth ih =>
    rw [bisect, Prog.eval_tryCatch, Prog.eval_bind, Prog.eval_attempt]
    cases whole : xs.foldlM take s with
    | ok t =>
      obtain ⟨none, same⟩ := oneByOne_all whole
      rw [none, same]
      rfl
    | error e =>
      simp only
      split
      next x =>
        have refused : take s x = .error e := by
          rw [List.foldlM_cons] at whole
          cases taken : take s x with
          | ok t =>
            rw [taken] at whole
            cases whole
          | error e' =>
            rw [taken] at whole
            exact congrArg Except.error (Except.error.inj whole)
        simp only [oneByOne, refused]
        rfl
      next several =>
        have long : xs.length ≠ 0 ∧ xs.length ≠ 1 := by
          refine ⟨?_, ?_⟩
          · intro zero
            rw [List.length_eq_zero_iff.mp zero] at whole
            cases whole
          · intro one
            obtain ⟨x, rfl⟩ := List.length_eq_one_iff.mp one
            exact several x rfl
        have left : (xs.take (xs.length / 2)).length ≤ depth := by
          rw [List.length_take]
          omega
        have right : (xs.drop (xs.length / 2)).length ≤ depth := by
          rw [List.length_drop]
          omega
        rw [Prog.eval_bind_ok (ih left), Prog.eval_bind_ok (ih right), Prog.eval_pure, ← refusedOf_append]
        have halves := @oneByOne_append _ _ _ take s (xs.take (xs.length / 2)) (xs.drop (xs.length / 2))
        rw [List.take_append_drop] at halves
        rw [halves]

end

end OtterWorks
