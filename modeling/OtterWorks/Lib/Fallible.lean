import Mathlib.Data.List.Forall2

namespace OtterWorks

theorem bind_ok {ε α β : Type} {x : Except ε α} {f : α → Except ε β} {b : β} (h : x >>= f = .ok b) :
    ∃ a, x = .ok a ∧ f a = .ok b := by
  cases x with
  | ok a => exact ⟨a, rfl, h⟩
  | error e => cases h

theorem exists_of_isOk {ε α : Type} {x : Except ε α} (h : x.isOk = true) : ∃ a, x = .ok a := by
  cases x with
  | ok a => exact ⟨a, rfl⟩
  | error e => cases h

theorem seqRight_ok {ε α β : Type} {x : Except ε α} {y : Except ε β} {b : β} (h : x *> y = .ok b) : y = .ok b := by
  cases x with
  | ok a =>
    cases y with
    | ok b' => exact h
    | error e => cases h
  | error e => cases h

/-- A traversal succeeds with the list of what its steps answered. -/
theorem mapM_ok {ε α β : Type} {f : α → Except ε β} {xs : List α} {ys : List β} :
    xs.mapM f = .ok ys ↔ List.Forall₂ (fun x y => f x = .ok y) xs ys := by
  constructor
  · intro h
    induction xs generalizing ys with
    | nil =>
      cases Except.ok.inj h
      exact .nil
    | cons x xs ih =>
      rw [List.mapM_cons] at h
      cases hx : f x with
      | error e => simp [hx, bind, Except.bind] at h
      | ok y =>
        cases hxs : xs.mapM f with
        | error e => simp [hx, hxs, bind, Except.bind] at h
        | ok rest =>
          simp only [hx, hxs, bind, Except.bind, pure, Except.pure, Except.ok.injEq] at h
          subst h
          exact .cons hx (ih hxs)
  · intro h
    induction h with
    | nil => rfl
    | cons hx _ ih => simp [List.mapM_cons, hx, ih, bind, Except.bind, pure, Except.pure]

theorem mapM_congr {ε α β : Type} {f g : α → Except ε β} {xs : List α} (same : ∀ x ∈ xs, f x = g x) :
    xs.mapM f = xs.mapM g := by
  induction xs with
  | nil => rfl
  | cons x xs ih =>
    rw [List.mapM_cons, List.mapM_cons, same x (List.mem_cons_self ..), ih fun y hy => same y (List.mem_cons_of_mem _ hy)]

theorem mapM_some {α β : Type} {f : α → Option β} {xs : List α} {ys : List β} :
    xs.mapM f = some ys ↔ List.Forall₂ (fun x y => f x = some y) xs ys := by
  constructor
  · intro h
    induction xs generalizing ys with
    | nil =>
      cases Option.some.inj h
      exact .nil
    | cons x xs ih =>
      rw [List.mapM_cons] at h
      obtain ⟨y, hy, h⟩ := Option.bind_eq_some_iff.mp h
      obtain ⟨rest, hrest, h⟩ := Option.bind_eq_some_iff.mp h
      cases Option.some.inj h
      exact .cons hy (ih hrest)
  · intro h
    induction h with
    | nil => rfl
    | cons hx _ ih => simp [List.mapM_cons, hx, ih]

theorem forall₂_left {α β : Type} {R : α → β → Prop} {xs : List α} {ys : List β}
    (h : List.Forall₂ R xs ys) {x : α} (hx : x ∈ xs) : ∃ y ∈ ys, R x y := by
  induction h with
  | nil => simp at hx
  | cons first _ ih =>
    rcases List.mem_cons.mp hx with rfl | hx
    · exact ⟨_, List.mem_cons_self .., first⟩
    · obtain ⟨y, hy, hr⟩ := ih hx
      exact ⟨y, List.mem_cons_of_mem _ hy, hr⟩

theorem forall₂_trans {α β γ : Type} {R : α → β → Prop} {S : β → γ → Prop} {T : α → γ → Prop}
    (compose : ∀ x y z, R x y → S y z → T x z) {xs : List α} {ys : List β} {zs : List γ}
    (h : List.Forall₂ R xs ys) (h' : List.Forall₂ S ys zs) : List.Forall₂ T xs zs := by
  induction h generalizing zs with
  | nil =>
    cases h'
    exact .nil
  | cons first _ ih =>
    cases h' with
    | cons first' rest' => exact .cons (compose _ _ _ first first') (ih rest')

theorem forall₂_right {α β : Type} {R : α → β → Prop} {xs : List α} {ys : List β}
    (h : List.Forall₂ R xs ys) {y : β} (hy : y ∈ ys) : ∃ x ∈ xs, R x y := by
  obtain ⟨x, hx, hr⟩ := forall₂_left h.flip hy
  exact ⟨x, hx, hr⟩

theorem mapM_none {α β : Type} {f : α → Option β} {xs : List α} (h : xs.mapM f = none) : ∃ x ∈ xs, f x = none := by
  induction xs with
  | nil => cases h
  | cons x xs ih =>
    rw [List.mapM_cons] at h
    cases first : f x with
    | none => exact ⟨x, List.mem_cons_self .., first⟩
    | some y =>
      cases rest : xs.mapM f with
      | none =>
        obtain ⟨x', member, none⟩ := ih rest
        exact ⟨x', List.mem_cons_of_mem _ member, none⟩
      | some ys => simp [first, rest] at h

/-- A relation that holds between the entries of a list holds between what related entries became. -/
theorem pairwise_forall₂ {α β : Type} {K : α → β → Prop} {P : α → α → Prop} {Q : β → β → Prop}
    (moves : ∀ a b a' b', K a a' → K b b' → P a b → Q a' b') {xs : List α} {ys : List β}
    (h : List.Forall₂ K xs ys) (hP : xs.Pairwise P) : ys.Pairwise Q := by
  induction h with
  | nil => exact .nil
  | cons first rest ih =>
    rw [List.pairwise_cons] at hP ⊢
    refine ⟨?_, ih hP.2⟩
    intro b' hb'
    obtain ⟨b, hb, hK⟩ := forall₂_right rest hb'
    exact moves _ _ _ _ first hK (hP.1 b hb)

theorem exists_forall₂ {α β : Type} {R : α → β → Prop} {xs : List α} (h : ∀ x ∈ xs, ∃ y, R x y) :
    ∃ ys, List.Forall₂ R xs ys := by
  induction xs with
  | nil => exact ⟨[], .nil⟩
  | cons x xs ih =>
    obtain ⟨y, hy⟩ := h x (List.mem_cons_self ..)
    obtain ⟨ys, hys⟩ := ih fun x hx => h x (List.mem_cons_of_mem _ hx)
    exact ⟨y :: ys, .cons hy hys⟩

/-- A second traversal that makes of each answer what it would make of the entry. -/
theorem mapM_after {ε α : Type} {f g : α → Except ε α} (after : ∀ x y, f x = .ok y → g y = g x) {xs ys : List α}
    (h : xs.mapM f = .ok ys) : ys.mapM g = xs.mapM g := by
  have related := mapM_ok.mp h
  clear h
  induction related with
  | nil => rfl
  | cons first _ ih => rw [List.mapM_cons, List.mapM_cons, ih, after _ _ first]

/-- What a list fails with, one of its elements fails with. -/
theorem mapM_failed {ε α β : Type} {f : α → Except ε β} {xs : List α} {e : ε} (h : xs.mapM f = .error e) :
    ∃ x ∈ xs, f x = .error e := by
  induction xs with
  | nil => cases h
  | cons x xs ih =>
    rw [List.mapM_cons] at h
    cases first : f x with
    | error e' =>
      rw [first] at h
      cases h
      exact ⟨x, List.mem_cons_self .., first⟩
    | ok y =>
      cases rest : xs.mapM f with
      | error e' =>
        rw [first, rest] at h
        cases h
        obtain ⟨z, hz, failed⟩ := ih rest
        exact ⟨z, List.mem_cons_of_mem _ hz, failed⟩
      | ok ys =>
        rw [first, rest] at h
        cases h

theorem mapM_error {ε α β : Type} {f : α → Except ε β} {xs : List α} {x : α} {e : ε} (hx : x ∈ xs)
    (h : f x = .error e) : ∃ e', xs.mapM f = .error e' := by
  cases hr : xs.mapM f with
  | error e' => exact ⟨e', rfl⟩
  | ok ys =>
    obtain ⟨y, _, hy⟩ := forall₂_left (mapM_ok.mp hr) hx
    rw [h] at hy
    cases hy

/-- A loop whose steps all succeed succeeds. -/
theorem foldlM_ok {ε α β : Type} {f : β → α → Except ε β} {xs : List α} (steps : ∀ x ∈ xs, ∀ b, ∃ b', f b x = .ok b')
    (b : β) : ∃ b', xs.foldlM f b = .ok b' := by
  induction xs generalizing b with
  | nil => exact ⟨b, rfl⟩
  | cons x xs ih =>
    obtain ⟨b', first⟩ := steps x (List.mem_cons_self ..) b
    obtain ⟨b'', rest⟩ := ih (fun y hy => steps y (List.mem_cons_of_mem _ hy)) b'
    refine ⟨b'', ?_⟩
    rw [List.foldlM_cons, first]
    exact rest

end OtterWorks
