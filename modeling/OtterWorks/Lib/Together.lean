import OtterWorks.Lib.Fallible
import OtterWorks.Lib.FirstMax
import OtterWorks.Lib.Keeps

namespace OtterWorks

/-- `Future.sequence`: each call is made, in some order, whatever becomes of the others, and the results are given if
all of them return. -/
def Prog.together {σ ε α β : Type} (order : Scan α) (send : α → Prog σ ε β) (xs : List α) : Prog σ ε (List β) := do
  let results ← (order.order xs).mapM fun x =>
    tryCatch (do let b ← send x; pure (.ok b)) fun e => pure (.error e : Except ε β)
  .done (results.mapM id)

section

variable {σ ε α β : Type} {W : Weather σ} {I : σ → Prop} {send : α → Prog σ ε β} {order : Scan α} {xs : List α} {s : σ}
  {E : ε → Prop}

theorem mapM_id_ok {results : List (Except ε β)} {bs : List β} (h : results.mapM id = .ok bs) :
    results = bs.map .ok := by
  have related := mapM_ok.mp h
  clear h
  induction related with
  | nil => rfl
  | cons first _ ih =>
    rw [List.map_cons, ← ih, ← first]
    rfl

theorem mapM_id_error {results : List (Except ε β)} {e : ε} (h : results.mapM id = .error e) : .error e ∈ results := by
  induction results with
  | nil => cases h
  | cons r results ih =>
    rw [List.mapM_cons] at h
    cases r with
    | error e' =>
      cases Except.error.inj h
      exact List.mem_cons_self ..
    | ok b =>
      cases rest : results.mapM id with
      | ok bs => simp [rest, bind, Except.bind, pure, Except.pure] at h
      | error e' =>
        simp only [rest, id_eq, bind, Except.bind, Except.error.injEq] at h
        subst h
        exact List.mem_cons_of_mem _ (ih rest)

/-- Calls made together keep what each of them keeps, and if all return they have run one after another in the
order. -/
theorem keeps_together_in {J : List α → List β → σ → Prop}
    (step : ∀ x t, x ∈ xs → I t → wp W (send x)
      (.keeps I (fun b u => ∀ before bs, J before bs t → J (before ++ [x]) (bs ++ [b]) u) fun e _ => E e) t)
    (hI : I s) (start : J [] [] s) :
    wp W (Prog.together order send xs) (.keeps I (fun bs t => J (order.order xs) bs t) fun e _ => E e) s := by
  refine keeps_bind (R := fun results t => (∀ e, .error e ∈ results → E e) ∧
    ∀ bs, results = bs.map .ok → J (order.order xs) bs t) ?_ ?_
  · refine keeps_mapM (J := fun rest results t => (∀ e, .error e ∈ results → E e) ∧
      ∀ bs before, results = bs.map .ok → order.order xs = before ++ rest → J before bs t) ?_ ?_ hI ?_
    · rintro x rest results t ⟨front, split⟩ hIt ⟨errors, ran⟩
      have member : x ∈ xs := by
        apply Scan.mem_order.mp
        rw [split]
        simp
      refine keeps_tryCatch (G := fun e u => E e) ?_ ?_
      · refine keeps_bind (step x t member hIt) ?_
        intro b u hIu next
        refine keeps_pure hIu ⟨?_, ?_⟩
        · simpa using errors
        · intro bs before all here
          obtain ⟨bs, last, rfl, done, one⟩ := List.map_eq_append_iff.mp all.symm
          obtain ⟨b', rfl, same⟩ := List.map_eq_singleton_iff.mp one
          cases Except.ok.inj same
          have whole : before = front ++ [x] := by
            have joined : before ++ rest = front ++ [x] ++ rest := by
              rw [← here, split, List.append_assoc]
              rfl
            exact List.append_cancel_right joined
          rw [whole]
          exact next _ _ (ran bs front done.symm split)
      · intro e u hIu he
        refine keeps_pure hIu ⟨?_, ?_⟩
        · intro e' member'
          rcases List.mem_append.mp member' with old | new
          · exact errors e' old
          · cases List.mem_singleton.mp new
            exact he
        · intro bs before all here
          have last : Except.error e ∈ bs.map Except.ok := by
            rw [← all]
            simp
          simp at last
    · intro results t hIt ⟨errors, ran⟩
      exact ⟨errors, fun bs all => ran bs _ all (List.append_nil _).symm⟩
    · refine ⟨by simp, ?_⟩
      intro bs before none here
      cases List.map_eq_nil_iff.mp none.symm
      cases List.self_eq_append_left.mp here
      exact start
  · intro results t hIt ⟨errors, ran⟩
    cases together : results.mapM id with
    | ok bs => exact ⟨hIt, ran bs (mapM_id_ok together)⟩
    | error e => exact ⟨hIt, errors e (mapM_id_error together)⟩

theorem keeps_together {J : List α → List β → σ → Prop}
    (step : ∀ x t, x ∈ xs → I t → wp W (send x)
      (.keeps I (fun b u => ∀ before bs, J before bs t → J (before ++ [x]) (bs ++ [b]) u) fun e _ => E e) t)
    (hI : I s) (start : J [] [] s) :
    wp W (Prog.together order send xs) (.keeps I (fun bs t => ∃ l, l.Perm xs ∧ J l bs t) fun e _ => E e) s :=
  keeps_mono (keeps_together_in step hI start) (fun _ _ _ ran => ⟨order.order xs, order.perm xs, ran⟩) fun _ _ _ he => he

end

end OtterWorks
