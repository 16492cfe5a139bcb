import OtterWorks.Lib.Program

namespace OtterWorks

/-- An invariant kept on every ending, with what holds beside it of a result and of an error. -/
def Post.keeps {σ ε α : Type} (I : σ → Prop) (R : α → σ → Prop) (E : ε → σ → Prop) : Post σ ε α :=
  ⟨fun a s => I s ∧ R a s, fun e s => I s ∧ E e s, I⟩

/-- An invariant kept on every ending, and more of a result. -/
def Post.keep {σ ε α : Type} (I : σ → Prop) (R : α → σ → Prop) : Post σ ε α := .keeps I R fun _ _ => True

section

variable {σ ε α β : Type} {W : Weather σ} {I : σ → Prop} {R : α → σ → Prop} {S : β → σ → Prop}
  {E : ε → σ → Prop} {s : σ}

theorem keeps_mono {R' : α → σ → Prop} {G : ε → σ → Prop} {p : Prog σ ε α} (h : wp W p (.keeps I R E) s)
    (returns : ∀ a t, I t → R a t → R' a t) (raises : ∀ e t, I t → E e t → G e t) :
    wp W p (.keeps I R' G) s :=
  wp_mono h (fun a t ht => ⟨ht.1, returns a t ht.1 ht.2⟩) (fun e t ht => ⟨ht.1, raises e t ht.1 ht.2⟩)
    fun _ ht => ht

theorem keep_mono {R' : α → σ → Prop} {p : Prog σ ε α} (h : wp W p (.keep I R) s)
    (returns : ∀ a t, I t → R a t → R' a t) : wp W p (.keep I R') s :=
  keeps_mono h returns fun _ _ _ _ => trivial

theorem keeps_pure {a : α} (hI : I s) (hR : R a s) : wp W (pure a : Prog σ ε α) (.keeps I R E) s := ⟨hI, hR⟩

theorem keeps_throw {e : ε} (hI : I s) (hE : E e s) : wp W (throw e : Prog σ ε α) (.keeps I R E) s := ⟨hI, hE⟩

theorem keeps_bind {p : Prog σ ε α} {f : α → Prog σ ε β} (first : wp W p (.keeps I R E) s)
    (rest : ∀ a t, I t → R a t → wp W (f a) (.keeps I S E) t) : wp W (p >>= f) (.keeps I S E) s := by
  rw [wp_bind]
  exact wp_mono first (fun a t ht => rest a t ht.1 ht.2) (fun _ _ ht => ht) fun _ ht => ht

theorem keeps_tryCatch {G : ε → σ → Prop} {p : Prog σ ε α} {handler : ε → Prog σ ε α}
    (body : wp W p (.keeps I R G) s)
    (handle : ∀ e t, I t → G e t → wp W (handler e) (.keeps I R E) t) :
    wp W (tryCatch p handler) (.keeps I R E) s := by
  rw [wp_tryCatch]
  exact wp_mono body (fun _ _ ht => ht) (fun e t ht => handle e t ht.1 ht.2) fun _ ht => ht

/-- One call: what the environment leaves true before it, and what the call makes of that. -/
theorem keeps_call {act : σ → Except ε α × σ} {C : σ → Prop} (before : ∀ t, W.moves s t → I t ∧ C t)
    (after : ∀ t, I t → C t → I (act t).2 ∧
      match (act t).1 with
      | .ok a => R a (act t).2
      | .error e => E e (act t).2)
    (fault : W.faults → ∀ t, I t → C t → ∀ e, E e t ∧ E e (act t).2) :
    wp W (Prog.attempt act) (.keeps I R E) s := by
  rw [wp_attempt]
  intro t ht
  obtain ⟨hI, hC⟩ := before t ht
  obtain ⟨kept, result⟩ := after t hI hC
  refine ⟨hI, ?_, ?_⟩
  · cases hr : (act t).1 with
    | ok a =>
      rw [hr] at result
      exact ⟨kept, result⟩
    | error e =>
      rw [hr] at result
      exact ⟨kept, result⟩
  · intro faults e
    obtain ⟨unapplied, applied⟩ := fault faults t hI hC e
    exact ⟨⟨hI, unapplied⟩, kept, applied⟩

theorem keeps_forM {body : α → Prog σ ε PUnit} {Q : PUnit → σ → Prop} {J : List α → σ → Prop} {xs : List α}
    (step : ∀ x rest t, (∃ before, xs = before ++ x :: rest) → I t → J (x :: rest) t →
      wp W (body x) (.keeps I (fun _ => J rest) E) t)
    (finish : ∀ t, I t → J [] t → Q ⟨⟩ t) (hI : I s) (start : J xs s) :
    wp W (xs.forM body) (.keeps I Q E) s := by
  refine wp_forM (J := fun rest t => I t ∧ J rest t) ?_ (fun t ht => ⟨ht.1, finish t ht.1 ht.2⟩) ⟨hI, start⟩
  intro x rest t here ht
  exact step x rest t here ht.1 ht.2

theorem keeps_foldlM {body : β → α → Prog σ ε β} {Q : β → σ → Prop} {J : List α → β → σ → Prop} {xs : List α}
    {b : β}
    (step : ∀ x rest b t, (∃ before, xs = before ++ x :: rest) → I t → J (x :: rest) b t →
      wp W (body b x) (.keeps I (fun b => J rest b) E) t)
    (finish : ∀ b t, I t → J [] b t → Q b t) (hI : I s) (start : J xs b s) :
    wp W (xs.foldlM body b) (.keeps I Q E) s := by
  refine wp_foldlM (J := fun rest b t => I t ∧ J rest b t) ?_ (fun b t ht => ⟨ht.1, finish b t ht.1 ht.2⟩)
    ⟨hI, start⟩
  intro x rest b t here ht
  exact step x rest b t here ht.1 ht.2

theorem keeps_mapM {f : α → Prog σ ε β} {Q : List β → σ → Prop} {J : List α → List β → σ → Prop} {xs : List α}
    (step : ∀ x rest done t, (∃ before, xs = before ++ x :: rest) → I t → J (x :: rest) done t →
      wp W (f x) (.keeps I (fun b => J rest (done ++ [b])) E) t)
    (finish : ∀ bs t, I t → J [] bs t → Q bs t) (hI : I s) (start : J xs [] s) :
    wp W (xs.mapM f) (.keeps I Q E) s := by
  have loop : ∀ rest before done t, xs = before ++ rest → I t → J rest done t →
      wp W (rest.mapM f) (.keeps I (fun bs u => Q (done ++ bs) u) E) t := by
    intro rest
    induction rest with
    | nil =>
      intro before done t _ hIt ht
      rw [List.mapM_nil]
      refine keeps_pure hIt ?_
      rw [List.append_nil]
      exact finish done t hIt ht
    | cons x rest ih =>
      intro before done t split hIt ht
      rw [List.mapM_cons]
      refine keeps_bind (step x rest done t ⟨before, split⟩ hIt ht) ?_
      intro b u hIu hu
      refine keeps_bind (ih (before ++ [x]) (done ++ [b]) u (by simp [split]) hIu hu) ?_
      intro bs v hIv hQ
      refine keeps_pure hIv ?_
      rwa [List.append_assoc] at hQ
  exact loop xs [] [] s rfl hI start

end

/-- The error of a call that the state itself refuses. -/
def refused {ε β : Type} : Except ε β → List ε
  | .ok _ => []
  | .error e => [e]

/-- The errors with which the state answers the calls of a run. Those that the turns make up are not among them. -/
def Prog.refusals {σ ε α : Type} : Prog σ ε α → List (Turn σ ε) → σ → List ε
  | .done _, _, _ => []
  | .call act next, [], s => refused (act s).1 ++ refusals (next (act s).1) [] (act s).2
  | .call act next, turn :: turns, s =>
    match turn.ending with
    | .returns =>
      refused (act (turn.env s)).1 ++ refusals (next (act (turn.env s)).1) turns (act (turn.env s)).2
    | .fails e true => refused (act (turn.env s)).1 ++ refusals (next (.error e)) turns (act (turn.env s)).2
    | .fails e false => refusals (next (.error e)) turns (turn.env s)
    | .crashes => []

/-- Whatever the environment does, the state refuses calls of the program with allowed errors only. -/
def Refuses {σ ε α : Type} (W : Weather σ) (A : ε → Prop) : Prog σ ε α → σ → Prop
  | .done _, _ => True
  | .call act next, s => ∀ t, W.moves s t →
    (∀ e ∈ refused (act t).1, A e) ∧ Refuses W A (next (act t).1) (act t).2 ∧
      (W.faults → ∀ e, Refuses W A (next (.error e)) t ∧ Refuses W A (next (.error e)) (act t).2)

/-- No state refuses a call of the program. -/
def Willing {σ ε α : Type} : Prog σ ε α → Prop
  | .done _ => True
  | .call act next => (∀ s, refused (act s).1 = []) ∧ ∀ r, Willing (next r)

section

variable {σ ε α β : Type} {W : Weather σ} {A : ε → Prop} {I : σ → Prop} {R : α → σ → Prop} {E G : ε → σ → Prop}
  {s : σ}

theorem refuses_run {p : Prog σ ε α} {turns : List (Turn σ ε)} (h : Refuses W A p s)
    (within : ∀ turn ∈ turns, turn.Within W) : ∀ e ∈ p.refusals turns s, A e := by
  induction p generalizing turns s with
  | done r => exact fun _ he => absurd he List.not_mem_nil
  | call act next ih =>
    cases turns with
    | nil =>
      obtain ⟨here, later, _⟩ := h s (W.still s)
      intro e he
      rcases List.mem_append.mp he with now | rest
      · exact here e now
      · exact ih _ later within e rest
    | cons turn turns =>
      have first := within turn (List.mem_cons_self ..)
      have rest : ∀ turn ∈ turns, turn.Within W := fun t ht => within t (List.mem_cons_of_mem _ ht)
      obtain ⟨here, later, faulty⟩ := h (turn.env s) (first.1 s)
      intro e he
      unfold Prog.refusals at he
      split at he
      next =>
        rcases List.mem_append.mp he with now | after
        · exact here e now
        · exact ih _ later rest e after
      next error ending =>
        rcases List.mem_append.mp he with now | after
        · exact here e now
        · exact ih _ (faulty (first.2 error true ending) error).2 rest e after
      next error ending => exact ih _ (faulty (first.2 error false ending) error).1 rest e he
      next => cases he

theorem Willing.refuses {p : Prog σ ε α} (h : Willing p) : Refuses W A p s := by
  induction p generalizing s with
  | done r => trivial
  | call act next ih =>
    intro t _
    refine ⟨?_, ih _ (h.2 _), fun _ e => ⟨ih _ (h.2 _), ih _ (h.2 _)⟩⟩
    rw [h.1 t]
    exact fun _ he => absurd he List.not_mem_nil

theorem willing_query (f : σ → α) : Willing (Prog.query f : Prog σ ε α) := ⟨fun _ => rfl, fun _ => trivial⟩

theorem willing_modify (f : σ → σ) : Willing (Prog.modify f : Prog σ ε Unit) := ⟨fun _ => rfl, fun _ => trivial⟩

theorem willing_pure (a : α) : Willing (pure a : Prog σ ε α) := trivial

theorem willing_throw (e : ε) : Willing (throw e : Prog σ ε α) := trivial

theorem Willing.bind {p : Prog σ ε α} {f : α → Prog σ ε β} (first : Willing p) (rest : ∀ a, Willing (f a)) :
    Willing (p >>= f) := by
  change Willing (p.bind f)
  induction p with
  | done r =>
    cases r with
    | ok a => exact rest a
    | error e => trivial
  | call act next ih => exact ⟨first.1, fun r => ih r (first.2 r)⟩

theorem Willing.tryCatch {p : Prog σ ε α} {handler : ε → Prog σ ε α} (body : Willing p)
    (handle : ∀ e, Willing (handler e)) : Willing (MonadExcept.tryCatch p handler) := by
  change Willing (p.tryCatch handler)
  induction p with
  | done r =>
    cases r with
    | ok a => trivial
    | error e => exact handle e
  | call act next ih => exact ⟨body.1, fun r => ih r (body.2 r)⟩

theorem willing_forM {body : α → Prog σ ε PUnit} {xs : List α} (each : ∀ x ∈ xs, Willing (body x)) :
    Willing (xs.forM body) := by
  induction xs with
  | nil => exact willing_pure _
  | cons x xs ih =>
    change Willing (body x >>= fun _ => xs.forM body)
    apply Willing.bind (each x (List.mem_cons_self ..))
    exact fun _ => ih fun y hy => each y (List.mem_cons_of_mem _ hy)

theorem willing_mapM {f : α → Prog σ ε β} {xs : List α} (each : ∀ x ∈ xs, Willing (f x)) : Willing (xs.mapM f) := by
  induction xs with
  | nil =>
    rw [List.mapM_nil]
    exact willing_pure _
  | cons x xs ih =>
    rw [List.mapM_cons]
    apply Willing.bind (each x (List.mem_cons_self ..))
    intro b
    apply Willing.bind (ih fun y hy => each y (List.mem_cons_of_mem _ hy))
    exact fun bs => willing_pure _

theorem refuses_pure (a : α) : Refuses W A (pure a : Prog σ ε α) s := trivial

theorem refuses_throw (e : ε) : Refuses W A (throw e : Prog σ ε α) s := trivial

theorem refuses_attempt {act : σ → Except ε α × σ} (h : ∀ t, W.moves s t → ∀ e ∈ refused (act t).1, A e) :
    Refuses W A (Prog.attempt act) s := fun t ht => ⟨h t ht, trivial, fun _ _ => ⟨trivial, trivial⟩⟩

/-- What follows a program may rely on what is known of its result. -/
theorem refuses_bind {p : Prog σ ε α} {f : α → Prog σ ε β} (first : Refuses W A p s)
    (known : wp W p (.keeps I R E) s) (rest : ∀ a t, I t → R a t → Refuses W A (f a) t) :
    Refuses W A (p >>= f) s := by
  change Refuses W A (p.bind f) s
  induction p generalizing s with
  | done r =>
    cases r with
    | ok a => exact rest a s known.1 known.2
    | error e => trivial
  | call act next ih =>
    intro t ht
    obtain ⟨here, later, faulty⟩ := first t ht
    obtain ⟨_, returned, failed⟩ := known t ht
    exact ⟨here, ih _ later returned,
      fun faults e => ⟨ih _ (faulty faults e).1 (failed faults e).1, ih _ (faulty faults e).2 (failed faults e).2⟩⟩

theorem refuses_tryCatch {p : Prog σ ε α} {handler : ε → Prog σ ε α} (body : Refuses W A p s)
    (known : wp W p (.keeps I R G) s) (handle : ∀ e t, I t → G e t → Refuses W A (handler e) t) :
    Refuses W A (tryCatch p handler) s := by
  change Refuses W A (p.tryCatch handler) s
  induction p generalizing s with
  | done r =>
    cases r with
    | ok a => trivial
    | error e => exact handle e s known.1 known.2
  | call act next ih =>
    intro t ht
    obtain ⟨here, later, faulty⟩ := body t ht
    obtain ⟨_, returned, failed⟩ := known t ht
    exact ⟨here, ih _ later returned,
      fun faults e => ⟨ih _ (faulty faults e).1 (failed faults e).1, ih _ (faulty faults e).2 (failed faults e).2⟩⟩

theorem keeps_any {p : Prog σ ε α} : wp W p (.keeps (fun _ => True) (fun _ _ => True) fun _ _ => True) s := by
  induction p generalizing s with
  | done r =>
    cases r with
    | ok a => exact ⟨trivial, trivial⟩
    | error e => exact ⟨trivial, trivial⟩
  | call act next ih => exact fun t _ => ⟨trivial, ih _, fun _ e => ⟨ih _, ih _⟩⟩

theorem refuses_bind_willing {p : Prog σ ε α} {f : α → Prog σ ε β} (first : Refuses W A p s)
    (rest : ∀ a, Willing (f a)) : Refuses W A (p >>= f) s :=
  refuses_bind first keeps_any fun a _ _ _ => (rest a).refuses

theorem refuses_tryCatch_willing {p : Prog σ ε α} {handler : ε → Prog σ ε α} (body : Refuses W A p s)
    (handle : ∀ e, Willing (handler e)) : Refuses W A (tryCatch p handler) s :=
  refuses_tryCatch body keeps_any fun e _ _ _ => (handle e).refuses

/-- A list loop whose steps are refused as allowed while they keep what the later steps rely on. -/
theorem refuses_forM {body : α → Prog σ ε PUnit} {J : List α → σ → Prop} {xs : List α}
    (step : ∀ x rest t, (∃ before, xs = before ++ x :: rest) → I t → J (x :: rest) t →
      Refuses W A (body x) t ∧ wp W (body x) (.keeps I (fun _ => J rest) E) t)
    (hI : I s) (start : J xs s) : Refuses W A (xs.forM body) s := by
  have loop : ∀ before rest t, xs = before ++ rest → I t → J rest t → Refuses W A (rest.forM body) t := by
    intro before rest
    induction rest generalizing before with
    | nil => exact fun _ _ _ _ => refuses_pure _
    | cons x rest ih =>
      intro t split hIt ht
      obtain ⟨own, known⟩ := step x rest t ⟨before, split⟩ hIt ht
      change Refuses W A (body x >>= fun _ => rest.forM body) t
      apply refuses_bind own known
      exact fun _ u hIu hu => ih (before ++ [x]) u (by simp [split]) hIu hu
  exact loop [] xs s rfl hI start

end

end OtterWorks
