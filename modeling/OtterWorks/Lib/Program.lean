import Mathlib.Init

namespace OtterWorks

/-- How a call ends: it returns, it reports an error with or without having taken effect, or the
process dies before it. -/
inductive Ending (ε : Type)
  | returns
  | fails (error : ε) (applied : Bool)
  | crashes

/-- What one call meets: a move of the environment, then the ending of the call. -/
structure Turn (σ ε : Type) where
  env : σ → σ
  ending : Ending ε

/-- A program whose effects are calls on a shared state; a call may refuse with an error. -/
inductive Prog (σ ε : Type) (α : Type) : Type 1
  | done (result : Except ε α)
  | call {β : Type} (act : σ → Except ε β × σ) (next : Except ε β → Prog σ ε α)

inductive Outcome (ε α : Type)
  | ended (result : Except ε α)
  | crashed

namespace Prog

def bind {σ ε α β : Type} : Prog σ ε α → (α → Prog σ ε β) → Prog σ ε β
  | .done (.ok a), f => f a
  | .done (.error e), _ => .done (.error e)
  | .call act next, f => .call act fun r => bind (next r) f

def tryCatch {σ ε α : Type} : Prog σ ε α → (ε → Prog σ ε α) → Prog σ ε α
  | .done (.ok a), _ => .done (.ok a)
  | .done (.error e), handler => handler e
  | .call act next, handler => .call act fun r => tryCatch (next r) handler

instance {σ ε : Type} : Monad (Prog σ ε) where
  pure a := .done (.ok a)
  bind := bind

instance {σ ε : Type} : MonadExceptOf ε (Prog σ ε) where
  throw e := .done (.error e)
  tryCatch := tryCatch

/-- A single call. -/
def attempt {σ ε α : Type} (act : σ → Except ε α × σ) : Prog σ ε α := .call act .done

def query {σ ε α : Type} (f : σ → α) : Prog σ ε α := attempt fun s => (.ok (f s), s)

def modify {σ ε : Type} (f : σ → σ) : Prog σ ε Unit := attempt fun s => (.ok (), f s)

/-- Runs a program against a list of turns; once the list is used up every call returns. -/
def run {σ ε α : Type} : Prog σ ε α → List (Turn σ ε) → σ → Outcome ε α × σ
  | .done r, _, s => (.ended r, s)
  | .call act next, [], s => run (next (act s).1) [] (act s).2
  | .call act next, turn :: turns, s =>
    match turn.ending with
    | .returns => run (next (act (turn.env s)).1) turns (act (turn.env s)).2
    | .fails e applied =>
      run (next (.error e)) turns (if applied then (act (turn.env s)).2 else turn.env s)
    | .crashes => (.crashed, turn.env s)

/-- The run in which every call returns. -/
def eval {σ ε α : Type} : Prog σ ε α → σ → Except ε α × σ
  | .done r, s => (r, s)
  | .call act next, s => eval (next (act s).1) (act s).2

theorem run_nil {σ ε α : Type} (p : Prog σ ε α) (s : σ) : p.run [] s = (.ended (p.eval s).1, (p.eval s).2) := by
  induction p generalizing s with
  | done r => rfl
  | call act next ih => exact ih _ _

@[simp] theorem eval_pure {σ ε α : Type} (a : α) (s : σ) : (pure a : Prog σ ε α).eval s = (.ok a, s) := rfl

@[simp] theorem eval_throw {σ ε α : Type} (e : ε) (s : σ) : (throw e : Prog σ ε α).eval s = (.error e, s) := rfl

@[simp] theorem eval_attempt {σ ε α : Type} (act : σ → Except ε α × σ) (s : σ) :
    (attempt act).eval s = act s := rfl

@[simp] theorem eval_query {σ ε α : Type} (f : σ → α) (s : σ) : (query f : Prog σ ε α).eval s = (.ok (f s), s) := rfl

@[simp] theorem eval_modify {σ ε : Type} (f : σ → σ) (s : σ) :
    (modify f : Prog σ ε Unit).eval s = (.ok (), f s) := rfl

theorem eval_bind {σ ε α β : Type} (p : Prog σ ε α) (f : α → Prog σ ε β) (s : σ) :
    (p >>= f).eval s =
      match p.eval s with
      | (.ok a, t) => (f a).eval t
      | (.error e, t) => (.error e, t) := by
  change (p.bind f).eval s = _
  induction p generalizing s with
  | done r => cases r <;> rfl
  | call act next ih => exact ih _ _

theorem eval_bind_ok {σ ε α β : Type} {p : Prog σ ε α} {f : α → Prog σ ε β} {s t : σ} {a : α}
    (h : p.eval s = (.ok a, t)) : (p >>= f).eval s = (f a).eval t := by
  rw [eval_bind, h]

theorem eval_bind_congr {σ ε α β : Type} {p : Prog σ ε α} {f g : α → Prog σ ε β} {s : σ}
    (same : ∀ a t, (f a).eval t = (g a).eval t) : (p >>= f).eval s = (p >>= g).eval s := by
  rw [eval_bind, eval_bind]
  cases p.eval s with
  | mk result t =>
    cases result with
    | ok a => exact same a t
    | error e => rfl

theorem bind_assoc {σ ε α β γ : Type} (p : Prog σ ε α) (f : α → Prog σ ε β) (g : β → Prog σ ε γ) :
    (p >>= f) >>= g = p >>= fun a => f a >>= g := by
  change (p.bind f).bind g = p.bind fun a => (f a).bind g
  induction p with
  | done r => cases r <;> rfl
  | call act next ih =>
    simp only [bind]
    congr 1
    funext r
    exact ih r

theorem bind_pure {σ ε α : Type} (p : Prog σ ε α) : (p >>= pure) = p := by
  change p.bind (fun a => .done (.ok a)) = p
  induction p with
  | done r => cases r <;> rfl
  | call act next ih =>
    simp only [bind]
    congr 1
    funext r
    exact ih r

instance {σ ε : Type} : LawfulMonad (Prog σ ε) :=
  LawfulMonad.mk' _ (fun p => bind_pure p) (fun _ _ => rfl) bind_assoc

theorem eval_tryCatch {σ ε α : Type} (p : Prog σ ε α) (handler : ε → Prog σ ε α) (s : σ) :
    (MonadExcept.tryCatch p handler : Prog σ ε α).eval s =
      match p.eval s with
      | (.ok a, t) => (.ok a, t)
      | (.error e, t) => (handler e).eval t := by
  change (p.tryCatch handler).eval s = _
  induction p generalizing s with
  | done r => cases r <;> rfl
  | call act next ih => exact ih _ _

end Prog

/-- The moves the environment may make between calls, and whether calls may fail. -/
structure Weather (σ : Type) where
  moves : σ → σ → Prop
  still : ∀ s, moves s s
  faults : Prop

def Weather.stormy (σ : Type) : Weather σ := ⟨Eq, fun _ => rfl, True⟩

def Weather.calm (σ : Type) : Weather σ := ⟨Eq, fun _ => rfl, False⟩

def Turn.Within {σ ε : Type} (turn : Turn σ ε) (W : Weather σ) : Prop :=
  (∀ s, W.moves s (turn.env s)) ∧ ∀ e applied, turn.ending = .fails e applied → W.faults

/-- What is asked of a program: of its result, of its errors, and of every state it may die in. -/
structure Post (σ ε α : Type) where
  returns : α → σ → Prop
  raises : ε → σ → Prop
  crashes : σ → Prop

/-- The weakest precondition over every environment move and every ending of every call. -/
def wp {σ ε α : Type} (W : Weather σ) : Prog σ ε α → Post σ ε α → σ → Prop
  | .done (.ok a), Q, s => Q.returns a s
  | .done (.error e), Q, s => Q.raises e s
  | .call act next, Q, s => ∀ t, W.moves s t →
    Q.crashes t ∧ wp W (next (act t).1) Q (act t).2 ∧
      (W.faults → ∀ e, wp W (next (.error e)) Q t ∧ wp W (next (.error e)) Q (act t).2)

def Post.Holds {σ ε α : Type} (Q : Post σ ε α) : Outcome ε α × σ → Prop
  | (.ended (.ok a), s) => Q.returns a s
  | (.ended (.error e), s) => Q.raises e s
  | (.crashed, s) => Q.crashes s

theorem wp_run {σ ε α : Type} {W : Weather σ} {p : Prog σ ε α} {Q : Post σ ε α} {s : σ}
    {turns : List (Turn σ ε)} (h : wp W p Q s) (within : ∀ turn ∈ turns, turn.Within W) :
    Q.Holds (p.run turns s) := by
  induction p generalizing turns s with
  | done r =>
    cases r with
    | ok a => exact h
    | error e => exact h
  | call act next ih =>
    cases turns with
    | nil => exact ih _ (h s (W.still s)).2.1 within
    | cons turn turns =>
      have hw := within turn (List.mem_cons_self ..)
      have rest : ∀ turn ∈ turns, turn.Within W := fun t ht => within t (List.mem_cons_of_mem _ ht)
      obtain ⟨hcrash, hreturn, hfault⟩ := h (turn.env s) (hw.1 s)
      unfold Prog.run
      split
      next => exact ih _ hreturn rest
      next e applied ending =>
        have faulty := hfault (hw.2 e applied ending) e
        cases applied with
        | true => exact ih _ faulty.2 rest
        | false => exact ih _ faulty.1 rest
      next => exact hcrash

/-- A run of one program after another: it ends with the first, or goes on with the turns that are left. -/
def WentOn {σ ε α β : Type} (Q : Post σ ε α) (f : α → Prog σ ε β) (turns : List (Turn σ ε)) (o : Outcome ε β) (t : σ) : Prop :=
  (∃ e, o = .ended (.error e) ∧ Q.raises e t) ∨ (o = .crashed ∧ Q.crashes t) ∨
    ∃ a u rest, rest <:+ turns ∧ Q.returns a u ∧ (f a).run rest u = (o, t)

theorem WentOn.of_suffix {σ ε α β : Type} {Q : Post σ ε α} {f : α → Prog σ ε β} {turns turns' : List (Turn σ ε)}
    {o : Outcome ε β} {t : σ} (h : WentOn Q f turns o t) (suffix : turns <:+ turns') : WentOn Q f turns' o t := by
  rcases h with error | crash | ⟨a, u, rest, fewer, returned, ran⟩
  · exact .inl error
  · exact .inr (.inl crash)
  · exact .inr (.inr ⟨a, u, rest, fewer.trans suffix, returned, ran⟩)

theorem run_bind_cases {σ ε α β : Type} {W : Weather σ} {p : Prog σ ε α} {f : α → Prog σ ε β} {Q : Post σ ε α} {s t : σ}
    {turns : List (Turn σ ε)} {o : Outcome ε β} (h : wp W p Q s) (within : ∀ turn ∈ turns, turn.Within W)
    (ran : (p >>= f).run turns s = (o, t)) : WentOn Q f turns o t := by
  change (p.bind f).run turns s = (o, t) at ran
  induction p generalizing turns s with
  | done r =>
    cases r with
    | ok a => exact .inr (.inr ⟨a, s, turns, List.suffix_refl _, h, ran⟩)
    | error e =>
      cases ran
      exact .inl ⟨e, rfl, h⟩
  | call act next ih =>
    cases turns with
    | nil => exact ih _ (h s (W.still s)).2.1 within ran
    | cons turn turns =>
      have hw := within turn (List.mem_cons_self ..)
      have rest : ∀ turn ∈ turns, turn.Within W := fun t ht => within t (List.mem_cons_of_mem _ ht)
      have shorter : turns <:+ turn :: turns := List.suffix_cons ..
      obtain ⟨hcrash, hreturn, hfault⟩ := h (turn.env s) (hw.1 s)
      rw [Prog.bind, Prog.run] at ran
      split at ran
      next => exact (ih _ hreturn rest ran).of_suffix shorter
      next e applied ending =>
        have faulty := hfault (hw.2 e applied ending) e
        cases applied with
        | true => exact (ih _ faulty.2 rest ran).of_suffix shorter
        | false => exact (ih _ faulty.1 rest ran).of_suffix shorter
      next =>
        cases ran
        exact .inr (.inl ⟨rfl, hcrash⟩)

/-- After a program that completes, the next call may fail without having taken effect. -/
theorem exists_run_fails {σ ε α β γ : Type} {p : Prog σ ε α} {f : α → Prog σ ε β} {s t : σ} {a : α} (e : ε)
    (completes : p.eval s = (.ok a, t)) {act : σ → Except ε γ × σ} {next : Except ε γ → Prog σ ε β}
    (calls : f a = .call act next) : ∃ n, (p >>= f).run
      ((List.replicate n Ending.returns ++ [Ending.fails e false]).map fun ending => ⟨id, ending⟩) s = (next (.error e)).run [] t := by
  change ∃ n, (p.bind f).run ((List.replicate n Ending.returns ++ [Ending.fails e false]).map fun ending => ⟨id, ending⟩) s = _
  induction p generalizing s with
  | done r =>
    cases completes
    refine ⟨0, ?_⟩
    rw [Prog.bind, calls]
    rfl
  | call act' next' ih =>
    obtain ⟨n, ran⟩ := ih _ completes
    exact ⟨n + 1, ran⟩

/-- In calm weather the only run is the one in which every call returns. -/
theorem wp_of_eval {σ ε α : Type} {W : Weather σ} {p : Prog σ ε α} {Q : Post σ ε α} {s : σ}
    (still : ∀ s t, W.moves s t → t = s) (calm : ¬W.faults) (crashes : ∀ t, Q.crashes t)
    (h : Q.Holds (.ended (p.eval s).1, (p.eval s).2)) : wp W p Q s := by
  induction p generalizing s with
  | done r =>
    cases r with
    | ok a => exact h
    | error e => exact h
  | call act next ih =>
    intro t ht
    rw [still s t ht]
    exact ⟨crashes s, ih _ h, fun faults => absurd faults calm⟩

theorem wp_bind {σ ε α β : Type} {W : Weather σ} {p : Prog σ ε α} {f : α → Prog σ ε β}
    {Q : Post σ ε β} {s : σ} :
    wp W (p >>= f) Q s = wp W p { Q with returns := fun a t => wp W (f a) Q t } s := by
  change wp W (p.bind f) Q s = _
  induction p generalizing s with
  | done r =>
    cases r with
    | ok a => rfl
    | error e => rfl
  | call act next ih => simp only [Prog.bind, wp, ih]

theorem wp_tryCatch {σ ε α : Type} {W : Weather σ} {p : Prog σ ε α} {handler : ε → Prog σ ε α}
    {Q : Post σ ε α} {s : σ} :
    wp W (tryCatch p handler) Q s = wp W p { Q with raises := fun e t => wp W (handler e) Q t } s := by
  change wp W (p.tryCatch handler) Q s = _
  induction p generalizing s with
  | done r =>
    cases r with
    | ok a => rfl
    | error e => rfl
  | call act next ih => simp only [Prog.tryCatch, wp, ih]

theorem wp_mono {σ ε α : Type} {W : Weather σ} {p : Prog σ ε α} {Q R : Post σ ε α} {s : σ}
    (h : wp W p Q s) (returns : ∀ a t, Q.returns a t → R.returns a t)
    (raises : ∀ e t, Q.raises e t → R.raises e t) (crashes : ∀ t, Q.crashes t → R.crashes t) :
    wp W p R s := by
  induction p generalizing s with
  | done r =>
    cases r with
    | ok a => exact returns a s h
    | error e => exact raises e s h
  | call act next ih =>
    intro t ht
    obtain ⟨hcrash, hreturn, hfault⟩ := h t ht
    exact ⟨crashes t hcrash, ih _ hreturn,
      fun faults e => ⟨ih _ (hfault faults e).1, ih _ (hfault faults e).2⟩⟩

/-- A program that goes on after errors as well as after results. -/
theorem wp_attempt {σ ε α : Type} {W : Weather σ} {act : σ → Except ε α × σ} {Q : Post σ ε α} {s : σ} :
    wp W (Prog.attempt act) Q s ↔ ∀ t, W.moves s t →
      Q.crashes t ∧
        (match (act t).1 with
          | .ok a => Q.returns a (act t).2
          | .error e => Q.raises e (act t).2) ∧
        (W.faults → ∀ e, Q.raises e t ∧ Q.raises e (act t).2) := by
  unfold Prog.attempt
  constructor
  · intro h t ht
    obtain ⟨hcrash, hreturn, hfault⟩ := h t ht
    refine ⟨hcrash, ?_, hfault⟩
    cases hr : (act t).1 with
    | ok a => simpa only [hr, wp] using hreturn
    | error e => simpa only [hr, wp] using hreturn
  · intro h t ht
    obtain ⟨hcrash, hreturn, hfault⟩ := h t ht
    refine ⟨hcrash, ?_, hfault⟩
    cases hr : (act t).1 with
    | ok a => simpa only [hr, wp] using hreturn
    | error e => simpa only [hr, wp] using hreturn

/-- A list loop keeps what each of its steps keeps. -/
theorem wp_forM {σ ε α : Type} {W : Weather σ} {body : α → Prog σ ε PUnit} {Q : Post σ ε PUnit}
    {J : List α → σ → Prop} {xs : List α} {s : σ}
    (step : ∀ x rest t, (∃ before, xs = before ++ x :: rest) → J (x :: rest) t →
      wp W (body x) { Q with returns := fun _ => J rest } t)
    (finish : ∀ t, J [] t → Q.returns ⟨⟩ t) (start : J xs s) : wp W (xs.forM body) Q s := by
  have loop : ∀ before rest t, xs = before ++ rest → J rest t → wp W (rest.forM body) Q t := by
    intro before rest
    induction rest generalizing before with
    | nil => exact fun t _ ht => finish t ht
    | cons x rest ih =>
      intro t split ht
      change wp W (body x >>= fun _ => rest.forM body) Q t
      rw [wp_bind]
      refine wp_mono (step x rest t ⟨before, split⟩ ht) (fun _ u hu => ?_) (fun _ _ h => h) (fun _ h => h)
      exact ih (before ++ [x]) u (by simp [split]) hu
  exact loop [] xs s rfl start

theorem wp_foldlM {σ ε α β : Type} {W : Weather σ} {body : β → α → Prog σ ε β} {Q : Post σ ε β}
    {J : List α → β → σ → Prop} {xs : List α} {b : β} {s : σ}
    (step : ∀ x rest b t, (∃ before, xs = before ++ x :: rest) → J (x :: rest) b t →
      wp W (body b x) { Q with returns := J rest } t)
    (finish : ∀ b t, J [] b t → Q.returns b t) (start : J xs b s) :
    wp W (xs.foldlM body b) Q s := by
  have loop : ∀ before rest b t, xs = before ++ rest → J rest b t → wp W (rest.foldlM body b) Q t := by
    intro before rest
    induction rest generalizing before with
    | nil => exact fun b t _ ht => finish b t ht
    | cons x rest ih =>
      intro b t split ht
      rw [List.foldlM_cons, wp_bind]
      refine wp_mono (step x rest b t ⟨before, split⟩ ht) (fun b u hu => ?_) (fun _ _ h => h) (fun _ h => h)
      exact ih (before ++ [x]) b u (by simp [split]) hu
  exact loop [] xs b s rfl start

end OtterWorks
