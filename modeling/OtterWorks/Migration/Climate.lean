import OtterWorks.Lib.Keeps
import OtterWorks.Migration.Runner

namespace OtterWorks.Migration

/-- What the application may do to a source table between two driver calls: change rows, each of which
then counts as edited. -/
structure Drift where
  rel : SourceTable → SourceTable → Prop
  refl : ∀ s, rel s s
  trans : ∀ a b c, rel a b → rel b c → rel a c
  keys : ∀ a b, rel a b → ∀ k, k ∈ b.rows ↔ k ∈ a.rows
  honest : ∀ a b, rel a b → ∀ (k : Key) (columns : Fields), b.rows[k]? = some columns →
    k ∈ b.edited ∨ a.rows[k]? = some columns
  edited : ∀ a b, rel a b → ∀ k, k ∈ a.edited → k ∈ b.edited
  audit : ∀ a b, rel a b → b.audit = a.audit
  deleted : ∀ a b, rel a b → b.deleted = a.deleted

/-- Only PURGE changes the source. -/
def Drift.still : Drift where
  rel := Eq
  refl _ := rfl
  trans _ _ _ := Eq.trans
  keys := by rintro _ _ rfl k; rfl
  honest := by rintro _ _ rfl k columns h; exact Or.inr h
  edited := by rintro _ _ rfl k h; exact h
  audit := by rintro _ _ rfl; rfl
  deleted := by rintro _ _ rfl; rfl

structure Updated (a b : SourceTable) : Prop where
  keys : ∀ k, k ∈ b.rows ↔ k ∈ a.rows
  honest : ∀ (k : Key) (columns : Fields), b.rows[k]? = some columns →
    k ∈ b.edited ∨ a.rows[k]? = some columns
  edited : ∀ k, k ∈ a.edited → k ∈ b.edited
  audit : b.audit = a.audit
  deleted : b.deleted = a.deleted

/-- The application updates rows as it likes. -/
def Drift.updates : Drift where
  rel := Updated
  refl _ := ⟨fun _ => Iff.rfl, fun _ _ h => Or.inr h, fun _ h => h, rfl, rfl⟩
  trans a b c hab hbc := by
    refine ⟨fun k => (hbc.keys k).trans (hab.keys k), ?_, fun k h => hbc.edited k (hab.edited k h),
      hbc.audit.trans hab.audit, hbc.deleted.trans hab.deleted⟩
    intro k columns h
    rcases hbc.honest k columns h with edited | there
    · exact Or.inl edited
    · rcases hab.honest k columns there with edited | there
      · exact Or.inl (hbc.edited k edited)
      · exact Or.inr there
  keys _ _ h := h.keys
  honest _ _ h := h.honest
  edited _ _ h := h.edited
  audit _ _ h := h.audit
  deleted _ _ h := h.deleted

structure Drift.Moves (D : Drift) (w v : World) : Prop where
  runRow : v.runRow = w.runRow
  target : v.target = w.target
  source : ∀ name, D.rel (w.source name) (v.source name)

theorem Drift.Moves.refl (D : Drift) (w : World) : D.Moves w w := ⟨rfl, rfl, fun _ => D.refl _⟩

theorem Drift.Moves.trans {D : Drift} {u v w : World} (huv : D.Moves u v) (hvw : D.Moves v w) : D.Moves u w :=
  ⟨hvw.runRow.trans huv.runRow, hvw.target.trans huv.target,
    fun name => D.trans _ _ _ (huv.source name) (hvw.source name)⟩

/-- Driver calls may fail if `faults` holds; the source drifts. -/
def Drift.weather (D : Drift) (faults : Prop) : Weather World := ⟨D.Moves, Drift.Moves.refl D, faults⟩

theorem Drift.Moves.eq {w v : World} (h : Drift.still.Moves w v) : v = w := by
  obtain ⟨runRow, target, source⟩ := h
  cases w
  cases v
  simp only at runRow target source
  subst runRow target
  congr
  funext name
  exact (source name).symm

/-- An assertion the application cannot invalidate. -/
def Drift.Stable (D : Drift) (I : World → Prop) : Prop := ∀ w v, D.Moves w v → I w → I v

section

variable {D : Drift} {F : Prop} {I : World → Prop} {w : World} {table : String}

theorem keeps_write {E : JobError → World → Prop} {f : TargetTable → TargetTable} (stable : D.Stable I) (hI : I w)
    (closed : ∀ u, D.Moves w u → I u → I (u.onTarget table f))
    (fault : ∀ u, D.Moves w u → ∀ e, E e u ∧ E e (u.onTarget table f)) :
    wp (D.weather F) (writeTarget table f)
      (.keeps I (fun _ v => ∃ u, D.Moves w u ∧ v = u.onTarget table f) E) w := by
  apply keeps_call (C := fun u => D.Moves w u)
  · exact fun u hu => ⟨stable w u hu hI, hu⟩
  · exact fun u hIu hu => ⟨closed u hu hIu, u, hu, rfl⟩
  · exact fun _ u _ hu e => fault u hu e

theorem keep_write {f : TargetTable → TargetTable} (stable : D.Stable I) (hI : I w)
    (closed : ∀ u, D.Moves w u → I u → I (u.onTarget table f)) :
    wp (D.weather F) (writeTarget table f) (.keep I fun _ v => ∃ u, D.Moves w u ∧ v = u.onTarget table f) w :=
  keeps_write stable hI closed fun _ _ _ => ⟨trivial, trivial⟩

theorem keeps_query {α : Type} {E : JobError → World → Prop} {f : World → α} (stable : D.Stable I) (hI : I w)
    (fault : F → ∀ u, D.Moves w u → ∀ e, E e u) :
    wp (D.weather F) (Prog.query f) (.keeps I (fun a v => D.Moves w v ∧ a = f v) E) w := by
  apply keeps_call (C := fun u => D.Moves w u)
  · exact fun u hu => ⟨stable w u hu hI, hu⟩
  · exact fun u hIu hu => ⟨hIu, hu, rfl⟩
  · exact fun faults u _ hu e => ⟨fault faults u hu e, fault faults u hu e⟩

theorem keeps_read {α : Type} {E : JobError → World → Prop} {f : TargetTable → α} (stable : D.Stable I) (hI : I w)
    (fault : F → ∀ u, D.Moves w u → ∀ e, E e u) :
    wp (D.weather F) (readTarget table f)
      (.keeps I (fun a v => D.Moves w v ∧ a = f (w.target table)) E) w := by
  refine keeps_mono (keeps_query stable hI fault) ?_ fun _ _ _ h => h
  rintro a v _ ⟨moves, rfl⟩
  exact ⟨moves, by rw [moves.target]⟩

theorem keep_read {α : Type} {f : TargetTable → α} (stable : D.Stable I) (hI : I w) :
    wp (D.weather F) (readTarget table f) (.keep I fun a v => D.Moves w v ∧ a = f (w.target table)) w :=
  keeps_read stable hI fun _ _ _ _ => trivial

theorem keep_query {α : Type} {f : World → α} (stable : D.Stable I) (hI : I w) :
    wp (D.weather F) (Prog.query f : Job α) (.keep I fun a v => D.Moves w v ∧ a = f v) w :=
  keeps_query stable hI fun _ _ _ _ => trivial

theorem keeps_touch {E : JobError → World → Prop} (stable : D.Stable I) (hI : I w)
    (fault : ∀ u, D.Moves w u → ∀ e, E e u) :
    wp (D.weather F) touch (.keeps I (fun _ v => D.Moves w v) E) w := by
  apply keeps_call (C := fun u => D.Moves w u)
  · exact fun u hu => ⟨stable w u hu hI, hu⟩
  · exact fun u hIu hu => ⟨hIu, hu⟩
  · exact fun _ u _ hu e => ⟨fault u hu e, fault u hu e⟩

theorem keep_touch (stable : D.Stable I) (hI : I w) :
    wp (D.weather F) touch (.keep I fun _ v => D.Moves w v) w :=
  keeps_touch stable hI fun _ _ _ => trivial

/-- The stage log around a body. -/
theorem keep_logged {α : Type} {body : Job α} {R : α → World → Prop} (stable : D.Stable I) (hI : I w)
    (run : ∀ v, D.Moves w v → I v → wp (D.weather F) body (.keep I R) v)
    (frame : ∀ a u v, D.Moves u v → R a u → R a v) :
    wp (D.weather F) (logged body) (.keep I R) w := by
  unfold logged stageLogStart stageLogFinish
  apply keeps_bind (keep_touch stable hI)
  intro _ v hIv moves
  refine keeps_bind (R := R) (keeps_tryCatch (G := fun _ _ => True) (run v moves hIv) ?_) ?_
  · intro e u hIu _
    apply keeps_bind (keep_touch stable hIu)
    intro _ u' hIu' _
    exact keeps_throw hIu' trivial
  · intro a u hIu hR
    apply keeps_bind (keep_touch stable hIu)
    intro _ u' hIu' moves'
    exact keeps_pure hIu' (frame a u u' moves' hR)

end

end OtterWorks.Migration
