import OtterWorks.Migration.Steady

namespace OtterWorks.Migration

/-- Every row of the source refers to rows that are there. -/
def ReferencesHold (m : Manifest) (w : World) : Prop :=
  ∀ ts ∈ m.tables, ∀ (k : Key) (columns : Fields), (w.source ts.name).rows[k]? = some columns →
    ∀ ref ∈ ts.foreignKeys ⟨k, columns⟩, ref.2 ∈ (w.source ref.1).rows

/-- What holds of the source and of PURGE's audits in every state of a run. -/
structure Standing (m : Manifest) (w : World) : Prop where
  ok : TablesOk m w
  gone : ∀ name, ∀ k ∈ (w.source name).audit, k ∉ (w.source name).rows
  purged : ∀ (name : String) (k : Key), (w.target name).purgeAudit[k]? = some .purged → k ∈ (w.source name).audit
  safe : ∀ ts ∈ m.tables, ts.role = .reference → ∀ k, k ∉ purgeSafe (w.target ts.name)
  references : ReferencesHold m w

section

variable {m : Manifest} {w₀ u v w : World} {ts : TableSpec} {keys : List Key}

theorem Standing.start (initial : w.Initial) (hold : ReferencesHold m w) : Standing m w := by
  refine ⟨.start initial, ?_, ?_, ?_, hold⟩
  · intro name k hk
    rw [initial.source_clean name] at hk
    exact absurd hk Std.ExtTreeMap.not_mem_empty
  · intro name k held
    rw [initial.target_blank name] at held
    cases held
  · intro ts _ _ k hk
    rw [initial.target_blank ts.name] at hk
    cases hk

/-- The rows of the source and the audits stay, and a verdict is purge_safe in data tables only. -/
theorem Standing.frame (h : Standing m w) (ok : TablesOk m v)
    (source : ∀ name, (v.source name).rows = (w.source name).rows ∧ (v.source name).audit = (w.source name).audit)
    (audit : ∀ (name : String) (k : Key), (v.target name).purgeAudit[k]? = some .purged →
      (w.target name).purgeAudit[k]? = some .purged ∨ k ∈ (w.source name).audit)
    (safe : ∀ ts ∈ m.tables, ts.role = .reference → ∀ k, k ∉ purgeSafe (v.target ts.name)) : Standing m v := by
  refine ⟨ok, ?_, ?_, safe, ?_⟩
  · intro name k hk
    rw [(source name).2] at hk
    rw [(source name).1]
    exact h.gone name k hk
  · intro name k held
    rw [(source name).2]
    rcases audit name k held with old | new
    · exact h.purged name k old
    · exact new
  · intro ts member k columns held ref href
    rw [(source ts.name).1] at held
    rw [(source ref.1).1]
    exact h.references ts member k columns held ref href

theorem verdict_safe {row : StagedRow} {finding : Option Finding} (safe : (verdictOf ts row finding).purgeSafe = true) :
    ts.role = .data := by
  cases finding with
  | none => exact of_decide_eq_true safe
  | some f => cases safe

theorem ValidateMove.safe (move : ValidateMove ts w v) (role : ts.role = .reference)
    (h : ∀ k, k ∉ purgeSafe (w.target ts.name)) : ∀ k, k ∉ purgeSafe (v.target ts.name) := by
  cases move with
  | verdicts rows each =>
    intro k hk
    rw [World.onTarget_self] at hk
    obtain ⟨verdict, held, safe⟩ := mem_purgeSafe.mp hk
    rcases KeyMap.upsertAll_cases held with new | old
    · obtain ⟨r, hr, same⟩ := List.mem_map.mp new
      simp only [Prod.mk.injEq] at same
      obtain ⟨row, finding, _, made, _⟩ := each r hr
      rw [← same.2] at safe
      rw [made] at safe
      rw [verdict_safe safe] at role
      cases role
    · exact h k (mem_purgeSafe.mpr ⟨verdict, old.2, safe⟩)
  | _ =>
    rw [World.onTarget_self]
    exact h

/-- A move that is not PURGE's leaves the source's rows, the audits and the verdicts of reference tables. -/
theorem StageMove.quiet (move : StageMove Drift.still m w v) :
    (∀ name, (v.source name).rows = (w.source name).rows ∧ (v.source name).audit = (w.source name).audit) ∧
      (∀ name, (v.target name).purgeAudit = (w.target name).purgeAudit) ∧
      ((∀ ts ∈ m.tables, ts.role = .reference → ∀ k, k ∉ purgeSafe (w.target ts.name)) →
        ∀ ts ∈ m.tables, ts.role = .reference → ∀ k, k ∉ purgeSafe (v.target ts.name)) := by
  have onTarget : ∀ (table : String) (f : TargetTable → TargetTable),
      (∀ t, (f t).purgeAudit = t.purgeAudit) → (∀ t, (f t).validation = t.validation) →
      (∀ name, ((w.onTarget table f).source name).rows = (w.source name).rows ∧
        ((w.onTarget table f).source name).audit = (w.source name).audit) ∧
      (∀ name, ((w.onTarget table f).target name).purgeAudit = (w.target name).purgeAudit) ∧
      ((∀ ts ∈ m.tables, ts.role = .reference → ∀ k, k ∉ purgeSafe (w.target ts.name)) →
        ∀ ts ∈ m.tables, ts.role = .reference → ∀ k, k ∉ purgeSafe ((w.onTarget table f).target ts.name)) := by
    intro table f audit validation
    refine ⟨fun _ => ⟨rfl, rfl⟩, onTarget_purgeAudit audit, ?_⟩
    intro h ts member role k hk
    apply h ts member role k
    by_cases same : ts.name = table
    · rw [same] at hk ⊢
      rw [World.onTarget_self] at hk
      unfold purgeSafe at hk
      rw [validation] at hk
      exact hk
    · rw [World.onTarget_other same] at hk
      exact hk
  cases move with
  | extract ts member move =>
    cases move with
    | fetch rng pending =>
      refine ⟨?_, fun _ => rfl, fun h => h⟩
      intro name
      by_cases same : name = ts.name
      · rw [same, World.onSource_self]
        exact ⟨rfl, rfl⟩
      · rw [World.onSource_other same]
        exact ⟨rfl, rfl⟩
    | _ => exact onTarget _ _ (fun _ => rfl) fun _ => rfl
  | load ts member move =>
    cases move with
    | _ => exact onTarget _ _ (fun _ => rfl) fun _ => rfl
  | validate ts member move =>
    refine ⟨?_, ?_, ?_⟩
    · cases move with
      | _ => exact fun _ => ⟨rfl, rfl⟩
    · cases move with
      | _ => exact onTarget_purgeAudit fun _ => rfl
    · intro h ts' member' role
      by_cases same : ts'.name = ts.name
      · cases m.same_table member' member same
        exact move.safe role (h ts member role)
      · rw [move.own _ same]
        exact h ts' member' role
  | run move =>
    cases move with
    | begin => exact ⟨fun _ => ⟨rfl, rfl⟩, fun _ => rfl, fun h => h⟩
    | status => exact ⟨fun _ => ⟨rfl, rfl⟩, fun _ => rfl, fun h => h⟩
    | dropStaging => exact onTarget _ _ (fun _ => rfl) fun _ => rfl

theorem Standing.stage (h : Standing m w) (move : StageMove Drift.still m w v) : Standing m v := by
  obtain ⟨source, audit, safe⟩ := move.quiet
  apply h.frame (h.ok.stage move) source
  · intro name k held
    rw [audit] at held
    exact Or.inl held
  · exact safe h.safe

theorem referenced_eq_false {tables : List TableSpec} (free : referenced tables w ts keys = false) {child : TableSpec}
    (member : child ∈ tables) {k : Key} {columns : Fields} (held : (w.source child.name).rows[k]? = some columns)
    {ref : String × Key} (href : ref ∈ child.foreignKeys ⟨k, columns⟩) (own : ref.1 = ts.name) (hk : ref.2 ∈ keys) :
    child.name = ts.name ∧ k ∈ keys := by
  by_contra apart
  have found : referenced tables w ts keys = true := by
    unfold referenced
    refine List.any_eq_true.mpr ⟨child, member, List.any_eq_true.mpr ⟨(k, columns), KeyMap.mem_toList.mpr held,
      List.any_eq_true.mpr ⟨ref, href, ?_⟩⟩⟩
    simp only [Bool.and_eq_true, Bool.not_eq_true', beq_iff_eq, List.contains_iff_mem, ← Bool.not_eq_true]
    exact ⟨⟨own, hk⟩, apart⟩
  rw [free] at found
  cases found

/-- A batch that the source lets through leaves no reference to what it deletes. -/
theorem Standing.batch (h : Standing m w) (free : referenced m.tablesInOrder w ts keys = false) :
    Standing m (w.onSource ts.name (deleteKeys keys)) := by
  have shrunk : ∀ name k columns, ((w.onSource ts.name (deleteKeys keys)).source name).rows[k]? = some columns →
      (w.source name).rows[k]? = some columns ∧ (name = ts.name → k ∉ keys) := by
    intro name k columns held
    by_cases same : name = ts.name
    · rw [same, World.onSource_self] at held
      unfold deleteKeys at held
      simp only at held
      rw [KeyMap.getElem?_dropKeys] at held
      split at held
      next => cases held
      next apart =>
        rw [same]
        exact ⟨held, fun _ => apart⟩
    · rw [World.onSource_other same] at held
      exact ⟨held, fun here => absurd here same⟩
  refine ⟨h.ok, ?_, ?_, h.safe, ?_⟩
  · intro name k hk held
    by_cases same : name = ts.name
    · rw [same, World.onSource_self] at hk held
      obtain ⟨there, apart⟩ := deleteKeys_rows.mp held
      rcases deleteKeys_audit.mp hk with old | new
      · exact h.gone ts.name k old there
      · exact apart new
    · rw [World.onSource_other same] at hk held
      exact h.gone name k hk held
  · intro name k held
    have audited := h.purged name k held
    by_cases same : name = ts.name
    · rw [same] at audited ⊢
      rw [World.onSource_self]
      exact deleteKeys_audit.mpr (Or.inl audited)
    · rw [World.onSource_other same]
      exact audited
  · intro child member k columns held ref href
    obtain ⟨there, kept⟩ := shrunk child.name k columns held
    have target := h.references child member k columns there ref href
    by_cases same : ref.1 = ts.name
    · rw [same] at target ⊢
      rw [World.onSource_self, deleteKeys_rows]
      refine ⟨target, ?_⟩
      intro hk
      obtain ⟨own, listed⟩ := referenced_eq_false free (mem_tablesInOrder.mpr member) there href same hk
      exact kept own listed
    · rw [World.onSource_other same]
      exact target

theorem Standing.purge (h : Standing m w) (move : PurgeMove m.tablesInOrder w v) : Standing m v := by
  have ok := h.ok.purge move
  have safe : ∀ ts ∈ m.tables, ts.role = .reference → ∀ k, k ∉ purgeSafe (v.target ts.name) := by
    intro ts member role
    rw [(move.frame ts.name).safe.1]
    exact h.safe ts member role
  have audited := move.audited
  cases move with
  | batch ts keys member role agree safe fresh distinct free present => exact h.batch free
  | _ => exact h.frame ok (fun _ => ⟨rfl, rfl⟩) audited safe

/-- It is an invariant of the job as long as only PURGE changes the source. -/
theorem Standing.steady (m : Manifest) : Steady Drift.still m (Standing m) where
  stable := by
    intro w v moves h
    rw [moves.eq]
    exact h
  ok _ h := h.ok
  stage _ _ move h := h.stage move
  purge _ _ move h := h.purge move

end

end OtterWorks.Migration
