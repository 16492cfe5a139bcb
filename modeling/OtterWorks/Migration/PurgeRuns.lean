import OtterWorks.Migration.Climate

namespace OtterWorks.Migration

/-- Every guard agrees: as many purge_safe keys as the ledger has validated. -/
def GuardsAgree (tables : List TableSpec) (w : World) : Prop :=
  ∀ ts ∈ tables, ts.role = .data →
    (w.target ts.name).ledger.validated = some (purgeSafe (w.target ts.name)).length

/-- A ledger row but for what PURGE writes of it. -/
def LedgerRow.SamePurged (l l' : LedgerRow) : Prop :=
  l' = { l with purgeIntended := l'.purgeIntended, purged := l'.purged, purgeDryRun := l'.purgeDryRun }

/-- What a driver call of PURGE changes, and what is known when it does. -/
inductive PurgeMove (tables : List TableSpec) (w : World) : World → Prop
  | ledger (ts : TableSpec) (f : LedgerRow → LedgerRow) (frame : ∀ l, LedgerRow.SamePurged l (f l)) :
      PurgeMove tables w (w.onTarget ts.name fun t => t.onLedger f)
  | intend (ts : TableSpec) (keys : List Key) (safe : ∀ k ∈ keys, k ∈ purgeSafe (w.target ts.name)) :
      PurgeMove tables w (w.onTarget ts.name fun t =>
        { t with purgeAudit := t.purgeAudit.addNew (keys.map fun k => (k, .intended)) })
  | rolledBack (ts : TableSpec) (keys : List Key) :
      PurgeMove tables w (w.onTarget ts.name fun t =>
        { t with purgeAudit := t.purgeAudit.map fun k s => if k ∈ keys then .rolledBack else s })
  | purged (ts : TableSpec) (keys : List Key) (audited : ∀ k ∈ keys, k ∈ (w.source ts.name).audit) :
      PurgeMove tables w (w.onTarget ts.name fun t =>
        { t with purgeAudit := t.purgeAudit.map fun k s => if k ∈ keys then .purged else s })
  | batch (ts : TableSpec) (keys : List Key) (member : ts ∈ tables) (role : ts.role = .data)
      (agree : GuardsAgree tables w) (safe : ∀ k ∈ keys, k ∈ purgeSafe (w.target ts.name))
      (fresh : ∀ k ∈ keys, k ∉ (w.source ts.name).audit) (distinct : keys.Nodup)
      (free : referenced tables w ts keys = false) (present : ∀ k ∈ keys, k ∈ (w.source ts.name).rows) :
      PurgeMove tables w (w.onSource ts.name fun s =>
        { s with
          rows := s.rows.dropKeys keys
          audit := s.audit.addNew (keys.map fun k => (k, ()))
          deleted := s.deleted.addNew ((s.rows.toList.filter fun row => row.1 ∈ keys).map fun row =>
            (row.1, row.2, s.edited.contains row.1)) })

/-- A table but for what PURGE writes of it. -/
def SameButPurge (t t' : TargetTable) : Prop :=
  t' = { t with
    purgeAudit := t'.purgeAudit
    ledger := { t.ledger with
      purgeIntended := t'.ledger.purgeIntended
      purged := t'.ledger.purged
      purgeDryRun := t'.ledger.purgeDryRun } }

theorem SameButPurge.refl (t : TargetTable) : SameButPurge t t := rfl

theorem SameButPurge.trans {a b c : TargetTable} (hab : SameButPurge a b) (hbc : SameButPurge b c) :
    SameButPurge a c := by
  unfold SameButPurge at *
  rw [hbc, hab]

theorem SameButPurge.safe {t t' : TargetTable} (h : SameButPurge t t') :
    purgeSafe t' = purgeSafe t ∧ t'.ledger.validated = t.ledger.validated := by
  unfold SameButPurge at h
  rw [h]
  exact ⟨rfl, rfl⟩

/-- What PURGE has done since its guards. -/
structure Purging (w v : World) : Prop where
  frame : ∀ name, SameButPurge (w.target name) (v.target name)
  audited : ∀ name k, k ∈ (w.source name).audit → k ∈ (v.source name).audit

section

variable {D : Drift} {tables : List TableSpec} {table : String} {u v w : World}

theorem Purging.refl (w : World) : Purging w w := ⟨fun _ => .refl _, fun _ _ h => h⟩

theorem Purging.trans (first : Purging w v) (second : Purging v u) : Purging w u :=
  ⟨fun name => (first.frame name).trans (second.frame name),
    fun name k h => second.audited name k (first.audited name k h)⟩

theorem Purging.of_moves (moves : D.Moves w v) : Purging w v := by
  constructor
  · intro name
    rw [moves.target]
    exact .refl _
  · intro name k h
    rw [D.audit _ _ (moves.source name)]
    exact h

theorem Purging.onTarget {f : TargetTable → TargetTable} (frame : ∀ t, SameButPurge t (f t)) :
    Purging w (w.onTarget table f) := by
  constructor
  · intro name
    by_cases same : name = table
    · subst same
      rw [World.onTarget_self]
      exact frame _
    · rw [World.onTarget_other same]
      exact .refl _
  · exact fun _ _ h => h

theorem Purging.ledger {f : LedgerRow → LedgerRow} (frame : ∀ l, LedgerRow.SamePurged l (f l)) :
    Purging w (w.onTarget table fun t => t.onLedger f) := by
  apply Purging.onTarget
  intro t
  unfold SameButPurge TargetTable.onLedger
  exact congrArg (fun l => { t with ledger := l }) (frame _)

theorem Purging.agree (h : Purging w v) (agree : GuardsAgree tables w) : GuardsAgree tables v := by
  intro ts member role
  obtain ⟨safe, validated⟩ := (h.frame ts.name).safe
  rw [safe, validated]
  exact agree ts member role

theorem Purging.safe (h : Purging w v) (table : String) : purgeSafe (v.target table) = purgeSafe (w.target table) :=
  (h.frame table).safe.1

theorem mem_purged {t : TargetTable} {k : Key} : k ∈ purged t ↔ t.purgeAudit[k]? = some .purged := by
  unfold purged
  rw [KeyMap.mem_filter_keys]
  simp

theorem mem_purgeSafe {t : TargetTable} {k : Key} :
    k ∈ purgeSafe t ↔ ∃ v, t.validation[k]? = some v ∧ v.purgeSafe = true := by
  unfold purgeSafe
  rw [KeyMap.mem_filter_keys]

end

/-- The tables PURGE deletes from, children before parents. -/
def dataTables (tables : List TableSpec) : List TableSpec := (tables.filter fun ts => ts.role = .data).reverse

/-- The state in which the guards were passed, and what PURGE has done since. -/
structure Guarded (tables : List TableSpec) (w v : World) : Prop where
  agree : GuardsAgree tables w
  purging : Purging w v

theorem mem_dataTables {tables : List TableSpec} {ts : TableSpec} :
    ts ∈ dataTables tables ↔ ts ∈ tables ∧ ts.role = .data := by
  simp [dataTables]

section

variable {D : Drift} {F : Prop} {tables : List TableSpec} {batch : BatchConfig} {ts : TableSpec} {I : World → Prop}
  {w v : World} {keys chunk : List Key}

theorem Guarded.onward {u : World} (h : Guarded tables w v) (more : Purging v u) : Guarded tables w u :=
  ⟨h.agree, h.purging.trans more⟩

theorem Guarded.moves {u : World} (h : Guarded tables w v) (moves : D.Moves v u) : Guarded tables w u :=
  h.onward (.of_moves moves)

theorem Guarded.rebase (h : Guarded tables w v) : Guarded tables v v := ⟨h.purging.agree h.agree, .refl v⟩

theorem Guarded.still (h : Guarded tables w v) (safe : ∀ k ∈ keys, k ∈ purgeSafe (w.target ts.name)) :
    ∀ k ∈ keys, k ∈ purgeSafe (v.target ts.name) := by
  rw [h.purging.safe]
  exact safe

theorem keeps_insertPurgeAudit (stable : D.Stable I) (closed : ∀ u v, PurgeMove tables u v → I u → I v)
    (safe : ∀ k ∈ keys, k ∈ purgeSafe (w.target ts.name)) (hI : I v) (guarded : Guarded tables w v) :
    wp (D.weather F) (insertPurgeAudit ts.name keys)
      (.keeps I (fun _ => Guarded tables w) fun _ => Guarded tables w) v := by
  have after : ∀ u, D.Moves v u → Guarded tables w (u.onTarget ts.name fun t =>
      { t with purgeAudit := t.purgeAudit.addNew (keys.map fun k => (k, .intended)) }) :=
    fun u hu => (guarded.moves hu).onward (.onTarget fun _ => rfl)
  unfold insertPurgeAudit
  refine keeps_mono (keeps_write stable hI ?_ ?_) ?_ fun _ _ _ h => h
  · intro u hu hIu
    exact closed u _ (.intend ts keys ((guarded.moves hu).still safe)) hIu
  · intro u hu e
    exact ⟨guarded.moves hu, after u hu⟩
  · intro _ _ _ done
    obtain ⟨u, hu, rfl⟩ := done
    exact after u hu

/-- A status is written; PURGED only of keys that the source's own audit has. -/
theorem keeps_setPurgeAuditStatus (stable : D.Stable I) (closed : ∀ u v, PurgeMove tables u v → I u → I v)
    {status : PurgeStatus} (open_ : status ≠ .intended)
    (audited : status = .purged → ∀ k ∈ keys, k ∈ (v.source ts.name).audit) (hI : I v)
    (guarded : Guarded tables w v) :
    wp (D.weather F) (setPurgeAuditStatus ts.name keys status)
      (.keeps I (fun _ => Guarded tables w) fun _ => Guarded tables w) v := by
  have after : ∀ u, D.Moves v u → Guarded tables w (u.onTarget ts.name fun t =>
      { t with purgeAudit := t.purgeAudit.map fun k s => if k ∈ keys then status else s }) :=
    fun u hu => (guarded.moves hu).onward (.onTarget fun _ => rfl)
  unfold setPurgeAuditStatus
  split
  next => exact keeps_pure hI guarded
  next =>
    refine keeps_mono (keeps_write stable hI ?_ ?_) ?_ fun _ _ _ h => h
    · intro u hu hIu
      cases status with
      | intended => exact absurd rfl open_
      | rolledBack => exact closed u _ (.rolledBack ts keys) hIu
      | purged =>
        apply closed u _ (.purged ts keys ?_) hIu
        intro k hk
        rw [D.audit _ _ (hu.source ts.name)]
        exact audited rfl k hk
    · intro u hu e
      exact ⟨guarded.moves hu, after u hu⟩
    · intro _ _ _ done
      obtain ⟨u, hu, rfl⟩ := done
      exact after u hu

/-- The source deletes the keys of a batch and audits them, or does nothing. -/
theorem purgeBatch_step (closed : ∀ u v, PurgeMove tables u v → I u → I v) (member : ts ∈ tables)
    (role : ts.role = .data) (safe : ∀ k ∈ keys, k ∈ purgeSafe (w.target ts.name)) (batchNo : Nat) (hI : I v)
    (guarded : Guarded tables w v) :
    I ((purgeBatch tables ts keys batchNo).eval v).2 ∧
      Guarded tables w ((purgeBatch tables ts keys batchNo).eval v).2 ∧
      ∀ n, ((purgeBatch tables ts keys batchNo).eval v).1 = .ok n →
        ∀ k ∈ keys, k ∈ (((purgeBatch tables ts keys batchNo).eval v).2.source ts.name).audit := by
  unfold purgeBatch
  simp only [Prog.eval_attempt]
  split
  next => exact ⟨hI, guarded, fun _ h => by cases h⟩
  next fresh =>
    push Not at fresh
    split
    next => exact ⟨hI, guarded, fun _ h => by cases h⟩
    next free =>
      split
      next => exact ⟨hI, guarded, fun _ h => by cases h⟩
      next all =>
        have there : ∀ k ∈ keys, k ∈ (v.source ts.name).rows := by
          intro k hk
          have length : (keys.filter (v.source ts.name).rows.contains).length = keys.length := by simpa using all
          have every := List.length_filter_eq_length_iff.mp length k hk
          exact Std.ExtTreeMap.contains_iff_mem.mp every
        have new : ∀ k ∈ keys, k ∉ (v.source ts.name).audit := by
          intro k hk held
          apply fresh.1
          exact List.any_eq_true.mpr ⟨k, hk, Std.ExtTreeMap.contains_iff_mem.mpr held⟩
        have agree : GuardsAgree tables v := guarded.purging.agree guarded.agree
        refine ⟨closed v _ (.batch ts keys member role agree (guarded.still safe) new fresh.2
          (by simpa using free) there) hI, guarded.onward ⟨fun _ => .refl _, ?_⟩, ?_⟩
        · intro name k held
          by_cases same : name = ts.name
          · subst same
            rw [World.onSource_self]
            exact KeyMap.mem_addNew.mpr (Or.inl held)
          · rw [World.onSource_other same]
            exact held
        · intro _ _ k hk
          rw [World.onSource_self]
          apply KeyMap.mem_addNew.mpr
          right
          exact List.mem_map.mpr ⟨(k, ()), List.mem_map.mpr ⟨k, hk, rfl⟩, rfl⟩

theorem keeps_purgeBatch (stable : D.Stable I) (closed : ∀ u v, PurgeMove tables u v → I u → I v)
    (member : ts ∈ tables) (role : ts.role = .data) (safe : ∀ k ∈ keys, k ∈ purgeSafe (w.target ts.name))
    (batchNo : Nat) (hI : I v) (guarded : Guarded tables w v) :
    wp (D.weather F) (purgeBatch tables ts keys batchNo)
      (.keeps I (fun _ u => Guarded tables w u ∧ ∀ k ∈ keys, k ∈ (u.source ts.name).audit)
        fun _ => Guarded tables w) v := by
  have step := fun u hIu here => @purgeBatch_step tables ts I w u keys closed member role safe batchNo hIu here
  apply keeps_call (C := Guarded tables w)
  · exact fun u hu => ⟨stable v u hu hI, guarded.moves hu⟩
  · intro u hIu here
    obtain ⟨kept, after, audited⟩ := step u hIu here
    refine ⟨kept, ?_⟩
    split
    next n hn => exact ⟨after, audited n hn⟩
    next => exact after
  · intro _ u hIu here e
    exact ⟨here, (step u hIu here).2.1⟩

/-- A refused batch is marked ROLLED_BACK; then comes the retry, or the error. -/
theorem keeps_rolledBackBatch (stable : D.Stable I) (closed : ∀ u v, PurgeMove tables u v → I u → I v)
    {retry : JobError → Job Nat} (again : ∀ e u, I u → Guarded tables w u → wp (D.weather F) (retry e)
      (.keeps I (fun _ u => Guarded tables w u ∧ ∀ k ∈ chunk, k ∈ (u.source ts.name).audit)
        fun _ => Guarded tables w) u)
    (e : JobError) (hI : I v) (guarded : Guarded tables w v) :
    wp (D.weather F) (rolledBackBatch ts chunk retry e)
      (.keeps I (fun _ u => Guarded tables w u ∧ ∀ k ∈ chunk, k ∈ (u.source ts.name).audit)
        fun _ => Guarded tables w) v := by
  unfold rolledBackBatch
  by_cases ldm : e.isLdm
  · rw [if_pos ldm]
    apply keeps_bind (keeps_setPurgeAuditStatus stable closed (by decide) (fun purged => by cases purged) hI guarded)
    intro _ u hIu here
    by_cases transient : e.isTransient
    · rw [if_pos transient]
      exact again e u hIu here
    · rw [if_neg transient]
      exact keeps_throw hIu here
  · rw [if_neg ldm]
    exact keeps_throw hI guarded

theorem keeps_purgeAttempt (stable : D.Stable I) (closed : ∀ u v, PurgeMove tables u v → I u → I v)
    (member : ts ∈ tables) (role : ts.role = .data) (safe : ∀ k ∈ chunk, k ∈ purgeSafe (w.target ts.name))
    {retry : JobError → Job Nat} (again : ∀ e u, I u → Guarded tables w u → wp (D.weather F) (retry e)
      (.keeps I (fun _ u => Guarded tables w u ∧ ∀ k ∈ chunk, k ∈ (u.source ts.name).audit)
        fun _ => Guarded tables w) u)
    (batchNo : Nat) (hI : I v) (guarded : Guarded tables w v) :
    wp (D.weather F) (purgeAttempt tables ts chunk batchNo retry)
      (.keeps I (fun _ u => Guarded tables w u ∧ ∀ k ∈ chunk, k ∈ (u.source ts.name).audit)
        fun _ => Guarded tables w) v := by
  unfold purgeAttempt
  apply keeps_bind (keeps_insertPurgeAudit stable closed safe hI guarded)
  intro _ u hIu here
  apply keeps_tryCatch (keeps_purgeBatch stable closed member role safe batchNo hIu here)
  intro e u' hIu' here'
  exact keeps_rolledBackBatch stable closed again e hIu' here'

theorem keeps_purgeBatchWithRetry (stable : D.Stable I) (closed : ∀ u v, PurgeMove tables u v → I u → I v)
    (member : ts ∈ tables) (role : ts.role = .data) (safe : ∀ k ∈ chunk, k ∈ purgeSafe (w.target ts.name))
    (batchNo left : Nat) (hI : I v) (guarded : Guarded tables w v) :
    wp (D.weather F) (purgeBatchWithRetry tables ts chunk batchNo left)
      (.keeps I (fun _ u => Guarded tables w u ∧ ∀ k ∈ chunk, k ∈ (u.source ts.name).audit)
        fun _ => Guarded tables w) v := by
  induction left generalizing v with
  | zero =>
    unfold purgeBatchWithRetry
    apply keeps_purgeAttempt stable closed member role safe _ batchNo hI guarded
    exact fun _ _ hIu here => keeps_throw hIu here
  | succ left ih =>
    exact keeps_purgeAttempt stable closed member role safe (fun _ _ hIu here => ih hIu here) batchNo hI guarded

theorem keeps_countPurged (stable : D.Stable I) (closed : ∀ u v, PurgeMove tables u v → I u → I v) (hI : I v)
    (guarded : Guarded tables w v) :
    wp (D.weather F) (countPurged ts) (.keeps I (fun _ => Guarded tables w) fun _ => Guarded tables w) v := by
  have frame : ∀ (n : Nat) (l : LedgerRow), LedgerRow.SamePurged l { l with purged := some n } := fun _ _ => rfl
  unfold countPurged purgedKeys updateLedger
  apply keeps_bind (keeps_read stable hI fun _ u hu _ => guarded.moves hu)
  intro done u hIu here
  have guarded' := guarded.moves here.1
  apply keeps_bind (R := fun _ => Guarded tables w)
  · refine keeps_mono (keeps_write stable hIu ?_ ?_) ?_ fun _ _ _ h => h
    · exact fun v' _ hIv' => closed v' _ (.ledger ts _ (frame _)) hIv'
    · exact fun v' hv' _ => ⟨guarded'.moves hv', (guarded'.moves hv').onward (.ledger (frame _))⟩
    · intro _ _ _ done
      obtain ⟨v', hv', rfl⟩ := done
      exact (guarded'.moves hv').onward (.ledger (frame _))
  · exact fun _ _ hIv' here' => keeps_pure hIv' here'

/-- A batch that goes through is audited by the source. -/
theorem keeps_purgeChunk (stable : D.Stable I) (closed : ∀ u v, PurgeMove tables u v → I u → I v)
    (member : ts ∈ tables) (role : ts.role = .data) (safe : ∀ k ∈ chunk, k ∈ purgeSafe (w.target ts.name))
    (batchNo : Nat) (hI : I v) (guarded : Guarded tables w v) :
    wp (D.weather F) (purgeChunk tables batch ts chunk batchNo)
      (.keeps I (fun _ u => Guarded tables w u ∧ ∀ k ∈ chunk, k ∈ (u.source ts.name).audit)
        fun _ => Guarded tables w) v := by
  unfold purgeChunk
  apply keeps_bind (R := fun _ u => Guarded tables w u ∧ ∀ k ∈ chunk, k ∈ (u.source ts.name).audit)
  · apply keeps_tryCatch (keeps_purgeBatchWithRetry stable closed member role safe batchNo _ hI guarded)
    intro e u hIu here
    by_cases ldm : e.isLdm
    · rw [if_pos ldm]
      apply keeps_bind (keeps_countPurged stable closed hIu here)
      exact fun _ _ hIu' here' => keeps_throw hIu' here'
    · rw [if_neg ldm]
      exact keeps_throw hIu here
  · intro _ u hIu here
    apply keeps_mono (keeps_setPurgeAuditStatus stable closed (by decide) (fun _ => here.2) hIu here.1.rebase)
    · intro _ u' _ there
      exact ⟨here.1.onward there.purging, fun k hk => there.purging.audited ts.name k (here.2 k hk)⟩
    · exact fun _ u' _ there => here.1.onward there.purging

theorem keeps_purgeChunks (stable : D.Stable I) (closed : ∀ u v, PurgeMove tables u v → I u → I v)
    (member : ts ∈ tables) (role : ts.role = .data) {todo : List Key}
    (safe : ∀ k ∈ todo, k ∈ purgeSafe (w.target ts.name)) (budget batchNo : Nat) (hI : I v)
    (guarded : Guarded tables w v) :
    wp (D.weather F) (purgeChunks tables batch ts budget batchNo todo)
      (.keeps I (fun _ u => Guarded tables w u ∧
        (todo.length ≤ budget → ∀ k ∈ todo, k ∈ (u.source ts.name).audit)) fun _ => Guarded tables w) v := by
  induction budget generalizing w v batchNo todo with
  | zero =>
    refine keeps_pure hI ⟨guarded, ?_⟩
    intro short k hk
    rw [List.length_eq_zero_iff.mp (Nat.le_zero.mp short)] at hk
    cases hk
  | succ budget ih =>
    unfold purgeChunks
    split
    next empty =>
      refine keeps_pure hI ⟨guarded, ?_⟩
      intro _ k hk
      rw [List.isEmpty_iff.mp empty] at hk
      cases hk
    next =>
      have first : ∀ k ∈ todo.take batch.purgeBatchRows, k ∈ purgeSafe (w.target ts.name) :=
        fun k hk => safe k (List.mem_of_mem_take hk)
      have rest : ∀ k ∈ todo.drop batch.purgeBatchRows, k ∈ purgeSafe (w.target ts.name) :=
        fun k hk => safe k (List.mem_of_mem_drop hk)
      apply keeps_bind (keeps_purgeChunk stable closed member role first batchNo hI guarded)
      intro _ u hIu here
      apply keeps_mono (ih (here.1.still rest) (batchNo + 1) hIu here.1.rebase)
      · intro _ u' _ there
        refine ⟨here.1.onward there.1.purging, ?_⟩
        intro short k hk
        rw [← List.take_append_drop batch.purgeBatchRows todo] at hk
        rcases List.mem_append.mp hk with taken | dropped
        · exact there.1.purging.audited ts.name k (here.2 k taken)
        · apply there.2 _ k dropped
          have rows := batch.purgeBatchRows_pos
          rw [List.length_drop]
          omega
      · exact fun _ u' _ there => here.1.onward there.purging

/-- What the source has audited already is marked PURGED; the rest is left to do. -/
theorem keeps_recoverPurged (stable : D.Stable I) (closed : ∀ u v, PurgeMove tables u v → I u → I v)
    {todo : List Key} (safe : ∀ k ∈ todo, k ∈ purgeSafe (w.target ts.name)) (hI : I v)
    (guarded : Guarded tables w v) :
    wp (D.weather F) (recoverPurged ts todo)
      (.keeps I (fun left u => Guarded tables w u ∧ (∀ k ∈ left, k ∈ todo) ∧
        ∀ k ∈ todo, k ∈ left ∨ k ∈ (u.source ts.name).audit) fun _ => Guarded tables w) v := by
  unfold recoverPurged
  split
  next => exact keeps_pure hI ⟨guarded, fun _ h => h, fun _ h => Or.inl h⟩
  next =>
    unfold auditedKeys
    apply keeps_bind (keeps_query stable hI fun _ u hu _ => guarded.moves hu)
    intro committed u hIu found
    obtain ⟨moves, rfl⟩ := found
    have here := guarded.moves moves
    split
    next => exact keeps_pure hIu ⟨here, fun _ h => h, fun _ h => Or.inl h⟩
    next =>
      have recovered : ∀ k ∈ todo.filter (fun k => k ∈ todo.filter fun k => (u.source ts.name).audit.contains k),
          k ∈ todo ∧ k ∈ (u.source ts.name).audit := by
        intro k hk
        obtain ⟨listed, held⟩ := List.mem_filter.mp hk
        have audited := (List.mem_filter.mp (of_decide_eq_true held)).2
        exact ⟨listed, Std.ExtTreeMap.contains_iff_mem.mp audited⟩
      have open_ : ∀ k ∈ todo.filter (fun k => k ∈ todo.filter fun k => (u.source ts.name).audit.contains k),
          k ∈ purgeSafe (u.target ts.name) := here.still fun k hk => safe k (recovered k hk).1
      apply keeps_bind (R := fun _ u' => Guarded tables w u' ∧ Purging u u')
      · apply keeps_mono (keeps_insertPurgeAudit stable closed open_ hIu here.rebase)
        · exact fun _ u' _ there => ⟨here.onward there.purging, there.purging⟩
        · exact fun _ u' _ there => here.onward there.purging
      · intro _ u' hIu' there
        apply keeps_bind (R := fun _ v' => Guarded tables w v' ∧ Purging u v')
        · apply keeps_mono (keeps_setPurgeAuditStatus stable closed (by decide) ?_ hIu' there.1.rebase)
          · exact fun _ v' _ done => ⟨there.1.onward done.purging, there.2.trans done.purging⟩
          · exact fun _ v' _ done => there.1.onward done.purging
          -- what the source has audited stays audited
          · exact fun _ k hk => there.2.audited ts.name k (recovered k hk).2
        · intro _ v' hIv' done
          refine keeps_pure hIv' ⟨done.1, fun k hk => (List.mem_filter.mp hk).1, ?_⟩
          intro k hk
          by_cases audited : k ∈ todo.filter fun k => (u.source ts.name).audit.contains k
          · have held := Std.ExtTreeMap.contains_iff_mem.mp (List.mem_filter.mp audited).2
            exact Or.inr (done.2.audited ts.name k held)
          · exact Or.inl (List.mem_filter.mpr ⟨hk, decide_eq_true audited⟩)

/-- When the batches of a table are through, every key is audited by the source, if what was PURGED before is. -/
theorem keeps_purgeKeys (stable : D.Stable I) (closed : ∀ u v, PurgeMove tables u v → I u → I v)
    (member : ts ∈ tables) (role : ts.role = .data) (safe : ∀ k ∈ keys, k ∈ purgeSafe (w.target ts.name)) (hI : I v)
    (guarded : Guarded tables w v) :
    wp (D.weather F) (purgeKeys tables batch ts keys)
      (.keeps I (fun _ u => Guarded tables w u ∧
        ∀ k ∈ keys, k ∈ purged (v.target ts.name) ∨ k ∈ (u.source ts.name).audit) fun _ => Guarded tables w) v := by
  unfold purgeKeys purgedKeys
  apply keeps_bind (keeps_read stable hI fun _ u hu _ => guarded.moves hu)
  intro already u hIu found
  obtain ⟨moves, rfl⟩ := found
  have open_ : ∀ k ∈ keys.filter (fun k => k ∉ purged (v.target ts.name)), k ∈ purgeSafe (w.target ts.name) :=
    fun k hk => safe k (List.mem_filter.mp hk).1
  apply keeps_bind (keeps_recoverPurged stable closed open_ hIu (guarded.moves moves))
  intro todo u₁ hI₁ left
  obtain ⟨here₁, within, covered⟩ := left
  apply keeps_bind (R := fun _ u₂ => Guarded tables w u₂ ∧ Purging u₁ u₂ ∧ ∀ k ∈ todo, k ∈ (u₂.source ts.name).audit)
  · apply keeps_mono (keeps_purgeChunks stable closed member role
      (here₁.still fun k hk => open_ k (within k hk)) _ 1 hI₁ here₁.rebase)
    · exact fun _ u₂ _ there => ⟨here₁.onward there.1.purging, there.1.purging, there.2 (Nat.le_refl _)⟩
    · exact fun _ u₂ _ there => here₁.onward there.purging
  · intro _ u₂ hI₂ done
    obtain ⟨here₂, since, audited⟩ := done
    apply keeps_mono (keeps_countPurged stable closed hI₂ here₂.rebase)
    · intro _ u₃ _ there
      refine ⟨here₂.onward there.purging, ?_⟩
      intro k hk
      by_cases before : k ∈ purged (v.target ts.name)
      · exact Or.inl before
      · right
        apply there.purging.audited ts.name k
        rcases covered k (List.mem_filter.mpr ⟨hk, decide_eq_true before⟩) with waits | committed
        · exact audited k waits
        · exact since.audited ts.name k committed
    · exact fun _ u₃ _ there => here₂.onward there.purging

theorem keeps_purgeTable (stable : D.Stable I) (closed : ∀ u v, PurgeMove tables u v → I u → I v) (purge : Bool)
    (member : ts ∈ tables) (role : ts.role = .data) (safe : ∀ k ∈ keys, k ∈ purgeSafe (w.target ts.name))
    (validated : Nat) (hI : I v) (guarded : Guarded tables w v) :
    wp (D.weather F) (purgeTable purge tables batch ts keys validated)
      (.keep I fun _ u => Guarded tables w u ∧
        (purge = true → ∀ k ∈ keys, k ∈ purged (v.target ts.name) ∨ k ∈ (u.source ts.name).audit)) v := by
  unfold purgeTable
  by_cases enabled : purge = true
  · rw [if_pos enabled]
    have whole := @keeps_purgeKeys D F tables batch ts I w v keys stable closed member role safe hI guarded
    apply keeps_bind (keeps_mono whole (fun _ _ _ h => h) fun _ _ _ _ => trivial)
    intro purged u hIu here
    split
    next => exact keeps_throw hIu trivial
    next => exact keeps_pure hIu ⟨here.1, fun _ => here.2⟩
  · rw [if_neg enabled]
    have frame : ∀ l : LedgerRow, LedgerRow.SamePurged l { l with purged := some 0 } := fun _ => rfl
    unfold updateLedger
    apply keep_mono (keep_write stable hI ?_)
    · intro _ _ _ done
      obtain ⟨u, hu, rfl⟩ := done
      exact ⟨(guarded.moves hu).onward (.ledger frame), fun h => absurd h enabled⟩
    · exact fun u _ hIu => closed u _ (.ledger ts _ frame) hIu

/-- A guard that lets its table pass has as many purge_safe keys as the ledger has validated. -/
theorem keep_guard (stable : D.Stable I) (closed : ∀ u v, PurgeMove tables u v → I u → I v) (purge : Bool) (hI : I v) :
    wp (D.weather F) (guard purge ts) (.keep I fun passed u => Purging v u ∧
      passed.1 = purgeSafe (v.target ts.name) ∧ (v.target ts.name).ledger.validated = some passed.1.length) v := by
  unfold guard purgeSafeKeys getLedger updateLedger
  apply keeps_bind (keep_read stable hI)
  intro keys u₁ hI₁ found
  obtain ⟨moves₁, rfl⟩ := found
  apply keeps_bind (keep_read stable hI₁)
  intro ledger u₂ hI₂ found
  obtain ⟨moves₂, rfl⟩ := found
  have frame : ∀ l : LedgerRow, LedgerRow.SamePurged l
      { l with purgeIntended := some (purgeSafe (v.target ts.name)).length, purgeDryRun := some !purge } := fun _ => rfl
  apply keeps_bind (keep_write stable hI₂ fun u _ hIu => closed u _ (.ledger ts _ frame) hIu)
  intro _ _ hI₃ done
  obtain ⟨u₃, moves₃, rfl⟩ := done
  split
  next => exact keeps_throw hI₃ trivial
  next agree =>
    rw [moves₁.target, not_not] at agree
    refine keeps_pure hI₃ ⟨?_, rfl, agree⟩
    exact (Purging.of_moves (moves₁.trans (moves₂.trans moves₃))).trans (.ledger frame)

theorem keep_skipReference (stable : D.Stable I) (closed : ∀ u v, PurgeMove tables u v → I u → I v) (purge : Bool)
    (ts : TableSpec) (hI : I v) : wp (D.weather F) (skipReference purge ts) (.keep I fun _ _ => True) v := by
  have frame : ∀ l : LedgerRow, LedgerRow.SamePurged l
      { l with purgeIntended := some 0, purged := some 0, purgeDryRun := some !purge } := fun _ => rfl
  unfold skipReference updateLedger
  split
  next => exact keeps_pure hI trivial
  next =>
    apply keep_mono (keep_write stable hI fun u _ hIu => closed u _ (.ledger ts _ frame) hIu)
    exact fun _ _ _ _ => trivial

/-- What the guards of some tables found. -/
structure Agreed (v : World) (passed : List TableSpec) (found : List (List Key × Nat)) : Prop where
  found : found.map Prod.fst = passed.map fun ts => purgeSafe (v.target ts.name)
  validated : ∀ ts ∈ passed, (v.target ts.name).ledger.validated = some (purgeSafe (v.target ts.name)).length

theorem Agreed.onward {u : World} {passed : List TableSpec} {found : List (List Key × Nat)} (h : Agreed v passed found)
    (purging : Purging v u) : Agreed u passed found := by
  constructor
  · rw [h.found]
    apply List.map_congr_left
    intro ts _
    rw [purging.safe]
  · intro ts hts
    obtain ⟨safe, validated⟩ := (purging.frame ts.name).safe
    rw [safe, validated]
    exact h.validated ts hts

theorem Agreed.add {passed : List TableSpec} {found : List (List Key × Nat)} (h : Agreed v passed found)
    {keys : List Key} {n : Nat} (safe : keys = purgeSafe (v.target ts.name))
    (validated : (v.target ts.name).ledger.validated = some keys.length) :
    Agreed v (passed ++ [ts]) (found ++ [(keys, n)]) := by
  subst safe
  constructor
  · rw [List.map_append, List.map_append, h.found]
    rfl
  · intro ts' hts
    rcases List.mem_append.mp hts with old | new
    · exact h.validated ts' old
    · rw [List.mem_singleton.mp new]
      exact validated

theorem Agreed.guarded {found : List (List Key × Nat)} (h : Agreed v (dataTables tables) found) : Guarded tables v v := by
  refine ⟨?_, .refl v⟩
  intro ts member role
  exact h.validated ts (mem_dataTables.mpr ⟨member, role⟩)

/-- Each guarded table comes with its own keys. -/
theorem Agreed.keys_of {passed : List TableSpec} {found : List (List Key × Nat)} (h : Agreed v passed found)
    {g : TableSpec × List Key × Nat} (hg : g ∈ passed.zip found) :
    g.1 ∈ passed ∧ g.2.1 = purgeSafe (v.target g.1.name) := by
  obtain ⟨i, hi⟩ := List.mem_iff_getElem?.mp hg
  obtain ⟨first, second⟩ := List.getElem?_zip_eq_some.mp hi
  refine ⟨List.mem_of_getElem? first, ?_⟩
  have left : (found.map Prod.fst)[i]? = some g.2.1 := by rw [List.getElem?_map, second]; rfl
  have right : (passed.map fun ts => purgeSafe (v.target ts.name))[i]? = some (purgeSafe (v.target g.1.name)) := by
    rw [List.getElem?_map, first]
    rfl
  rw [h.found, right] at left
  exact (Option.some.inj left).symm

theorem keep_skipReferences (stable : D.Stable I) (closed : ∀ u v, PurgeMove tables u v → I u → I v) (purge : Bool)
    (hI : I w) : wp (D.weather F) (tables.forM (skipReference purge)) (.keep I fun _ _ => True) w := by
  apply keeps_forM (J := fun _ _ => True)
  · exact fun ts _ u _ hIu _ => keep_skipReference stable closed purge ts hIu
  · exact fun _ _ _ => trivial
  · exact hI
  · trivial

/-- All guards, before the first batch. -/
theorem keep_guards (stable : D.Stable I) (closed : ∀ u v, PurgeMove tables u v → I u → I v) (purge : Bool)
    (hI : I w) :
    wp (D.weather F) ((dataTables tables).mapM fun ts => logged (guard purge ts))
      (.keep I fun found u => Agreed u (dataTables tables) found) w := by
  apply keeps_mapM (J := fun rest found u => ∃ passed, dataTables tables = passed ++ rest ∧ Agreed u passed found)
  · intro ts rest found u _ hIu so
    obtain ⟨passed, split, agreed⟩ := so
    apply keep_mono (R := fun result u' => Purging u u' ∧ result.1 = purgeSafe (u.target ts.name) ∧
      (u.target ts.name).ledger.validated = some result.1.length)
    · apply keep_logged stable hIu
      · intro u₁ moves hI₁
        apply keep_mono (keep_guard stable closed purge hI₁)
        intro result u₂ _ done
        obtain ⟨purging, safe, validated⟩ := done
        rw [moves.target] at safe validated
        exact ⟨(Purging.of_moves moves).trans purging, safe, validated⟩
      · intro result u₁ u₂ moves done
        exact ⟨done.1.trans (.of_moves moves), done.2⟩
    · intro result u' _ done
      obtain ⟨purging, safe, validated⟩ := done
      refine ⟨passed ++ [ts], by rw [split, List.append_assoc]; rfl, ?_⟩
      exact (agreed.add safe validated).onward purging
  · intro found u _ so
    obtain ⟨passed, split, agreed⟩ := so
    rw [List.append_nil] at split
    rw [split]
    exact agreed
  · exact hI
  · exact ⟨[], rfl, rfl, fun _ h => by cases h⟩

/-- The driver calls of PURGE are its moves. -/
theorem keep_purgeStage (stable : D.Stable I) (closed : ∀ u v, PurgeMove tables u v → I u → I v) (purge : Bool)
    (hI : I w) : wp (D.weather F) (purgeStage purge batch tables) (.keep I fun _ _ => True) w := by
  unfold purgeStage
  apply keeps_bind (keep_skipReferences stable closed purge hI)
  intro _ v hIv _
  apply keeps_bind (keep_guards stable closed purge hIv)
  intro found v' hIv' agreed
  apply keeps_forM (J := fun _ u => Guarded tables v' u)
  · intro g rest u there hIu here
    obtain ⟨before, split⟩ := there
    have listed : g ∈ (dataTables tables).zip found := by
      change g ∈ (tables.filter fun ts => ts.role = .data).reverse.zip found
      rw [split]
      exact List.mem_append_right _ (List.mem_cons_self ..)
    obtain ⟨data, own⟩ := agreed.keys_of listed
    obtain ⟨member, role⟩ := mem_dataTables.mp data
    apply keep_logged stable hIu
    · intro u₁ moves hI₁
      apply keep_mono (keeps_purgeTable stable closed purge member role (fun k hk => own ▸ hk) _ hI₁ (here.moves moves))
      exact fun _ _ _ done => done.1
    · exact fun _ _ _ moves done => done.moves moves
  · exact fun _ _ _ => trivial
  · exact hIv'
  · exact agreed.guarded

end

end OtterWorks.Migration
