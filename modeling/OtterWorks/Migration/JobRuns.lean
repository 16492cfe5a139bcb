import OtterWorks.Migration.ExtractMoves
import OtterWorks.Migration.LoadTable
import OtterWorks.Migration.PurgeRuns
import OtterWorks.Migration.ValidateTable

namespace OtterWorks.Migration

/-- Every table's ledger row closes. -/
def Closes (purge : Bool) (tables : List TableSpec) (w : World) : Prop :=
  ∀ ts ∈ tables, tableCloses ts (w.target ts.name).ledger purge = true

/-- What the driver calls around the stages, and those of RECONCILE, change. -/
inductive RunMove (m : Manifest) (w : World) : World → Prop
  | begin (absent : w.runRow = none) : RunMove m w { w with runRow := some ⟨.running, m.sha256⟩ }
  | status (st : RunStatus) (closes : st = .closed → Closes m.purge m.tablesInOrder w) :
      RunMove m w { w with runRow := w.runRow.map fun row => { row with status := st } }
  | dropStaging (ts : TableSpec) (member : ts ∈ m.tables) (closes : Closes m.purge m.tablesInOrder w) :
      RunMove m w (w.onTarget ts.name fun t => { t with staging := ∅ })

theorem mem_tablesInOrder {m : Manifest} {ts : TableSpec} : ts ∈ m.tablesInOrder ↔ ts ∈ m.tables := by
  unfold Manifest.tablesInOrder
  exact List.mem_insertionSort _

/-- The run row aside, only the source drifts. -/
structure SameTables (D : Drift) (w v : World) : Prop where
  target : v.target = w.target
  source : ∀ name, D.rel (w.source name) (v.source name)

section

variable {D : Drift} {F : Prop} {m : Manifest} {I : World → Prop} {u v w : World}

theorem SameTables.of_moves (moves : D.Moves w v) : SameTables D w v := ⟨moves.target, moves.source⟩

theorem SameTables.trans (first : SameTables D w v) (second : SameTables D v u) : SameTables D w u :=
  ⟨second.target.trans first.target, fun name => D.trans _ _ _ (first.source name) (second.source name)⟩

theorem SameTables.runRow (same : SameTables D w v) (row : Option RunRow) : SameTables D w { v with runRow := row } :=
  ⟨same.target, same.source⟩

theorem Closes.same {purge : Bool} {tables : List TableSpec} (same : SameTables D w v) (h : Closes purge tables w) :
    Closes purge tables v := by
  intro ts member
  rw [same.target]
  exact h ts member

theorem keep_setRunStatus (stable : D.Stable I) (closed : ∀ u v, RunMove m u v → I u → I v) {st : RunStatus}
    (closes : st = .closed → Closes m.purge m.tablesInOrder w) (hI : I w) :
    wp (D.weather F) (setRunStatus st) (.keep I fun _ v => SameTables D w v) w := by
  apply keeps_call (C := fun u => D.Moves w u)
  · exact fun u hu => ⟨stable w u hu hI, hu⟩
  · intro u hIu moves
    have same := SameTables.of_moves moves
    exact ⟨closed u _ (.status st fun here => (closes here).same same) hIu, same.runRow _⟩
  · exact fun _ _ _ _ _ => ⟨trivial, trivial⟩

theorem keep_ensureRun (stable : D.Stable I) (closed : ∀ u v, RunMove m u v → I u → I v) (hI : I w) :
    wp (D.weather F) (ensureRun m.sha256) (.keep I fun _ v => SameTables D w v) w := by
  apply keeps_call (C := fun u => D.Moves w u)
  · exact fun u hu => ⟨stable w u hu hI, hu⟩
  · intro u hIu moves
    have same := SameTables.of_moves moves
    cases absent : u.runRow with
    | some row => exact ⟨hIu, same⟩
    | none => exact ⟨closed u _ (.begin absent) hIu, same.runRow _⟩
  · exact fun _ _ _ _ _ => ⟨trivial, trivial⟩

theorem keep_resumeRun (stable : D.Stable I) (closed : ∀ u v, RunMove m u v → I u → I v) (status : Option RunStatus)
    (hI : I w) : wp (D.weather F) (resumeRun status) (.keep I fun _ v => SameTables D w v) w := by
  unfold resumeRun
  split
  next => exact keeps_throw hI trivial
  next =>
    split
    next => exact keep_setRunStatus stable closed (fun h => by cases h) hI
    next => exact keeps_pure hI (.of_moves (.refl D w))

/-- Before the stages only the run row changes. -/
theorem keep_prepareRun (stable : D.Stable I) (closed : ∀ u v, RunMove m u v → I u → I v) (hI : I w) :
    wp (D.weather F) (prepareRun m) (.keep I fun _ v => SameTables D w v) w := by
  unfold prepareRun
  apply keeps_bind (keep_touch stable hI)
  intro _ v₁ hI₁ moves₁
  apply keeps_bind (keep_ensureRun stable closed hI₁)
  intro recorded v₂ hI₂ same₂
  have same : SameTables D w v₂ := (SameTables.of_moves moves₁).trans same₂
  apply keeps_bind (R := fun _ v => SameTables D w v)
  · unfold checkManifest
    split
    next => exact keeps_pure hI₂ same
    next => exact keeps_throw hI₂ trivial
  · intro _ v₃ hI₃ same₃
    apply keeps_bind (keep_touch stable hI₃)
    intro _ v₄ hI₄ moves₄
    apply keeps_bind (keep_touch stable hI₄)
    intro _ v₅ hI₅ moves₅
    unfold getRunStatus
    apply keeps_bind (keep_query stable hI₅)
    intro status v₆ hI₆ found
    have same₆ := same₃.trans (.of_moves (moves₄.trans (moves₅.trans found.1)))
    apply keep_mono (keep_resumeRun stable closed status hI₆)
    exact fun _ v₇ _ same₇ => same₆.trans same₇

theorem keep_markFailed (stable : D.Stable I) (closed : ∀ u v, RunMove m u v → I u → I v) (hI : I w) :
    wp (D.weather F) markFailed (.keep I fun _ _ => True) w := by
  unfold markFailed
  apply keeps_tryCatch (G := fun _ _ => True)
  · unfold getRunStatus
    apply keeps_bind (keep_query stable hI)
    intro status v hIv _
    split
    next =>
      apply keep_mono (keep_setRunStatus stable closed (fun h => by cases h) hIv)
      exact fun _ _ _ _ => trivial
    next => exact keeps_pure hIv trivial
  · exact fun _ _ hIv _ => keeps_pure hIv trivial

/-- An execution keeps what the run row's changes and its stages keep. -/
theorem keep_execute (stable : D.Stable I) (closed : ∀ u v, RunMove m u v → I u → I v) {schedule : Schedule}
    {verb : Verb} (stages : ∀ v, SameTables D w v → I v →
      wp (D.weather F) (verb.stages.forM (runStage m schedule)) (.keep I fun _ _ => True) v)
    (hI : I w) : wp (D.weather F) (execute m schedule verb) (.keep I fun _ _ => True) w := by
  have rest : ∀ v, D.Moves w v → I v → wp (D.weather F) (do
      touch
      prepareRun m
      verb.stages.forM (runStage m schedule)
      pure 0) (.keep I fun _ _ => True) v := by
    intro v₁ moves₁ hI₁
    apply keeps_bind (keep_touch stable hI₁)
    intro _ v₂ hI₂ moves₂
    apply keeps_bind (keep_prepareRun stable closed hI₂)
    intro _ v₃ hI₃ same₃
    have same : SameTables D w v₃ := (SameTables.of_moves (moves₁.trans moves₂)).trans same₃
    apply keeps_bind (stages v₃ same hI₃)
    exact fun _ _ hI₄ _ => keeps_pure hI₄ trivial
  unfold execute
  apply keeps_tryCatch (G := fun _ _ => True)
  · unfold runVerb
    dsimp only
    split
    next =>
      apply keeps_bind (keep_touch stable hI)
      exact fun _ v hIv moves => rest v moves hIv
    next => exact rest w (.refl D w) hI
  · intro e v hIv _
    unfold exitWith
    dsimp only
    split
    next => exact keeps_pure hIv trivial
    next =>
      apply keeps_bind (keep_markFailed stable closed hIv)
      exact fun _ _ hI' _ => keeps_pure hI' trivial

/-! RECONCILE. -/

theorem keep_deleteStagingRun (stable : D.Stable I) (closed : ∀ u v, RunMove m u v → I u → I v) {closes : Bool}
    (all : closes = true → Closes m.purge m.tablesInOrder w) (hI : I w) :
    wp (D.weather F) (deleteStagingRun closes m.tablesInOrder) (.keep I fun _ v =>
      closes = true → Closes m.purge m.tablesInOrder v) w := by
  unfold deleteStagingRun
  cases closes with
  | false => exact keeps_pure hI fun h => by cases h
  | true =>
    rw [if_pos rfl]
    apply keeps_forM (J := fun _ v => Closes m.purge m.tablesInOrder v)
    · intro ts rest v there hIv closes
      obtain ⟨before, split⟩ := there
      have member : ts ∈ m.tables := by
        rw [← mem_tablesInOrder, split]
        exact List.mem_append_right _ (List.mem_cons_self ..)
      unfold deleteStagingTable
      apply keep_mono (keep_write stable hIv ?_)
      · intro _ _ _ done
        obtain ⟨u, moves, rfl⟩ := done
        intro ts' member'
        have ledger : ((u.onTarget ts.name fun t => { t with staging := ∅ }).target ts'.name).ledger =
            (v.target ts'.name).ledger := by
          rw [← moves.target]
          by_cases same : ts'.name = ts.name
          · rw [same, World.onTarget_self]
          · rw [World.onTarget_other same]
        rw [ledger]
        exact closes ts' member'
      · intro u moves hIu
        exact closed u _ (.dropStaging ts member (closes.same (.of_moves moves))) hIu
    · exact fun v _ closes _ => closes
    · exact hI
    · exact all rfl

/-- RECONCILE empties the staging area and closes the run only if every ledger row closes. -/
theorem keep_reconcileStage (stable : D.Stable I) (closed : ∀ u v, RunMove m u v → I u → I v) (hI : I w) :
    wp (D.weather F) (reconcileStage m.purge m.tablesInOrder) (.keep I fun _ _ => True) w := by
  unfold reconcileStage
  apply keeps_bind (R := fun _ _ => True)
  · apply keep_logged stable hI
    · intro v₀ _ hI₀
      unfold reconcileBody
      apply keeps_bind (keep_touch stable hI₀)
      intro _ v₁ hI₁ _
      apply keeps_bind (keep_touch stable hI₁)
      intro _ v₂ hI₂ _
      apply keeps_bind (keep_touch stable hI₂)
      intro _ v₃ hI₃ _
      apply keeps_bind (keep_query stable hI₃)
      intro rows v₄ hI₄ found
      obtain ⟨_, rfl⟩ := found
      apply keeps_bind (keep_touch stable hI₄)
      intro _ v₅ hI₅ moves₅
      apply keeps_bind (keep_touch stable hI₅)
      intro _ v₆ hI₆ moves₆
      have all : (m.tablesInOrder.map fun ts => (ts, (v₄.target ts.name).ledger)).all
          (fun r => tableCloses r.1 r.2 m.purge) = true → Closes m.purge m.tablesInOrder v₆ := by
        intro h ts member
        have every := List.all_eq_true.mp h (ts, (v₄.target ts.name).ledger) (List.mem_map.mpr ⟨ts, member, rfl⟩)
        rw [(moves₅.trans moves₆).target]
        exact every
      apply keeps_bind (keep_deleteStagingRun stable closed all hI₆)
      intro _ v₇ hI₇ closes
      apply keeps_bind (R := fun _ _ => True)
      · apply keep_mono (keep_setRunStatus stable closed ?_ hI₇)
        · exact fun _ _ _ _ => trivial
        · intro h
          split at h
          next yes => exact closes yes
          next => cases h
      · exact fun _ _ hI' _ => keeps_pure hI' trivial
    · exact fun _ _ _ _ _ => trivial
  · intro closes v hIv _
    split
    next => exact keeps_pure hIv trivial
    next => exact keeps_throw hIv trivial

end

/-- A driver call of any stage but PURGE, or around the stages. -/
inductive StageMove (D : Drift) (m : Manifest) (w v : World) : Prop
  | extract (ts : TableSpec) (member : ts ∈ m.tables) (move : ExtractMove D m.batch ts w v) : StageMove D m w v
  | load (ts : TableSpec) (member : ts ∈ m.tables) (move : LoadMove ts w v) : StageMove D m w v
  | validate (ts : TableSpec) (member : ts ∈ m.tables) (move : ValidateMove ts w v) : StageMove D m w v
  | run (move : RunMove m w v) : StageMove D m w v

/-- What the stages rely on of a table. -/
structure TableOk (ts : TableSpec) (t : TargetTable) : Prop where
  numbered : InOrder t.ranges
  keys : KeysOk t
  converted : ∀ (k : Key) (row : StagedRow), t.staging[k]? = some row → Converted ts row

/-- Every key that may be purged has been through a promotion. -/
def Promoted (m : Manifest) (w : World) : Prop :=
  ∀ ts ∈ m.tables, ts.role = .data → ∀ k ∈ purgeSafe (w.target ts.name), k ∈ (w.target ts.name).promoted

/-- PURGE may start: some guard disagrees, or every key that may be purged has been through a promotion. -/
def Ready (m : Manifest) (w : World) : Prop := GuardsAgree m.tables w → Promoted m w

/-- An invariant of the job: every move keeps it, PURGE's where it may start. -/
structure Kept (D : Drift) (m : Manifest) (I : World → Prop) : Prop where
  stable : D.Stable I
  ok : ∀ w, I w → ∀ ts ∈ m.tables, TableOk ts (w.target ts.name)
  stage : ∀ u v, StageMove D m u v → I u → I v
  purge : ∀ u v, PurgeMove m.tablesInOrder u v → Ready m u → I u → I v

section

variable {D : Drift} {F : Prop} {m : Manifest} {I : World → Prop} {u v w : World}

theorem tablesInOrder_names (m : Manifest) : (m.tablesInOrder.map TableSpec.name).Nodup :=
  ((List.perm_insertionSort _ _).map _).nodup_iff.mpr m.names_nodup

/-- The tables of a stage one after another: what holds of one when it ends still holds when all have. -/
theorem keep_tables {M : TableSpec → World → World → Prop} {body : TableSpec → Job Unit}
    {P : TableSpec → TargetTable → Prop} {tables : List TableSpec} (names : (tables.map TableSpec.name).Nodup)
    (own : ∀ ts u v, M ts u v → ∀ name, name ≠ ts.name → v.target name = u.target name) (stable : D.Stable I)
    (closed : ∀ ts ∈ tables, ∀ u v, M ts u v → I u → I v)
    (each : ∀ ts ∈ tables, ∀ J : World → Prop, D.Stable J → (∀ u v, M ts u v → J u → J v) → (∀ u, J u → I u) →
      ∀ v, J v → wp (D.weather F) (body ts) (.keep J fun _ u => P ts (u.target ts.name)) v)
    (hI : I w) :
    wp (D.weather F) (tables.forM fun ts => logged (body ts))
      (.keep I fun _ v => ∀ ts ∈ tables, P ts (v.target ts.name)) w := by
  apply keeps_forM (J := fun rest v => ∃ done, tables = done ++ rest ∧ ∀ ts ∈ done, P ts (v.target ts.name))
  · intro ts rest v _ hIv so
    obtain ⟨done, split, ended⟩ := so
    have member : ts ∈ tables := by
      rw [split]
      exact List.mem_append_right _ (List.mem_cons_self ..)
    have apart : ∀ ts' ∈ done, ts'.name ≠ ts.name := by
      intro ts' hts same
      rw [split, List.map_append, List.map_cons, List.nodup_append] at names
      exact names.2.2 _ (List.mem_map.mpr ⟨ts', hts, rfl⟩) _ (List.mem_cons_self ..) same
    let J : World → Prop := fun v => I v ∧ ∀ ts' ∈ done, P ts' (v.target ts'.name)
    have stableJ : D.Stable J := by
      intro a b moves h
      refine ⟨stable a b moves h.1, ?_⟩
      rw [moves.target]
      exact h.2
    have closedJ : ∀ a b, M ts a b → J a → J b := by
      intro a b move h
      refine ⟨closed ts member a b move h.1, ?_⟩
      intro ts' hts
      rw [own ts a b move _ (apart ts' hts)]
      exact h.2 ts' hts
    have whole : wp (D.weather F) (logged (body ts)) (.keep J fun _ u => P ts (u.target ts.name)) v := by
      apply keep_logged stableJ ⟨hIv, ended⟩
      · exact fun u _ hu => each ts member J stableJ closedJ (fun _ h => h.1) u hu
      · intro _ a b moves h
        rw [moves.target]
        exact h
    refine wp_mono whole ?_ (fun _ _ h => ⟨h.1.1, trivial⟩) fun _ h => h.1
    intro _ u h
    refine ⟨h.1.1, done ++ [ts], by rw [split, List.append_assoc]; rfl, ?_⟩
    intro ts' hts
    rcases List.mem_append.mp hts with old | new
    · exact h.1.2 ts' old
    · rw [List.mem_singleton.mp new]
      exact h.2
  · intro v _ so
    obtain ⟨done, split, ended⟩ := so
    rw [List.append_nil] at split
    rw [split]
    exact ended
  · exact hI
  · exact ⟨[], rfl, fun _ h => by cases h⟩

theorem ExtractMove.own {batch : BatchConfig} {ts : TableSpec} (move : ExtractMove D batch ts u v) (name : String)
    (other : name ≠ ts.name) : v.target name = u.target name := by
  cases move with
  | fetch => rfl
  | _ => exact World.onTarget_other other

theorem LoadMove.own {ts : TableSpec} (move : LoadMove ts u v) (name : String) (other : name ≠ ts.name) :
    v.target name = u.target name := by
  cases move with
  | _ => exact World.onTarget_other other

theorem ValidateMove.own {ts : TableSpec} (move : ValidateMove ts u v) (name : String) (other : name ≠ ts.name) :
    v.target name = u.target name := by
  cases move with
  | _ => exact World.onTarget_other other

theorem keep_extract (kept : Kept D m I) (hI : I w) :
    wp (D.weather F) (extract m.batch m.tablesInOrder)
      (.keep I fun _ v => ∀ ts ∈ m.tablesInOrder, AllExtracted (v.target ts.name)) w := by
  apply keep_tables (M := ExtractMove D m.batch) (P := fun _ t => AllExtracted t) (tablesInOrder_names m)
  · exact fun _ _ _ move => move.own
  · exact kept.stable
  · exact fun ts member u v move hIu => kept.stage u v (.extract ts (mem_tablesInOrder.mp member) move) hIu
  · intro ts member J stable closed below v hJ
    have numbered : ∀ u, J u → InOrder (u.target ts.name).ranges := fun u hu =>
      (kept.ok u (below u hu) ts (mem_tablesInOrder.mp member)).numbered
    exact keep_mono (keep_extractTable stable closed numbered hJ) fun _ _ _ ended => ended.1
  · exact hI

theorem keep_load (kept : Kept D m I) (schedule : Schedule) (hI : I w) :
    wp (D.weather F) (load (m.engine schedule) m.batch m.tablesInOrder)
      (.keep I fun _ v => ∀ ts ∈ m.tablesInOrder, Loaded (v.target ts.name)) w := by
  apply keep_tables (M := LoadMove) (P := fun _ t => Loaded t) (tablesInOrder_names m)
  · exact fun _ _ _ move => move.own
  · exact kept.stable
  · exact fun ts member u v move hIu => kept.stage u v (.load ts (mem_tablesInOrder.mp member) move) hIu
  · intro ts member J stable closed below v hJ
    have numbered : ∀ u, J u → InOrder (u.target ts.name).ranges := fun u hu =>
      (kept.ok u (below u hu) ts (mem_tablesInOrder.mp member)).numbered
    exact keep_loadTable (m.engine_sized schedule) stable closed numbered hJ
  · exact hI

theorem TableSpec.lookup_keys (kept : Kept D m I) {ts : TableSpec} (member : ts ∈ m.tables) (hI : I w)
    (res : SourceClassResolution) (hres : ts.classTotals.bind ClassTotals.sourceClassResolution = some res) :
    KeysOk (w.target res.lookupTable) := by
  obtain ⟨ct, hct, here⟩ := Option.bind_eq_some_iff.mp hres
  obtain ⟨other, there, same⟩ := List.mem_map.mp (m.lookup_known ts member ct hct res here)
  rw [← same]
  exact (kept.ok w hI other there).keys

theorem ValidateMove.loaded {ts : TableSpec} (move : ValidateMove ts u v) {name : String}
    (h : (u.target name).ledger.loaded = some (u.target name).staging.size) :
    (v.target name).ledger.loaded = some (v.target name).staging.size := by
  by_cases same : name = ts.name
  · subst same
    cases move with
    | hashes =>
      rw [World.onTarget_self]
      simp only [Std.ExtTreeMap.size_map]
      exact h
    | _ =>
      rw [World.onTarget_self]
      exact h
  · rw [move.own name same]
    exact h

/-- When VALIDATE of a table ends well its verdicts are those of its staged rows. -/
theorem ValidatedTable.verdicts {ts : TableSpec} {t : TargetTable} (h : ValidatedTable ts w t)
    (keys : KeysOk (w.target ts.name)) (loaded : (w.target ts.name).ledger.loaded = some (w.target ts.name).staging.size) :
    ∀ k ∈ t.validation, k ∈ t.staging := by
  have rows : t.staging.keys = (w.target ts.name).staging.keys := by
    rw [← plainRows_keys, ← plainRows_keys, h.plain]
  have size : t.staging.size = (w.target ts.name).staging.size := by
    rw [← Std.ExtTreeMap.length_keys, ← Std.ExtTreeMap.length_keys, rows]
  have judged : ∀ k ∈ t.staging, k ∈ t.validation := by
    intro k hk
    obtain ⟨row, held⟩ := Option.isSome_iff_exists.mp (Std.ExtTreeMap.isSome_getElem?_iff_mem.mpr hk)
    have there : (k, row.plain) ∈ plainRows (w.target ts.name) := by
      rw [← h.plain]
      exact mem_plainRows.mpr ⟨row, held, rfl⟩
    obtain ⟨r, before, same⟩ := mem_plainRows.mp there
    have key : row.sourceKey = k := by
      rw [show row.sourceKey = row.plain.sourceKey from rfl, same]
      exact (keys k r before).1
    have verdict := (h.judged k row.plain there).verdict
    rw [show row.plain.sourceKey = k from key] at verdict
    exact Std.ExtTreeMap.isSome_getElem?_iff_mem.mp (by rw [verdict]; rfl)
  have counts : t.validation.countIf (fun v => v.status = .validated) +
      t.validation.countIf (fun v => v.status = .failed) = t.validation.size := by
    apply KeyMap.countIf_add
    intro v
    cases v.status with
    | validated => rfl
    | failed => rfl
  apply KeyMap.mem_of_size_le judged
  have counted := h.counted
  have kept : t.ledger.loaded = (w.target ts.name).ledger.loaded := by rw [h.frame]
  rw [counts, kept, loaded, Option.some.injEq] at counted
  omega

/-- When VALIDATE of a table ends well, what may be purged has been through its promotion. -/
theorem ValidatedTable.promotes {ts : TableSpec} {t : TargetTable} (h : ValidatedTable ts w t)
    (keys : KeysOk (w.target ts.name)) (loaded : (w.target ts.name).ledger.loaded = some (w.target ts.name).staging.size) :
    ∀ k ∈ purgeSafe t, k ∈ t.promoted := by
  intro k hk
  obtain ⟨v, verdict, safe⟩ := mem_purgeSafe.mp hk
  have staged := h.verdicts keys loaded k (Std.ExtTreeMap.isSome_getElem?_iff_mem.mp (by rw [verdict]; rfl))
  apply h.promoted k staged
  obtain ⟨row, held⟩ := Option.isSome_iff_exists.mp (Std.ExtTreeMap.isSome_getElem?_iff_mem.mpr staged)
  have there : (k, row.plain) ∈ plainRows (w.target ts.name) := by
    rw [← h.plain]
    exact mem_plainRows.mpr ⟨row, held, rfl⟩
  obtain ⟨r, before, same⟩ := mem_plainRows.mp there
  have key : row.plain.sourceKey = k := by
    rw [same]
    exact (keys k r before).1
  have judged := h.judged k row.plain there
  have own := judged.verdict
  rw [key, verdict] at own
  have valid : judgementAt ts w row.plain = none := by
    cases found : judgementAt ts w row.plain with
    | none => rfl
    | some f =>
      rw [found] at own
      rw [Option.some.inj own] at safe
      cases safe
  rw [← key]
  exact judged.isValidated.mpr valid

/-- VALIDATE of the tables, with what is known of each when it ends. -/
theorem keep_validateTables (kept : Kept D m I) {K : World → Prop} {P : TableSpec → TargetTable → Prop}
    (stable : D.Stable K) (below : ∀ u, K u → I u)
    (closed : ∀ ts ∈ m.tables, ∀ u v, ValidateMove ts u v → K u → K v)
    (ended : ∀ ts ∈ m.tables, ∀ u t, K u → ValidatedTable ts u t → P ts t) (hK : K w) :
    wp (D.weather F) (validate m.batch m.tablesInOrder)
      (.keep K fun _ v => ∀ ts ∈ m.tablesInOrder, P ts (v.target ts.name)) w := by
  apply keep_tables (M := ValidateMove) (P := P) (tablesInOrder_names m)
  · exact fun _ _ _ move => move.own
  · exact stable
  · exact fun ts member u v move hKu => closed ts (mem_tablesInOrder.mp member) u v move hKu
  · intro ts member J stableJ closedJ belowJ v hJ
    have there := mem_tablesInOrder.mp member
    have ok := fun u hu => kept.ok u (below u (belowJ u hu)) ts there
    apply keep_mono (keep_validateTable stableJ closedJ (fun u hu => (ok u hu).keys) (fun u hu => (ok u hu).converted)
      (fun u hu => TableSpec.lookup_keys kept there (below u (belowJ u hu))) hJ)
    exact fun _ _ _ validated => ended ts there v _ (belowJ v hJ) validated
  · exact hK

/-- A move of PURGE leaves alone what its guards read and what was promoted. -/
theorem PurgeMove.frame {tables : List TableSpec} (move : PurgeMove tables u v) (name : String) :
    SameButPurge (u.target name) (v.target name) := by
  have onTarget : ∀ (table : String) (f : TargetTable → TargetTable), (∀ t, SameButPurge t (f t)) →
      SameButPurge (u.target name) ((u.onTarget table f).target name) := fun table f frame =>
    (Purging.onTarget frame).frame name
  cases move with
  | ledger ts f frame =>
    apply onTarget
    intro t
    unfold SameButPurge TargetTable.onLedger
    exact congrArg (fun l => { t with ledger := l }) (frame _)
  | intend => exact onTarget _ _ fun _ => rfl
  | rolledBack => exact onTarget _ _ fun _ => rfl
  | purged => exact onTarget _ _ fun _ => rfl
  | batch => exact .refl _

theorem Promoted.frame (h : Promoted m u) (frame : ∀ name, SameButPurge (u.target name) (v.target name)) :
    Promoted m v := by
  intro ts member role k hk
  have same := frame ts.name
  rw [same.safe.1] at hk
  unfold SameButPurge at same
  rw [same]
  exact h ts member role k hk

theorem SameButPurge.symm {t t' : TargetTable} (h : SameButPurge t t') : SameButPurge t' t := by
  unfold SameButPurge at h ⊢
  rw [h]

theorem Ready.frame (h : Ready m u) (frame : ∀ name, SameButPurge (u.target name) (v.target name)) : Ready m v := by
  intro agree
  have before : GuardsAgree m.tables u := by
    intro ts member role
    obtain ⟨safe, validated⟩ := (frame ts.name).symm.safe
    rw [safe, validated]
    exact agree ts member role
  exact (h before).frame frame

theorem GuardsAgree.inOrder (h : GuardsAgree m.tablesInOrder w) : GuardsAgree m.tables w :=
  fun ts member role => h ts (mem_tablesInOrder.mpr member) role

/-- PURGE from a state in which it may start. -/
theorem keep_purge (kept : Kept D m I) (hI : I w) (ready : Ready m w) :
    wp (D.weather F) (purgeStage m.purge m.batch m.tablesInOrder) (.keep I fun _ _ => True) w := by
  have whole : wp (D.weather F) (purgeStage m.purge m.batch m.tablesInOrder)
      (.keep (fun v => I v ∧ Ready m v) fun _ _ => True) w := by
    apply keep_purgeStage
    · intro u v moves h
      refine ⟨kept.stable u v moves h.1, h.2.frame ?_⟩
      intro name
      rw [moves.target]
      exact .refl _
    · exact fun u v move h => ⟨kept.purge u v move h.2 h.1, h.2.frame move.frame⟩
    · exact ⟨hI, ready⟩
  exact wp_mono whole (fun _ _ h => ⟨h.1.1, trivial⟩) (fun _ _ h => ⟨h.1.1, trivial⟩) fun _ h => h.1

theorem keep_validate (kept : Kept D m I) (hI : I w) :
    wp (D.weather F) (validate m.batch m.tablesInOrder) (.keep I fun _ _ => True) w := by
  have whole : wp (D.weather F) (validate m.batch m.tablesInOrder)
      (.keep I fun _ v => ∀ ts ∈ m.tablesInOrder, (fun _ _ => True) ts (v.target ts.name)) w := by
    apply keep_validateTables (P := fun _ _ => True) kept kept.stable (fun _ h => h)
    · exact fun ts member u v move hIu => kept.stage u v (.validate ts member move) hIu
    · exact fun _ _ _ _ _ _ => trivial
    · exact hI
  exact keep_mono whole fun _ _ _ _ => trivial

/-- VALIDATE right after LOAD leaves PURGE nothing that was not promoted. -/
theorem keep_validateLoaded (kept : Kept D m I) (hI : I w)
    (loaded : ∀ ts ∈ m.tablesInOrder, Loaded (w.target ts.name)) :
    wp (D.weather F) (validate m.batch m.tablesInOrder) (.keep I fun _ v => Promoted m v) w := by
  let K : World → Prop := fun v => I v ∧
    ∀ ts ∈ m.tables, (v.target ts.name).ledger.loaded = some (v.target ts.name).staging.size
  have whole : wp (D.weather F) (validate m.batch m.tablesInOrder)
      (.keep K fun _ v => ∀ ts ∈ m.tablesInOrder, ∀ k ∈ purgeSafe (v.target ts.name), k ∈ (v.target ts.name).promoted)
      w := by
    apply keep_validateTables (P := fun _ t => ∀ k ∈ purgeSafe t, k ∈ t.promoted) kept
    · intro u v moves h
      refine ⟨kept.stable u v moves h.1, ?_⟩
      rw [moves.target]
      exact h.2
    · exact fun _ h => h.1
    · intro ts member u v move h
      exact ⟨kept.stage u v (.validate ts member move) h.1, fun ts' member' => move.loaded (h.2 ts' member')⟩
    · intro ts member u t h validated
      exact validated.promotes (kept.ok u h.1 ts member).keys (h.2 ts member)
    · exact ⟨hI, fun ts member => (loaded ts (mem_tablesInOrder.mpr member)).staged⟩
  refine wp_mono whole ?_ (fun _ _ h => ⟨h.1.1, trivial⟩) fun _ h => h.1
  exact fun _ _ h => ⟨h.1.1, fun ts member _ => h.2 ts (mem_tablesInOrder.mpr member)⟩

theorem keep_reconcile (kept : Kept D m I) (hI : I w) :
    wp (D.weather F) (reconcileStage m.purge m.tablesInOrder) (.keep I fun _ _ => True) w :=
  keep_reconcileStage kept.stable (fun u v move => kept.stage u v (.run move)) hI

/-- A stage on its own. -/
theorem keep_stage (kept : Kept D m I) (schedule : Schedule) (stage : StageName) (hI : I w)
    (ready : stage = .purge → Ready m w) : wp (D.weather F) (runStage m schedule stage) (.keep I fun _ _ => True) w := by
  cases stage with
  | extract => exact keep_mono (keep_extract kept hI) fun _ _ _ _ => trivial
  | load => exact keep_mono (keep_load kept schedule hI) fun _ _ _ _ => trivial
  | validate => exact keep_validate kept hI
  | purge => exact keep_purge kept hI (ready rfl)
  | reconcile => exact keep_reconcile kept hI

/-- The five stages in their order. -/
theorem keep_allStages (kept : Kept D m I) (schedule : Schedule) (hI : I w) :
    wp (D.weather F) (allOrder.forM (runStage m schedule)) (.keep I fun _ _ => True) w := by
  change wp (D.weather F) (do
    runStage m schedule .extract
    runStage m schedule .load
    runStage m schedule .validate
    runStage m schedule .purge
    runStage m schedule .reconcile
    pure PUnit.unit) _ w
  apply keeps_bind (keep_extract kept hI)
  intro _ v₁ hI₁ _
  apply keeps_bind (keep_load kept schedule hI₁)
  intro _ v₂ hI₂ loaded
  apply keeps_bind (keep_validateLoaded kept hI₂ loaded)
  intro _ v₃ hI₃ promoted
  apply keeps_bind (keep_purge kept hI₃ fun _ => promoted)
  intro _ v₄ hI₄ _
  apply keeps_bind (keep_reconcile kept hI₄)
  exact fun _ _ hI₅ _ => keeps_pure hI₅ trivial

theorem Ready.same (h : Ready m u) (same : SameTables D u v) : Ready m v := by
  apply h.frame
  intro name
  rw [same.target]
  exact .refl _

/-- One execution keeps an invariant of the job, PURGE on its own where it may start. -/
theorem Kept.execute (kept : Kept D m I) (schedule : Schedule) (verb : Verb) (hI : I w)
    (ready : verb = .one .purge → Ready m w) :
    wp (D.weather F) (execute m schedule verb) (.keep I fun _ _ => True) w := by
  apply keep_execute kept.stable (fun u v move => kept.stage u v (.run move))
  · intro v same hIv
    cases verb with
    | one stage =>
      unfold Verb.stages
      apply keeps_bind (R := fun _ _ => True)
      · apply keep_stage kept schedule stage hIv
        intro purge
        exact (ready (by rw [purge])).same same
      · exact fun _ _ hI' _ => keeps_pure hI' trivial
    | all => exact keep_allStages kept schedule hIv
  · exact hI

/-- A PURGE on its own starts where it may. -/
def PurgesReady (m : Manifest) (w : World) (e : Execution) : Prop := e.verb = .one .purge → Ready m w

/-- Every state that executions reach has an invariant of the job. -/
theorem Kept.reaches (kept : Kept D m I) (start : I u) (run : m.Reaches (D.weather F) (PurgesReady m) u v) : I v := by
  apply run.preserves _ start
  intro w e w' hI allowed step
  cases Option.some.inj step
  have held := wp_run (kept.execute e.schedule e.verb hI allowed.2) allowed.1
  change Post.Holds _ (e.run m w) at held
  generalize e.run m w = out at held
  obtain ⟨outcome, w'⟩ := out
  cases outcome with
  | ended result =>
    cases result with
    | ok n => exact held.1
    | error e => exact held.1
  | crashed => exact held

end

end OtterWorks.Migration
