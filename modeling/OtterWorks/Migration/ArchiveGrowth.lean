import OtterWorks.Migration.PurgeSafety

namespace OtterWorks.Migration

/-- A row of the archive is a record that was unloaded, as the job converts it: it has the record's key and hash, and
the hash is that of its values too. -/
def ArchivedAs (ts : TableSpec) (t : TargetTable) (key : Text) (a : ArchRow) : Prop :=
  ∃ raw source, Recorded ts t.ranges t.files a.sourceKey raw ∧ ts.convert raw = .ok a.sourceKey a.values source ∧
    key = ts.targetKey a.values ∧ a.rowHash = ts.sourceHash source ∧ ts.targetHash a.values = ts.sourceHash source

/-- What holds throughout a run over the source as it was at its start and the archives that `w₀` held, wherever PURGE
starts. -/
structure Growing (m : Manifest) (source : String → SourceTable) (w₀ w : World) : Prop where
  filed : ∀ ts ∈ m.tables, Filed ts (w.target ts.name).ranges (w.target ts.name).files (w.source ts.name)
  traced : ∀ ts ∈ m.tables, Traced ts (w.target ts.name)
  deletions : ∀ name, Deletions (w.source name)
  rows : ∀ name k, k ∈ (w.source name).rows → k ∈ (source name).rows
  known : ∀ ts ∈ m.tables, ∀ (k : Key) (raw : Raw),
    Recorded ts (w.target ts.name).ranges (w.target ts.name).files k raw → k ∈ (source ts.name).rows
  stays : ∀ (name : String) (key : Text) (a : ArchRow), (w₀.target name).arch[key]? = some a →
    (w.target name).arch[key]? = some a
  added : ∀ ts ∈ m.tables, ∀ (key : Text) (a : ArchRow), (w.target ts.name).arch[key]? = some a →
    (w₀.target ts.name).arch[key]? = some a ∨ ArchivedAs ts (w.target ts.name) key a

section

variable {D : Drift} {F : Prop} {m : Manifest} {ts : TableSpec} {t t' : TargetTable} {I : World → Prop}
  {source : String → SourceTable} {w₀ u v w : World}

theorem ArchivedAs.onward {key : Text} {a : ArchRow} (h : ArchivedAs ts t key a)
    (recorded : ∀ k raw, Recorded ts t.ranges t.files k raw → Recorded ts t'.ranges t'.files k raw) :
    ArchivedAs ts t' key a := by
  obtain ⟨raw, source, record, rest⟩ := h
  exact ⟨raw, source, recorded _ raw record, rest⟩

/-- A range is DONE with the rows that its cursor has read, and no other way. -/
theorem ExtractMove.new_record {batch : BatchConfig} (move : ExtractMove D batch ts w v)
    (order : InOrder (w.target ts.name).ranges) {k : Key} {raw : Raw}
    (h : Recorded ts (v.target ts.name).ranges (v.target ts.name).files k raw) :
    Recorded ts (w.target ts.name).ranges (w.target ts.name).files k raw ∨ k ∈ (w.source ts.name).rows := by
  obtain ⟨r, hr, done, records, file, hraw, key⟩ := h
  cases move with
  | plan keys s₀ blank drift selected =>
    rw [World.onTarget_self] at hr
    simp only [blank, List.nil_append] at hr
    rw [(planFrom_keys r hr).1] at done
    cases done
  | status rng st pending open_ =>
    rw [World.onTarget_self] at hr file
    obtain ⟨r', hr', rfl⟩ := List.mem_map.mp hr
    split at done
    next => exact absurd done open_
    next other =>
      rw [if_neg other] at file
      exact Or.inl ⟨r', hr', done, records, file, hraw, key⟩
  | file rng write pending =>
    rw [World.onTarget_self] at hr file
    have other : rng.rangeSeq ≠ r.rangeSeq := by
      intro same
      exact (pending.inj order hr same.symm).2.2 done
    rw [Std.ExtTreeMap.getElem?_insert, if_neg (by simpa using other)] at file
    exact Or.inl ⟨r, hr, done, records, file, hraw, key⟩
  | fetch rng pending =>
    rw [World.onSource_target] at hr file
    exact Or.inl ⟨r, hr, done, records, file, hraw, key⟩
  | finish rng rows records' s₁ pending written unloaded fetched drift clean =>
    rw [World.onTarget_self] at hr file
    obtain ⟨r', hr', rfl⟩ := List.mem_map.mp hr
    split at file
    next here =>
      -- the record is one of those just unloaded, whose row the cursor has read
      right
      simp only [here] at file
      cases Option.some.inj (written.symm.trans file)
      obtain ⟨row, hrow, out⟩ := forall₂_right unloaded hraw
      have own : row.key = k := Option.some.inj ((ts.unload_key row raw out).symm.trans key)
      rw [fetched] at hrow
      have read := (mem_rangeRows.mp hrow).1
      rw [← own]
      apply (D.keys _ _ drift row.key).mpr
      exact Std.ExtTreeMap.isSome_getElem?_iff_mem.mp (by rw [read]; rfl)
    next other =>
      rw [if_neg other] at done
      exact Or.inl ⟨r', hr', done, records, file, hraw, key⟩
  | ledger n files all count =>
    rw [World.onTarget_self] at hr file
    exact Or.inl ⟨r, hr, done, records, file, hraw, key⟩

theorem Recorded.of_loadStatus {ranges : List KeyRange} {files : KeyMap Nat (List Raw)} {k : Key} {raw : Raw}
    {seq : Nat} {st : LoadStatus}
    (h : Recorded ts (ranges.map fun r => if r.rangeSeq = seq then { r with loadStatus := st } else r) files k raw) :
    Recorded ts ranges files k raw := by
  obtain ⟨r, hr, done, records, file, hraw, key⟩ := h
  obtain ⟨r', hr', rfl⟩ := List.mem_map.mp hr
  refine ⟨r', hr', ?_, records, ?_, hraw, key⟩
  · split at done
    next => exact done
    next => exact done
  · split at file
    next => exact file
    next => exact file

/-- The target of one table changes: its archive keeps its rows, and a new one is a record. -/
theorem Growing.onTarget (h : Growing m source w₀ w) (member : ts ∈ m.tables) {f : TargetTable → TargetTable}
    (filed : Filed ts (f (w.target ts.name)).ranges (f (w.target ts.name)).files (w.source ts.name))
    (traced : Traced ts (f (w.target ts.name)))
    (recorded : ∀ k raw, Recorded ts (w.target ts.name).ranges (w.target ts.name).files k raw →
      Recorded ts (f (w.target ts.name)).ranges (f (w.target ts.name)).files k raw)
    (known : ∀ k raw, Recorded ts (f (w.target ts.name)).ranges (f (w.target ts.name)).files k raw →
      k ∈ (source ts.name).rows)
    (stays : ∀ (key : Text) (a : ArchRow), (w.target ts.name).arch[key]? = some a →
      (f (w.target ts.name)).arch[key]? = some a)
    (added : ∀ (key : Text) (a : ArchRow), (f (w.target ts.name)).arch[key]? = some a →
      (w.target ts.name).arch[key]? = some a ∨ ArchivedAs ts (f (w.target ts.name)) key a) :
    Growing m source w₀ (w.onTarget ts.name f) := by
  have here : (w.onTarget ts.name f).target ts.name = f (w.target ts.name) := World.onTarget_self ..
  refine ⟨?_, ?_, h.deletions, h.rows, ?_, ?_, ?_⟩
  · intro ts' member'
    by_cases same : ts'.name = ts.name
    · cases m.same_table member' member same
      rw [here]
      exact filed
    · rw [World.onTarget_other same]
      exact h.filed ts' member'
  · intro ts' member'
    by_cases same : ts'.name = ts.name
    · cases m.same_table member' member same
      rw [here]
      exact traced
    · rw [World.onTarget_other same]
      exact h.traced ts' member'
  · intro ts' member'
    by_cases same : ts'.name = ts.name
    · cases m.same_table member' member same
      rw [here]
      exact known
    · rw [World.onTarget_other same]
      exact h.known ts' member'
  · intro name key a held
    have old := h.stays name key a held
    by_cases same : name = ts.name
    · rw [same] at old ⊢
      rw [here]
      exact stays key a old
    · rw [World.onTarget_other same]
      exact old
  · intro ts' member' key a held
    by_cases same : ts'.name = ts.name
    · cases m.same_table member' member same
      rw [here] at held ⊢
      rcases added key a held with old | new
      · exact (h.added ts member key a old).imp_right fun was => was.onward recorded
      · exact Or.inr new
    · rw [World.onTarget_other same] at held ⊢
      exact h.added ts' member' key a held

/-- The target of one table changes and its archive does not. -/
theorem Growing.sameArch (h : Growing m source w₀ w) (member : ts ∈ m.tables) {f : TargetTable → TargetTable}
    (filed : Filed ts (f (w.target ts.name)).ranges (f (w.target ts.name)).files (w.source ts.name))
    (traced : Traced ts (f (w.target ts.name)))
    (recorded : ∀ k raw, Recorded ts (w.target ts.name).ranges (w.target ts.name).files k raw →
      Recorded ts (f (w.target ts.name)).ranges (f (w.target ts.name)).files k raw)
    (known : ∀ k raw, Recorded ts (f (w.target ts.name)).ranges (f (w.target ts.name)).files k raw →
      k ∈ (source ts.name).rows)
    (arch : (f (w.target ts.name)).arch = (w.target ts.name).arch) : Growing m source w₀ (w.onTarget ts.name f) := by
  apply h.onTarget member filed traced recorded known
  · intro key a held
    rw [arch]
    exact held
  · intro key a held
    rw [arch] at held
    exact Or.inl held

/-- The source of one table changes. -/
theorem Growing.onSource (h : Growing m source w₀ w) (member : ts ∈ m.tables) {f : SourceTable → SourceTable}
    (filed : Filed ts (w.target ts.name).ranges (w.target ts.name).files (f (w.source ts.name)))
    (deletions : Deletions (f (w.source ts.name)))
    (rows : ∀ k, k ∈ (f (w.source ts.name)).rows → k ∈ (w.source ts.name).rows) :
    Growing m source w₀ (w.onSource ts.name f) := by
  refine ⟨?_, h.traced, ?_, ?_, h.known, h.stays, h.added⟩
  · intro ts' member'
    by_cases same : ts'.name = ts.name
    · cases m.same_table member' member same
      rw [World.onSource_self]
      exact filed
    · rw [World.onSource_other same]
      exact h.filed ts' member'
  · intro name
    by_cases same : name = ts.name
    · rw [same, World.onSource_self]
      exact deletions
    · rw [World.onSource_other same]
      exact h.deletions name
  · intro name k there
    by_cases same : name = ts.name
    · rw [same, World.onSource_self] at there
      rw [same]
      exact h.rows ts.name k (rows k there)
    · rw [World.onSource_other same] at there
      exact h.rows name k there

theorem Growing.stable (m : Manifest) (source : String → SourceTable) (w₀ : World) : D.Stable (Growing m source w₀) := by
  intro w v moves h
  refine ⟨?_, ?_, fun name => (h.deletions name).drift (moves.source name), ?_, ?_, ?_, ?_⟩
  · intro ts member
    rw [moves.target]
    exact (h.filed ts member).drift (moves.source ts.name)
  · rw [moves.target]
    exact h.traced
  · intro name k there
    exact h.rows name k ((D.keys _ _ (moves.source name) k).mp there)
  · rw [moves.target]
    exact h.known
  · rw [moves.target]
    exact h.stays
  · rw [moves.target]
    exact h.added

theorem Growing.extract (h : Growing m source w₀ w) {batch : BatchConfig} (member : ts ∈ m.tables)
    (move : ExtractMove D batch ts w v) : Growing m source w₀ v := by
  have filed := move.filed (h.deletions ts.name) (h.filed ts member)
  have recorded : ∀ k raw, Recorded ts (w.target ts.name).ranges (w.target ts.name).files k raw →
      Recorded ts (v.target ts.name).ranges (v.target ts.name).files k raw := fun k raw record =>
    move.recorded (h.filed ts member).numbered record
  have known : ∀ k raw, Recorded ts (v.target ts.name).ranges (v.target ts.name).files k raw →
      k ∈ (source ts.name).rows := by
    intro k raw record
    rcases move.new_record (h.filed ts member).numbered record with old | there
    · exact h.known ts member k raw old
    · exact h.rows ts.name k there
  have traced := h.traced ts member
  cases move with
  | fetch rng pending =>
    rw [World.onSource_self] at filed
    exact h.onSource member filed ⟨(h.deletions ts.name).gone, (h.deletions ts.name).deleted⟩ fun _ there => there
  | _ =>
    rw [World.onTarget_self] at filed recorded known
    exact h.sameArch member filed (traced.ranges rfl rfl rfl recorded) recorded known rfl

theorem Growing.load (h : Growing m source w₀ w) (member : ts ∈ m.tables) (move : LoadMove ts w v) :
    Growing m source w₀ v := by
  have traced := move.traced (h.traced ts member)
  have filed := h.filed ts member
  cases move with
  | start seq extracted waits =>
    rw [World.onTarget_self] at traced
    exact h.sameArch member (filed.loadStatus seq .running) traced (fun _ _ record => record.loadStatus seq .running)
      (fun k raw record => h.known ts member k raw record.of_loadStatus) rfl
  | done seq records loading settled =>
    rw [World.onTarget_self] at traced
    exact h.sameArch member (filed.loadStatus seq .done) traced (fun _ _ record => record.loadStatus seq .done)
      (fun k raw record => h.known ts member k raw record.of_loadStatus) rfl
  | _ =>
    rw [World.onTarget_self] at traced
    exact h.sameArch member filed traced (fun _ _ record => record) (h.known ts member) rfl

/-- What a promotion inserts is made of records, and under the hash that was checked. -/
theorem Traced.inserts (h : Traced ts (w.target ts.name)) {rows : List (Text × ArchRow)}
    (found : promotion ts (w.target ts.name) = some rows)
    (clean : ∀ k row, (k, row) ∈ validatedStaged (w.target ts.name) →
      row.rowHash = some (recordHash ts row) ∧ Clean ts w row) {key : Text} {a : ArchRow} (inserted : (key, a) ∈ rows) :
    (w.target ts.name).arch[key]? = none ∧ ArchivedAs ts (w.target ts.name) key a := by
  obtain ⟨⟨k, row⟩, waits, made⟩ := forall₂_right (mapM_some.mp found) inserted
  obtain ⟨valid, absent⟩ := List.mem_filter.mp waits
  obtain ⟨hash, written, same⟩ := Option.map_eq_some_iff.mp made
  obtain ⟨hashed, agree, _⟩ := clean k row valid
  obtain ⟨own, recorded, source, converted⟩ := h.staged k row (mem_validatedStaged.mp valid).1
  have record : recordHash ts row = ts.sourceHash source := by
    unfold recordHash sourceOf
    rw [converted]
  rw [hashed] at written
  cases written
  cases same
  simp only at absent
  refine ⟨?_, row.rawBytes, source, recorded, ?_, rfl, record, agree.trans record⟩
  · cases held : (w.target ts.name).arch[ts.targetKey row.values]? with
    | none => rfl
    | some b => simp [Std.ExtTreeMap.contains_eq_isSome_getElem?, held] at absent
  · rw [← own]
    exact converted

theorem Growing.validate (h : Growing m source w₀ w) (member : ts ∈ m.tables) (move : ValidateMove ts w v) :
    Growing m source w₀ v := by
  have traced := h.traced ts member
  have filed := h.filed ts member
  have same : ∀ t : TargetTable, t.ranges = (w.target ts.name).ranges → t.files = (w.target ts.name).files →
      t.staging = (w.target ts.name).staging → t.arch = (w.target ts.name).arch →
      t.promoted = (w.target ts.name).promoted → Traced ts t := by
    intro t ranges files staging arch promoted
    apply traced.ranges staging arch promoted
    rw [ranges, files]
    exact fun _ _ record => record
  cases move with
  | hashes hashes each =>
    apply h.sameArch member filed _ (fun _ _ record => record) (h.known ts member) rfl
    exact traced.staging fun _ _ => hashed_row
  | promote rows found distinct clean =>
    apply h.onTarget member filed (traced.promote found distinct clean) (fun _ _ record => record) (h.known ts member)
    · intro key a held
      rw [← held]
      apply KeyMap.upsertAll_of_not_mem
      intro new
      obtain ⟨⟨key', b⟩, inserted, here⟩ := List.mem_map.mp new
      simp only at here
      rw [← here, (traced.inserts found clean inserted).1] at held
      cases held
    · intro key a held
      rcases KeyMap.upsertAll_cases held with new | old
      · exact Or.inr ((traced.inserts found clean new).2.onward fun _ _ record => record)
      · exact Or.inl old.2
  | _ =>
    exact h.sameArch member filed (same _ rfl rfl rfl rfl rfl) (fun _ _ record => record) (h.known ts member) rfl

theorem Growing.run (h : Growing m source w₀ w) (move : RunMove m w v) : Growing m source w₀ v := by
  cases move with
  | begin absent => exact ⟨h.filed, h.traced, h.deletions, h.rows, h.known, h.stays, h.added⟩
  | status st closes => exact ⟨h.filed, h.traced, h.deletions, h.rows, h.known, h.stays, h.added⟩
  | dropStaging ts member closes =>
    apply h.sameArch member (h.filed ts member) _ (fun _ _ record => record) (h.known ts member) rfl
    apply (h.traced ts member).staging
    intro k row held
    rw [Std.ExtTreeMap.getElem?_empty] at held
    cases held

/-- What PURGE writes to the target is no row of an archive. -/
theorem Growing.purgeAudit (h : Growing m source w₀ w) (same : v.source = w.source)
    (frame : ∀ name, SameButPurge (w.target name) (v.target name)) : Growing m source w₀ v := by
  have fields : ∀ name, (v.target name).ranges = (w.target name).ranges ∧
      (v.target name).files = (w.target name).files ∧ (v.target name).staging = (w.target name).staging ∧
      (v.target name).arch = (w.target name).arch ∧ (v.target name).promoted = (w.target name).promoted := by
    intro name
    have here := frame name
    unfold SameButPurge at here
    rw [here]
    exact ⟨rfl, rfl, rfl, rfl, rfl⟩
  have recorded : ∀ (ts : TableSpec) k raw, Recorded ts (w.target ts.name).ranges (w.target ts.name).files k raw →
      Recorded ts (v.target ts.name).ranges (v.target ts.name).files k raw := by
    intro ts
    obtain ⟨ranges, files, _⟩ := fields ts.name
    rw [ranges, files]
    exact fun _ _ record => record
  refine ⟨?_, ?_, ?_, ?_, ?_, ?_, ?_⟩
  · intro ts member
    obtain ⟨ranges, files, _⟩ := fields ts.name
    rw [same, ranges, files]
    exact h.filed ts member
  · intro ts member
    obtain ⟨_, _, staging, arch, promoted⟩ := fields ts.name
    exact (h.traced ts member).ranges staging arch promoted (recorded ts)
  · rw [same]
    exact h.deletions
  · rw [same]
    exact h.rows
  · intro ts member
    obtain ⟨ranges, files, _⟩ := fields ts.name
    rw [ranges, files]
    exact h.known ts member
  · intro name key a held
    obtain ⟨_, _, _, arch, _⟩ := fields name
    rw [arch]
    exact h.stays name key a held
  · intro ts member key a held
    obtain ⟨_, _, _, arch, _⟩ := fields ts.name
    rw [arch] at held
    exact (h.added ts member key a held).imp_right fun was => was.onward (recorded ts)

theorem Growing.purge (h : Growing m source w₀ w) (move : PurgeMove m.tablesInOrder w v) : Growing m source w₀ v := by
  have frame := move.frame
  cases move with
  | batch ts keys listed role agree safe fresh distinct free present =>
    have member := mem_tablesInOrder.mp listed
    apply h.onSource member _ ((h.deletions ts.name).deleteKeys present) fun _ there => (deleteKeys_rows.mp there).1
    exact (h.filed ts member).source fun _ _ _ _ _ unload row hrow => (unload.accounted row hrow).deleteKeys keys
  | _ => exact h.purgeAudit (World.onTarget_source ..) frame

/-- It is an invariant of the job, whatever the application does to the source. -/
theorem Growing.kept_by (D : Drift) (m : Manifest) (source : String → SourceTable) (w₀ : World) :
    Kept D m (Growing m source w₀) where
  stable := .stable m source w₀
  ok := by
    intro w h ts member
    refine ⟨(h.filed ts member).numbered, ?_, fun k row held => ((h.traced ts member).staged k row held).2.2⟩
    intro k row held
    obtain ⟨key, _, source, converted⟩ := (h.traced ts member).staged k row held
    refine ⟨key, ?_⟩
    rw [← key]
    exact ts.key_ne_nil _ _ _ _ converted
  stage := by
    intro u v move h
    cases move with
    | extract ts member move => exact h.extract member move
    | load ts member move => exact h.load member move
    | validate ts member move => exact h.validate member move
    | run move => exact h.run move
  purge := fun _ _ move _ h => h.purge move

/-- One execution keeps an invariant that PURGE keeps wherever it starts. -/
theorem Kept.executeAny (kept : Kept D m I) (purge : ∀ u v, PurgeMove m.tablesInOrder u v → I u → I v)
    (schedule : Schedule) (verb : Verb) (hI : I w) :
    wp (D.weather F) (Migration.execute m schedule verb) (.keep I fun _ _ => True) w := by
  by_cases alone : verb = .one .purge
  · subst alone
    apply keep_execute kept.stable (fun u v move => kept.stage u v (.run move)) _ hI
    intro v _ hIv
    unfold Verb.stages
    apply keeps_bind (keep_purgeStage kept.stable purge m.purge hIv)
    exact fun _ _ hI' _ => keeps_pure hI' trivial
  · exact kept.execute schedule verb hI fun here => absurd here alone

theorem Kept.reachesAny (kept : Kept D m I) (purge : ∀ u v, PurgeMove m.tablesInOrder u v → I u → I v) (start : I u)
    (run : m.Reaches (D.weather F) (fun _ _ => True) u v) : I v := by
  apply run.preserves _ start
  intro w e w' hI allowed step
  cases Option.some.inj step
  have held := wp_run (kept.executeAny purge e.schedule e.verb hI) allowed.1
  change Post.Holds _ (e.run m w) at held
  generalize e.run m w = out at held
  obtain ⟨outcome, w'⟩ := out
  cases outcome with
  | ended result =>
    cases result with
    | ok n => exact held.1
    | error e => exact held.1
  | crashed => exact held

theorem Growing.reaches (h : Growing m source w₀ u) (run : m.Reaches (D.weather F) (fun _ _ => True) u v) :
    Growing m source w₀ v :=
  (Growing.kept_by D m source w₀).reachesAny (fun _ _ move h => h.purge move) h run

/-- From any state of the run on, the archives only grow. -/
theorem Growing.again (h : Growing m source w₀ w) : Growing m source w w := by
  refine ⟨h.filed, h.traced, h.deletions, h.rows, h.known, fun _ _ _ held => held, ?_⟩
  exact fun _ _ _ _ held => Or.inl held

theorem Growing.start (m : Manifest) (initial : w₀.Initial) : Growing m w₀.source w₀ w₀ := by
  have sound := Sound.start m initial
  refine ⟨sound.filed, sound.traced, sound.deletions, fun _ _ there => there, ?_, fun _ _ _ held => held, ?_⟩
  · intro ts _ k raw record
    obtain ⟨r, hr, _⟩ := record
    rw [initial.target_blank] at hr
    cases hr
  · exact fun _ _ _ _ held => Or.inl held

/-- The row was there when the run started, and the file of a DONE range has it as it was unloaded; the source still
has it so, or had when PURGE deleted it, unless the application has changed it since. -/
structure UnloadedRow (ts : TableSpec) (source : SourceTable) (s : SourceTable) (t : TargetTable) (row : SourceRow)
    (raw : Raw) : Prop where
  there : row.key ∈ source.rows
  selected : ts.selects row = true
  unload : ts.unload row = .ok raw
  recorded : Recorded ts t.ranges t.files row.key raw
  accounted : Accounted s row

/-- Over all executions, failed calls, crashes and updates of the application, and wherever PURGE starts, a row of the
archive stays as it is, and one that was not there before the run is a record of an unload file, made of a row that the
source had at the start, as it is converted, under the hash of that record, which is the hash of its values. -/
theorem archive_append_only (initial : w₀.Initial) (first : m.Reaches (Drift.updates.weather True) (fun _ _ => True) w₀ u)
    (later : m.Reaches (Drift.updates.weather True) (fun _ _ => True) u v) :
    (∀ (name : String) (key : Text) (a : ArchRow), (u.target name).arch[key]? = some a →
      (v.target name).arch[key]? = some a) ∧
    ∀ ts ∈ m.tables, ∀ (key : Text) (a : ArchRow), (v.target ts.name).arch[key]? = some a →
      (w₀.target ts.name).arch[key]? = some a ∨
        ∃ row raw source, UnloadedRow ts (w₀.source ts.name) (v.source ts.name) (v.target ts.name) row raw ∧
          ts.convert raw = .ok row.key a.values source ∧ a.sourceKey = row.key ∧ key = ts.targetKey a.values ∧
          a.rowHash = ts.sourceHash source ∧ a.rowHash = ts.targetHash a.values := by
  have atFirst := (Growing.start m initial).reaches first
  have atEnd := atFirst.reaches later
  refine ⟨(atFirst.again.reaches later).stays, ?_⟩
  intro ts member key a held
  rcases atEnd.added ts member key a held with old | ⟨raw, source, record, converted, here, hash, values⟩
  · exact Or.inl old
  · obtain ⟨row, own, out, selected, accounted⟩ := (atEnd.filed ts member).row_of_record record
    have there := atEnd.known ts member a.sourceKey raw record
    rw [← own] at there record converted
    exact Or.inr ⟨row, raw, source, ⟨there, selected, out, record, accounted⟩, converted, own.symm, here, hash,
      hash.trans values.symm⟩

end

/-- A whole run in which the application updates K once it is unloaded, and a second whole run. -/
def runTwice : World := docManifest.after (docManifest.after twoDocs [updateAfterUnload]) [.calm .all]

/-- K is archived with the charge it was unloaded with; the second run leaves that row as it is. -/
theorem archived_before_update : ∃ a row raw, (runTwice.target "DOCARCH").arch[['K']]? = some a ∧
    UnloadedRow docTable (twoDocs.source "DOCARCH") (runTwice.source "DOCARCH") (runTwice.target "DOCARCH") row raw ∧
    a.rowHash = docHash (docRow 'K' 'Y' 1).2 ∧ a.rowHash = docHash a.values := by
  have archived : (((docManifest.after twoDocs [updateAfterUnload]).target "DOCARCH").arch[['K']]?).map ArchRow.rowHash =
      some (docHash (docRow 'K' 'Y' 1).2) := by decide +kernel
  obtain ⟨a, held, hash⟩ := Option.map_eq_some_iff.mp archived
  have first : docManifest.Reaches (Drift.updates.weather True) (fun _ _ => True) twoDocs
      (docManifest.after twoDocs [updateAfterUnload]) := by
    apply Manifest.reaches_after
    intro e member
    rw [List.mem_singleton.mp member]
    exact ⟨updateAfterUnload_within, fun _ => trivial⟩
  have later : docManifest.Reaches (Drift.updates.weather True) (fun _ _ => True)
      (docManifest.after twoDocs [updateAfterUnload]) runTwice := by
    apply Manifest.reaches_after
    intro e member
    rw [List.mem_singleton.mp member]
    exact ⟨Execution.calm_within _ _ _, fun _ => trivial⟩
  obtain ⟨stays, added⟩ := archive_append_only ⟨rfl, fun _ => rfl, fun _ => rfl⟩ first later
  have kept := stays _ _ _ held
  rcases added docTable (List.mem_singleton.mpr rfl) _ _ kept with old | ⟨row, raw, _, unloaded, _, _, _, _, same⟩
  · cases old
  · exact ⟨a, row, raw, kept, unloaded, hash, same⟩

end OtterWorks.Migration
