import OtterWorks.Migration.JobRuns
import OtterWorks.Migration.Unloads

namespace OtterWorks.Migration

/-- The archive has a key under the business hash of its record. -/
def Archived (ts : TableSpec) (t : TargetTable) (k : Key) : Prop :=
  ∃ raw values source a, Recorded ts t.ranges t.files k raw ∧ ts.convert raw = .ok k values source ∧
    t.arch[ts.targetKey values]? = some a ∧ a.rowHash = ts.sourceHash source

/-- Staged rows are made of records, and what was promoted is archived. -/
structure Traced (ts : TableSpec) (t : TargetTable) : Prop where
  staged : ∀ (k : Key) (row : StagedRow), t.staging[k]? = some row →
    row.sourceKey = k ∧ Recorded ts t.ranges t.files k row.rawBytes ∧ Converted ts row
  promoted : ∀ k ∈ t.promoted, Archived ts t k

/-- What holds of the job's tables and of the source throughout a run that began in `w₀`. -/
structure Sound (m : Manifest) (w₀ w : World) : Prop where
  filed : ∀ ts ∈ m.tables, Filed ts (w.target ts.name).ranges (w.target ts.name).files (w.source ts.name)
  traced : ∀ ts ∈ m.tables, Traced ts (w.target ts.name)
  deletions : ∀ name, Deletions (w.source name)
  kept : ∀ name k, k ∈ (w₀.source name).rows ↔ k ∈ (w.source name).rows ∨ k ∈ (w.source name).audit
  audited : ∀ name, ∀ k ∈ (w.source name).audit, ∃ ts ∈ m.tables, ts.name = name ∧ ts.role = .data ∧
    k ∈ (w.target name).promoted
  purged : ∀ (name : String) (k : Key), (w.target name).purgeAudit[k]? = some .purged → k ∈ (w.source name).audit

section

variable {D : Drift} {m : Manifest} {ts : TableSpec} {t t' : TargetTable} {w₀ u v w : World}

theorem Manifest.same_table (m : Manifest) {a b : TableSpec} (ha : a ∈ m.tables) (hb : b ∈ m.tables)
    (same : a.name = b.name) : a = b := List.inj_on_of_nodup_map m.names_nodup ha hb same

theorem Archived.onward {k : Key} (h : Archived ts t k)
    (recorded : ∀ raw, Recorded ts t.ranges t.files k raw → Recorded ts t'.ranges t'.files k raw)
    (arch : ∀ (key : Text) (a : ArchRow), t.arch[key]? = some a → t'.arch[key]? = some a) : Archived ts t' k := by
  obtain ⟨raw, values, source, a, record, converted, held, hash⟩ := h
  exact ⟨raw, values, source, a, recorded raw record, converted, arch _ a held, hash⟩

/-- Rows leave the staging area, or get their hash. -/
theorem Traced.staging (h : Traced ts t) {staging : KeyMap Key StagedRow}
    (from_ : ∀ (k : Key) (row : StagedRow), staging[k]? = some row →
      ∃ r, t.staging[k]? = some r ∧ row.plain = r.plain) :
    Traced ts { t with staging := staging } := by
  refine ⟨?_, fun k hk => (h.promoted k hk).onward (fun _ h => h) fun _ _ h => h⟩
  intro k row held
  obtain ⟨r, there, same⟩ := from_ k row held
  obtain ⟨key, recorded, converted⟩ := h.staged k r there
  have sameKey : row.plain.sourceKey = r.plain.sourceKey := by rw [same]
  have raw : row.plain.rawBytes = r.plain.rawBytes := by rw [same]
  have values : row.plain.values = r.plain.values := by rw [same]
  change row.sourceKey = r.sourceKey at sameKey
  change row.rawBytes = r.rawBytes at raw
  change row.values = r.values at values
  refine ⟨sameKey.trans key, ?_, ?_⟩
  · rw [raw]
    exact recorded
  · unfold Converted
    rw [raw, values, sameKey]
    exact converted

/-- The ranges change, and the records that were there remain. -/
theorem Traced.ranges (h : Traced ts t) (staging : t'.staging = t.staging) (arch : t'.arch = t.arch)
    (promoted : t'.promoted = t.promoted)
    (recorded : ∀ k raw, Recorded ts t.ranges t.files k raw → Recorded ts t'.ranges t'.files k raw) :
    Traced ts t' := by
  constructor
  · intro k row held
    rw [staging] at held
    obtain ⟨key, record, converted⟩ := h.staged k row held
    exact ⟨key, recorded k _ record, converted⟩
  · intro k hk
    rw [promoted] at hk
    apply (h.promoted k hk).onward (recorded k)
    intro key a held
    rw [arch]
    exact held

theorem Sound.stable (m : Manifest) (w₀ : World) : D.Stable (Sound m w₀) := by
  intro w v moves h
  have audit : ∀ name, (v.source name).audit = (w.source name).audit := fun name => D.audit _ _ (moves.source name)
  refine ⟨?_, ?_, ?_, ?_, ?_, ?_⟩
  · intro ts member
    rw [moves.target]
    exact (h.filed ts member).drift (moves.source ts.name)
  · rw [moves.target]
    exact h.traced
  · exact fun name => (h.deletions name).drift (moves.source name)
  · intro name k
    rw [audit, D.keys _ _ (moves.source name)]
    exact h.kept name k
  · intro name k hk
    rw [audit] at hk
    rw [moves.target]
    exact h.audited name k hk
  · intro name k hk
    rw [moves.target] at hk
    rw [audit]
    exact h.purged name k hk

/-- A table of the target changes and PURGE's audit does not. -/
theorem Sound.onTarget (h : Sound m w₀ w) (member : ts ∈ m.tables) {f : TargetTable → TargetTable}
    (filed : Filed ts (f (w.target ts.name)).ranges (f (w.target ts.name)).files (w.source ts.name))
    (traced : Traced ts (f (w.target ts.name)))
    (promoted : ∀ k ∈ (w.target ts.name).promoted, k ∈ (f (w.target ts.name)).promoted)
    (audit : (f (w.target ts.name)).purgeAudit = (w.target ts.name).purgeAudit) :
    Sound m w₀ (w.onTarget ts.name f) := by
  refine ⟨?_, ?_, h.deletions, h.kept, ?_, ?_⟩
  · intro ts' member'
    by_cases same : ts'.name = ts.name
    · cases m.same_table member' member same
      rw [World.onTarget_self]
      exact filed
    · rw [World.onTarget_other same]
      exact h.filed ts' member'
  · intro ts' member'
    by_cases same : ts'.name = ts.name
    · cases m.same_table member' member same
      rw [World.onTarget_self]
      exact traced
    · rw [World.onTarget_other same]
      exact h.traced ts' member'
  · intro name k hk
    obtain ⟨owner, there, own, role, was⟩ := h.audited name k hk
    refine ⟨owner, there, own, role, ?_⟩
    by_cases same : name = ts.name
    · rw [same] at was ⊢
      rw [World.onTarget_self]
      exact promoted k was
    · rw [World.onTarget_other same]
      exact was
  · intro name k hk
    apply h.purged name k
    by_cases same : name = ts.name
    · rw [same, World.onTarget_self, audit] at hk
      rw [same]
      exact hk
    · rw [World.onTarget_other same] at hk
      exact hk

/-- The source of one table changes. -/
theorem Sound.onSource (h : Sound m w₀ w) (member : ts ∈ m.tables) {f : SourceTable → SourceTable}
    (filed : Filed ts (w.target ts.name).ranges (w.target ts.name).files (f (w.source ts.name)))
    (deletions : Deletions (f (w.source ts.name)))
    (kept : ∀ k, k ∈ (w₀.source ts.name).rows ↔
      k ∈ (f (w.source ts.name)).rows ∨ k ∈ (f (w.source ts.name)).audit)
    (audited : ∀ k ∈ (f (w.source ts.name)).audit,
      k ∈ (w.source ts.name).audit ∨ ts.role = .data ∧ k ∈ (w.target ts.name).promoted)
    (stays : ∀ k ∈ (w.source ts.name).audit, k ∈ (f (w.source ts.name)).audit) :
    Sound m w₀ (w.onSource ts.name f) := by
  refine ⟨?_, h.traced, ?_, ?_, ?_, ?_⟩
  · intro ts' member'
    by_cases same : ts'.name = ts.name
    · cases m.same_table member' member same
      rw [World.onSource_self]
      exact filed
    · rw [World.onSource_other same]
      exact h.filed ts' member'
  · intro name
    by_cases same : name = ts.name
    · rw [same, World.onSource_self]
      exact deletions
    · rw [World.onSource_other same]
      exact h.deletions name
  · intro name k
    by_cases same : name = ts.name
    · rw [same, World.onSource_self]
      exact kept k
    · rw [World.onSource_other same]
      exact h.kept name k
  · intro name k hk
    by_cases same : name = ts.name
    · subst same
      rw [World.onSource_self] at hk
      rcases audited k hk with old | ⟨role, promoted⟩
      · exact h.audited ts.name k old
      · exact ⟨ts, member, rfl, role, promoted⟩
    · rw [World.onSource_other same] at hk
      exact h.audited name k hk
  · intro name k hk
    have old := h.purged name k hk
    by_cases same : name = ts.name
    · subst same
      rw [World.onSource_self]
      exact stays k old
    · rw [World.onSource_other same]
      exact old

theorem Sound.extract (h : Sound m w₀ w) {batch : BatchConfig} (member : ts ∈ m.tables)
    (move : ExtractMove D batch ts w v) : Sound m w₀ v := by
  have filed := move.filed (h.deletions ts.name) (h.filed ts member)
  have recorded : ∀ k raw, Recorded ts (w.target ts.name).ranges (w.target ts.name).files k raw →
      Recorded ts (v.target ts.name).ranges (v.target ts.name).files k raw := fun k raw record =>
    move.recorded (h.filed ts member).numbered record
  have traced := h.traced ts member
  cases move with
  | fetch rng pending =>
    rw [World.onSource_self] at filed
    exact h.onSource member filed ⟨(h.deletions ts.name).gone, (h.deletions ts.name).deleted⟩ (h.kept ts.name)
      (fun _ hk => .inl hk) fun _ hk => hk
  | _ =>
    rw [World.onTarget_self] at filed recorded
    exact h.onTarget member filed (traced.ranges rfl rfl rfl recorded) (fun _ hk => hk) rfl

/-- The load status of a range changes nothing of its unload. -/
theorem Filed.loadStatus {ranges : List KeyRange} {files : KeyMap Nat (List Raw)} {s : SourceTable}
    (h : Filed ts ranges files s) (seq : Nat) (st : LoadStatus) :
    Filed ts (ranges.map fun r => if r.rangeSeq = seq then { r with loadStatus := st } else r) files s := by
  apply h.onRange
  · exact fun _ => ⟨rfl, rfl, rfl⟩
  · intro r hr _ done
    obtain ⟨rows, records, unload⟩ := h.unloaded r hr done
    exact ⟨rows, records, unload.file, unload.each, unload.within, unload.selected, unload.distinct, unload.counted,
      unload.accounted⟩

theorem Recorded.loadStatus {ranges : List KeyRange} {files : KeyMap Nat (List Raw)} {k : Key} {raw : Raw}
    (h : Recorded ts ranges files k raw) (seq : Nat) (st : LoadStatus) :
    Recorded ts (ranges.map fun r => if r.rangeSeq = seq then { r with loadStatus := st } else r) files k raw := by
  obtain ⟨r, hr, done, records, file, hraw, key⟩ := h
  refine ⟨_, List.mem_map.mpr ⟨r, hr, rfl⟩, ?_⟩
  split
  next => exact ⟨done, records, file, hraw, key⟩
  next => exact ⟨done, records, file, hraw, key⟩

/-- A row that LOAD makes of a range's record is made of a record. -/
theorem RowOf.traced {seq : Nat} {records : List Raw} {row : StagedRow} (row_ : RowOf ts seq records row)
    (loading : Loading seq records t) :
    Recorded ts t.ranges t.files row.sourceKey row.rawBytes ∧ Converted ts row := by
  obtain ⟨source, converted⟩ := row_.converted
  obtain ⟨r, hr, here, _⟩ := loading.running
  refine ⟨⟨r, hr, loading.extracted r hr, records, ?_, row_.record, ?_⟩, source, converted⟩
  · rw [here]
    exact loading.file
  · rw [converted]
    rfl

theorem LoadMove.traced (move : LoadMove ts w v) (h : Traced ts (w.target ts.name)) : Traced ts (v.target ts.name) := by
  have filtered : ∀ p : Key → StagedRow → Bool, Traced ts { w.target ts.name with
      staging := (w.target ts.name).staging.filter p } := by
    intro p
    apply h.staging
    intro k row held
    rw [Std.ExtTreeMap.getElem?_filter'] at held
    exact ⟨row, (Option.filter_eq_some_iff.mp held).1, rfl⟩
  cases move with
  | rollStaging seq records loading =>
    rw [World.onTarget_self]
    exact filtered _
  | start seq extracted waits =>
    rw [World.onTarget_self]
    exact h.ranges rfl rfl rfl fun k raw record => record.loadStatus seq .running
  | done seq records loading settled =>
    rw [World.onTarget_self]
    exact h.ranges rfl rfl rfl fun k raw record => record.loadStatus seq .done
  | stage seq records rows staging loading each staged =>
    rw [World.onTarget_self]
    obtain ⟨rfl, _, _⟩ := stageAll_inv staged
    refine ⟨?_, fun k hk => (h.promoted k hk).onward (fun _ h => h) fun _ _ h => h⟩
    intro k row held
    rcases KeyMap.upsertAll_cases held with new | old
    · obtain ⟨row', hrow, same⟩ := List.mem_map.mp new
      cases same
      obtain ⟨recorded, converted⟩ := (each row hrow).traced loading
      exact ⟨rfl, recorded, converted⟩
    · exact h.staged k row old.2
  | _ =>
    rw [World.onTarget_self]
    exact h.ranges rfl rfl rfl fun _ _ record => record

theorem Sound.load (h : Sound m w₀ w) (member : ts ∈ m.tables) (move : LoadMove ts w v) : Sound m w₀ v := by
  have traced := move.traced (h.traced ts member)
  have filed := h.filed ts member
  cases move with
  | start seq extracted waits =>
    rw [World.onTarget_self] at traced
    exact h.onTarget member (filed.loadStatus seq .running) traced (fun _ hk => hk) rfl
  | done seq records loading settled =>
    rw [World.onTarget_self] at traced
    exact h.onTarget member (filed.loadStatus seq .done) traced (fun _ hk => hk) rfl
  | _ =>
    rw [World.onTarget_self] at traced
    exact h.onTarget member filed traced (fun _ hk => hk) rfl

/-- A promotion archives what it finds VALIDATED, under the hashes it has checked. -/
theorem Traced.promote (h : Traced ts (w.target ts.name)) {rows : List (Text × ArchRow)}
    (found : promotion ts (w.target ts.name) = some rows) (distinct : (rows.map Prod.fst).Nodup)
    (clean : ∀ k row, (k, row) ∈ validatedStaged (w.target ts.name) →
      row.rowHash = some (recordHash ts row) ∧ Clean ts w row) :
    Traced ts { w.target ts.name with
      arch := (w.target ts.name).arch.upsertAll rows
      promoted := (w.target ts.name).promoted.addNew
        ((validatedStaged (w.target ts.name)).map fun row => (row.1, ())) } := by
  have listed := mapM_some.mp found
  have fresh : ∀ (key : Text) (a : ArchRow), (w.target ts.name).arch[key]? = some a →
      ((w.target ts.name).arch.upsertAll rows)[key]? = some a := by
    intro key a held
    rw [KeyMap.upsertAll_of_not_mem, held]
    intro new
    obtain ⟨entry, there, same⟩ := List.mem_map.mp new
    obtain ⟨row, hrow, made⟩ := forall₂_right listed there
    obtain ⟨_, _, rfl⟩ := Option.map_eq_some_iff.mp made
    have absent := (List.mem_filter.mp hrow).2
    simp only at same
    rw [same] at absent
    simp [Std.ExtTreeMap.contains_eq_isSome_getElem?, held] at absent
  refine ⟨h.staged, ?_⟩
  intro k hk
  rcases KeyMap.mem_addNew.mp hk with old | new
  · exact (h.promoted k old).onward (fun _ record => record) fresh
  · obtain ⟨entry, there, same⟩ := List.mem_map.mp new
    obtain ⟨⟨k', row⟩, valid, rfl⟩ := List.mem_map.mp there
    cases same
    obtain ⟨hashed, hash, archived⟩ := clean k' row valid
    obtain ⟨key, recorded, source, converted⟩ := h.staged k' row (mem_validatedStaged.mp valid).1
    have record : recordHash ts row = ts.sourceHash source := by
      unfold recordHash sourceOf
      rw [converted]
    rw [key] at converted
    cases held : (w.target ts.name).arch[ts.targetKey row.values]? with
    | some a =>
      exact ⟨row.rawBytes, row.values, source, a, recorded, converted, fresh _ a held, (archived a held).trans record⟩
    | none =>
      have waits : (k', row) ∈ (validatedStaged (w.target ts.name)).filter fun row =>
          !(w.target ts.name).arch.contains (ts.targetKey row.2.values) := by
        refine List.mem_filter.mpr ⟨valid, ?_⟩
        simp [Std.ExtTreeMap.contains_eq_isSome_getElem?, held]
      obtain ⟨entry, inserted, made⟩ := forall₂_left listed waits
      simp only [hashed, Option.map_some, Option.some.injEq] at made
      have there : (ts.targetKey row.values, ⟨k', recordHash ts row, row.values⟩) ∈ rows := made ▸ inserted
      exact ⟨row.rawBytes, row.values, source, _, recorded, converted, KeyMap.upsertAll_of_mem distinct there, record⟩

theorem Sound.validate (h : Sound m w₀ w) (member : ts ∈ m.tables) (move : ValidateMove ts w v) : Sound m w₀ v := by
  have traced := h.traced ts member
  have filed := h.filed ts member
  have same : ∀ t : TargetTable, t.ranges = (w.target ts.name).ranges → t.files = (w.target ts.name).files →
      t.staging = (w.target ts.name).staging → t.arch = (w.target ts.name).arch →
      t.promoted = (w.target ts.name).promoted → Traced ts t := by
    intro t ranges files staging arch promoted
    apply traced.ranges staging arch promoted
    rw [ranges, files]
    exact fun _ _ record => record
  cases move with
  | hashes hashes each =>
    apply h.onTarget member filed _ (fun _ hk => hk) rfl
    exact traced.staging fun _ _ => hashed_row
  | promote rows found distinct clean =>
    exact h.onTarget member filed (traced.promote found distinct clean)
      (fun _ hk => KeyMap.mem_addNew.mpr (Or.inl hk)) rfl
  | _ => exact h.onTarget member filed (same _ rfl rfl rfl rfl rfl) (fun _ hk => hk) rfl

theorem Sound.run (h : Sound m w₀ w) (move : RunMove m w v) : Sound m w₀ v := by
  cases move with
  | begin absent => exact ⟨h.filed, h.traced, h.deletions, h.kept, h.audited, h.purged⟩
  | status st closes => exact ⟨h.filed, h.traced, h.deletions, h.kept, h.audited, h.purged⟩
  | dropStaging ts member closes =>
    apply h.onTarget member (h.filed ts member) _ (fun _ hk => hk) rfl
    apply (h.traced ts member).staging
    intro k row held
    rw [Std.ExtTreeMap.getElem?_empty] at held
    cases held

/-- What PURGE writes to the target: its own audit, where PURGED is said only of what the source has audited. -/
theorem Sound.purgeAudit (h : Sound m w₀ w) (source : v.source = w.source)
    (frame : ∀ name, SameButPurge (w.target name) (v.target name))
    (purged : ∀ (name : String) (k : Key), (v.target name).purgeAudit[k]? = some .purged →
      (w.target name).purgeAudit[k]? = some .purged ∨ k ∈ (w.source name).audit) : Sound m w₀ v := by
  have fields : ∀ name, (v.target name).ranges = (w.target name).ranges ∧
      (v.target name).files = (w.target name).files ∧ (v.target name).staging = (w.target name).staging ∧
      (v.target name).arch = (w.target name).arch ∧ (v.target name).promoted = (w.target name).promoted := by
    intro name
    have same := frame name
    unfold SameButPurge at same
    rw [same]
    exact ⟨rfl, rfl, rfl, rfl, rfl⟩
  refine ⟨?_, ?_, ?_, ?_, ?_, ?_⟩
  · intro ts member
    obtain ⟨ranges, files, _⟩ := fields ts.name
    rw [source, ranges, files]
    exact h.filed ts member
  · intro ts member
    obtain ⟨ranges, files, staging, arch, promoted⟩ := fields ts.name
    apply (h.traced ts member).ranges staging arch promoted
    rw [ranges, files]
    exact fun _ _ record => record
  · rw [source]
    exact h.deletions
  · rw [source]
    exact h.kept
  · intro name k hk
    rw [source] at hk
    obtain ⟨_, _, _, _, promoted⟩ := fields name
    rw [promoted]
    exact h.audited name k hk
  · intro name k hk
    rw [source]
    rcases purged name k hk with old | new
    · exact h.purged name k old
    · exact new

/-- What one unit of work of PURGE leaves of a source table. -/
def deleteKeys (keys : List Key) (s : SourceTable) : SourceTable :=
  { s with
    rows := s.rows.dropKeys keys
    audit := s.audit.addNew (keys.map fun k => (k, ()))
    deleted := s.deleted.addNew ((s.rows.toList.filter fun row => row.1 ∈ keys).map fun row =>
      (row.1, row.2, s.edited.contains row.1)) }

theorem deleteKeys_audit {keys : List Key} {s : SourceTable} {k : Key} :
    k ∈ (deleteKeys keys s).audit ↔ k ∈ s.audit ∨ k ∈ keys := by
  unfold deleteKeys
  rw [KeyMap.mem_addNew, List.map_map]
  simp

theorem deleteKeys_rows {keys : List Key} {s : SourceTable} {k : Key} :
    k ∈ (deleteKeys keys s).rows ↔ k ∈ s.rows ∧ k ∉ keys := KeyMap.mem_dropKeys

theorem Accounted.deleteKeys {s : SourceTable} {row : SourceRow} (h : Accounted s row) (keys : List Key) :
    Accounted (deleteKeys keys s) row := by
  constructor
  · intro columns held
    unfold Migration.deleteKeys at held
    simp only at held
    rw [KeyMap.getElem?_dropKeys] at held
    split at held
    next => cases held
    next => exact h.there columns held
  · intro columns held
    rcases KeyMap.addNew_cases held with old | ⟨_, new⟩
    · exact h.gone columns old
    · obtain ⟨entry, there, same⟩ := List.mem_map.mp new
      obtain ⟨listed, _⟩ := List.mem_filter.mp there
      simp only [Prod.mk.injEq] at same
      obtain ⟨key, value, unedited⟩ := same
      have found : s.rows[row.key]? = some columns := by
        rw [← key, ← value]
        exact KeyMap.mem_toList.mp listed
      rcases h.there columns found with edited | same
      · rw [key] at unedited
        have not := Std.ExtTreeMap.contains_iff_mem.mpr edited
        rw [unedited] at not
        cases not
      · exact same

theorem Deletions.deleteKeys {s : SourceTable} (h : Deletions s) {keys : List Key} (present : ∀ k ∈ keys, k ∈ s.rows) :
    Deletions (deleteKeys keys s) := by
  constructor
  · intro k hk held
    obtain ⟨there, apart⟩ := deleteKeys_rows.mp held
    rcases deleteKeys_audit.mp hk with old | new
    · exact h.gone k old there
    · exact apart new
  · intro k
    rw [deleteKeys_audit]
    unfold Migration.deleteKeys
    simp only
    rw [KeyMap.mem_addNew, h.deleted, List.map_map]
    apply or_congr_right
    constructor
    · intro listed
      obtain ⟨entry, there, rfl⟩ := List.mem_map.mp listed
      exact of_decide_eq_true (List.mem_filter.mp there).2
    · intro hk
      obtain ⟨columns, held⟩ := Option.isSome_iff_exists.mp (Std.ExtTreeMap.isSome_getElem?_iff_mem.mpr (present k hk))
      exact List.mem_map.mpr ⟨(k, columns), List.mem_filter.mpr ⟨KeyMap.mem_toList.mpr held, by simpa using hk⟩, rfl⟩

/-- PURGE deletes rows that have been promoted. -/
theorem Sound.batch (h : Sound m w₀ w) (member : ts ∈ m.tables) (role : ts.role = .data) {keys : List Key}
    (promoted : ∀ k ∈ keys, k ∈ (w.target ts.name).promoted) (present : ∀ k ∈ keys, k ∈ (w.source ts.name).rows) :
    Sound m w₀ (w.onSource ts.name (deleteKeys keys)) := by
  have filed := (h.filed ts member).source fun _ _ _ _ _ unload row hrow => (unload.accounted row hrow).deleteKeys keys
  apply h.onSource member filed ((h.deletions ts.name).deleteKeys present)
  · intro k
    rw [deleteKeys_rows, deleteKeys_audit, h.kept]
    by_cases hk : k ∈ keys
    · simp [hk, present k hk]
    · simp [hk]
  · intro k hk
    rcases deleteKeys_audit.mp hk with old | new
    · exact .inl old
    · exact .inr ⟨role, promoted k new⟩
  · exact fun k hk => deleteKeys_audit.mpr (.inl hk)

theorem onTarget_purgeAudit {table : String} {f : TargetTable → TargetTable}
    (audit : ∀ t, (f t).purgeAudit = t.purgeAudit) (name : String) :
    ((w.onTarget table f).target name).purgeAudit = (w.target name).purgeAudit := by
  by_cases same : name = table
  · rw [same, World.onTarget_self, audit]
  · rw [World.onTarget_other same]

/-- A key is newly marked PURGED only if the source has audited it. -/
theorem PurgeMove.audited {tables : List TableSpec} (move : PurgeMove tables w v) (name : String) (k : Key)
    (held : (v.target name).purgeAudit[k]? = some .purged) :
    (w.target name).purgeAudit[k]? = some .purged ∨ k ∈ (w.source name).audit := by
  have onAudit : ∀ (table : String) (audit : KeyMap Key PurgeStatus → KeyMap Key PurgeStatus),
      ((w.onTarget table fun t => { t with purgeAudit := audit t.purgeAudit }).target name).purgeAudit[k]? =
        some .purged →
      ((audit (w.target table).purgeAudit)[k]? = some .purged →
        (w.target table).purgeAudit[k]? = some .purged ∨ k ∈ (w.source table).audit) →
      (w.target name).purgeAudit[k]? = some .purged ∨ k ∈ (w.source name).audit := by
    intro table audit held said
    by_cases same : name = table
    · rw [same] at held ⊢
      rw [World.onTarget_self] at held
      exact said held
    · rw [World.onTarget_other same] at held
      exact Or.inl held
  cases move with
  | ledger ts f =>
    have each : ∀ t : TargetTable, (t.onLedger f).purgeAudit = t.purgeAudit := fun _ => rfl
    rw [onTarget_purgeAudit each] at held
    exact Or.inl held
  | intend ts keys =>
    apply onAudit ts.name (fun m => m.addNew (keys.map fun k => (k, .intended))) held
    intro held
    rcases KeyMap.addNew_cases held with old | ⟨_, new⟩
    · exact Or.inl old
    · obtain ⟨_, _, same⟩ := List.mem_map.mp new
      cases same
  | rolledBack ts keys =>
    apply onAudit ts.name (fun m => m.map fun k s => if k ∈ keys then .rolledBack else s) held
    intro held
    rw [Std.ExtTreeMap.getElem?_map] at held
    obtain ⟨status, there, made⟩ := Option.map_eq_some_iff.mp held
    split at made
    next => cases made
    next =>
      rw [made] at there
      exact Or.inl there
  | purged ts keys audited =>
    apply onAudit ts.name (fun m => m.map fun k s => if k ∈ keys then .purged else s) held
    intro held
    rw [Std.ExtTreeMap.getElem?_map] at held
    obtain ⟨status, there, made⟩ := Option.map_eq_some_iff.mp held
    split at made
    next here => exact Or.inr (audited k here)
    next =>
      rw [made] at there
      exact Or.inl there
  | batch => exact Or.inl held

theorem Sound.purge (h : Sound m w₀ w) (move : PurgeMove m.tablesInOrder w v) (ready : Ready m w) :
    Sound m w₀ v := by
  have frame := move.frame
  have audited := move.audited
  cases move with
  | batch ts keys member role agree safe fresh distinct free present =>
    have member' := mem_tablesInOrder.mp member
    exact h.batch member' role (fun k hk => ready agree.inOrder ts member' role k (safe k hk)) present
  | _ => exact h.purgeAudit (World.onTarget_source ..) frame audited

/-- It is an invariant of the job, whatever the application does to the source. -/
theorem Sound.kept_by (D : Drift) (m : Manifest) (w₀ : World) : Kept D m (Sound m w₀) where
  stable := .stable m w₀
  ok := by
    intro w h ts member
    refine ⟨(h.filed ts member).numbered, ?_, fun k row held => ((h.traced ts member).staged k row held).2.2⟩
    intro k row held
    obtain ⟨key, _, source, converted⟩ := (h.traced ts member).staged k row held
    refine ⟨key, ?_⟩
    rw [← key]
    exact ts.key_ne_nil _ _ _ _ converted
  stage := by
    intro u v move h
    cases move with
    | extract ts member move => exact h.extract member move
    | load ts member move => exact h.load member move
    | validate ts member move => exact h.validate member move
    | run move => exact h.run move
  purge := fun _ _ move ready h => h.purge move ready

/-- Before the first execution. -/
theorem Sound.start (m : Manifest) (initial : w₀.Initial) : Sound m w₀ w₀ := by
  have blank : ∀ name, (w₀.target name).ranges = [] ∧ (w₀.target name).staging = ∅ ∧
      (w₀.target name).promoted = ∅ ∧ (w₀.target name).purgeAudit = ∅ := by
    intro name
    rw [initial.target_blank name]
    exact ⟨rfl, rfl, rfl, rfl⟩
  have clean : ∀ name, (w₀.source name).audit = ∅ ∧ (w₀.source name).deleted = ∅ := by
    intro name
    rw [initial.source_clean name]
    exact ⟨rfl, rfl⟩
  refine ⟨?_, ?_, ?_, ?_, ?_, ?_⟩
  · intro ts _
    rw [(blank ts.name).1]
    exact ⟨.nil, .nil, fun _ h => by cases h⟩
  · intro ts _
    obtain ⟨_, staging, promoted, _⟩ := blank ts.name
    constructor
    · intro k row held
      rw [staging, Std.ExtTreeMap.getElem?_empty] at held
      cases held
    · intro k hk
      rw [promoted] at hk
      exact absurd hk Std.ExtTreeMap.not_mem_empty
  · intro name
    obtain ⟨audit, deleted⟩ := clean name
    constructor
    · intro k hk
      rw [audit] at hk
      exact absurd hk Std.ExtTreeMap.not_mem_empty
    · intro k
      rw [audit, deleted]
      simp
  · intro name k
    rw [(clean name).1]
    simp
  · intro name k hk
    rw [(clean name).1] at hk
    exact absurd hk Std.ExtTreeMap.not_mem_empty
  · intro name k hk
    rw [(blank name).2.2.2, Std.ExtTreeMap.getElem?_empty] at hk
    cases hk

end

end OtterWorks.Migration
