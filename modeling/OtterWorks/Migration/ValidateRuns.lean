import OtterWorks.Lib.Fallible
import OtterWorks.Lib.KeyPages
import OtterWorks.Migration.Climate
import OtterWorks.Migration.ValidateMoves

namespace OtterWorks.Migration

/-- Staged rows whose key is the one they are stored under. -/
def Keyed (t : TargetTable) : Prop := ∀ (k : Key) (row : StagedRow), t.staging[k]? = some row → row.sourceKey = k

section

variable {D : Drift} {F : Prop} {I : World → Prop} {table : String} {n : Nat} {β : Type}
  {body : β → List StagedRow → Job β} {J : β → Key → World → Prop} {Q : β → World → Prop} {K : List Key}
  {E : JobError → World → Prop}

theorem keeps_streamStaging (stable : D.Stable I) (pos : 0 < n) (fault : F → ∀ e v, E e v)
    (keyed : ∀ b last v, I v → J b last v → Keyed (v.target table))
    (same : ∀ b last v, J b last v → (v.target table).staging.keys = K)
    (drift : ∀ b last v u, D.Moves v u → J b last v → J b last u)
    (step : ∀ b last v page final, I v → J b last v → page = (v.target table).staging.page last n →
      page.getLast? = some final → wp (D.weather F) (body b (page.map Prod.snd)) (.keeps I (fun b u => J b final.1 u) E) v)
    (finish : ∀ b last v, I v → J b last v → (∀ k ∈ K, compare last k ≠ .lt) → Q b v) {pages : Nat} {last : Key}
    {b : β} {w : World} (enough : (K.filter fun k => compare last k == .lt).length < pages) (hI : I w)
    (start : J b last w) : wp (D.weather F) (streamStaging table n body pages last b) (.keeps I Q E) w := by
  induction pages generalizing last b w with
  | zero => omega
  | succ pages ih =>
    unfold streamStaging stagingPage
    refine keeps_bind (keeps_read stable hI fun faults u _ e => fault faults e u) ?_
    rintro _ v hIv ⟨moves, rfl⟩
    have here := drift _ _ _ _ moves start
    rw [← moves.target]
    cases hlast : ((v.target table).staging.page last n).getLast? with
    | none =>
      have empty : (v.target table).staging.page last n = [] := List.getLast?_eq_none_iff.mp hlast
      simp only [List.getLast?_map, hlast, Option.map_none]
      refine keeps_pure hIv (finish _ _ v hIv here ?_)
      intro k hk
      rw [← same _ _ _ here, Std.ExtTreeMap.mem_keys, ← Std.ExtTreeMap.isSome_getElem?_iff_mem] at hk
      obtain ⟨row, held⟩ := Option.isSome_iff_exists.mp hk
      exact @KeyMap.pageOf_nil _ _ _ _ _ _ pos empty ((k, row)) (KeyMap.mem_toList.mpr held)
    | some final =>
      simp only [List.getLast?_map, hlast, Option.map_some]
      obtain ⟨held, after⟩ := KeyMap.mem_pageOf (List.mem_of_getLast? hlast)
      have key : final.2.sourceKey = final.1 := keyed _ _ v hIv here _ _ (KeyMap.mem_toList.mp held)
      rw [key]
      refine keeps_bind (step b last v _ final hIv here rfl hlast) ?_
      intro b' u hIu hinv
      refine ih ?_ hIu hinv
      have member : final.1 ∈ K := by
        rw [← same _ _ _ here, ← Std.ExtTreeMap.map_fst_toList_eq_keys]
        exact List.mem_map.mpr ⟨final, held, rfl⟩
      have fewer := KeyMap.fewer_after member after
      omega

/-- A table read page by page: what each page takes to the next key holds at the end for all keys. -/
theorem keeps_iterStaging (stable : D.Stable I) (pos : 0 < n) (fault : F → ∀ e v, E e v)
    (keyed : ∀ b last v, I v → J b last v → Keyed (v.target table))
    (same : ∀ b last v, J b last v → (v.target table).staging.keys = K)
    (drift : ∀ b last v u, D.Moves v u → J b last v → J b last u)
    (step : ∀ b last v page final, I v → J b last v → page = (v.target table).staging.page last n →
      page.getLast? = some final → wp (D.weather F) (body b (page.map Prod.snd)) (.keeps I (fun b u => J b final.1 u) E) v)
    (finish : ∀ b last v, I v → J b last v → (∀ k ∈ K, compare last k ≠ .lt) → Q b v) {b : β} {w : World}
    (hI : I w) (start : J b [] w) : wp (D.weather F) (iterStaging table n body b) (.keeps I Q E) w := by
  unfold iterStaging countStaging
  refine keeps_bind (keeps_read stable hI fun faults u _ e => fault faults e u) ?_
  rintro _ v hIv ⟨moves, rfl⟩
  refine keeps_streamStaging stable pos fault keyed same drift step finish ?_ hIv (drift _ _ _ _ moves start)
  have size : K.length = (w.target table).staging.size := by
    rw [← same _ _ _ start, Std.ExtTreeMap.length_keys]
  rw [← size]
  exact Nat.lt_succ_of_le (List.length_filter_le _ _)

theorem keep_iterStaging (stable : D.Stable I) (pos : 0 < n) (keyed : ∀ v, I v → Keyed (v.target table))
    (same : ∀ b last v, J b last v → (v.target table).staging.keys = K)
    (drift : ∀ b last v u, D.Moves v u → J b last v → J b last u)
    (step : ∀ b last v page final, I v → J b last v → page = (v.target table).staging.page last n →
      page.getLast? = some final → wp (D.weather F) (body b (page.map Prod.snd)) (.keep I fun b u => J b final.1 u) v)
    (finish : ∀ b last v, I v → J b last v → (∀ k ∈ K, compare last k ≠ .lt) → Q b v) {b : β} {w : World}
    (hI : I w) (start : J b [] w) : wp (D.weather F) (iterStaging table n body b) (.keep I Q) w :=
  keeps_iterStaging stable pos (fun _ _ _ => trivial) (fun _ _ v hI _ => keyed v hI) same drift step finish hI start

end

/-- Staged under their own, non-empty keys. -/
def KeysOk (t : TargetTable) : Prop :=
  ∀ (k : Key) (row : StagedRow), t.staging[k]? = some row → row.sourceKey = k ∧ k ≠ []

/-- A table in the middle of VALIDATE: what it started from, but for verdicts, hashes, rejects and class totals. -/
structure Examining (ts : TableSpec) (w v : World) : Prop where
  plain : plainRows (v.target ts.name) = plainRows (w.target ts.name)
  frame : v.target ts.name = { w.target ts.name with
    staging := (v.target ts.name).staging
    rejects := (v.target ts.name).rejects
    validation := (v.target ts.name).validation
    classTotals := (v.target ts.name).classTotals }
  others : ∀ name, name ≠ ts.name → v.target name = w.target name

section

variable {D : Drift} {F : Prop} {batch : BatchConfig} {ts : TableSpec} {I : World → Prop} {w v : World}

theorem Examining.refl (ts : TableSpec) (w : World) : Examining ts w w := ⟨rfl, rfl, fun _ _ => rfl⟩

theorem Examining.drift {u : World} (h : Examining ts w v) (moves : D.Moves v u) : Examining ts w u := by
  obtain ⟨plain, frame, others⟩ := h
  refine ⟨?_, ?_, ?_⟩
  · rw [moves.target]
    exact plain
  · rw [moves.target]
    exact frame
  · intro name other
    rw [moves.target]
    exact others name other

theorem Examining.arch (h : Examining ts w v) : (v.target ts.name).arch = (w.target ts.name).arch := by
  rw [h.frame]

theorem Examining.clean (h : Examining ts w v) {row : StagedRow} (clean : Clean ts w row) : Clean ts v row := by
  refine ⟨clean.hash, ?_⟩
  rw [h.arch]
  exact clean.archived

theorem Examining.parent (h : Examining ts w v) {row : StagedRow} (seen : ParentSeen ts w row) :
    ForeignParentSeen ts v row := by
  intro parent hp foreign
  rw [h.others parent.table foreign]
  exact seen parent hp

theorem written_nil (ts : TableSpec) (g : StagedRow → Option Finding) (t : TargetTable) : written ts g [] t = t := by
  have staging : (t.staging.map fun _ row => row) = t.staging := by
    apply Std.ExtTreeMap.ext_getElem?
    intro k
    simp
  unfold written findingsOf
  simp only [List.map_nil, List.lookup_nil, staging, KeyMap.upsertAll, List.foldl_nil]

theorem persisted_nil (ts : TableSpec) (g : StagedRow → Option Finding) (t : TargetTable) : persisted ts g [] t = t := by
  have rejects : (t.rejects.filter fun k r => !(decide (k ∈ ([] : List Key)) && decide (r.stage = .validate))) =
      t.rejects := by
    apply Std.ExtTreeMap.ext_getElem?
    intro k
    rw [Std.ExtTreeMap.getElem?_filter']
    cases t.rejects[k]? with
    | none => rfl
    | some r => simp
  unfold persisted
  rw [written_nil]
  simp only [findingsOf, List.map_nil, List.filterMap_nil, KeyMap.addNew, List.foldl_nil]
  rw [rejects]

theorem mem_written {g : StagedRow → Option Finding} {rows : List StagedRow} {t : TargetTable} {k : Key} :
    k ∈ (written ts g rows t).staging ↔ k ∈ t.staging := by
  unfold written
  exact Std.ExtTreeMap.mem_map

/-- `write_validation`, its two writes. -/
theorem keep_writeValidation (g : StagedRow → Option Finding) (stable : D.Stable I)
    (closed : ∀ u v, ValidateMove ts u v → I u → I v) {rows : List StagedRow} (hI : I w)
    (held : ∀ row ∈ rows, ∃ r, (w.target ts.name).staging[row.sourceKey]? = some r ∧ r.plain = row.plain)
    (clean : ∀ row ∈ rows, g row = none → Clean ts w row ∧ ForeignParentSeen ts w row) :
    wp (D.weather F) (writeValidation ts.name ((findingsOf ts g rows).map (Candidate.validationRow ts))) (.keep I
      fun _ v => v.target ts.name = written ts g rows (w.target ts.name) ∧
        ∀ name, name ≠ ts.name → v.target name = w.target name) w := by
  unfold writeValidation upsertValidation setRowHashes
  by_cases none : ((findingsOf ts g rows).map (Candidate.validationRow ts)).isEmpty
  · rw [if_pos none]
    have empty : rows = [] := by simpa [findingsOf] using none
    subst empty
    exact keeps_pure hI ⟨(written_nil ts g _).symm, fun _ _ => rfl⟩
  · rw [if_neg none]
    refine keeps_bind (keep_write stable hI ?_) ?_
    · intro u hu hIu
      refine closed u _ (.verdicts _ ?_) hIu
      intro r hr
      rw [verdicts_eq] at hr
      obtain ⟨row, hrow, rfl⟩ := List.mem_map.mp hr
      obtain ⟨r', hr', same⟩ := held row hrow
      refine ⟨r', g row, ?_, ?_, ?_⟩
      · rw [(verdictOf_key row _).1, hu.target]
        exact hr'
      · rw [← @verdict_plain _ r', same, verdict_plain]
      · intro found
        obtain ⟨⟨hash, archived⟩, seen⟩ := clean row hrow found
        obtain ⟨_, values, record⟩ := @plain_eq ts _ _ same
        refine ⟨⟨?_, ?_⟩, ?_⟩
        · rw [values, record]
          exact hash
        · rw [values, record, hu.target]
          exact archived
        · intro parent hp foreign
          rw [values, hu.target]
          exact seen parent hp foreign
    rintro _ _ hI₁ ⟨u₁, hu₁, rfl⟩
    refine keep_mono (keep_write stable hI₁ ?_) ?_
    · intro u hu hIu
      refine closed u _ (.hashes _ ?_) hIu
      intro k h hmem
      rw [hash_entries] at hmem
      obtain ⟨row, hrow, entry⟩ := List.mem_map.mp hmem
      cases entry
      obtain ⟨r', hr', same⟩ := held row hrow
      refine ⟨r', ?_, ?_⟩
      · rw [hu.target, World.onTarget_self, hu₁.target]
        exact hr'
      · exact (plain_eq same).2.2.symm
    · rintro _ _ _ ⟨u₂, hu₂, rfl⟩
      refine ⟨?_, ?_⟩
      · rw [World.onTarget_self, hu₂.target, World.onTarget_self, hu₁.target]
        rfl
      · intro name other
        rw [World.onTarget_other other, hu₂.target, World.onTarget_other other, hu₁.target]

/-- `_persist` writes exactly what was found, or stops on the way. -/
theorem keep_persist (g : StagedRow → Option Finding) (stable : D.Stable I)
    (closed : ∀ u v, ValidateMove ts u v → I u → I v) {rows : List StagedRow} (hI : I w)
    (held : ∀ row ∈ rows, ∃ r, (w.target ts.name).staging[row.sourceKey]? = some r ∧ r.plain = row.plain)
    (clean : ∀ row ∈ rows, g row = none → Clean ts w row ∧ ForeignParentSeen ts w row) :
    wp (D.weather F) (persist ts (findingsOf ts g rows)) (.keep I fun _ v =>
      v.target ts.name = persisted ts g rows (w.target ts.name) ∧
        ∀ name, name ≠ ts.name → v.target name = w.target name) w := by
  have staged : ∀ row ∈ rows, row.sourceKey ∈ (w.target ts.name).staging := by
    intro row hr
    obtain ⟨r, hr, _⟩ := held row hr
    exact Std.ExtTreeMap.isSome_getElem?_iff_mem.mp (by rw [hr]; rfl)
  unfold persist deleteRejectsKeys flushRejects insertRejects
  refine keeps_bind (keep_writeValidation g stable closed hI held clean) ?_
  rintro _ v₁ hI₁ ⟨own₁, others₁⟩
  refine keeps_bind (keep_write stable hI₁ ?_) ?_
  · intro u hu hIu
    refine closed u _ (.dropRejects _ ?_) hIu
    intro k hk
    rw [finding_keys] at hk
    obtain ⟨row, hr, rfl⟩ := List.mem_map.mp hk
    rw [hu.target, own₁]
    exact mem_written.mpr (staged row hr)
  rintro _ _ hI₂ ⟨u₂, hu₂, rfl⟩
  have own₂ : (u₂.target ts.name) = written ts g rows (w.target ts.name) := by rw [hu₂.target, own₁]
  have others₂ : ∀ name, name ≠ ts.name → u₂.target name = w.target name := by
    intro name other
    rw [hu₂.target]
    exact others₁ name other
  split
  next none =>
    have empty : (findingsOf ts g rows).filterMap Candidate.reject = [] := List.isEmpty_iff.mp none
    refine keeps_pure hI₂ ⟨?_, ?_⟩
    · rw [World.onTarget_self, own₂]
      unfold persisted
      rw [empty]
      rfl
    · intro name other
      rw [World.onTarget_other other]
      exact others₂ name other
  next =>
    refine keep_mono (keep_write stable hI₂ ?_) ?_
    · intro u hu hIu
      refine closed u _ (.addRejects _ ?_) hIu
      intro r hr
      obtain ⟨c, hc, made⟩ := List.mem_filterMap.mp hr
      obtain ⟨row, hrow, rfl⟩ := List.mem_map.mp hc
      obtain ⟨f, _, rfl⟩ := Option.map_eq_some_iff.mp made
      refine ⟨rfl, ?_⟩
      rw [hu.target, World.onTarget_self, own₂]
      exact mem_written.mpr (staged row hrow)
    · rintro _ _ _ ⟨u₃, hu₃, rfl⟩
      refine ⟨?_, ?_⟩
      · rw [World.onTarget_self, hu₃.target, World.onTarget_self, own₂]
        rfl
      · intro name other
        rw [World.onTarget_other other, hu₃.target, World.onTarget_other other]
        exact others₂ name other

end

end OtterWorks.Migration
