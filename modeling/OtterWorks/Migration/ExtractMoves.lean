import OtterWorks.Migration.Climate

namespace OtterWorks.Migration

/-- The range as recorded is the one given, and not yet DONE. -/
def Pending (rng : KeyRange) (ranges : List KeyRange) : Prop :=
  ∃ r ∈ ranges, r.rangeSeq = rng.rangeSeq ∧ r.keyFrom = rng.keyFrom ∧ r.keyTo = rng.keyTo ∧ r.status ≠ .done

def AllExtracted (t : TargetTable) : Prop := ∀ r ∈ t.ranges, r.status = .done

def extractedCount (t : TargetTable) : Nat := (t.ranges.map fun r => r.rowCount.getD 0).sum

/-- What a driver call of EXTRACT changes, and what is known when it does. -/
inductive ExtractMove (D : Drift) (batch : BatchConfig) (ts : TableSpec) (w : World) : World → Prop
  | plan (keys : List Key) (s₀ : SourceTable) (blank : (w.target ts.name).ranges = [])
      (drift : D.rel s₀ (w.source ts.name)) (selected : keys = selectedKeys ts s₀.rows) :
      ExtractMove D batch ts w (w.onTarget ts.name fun t =>
        { t with ranges := t.ranges ++ planRanges keys batch.extractRangeRows })
  | status (rng : KeyRange) (st : RangeStatus) (pending : Pending rng (w.target ts.name).ranges) (open_ : st ≠ .done) :
      ExtractMove D batch ts w (w.onTarget ts.name fun t =>
        t.onRange rng.rangeSeq fun r => { r with status := st })
  | file (rng : KeyRange) (write : Option (List Raw) → List Raw) (pending : Pending rng (w.target ts.name).ranges) :
      ExtractMove D batch ts w (w.onTarget ts.name fun t =>
        { t with files := t.files.insert rng.rangeSeq (write t.files[rng.rangeSeq]?) })
  | fetch (rng : KeyRange) (pending : Pending rng (w.target ts.name).ranges) :
      ExtractMove D batch ts w (w.onSource ts.name fun s =>
        { s with edited := s.edited.dropKeys ((rangeRows ts rng.keyFrom rng.keyTo s.rows).map SourceRow.key) })
  | finish (rng : KeyRange) (rows : List SourceRow) (records : List Raw) (s₁ : SourceTable)
      (pending : Pending rng (w.target ts.name).ranges) (file : (w.target ts.name).files[rng.rangeSeq]? = some records)
      (unloaded : List.Forall₂ (fun row raw => ts.unload row = .ok raw) rows records)
      (fetched : rows = rangeRows ts rng.keyFrom rng.keyTo s₁.rows) (drift : D.rel s₁ (w.source ts.name))
      (clean : ∀ row ∈ rows, row.key ∉ s₁.edited) :
      ExtractMove D batch ts w (w.onTarget ts.name fun t =>
        t.onRange rng.rangeSeq fun r => { r with status := .done, rowCount := some rows.length })
  | ledger (n files : Nat) (all : AllExtracted (w.target ts.name)) (count : n = extractedCount (w.target ts.name)) :
      ExtractMove D batch ts w (w.onTarget ts.name fun t =>
        t.onLedger fun l => { l with extracted := some n, extractFiles := some files })

section

variable {D : Drift} {F : Prop} {batch : BatchConfig} {ts : TableSpec} {I : World → Prop}

theorem Pending.onRange {rng : KeyRange} {ranges : List KeyRange} (pending : Pending rng ranges)
    {f : KeyRange → KeyRange} (shape : ∀ r, (f r).rangeSeq = r.rangeSeq ∧ (f r).keyFrom = r.keyFrom ∧
      (f r).keyTo = r.keyTo) {seq : Nat} (open_ : seq = rng.rangeSeq → ∀ r, (f r).status ≠ .done) :
    Pending rng (ranges.map fun r => if r.rangeSeq = seq then f r else r) := by
  obtain ⟨r, hr, hseq, hfrom, hto, hst⟩ := pending
  refine ⟨if r.rangeSeq = seq then f r else r, List.mem_map.mpr ⟨r, hr, rfl⟩, ?_⟩
  split
  next same =>
    obtain ⟨s, a, b⟩ := shape r
    exact ⟨s.trans hseq, a.trans hfrom, b.trans hto, open_ (same.symm.trans hseq) r⟩
  next => exact ⟨hseq, hfrom, hto, hst⟩

theorem clean_fetch (s : SourceTable) (rng : KeyRange) :
    ∀ row ∈ rangeRows ts rng.keyFrom rng.keyTo s.rows,
      row.key ∉ s.edited.dropKeys ((rangeRows ts rng.keyFrom rng.keyTo s.rows).map SourceRow.key) := by
  intro row hr held
  have some := Std.ExtTreeMap.isSome_getElem?_iff_mem.mpr held
  rw [KeyMap.getElem?_dropKeys, if_pos (List.mem_map.mpr ⟨row, hr, rfl⟩)] at some
  cases some

/-- What the unload of a range leaves: the file holds the rows it fetched, none of them edited before. -/
def Unloaded (D : Drift) (ts : TableSpec) (rng : KeyRange) (n : Nat) (v : World) : Prop :=
  ∃ rows records s₁, n = rows.length ∧ (v.target ts.name).files[rng.rangeSeq]? = some records ∧
    List.Forall₂ (fun row raw => ts.unload row = .ok raw) rows records ∧
    rows = rangeRows ts rng.keyFrom rng.keyTo s₁.rows ∧ D.rel s₁ (v.source ts.name) ∧
    ∀ row ∈ rows, row.key ∉ s₁.edited

theorem Unloaded.moves {rng : KeyRange} {n : Nat} {v u : World} (h : Unloaded D ts rng n v) (moves : D.Moves v u) :
    Unloaded D ts rng n u := by
  obtain ⟨rows, records, s₁, count, file, unloaded, fetched, drift, clean⟩ := h
  refine ⟨rows, records, s₁, count, ?_, unloaded, fetched, D.trans _ _ _ drift (moves.source _), clean⟩
  rw [moves.target]
  exact file

theorem keeps_builtinUnload (stable : D.Stable I) (closed : ∀ u v, ExtractMove D batch ts u v → I u → I v)
    {rng : KeyRange} {ranges : List KeyRange} (pending : Pending rng ranges) {w : World} (hI : I w)
    (hw : (w.target ts.name).ranges = ranges) :
    wp (D.weather F) (builtinUnload ts rng) (.keeps I
      (fun n v => (v.target ts.name).ranges = ranges ∧ Unloaded D ts rng n v)
      fun _ v => (v.target ts.name).ranges = ranges) w := by
  unfold builtinUnload openFile
  have still : ∀ {v u : World}, D.Moves v u → (v.target ts.name).ranges = ranges →
      (u.target ts.name).ranges = ranges := by
    intro v u hu hv
    rw [hu.target]
    exact hv
  refine keeps_bind (keeps_write stable hI ?_ ?_) ?_
  · intro u hu hIu
    exact closed u _ (.file rng (fun _ => []) (still hu hw ▸ pending)) hIu
  · exact fun u hu _ => ⟨still hu hw, by simpa using still hu hw⟩
  rintro _ _ hIv ⟨u, hu, rfl⟩
  -- the cursor reads the rows as they are at one moment
  refine keeps_bind (R := fun rows v => (v.target ts.name).ranges = ranges ∧
    (v.target ts.name).files[rng.rangeSeq]? = some [] ∧
    ∃ s₁, rows = rangeRows ts rng.keyFrom rng.keyTo s₁.rows ∧ D.rel s₁ (v.source ts.name) ∧
      ∀ row ∈ rows, row.key ∉ s₁.edited) ?_ ?_
  · apply keeps_call (C := fun v => (v.target ts.name).ranges = ranges ∧
      (v.target ts.name).files[rng.rangeSeq]? = some [])
    · intro v hv
      refine ⟨stable _ v hv hIv, still hv (by simpa using still hu hw), ?_⟩
      rw [hv.target]
      simp
    · rintro v hIv ⟨hranges, hfile⟩
      refine ⟨closed v _ (.fetch rng (hranges ▸ pending)) hIv, by simpa using hranges, by simpa using hfile, ?_⟩
      refine ⟨_, ?_, D.refl _, ?_⟩
      · simp
      · simpa using clean_fetch (v.source ts.name) rng
    · rintro _ v _ ⟨hranges, _⟩ e
      exact ⟨hranges, by simpa using hranges⟩
  · rintro rows v hIv ⟨hranges, hfile, s₁, fetched, drift, clean⟩
    refine keeps_bind (R := fun _ v => (v.target ts.name).ranges = ranges ∧ Unloaded D ts rng rows.length v) ?_ ?_
    · apply keeps_forM (J := fun rest v => (v.target ts.name).ranges = ranges ∧
        D.rel s₁ (v.source ts.name) ∧ ∃ done records, rows = done ++ rest ∧
          (v.target ts.name).files[rng.rangeSeq]? = some records ∧
          List.Forall₂ (fun row raw => ts.unload row = .ok raw) done records)
      · rintro row rest v _ hIv ⟨hranges, drift, done, records, split, file, unloaded⟩
        cases hraw : ts.unload row with
        | error e => exact keeps_throw hIv hranges
        | ok raw =>
          refine keeps_mono (keeps_write stable hIv ?_ ?_) ?_ fun _ _ _ h => h
          · intro u hu hIu
            exact closed u _ (.file rng (fun old => old.getD [] ++ [raw]) (still hu hranges ▸ pending)) hIu
          · exact fun u hu _ => ⟨still hu hranges, by simpa using still hu hranges⟩
          · rintro _ _ _ ⟨u, hu, rfl⟩
            refine ⟨by simpa using still hu hranges, D.trans _ _ _ drift (hu.source _),
              done ++ [row], records ++ [raw], by simp [split], ?_, ?_⟩
            · rw [World.onTarget_self, hu.target, file]
              simp
            · exact List.rel_append unloaded (.cons hraw .nil)
      · rintro v _ ⟨hranges, drift, done, records, split, file, unloaded⟩
        rw [List.append_nil] at split
        subst split
        exact ⟨hranges, _, records, s₁, rfl, file, unloaded, fetched, drift, clean⟩
      · exact hIv
      · exact ⟨hranges, drift, [], [], rfl, hfile, .nil⟩
    · rintro _ v hIv done
      exact keeps_pure hIv done

theorem onRange_split {before after : List KeyRange} {rng : KeyRange}
    (apart : ∀ r ∈ before ++ after, r.rangeSeq ≠ rng.rangeSeq) {r : KeyRange} (same : r.rangeSeq = rng.rangeSeq)
    (f : KeyRange → KeyRange) :
    (before ++ r :: after).map (fun r => if r.rangeSeq = rng.rangeSeq then f r else r) =
      before ++ f r :: after := by
  have outside : ∀ l : List KeyRange, (∀ r ∈ l, r.rangeSeq ≠ rng.rangeSeq) →
      l.map (fun r => if r.rangeSeq = rng.rangeSeq then f r else r) = l := by
    intro l hl
    rw [List.map_congr_left (g := id)]
    · simp
    · intro r hr
      simp [hl r hr]
  rw [List.map_append, List.map_cons, if_pos same, outside before fun r h => apart r (by simp [h]),
    outside after fun r h => apart r (by simp [h])]

/-- `run_range` ends with the range DONE, or leaves it pending. -/
theorem keep_runRange (stable : D.Stable I) (closed : ∀ u v, ExtractMove D batch ts u v → I u → I v)
    {rng : KeyRange} {before after : List KeyRange} (open_ : rng.status ≠ .done)
    (apart : ∀ r ∈ before ++ after, r.rangeSeq ≠ rng.rangeSeq) {w : World} (hI : I w)
    (hw : (w.target ts.name).ranges = before ++ rng :: after) :
    wp (D.weather F) (runRange ts rng) (.keep I fun done v => done.rangeSeq = rng.rangeSeq ∧
      done.status = .done ∧ (v.target ts.name).ranges = before ++ done :: after) w := by
  have still : ∀ {v u : World} {ranges : List KeyRange}, D.Moves v u → (v.target ts.name).ranges = ranges →
      (u.target ts.name).ranges = ranges := by
    intro v u ranges hu hv
    rw [hu.target]
    exact hv
  have pend : ∀ st, st ≠ .done → Pending rng (before ++ { rng with status := st } :: after) :=
    fun st hst => ⟨{ rng with status := st }, by simp, rfl, rfl, rfl, hst⟩
  unfold runRange updateKeyRange
  refine keeps_bind (keep_write stable hI ?_) ?_
  · intro u hu hIu
    exact closed u _ (.status rng .running (still hu hw ▸ pend rng.status open_) (by decide)) hIu
  rintro _ _ hIv ⟨u, hu, rfl⟩
  have running : ((u.onTarget ts.name fun t => t.onRange rng.rangeSeq fun r =>
      { r with status := .running }).target ts.name).ranges =
        before ++ { rng with status := .running } :: after := by
    rw [World.onTarget_self, TargetTable.onRange_ranges, still hu hw]
    exact onRange_split apart rfl _
  have pending := pend .running (by decide)
  refine keeps_bind (R := fun n v => (v.target ts.name).ranges = before ++ { rng with status := .running } :: after ∧
    Unloaded D ts rng n v) ?_ ?_
  · refine keeps_tryCatch (G := fun _ v =>
      (v.target ts.name).ranges = before ++ { rng with status := .running } :: after) ?_ ?_
    · refine keeps_bind (keeps_builtinUnload stable closed pending hIv running) ?_
      rintro n v hIv ⟨hranges, unloaded⟩
      refine keeps_bind (keeps_touch stable hIv fun u hu _ => still hu hranges) ?_
      rintro _ v' hIv' moves
      exact keeps_pure hIv' ⟨still moves hranges, unloaded.moves moves⟩
    · rintro e v hIv hranges
      by_cases ldm : e.isLdm
      · rw [if_pos ldm]
        refine keeps_bind (keep_write stable hIv ?_) ?_
        · intro u hu hIu
          exact closed u _ (.status rng .failed (still hu hranges ▸ pending) (by decide)) hIu
        · rintro _ v' hIv' _
          exact keeps_throw hIv' trivial
      · rw [if_neg ldm]
        exact keeps_bind (R := fun _ _ => True) (keeps_pure hIv trivial) fun _ v' hIv' _ => keeps_throw hIv' trivial
  · rintro n v hIv ⟨hranges, unloaded⟩
    refine keeps_bind (keep_write stable hIv ?_) ?_
    · intro u hu hIu
      obtain ⟨rows, records, s₁, count, file, each, fetched, drift, clean⟩ := unloaded.moves hu
      subst count
      exact closed u _ (.finish rng rows records s₁ (still hu hranges ▸ pending) file each fetched drift clean) hIu
    · rintro _ _ hIv' ⟨u, hu, rfl⟩
      refine keeps_pure hIv' ⟨rfl, rfl, ?_⟩
      rw [World.onTarget_self, TargetTable.onRange_ranges, still hu hranges]
      exact onRange_split (r := { rng with status := .running }) apart rfl _

def InOrder (ranges : List KeyRange) : Prop := (ranges.map KeyRange.rangeSeq).Pairwise (· < ·)

theorem byRangeSeq_inOrder {ranges : List KeyRange} (order : InOrder ranges) : byRangeSeq ranges = ranges := by
  apply List.Pairwise.insertionSort_eq
  exact (List.pairwise_map.mp order).imp fun h => Nat.le_of_lt h

theorem planFrom_seqs {rangeRows budget seq : Nat} {keys : List Key} :
    ((planFrom rangeRows budget seq keys).map KeyRange.rangeSeq) =
      List.range' seq (planFrom rangeRows budget seq keys).length := by
  induction budget generalizing seq keys with
  | zero => rfl
  | succ budget ih =>
    unfold planFrom
    split
    next => rfl
    next => simp [List.range'_succ, ih]

theorem planRanges_inOrder (keys : List Key) (rangeRows : Nat) : InOrder (planRanges keys rangeRows) := by
  unfold InOrder planRanges
  rw [planFrom_seqs]
  exact List.pairwise_lt_range'

theorem InOrder.apart {before after : List KeyRange} {rng : KeyRange} (order : InOrder (before ++ rng :: after)) :
    ∀ r ∈ before ++ after, r.rangeSeq ≠ rng.rangeSeq := by
  unfold InOrder at order
  rw [List.map_append, List.map_cons, List.pairwise_append, List.pairwise_cons] at order
  obtain ⟨_, ⟨above, _⟩, below⟩ := order
  intro r hr
  rcases List.mem_append.mp hr with h | h
  · exact Nat.ne_of_lt (below _ (List.mem_map.mpr ⟨r, h, rfl⟩) _ (List.mem_cons_self ..))
  · exact Nat.ne_of_gt (above _ (List.mem_map.mpr ⟨r, h, rfl⟩))

theorem planRanges_nil {keys : List Key} {n : Nat} (pos : 0 < n) (none : planRanges keys n = []) : keys = [] := by
  cases keys with
  | nil => rfl
  | cons k keys =>
    obtain ⟨m, rfl⟩ : ∃ m, n = m + 1 := ⟨n - 1, by omega⟩
    cases none

/-- The ranges that EXTRACT goes through are those recorded; there are none only if no key is selected. -/
theorem keep_keyRanges (stable : D.Stable I) (closed : ∀ u v, ExtractMove D batch ts u v → I u → I v) {w : World}
    (hI : I w) :
    wp (D.weather F) (keyRanges batch ts) (.keep I fun ranges v => (v.target ts.name).ranges = ranges ∧
      ∃ s₀, D.rel s₀ (v.source ts.name) ∧ (ranges = [] → selectedKeys ts s₀.rows = [])) w := by
  unfold keyRanges
  refine keeps_bind (keep_read stable hI) ?_
  rintro ranges v hIv ⟨moves, rfl⟩
  by_cases empty : (w.target ts.name).ranges.isEmpty
  · rw [if_pos empty]
    have blank : (w.target ts.name).ranges = [] := List.isEmpty_iff.mp empty
    refine keeps_bind (keep_query stable hIv) ?_
    rintro keys v' hIv' ⟨moves', rfl⟩
    refine keeps_bind (keep_write stable hIv' ?_) ?_
    · intro u hu hIu
      have blank' : (u.target ts.name).ranges = [] := by rw [hu.target, moves'.target, moves.target, blank]
      exact closed u _ (.plan _ (v'.source ts.name) blank' (hu.source _) rfl) hIu
    · rintro _ _ hIv'' ⟨u, hu, rfl⟩
      refine keeps_pure hIv'' ⟨?_, v'.source ts.name, hu.source _, planRanges_nil batch.extractRangeRows_pos⟩
      rw [World.onTarget_self, hu.target, moves'.target, moves.target, blank]
      rfl
  · rw [if_neg empty]
    refine keeps_pure hIv ⟨by rw [moves.target], v.source ts.name, D.refl _, ?_⟩
    intro blank
    exact absurd (List.isEmpty_iff.mpr blank) empty

/-- The loop over the recorded ranges returns with every range DONE and counted. -/
theorem keep_extractRanges (stable : D.Stable I) (closed : ∀ u v, ExtractMove D batch ts u v → I u → I v)
    (numbered : ∀ v, I v → InOrder (v.target ts.name).ranges) {w : World} (hI : I w) {ranges : List KeyRange}
    (hranges : (w.target ts.name).ranges = ranges) :
    wp (D.weather F) (do
      let extracted ← (byRangeSeq ranges).foldlM (extractRange ts) 0
      updateLedger ts.name fun l => { l with extracted := some extracted, extractFiles := some ranges.length })
      (.keep I fun _ v => AllExtracted (v.target ts.name) ∧
        (v.target ts.name).ledger.extracted = some (extractedCount (v.target ts.name)) ∧
        (v.target ts.name).ranges.length = ranges.length) w := by
  have order : InOrder ranges := hranges ▸ numbered w hI
  rw [byRangeSeq_inOrder order]
  refine keeps_bind (R := fun extracted v => AllExtracted (v.target ts.name) ∧
    extracted = extractedCount (v.target ts.name) ∧ (v.target ts.name).ranges.length = ranges.length) ?_ ?_
  · apply keeps_foldlM (J := fun rest extracted v => ∃ done, (v.target ts.name).ranges = done ++ rest ∧
      (∀ r ∈ done, r.status = .done) ∧ extracted = (done.map fun r => r.rowCount.getD 0).sum ∧
      (done ++ rest).length = ranges.length)
    · rintro rng rest extracted v _ hIv ⟨done, hranges, all, sum, length⟩
      unfold extractRange
      by_cases finished : rng.status = .done
      · rw [if_pos finished]
        refine keeps_pure hIv ⟨done ++ [rng], by simp [hranges], ?_, by simp [sum], by simpa using length⟩
        intro r hr
        rcases List.mem_append.mp hr with h | h
        · exact all r h
        · exact List.mem_singleton.mp h ▸ finished
      · rw [if_neg finished]
        have apart := InOrder.apart (hranges ▸ numbered v hIv)
        refine keeps_bind (keep_runRange stable closed finished apart hIv hranges) ?_
        rintro rng' v' hIv' ⟨_, hdone, hranges'⟩
        refine keeps_pure hIv' ⟨done ++ [rng'], by simp [hranges'], ?_, by simp [sum], by simpa using length⟩
        intro r hr
        rcases List.mem_append.mp hr with h | h
        · exact all r h
        · exact List.mem_singleton.mp h ▸ hdone
    · rintro extracted v _ ⟨done, hranges, all, sum, length⟩
      rw [List.append_nil] at hranges length
      refine ⟨?_, ?_, ?_⟩
      · intro r hr
        exact all r (hranges ▸ hr)
      · rw [sum, extractedCount, hranges]
      · rw [hranges, length]
    · exact hI
    · exact ⟨[], by simp [hranges], by simp, rfl, rfl⟩
  · rintro extracted v hIv ⟨all, sum, length⟩
    refine keep_mono (keep_write stable hIv ?_) ?_
    · intro u hu hIu
      exact closed u _ (.ledger extracted _ (by rw [hu.target]; exact all) (by rw [hu.target]; exact sum)) hIu
    · rintro _ _ _ ⟨u, hu, rfl⟩
      rw [World.onTarget_self, hu.target, sum]
      exact ⟨all, rfl, length⟩

/-- EXTRACT of one table returns with every range DONE and counted. -/
theorem keep_extractTable (stable : D.Stable I) (closed : ∀ u v, ExtractMove D batch ts u v → I u → I v)
    (numbered : ∀ v, I v → InOrder (v.target ts.name).ranges) {w : World} (hI : I w) :
    wp (D.weather F) (extractTable batch ts) (.keep I fun _ v => AllExtracted (v.target ts.name) ∧
      (v.target ts.name).ledger.extracted = some (extractedCount (v.target ts.name))) w := by
  unfold extractTable
  refine keeps_bind (keep_keyRanges stable closed hI) ?_
  rintro ranges v hIv ⟨hranges, _⟩
  refine keep_mono (keep_extractRanges stable closed numbered hIv hranges) ?_
  rintro _ _ _ ⟨all, count, _⟩
  exact ⟨all, count⟩

end

end OtterWorks.Migration
