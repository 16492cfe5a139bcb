import OtterWorks.Migration.Sample
import OtterWorks.Migration.Unloads

namespace OtterWorks.Migration

/-- The keys that a range selects. -/
def keysOf (keys : List Key) (r : KeyRange) : List Key := keys.filter (keyBetween r.keyFrom r.keyTo)

def AscendingKeys (keys : List Key) : Prop := keys.Pairwise fun a b => compare a b = .lt

section

variable {keys before chunk after : List Key} {first final k : Key} {n budget seq : Nat} {rng : KeyRange}

/-- In an ascending list exactly a chunk lies between its first and its last key. -/
theorem filter_between (sorted : AscendingKeys (before ++ (chunk ++ after))) (head : chunk.head? = some first)
    (last : chunk.getLast? = some final) : (before ++ (chunk ++ after)).filter (keyBetween first final) = chunk := by
  obtain ⟨sortedRest, below⟩ := (List.pairwise_append.mp sorted).2
  obtain ⟨sortedChunk, _, above⟩ := List.pairwise_append.mp sortedRest
  have firstIn : first ∈ chunk := List.mem_of_head? head
  have lastIn : final ∈ chunk := List.mem_of_getLast? last
  have none : before.filter (keyBetween first final) = [] := by
    apply List.filter_eq_nil_iff.mpr
    intro k hk between
    have less : compare k first = .lt := below k hk first (List.mem_append_left _ firstIn)
    exact (keyBetween_iff.mp between).1 (Std.OrientedCmp.gt_of_lt less)
  have beyond : after.filter (keyBetween first final) = [] := by
    apply List.filter_eq_nil_iff.mpr
    intro k hk between
    have less : compare final k = .lt := above final lastIn k hk
    exact (keyBetween_iff.mp between).2 (Std.OrientedCmp.gt_of_lt less)
  have all : chunk.filter (keyBetween first final) = chunk := by
    apply List.filter_eq_self.mpr
    intro k hk
    refine keyBetween_iff.mpr ⟨?_, ?_⟩
    · obtain ⟨tail, rfl⟩ := List.head?_eq_some_iff.mp head
      rcases List.mem_cons.mp hk with rfl | later
      · simp
      · have less := (List.pairwise_cons.mp sortedChunk).1 k later
        simp [less]
    · obtain ⟨front, rfl⟩ := List.getLast?_eq_some_iff.mp last
      rcases List.mem_append.mp hk with earlier | same
      · have less := (List.pairwise_append.mp sortedChunk).2.2 k earlier final (List.mem_singleton_self _)
        simp [less]
      · rw [List.mem_singleton.mp same]
        simp
  rw [List.filter_append, List.filter_append, none, beyond, all, List.nil_append, List.append_nil]

/-- The ranges planned of the keys from some place on select exactly these keys. -/
theorem planFrom_selects (pos : 0 < n) (enough : keys.length ≤ budget) (sorted : AscendingKeys (before ++ keys)) :
    (planFrom n budget seq keys).flatMap (keysOf (before ++ keys)) = keys ∧
      ∀ r ∈ planFrom n budget seq keys, (keysOf (before ++ keys) r).length ≤ n := by
  induction budget generalizing seq keys before with
  | zero =>
    have none : keys = [] := List.length_eq_zero_iff.mp (by omega)
    subst none
    exact ⟨rfl, fun r hr => by cases hr⟩
  | succ budget ih =>
    unfold planFrom
    split
    next none =>
      have empty : keys = [] := by
        rcases List.take_eq_nil_iff.mp none with zero | empty
        · omega
        · exact empty
      subst empty
      exact ⟨rfl, fun r hr => by cases hr⟩
    next first tail taken =>
      have whole : keys = (first :: tail) ++ keys.drop n := by rw [← taken, List.take_append_drop]
      have rest : (keys.drop n).length ≤ budget := by
        rw [List.length_drop]
        omega
      have moved : before ++ keys = (before ++ (first :: tail)) ++ keys.drop n := by
        rw [List.append_assoc, ← whole]
      obtain ⟨covered, small⟩ := @ih (keys.drop n) (before ++ (first :: tail)) (seq + 1) rest (moved ▸ sorted)
      have chunk : (before ++ keys).filter (keyBetween first ((first :: tail).getLast (by simp))) = first :: tail := by
        have split : before ++ keys = before ++ ((first :: tail) ++ keys.drop n) := by rw [← whole]
        rw [split]
        exact filter_between (split ▸ sorted) rfl (List.getLast?_eq_some_getLast (by simp))
      have length : (first :: tail).length ≤ n := by
        rw [← taken, List.length_take]
        omega
      rw [← moved] at covered small
      refine ⟨?_, ?_⟩
      · rw [List.flatMap_cons, covered, keysOf, chunk, ← whole]
      · intro r hr
        rcases List.mem_cons.mp hr with rfl | later
        · rw [keysOf, chunk]
          exact length
        · exact small r later

/-- The planned ranges select every key once, each at most as many as a range may have. -/
theorem planRanges_selects (pos : 0 < n) (sorted : AscendingKeys keys) :
    (planRanges keys n).flatMap (keysOf keys) = keys ∧
      ∀ r ∈ planRanges keys n, (keysOf keys r).length ≤ n :=
  @planFrom_selects keys [] n keys.length 1 pos (Nat.le_refl _) sorted

def KeyRange.bounds (r : KeyRange) : Nat × Key × Key := (r.rangeSeq, r.keyFrom, r.keyTo)

/-- The keys that EXTRACT selects of a table. -/
def selectedAt (ts : TableSpec) (w : World) : List Key := selectedKeys ts (w.source ts.name).rows

/-- A table as a run of EXTRACT may leave it when it is cut short: no ranges, or those planned, of which any set is
DONE. -/
structure Interrupted (batch : BatchConfig) (ts : TableSpec) (w : World) : Prop where
  planned : (w.target ts.name).ranges = [] ∨ (w.target ts.name).ranges.map KeyRange.bounds =
    (planRanges (selectedAt ts w) batch.extractRangeRows).map KeyRange.bounds
  counted : ∀ r ∈ (w.target ts.name).ranges, r.status = .done → r.rowCount = some (keysOf (selectedAt ts w) r).length

/-- The file of a range holds the records of the rows that the range selects. -/
def Written (ts : TableSpec) (rows : KeyMap Key Fields) (r : KeyRange) (t : TargetTable) : Prop :=
  ∃ records, t.files[r.rangeSeq]? = some records ∧
    List.Forall₂ (fun row raw => ts.unload row = .ok raw) (rangeRows ts r.keyFrom r.keyTo rows) records

/-- What a run of EXTRACT from `w` has come to. -/
structure Resumed (batch : BatchConfig) (ts : TableSpec) (w v : World) : Prop where
  rows : (v.source ts.name).rows = (w.source ts.name).rows
  interrupted : Interrupted batch ts v
  /-- What was DONE is left alone. -/
  kept : ∀ r ∈ (w.target ts.name).ranges, r.status = .done →
    r ∈ (v.target ts.name).ranges ∧ (v.target ts.name).files[r.rangeSeq]? = (w.target ts.name).files[r.rangeSeq]?
  /-- What is DONE now was DONE, or has been written. -/
  fresh : ∀ r ∈ (v.target ts.name).ranges, r.status = .done →
    r ∈ (w.target ts.name).ranges ∨ Written ts (w.source ts.name).rows r (v.target ts.name)

section

variable {batch : BatchConfig} {ts : TableSpec} {u v w : World} {ranges : List KeyRange} {seq : Nat} {r rng : KeyRange}

theorem rangeRows_keys (rows : KeyMap Key Fields) :
    (rangeRows ts rng.keyFrom rng.keyTo rows).map SourceRow.key = keysOf (selectedKeys ts rows) rng := by
  have both : ∀ row : Key × Fields, (keyBetween rng.keyFrom rng.keyTo row.1 && ts.selects ⟨row.1, row.2⟩) =
      (ts.selects ⟨row.1, row.2⟩ && keyBetween rng.keyFrom rng.keyTo row.1) := fun row => Bool.and_comm _ _
  unfold rangeRows keysOf selectedKeys
  rw [← Std.ExtTreeMap.map_fst_toList_eq_keys, Std.ExtTreeMap.toList_filter, Std.ExtTreeMap.toList_filter, List.map_map,
    List.filter_map, List.filter_filter]
  exact congrArg (List.map Prod.fst) (List.filter_congr fun row _ => (both row).symm)

theorem bounds_onRange {f : KeyRange → KeyRange} (shape : ∀ r, (f r).bounds = r.bounds) :
    (ranges.map fun r => if r.rangeSeq = seq then f r else r).map KeyRange.bounds = ranges.map KeyRange.bounds :=
  map_updated fun r _ _ => shape r

theorem Interrupted.inOrder (h : Interrupted batch ts w) : InOrder (w.target ts.name).ranges := by
  rcases h.planned with none | same
  · rw [none]
    exact List.Pairwise.nil
  · have seqs := congrArg (List.map Prod.fst) same
    rw [List.map_map, List.map_map] at seqs
    have ordered := planRanges_inOrder (selectedAt ts w) batch.extractRangeRows
    unfold InOrder at ordered ⊢
    exact (congrArg (List.Pairwise (· < ·)) seqs).mpr ordered

/-- A recorded range that has the number of a pending one is it. -/
theorem Interrupted.pending (h : Interrupted batch ts w) (pending : Pending rng (w.target ts.name).ranges)
    (listed : r ∈ (w.target ts.name).ranges) (same : r.rangeSeq = rng.rangeSeq) :
    r.status ≠ .done ∧ r.keyFrom = rng.keyFrom ∧ r.keyTo = rng.keyTo := by
  obtain ⟨r', there, seq, first, last, open_⟩ := pending
  cases h.inOrder.inj there listed (seq.trans same.symm)
  exact ⟨open_, first, last⟩

theorem Interrupted.same (h : Interrupted batch ts v) (ranges : (u.target ts.name).ranges = (v.target ts.name).ranges)
    (rows : (u.source ts.name).rows = (v.source ts.name).rows) : Interrupted batch ts u := by
  have keys : selectedAt ts u = selectedAt ts v := by
    unfold selectedAt
    rw [rows]
  refine ⟨?_, ?_⟩
  · rw [ranges, keys]
    exact h.planned
  · rw [ranges, keys]
    exact h.counted

/-- Files of pending ranges do not matter for what is DONE. -/
theorem Resumed.files (h : Resumed batch ts w v) (ranges : (u.target ts.name).ranges = (v.target ts.name).ranges)
    (source : (u.source ts.name).rows = (v.source ts.name).rows)
    (files : ∀ r ∈ (v.target ts.name).ranges, r.status = .done →
      (u.target ts.name).files[r.rangeSeq]? = (v.target ts.name).files[r.rangeSeq]?) : Resumed batch ts w u := by
  refine ⟨source.trans h.rows, h.interrupted.same ranges source, ?_, ?_⟩
  · intro r hr finished
    obtain ⟨still, file⟩ := h.kept r hr finished
    exact ⟨ranges ▸ still, (files r still finished).trans file⟩
  · intro r hr finished
    rw [ranges] at hr
    rcases h.fresh r hr finished with before | ⟨records, file, unloaded⟩
    · exact .inl before
    · exact .inr ⟨records, (files r hr finished).trans file, unloaded⟩

/-- A pending range changes its status; if it becomes DONE, it is counted and written. -/
theorem Resumed.onRange (h : Resumed batch ts w v) (pending : Pending rng (v.target ts.name).ranges)
    {f : KeyRange → KeyRange} (shape : ∀ r, (f r).bounds = r.bounds)
    (closes : ∀ r, (f r).status = .done → (f r).rowCount = some (keysOf (selectedAt ts v) rng).length ∧
      Written ts (w.source ts.name).rows rng (v.target ts.name)) :
    Resumed batch ts w (v.onTarget ts.name fun t => t.onRange rng.rangeSeq f) := by
  have changed : ((v.onTarget ts.name fun t => t.onRange rng.rangeSeq f).target ts.name).ranges =
      (v.target ts.name).ranges.map fun r => if r.rangeSeq = rng.rangeSeq then f r else r := by
    rw [World.onTarget_self]
    rfl
  have files : ((v.onTarget ts.name fun t => t.onRange rng.rangeSeq f).target ts.name).files =
      (v.target ts.name).files := by
    rw [World.onTarget_self]
    rfl
  have fields : ∀ r, (f r).rangeSeq = r.rangeSeq ∧ (f r).keyFrom = r.keyFrom ∧ (f r).keyTo = r.keyTo := by
    intro r
    have same := shape r
    simp only [KeyRange.bounds, Prod.mk.injEq] at same
    exact same
  refine ⟨h.rows, ⟨?_, ?_⟩, ?_, ?_⟩
  · rw [changed, bounds_onRange shape]
    rcases h.interrupted.planned with none | same
    · exact .inl (by rw [none]; rfl)
    · exact .inr same
  · intro r' hr finished
    rw [changed] at hr
    obtain ⟨r, listed, rfl⟩ := List.mem_map.mp hr
    split at finished
    next same =>
      obtain ⟨_, first, last⟩ := h.interrupted.pending pending listed same
      have between : keysOf (selectedAt ts v) (f r) = keysOf (selectedAt ts v) rng := by
        unfold keysOf
        rw [(fields r).2.1, (fields r).2.2, first, last]
      rw [if_pos same]
      exact (closes r finished).1.trans (congrArg (fun keys => some keys.length) between.symm)
    next other =>
      rw [if_neg other]
      exact h.interrupted.counted r listed finished
  · intro r hr finished
    obtain ⟨still, file⟩ := h.kept r hr finished
    have other : r.rangeSeq ≠ rng.rangeSeq := fun same => (h.interrupted.pending pending still same).1 finished
    refine ⟨?_, ?_⟩
    · rw [changed]
      exact List.mem_map.mpr ⟨r, still, if_neg other⟩
    · rw [files]
      exact file
  · intro r' hr finished
    rw [changed] at hr
    obtain ⟨r, listed, rfl⟩ := List.mem_map.mp hr
    split at finished
    next same =>
      obtain ⟨_, first, last⟩ := h.interrupted.pending pending listed same
      obtain ⟨_, records, file, unloaded⟩ := closes r finished
      right
      rw [if_pos same]
      refine ⟨records, ?_, ?_⟩
      · rw [files, (fields r).1, same]
        exact file
      · rw [(fields r).2.1, (fields r).2.2, first, last]
        exact unloaded
    next other =>
      rw [if_neg other]
      rcases h.fresh r listed finished with before | ⟨records, file, unloaded⟩
      · exact .inl before
      · exact .inr ⟨records, files ▸ file, unloaded⟩

/-- Every call of EXTRACT goes on from what the calls before it have come to. -/
theorem Resumed.move (h : Resumed batch ts w v) (move : ExtractMove .still batch ts v u) : Resumed batch ts w u := by
  cases move with
  | plan keys s₀ blank drift selected =>
    cases drift
    subst selected
    have made : ((v.onTarget ts.name fun t =>
          { t with ranges := t.ranges ++ (planRanges (selectedAt ts v) batch.extractRangeRows) }).target ts.name).ranges =
        planRanges (selectedAt ts v) batch.extractRangeRows := by
      rw [World.onTarget_self, blank]
      rfl
    have untouched : ∀ r ∈ planRanges (selectedAt ts v) batch.extractRangeRows, r.status ≠ .done := by
      intro r hr finished
      rw [(planFrom_keys r hr).1] at finished
      cases finished
    refine ⟨h.rows, ⟨.inr ?_, ?_⟩, ?_, ?_⟩
    · exact congrArg (List.map KeyRange.bounds) made
    · intro r hr finished
      exact absurd finished (untouched r (made ▸ hr))
    · intro r hr finished
      have still := (h.kept r hr finished).1
      rw [blank] at still
      cases still
    · intro r hr finished
      exact absurd finished (untouched r (made ▸ hr))
  | status rng st pending open_ =>
    exact h.onRange pending (fun _ => rfl) fun r finished => absurd finished open_
  | file rng write pending =>
    refine h.files ?_ rfl fun r listed finished => ?_
    · rw [World.onTarget_self]
    · have other : r.rangeSeq ≠ rng.rangeSeq := fun same => (h.interrupted.pending pending listed same).1 finished
      rw [World.onTarget_self]
      simp [Std.ExtTreeMap.getElem?_insert, Ne.symm other]
  | fetch rng pending => exact h.files rfl (by rw [World.onSource_self]) fun _ _ _ => rfl
  | finish rng rows records s₁ pending file unloaded fetched drift clean =>
    cases drift
    refine h.onRange pending (fun _ => rfl) fun r _ => ⟨?_, records, file, ?_⟩
    · have length := congrArg List.length (@rangeRows_keys ts rng (v.source ts.name).rows)
      rw [List.length_map, ← fetched] at length
      exact congrArg some length
    · rw [← h.rows, ← fetched]
      exact unloaded
  | ledger n files all count =>
    refine h.files ?_ rfl fun r _ _ => ?_
    · rw [World.onTarget_self]
      rfl
    · rw [World.onTarget_self]
      rfl

theorem Resumed.refl (h : Interrupted batch ts w) : Resumed batch ts w w :=
  ⟨rfl, h, fun _ hr _ => ⟨hr, rfl⟩, fun _ hr _ => .inl hr⟩

theorem Resumed.stable : Drift.still.Stable (Resumed batch ts w) := by
  intro u v moves h
  rw [moves.eq]
  exact h

/-- Ranges that are all DONE count every selected key. -/
theorem Interrupted.total (h : Interrupted batch ts w) (all : AllExtracted (w.target ts.name))
    (some : (w.target ts.name).ranges = [] → selectedAt ts w = []) :
    extractedCount (w.target ts.name) = (selectedAt ts w).length := by
  have covered := (planRanges_selects batch.extractRangeRows_pos (selectedKeys_ascending ts (w.source ts.name).rows)).1
  have counts : (w.target ts.name).ranges.map (fun r => r.rowCount.getD 0) =
      (w.target ts.name).ranges.map fun r => (keysOf (selectedAt ts w) r).length := by
    apply List.map_congr_left
    intro r hr
    rw [h.counted r hr (all r hr)]
    rfl
  have same : (w.target ts.name).ranges.map KeyRange.bounds =
      (planRanges (selectedAt ts w) batch.extractRangeRows).map KeyRange.bounds := by
    rcases h.planned with none | same
    · rw [none, some none]
      rfl
    · exact same
  have lengths := congrArg (List.map fun b : Nat × Key × Key =>
    ((selectedAt ts w).filter (keyBetween b.2.1 b.2.2)).length) same
  rw [List.map_map, List.map_map] at lengths
  calc extractedCount (w.target ts.name)
      = ((w.target ts.name).ranges.map fun r => (keysOf (selectedAt ts w) r).length).sum := by
        rw [extractedCount, counts]
    _ = ((planRanges (selectedAt ts w) batch.extractRangeRows).map fun r =>
          (keysOf (selectedAt ts w) r).length).sum := congrArg List.sum lengths
    _ = ((planRanges (selectedAt ts w) batch.extractRangeRows).flatMap (keysOf (selectedAt ts w))).length :=
        List.length_flatMap.symm
    _ = (selectedAt ts w).length := congrArg List.length covered

/-- However a run of EXTRACT ends, it leaves what was DONE and writes what becomes DONE; if it returns, all is DONE and
every selected key is counted. -/
theorem extractTable_resumes {F : Prop} (h : Interrupted batch ts w) :
    wp (Drift.still.weather F) (extractTable batch ts) (.keep (Resumed batch ts w) fun _ v =>
      AllExtracted (v.target ts.name) ∧ (v.target ts.name).ledger.extracted = some (selectedAt ts w).length) w := by
  have closed : ∀ u v, ExtractMove .still batch ts u v → Resumed batch ts w u → Resumed batch ts w v :=
    fun _ _ move resumed => resumed.move move
  unfold extractTable
  refine keeps_bind (keep_keyRanges Resumed.stable closed (.refl h)) ?_
  rintro ranges v resumed ⟨hranges, _, rfl, none⟩
  refine keep_mono (keep_extractRanges Resumed.stable closed (fun v hv => hv.interrupted.inOrder) resumed hranges) ?_
  rintro _ u resumed' ⟨all, count, length⟩
  have keys : selectedAt ts u = selectedAt ts w := by
    unfold selectedAt
    rw [resumed'.rows]
  have keys' : selectedKeys ts (v.source ts.name).rows = selectedAt ts w := by
    unfold selectedAt
    rw [resumed.rows]
  refine ⟨all, ?_⟩
  rw [count, resumed'.interrupted.total all ?_, keys]
  intro blank
  rw [blank, List.length_nil] at length
  rw [keys, ← keys']
  exact none (List.length_eq_zero_iff.mp length.symm)

/-- Every selected row has a record. -/
def Encodable (ts : TableSpec) (rows : KeyMap Key Fields) : Prop :=
  ∀ k columns, rows[k]? = some columns → ts.selects ⟨k, columns⟩ = true → ∃ raw, ts.unload ⟨k, columns⟩ = .ok raw

/-- A program that returns whenever the source has these rows, and leaves them. -/
def Returns {α : Type} (ts : TableSpec) (rows : KeyMap Key Fields) (p : Job α) (R : α → World → Prop) : Prop :=
  ∀ v, (v.source ts.name).rows = rows →
    wp (Drift.still.weather False) p (.keeps (fun u => (u.source ts.name).rows = rows) R fun _ _ => False) v

section

variable {rows : KeyMap Key Fields} {α : Type}

theorem returns_call {act : World → Except JobError α × World} {R : α → World → Prop}
    (ok : ∀ u, (u.source ts.name).rows = rows → ∃ a, (act u).1 = .ok a ∧ ((act u).2.source ts.name).rows = rows ∧
      R a (act u).2) : Returns ts rows (Prog.attempt act) R := by
  intro v hv
  apply keeps_call (C := fun _ => True)
  · rintro _ moves
    rw [moves.eq]
    exact ⟨hv, trivial⟩
  · intro u hu _
    obtain ⟨a, result, source, holds⟩ := ok u hu
    rw [result]
    exact ⟨source, holds⟩
  · exact fun no => no.elim

theorem returns_query {f : World → α} : Returns ts rows (Prog.query f : Job α) fun _ _ => True :=
  returns_call fun u hu => ⟨f u, rfl, hu, trivial⟩

theorem returns_write (f : TargetTable → TargetTable) :
    Returns ts rows (writeTarget ts.name f) fun _ _ => True :=
  returns_call fun _ hu => ⟨(), rfl, hu, trivial⟩

theorem returns_touch : Returns ts rows touch fun _ _ => True :=
  returns_call fun _ hu => ⟨(), rfl, hu, trivial⟩

theorem returns_builtinUnload (encodable : Encodable ts rows) :
    Returns ts rows (builtinUnload ts rng) fun _ _ => True := by
  intro v hv
  unfold builtinUnload
  refine keeps_bind (returns_write _ v hv) ?_
  intro _ v₁ hv₁ _
  refine keeps_bind (R := fun fetched _ => fetched = rangeRows ts rng.keyFrom rng.keyTo rows) ?_ ?_
  · refine returns_call (fun u hu => ⟨_, rfl, ?_, ?_⟩) v₁ hv₁
    · rw [World.onSource_self]
      exact hu
    · rw [hu]
  · rintro fetched v₂ hv₂ rfl
    refine keeps_bind (R := fun _ _ => True) ?_ fun _ v₃ hv₃ _ => keeps_pure hv₃ trivial
    apply keeps_forM (J := fun _ _ => True)
    · rintro row rest t ⟨before, split⟩ ht _
      have listed : row ∈ rangeRows ts rng.keyFrom rng.keyTo rows := by
        rw [split]
        simp
      obtain ⟨entry, member, rfl⟩ := List.mem_map.mp listed
      have held := KeyMap.mem_toList.mp member
      rw [Std.ExtTreeMap.getElem?_filter'] at held
      obtain ⟨there, passes⟩ := Option.filter_eq_some_iff.mp held
      obtain ⟨raw, unloaded⟩ := encodable entry.1 entry.2 there (Bool.and_eq_true_iff.mp passes).1
      rw [unloaded]
      exact returns_write _ t ht
    · exact fun _ _ _ => trivial
    · exact hv₂
    · trivial

theorem returns_extractRange (encodable : Encodable ts rows) (extracted : Nat) :
    Returns ts rows (extractRange ts extracted rng) fun _ _ => True := by
  intro v hv
  unfold extractRange
  split
  next => exact keeps_pure hv trivial
  next =>
    refine keeps_bind (R := fun _ _ => True) ?_ fun _ v₁ hv₁ _ => keeps_pure hv₁ trivial
    unfold runRange updateKeyRange
    refine keeps_bind (returns_write _ v hv) ?_
    intro _ v₁ hv₁ _
    refine keeps_bind (R := fun _ _ => True) ?_ ?_
    · refine keeps_tryCatch (G := fun _ _ => False) ?_ fun _ _ _ no => no.elim
      refine keeps_bind (returns_builtinUnload encodable v₁ hv₁) ?_
      intro _ v₂ hv₂ _
      refine keeps_bind (returns_touch v₂ hv₂) ?_
      exact fun _ v₃ hv₃ _ => keeps_pure hv₃ trivial
    · intro _ v₂ hv₂ _
      refine keeps_bind (returns_write _ v₂ hv₂) ?_
      exact fun _ v₃ hv₃ _ => keeps_pure hv₃ trivial

/-- EXTRACT returns if every selected row has a record. -/
theorem returns_extractTable (encodable : Encodable ts rows) :
    Returns ts rows (extractTable batch ts) fun _ _ => True := by
  intro v hv
  unfold extractTable keyRanges
  refine keeps_bind (R := fun _ _ => True) ?_ ?_
  · refine keeps_bind (returns_query v hv) ?_
    intro ranges v₁ hv₁ _
    split
    next =>
      refine keeps_bind (returns_query v₁ hv₁) ?_
      intro keys v₂ hv₂ _
      refine keeps_bind (returns_write _ v₂ hv₂) ?_
      exact fun _ v₃ hv₃ _ => keeps_pure hv₃ trivial
    next => exact keeps_pure hv₁ trivial
  · intro ranges v₁ hv₁ _
    refine keeps_bind (R := fun _ _ => True) ?_ fun _ v₂ hv₂ _ => returns_write _ v₂ hv₂
    apply keeps_foldlM (J := fun _ _ _ => True)
    · exact fun rng rest extracted t _ ht _ => returns_extractRange encodable extracted t ht
    · exact fun _ _ _ _ => trivial
    · exact hv₁
    · trivial

end

/-- EXTRACT partitions the selection. The planned ranges select every key once. A run from any set of ranges that are
DONE leaves these and writes exactly the others, whether it is cut short again or returns; when it returns, the ledger
has the number of the selected keys, and it returns if every selected row has a record. -/
theorem extract_partitions (batch : BatchConfig) (ts : TableSpec) {w : World} (interrupted : Interrupted batch ts w) :
    (∀ keys n, 0 < n → AscendingKeys keys → (planRanges keys n).flatMap (keysOf keys) = keys ∧
      ∀ r ∈ planRanges keys n, (keysOf keys r).length ≤ n) ∧
    (∀ turns : List (Turn World JobError), (∀ turn ∈ turns, turn.Within (Drift.still.weather True)) →
      Resumed batch ts w ((extractTable batch ts).run turns w).2 ∧
      (((extractTable batch ts).run turns w).1 = .ended (.ok ()) →
        AllExtracted (((extractTable batch ts).run turns w).2.target ts.name) ∧
        (((extractTable batch ts).run turns w).2.target ts.name).ledger.extracted =
          some (selectedAt ts w).length)) ∧
    (Encodable ts (w.source ts.name).rows → ((extractTable batch ts).eval w).1 = .ok ()) := by
  refine ⟨?_, ?_, ?_⟩
  · exact fun keys n pos sorted => planRanges_selects pos sorted
  · intro turns within
    have holds := wp_run (extractTable_resumes interrupted) within
    cases ran : (extractTable batch ts).run turns w with
    | mk outcome v =>
      rw [ran] at holds
      cases outcome with
      | crashed => exact ⟨holds, fun ended => by cases ended⟩
      | ended result =>
        cases result with
        | error e => exact ⟨holds.1, fun ended => by cases ended⟩
        | ok a => exact ⟨holds.1, fun _ => holds.2⟩
  · intro encodable
    have returns : Returns ts (w.source ts.name).rows (extractTable batch ts) fun _ _ => True :=
      returns_extractTable encodable
    have calm : ∀ turn ∈ ([] : List (Turn World JobError)), turn.Within (Drift.still.weather False) :=
      fun _ h => by cases h
    have holds := wp_run (returns w rfl) calm
    rw [Prog.run_nil] at holds
    cases result : ((extractTable batch ts).eval w).1 with
    | error e =>
      rw [result] at holds
      exact holds.2.elim
    | ok a => rfl

def byTwo : BatchConfig := .of 2 1 1 1 (by decide) (by decide) (by decide) (by decide)

/-- Three cards in ranges of two, the first of them DONE. -/
def halfDone : World :=
  { cardWorld [("CARD", [cardRow 'a' 1, cardRow 'b' 2, cardRow 'c' 3])] with
    target := fun _ => { TargetTable.blank with
      ranges := [⟨1, ['a'], ['b'], .done, some 2, .pending⟩, ⟨2, ['c'], ['c'], .running, none, .pending⟩] } }

theorem halfDone_resumed :
    Resumed byTwo (cardTable "CARD" 1 .data) halfDone ((extractTable byTwo (cardTable "CARD" 1 .data)).run [] halfDone).2 ∧
      ((extractTable byTwo (cardTable "CARD" 1 .data)).eval halfDone).1 = .ok () := by
  have interrupted : Interrupted byTwo (cardTable "CARD" 1 .data) halfDone := ⟨.inr (by decide +kernel), by decide +kernel⟩
  obtain ⟨_, runs, returns⟩ := extract_partitions byTwo (cardTable "CARD" 1 .data) interrupted
  refine ⟨(runs [] fun _ h => by cases h).1, returns ?_⟩
  intro k columns held _
  have listed : (k, columns) ∈ [cardRow 'a' 1, cardRow 'b' 2, cardRow 'c' 3] := by
    rcases KeyMap.upsertAll_cases held with new | ⟨_, none⟩
    · exact new
    · cases none
  have encoded : ∀ row ∈ [cardRow 'a' 1, cardRow 'b' 2, cardRow 'c' 3],
      ((cardTable "CARD" 1 .data).unload ⟨row.1, row.2⟩).isOk = true := by decide +kernel
  exact exists_of_isOk (encoded _ listed)

end

end

end OtterWorks.Migration
