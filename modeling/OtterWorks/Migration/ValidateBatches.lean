import OtterWorks.Migration.PurgeSafety
import OtterWorks.Migration.ValidateTable

namespace OtterWorks.Migration

open KeyMap (pageOf upto Ascending)

def Candidate.plain (c : Candidate) : Candidate := { c with row := c.row.plain }

/-- The candidate of a staged row, whatever page it is read in. -/
def stagedCandidate (ts : TableSpec) (row : StagedRow) : Except JobError Candidate :=
  candidate ts ((∅ : KeyMap Key Hash).insert row.sourceKey (ts.targetHash row.values)) row

/-- The rows that `iter_staging` reaches, as LOAD left them. -/
def streamed (t : TargetTable) : List (Key × StagedRow) := (plainRows t).filter fun r => compare [] r.1 == .lt

section

variable {ts : TableSpec} {checks : RowChecks} {ct : ClassTotals} {successors : KeyMap Text Text}
  {mismatches : KeyMap Text ClassMismatch} {moved : List Text} {row : StagedRow} {rows : List StagedRow}
  {c : Candidate} {cs ds : List Candidate} {t : TargetTable} {w v : World} {page : List (Key × StagedRow)}
  {final : Key × StagedRow} {last k : Key} {n : Nat}

@[simp] theorem eval_liftExcept {α : Type} (x : Except JobError α) (w : World) : (liftExcept x).eval w = (x, w) := by
  cases x with
  | ok a => rfl
  | error e => rfl

theorem candidate_congr {hashes hashes' : KeyMap Key Hash} (same : hashes[row.sourceKey]? = hashes'[row.sourceKey]?) :
    candidate ts hashes row = candidate ts hashes' row := by
  rw [candidate, candidate, same]

theorem stagedCandidate_row (h : stagedCandidate ts row = .ok c) : c.row = row := by
  rw [stagedCandidate, candidate] at h
  split at h
  next =>
    cases h
    rfl
  next =>
    cases h
    rfl
  next => cases h

theorem stagedCandidate_plain : stagedCandidate ts row.plain = (stagedCandidate ts row).map Candidate.plain := by
  rw [stagedCandidate, stagedCandidate, candidate, candidate, show row.plain.rawBytes = row.rawBytes from rfl]
  cases ts.convert row.rawBytes with
  | ok k values source => rfl
  | malformed k err => rfl
  | undecodable e => rfl

theorem candidates_plain : (rows.map StagedRow.plain).mapM (stagedCandidate ts) =
    (rows.mapM (stagedCandidate ts)).map (List.map Candidate.plain) := by
  induction rows with
  | nil => rfl
  | cons row rows ih =>
    rw [List.map_cons, List.mapM_cons, List.mapM_cons, ih, stagedCandidate_plain]
    cases stagedCandidate ts row with
    | error e => rfl
    | ok c =>
      cases rows.mapM (stagedCandidate ts) with
      | error e => rfl
      | ok cs => rfl

theorem candidates_rows (h : rows.mapM (stagedCandidate ts) = .ok cs) : cs.map Candidate.row = rows := by
  have each := mapM_ok.mp h
  clear h
  induction each with
  | nil => rfl
  | cons first _ ih => rw [List.map_cons, stagedCandidate_row first, ih]

theorem apply_plain : checks.apply ts c.plain = (checks.apply ts c).plain := rfl

theorem flip_plain : flip ts ct successors mismatches moved c.plain =
    (flip ts ct successors mismatches moved c).map Candidate.plain := by
  rw [flip, flip, show c.plain.finding = c.finding from rfl]
  cases c.finding with
  | some f => rfl
  | none =>
    simp only [Option.map_map]
    rfl

theorem validationRow_plain : c.plain.validationRow ts = c.validationRow ts := by
  rw [Candidate.validationRow, Candidate.validationRow]
  rfl

theorem persistAll_plain : persistAll ts (cs.map Candidate.plain) t = persistAll ts cs t := by
  have rejects : (cs.map Candidate.plain).filterMap Candidate.reject = cs.filterMap Candidate.reject := by
    rw [List.filterMap_map]
    rfl
  have verdicts : (cs.map Candidate.plain).map (Candidate.validationRow ts) = cs.map (Candidate.validationRow ts) := by
    rw [List.map_map]
    exact List.map_congr_left fun c _ => validationRow_plain
  have keys : ((cs.map Candidate.plain).map fun c => c.row.sourceKey) = cs.map fun c => c.row.sourceKey := by
    rw [List.map_map]
    rfl
  rw [persistAll, persistAll, verdicts, rejects, keys]

theorem persistAll_nil : persistAll ts [] t = t := persisted_nil ts (fun _ => none) t

theorem validationRow_key : (c.validationRow ts).sourceKey = c.row.sourceKey := by
  rw [Candidate.validationRow]
  cases c.finding with
  | none => rfl
  | some f => rfl

/-- The rejects of some candidates are under their keys. -/
theorem reject_absent (absent : k ∉ cs.map fun c => c.row.sourceKey) :
    (((cs.filterMap Candidate.reject).map fun r => (r.sourceKey, r)).find? fun r => r.1 = k) = none := by
  apply KeyMap.find?_key_none
  rw [List.map_map]
  intro inside
  obtain ⟨r, made, same⟩ := List.mem_map.mp inside
  obtain ⟨c, member, rejected⟩ := List.mem_filterMap.mp made
  obtain ⟨f, _, rfl⟩ := Option.map_eq_some_iff.mp rejected
  exact absent (List.mem_map.mpr ⟨c, member, same⟩)

theorem hash_absent (absent : k ∉ cs.map fun c => c.row.sourceKey) :
    ((cs.map (Candidate.validationRow ts)).map fun r => (r.sourceKey, r.sourceHash)).lookup k = none := by
  apply lookup_absent
  rw [List.map_map, List.map_map]
  intro inside
  obtain ⟨c, member, same⟩ := List.mem_map.mp inside
  exact absent (List.mem_map.mpr ⟨c, member, validationRow_key.symm.trans same⟩)

/-- Two batches without a common key leave what they leave as one. -/
theorem persistAll_append (apart : ∀ c ∈ cs, ∀ d ∈ ds, c.row.sourceKey ≠ d.row.sourceKey) :
    persistAll ts (cs ++ ds) t = persistAll ts ds (persistAll ts cs t) := by
  have either : ∀ k, k ∉ (cs.map fun c => c.row.sourceKey) ∨ k ∉ ds.map fun d => d.row.sourceKey := by
    intro k
    by_contra both
    simp only [not_or, not_not] at both
    obtain ⟨c, hc, rfl⟩ := List.mem_map.mp both.1
    obtain ⟨d, hd, same⟩ := List.mem_map.mp both.2
    exact apart c hc d hd same.symm
  have staging : (persistAll ts (cs ++ ds) t).staging = (persistAll ts ds (persistAll ts cs t)).staging := by
    apply Std.ExtTreeMap.ext_getElem?
    intro k
    simp only [persistAll, Std.ExtTreeMap.getElem?_map, Option.map_map, List.map_append, List.lookup_append]
    congr 1
    funext row
    simp only [Function.comp_apply]
    rcases either k with absent | absent
    · rw [hash_absent absent, Option.none_or]
    · rw [hash_absent absent, Option.or_none]
  have rejects : (persistAll ts (cs ++ ds) t).rejects = (persistAll ts ds (persistAll ts cs t)).rejects := by
    apply Std.ExtTreeMap.ext_getElem?
    intro k
    simp only [persistAll, KeyMap.getElem?_addNew, Std.ExtTreeMap.getElem?_filter', List.map_append,
      List.filterMap_append, List.find?_append, List.mem_append]
    rcases either k with absent | absent
    · rw [reject_absent absent]
      cases t.rejects[k]? with
      | none => simp [absent]
      | some r => simp [absent]
    · have unfiltered : ∀ x : Option Reject, (x.filter fun _ => true) = x := by
        intro x
        cases x with
        | none => rfl
        | some r => rfl
      rw [reject_absent absent]
      simp only [absent, or_false, decide_false, Bool.false_and, Bool.not_false, unfiltered, Option.map_none, Option.or_none]
  have verdicts : (persistAll ts (cs ++ ds) t).validation = (persistAll ts ds (persistAll ts cs t)).validation := by
    simp only [persistAll, List.map_append, KeyMap.upsertAll_append]
  rw [persistAll] at staging rejects verdicts ⊢
  simp only at staging rejects verdicts
  rw [staging, rejects, verdicts]
  rfl

theorem eval_persist (some : cs ≠ []) : (persist ts cs).eval w = (.ok (), w.onTarget ts.name (persistAll ts cs)) := by
  have written : ((cs.map (Candidate.validationRow ts)).isEmpty) = false := by
    cases cs with
    | nil => exact absurd rfl some
    | cons c cs => rfl
  unfold persist writeValidation flushRejects deleteRejectsKeys upsertValidation setRowHashes insertRejects
  rw [written, if_neg Bool.false_ne_true]
  by_cases none : (cs.filterMap Candidate.reject).isEmpty = true
  · have empty := List.isEmpty_iff.mp none
    rw [if_pos none]
    simp only [Prog.eval_bind, eval_writeTarget, Prog.eval_pure, World.onTarget_onTarget]
    unfold persistAll
    rw [empty]
    rfl
  · rw [if_neg none]
    simp only [Prog.eval_bind, eval_writeTarget, World.onTarget_onTarget]
    rfl

theorem Keyed.plain (keyed : Keyed t) {r : Key × StagedRow} (hr : r ∈ plainRows t) : r.2.sourceKey = r.1 := by
  obtain ⟨row, held, same⟩ := mem_plainRows.mp (show (r.1, r.2) ∈ plainRows t from hr)
  rw [same]
  exact keyed r.1 row held

theorem Keyed.congr {u : TargetTable} (same : plainRows u = plainRows t) (keyed : Keyed t) : Keyed u := by
  intro k row held
  have there : (k, row.plain) ∈ plainRows t := same ▸ mem_plainRows.mpr ⟨row, held, rfl⟩
  exact keyed.plain there

theorem eval_candidates (keyed : Keyed (v.target ts.name)) (hpage : page = (v.target ts.name).staging.page last n)
    (hlast : page.getLast? = some final) :
    (candidates ts (page.map Prod.snd)).eval v = ((page.map Prod.snd).mapM (stagedCandidate ts), v) := by
  obtain ⟨first, others, cons⟩ : ∃ first others, page = first :: others := by
    cases page with
    | nil => cases hlast
    | cons a others => exact ⟨a, others, rfl⟩
  have held : ∀ r ∈ page, (v.target ts.name).staging[r.1]? = some r.2 := by
    intro r hr
    rw [hpage] at hr
    exact KeyMap.mem_toList.mp (KeyMap.mem_pageOf hr).1
  have own : ∀ r ∈ page, r.2.sourceKey = r.1 := fun r hr => keyed r.1 r.2 (held r hr)
  have ends : (page.map Prod.snd).getLast? = some final.2 := by simp [List.getLast?_map, hlast]
  have read : (page.map Prod.snd).mapM (candidate ts (targetHashesOf ts first.2.sourceKey final.2.sourceKey
      (v.target ts.name))) = (page.map Prod.snd).mapM (stagedCandidate ts) := by
    apply mapM_congr
    intro row hrow
    obtain ⟨r, hr, rfl⟩ := List.mem_map.mp hrow
    apply candidate_congr
    have between := @page_between _ _ _ _ _ _ hpage hlast first (by simp [cons]) _ hr
    rw [own r hr, own first (by simp [cons]), own final (List.mem_of_getLast? hlast)]
    unfold targetHashesOf
    rw [Std.ExtTreeMap.getElem?_map, Std.ExtTreeMap.getElem?_filter', held r hr]
    simp [between]
  unfold candidates targetHashes
  rw [ends, ← read]
  rw [cons]
  simp only [List.map_cons, Prog.eval_bind, eval_readTarget, eval_liftExcept]

theorem streamed_ascending : Ascending (streamed t) := (ascending_plain t).sublist List.filter_sublist

theorem streamed_congr {u : TargetTable} (same : plainRows u = plainRows t) : streamed u = streamed t := by
  rw [streamed, streamed, same]

/-- Paging starts after the empty key. -/
theorem streamed_page : pageOf (streamed t) last n = pageOf (plainRows t) last n := by
  unfold pageOf streamed
  rw [List.filter_filter]
  congr 1
  apply List.filter_congr
  intro r _
  by_cases after : compare last r.1 = .lt
  · have first : compare [] r.1 = .lt := by
      cases key : r.1 with
      | nil =>
        rw [key] at after
        cases last with
        | nil => cases after
        | cons c cs => cases after
      | cons c cs => rfl
    simp [after, first]
  · simp [after]

theorem upto_streamed_nil : upto (streamed t) [] = [] := by
  apply List.filter_eq_nil_iff.mpr
  intro r hr
  have after := (List.mem_filter.mp hr).2
  simp only [beq_iff_eq] at after
  have reverse : compare r.1 [] = .gt := Std.OrientedCmp.gt_iff_lt.mpr after
  simp [reverse]

theorem upto_streamed_all (past : ∀ k ∈ t.staging.keys, compare last k ≠ .lt) :
    upto (streamed t) last = streamed t := by
  apply List.filter_eq_self.mpr
  intro r hr
  have before := not_after (past r.1 (plain_key (show (r.1, r.2) ∈ plainRows t from (List.mem_filter.mp hr).1)))
  simpa using before

theorem prefix_upto {rows : List (Key × StagedRow)} (sorted : Ascending rows) : upto rows last <+: rows := by
  have closed : rows.takeWhile (fun r => compare r.1 last != .gt) = upto rows last := by
    apply KeyMap.takeWhile_eq_filter
    refine List.Pairwise.imp ?_ sorted
    intro a b before below
    simp only [bne_iff_ne, ne_eq] at below ⊢
    have less := Std.TransCmp.lt_of_lt_of_isLE before (Ordering.isLE_iff_ne_gt.mpr below)
    simp [less]
  rw [← closed]
  exact List.takeWhile_prefix _

theorem upto_streamed_page (same : plainRows (v.target ts.name) = plainRows (w.target ts.name))
    (hpage : page = (v.target ts.name).staging.page last n) (hlast : page.getLast? = some final) :
    upto (streamed (w.target ts.name)) final.1 =
      upto (streamed (w.target ts.name)) last ++ page.map fun r => (r.1, r.2.plain) := by
  have listed : pageOf (streamed (w.target ts.name)) last n = page.map fun r => (r.1, r.2.plain) := by
    rw [streamed_page, ← same, plain_page, hpage]
  have next := @KeyMap.upto_page _ _ _ _ last n _ (@streamed_ascending (w.target ts.name))
      ((final.1, final.2.plain)) (by rw [listed, List.getLast?_map, hlast]; rfl)
  rw [← listed]
  exact next

end

/-- What reading some rows and folding over their candidates comes to. -/
structure ReadAs {β : Type} (ts : TableSpec) (g : β → Candidate → Except JobError β) (b : β)
    (rows : List (Key × StagedRow)) (cs : List Candidate) (b' : β) : Prop where
  read : (rows.map Prod.snd).mapM (stagedCandidate ts) = .ok cs
  folded : cs.foldlM g b = .ok b'

section

variable {β : Type} {ts : TableSpec} {g : β → Candidate → Except JobError β} {b b' b₁ b₂ : β}
  {xs ys : List (Key × StagedRow)} {cs ds : List Candidate}

theorem ReadAs.unique (h : ReadAs ts g b xs cs b₁) (h' : ReadAs ts g b xs ds b₂) : cs = ds ∧ b₁ = b₂ := by
  have same := Except.ok.inj (h.read.symm.trans h'.read)
  subst same
  exact ⟨rfl, Except.ok.inj (h.folded.symm.trans h'.folded)⟩

theorem ReadAs.append (h : ReadAs ts g b xs cs b₁) (h' : ReadAs ts g b₁ ys ds b₂) :
    ReadAs ts g b (xs ++ ys) (cs ++ ds) b₂ := by
  refine ⟨?_, ?_⟩
  · rw [List.map_append, List.mapM_append, h.read, h'.read]
    rfl
  · rw [List.foldlM_append, h.folded]
    exact h'.folded

theorem ReadAs.split (h : ReadAs ts g b (xs ++ ys) cs b') :
    ∃ xcs ycs mid, ReadAs ts g b xs xcs mid ∧ ReadAs ts g mid ys ycs b' ∧ cs = xcs ++ ycs := by
  obtain ⟨read, folded⟩ := h
  rw [List.map_append, List.mapM_append] at read
  obtain ⟨xcs, xread, read⟩ := bind_ok read
  obtain ⟨ycs, yread, read⟩ := bind_ok read
  cases Except.ok.inj read
  rw [List.foldlM_append] at folded
  obtain ⟨mid, xfolded, yfolded⟩ := bind_ok folded
  exact ⟨xcs, ycs, mid, ⟨xread, xfolded⟩, ⟨yread, yfolded⟩, rfl⟩

/-- The rows of a page are read the same before and after they have their hashes. -/
theorem readAs_plain (plain : ∀ b c, g b c.plain = g b c) : ReadAs ts g b (xs.map fun r => (r.1, r.2.plain)) cs b' ↔
    ∃ ds, ReadAs ts g b xs ds b' ∧ cs = ds.map Candidate.plain := by
  have rows : (xs.map fun r => (r.1, r.2.plain)).map Prod.snd = (xs.map Prod.snd).map StagedRow.plain := by
    rw [List.map_map, List.map_map]
    rfl
  have folds : ∀ ds : List Candidate, (ds.map Candidate.plain).foldlM g b = ds.foldlM g b := by
    intro ds
    rw [List.foldlM_map]
    simp only [plain]
  constructor
  · rintro ⟨read, folded⟩
    rw [rows, candidates_plain] at read
    cases made : (xs.map Prod.snd).mapM (stagedCandidate ts) with
    | error e =>
      rw [made] at read
      cases read
    | ok ds =>
      rw [made] at read
      cases Except.ok.inj read
      rw [folds] at folded
      exact ⟨ds, ⟨made, folded⟩, rfl⟩
  · rintro ⟨ds, ⟨read, folded⟩, rfl⟩
    refine ⟨?_, ?_⟩
    · rw [rows, candidates_plain, read]
      rfl
    · rw [folds]
      exact folded

end

/-- One pass over the staging table: what it folds, and which candidates it persists. -/
structure Pass (ts : TableSpec) (β : Type) where
  rest : β → List Candidate → Job β
  g : β → Candidate → Except JobError β
  pick : Candidate → Option Candidate
  folds_plain : ∀ b c, g b c.plain = g b c
  pick_plain : ∀ c, pick c.plain = (pick c).map Candidate.plain
  pick_row : ∀ c d, pick c = some d → d.row = c.row
  turn : ∀ b cs v, cs ≠ [] → (rest b cs).eval v =
    match cs.foldlM g b with
    | .ok b' => (.ok b', v.onTarget ts.name (persistAll ts (cs.filterMap pick)))
    | .error e => (.error e, v)

def Pass.body {ts : TableSpec} {β : Type} (pass : Pass ts β) (b : β) (rows : List StagedRow) : Job β :=
  candidates ts rows >>= pass.rest b

section

variable {β : Type} {ts : TableSpec} {n : Nat} {w : World} (pass : Pass ts β) {b b' : β} {cs ds : List Candidate}
  {page xs : List (Key × StagedRow)} {final : Key × StagedRow} {last : Key} {v : World}

/-- After the pages up to a key. -/
structure Pass.Read (w : World) (b : β) (b' : β) (last : Key) (v : World) : Prop where
  read : ∃ cs, ReadAs ts pass.g b (upto (streamed (w.target ts.name)) last) cs b' ∧
    v = w.onTarget ts.name (persistAll ts (cs.filterMap pass.pick))

variable {pass}

theorem Pass.Read.plain (h : pass.Read w b b' last v) :
    plainRows (v.target ts.name) = plainRows (w.target ts.name) := by
  obtain ⟨cs, _, rfl⟩ := h.read
  rw [World.onTarget_self, plainRows_persistAll]

theorem Pass.picked_key (read : (xs.map Prod.snd).mapM (stagedCandidate ts) = .ok cs)
    (own : ∀ r ∈ xs, r.2.sourceKey = r.1) {c : Candidate} (hc : c ∈ cs.filterMap pass.pick) :
    ∃ r ∈ xs, c.row.sourceKey = r.1 := by
  obtain ⟨c', hc', picked⟩ := List.mem_filterMap.mp hc
  have there : c'.row ∈ xs.map Prod.snd := by
    rw [← candidates_rows read]
    exact List.mem_map.mpr ⟨c', hc', rfl⟩
  obtain ⟨r, hr, same⟩ := List.mem_map.mp there
  refine ⟨r, hr, ?_⟩
  rw [pass.pick_row c' c picked, ← same]
  exact own r hr

theorem Pass.picked_plain : (cs.map Candidate.plain).filterMap pass.pick =
    (cs.filterMap pass.pick).map Candidate.plain := by
  rw [List.filterMap_map, List.map_filterMap]
  exact List.filterMap_congr fun c _ => pass.pick_plain c

/-- The pages of a pass come to one reading of all rows, whatever their size. -/
theorem Pass.wp_iterStaging (pos : 0 < n) (keyed : Keyed (w.target ts.name)) (b : β) :
    wp (Drift.still.weather False) (iterStaging ts.name n pass.body b) (.keeps (fun _ => True)
      (fun b' v => ∃ cs, ReadAs ts pass.g b (streamed (w.target ts.name)) cs b' ∧
        v = w.onTarget ts.name (persistAll ts (cs.filterMap pass.pick)))
      fun _ _ => ¬∃ cs b', ReadAs ts pass.g b (streamed (w.target ts.name)) cs b') w := by
  apply keeps_iterStaging (J := fun b' last v => pass.Read w b b' last v) (K := (w.target ts.name).staging.keys)
    (fun _ _ _ _ => trivial) pos
  · exact fun faults => faults.elim
  · exact fun _ _ v _ read => keyed.congr read.plain
  · intro _ _ v read
    rw [← plainRows_keys, ← plainRows_keys, read.plain]
  · intro _ _ v u moves read
    rw [moves.eq]
    exact read
  · intro b₁ last v page final _ before hpage hlast
    have keyed' : Keyed (v.target ts.name) := keyed.congr before.plain
    have next := upto_streamed_page before.plain hpage hlast
    obtain ⟨cs, read, here⟩ := before.read
    have some : page.map Prod.snd ≠ [] := by
      rw [ne_eq, List.map_eq_nil_iff]
      rintro rfl
      cases hlast
    -- what a page cannot be read as, the whole cannot be read as
    have whole : ∀ es b₂, ReadAs ts pass.g b (streamed (w.target ts.name)) es b₂ →
        ∃ ds b₃, ReadAs ts pass.g b₁ page ds b₃ := by
      intro es b₂ all
      obtain ⟨later, split⟩ := @prefix_upto final.1 _ (@streamed_ascending (w.target ts.name))
      rw [← split, next] at all
      obtain ⟨front, _, mid, all, _, _⟩ := all.split
      obtain ⟨_, pcs, mid', first, second, _⟩ := all.split
      obtain ⟨_, rfl⟩ := read.unique first
      obtain ⟨ds, readPage, _⟩ := (readAs_plain pass.folds_plain).mp second
      exact ⟨ds, mid, readPage⟩
    apply wp_of_eval (fun _ _ moves => Drift.Moves.eq moves) (fun no => no) fun _ => trivial
    unfold Pass.body
    rw [Prog.eval_bind, eval_candidates keyed' hpage hlast]
    cases made : (page.map Prod.snd).mapM (stagedCandidate ts) with
    | error e =>
      refine ⟨trivial, ?_⟩
      rintro ⟨es, b₂, all⟩
      obtain ⟨ds, b₃, readPage⟩ := whole es b₂ all
      rw [readPage.read] at made
      cases made
    | ok ds =>
      have length : ds ≠ [] := by
        rintro rfl
        exact some (candidates_rows made).symm
      simp only [pass.turn b₁ ds v length]
      cases folded : ds.foldlM pass.g b₁ with
      | error e =>
        refine ⟨trivial, ?_⟩
        rintro ⟨es, b₂, all⟩
        obtain ⟨ds', b₃, readPage⟩ := whole es b₂ all
        rw [readPage.read] at made
        cases made
        rw [readPage.folded] at folded
        cases folded
      | ok b₂ =>
        have readPage : ReadAs ts pass.g b₁ (page.map fun r => (r.1, r.2.plain)) (ds.map Candidate.plain) b₂ :=
          (readAs_plain pass.folds_plain).mpr ⟨ds, ⟨made, folded⟩, rfl⟩
        refine ⟨trivial, ⟨cs ++ ds.map Candidate.plain, ?_, ?_⟩⟩
        · rw [next]
          exact read.append readPage
        · rw [here, World.onTarget_onTarget]
          simp only
          apply World.onTarget_congr
          rw [List.filterMap_append, persistAll_append, Pass.picked_plain, persistAll_plain]
          intro c hc d hd same
          obtain ⟨r, hr, keyC⟩ := Pass.picked_key read.read
            (fun r hr => keyed.plain (List.mem_filter.mp (List.mem_filter.mp hr).1).1) hc
          rw [Pass.picked_plain] at hd
          obtain ⟨d', hd', rfl⟩ := List.mem_map.mp hd
          have own : ∀ r ∈ page, r.2.sourceKey = r.1 := by
            intro r hr
            rw [hpage] at hr
            exact keyed' r.1 r.2 (KeyMap.mem_toList.mp (KeyMap.mem_pageOf hr).1)
          obtain ⟨r', hr', keyD⟩ := Pass.picked_key made own hd'
          have below := (KeyMap.mem_upto.mp hr).2
          rw [hpage] at hr'
          have above := (KeyMap.mem_pageOf hr').2
          have equal : r.1 = r'.1 := keyC.symm.trans (same.trans keyD)
          rw [equal] at below
          exact below (Std.OrientedCmp.gt_iff_lt.mpr above)
  · intro b₁ last v _ read past
    obtain ⟨cs, read, here⟩ := read.read
    rw [upto_streamed_all past] at read
    exact ⟨cs, read, here⟩
  · trivial
  · refine ⟨[], ⟨?_, rfl⟩, ?_⟩
    · rw [upto_streamed_nil]
      rfl
    · exact (World.onTarget_id persistAll_nil).symm

theorem Pass.holds (pos : 0 < n) (keyed : Keyed (w.target ts.name)) (b : β) :
    match (iterStaging ts.name n pass.body b).eval w with
    | (.ok b', v) => ∃ cs, ReadAs ts pass.g b (streamed (w.target ts.name)) cs b' ∧
        v = w.onTarget ts.name (persistAll ts (cs.filterMap pass.pick))
    | (.error _, _) => ¬∃ cs b', ReadAs ts pass.g b (streamed (w.target ts.name)) cs b' := by
  have none : ∀ turn ∈ ([] : List (Turn World JobError)), turn.Within (Drift.still.weather False) :=
    fun _ h => by cases h
  have ran := wp_run (pass.wp_iterStaging pos keyed b) none
  rw [Prog.run_nil] at ran
  cases result : (iterStaging ts.name n pass.body b).eval w with
  | mk r v =>
    rw [result] at ran
    cases r with
    | ok b' => exact ran.2
    | error e => exact ran.2

theorem Pass.eval_read (pos : 0 < n) (keyed : Keyed (w.target ts.name))
    (all : ReadAs ts pass.g b (streamed (w.target ts.name)) cs b') :
    (iterStaging ts.name n pass.body b).eval w =
      (.ok b', w.onTarget ts.name (persistAll ts (cs.filterMap pass.pick))) := by
  have ran := @Pass.holds _ _ _ _ pass pos keyed b
  cases result : (iterStaging ts.name n pass.body b).eval w with
  | mk r v =>
    rw [result] at ran
    cases r with
    | ok b₁ =>
      obtain ⟨ds, read, rfl⟩ := ran
      obtain ⟨rfl, rfl⟩ := all.unique read
      rfl
    | error e => exact absurd ⟨cs, b', all⟩ ran

theorem Pass.eval_unread (pos : 0 < n) (keyed : Keyed (w.target ts.name))
    (unread : ¬∃ cs b', ReadAs ts pass.g b (streamed (w.target ts.name)) cs b') :
    ∃ e v, (iterStaging ts.name n pass.body b).eval w = (.error e, v) := by
  have ran := @Pass.holds _ _ _ _ pass pos keyed b
  cases result : (iterStaging ts.name n pass.body b).eval w with
  | mk r v =>
    rw [result] at ran
    cases r with
    | ok b₁ =>
      obtain ⟨ds, read, _⟩ := ran
      exact absurd ⟨ds, b₁, read⟩ unread
    | error e => exact ⟨e, v, rfl⟩

end

/-- What pass 1 accumulates of one candidate. -/
def classAdd (ts : TableSpec) (successors : KeyMap Text Text) (pass : ClassPass) (c : Candidate) :
    Except JobError ClassPass :=
  match ts.classTotals with
  | some ct => pass.add ts ct successors c
  | none => .ok pass

theorem foldlM_unchanged {α : Type} (pass : α) (cs : List Candidate) :
    cs.foldlM (fun pass _ => (.ok pass : Except JobError α)) pass = .ok pass := by
  induction cs with
  | nil => rfl
  | cons c cs ih => exact ih

theorem addClasses_eq (ts : TableSpec) (successors : KeyMap Text Text) (pass : ClassPass) (cs : List Candidate) :
    addClasses ts successors pass cs = liftExcept (cs.foldlM (classAdd ts successors) pass) := by
  unfold addClasses
  cases hct : ts.classTotals with
  | none =>
    have unchanged : classAdd ts successors = fun pass _ => .ok pass := by
      funext pass c
      rw [classAdd, hct]
    rw [unchanged, foldlM_unchanged]
    rfl
  | some ct =>
    have adds : classAdd ts successors = ClassPass.add ts ct successors := by
      funext pass c
      rw [classAdd, hct]
    rw [adds]

def firstPass (ts : TableSpec) (checks : RowChecks) (successors : KeyMap Text Text) : Pass ts ClassPass where
  rest pass cs := do
    let pass ← addClasses ts successors pass cs
    persist ts (cs.map (checks.apply ts))
    pure pass
  g := classAdd ts successors
  pick c := some (checks.apply ts c)
  folds_plain _ _ := rfl
  pick_plain _ := rfl
  pick_row c d h := by
    cases h
    rfl
  turn pass cs v some := by
    have kept : cs.map (checks.apply ts) ≠ [] := fun none => some (List.map_eq_nil_iff.mp none)
    rw [Prog.eval_bind, addClasses_eq, eval_liftExcept]
    cases cs.foldlM (classAdd ts successors) pass with
    | error e => rfl
    | ok pass' =>
      simp only [Prog.eval_bind, eval_persist kept, Prog.eval_pure]
      rw [← List.filterMap_eq_map]
      rfl

def secondPass (ts : TableSpec) (ct : ClassTotals) (checks : RowChecks) (successors : KeyMap Text Text)
    (mismatches : KeyMap Text ClassMismatch) (moved : List Text) : Pass ts Unit where
  rest _ cs :=
    let flipped := (cs.map (checks.apply ts)).filterMap (flip ts ct successors mismatches moved)
    if flipped.isEmpty then pure () else persist ts flipped
  g _ _ := .ok ()
  pick c := flip ts ct successors mismatches moved (checks.apply ts c)
  folds_plain _ _ := rfl
  pick_plain c := by rw [apply_plain, flip_plain]
  pick_row c d h := by
    unfold flip at h
    split at h
    next => cases h
    next =>
      obtain ⟨mm, _, rfl⟩ := Option.map_eq_some_iff.mp h
      rfl
  turn _ cs v _ := by
    rw [foldlM_unchanged, List.filterMap_map]
    change Prog.eval (if (cs.filterMap _).isEmpty then _ else _) v = _
    split
    next none =>
      rw [Prog.eval_pure]
      refine congrArg (Prod.mk _) (World.onTarget_id ?_).symm
      have empty := List.isEmpty_iff.mp none
      change persistAll ts (cs.filterMap (flip ts ct successors mismatches moved ∘ checks.apply ts)) _ = _
      rw [empty, persistAll_nil]
    next flips =>
      rw [eval_persist fun none => flips (List.isEmpty_iff.mpr none)]
      rfl

def successorsRead (ts : TableSpec) (w : World) : KeyMap Text Text :=
  match ts.classTotals.bind ClassTotals.sourceClassResolution with
  | none => ∅
  | some res => successorsOf res ((streamed (w.target res.lookupTable)).map Prod.snd) ∅

/-- No staged row stops VALIDATE: each key decodes, and under class totals each amount is a decimal. -/
def Readable (ts : TableSpec) (w : World) : Prop :=
  ∃ cs pass, ReadAs ts (classAdd ts (successorsRead ts w)) ⟨∅, []⟩ (streamed (w.target ts.name)) cs pass

section

variable {ts : TableSpec} {w v : World}

theorem eval_rowChecks : (rowChecks ts).eval w = (.ok (checksAt ts w), w) := by
  unfold rowChecks checksAt archivedHashes parentsPresent
  rw [Prog.eval_bind, eval_readTarget]
  cases ts.parent with
  | none => rfl
  | some parent => rfl

theorem eval_successorMap (keyed : ∀ table, Keyed (w.target table)) (batch : BatchConfig) :
    (successorMap batch ts).eval w = (.ok (successorsRead ts w), w) := by
  unfold successorMap successorsRead
  cases hres : ts.classTotals.bind ClassTotals.sourceClassResolution with
  | none => rfl
  | some res =>
    simp only
    have ends : wp (Drift.still.weather False) (iterStaging res.lookupTable batch.validateBatchRows
        (fun out rows => pure (successorsOf res rows out)) ∅) (.keeps (fun _ => True)
          (fun out v => v = w ∧ out = successorsOf res ((streamed (w.target res.lookupTable)).map Prod.snd) ∅)
          fun _ _ => False) w := by
      apply keeps_iterStaging (J := fun out last v => v = w ∧
          out = successorsOf res ((upto (streamed (w.target res.lookupTable)) last).map Prod.snd) ∅)
        (K := (w.target res.lookupTable).staging.keys) (fun _ _ _ _ => trivial) batch.validateBatchRows_pos
      · exact fun faults => faults.elim
      · rintro _ _ u _ ⟨same, _⟩
        rw [same]
        exact keyed res.lookupTable
      · rintro _ _ u ⟨same, _⟩
        rw [same]
      · rintro _ _ u u' moves ⟨same, made⟩
        exact ⟨(Drift.Moves.eq moves).trans same, made⟩
      · rintro _ last u page final _ ⟨same, rfl⟩ hpage hlast
        refine keeps_pure trivial ⟨same, ?_⟩
        rw [same] at hpage
        have next := @KeyMap.upto_page _ _ _ _ last batch.validateBatchRows _
            (@streamed_ascending (w.target res.lookupTable)) ((final.1, final.2.plain))
                (by rw [streamed_page, plain_page, ← hpage, List.getLast?_map, hlast]; rfl)
        rw [show final.1 = (final.1, final.2.plain).1 from rfl, next, List.map_append, successorsOf_append,
          streamed_page, plain_page, ← hpage, successorsOf_plain]
      · rintro _ last u _ ⟨same, rfl⟩ past
        exact ⟨same, by rw [upto_streamed_all past]⟩
      · trivial
      · exact ⟨rfl, by rw [upto_streamed_nil]; rfl⟩
    have ran := @wp_run _ _ _ _ _ _ _ [] ends fun _ h => absurd h List.not_mem_nil
    rw [Prog.run_nil] at ran
    cases result : (iterStaging res.lookupTable batch.validateBatchRows
        (fun out rows => pure (successorsOf res rows out)) ∅).eval w with
    | mk r v =>
      rw [result] at ran
      cases r with
      | ok out =>
        have same : v = w := ran.2.1
        have made := ran.2.2
        rw [same, made]
      | error e => exact ran.2.elim

theorem eval_writeClassTotals (rows : List ClassTotalRow) : ∃ u, (writeClassTotals ts.name rows).eval v = (.ok (), u) ∧
    (u.target ts.name).staging = (v.target ts.name).staging := by
  unfold writeClassTotals
  split
  next => exact ⟨v, rfl, rfl⟩
  next =>
    refine ⟨(v.onTarget ts.name fun t => { t with classTotals := [] }).onTarget ts.name fun t =>
      { t with classTotals := rows }, rfl, ?_⟩
    rw [World.onTarget_self, World.onTarget_self]

/-- Comparing the class totals leaves the staged rows alone. -/
theorem classMismatches_staging {ct : ClassTotals} {src : KeyMap Text ClassSide} :
    (((classMismatches ts ct src).eval v).2.target ts.name).staging = (v.target ts.name).staging := by
  unfold classMismatches classAggregates
  rw [Prog.eval_bind, Prog.eval_attempt]
  simp only
  by_cases cast : ((v.target ts.name).staging.toList.map Prod.snd).all
      (fun row => ct.sumColumns.all fun col => (castAmount row.values col).isSome) = true
  · rw [if_pos cast]
    obtain ⟨u, written, staging⟩ := @eval_writeClassTotals ts v
      (classTotalRows ct src (classAggregatesOf ct ((v.target ts.name).staging.toList.map Prod.snd)))
    simp only
    rw [Prog.eval_bind_ok written]
    exact staging
  · rw [if_neg cast]

theorem checkClasses_free {checks : RowChecks} {successors : KeyMap Text Text} {pass : ClassPass} {cs : List Candidate}
    (keyed : Keyed (v.target ts.name))
    (read : ((streamed (v.target ts.name)).map Prod.snd).mapM (stagedCandidate ts) = .ok cs) (b₁ b₂ : BatchConfig) :
    (checkClasses b₁ ts checks successors pass).eval v = (checkClasses b₂ ts checks successors pass).eval v := by
  unfold checkClasses
  split
  next ct hct =>
    have staging := @classMismatches_staging ts v ct pass.src
    rw [Prog.eval_bind, Prog.eval_bind]
    cases compared : (classMismatches ts ct pass.src).eval v with
    | mk r u =>
      rw [compared] at staging
      cases r with
      | error e => rfl
      | ok mismatches =>
        simp only
        split
        next => rfl
        next =>
          have plain : plainRows (u.target ts.name) = plainRows (v.target ts.name) := by
            unfold plainRows
            rw [staging]
          have all : ReadAs ts (secondPass ts ct checks successors mismatches pass.moved).g ()
              (streamed (u.target ts.name)) cs () := by
            refine ⟨?_, foldlM_unchanged () cs⟩
            rw [streamed_congr plain]
            exact read
          have first := Pass.eval_read b₁.validateBatchRows_pos (keyed.congr plain) all
          have second := Pass.eval_read b₂.validateBatchRows_pos (keyed.congr plain) all
          exact first.trans second.symm
  next => rfl

theorem firstPass_body {checks : RowChecks} {successors : KeyMap Text Text} :
    passOne ts checks successors = (firstPass ts checks successors).body := rfl

/-- If every row is read, VALIDATE ends in the same state with the same result at every batch size. -/
theorem eval_validateTable_readable (keyed : ∀ table, Keyed (w.target table)) (readable : Readable ts w)
    (b₁ b₂ : BatchConfig) : (validateTable b₁ ts).eval w = (validateTable b₂ ts).eval w := by
  obtain ⟨cs, pass, all⟩ := readable
  have first := fun b : BatchConfig => @Pass.eval_read _ _ _ _ (firstPass ts (checksAt ts w) (successorsRead ts w)) _ _ _
      b.validateBatchRows_pos (keyed ts.name) all
  unfold validateTable
  simp only [firstPass_body]
  rw [Prog.eval_bind_ok eval_rowChecks, Prog.eval_bind_ok eval_rowChecks,
    Prog.eval_bind_ok (eval_successorMap keyed b₁), Prog.eval_bind_ok (eval_successorMap keyed b₂),
    Prog.eval_bind_ok (first b₁), Prog.eval_bind_ok (first b₂), Prog.eval_bind, Prog.eval_bind]
  have plain := @plainRows_persistAll ts (w.target ts.name)
    (cs.filterMap (firstPass ts (checksAt ts w) (successorsRead ts w)).pick)
  rw [@checkClasses_free _ _ _ _ _ cs ?_ ?_ b₁ b₂]
  · rw [World.onTarget_self]
    exact (keyed ts.name).congr plain
  · rw [World.onTarget_self, streamed_congr plain]
    exact all.read

theorem eval_validateTable_unreadable (keyed : ∀ table, Keyed (w.target table)) (unreadable : ¬Readable ts w)
    (b : BatchConfig) : ∃ e v, (validateTable b ts).eval w = (.error e, v) := by
  obtain ⟨e, v, failed⟩ := @Pass.eval_unread _ _ _ _ (firstPass ts (checksAt ts w) (successorsRead ts w)) ⟨∅, []⟩
    b.validateBatchRows_pos (keyed ts.name) unreadable
  refine ⟨e, v, ?_⟩
  unfold validateTable
  rw [Prog.eval_bind_ok eval_rowChecks, Prog.eval_bind_ok (eval_successorMap keyed b), Prog.eval_bind, firstPass_body,
    failed]

/-- VALIDATE of a table does not depend on its batch size: it returns at both sizes or at neither, with the same
verdicts, rejects, class totals, ledger and archive; and where every row is read, its error too is the same. -/
theorem validateTable_batches (keyed : ∀ table, Keyed (w.target table)) (b₁ b₂ : BatchConfig) :
    (∀ v, (validateTable b₁ ts).eval w = (.ok (), v) ↔ (validateTable b₂ ts).eval w = (.ok (), v)) ∧
      (Readable ts w → (validateTable b₁ ts).eval w = (validateTable b₂ ts).eval w) := by
  refine ⟨?_, fun readable => eval_validateTable_readable keyed readable b₁ b₂⟩
  intro v
  by_cases readable : Readable ts w
  · rw [eval_validateTable_readable keyed readable b₁ b₂]
  · obtain ⟨e₁, v₁, failed₁⟩ := eval_validateTable_unreadable keyed readable b₁
    obtain ⟨e₂, v₂, failed₂⟩ := eval_validateTable_unreadable keyed readable b₂
    rw [failed₁, failed₂]
    exact iff_of_false (fun h => by cases h) fun h => by cases h

end

/-- A target in which LOAD has staged these records. -/
def stagedWorld (convert : Raw → Conversion) (records : List Raw) : World where
  runRow := none
  target _ := { TargetTable.blank with
    staging := KeyMap.upsertAll ∅ (records.filterMap fun raw =>
      match convert raw with
      | .ok k values _ => some (k, ⟨k, 1, raw, values, none⟩)
      | _ => none)
    ledger := { LedgerRow.fresh with loaded := some records.length } }
  source _ := ⟨∅, ∅, ∅, ∅⟩

theorem stagedWorld_keyed (convert : Raw → Conversion) (records : List Raw) (table : String) :
    Keyed ((stagedWorld convert records).target table) := by
  intro k row held
  rcases KeyMap.upsertAll_cases held with new | ⟨_, none⟩
  · obtain ⟨raw, _, made⟩ := List.mem_filterMap.mp new
    split at made
    next =>
      cases made
      rfl
    next => cases made
  · cases none

/-- The record of a document, with a charge of fewer than ten billionths. -/
def chargeRecord (k c charge : UInt8) : Raw := [k, c, 0, 0, 0, 0, 0, 0, 16 * charge + 0xC]

/-- The charge of B is below the eighth digit, so that class X fails. -/
def chargeDocs : World :=
  stagedWorld chargeTable.convert [chargeRecord 0x41 0x58 0, chargeRecord 0x42 0x58 1, chargeRecord 0x4B 0x59 0]

theorem chargeDocs_batches : ∃ v,
    (validateTable (.of 1 1 1 1 (by decide) (by decide) (by decide) (by decide)) chargeTable).eval chargeDocs = (.ok (), v) ∧
    (validateTable (.of 1 1 3 1 (by decide) (by decide) (by decide) (by decide)) chargeTable).eval chargeDocs = (.ok (), v) ∧
    (v.target "DOCARCH").validation.toList.map (fun r => r.2.rule) =
      [some ruleClassTotal, some ruleClassTotal, none] := by
  refine ⟨((validateTable (.of 1 1 1 1 (by decide) (by decide) (by decide) (by decide)) chargeTable).eval chargeDocs).2,
    ?_, ?_, by decide +kernel⟩
  · exact Prod.ext (by decide +kernel) rfl
  · apply ((validateTable_batches (stagedWorld_keyed _ _) _ _).1 _).mp
    exact Prod.ext (by decide +kernel) rfl

end OtterWorks.Migration
