import OtterWorks.Migration.ValidateRuns

namespace OtterWorks.Migration

open KeyMap (pageOf upto Ascending)

/-- After the pages up to a key in pass 1. -/
structure PassOne (ts : TableSpec) (w : World) (pass : ClassPass) (last : Key) (v : World) : Prop where
  examining : Examining ts w v
  accumulated : ∀ ct, ts.classTotals = some ct →
    ((upto (plainRows (w.target ts.name)) last).map fun r => candidateOf ts r.2).foldlM
      (ClassPass.add ts ct (successorsAt ts w)) ⟨∅, []⟩ = .ok pass
  judged : ∀ k row, (k, row) ∈ plainRows (w.target ts.name) → compare k last ≠ .gt →
    Judged ts (v.target ts.name) row (rowFindingAt ts w row)

/-- After the pages up to a key in pass 2. -/
structure PassTwo (ts : TableSpec) (w : World) (last : Key) (v : World) : Prop where
  examining : Examining ts w v
  later : ∀ k row, (k, row) ∈ plainRows (w.target ts.name) → compare last k = .lt →
    Judged ts (v.target ts.name) row (rowFindingAt ts w row)
  judged : ∀ k row, (k, row) ∈ plainRows (w.target ts.name) → compare k last ≠ .gt →
    Judged ts (v.target ts.name) row (judgementAt ts w row)

section

variable {D : Drift} {F : Prop} {batch : BatchConfig} {ts : TableSpec} {I : World → Prop} {w v : World}
  {page : List (Key × StagedRow)} {final : Key × StagedRow} {last : Key} {n : Nat}

theorem keep_liftExcept {α : Type} {x : Except JobError α} {R : α → World → Prop} (hI : I w)
    (ok : ∀ a, x = .ok a → R a w) : wp (D.weather F) (liftExcept x) (.keep I R) w := by
  cases x with
  | ok a => exact keeps_pure hI (ok a rfl)
  | error e => exact keeps_throw hI trivial

theorem plain_page (t : TargetTable) (last : Key) (n : Nat) :
    pageOf (plainRows t) last n = (t.staging.page last n).map fun r => (r.1, r.2.plain) := by
  unfold KeyMap.page pageOf plainRows
  rw [List.filter_map, List.map_take]
  rfl

theorem ascending_plain (t : TargetTable) : Ascending (plainRows t) := by
  unfold plainRows Ascending
  rw [List.pairwise_map]
  exact KeyMap.ascending_toList _

/-- A page's keys lie between its first and its last. -/
theorem page_between (hpage : page = (v.target ts.name).staging.page last n) (hlast : page.getLast? = some final)
    {first : Key × StagedRow} (hfirst : page.head? = some first) {row : Key × StagedRow} (hr : row ∈ page) :
    keyBetween first.1 final.1 row.1 = true := by
  have sorted : Ascending page := by
    rw [hpage]
    exact (KeyMap.ascending_toList _).sublist (KeyMap.pageOf_sublist ..)
  have above : compare first.1 row.1 ≠ .gt := by
    obtain ⟨rest, rfl⟩ : ∃ rest, page = first :: rest := by
      cases page with
      | nil => cases hfirst
      | cons a rest =>
        cases hfirst
        exact ⟨rest, rfl⟩
    rcases List.mem_cons.mp hr with rfl | hr
    · simp
    · have := (List.pairwise_cons.mp sorted).1 row hr
      simp [this]
  have below : compare row.1 final.1 ≠ .gt := by
    obtain ⟨front, rfl⟩ := List.getLast?_eq_some_iff.mp hlast
    rcases List.mem_append.mp hr with h | h
    · have := (List.pairwise_append.mp sorted).2.2 row h final (by simp)
      simp [this]
    · rw [List.mem_singleton.mp h]
      simp
  simp [keyBetween, above, below]

theorem page_below (hpage : page = (v.target ts.name).staging.page last n) (hlast : page.getLast? = some final)
    {row : Key × StagedRow} (hr : row ∈ page) : compare row.1 final.1 ≠ .gt := by
  obtain ⟨first, hfirst⟩ : ∃ first, page.head? = some first := by
    cases page with
    | nil => cases hr
    | cons a rest => exact ⟨a, rfl⟩
  have between := page_between hpage hlast hfirst hr
  simp only [keyBetween, Bool.and_eq_true, bne_iff_ne] at between
  exact between.2

/-- What is known of a page's rows. -/
theorem page_rows (own : KeysOk (v.target ts.name)) (hpage : page = (v.target ts.name).staging.page last n)
    {k : Key} {row : StagedRow} (hr : (k, row) ∈ page) :
    (v.target ts.name).staging[k]? = some row ∧ row.sourceKey = k ∧ compare last k = .lt := by
  subst hpage
  obtain ⟨held, after⟩ := KeyMap.mem_pageOf hr
  have held := KeyMap.mem_toList.mp held
  exact ⟨held, (own k row held).1, after⟩

theorem page_distinct (own : KeysOk (v.target ts.name)) (hpage : page = (v.target ts.name).staging.page last n) :
    ((page.map Prod.snd).map StagedRow.sourceKey).Nodup := by
  have keys : (page.map Prod.snd).map StagedRow.sourceKey = page.map Prod.fst := by
    rw [List.map_map]
    apply List.map_congr_left
    intro r hr
    exact (@page_rows _ _ _ _ _ own hpage r.1 r.2 hr).2.1
  have sorted : Ascending page := by
    rw [hpage]
    exact (KeyMap.ascending_toList _).sublist (KeyMap.pageOf_sublist ..)
  rw [keys]
  unfold List.Nodup
  rw [List.pairwise_map]
  refine List.Pairwise.imp ?_ sorted
  intro a b before same
  rw [same] at before
  simp at before

theorem keep_candidates (stable : D.Stable I) (hI : I v) (own : KeysOk (v.target ts.name))
    (converted : ∀ (k : Key) (row : StagedRow), (v.target ts.name).staging[k]? = some row → Converted ts row)
    (hpage : page = (v.target ts.name).staging.page last n) (hlast : page.getLast? = some final) :
    wp (D.weather F) (candidates ts (page.map Prod.snd)) (.keep I fun cs u => D.Moves v u ∧
      cs = (page.map Prod.snd).map (candidateOf ts)) v := by
  obtain ⟨first, rest, cons⟩ : ∃ first rest, page = first :: rest := by
    cases page with
    | nil => cases hlast
    | cons a rest => exact ⟨a, rest, rfl⟩
  have firstKey := (@page_rows _ _ _ _ _ own hpage first.1 first.2 (by simp [cons])).2.1
  have lastKey := (@page_rows _ _ _ _ _ own hpage final.1 final.2 (List.mem_of_getLast? hlast)).2.1
  have shape : page.map Prod.snd = first.2 :: rest.map Prod.snd := by simp [cons]
  have ends : (page.map Prod.snd).getLast? = some final.2 := by simp [List.getLast?_map, hlast]
  unfold candidates targetHashes
  rw [ends]
  rw [shape]
  simp only
  rw [← shape]
  refine keeps_bind (keep_read stable hI) ?_
  rintro hashes u hIu ⟨moves, rfl⟩
  refine keep_liftExcept hIu ?_
  intro cs ok
  refine ⟨moves, ?_⟩
  have made : (page.map Prod.snd).mapM (candidate ts (targetHashesOf ts first.2.sourceKey final.2.sourceKey
      (v.target ts.name))) = .ok ((page.map Prod.snd).map (candidateOf ts)) := by
    apply mapM_ok.mpr
    rw [List.forall₂_map_right_iff, List.forall₂_same]
    intro row hr
    obtain ⟨⟨k, row'⟩, hmem, same⟩ := List.mem_map.mp hr
    cases same
    obtain ⟨held, key, _⟩ := page_rows own hpage hmem
    apply candidate_eq (converted k row' held)
    have between := @page_between _ _ _ _ _ _ hpage hlast first (by simp [cons]) _ hmem
    rw [key, firstKey, lastKey]
    unfold targetHashesOf
    rw [Std.ExtTreeMap.getElem?_map, Std.ExtTreeMap.getElem?_filter', held]
    simp only at between
    simp [between]
  rw [made] at ok
  exact (Except.ok.inj ok).symm

theorem Examining.persisted {g : StagedRow → Option Finding} {rows : List StagedRow} {u : World}
    (h : Examining ts w v) (own : u.target ts.name = Migration.persisted ts g rows (v.target ts.name))
    (others : ∀ name, name ≠ ts.name → u.target name = v.target name) : Examining ts w u := by
  refine ⟨?_, ?_, ?_⟩
  · rw [own, persisted_plain, h.plain]
  · rw [own]
    conv_lhs => unfold Migration.persisted written
    rw [h.frame]
    rfl
  · intro name other
    rw [others name other, h.others name other]

theorem Examining.held (h : Examining ts w v) {k : Key} {row : StagedRow}
    (hr : (v.target ts.name).staging[k]? = some row) : (k, row.plain) ∈ plainRows (w.target ts.name) := by
  rw [← h.plain]
  exact mem_plainRows.mpr ⟨row, hr, rfl⟩

/-- The keys of a page, as rows of the table VALIDATE started from. -/
theorem Examining.pageRow (h : Examining ts w v) (own : KeysOk (v.target ts.name))
    (hpage : page = (v.target ts.name).staging.page last n) {k : Key} {row : StagedRow}
    (hr : (k, row) ∈ plainRows (w.target ts.name)) :
    row.sourceKey = k ∧ (k ∈ page.map Prod.fst → ∃ r, (k, r) ∈ page ∧ row = r.plain) := by
  rw [← h.plain] at hr
  obtain ⟨r, held, rfl⟩ := mem_plainRows.mp hr
  refine ⟨(own k r held).1, ?_⟩
  intro there
  obtain ⟨⟨k', r'⟩, hr', same⟩ := List.mem_map.mp there
  cases same
  have := (page_rows own hpage hr').1
  rw [held] at this
  cases this
  exact ⟨r, hr', rfl⟩

theorem page_keys (own : KeysOk (v.target ts.name)) (hpage : page = (v.target ts.name).staging.page last n) :
    (page.map Prod.snd).map StagedRow.sourceKey = page.map Prod.fst := by
  rw [List.map_map]
  apply List.map_congr_left
  intro r hr
  exact (@page_rows _ _ _ _ _ own hpage r.1 r.2 hr).2.1

/-- A row up to the last key of a page is in the page or before it. -/
theorem Examining.reach (h : Examining ts w v) (hpage : page = (v.target ts.name).staging.page last n)
    (hlast : page.getLast? = some final) {k : Key} {row : StagedRow} (hr : (k, row) ∈ plainRows (w.target ts.name))
    (here : compare k final.1 ≠ .gt) : compare k last ≠ .gt ∨ k ∈ page.map Prod.fst := by
  rw [← h.plain] at hr
  obtain ⟨r, held, rfl⟩ := mem_plainRows.mp hr
  rcases @KeyMap.upto_or_after _ _ _ k last with before | after
  · exact Or.inl before
  · right
    subst hpage
    exact List.mem_map.mpr ⟨(k, r), KeyMap.pageOf_full (KeyMap.ascending_toList _) hlast (KeyMap.mem_toList.mpr held)
      after here, rfl⟩

theorem Examining.upto_final (h : Examining ts w v) (hpage : page = (v.target ts.name).staging.page last n)
    (hlast : page.getLast? = some final) :
    upto (plainRows (w.target ts.name)) final.1 =
      upto (plainRows (w.target ts.name)) last ++ page.map fun r => (r.1, r.2.plain) := by
  subst hpage
  rw [← h.plain, ← plain_page]
  have := @KeyMap.upto_page _ _ _ _ last n _ (ascending_plain (v.target ts.name)) ((final.1, final.2.plain))
      (by rw [plain_page, List.getLast?_map, hlast]; rfl)
  exact this

theorem classPass_page {ct : ClassTotals} {successors : KeyMap Text Text} (page : List (Key × StagedRow))
    (pass : ClassPass) :
    ((page.map fun r => (r.1, r.2.plain)).map fun r => candidateOf ts r.2).foldlM
        (ClassPass.add ts ct successors) pass =
      ((page.map Prod.snd).map (candidateOf ts)).foldlM (ClassPass.add ts ct successors) pass := by
  simp only [List.foldlM_map]
  rfl

theorem keep_passOne (stable : D.Stable I) (closed : ∀ u v, ValidateMove ts u v → I u → I v) (hI : I v)
    (own : ∀ u, I u → KeysOk (u.target ts.name))
    (converted : ∀ u, I u → ∀ (k : Key) (row : StagedRow), (u.target ts.name).staging[k]? = some row → Converted ts row)
    {pass : ClassPass} (before : PassOne ts w pass last v) (hpage : page = (v.target ts.name).staging.page last n)
    (hlast : page.getLast? = some final) :
    wp (D.weather F) (passOne ts (checksAt ts w) (successorsAt ts w) pass (page.map Prod.snd))
      (.keep I fun pass u => PassOne ts w pass final.1 u) v := by
  unfold passOne
  have rows := fun {k : Key} {row : StagedRow} (hr : (k, row) ∈ page) => page_rows (own v hI) hpage hr
  refine keeps_bind (keep_candidates stable hI (own v hI) (converted v hI) hpage hlast) ?_
  rintro _ u hIu ⟨moves, rfl⟩
  have examining := before.examining.drift moves
  refine keeps_bind (R := fun pass' u' => u' = u ∧ ∀ ct, ts.classTotals = some ct →
    ((upto (plainRows (w.target ts.name)) final.1).map fun r => candidateOf ts r.2).foldlM
      (ClassPass.add ts ct (successorsAt ts w)) ⟨∅, []⟩ = .ok pass') ?_ ?_
  · unfold addClasses
    split
    next ct hct =>
      refine keep_liftExcept hIu ?_
      intro pass' ok
      refine ⟨rfl, ?_⟩
      intro ct' hct'
      rw [hct] at hct'
      cases hct'
      rw [before.examining.upto_final hpage hlast, List.map_append, List.foldlM_append,
        before.accumulated ct hct]
      change ((page.map fun r => (r.1, r.2.plain)).map fun r => candidateOf ts r.2).foldlM _ pass = _
      rw [classPass_page]
      exact ok
    next hct =>
      refine keeps_pure hIu ⟨rfl, ?_⟩
      intro ct hct'
      rw [hct] at hct'
      cases hct'
  · rintro pass' _ hIu' ⟨rfl, accumulated⟩
    have applied : ((page.map Prod.snd).map (candidateOf ts)).map ((checksAt ts w).apply ts) =
        findingsOf ts (rowFindingAt ts w) (page.map Prod.snd) := by
      rw [List.map_map]
      rfl
    rw [applied]
    refine keeps_bind (keep_persist (rowFindingAt ts w) stable closed hIu' ?_ ?_) ?_
    · intro row hr
      obtain ⟨⟨k, row'⟩, hmem, same⟩ := List.mem_map.mp hr
      cases same
      obtain ⟨held, key, _⟩ := rows hmem
      exact ⟨row', by rw [key, moves.target]; exact held, rfl⟩
    · intro row hr found
      obtain ⟨⟨k, row'⟩, hmem, same⟩ := List.mem_map.mp hr
      cases same
      obtain ⟨held, key, _⟩ := rows hmem
      obtain ⟨clean, seen⟩ := (rowFinding_none (before.examining.held held) key).mp found
      exact ⟨examining.clean clean, examining.parent seen⟩
    · rintro _ u' hIu'' ⟨here, others⟩
      refine keeps_pure hIu'' ⟨examining.persisted here others, accumulated, ?_⟩
      have same : _ = v.target := moves.target
      intro k row hr upto
      rw [here, same]
      obtain ⟨key, inPage⟩ := before.examining.pageRow (own v hI) hpage hr
      by_cases there : k ∈ page.map Prod.fst
      · obtain ⟨r, hmem, rfl⟩ := inPage there
        exact Judged.plain.mpr (judged_persisted (page_distinct (own v hI) hpage)
          (List.mem_map.mpr ⟨(k, r), hmem, rfl⟩))
      · apply judged_other
        · rw [page_keys (own v hI) hpage, key]
          exact there
        · rcases before.examining.reach hpage hlast hr upto with earlier | inside
          · exact before.judged k row hr earlier
          · exact absurd inside there

/-- The rows of a page that pass 2 fails. -/
def flippedRows (ts : TableSpec) (ct : ClassTotals) (w : World) (pass : ClassPass) (rows : List StagedRow) :
    List StagedRow :=
  rows.filter fun row => (rowFindingAt ts w row).isNone &&
    (classFinding ts ct (successorsAt ts w) (mismatchesAt ts ct w pass) pass.moved row).isSome

theorem flip_rows {ct : ClassTotals} (hct : ts.classTotals = some ct) {pass : ClassPass}
    (hpass : classPassAt ts ct w = .ok pass) (rows : List StagedRow) :
    ((rows.map (candidateOf ts)).map ((checksAt ts w).apply ts)).filterMap
        (flip ts ct (successorsAt ts w) (mismatchesAt ts ct w pass) pass.moved) =
      findingsOf ts (judgementAt ts w) (flippedRows ts ct w pass rows) := by
  induction rows with
  | nil => rfl
  | cons row rows ih =>
    rw [List.map_cons, List.map_cons, List.filterMap_cons]
    have finding : ((checksAt ts w).apply ts (candidateOf ts row)).finding = rowFindingAt ts w row := rfl
    have judgement : judgementAt ts w row = (rowFindingAt ts w row).or
        (classFinding ts ct (successorsAt ts w) (mismatchesAt ts ct w pass) pass.moved row) := by
      unfold judgementAt classFindingAt
      rw [hct]
      simp only [hpass]
    have shape : flip ts ct (successorsAt ts w) (mismatchesAt ts ct w pass) pass.moved
        ((checksAt ts w).apply ts (candidateOf ts row)) =
          if (rowFindingAt ts w row).isNone &&
            (classFinding ts ct (successorsAt ts w) (mismatchesAt ts ct w pass) pass.moved row).isSome then
            some { candidateOf ts row with finding := judgementAt ts w row }
          else none := by
      unfold flip
      rw [finding, judgement]
      cases hrow : rowFindingAt ts w row with
      | some f => simp
      | none =>
        have same : (classHit (mismatchesAt ts ct w pass) pass.moved
            (((checksAt ts w).apply ts (candidateOf ts row)).sourceClass ts ct (successorsAt ts w))
            (((checksAt ts w).apply ts (candidateOf ts row)).targetClass ct)).map
              (failClass ct (((checksAt ts w).apply ts (candidateOf ts row)).sourceClass ts ct (successorsAt ts w))
                (((checksAt ts w).apply ts (candidateOf ts row)).targetClass ct)) =
            classFinding ts ct (successorsAt ts w) (mismatchesAt ts ct w pass) pass.moved row := rfl
        rw [← same]
        simp only [Option.isNone_none, Bool.true_and, Option.none_or]
        cases classHit (mismatchesAt ts ct w pass) pass.moved
            (((checksAt ts w).apply ts (candidateOf ts row)).sourceClass ts ct (successorsAt ts w))
            (((checksAt ts w).apply ts (candidateOf ts row)).targetClass ct) with
        | none => simp
        | some mm =>
          simp only [Option.map_some, Option.isSome_some, if_true]
          rfl
    rw [shape, ih]
    unfold flippedRows findingsOf
    by_cases flips : ((rowFindingAt ts w row).isNone &&
        (classFinding ts ct (successorsAt ts w) (mismatchesAt ts ct w pass) pass.moved row).isSome) = true
    · rw [if_pos flips]
      simp only [List.filter_cons, flips, if_true]
      rfl
    · rw [if_neg flips]
      simp only [List.filter_cons, flips]
      rfl

theorem keep_passTwo {ct : ClassTotals} (hct : ts.classTotals = some ct) {pass : ClassPass}
    (hpass : classPassAt ts ct w = .ok pass) (stable : D.Stable I)
    (closed : ∀ u v, ValidateMove ts u v → I u → I v) (hI : I v) (own : ∀ u, I u → KeysOk (u.target ts.name))
    (converted : ∀ u, I u → ∀ (k : Key) (row : StagedRow), (u.target ts.name).staging[k]? = some row → Converted ts row)
    (before : PassTwo ts w last v) (hpage : page = (v.target ts.name).staging.page last n)
    (hlast : page.getLast? = some final) :
    wp (D.weather F) (passTwo ts ct (checksAt ts w) (successorsAt ts w) (mismatchesAt ts ct w pass) pass.moved
      (page.map Prod.snd)) (.keep I fun _ u => PassTwo ts w final.1 u) v := by
  unfold passTwo
  have rows := fun {k : Key} {row : StagedRow} (hr : (k, row) ∈ page) => page_rows (own v hI) hpage hr
  have forward : compare last final.1 = .lt :=
    (@rows final.1 final.2 (List.mem_of_getLast? hlast)).2.2
  -- what is left unflipped was judged by pass 1
  have unflipped : ∀ row, ((rowFindingAt ts w row).isNone &&
      (classFinding ts ct (successorsAt ts w) (mismatchesAt ts ct w pass) pass.moved row).isSome) = false →
        judgementAt ts w row = rowFindingAt ts w row := by
    intro row stays
    unfold judgementAt classFindingAt
    rw [hct]
    simp only [hpass]
    cases hrow : rowFindingAt ts w row with
    | some f => rfl
    | none =>
      rw [hrow] at stays
      simpa using stays
  refine keeps_bind (keep_candidates stable hI (own v hI) (converted v hI) hpage hlast) ?_
  rintro _ u hIu ⟨moves, rfl⟩
  have examining := before.examining.drift moves
  simp only
  rw [flip_rows hct hpass]
  have pageRow : ∀ row ∈ flippedRows ts ct w pass (page.map Prod.snd), ∃ k, (k, row) ∈ page := by
    intro row hr
    obtain ⟨⟨k, row'⟩, hmem, same⟩ := List.mem_map.mp (List.mem_filter.mp hr).1
    cases same
    exact ⟨k, hmem⟩
  have done : ∀ u', (u'.target ts.name = persisted ts (judgementAt ts w) (flippedRows ts ct w pass (page.map Prod.snd))
      (u.target ts.name)) → (∀ name, name ≠ ts.name → u'.target name = u.target name) → PassTwo ts w final.1 u' := by
    intro u' here others
    have keys := page_keys (own v hI) hpage
    have sub : (flippedRows ts ct w pass (page.map Prod.snd)).map StagedRow.sourceKey ⊆ page.map Prod.fst := by
      intro k hk
      obtain ⟨row, hr, rfl⟩ := List.mem_map.mp hk
      rw [← keys]
      exact List.mem_map.mpr ⟨row, (List.mem_filter.mp hr).1, rfl⟩
    refine ⟨examining.persisted here others, ?_, ?_⟩
    · intro k row hr after
      have key := (before.examining.pageRow (own v hI) hpage hr).1
      rw [here, moves.target]
      refine judged_other ?_ (before.later k row hr (Std.TransCmp.lt_trans forward after))
      intro inside
      rw [key] at inside
      obtain ⟨r, hr', same⟩ := List.mem_map.mp (sub inside)
      have below := page_below hpage hlast hr'
      rw [same] at below
      exact below (Std.OrientedCmp.gt_iff_lt.mpr after)
    · intro k row hr upto
      rw [here, moves.target]
      obtain ⟨key, inPage⟩ := before.examining.pageRow (own v hI) hpage hr
      by_cases there : k ∈ page.map Prod.fst
      · obtain ⟨r, hmem, rfl⟩ := inPage there
        by_cases flips : ((rowFindingAt ts w r).isNone &&
            (classFinding ts ct (successorsAt ts w) (mismatchesAt ts ct w pass) pass.moved r).isSome) = true
        · refine Judged.plain.mpr (judged_persisted ?_ ?_)
          · exact (page_distinct (own v hI) hpage).sublist (List.filter_sublist.map _)
          · exact List.mem_filter.mpr ⟨List.mem_map.mpr ⟨(k, r), hmem, rfl⟩, flips⟩
        · simp only [Bool.not_eq_true] at flips
          apply judged_other
          · intro inside
            obtain ⟨other, ho, same⟩ := List.mem_map.mp inside
            obtain ⟨ho, flips'⟩ := List.mem_filter.mp ho
            have := List.inj_on_of_nodup_map (page_distinct (own v hI) hpage) ho
              (List.mem_map.mpr ⟨(k, r), hmem, rfl⟩) same
            rw [this, flips] at flips'
            cases flips'
          · rw [judgement_plain, unflipped r flips]
            exact before.later k r.plain hr (rows hmem).2.2
      · apply judged_other
        · rw [key]
          exact fun inside => there (sub inside)
        · rcases before.examining.reach hpage hlast hr upto with earlier | inside
          · exact before.judged k row hr earlier
          · exact absurd inside there
  split
  next none =>
    have empty : flippedRows ts ct w pass (page.map Prod.snd) = [] := by simpa [findingsOf] using none
    refine keeps_pure hIu (done u ?_ fun _ _ => rfl)
    rw [empty, persisted_nil]
  next =>
    refine keep_mono (keep_persist (judgementAt ts w) stable closed hIu ?_ ?_) fun _ u' _ h => done u' h.1 h.2
    · intro row hr
      obtain ⟨k, hmem⟩ := pageRow row hr
      obtain ⟨held, key, _⟩ := rows hmem
      exact ⟨row, by rw [key, moves.target]; exact held, rfl⟩
    · intro row hr found
      have flips := (List.mem_filter.mp hr).2
      simp only [Bool.and_eq_true, Option.isNone_iff_eq_none] at flips
      unfold judgementAt classFindingAt at found
      rw [hct] at found
      simp only [hpass] at found
      rw [flips.1, Option.none_or] at found
      rw [found] at flips
      simp at flips

end

end OtterWorks.Migration
