import OtterWorks.Analytics.Increments
import OtterWorks.Lib.Transition

namespace OtterWorks.Analytics

namespace Db

/-- The database with the catalog's series and products in it. -/
def withSeries (db : Db) (catalog : Catalog) : Db := { db with series := db.series.putAll catalog.series }

def withCatalog (db : Db) (catalog : Catalog) : Db :=
  { db.withSeries catalog with products := db.products.putAll (catalog.products.filterMap Product.stored) }

/-- A price of the seed is not in `market_prices`. -/
def Missing (db : Db) (catalog : Catalog) (today : Int) : Prop :=
  ∃ extension, catalog.extension today = some extension ∧ ∃ row ∈ catalog.baseline ++ extension, row.2.1 ∉ db.prices row.1

def NoMargins (db : Db) : Prop := ∀ sku date : Text, date ∉ db.margins sku

end Db

/-- Every key that is not up to date before a run is one that its recompute covers. A seeder's recompute covers all keys,
but it is made only if prices of the seed are missing or no margin exists. -/
def Run.Suffices (catalog : Catalog) (db : Db) : Run → Prop
  | .seeder _ today _ => db.Missing catalog today ∨ db.NoMargins ∨ ∀ sku date, (db.withCatalog catalog).UpToDate sku date
  | .request _ today observations _ =>
    let accepted := valid (db.series.list.map MarketSeries.seriesCode) today observations
    ∀ sku date, db.covers (accepted.map Observation.seriesCode).dedup (earliest (accepted.map Observation.priceDate)) sku date
      ∨ db.UpToDate sku date

variable {catalog : Catalog} {db t : Db} {today : Int}

section

/-- A price inserted if absent: it was there, or it is new. -/
theorem insertPriceIfAbsent_cases {code date : Text} {value : Decimal} {n : Nat}
    (h : insertPriceIfAbsent db code date value = some (n, t)) :
    (n = 0 ∧ t = db ∧ date ∈ db.prices code) ∨ (n = 1 ∧ date ∉ db.prices code ∧ ∃ kept, t = db.putPrice code date kept) := by
  obtain ⟨d, cast, h⟩ := Option.bind_eq_some_iff.mp h
  obtain ⟨kept, -, h⟩ := Option.bind_eq_some_iff.mp h
  cases cast_eq cast
  by_cases held : date ∈ db.prices code
  · rw [if_pos held] at h
    cases h
    exact .inl ⟨rfl, rfl, held⟩
  · rw [if_neg held] at h
    split at h
    next =>
      cases h
      exact .inr ⟨rfl, held, kept, rfl⟩
    next => cases h

/-- A batch that counts no row changes nothing, and one that counts some found prices missing. -/
theorem insertBatch_cases {batch : List (Text × Text × Decimal)} {n n' : Nat}
    (h : batch.foldlM insertPrice (n, db) = some (n', t)) (sound : Sound catalog db) :
    Sound catalog t ∧ n ≤ n' ∧ (n' = n → t = db ∧ ∀ row ∈ batch, row.2.1 ∈ db.prices row.1) ∧
      (n < n' → ∃ row ∈ batch, row.2.1 ∉ db.prices row.1) := by
  induction batch generalizing n db with
  | nil =>
    cases h
    exact ⟨sound, le_rfl, fun _ => ⟨rfl, by simp⟩, fun more => absurd more (by omega)⟩
  | cons row batch ih =>
    rw [List.foldlM_cons] at h
    obtain ⟨⟨m, u⟩, first, rest⟩ := Option.bind_eq_some_iff.mp h
    obtain ⟨⟨k, v⟩, one, same⟩ := Option.map_eq_some_iff.mp first
    cases same
    rcases insertPriceIfAbsent_cases one with ⟨zero, rfl, held⟩ | ⟨single, absent, kept, rfl⟩
    · obtain ⟨after, le, none, some⟩ := ih rest sound
      refine ⟨after, by omega, ?_, ?_⟩
      · intro same
        obtain ⟨rfl, all⟩ := none (by omega)
        exact ⟨rfl, List.forall_mem_cons.mpr ⟨held, all⟩⟩
      · intro more
        obtain ⟨row', member, absent⟩ := some (by omega)
        exact ⟨row', List.mem_cons_of_mem _ member, absent⟩
    · obtain ⟨after, le, -, -⟩ := ih rest (sound.putPrice kept)
      refine ⟨after, by omega, fun same => absurd same (by omega), fun _ => ⟨row, List.mem_cons_self .., absent⟩⟩

theorem keeps_series {order : Scan MarketSeries} (h : Sound catalog db) :
    wp (.stormy Db) (Prog.together order upsertSeries catalog.series)
      (.keep (Sound catalog) fun _ t => t = db.withSeries catalog) db := by
  have each := @keeps_together _ _ _ _ (.stormy Db) (Sound catalog) upsertSeries order catalog.series db (fun _ => True)
    (fun l _ t => t = { db with series := db.series.putAll l }) ?_ h rfl
  · refine keep_mono each ?_
    rintro _ t - ⟨l, perm, rfl⟩
    have distinct := (perm.map MarketSeries.seriesCode).nodup_iff.mpr catalog.distinctSeries
    rw [Db.withSeries, Keyed.putAll_perm distinct perm]
  · intro s t _ hI
    refine keeps_statement stormy_still hI (fun _ => trivial) ?_ fun _ => trivial
    rintro ⟨⟩ u done
    cases Option.some.inj done
    refine ⟨hI.putSeries s, ?_⟩
    rintro before - rfl
    simp only [Keyed.putAll, List.foldl_append, List.foldl_cons, List.foldl_nil]

theorem stored_sublist (l : List Product) :
    ((l.filterMap Product.stored).map Product.sku).Sublist (l.map Product.sku) := by
  induction l with
  | nil => exact List.Sublist.refl []
  | cons p l ih =>
    cases stored : p.stored with
    | none =>
      rw [List.filterMap_cons_none stored, List.map_cons]
      exact ih.cons _
    | some row =>
      rw [List.filterMap_cons_some stored, List.map_cons, List.map_cons, stored_sku stored]
      exact ih.cons_cons _

theorem keeps_products {order : Scan Product} (h : Sound catalog db) :
    wp (.stormy Db) (Prog.together order upsertProduct catalog.products) (.keep (Sound catalog) fun _ t =>
      t = { db with products := db.products.putAll (catalog.products.filterMap Product.stored) }) db := by
  have each := @keeps_together _ _ _ _ (.stormy Db) (Sound catalog) upsertProduct order catalog.products db (fun _ => True)
    (fun l _ t => t = { db with products := db.products.putAll (l.filterMap Product.stored) }) ?_ h rfl
  · refine keep_mono each ?_
    rintro _ t - ⟨l, perm, rfl⟩
    have distinct : ((l.filterMap Product.stored).map Product.sku).Nodup :=
      (stored_sublist l).nodup ((perm.map Product.sku).nodup_iff.mpr catalog.distinctProducts)
    rw [Keyed.putAll_perm distinct (perm.filterMap _)]
  · intro p t member hI
    refine keeps_statement stormy_still hI (fun _ => trivial) ?_ fun _ => trivial
    rintro ⟨⟩ u done
    obtain ⟨row, stored, done⟩ := Option.bind_eq_some_iff.mp done
    split at done
    next =>
      cases Option.some.inj done
      refine ⟨hI.putProduct member stored, ?_⟩
      rintro before - rfl
      simp [Keyed.putAll, stored]
    next => cases done

theorem keeps_batches {order : Scan (List (Text × Text × Decimal))} {rows : List (Text × Text × Decimal)}
    (h : Sound catalog db) :
    wp (.stormy Db) (Prog.together order insertBatch (slices 500 rows)) (.keep (Sound catalog) fun counts t =>
      (counts.sum = 0 → t = db ∧ ∀ row ∈ rows, row.2.1 ∈ db.prices row.1) ∧
        (0 < counts.sum → ∃ row ∈ rows, row.2.1 ∉ db.prices row.1)) db := by
  have whole : (slices 500 rows).flatten = rows := slices_flatten (by decide) rows
  have each := @keeps_together _ _ _ _ (.stormy Db) (Sound catalog) insertBatch order (slices 500 rows) db (fun _ => True)
    (fun l counts t => (counts.sum = 0 → t = db ∧ ∀ batch ∈ l, ∀ row ∈ batch, row.2.1 ∈ db.prices row.1) ∧
        (0 < counts.sum → ∃ batch ∈ l, ∃ row ∈ batch, row.2.1 ∉ db.prices row.1)) ?_ h ⟨fun _ => ⟨rfl, by simp⟩, by simp⟩
  · refine keep_mono each ?_
    rintro counts t - ⟨l, perm, none, some⟩
    constructor
    · intro zero
      obtain ⟨same, all⟩ := none zero
      refine ⟨same, fun row member => ?_⟩
      rw [← whole] at member
      obtain ⟨batch, listed, inBatch⟩ := List.mem_flatten.mp member
      exact all batch (perm.mem_iff.mpr listed) row inBatch
    · intro more
      obtain ⟨batch, listed, row, inBatch, absent⟩ := some more
      refine ⟨row, ?_, absent⟩
      rw [← whole]
      exact List.mem_flatten.mpr ⟨batch, perm.mem_iff.mp listed, inBatch⟩
  · intro batch t _ hI
    refine keeps_statement stormy_still hI (fun _ => trivial) ?_ fun _ => trivial
    intro n u done
    obtain ⟨after, -, none, some⟩ := insertBatch_cases done hI
    refine ⟨after, ?_⟩
    rintro before counts ⟨old, new⟩
    rw [List.sum_append, List.sum_singleton]
    constructor
    · intro zero
      obtain ⟨rfl, all⟩ := old (by omega)
      obtain ⟨rfl, more⟩ := none (by omega)
      refine ⟨rfl, List.forall_mem_append.mpr ⟨all, ?_⟩⟩
      exact List.forall_mem_singleton.mpr more
    · intro more
      by_cases already : 0 < counts.sum
      · obtain ⟨b, listed, row, found⟩ := new already
        exact ⟨b, List.mem_append_left _ listed, row, found⟩
      · obtain ⟨rfl, -⟩ := old (by omega)
        obtain ⟨row, member, absent⟩ := some (by omega)
        exact ⟨batch, by simp, row, member, absent⟩

theorem noMargins_iff (h : Sound catalog t) :
    firstMax id (t.products.list.flatMap fun p => (t.margins p.sku).keys) = none ↔ t.NoMargins := by
  rw [firstMax_none, List.flatMap_eq_nil_iff]
  constructor
  · intro empty sku date held
    obtain ⟨row, due⟩ := Option.isSome_iff_exists.mp (h.due sku date held)
    obtain ⟨p, found⟩ := Option.isSome_iff_exists.mp (Std.ExtTreeMap.mem_iff_isSome_getElem?.mp (known_of_due due))
    have same := t.products.keyed sku p found
    subst same
    have listed : date ∈ (t.margins p.sku).keys := Std.ExtTreeMap.mem_keys.mpr held
    rw [empty p (Keyed.mem_list.mpr found)] at listed
    cases listed
  · intro none p _
    exact List.eq_nil_iff_forall_not_mem.mpr fun date listed => none p.sku date (Std.ExtTreeMap.mem_keys.mp listed)

theorem sound_recompute (h : Sound catalog db) (affected : List Text) (fromDate : Option Text) :
    wp (.stormy Db) (recompute affected fromDate) (.keep (Sound catalog) fun _ t =>
      Refreshing db affected fromDate t ∧ ∀ sku date, Refreshed db affected fromDate t sku date) db :=
  wp_mono (keeps_recompute stormy_still) (fun _ _ ⟨step, done⟩ => ⟨h.refreshing step, step, done⟩)
    (fun _ _ ⟨step, _⟩ => ⟨h.refreshing step, trivial⟩) fun _ step => h.refreshing step

theorem keeps_sync (h : Sound catalog db) (runType : Text) (count : Nat) :
    wp (.stormy Db) (insertSyncRun runType count) (.keep (Sound catalog) fun _ t =>
      t = { db with syncRuns := db.syncRuns ++ [⟨runType, count⟩] }) db := by
  refine keeps_call (C := fun t => t = db) ?_ ?_ ?_
  · rintro t rfl
    exact ⟨h, rfl⟩
  · rintro t hI rfl
    exact ⟨hI.grow ⟨fun _ held => held, fun _ _ found => found, fun _ _ held => held⟩ rfl hI.catalogued, rfl⟩
  · intro _ t _ _ e
    exact ⟨trivial, trivial⟩

theorem keeps_seed {orders : Orders} (h : Sound catalog db) (endings : List (Ending Failure)) :
    wp (.stormy Db) (seed catalog orders today) (.keep (Sound catalog) fun _ t =>
      (∀ sku date, t.UpToDate sku date) ↔ (Run.seeder orders today endings).Suffices catalog db) db := by
  rw [seed]
  cases extended : catalog.extension today with
  | none => exact keeps_throw h trivial
  | some extension =>
    refine keeps_bind (keeps_series h) ?_
    rintro - t hSeries rfl
    refine keeps_bind (keeps_products hSeries) ?_
    rintro - t hCatalog rfl
    refine keeps_bind (keeps_batches hCatalog) ?_
    rintro counts t hI ⟨none, some⟩
    have missing : db.Missing catalog today ↔ 0 < counts.sum := by
      constructor
      · rintro ⟨extension', extended', row, member, absent⟩
        rw [extended] at extended'
        cases extended'
        by_contra zero
        exact absent ((none (by omega)).2 row member)
      · intro more
        exact ⟨extension, extended, some more⟩
    refine keeps_bind (keeps_query _ stormy_still hI fun _ => trivial) ?_
    rintro marginDate u - ⟨same, dated⟩
    subst same
    have bare : marginDate = .none ↔ u.NoMargins := by
      rw [dated]
      exact noMargins_iff hI
    have healed : wp (.stormy Db) (if counts.sum > 0 ∨ marginDate = .none then recompute [] .none else pure 0)
        (.keep (Sound catalog) fun _ t =>
          (∀ sku date, t.UpToDate sku date) ↔ (Run.seeder orders today endings).Suffices catalog db) u := by
      by_cases full : counts.sum > 0 ∨ marginDate = .none
      · rw [if_pos full]
        refine keep_mono (sound_recompute hI [] .none) ?_
        rintro - t - ⟨step, done⟩
        refine iff_of_true (fun sku date => upToDate_all hI step done) ?_
        by_cases more : 0 < counts.sum
        · exact .inl (missing.mpr more)
        · obtain ⟨rfl, -⟩ := none (by omega)
          exact .inr (.inl (bare.mp (full.resolve_left more)))
      · rw [if_neg full]
        obtain ⟨rfl, -⟩ := none (by omega)
        refine keeps_pure hI ⟨fun current => .inr (.inr current), ?_⟩
        rintro (lacking | empty | current)
        · exact absurd (.inl (missing.mp lacking)) full
        · exact absurd (.inr (bare.mpr empty)) full
        · exact current
    refine keeps_bind healed ?_
    rintro - t hT current
    have logged : wp (.stormy Db) (if counts.sum > 0 then insertSyncRun (text "baseline_seed") counts.sum else pure ())
        (.keep (Sound catalog) fun _ u => ∀ sku date, u.UpToDate sku date ↔ t.UpToDate sku date) t := by
      split
      next =>
        refine keep_mono (keeps_sync hT _ _) ?_
        rintro - u - rfl sku date
        exact Iff.rfl
      next => exact keeps_pure hT fun _ _ => Iff.rfl
    refine keeps_bind logged ?_
    intro _ v hV same
    exact keeps_pure hV ((forall₂_congr same).trans current)

theorem keeps_ingest {order : Scan Observation} {observations : List Observation} (h : Sound catalog db)
    (endings : List (Ending Failure)) :
    wp (.stormy Db) (ingest order today observations) (.keep (Sound catalog) fun answer t => answer.isOk = true →
      ((∀ sku date, t.UpToDate sku date) ↔ (Run.request order today observations endings).Suffices catalog db)) db := by
  refine keeps_bind (keeps_query _ stormy_still h fun _ => trivial) ?_
  rintro _ t - ⟨same, rfl⟩
  subst same
  generalize accept : valid (t.series.list.map MarketSeries.seriesCode) today observations = accepted
  simp only [accept]
  cases first : earliest (accepted.map Observation.priceDate) with
  | none => exact keeps_pure h fun right => by cases right
  | some since =>
    refine keeps_bind (keeps_pull (fun _ _ _ value hI => hI.putPrice value) h first) ?_
    rintro - u hU pulled
    refine keeps_bind (sound_recompute hU _ _) ?_
    rintro count v hV ⟨step, done⟩
    refine keeps_bind (keeps_sync hV _ _) ?_
    rintro ⟨⟩ w hW rfl
    refine keeps_pure hW fun _ => ?_
    have each (sku date : Text) : v.UpToDate sku date ↔
        t.covers (accepted.map Observation.seriesCode).dedup (some since) sku date = true ∨ t.UpToDate sku date := by
      have covers : u.covers (accepted.map Observation.seriesCode).dedup (some since) sku date =
          t.covers (accepted.map Observation.seriesCode).dedup (some since) sku date := by
        rw [Db.covers, Db.covers, pulled.products]
      cases covered : t.covers (accepted.map Observation.seriesCode).dedup (some since) sku date with
      | true => exact iff_of_true (upToDate_covered step (done sku date) (covers.trans covered) hU.nothing) (.inl rfl)
      | false =>
        have due := pulled.due covered
        rw [upToDate_uncovered step (covers.trans covered), Db.UpToDate, Db.UpToDate, due, pulled.margins]
        simp
    have both : (Run.request order today observations endings).Suffices catalog t ↔ ∀ sku date,
        t.covers (accepted.map Observation.seriesCode).dedup (some since) sku date = true ∨ t.UpToDate sku date := by
      simp only [Run.Suffices, accept, first]
    rw [both]
    exact forall₂_congr each

theorem alone_within (endings : List (Ending Failure)) : ∀ turn ∈ alone endings, turn.Within (.stormy Db) := by
  intro turn member
  obtain ⟨ending, -, rfl⟩ := List.mem_map.mp member
  exact ⟨fun _ => rfl, fun _ _ _ => trivial⟩

/-- A run keeps the state sound, and one that completes heals the table exactly if it suffices. -/
theorem exec_spec (h : Sound catalog db) (run : Run) : Sound catalog (run.step catalog db) ∧
    (run.completes catalog db = true → ((run.step catalog db).Healed ↔ run.Suffices catalog db)) := by
  rw [healed_iff]
  cases run with
  | seeder orders today endings =>
    have ran := wp_run (@keeps_seed _ _ today orders h endings) (alone_within endings)
    rw [Run.step, Run.completes, Run.exec]
    generalize (seed catalog orders today).run (alone endings) db = ended at ran ⊢
    rcases ended with ⟨(e | count) | -, t⟩
    · exact ⟨ran.1, fun right => by cases right⟩
    · exact ⟨ran.1, fun _ => ran.2⟩
    · exact ⟨ran, fun right => by cases right⟩
  | request order today observations endings =>
    have ran := wp_run (@keeps_ingest _ _ today order observations h endings) (alone_within endings)
    rw [Run.step, Run.completes, Run.exec]
    generalize (ingest order today observations).run (alone endings) db = ended at ran ⊢
    rcases ended with ⟨(e | answer) | -, t⟩
    · exact ⟨ran.1, fun right => by cases right⟩
    · exact ⟨ran.1, ran.2⟩
    · exact ⟨ran, fun right => by cases right⟩

end

namespace Run

/-- The database after the first `n` runs on an empty one. -/
def after (catalog : Catalog) (runs : List Run) (n : Nat) : Db := (runs.take n).foldl (step catalog) .empty

end Run

theorem sound_empty (catalog : Catalog) : Sound catalog .empty := by
  constructor
  · intro sku p found
    cases (Std.ExtTreeMap.getElem?_empty : (∅ : KeyMap Text Product)[sku]? = none).symm.trans found
  · intro sku date held
    exact absurd held Std.ExtTreeMap.not_mem_empty

theorem sound_after (catalog : Catalog) (runs : List Run) (n : Nat) : Sound catalog (Run.after catalog runs n) :=
  @foldl_always_of _ _ (Run.step catalog) (Sound catalog) (fun _ _ => True) (fun _ run _ h => (exec_spec h run).1) _
    (sound_empty catalog) runs (fun _ _ _ => trivial) n

/-- The margins are healed after every completed run exactly if every completed run suffices. -/
theorem margins_heal_iff (catalog : Catalog) (runs : List Run) :
    (∀ n, ∀ run : Run, runs[n]? = some run → run.completes catalog (Run.after catalog runs n) = true →
      (run.step catalog (Run.after catalog runs n)).Healed) ↔
    ∀ n, ∀ run : Run, runs[n]? = some run → run.completes catalog (Run.after catalog runs n) = true →
      run.Suffices catalog (Run.after catalog runs n) := by
  refine forall_congr' fun n => forall_congr' fun run => ?_
  refine imp_congr_right fun _ => imp_congr_right fun completed => ?_
  exact (exec_spec (sound_after catalog runs n) run).2 completed

def salmon : Catalog where
  series := salmonSeries
  products := [⟨text "SLM-001", text "SALMON_NOK_KG", ⟨13623, -4⟩, ⟨15033, -4⟩, ⟨1311, -2⟩, ⟨3265, -2⟩⟩]
  baseline := [(text "SALMON_NOK_KG", text "2024-08-01", ⟨86950439, -6⟩),
    (freightSeriesCode, text "2024-08-01", ⟨3138320337, -6⟩), (fxSeriesCode, text "2024-08-01", ⟨10514837, -6⟩)]
  nextWalkValue _ _ value := value
  distinctSeries := by decide
  distinctProducts := by decide

def inOrder : Orders := ⟨.asStored, .asStored, .asStored⟩

/-- The seeder on one day, on the next day up to a crash at the first margin, and then again. -/
def crashedSeeding : List Run :=
  [.seeder inOrder 19936 [], .seeder inOrder 19937 (List.replicate 9 .returns ++ [.crashes]), .seeder inOrder 19937 []]

/-- The run after the crash finds all prices and some margins, and leaves the new day without one. -/
theorem crashed_margins_missing : ¬ ∀ n, ∀ run : Run, crashedSeeding[n]? = some run →
    run.completes salmon (Run.after salmon crashedSeeding n) = true →
      (run.step salmon (Run.after salmon crashedSeeding n)).Healed := by
  intro heals
  have last := heals 2 (.seeder inOrder 19937 []) rfl (by decide +kernel)
  have current := healed_iff.mp last (text "SLM-001") (text "2024-08-02")
  revert current
  decide +kernel

end OtterWorks.Analytics
