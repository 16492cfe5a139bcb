import OtterWorks.Analytics.Increments
import OtterWorks.Lib.DecimalValue

namespace OtterWorks.Analytics

/-- What `ingest` accepts of a request. -/
def Db.accepted (db : Db) (today : Int) (observations : List Observation) : List Observation :=
  valid (db.series.list.map MarketSeries.seriesCode) today observations

/-- The first writes of a request. -/
def storePrices (order : Scan Observation) (accepted : List Observation) : Task (List Unit) :=
  Prog.together order (fun o => upsertManualPrice o.seriesCode o.priceDate o.value) accepted

/-- `market_prices` can hold the observation. -/
def Observation.Storable (o : Observation) : Prop := (IsoDate.cast o.priceDate).isSome ∧ (storedPrice o.value).isSome

/-- What a request accepts can be stored, and then every margin can be computed and stored; and a request that fails
leaves the tables as they were, where a call that reports an error has not taken effect. -/
structure Harmless (db : Db) (today : Int) (observations : List Observation) : Prop where
  storable : ∀ o ∈ db.accepted today observations, o.Storable
  computable : db.accepted today observations ≠ [] →
    ∀ order, ¬Stuck ((storePrices order (db.accepted today observations)).eval db).2
  unchanged : ∀ order endings e t, (∀ ending ∈ endings, ∀ e, ending ≠ .fails e true) →
    (ingest order today observations).run (alone endings) db = (.ended (.error e), t) →
      t.prices = db.prices ∧ t.margins = db.margins ∧ t.syncRuns = db.syncRuns

/-- The tables have everything that a request would write before it. -/
structure Redundant (db : Db) (accepted : List Observation) : Prop where
  prices : ∀ o ∈ accepted, (IsoDate.cast o.priceDate).isSome ∧
    ∃ value, storedPrice o.value = some value ∧ (db.prices o.seriesCode)[o.priceDate]? = some value
  computable : ¬Stuck db
  margins : ∀ sku date row, db.covers (accepted.map Observation.seriesCode).dedup
    (earliest (accepted.map Observation.priceDate)) sku date = true → db.due sku date = some (some row) →
      (db.margins sku)[date]? = some row

variable {db t : Db} {today : Int} {observations accepted : List Observation} {order : Scan Observation} {o : Observation}
  {since : Text}

section

theorem known_of_accepted (h : o ∈ db.accepted today observations) : o.seriesCode ∈ db.series.rows := by
  have passed := (List.mem_filter.mp h).2
  rw [decide_eq_true_eq, validate] at passed
  split at passed
  next => cases passed
  next known => exact mem_codes.mp (not_not.mp known)

theorem positive_of_accepted (h : o ∈ db.accepted today observations) : 0 < o.value.coeff := by
  have passed := (List.mem_filter.mp h).2
  rw [decide_eq_true_eq, validate] at passed
  split at passed
  next => cases passed
  next =>
    split at passed
    next => cases passed
    next =>
      split at passed
      next => cases passed
      next =>
        split at passed
        next => cases passed
        next positive => exact not_le.mp positive

theorem date_of_accepted (h : o ∈ db.accepted today observations) :
    ∃ c, IsoDate.parseCivil o.priceDate = some c ∧ Civil.ofDays c.toDays = c := by
  have passed := (List.mem_filter.mp h).2
  rw [decide_eq_true_eq, validate] at passed
  split at passed
  next => cases passed
  next =>
    split at passed
    next => cases passed
    next d read =>
      obtain ⟨c, parts, read⟩ := Option.bind_eq_some_iff.mp read
      obtain ⟨exact', -⟩ := Option.ite_none_right_eq_some.mp read
      exact ⟨c, parts, exact'.2.2⟩

/-- An accepted observation can be stored exactly if it stays below the bound of the column and is of a year from 1 on. -/
theorem storable_iff (h : o ∈ db.accepted today observations) : o.Storable ↔ o.value.value < 99999999.9999995 ∧
    ∃ c, IsoDate.parseCivil o.priceDate = some c ∧ 1 ≤ c.year ∧ c.year ≤ 9999 := by
  have positive : 0 < o.value.value := mul_pos (by exact_mod_cast positive_of_accepted h) (Decimal.ten_zpow_pos _)
  obtain ⟨c, parts, real⟩ := date_of_accepted h
  have price : (storedPrice o.value).isSome ↔ o.value.value < 99999999.9999995 := by
    rw [storedPrice, Decimal.castNumeric_isSome_iff, abs_of_pos positive]
    norm_num
    constructor
    · intro less
      linarith
    · intro less
      linarith
  have date : (IsoDate.cast o.priceDate).isSome ↔ 1 ≤ c.year ∧ c.year ≤ 9999 := by
    rw [IsoDate.cast, parts]
    simp only [Option.bind_eq_bind, Option.bind_some, Option.isSome_ite, real, and_true]
  rw [Observation.Storable, price, date, and_comm]
  refine and_congr_right fun _ => ?_
  constructor
  · intro years
    exact ⟨c, parts, years⟩
  · rintro ⟨c', parts', years⟩
    cases parts.symm.trans parts'
    exact years

theorem div_eq_none {precision : Nat} {a b : Decimal} : a.div precision b = none ↔ b.coeff = 0 := by
  unfold Decimal.div
  split
  next zero => exact iff_of_true rfl zero
  next nonzero => exact iff_of_false (by simp) nonzero

/-- A margin can only fail to be computed where a price in kroner meets a rate of zero. -/
theorem computeMargin_none {p : Product} {price usdNok wci : Decimal} {currency date : Text} :
    computeMargin p price currency usdNok wci date = none ↔ currency = text "NOK" ∧ usdNok.coeff = 0 := by
  have some {precision : Nat} {a b : Decimal} (nonzero : b.coeff ≠ 0) : ∃ q, a.div precision b = .some q :=
    Option.ne_none_iff_exists'.mp fun none => nonzero (div_eq_none.mp none)
  constructor
  · intro none
    by_contra fine
    obtain ⟨priceUsd, first⟩ : ∃ priceUsd, (if currency = text "NOK" then price.div Decimal.decimal128 usdNok else .some price) =
        .some priceUsd := by
      split
      next nok => exact some fun zero => fine ⟨nok, zero⟩
      next => exact ⟨price, rfl⟩
    obtain ⟨freight, second⟩ := @some Decimal.decimal128 wci kgPerFeu (by decide)
    obtain ⟨overhead, third⟩ := @some Decimal.decimal128 (Decimal.mul Decimal.decimal128
      (Decimal.add Decimal.decimal128 ((Decimal.mul Decimal.decimal128 priceUsd p.contentKg).setScale 4)
        ((Decimal.mul Decimal.decimal128 freight p.freightKg).setScale 4)) p.overheadPct) ⟨100, 0⟩ (by decide)
    simp only [computeMargin, first, second, third, Option.bind_eq_bind, Option.bind_some] at none
    split at none
    next => cases none
    next listed =>
      obtain ⟨share, fourth⟩ := @some Decimal.decimal128 (p.listPriceUsd.sub Decimal.decimal128
        ((Decimal.add Decimal.decimal128 (Decimal.add Decimal.decimal128
          ((Decimal.mul Decimal.decimal128 priceUsd p.contentKg).setScale 4)
          ((Decimal.mul Decimal.decimal128 freight p.freightKg).setScale 4)) (overhead.setScale 4)).setScale 4)) p.listPriceUsd listed
      rw [fourth] at none
      cases none
  · rintro ⟨nok, zero⟩
    simp only [computeMargin, if_pos nok, div_eq_none.mpr zero, Option.bind_eq_bind, Option.bind_none]

/-- As a rate, an accepted observation stops the margins of prices in kroner exactly if it is less than half a millionth. -/
theorem rate_stops_iff (h : o ∈ db.accepted today observations) {rate : Decimal} (stored : storedPrice o.value = some rate)
    (p : Product) (price wci : Decimal) (date : Text) :
    computeMargin p price (text "NOK") rate wci date = none ↔ o.value.value < 0.0000005 := by
  have positive : 0 < o.value.value := mul_pos (by exact_mod_cast positive_of_accepted h) (Decimal.ten_zpow_pos _)
  rw [computeMargin_none, Decimal.castNumeric_zero_iff stored, abs_of_pos positive]
  norm_num
  constructor
  · intro less
    linarith
  · intro less
    linarith

end

/-! A request that writes nothing new. -/

section

theorem getElem?_putPrice_self {code date : Text} {value : Decimal} :
    ((db.putPrice code date value).prices code)[date]? = some value := by
  change (Function.update db.prices code ((db.prices code).insert date value) code)[date]? = some value
  rw [Function.update_self, Std.ExtTreeMap.getElem?_insert_self]

theorem putPrice_same {code date : Text} {value : Decimal} (held : (db.prices code)[date]? = some value) :
    db.putPrice code date value = db := by
  have table : (db.prices code).insert date value = db.prices code := by
    apply Std.ExtTreeMap.ext_getElem?
    intro d
    rw [Std.ExtTreeMap.getElem?_insert]
    split
    next same => rw [← Std.LawfulEqOrd.compare_eq_iff_eq.mp same, held]
    next => rfl
  rw [Db.putPrice, table, Function.update_eq_self]

/-- The row of an observation is written. -/
def Db.putObservation (db : Db) (o : Observation) : Db :=
  match storedPrice o.value with
  | some value => db.putPrice o.seriesCode o.priceDate value
  | none => db

theorem series_putObservation (o : Observation) : (db.putObservation o).series = db.series := by
  unfold Db.putObservation
  split
  next => rfl
  next => rfl

theorem Redundant.putObservation (h : Redundant db accepted) (member : o ∈ accepted) : db.putObservation o = db := by
  obtain ⟨-, value, stored, held⟩ := h.prices o member
  rw [Db.putObservation, stored]
  exact putPrice_same held

theorem foldl_putObservation (same : ∀ o ∈ accepted, db.putObservation o = db) : accepted.foldl Db.putObservation db = db := by
  induction accepted with
  | nil => rfl
  | cons o accepted ih =>
    rw [List.foldl_cons, same o (List.mem_cons_self ..)]
    exact ih fun o' member => same o' (List.mem_cons_of_mem _ member)

/-- The statement of an observation that can be stored. -/
theorem upsert_eq (storable : o.Storable) (known : o.seriesCode ∈ db.series.rows) :
    (do
      let date ← IsoDate.cast o.priceDate
      let value ← storedPrice o.value
      if o.seriesCode ∈ db.series.rows then some ((), db.putPrice o.seriesCode date value) else none) =
      some ((), db.putObservation o) := by
  obtain ⟨date, cast⟩ := Option.isSome_iff_exists.mp storable.1
  obtain ⟨value, stored⟩ := Option.isSome_iff_exists.mp storable.2
  cases cast_eq cast
  simp only [cast, stored, Option.bind_eq_bind, Option.bind_some, if_pos known, Db.putObservation]

theorem calm_still (t u : Db) (moved : (Weather.calm Db).moves t u) : u = t := Eq.symm moved

/-- Without faults, the prices of a request are stored one after another. -/
theorem eval_storePrices (storable : ∀ o ∈ accepted, o.Storable) (known : ∀ o ∈ accepted, o.seriesCode ∈ db.series.rows) :
    ∃ units, (storePrices order accepted).eval db = (.ok units, (order.order accepted).foldl Db.putObservation db) := by
  have each : wp (.calm Db) (storePrices order accepted) (.keeps (fun t => t.series = db.series)
      (fun _ t => t = (order.order accepted).foldl Db.putObservation db) fun _ _ => False) db := by
    refine keeps_together_in (J := fun l _ t => t = l.foldl Db.putObservation db) (E := fun _ => False) ?_ rfl rfl
    intro o t member series
    have here : o.seriesCode ∈ t.series.rows := by
      rw [series]
      exact known o member
    refine keeps_statement calm_still series ?_ ?_ fun faults => faults
    · intro refused
      cases (upsert_eq (storable o member) here).symm.trans refused
    · rintro ⟨⟩ u done
      cases (upsert_eq (storable o member) here).symm.trans done
      refine ⟨(series_putObservation o).trans series, ?_⟩
      rintro before - rfl
      rw [List.foldl_append]
      rfl
  have ran := @wp_run _ _ _ _ _ _ _ [] each (by simp)
  rw [Prog.run_nil] at ran
  cases result : (storePrices order accepted).eval db with
  | mk answer t =>
    rw [result] at ran
    cases answer with
    | error e => exact ran.2.elim
    | ok units =>
      obtain ⟨-, rfl⟩ := ran
      exact ⟨units, rfl⟩

/-- A request that is redundant changes nothing before its entry in `sync_runs`, whatever becomes of its calls. -/
theorem Redundant.keeps_writes (h : Redundant db accepted) (known : ∀ o ∈ accepted, o.seriesCode ∈ db.series.rows) :
    wp (.stormy Db) (storePrices order accepted >>= fun _ =>
      recompute (accepted.map Observation.seriesCode).dedup (earliest (accepted.map Observation.priceDate)))
      (.keep (fun t => t = db) fun _ _ => True) db := by
  have storing : wp (.stormy Db) (storePrices order accepted) (.keep (fun t => t = db) fun _ _ => True) db := by
    refine keep_mono (keeps_together (I := fun t => t = db) (E := fun _ => True) (J := fun _ _ _ => True) ?_ rfl trivial)
      fun _ _ _ _ => trivial
    rintro o t member rfl
    have storable : o.Storable := by
      obtain ⟨cast, value, stored, -⟩ := h.prices o member
      exact ⟨cast, by rw [stored]; rfl⟩
    refine keeps_statement stormy_still rfl (fun _ => trivial) ?_ fun _ => trivial
    rintro ⟨⟩ u done
    cases (upsert_eq storable (known o member)).symm.trans done
    exact ⟨h.putObservation member, fun _ _ _ => trivial⟩
  have still {t : Db} (step : Refreshing db (accepted.map Observation.seriesCode).dedup
      (earliest (accepted.map Observation.priceDate)) t) : t = db := by
    refine Db.ext step.series step.products step.prices step.syncRuns fun sku date => ?_
    rcases step.margins sku date with same | ⟨covered, row, due, there⟩
    · exact same
    · rw [there, h.margins sku date row covered due]
  refine keeps_bind storing ?_
  rintro _ t rfl -
  exact wp_mono (keeps_recompute stormy_still) (fun _ _ ⟨step, _⟩ => ⟨still step, trivial⟩)
    (fun _ _ ⟨step, _⟩ => ⟨still step, trivial⟩) fun _ step => still step

end

/-! Requests and the failures of their calls. -/

section

/-- The end of a request. -/
def record (rejected : List RejectedObservation) (accepted : List Observation) (recomputed : Nat) :
    Task (Except (List RejectedObservation) ObservationsResponse) := do
  insertSyncRun (text "manual_pull") accepted.length
  pure (.ok ⟨accepted.length, rejected, recomputed⟩)

/-- A request once the series are read. -/
def process (order : Scan Observation) (rejected : List RejectedObservation) (accepted : List Observation) :
    Task (Except (List RejectedObservation) ObservationsResponse) :=
  if accepted = [] then pure (.error rejected)
  else
    (storePrices order accepted >>= fun _ =>
      recompute (accepted.map Observation.seriesCode).dedup (earliest (accepted.map Observation.priceDate))) >>=
      record rejected accepted

theorem ingest_eq : ingest order today observations = listSeries >>= fun seriesMeta =>
    process order (observations.filterMap (validate (seriesMeta.map MarketSeries.seriesCode) today))
      (valid (seriesMeta.map MarketSeries.seriesCode) today observations) := by
  unfold ingest
  congr 1
  funext seriesMeta
  dsimp only
  generalize valid (seriesMeta.map MarketSeries.seriesCode) today observations = accepted
  rw [process]
  split
  next none =>
    rw [if_pos (List.map_eq_nil_iff.mp (earliest_none none))]
  next since first =>
    have some : accepted ≠ [] := by
      rintro rfl
      cases first
    rw [if_neg some, Prog.bind_assoc, first]
    rfl

/-- A request of which nothing is accepted, or nothing new, leaves the database as it was if it fails. -/
theorem unchanged_of_redundant (h : db.accepted today observations = [] ∨ Redundant db (db.accepted today observations))
    {endings : List (Ending Failure)} {e : Failure} (refused : ∀ ending ∈ endings, ∀ e, ending ≠ .fails e true)
    (ran : (ingest order today observations).run (alone endings) db = (.ended (.error e), t)) : t = db := by
  have within : ∀ turn ∈ alone endings, turn.Within (.stormy Db) := by
    intro turn member
    obtain ⟨ending, -, rfl⟩ := List.mem_map.mp member
    exact ⟨fun _ => rfl, fun _ _ _ => trivial⟩
  have reading : wp (.stormy Db) listSeries (.keep (fun t => t = db) fun seriesMeta _ => seriesMeta = db.series.list) db :=
    keep_mono (keeps_query _ stormy_still rfl fun _ => trivial) fun _ _ _ read => read.2
  rw [ingest_eq] at ran
  rcases run_bind_cases reading within ran with ⟨_, -, same, -⟩ | ⟨crash, -⟩ | ⟨_, u, rest, left, ⟨rfl, rfl⟩, ran⟩
  · exact same
  · cases crash
  change (process order _ (u.accepted today observations)).run rest u = _ at ran
  rw [process] at ran
  split at ran
  next => cases ran
  next some =>
    have redundant := h.resolve_left some
    have known (o : Observation) (member : o ∈ u.accepted today observations) := known_of_accepted member
    have left' : ∀ turn ∈ rest, turn ∈ alone endings := fun turn member => left.subset member
    rcases run_bind_cases (redundant.keeps_writes known) (fun turn member => within turn (left' turn member)) ran with
      ⟨_, -, same, -⟩ | ⟨crash, -⟩ | ⟨count, v, last, left'', ⟨rfl, -⟩, ran⟩
    · exact same
    · cases crash
    cases last with
    | nil => cases ran
    | cons turn last =>
      obtain ⟨ending, member, rfl⟩ := List.mem_map.mp (left' turn (left''.subset (List.mem_cons_self ..)))
      cases ending with
      | returns => cases ran
      | crashes => cases ran
      | fails e' applied =>
        cases applied with
        | true => exact absurd rfl (refused _ member e')
        | false =>
          cases ran
          rfl

/-- When the calls up to some point have returned, the next one may fail. -/
theorem ingest_fails {α β : Type} {first : Task α} {later : α → Task (Except (List RejectedObservation) ObservationsResponse)}
    (parts : process order (observations.filterMap (validate (db.series.list.map MarketSeries.seriesCode) today))
      (db.accepted today observations) = first >>= later)
    {a : α} (completes : first.eval db = (.ok a, t)) {act : Db → Except Failure β × Db}
    {next : Except Failure β → Task (Except (List RejectedObservation) ObservationsResponse)} (calls : later a = .call act next)
    (stops : next (.error .database) = .done (.error .database)) (h : Harmless db today observations) :
    t.prices = db.prices ∧ t.margins = db.margins ∧ t.syncRuns = db.syncRuns := by
  obtain ⟨n, ran⟩ := exists_run_fails .database completes calls
  refine h.unchanged order (.returns :: (List.replicate n .returns ++ [.fails .database false])) .database t ?_ ?_
  · intro ending member e same
    subst same
    simp at member
  · rw [ingest_eq]
    change (process order (observations.filterMap (validate (db.series.list.map MarketSeries.seriesCode) today))
      (db.accepted today observations)).run _ db = _
    rw [parts]
    refine Eq.trans ran ?_
    rw [stops]
    rfl

theorem redundant_of_harmless (h : Harmless db today observations) (some : db.accepted today observations ≠ []) :
    Redundant db (db.accepted today observations) := by
  have known (o : Observation) (member : o ∈ db.accepted today observations) := known_of_accepted member
  have parts (order : Scan Observation) : process order (observations.filterMap
      (validate (db.series.list.map MarketSeries.seriesCode) today)) (db.accepted today observations) =
      (storePrices order (db.accepted today observations) >>= fun _ =>
        recompute ((db.accepted today observations).map Observation.seriesCode).dedup
          (earliest ((db.accepted today observations).map Observation.priceDate))) >>=
        record (observations.filterMap (validate (db.series.list.map MarketSeries.seriesCode) today))
          (db.accepted today observations) := by
    rw [process, if_neg some]
  -- The call after the writes of the prices fails, the price in question written last.
  have held : ∀ o ∈ db.accepted today observations, (IsoDate.cast o.priceDate).isSome ∧
      ∃ value, storedPrice o.value = .some value ∧ (db.prices o.seriesCode)[o.priceDate]? = .some value := by
    intro o member
    obtain ⟨cast, stored⟩ := h.storable o member
    obtain ⟨value, stored⟩ := Option.isSome_iff_exists.mp stored
    refine ⟨cast, value, stored, ?_⟩
    obtain ⟨units, stores⟩ := @eval_storePrices db _ (.back o) h.storable known
    obtain ⟨prices, -, -⟩ := ingest_fails ((parts (.back o)).trans (Prog.bind_assoc _ _ _)) stores rfl rfl h
    have last : (Scan.back o).order (db.accepted today observations) = (db.accepted today observations).erase o ++ [o] := if_pos member
    rw [← prices, last, List.foldl_append, List.foldl_cons, List.foldl_nil, Db.putObservation, stored]
    exact getElem?_putPrice_self
  have same : ∀ o ∈ db.accepted today observations, db.putObservation o = db := by
    intro o member
    obtain ⟨-, value, stored, there⟩ := held o member
    rw [Db.putObservation, stored]
    exact putPrice_same there
  obtain ⟨units, stores⟩ := @eval_storePrices db _ .asStored h.storable known
  have nothing : (Scan.asStored.order (db.accepted today observations)).foldl Db.putObservation db = db := foldl_putObservation same
  rw [nothing] at stores
  have computable : ¬Stuck db := by
    have after := h.computable some .asStored
    rwa [stores] at after
  refine ⟨held, computable, ?_⟩
  -- The last call fails, the margins written.
  have ran := @wp_run _ _ _ _ _ _ _ [] (@keeps_recompute db ((db.accepted today observations).map Observation.seriesCode).dedup
    (earliest ((db.accepted today observations).map Observation.priceDate)) (.calm Db) calm_still) (by simp)
  rw [Prog.run_nil] at ran
  cases result : (recompute ((db.accepted today observations).map Observation.seriesCode).dedup
    (earliest ((db.accepted today observations).map Observation.priceDate))).eval db with
  | mk answer u =>
    rw [result] at ran
    cases answer with
    | error e => exact (ran.2.elim id computable).elim
    | ok count =>
      obtain ⟨-, done⟩ := ran
      have writes := (Prog.eval_bind_ok (f := fun _ => recompute ((db.accepted today observations).map Observation.seriesCode).dedup
        (earliest ((db.accepted today observations).map Observation.priceDate))) stores).trans result
      obtain ⟨-, margins, -⟩ := ingest_fails (parts .asStored) writes rfl rfl h
      intro sku date row covered due
      rw [← margins]
      exact (done sku date covered (.some row) due).2

/-- A request is harmless exactly if nothing of it is accepted, or nothing in it is new. -/
theorem harmless_iff : Harmless db today observations ↔
    db.accepted today observations = [] ∨ Redundant db (db.accepted today observations) := by
  constructor
  · intro h
    by_cases none : db.accepted today observations = []
    · exact .inl none
    · exact .inr (redundant_of_harmless h none)
  · intro h
    refine ⟨?_, ?_, ?_⟩
    · intro o member
      rcases h with none | redundant
      · rw [none] at member
        cases member
      · obtain ⟨cast, value, stored, -⟩ := redundant.prices o member
        exact ⟨cast, by rw [stored]; rfl⟩
    · intro some order
      have redundant := h.resolve_left some
      have storable : ∀ o ∈ db.accepted today observations, o.Storable := by
        intro o member
        obtain ⟨cast, value, stored, -⟩ := redundant.prices o member
        exact ⟨cast, by rw [stored]; rfl⟩
      obtain ⟨units, stores⟩ := @eval_storePrices db _ order storable fun o member => known_of_accepted member
      have nothing : (order.order (db.accepted today observations)).foldl Db.putObservation db = db :=
        foldl_putObservation fun o member => redundant.putObservation (Scan.mem_order.mp member)
      rw [stores, nothing]
      exact redundant.computable
    · intro order endings e t refused ran
      cases unchanged_of_redundant h refused ran
      exact ⟨rfl, rfl, rfl⟩

end

/-- Accepted observations do no harm exactly where they change nothing; and what the columns refuse of them or round to zero. -/
theorem accepted_harmless_iff (db : Db) (today : Int) (observations : List Observation) :
    (Harmless db today observations ↔
      db.accepted today observations = [] ∨ Redundant db (db.accepted today observations)) ∧
    ∀ o ∈ db.accepted today observations,
      (o.Storable ↔ o.value.value < 99999999.9999995 ∧
        ∃ c, IsoDate.parseCivil o.priceDate = some c ∧ 1 ≤ c.year ∧ c.year ≤ 9999) ∧
      ∀ rate, storedPrice o.value = some rate → ∀ p price wci date,
        (computeMargin p price (text "NOK") rate wci date = none ↔ o.value.value < 0.0000005) :=
  ⟨harmless_iff, fun _ member => ⟨storable_iff member, fun _ stored => rate_stops_iff member stored⟩⟩

/-- A rate that is positive and becomes zero when it is stored. -/
def tinyRate : Observation := ⟨fxSeriesCode, text "2024-08-02", ⟨1, -7⟩⟩

/-- Nothing is wrong with the database before; after the request no recompute gets past its rate. -/
theorem tiny_rate_stops : firstPulled.accepted 19938 [tinyRate] = [tinyRate] ∧
    ((recompute [] none).eval firstPulled).1.isOk = true ∧
    ((recompute [] none).eval ((ingest .asStored 19938 [tinyRate]).eval firstPulled).2).1 = .error .arithmetic ∧
    ¬Harmless firstPulled 19938 [tinyRate] := by
  refine ⟨by decide +kernel, by decide +kernel, by decide +kernel, ?_⟩
  intro h
  apply h.computable (by decide +kernel) .asStored
  exact ⟨text "SLM-001", text "2024-08-03", by decide +kernel⟩

end OtterWorks.Analytics
