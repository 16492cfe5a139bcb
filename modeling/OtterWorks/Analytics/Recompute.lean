import OtterWorks.Analytics.MarginDue

namespace OtterWorks.Analytics

section

variable {W : Weather Db} {I : Db → Prop} {E : Prop} {α : Type} {s : Db}

theorem keeps_statement {R : α → Db → Prop} {exec : Db → Option (α × Db)} (still : ∀ t u, W.moves t u → u = t) (hI : I s)
    (refused : exec s = none → E) (done : ∀ a t, exec s = some (a, t) → I t ∧ R a t) (faulty : W.faults → E) :
    wp W (statement exec) (.keeps I R fun _ _ => E) s := by
  refine keeps_call (C := fun t => t = s) ?_ ?_ ?_
  · intro t moved
    cases still s t moved
    exact ⟨hI, rfl⟩
  · rintro t _ rfl
    cases answer : exec t with
    | none => exact ⟨hI, refused answer⟩
    | some result => exact done result.1 result.2 answer
  · intro faults t _ _ e
    exact ⟨faulty faults, faulty faults⟩

theorem keeps_query (f : Db → α) (still : ∀ t u, W.moves t u → u = t) (hI : I s) (faulty : W.faults → E) :
    wp W (.query f) (.keeps I (fun a t => t = s ∧ a = f s) fun (_ : Failure) _ => E) s := by
  refine keeps_call (C := fun t => t = s) ?_ ?_ ?_
  · intro t moved
    cases still s t moved
    exact ⟨hI, rfl⟩
  · rintro t _ rfl
    exact ⟨hI, rfl, rfl⟩
  · intro faults t _ _ e
    exact ⟨faulty faults, faulty faults⟩

end

variable {db t u : Db} {affected : List Text} {fromDate : Option Text} {sku date : Text} {W : Weather Db}

/-- What a recompute may do on any ending: some of the rows it covers become those due. -/
structure Refreshing (db : Db) (affected : List Text) (fromDate : Option Text) (t : Db) : Prop where
  series : t.series = db.series
  products : t.products = db.products
  prices : t.prices = db.prices
  syncRuns : t.syncRuns = db.syncRuns
  margins : ∀ sku date, (t.margins sku)[date]? = (db.margins sku)[date]? ∨
    db.covers affected fromDate sku date = true ∧ ∃ row, db.due sku date = some (some row) ∧ (t.margins sku)[date]? = some row

/-- What a recompute that succeeds has done under a key. -/
def Refreshed (db : Db) (affected : List Text) (fromDate : Option Text) (t : Db) (sku date : Text) : Prop :=
  db.covers affected fromDate sku date = true → ∀ row, db.due sku date = some row → row.isSome ∧ (t.margins sku)[date]? = row

theorem Refreshing.refl (db : Db) : Refreshing db affected fromDate db := ⟨rfl, rfl, rfl, rfl, fun _ _ => .inl rfl⟩

theorem getElem?_putMargin (db : Db) (m : MarginDaily) (sku date : Text) :
    ((db.putMargin m).margins sku)[date]? = if m.sku = sku ∧ m.marginDate = date then some m else (db.margins sku)[date]? := by
  change (Function.update db.margins m.sku ((db.margins m.sku).insert m.marginDate m) sku)[date]? = _
  by_cases same : m.sku = sku
  · subst same
    rw [Function.update_self, Std.ExtTreeMap.getElem?_insert]
    by_cases day : m.marginDate = date
    · simp [day]
    · simp [day]
  · rw [Function.update_of_ne (Ne.symm same), if_neg fun both => same both.1]

theorem due_of_computed {m : MarginDaily} (h : db.computed sku date = some (some m)) : db.due sku date = some m.stored := by
  rw [Db.due, h]
  rfl

/-- Writing a row that is due under a covered key. -/
theorem Refreshing.put {m row : MarginDaily} (h : Refreshing db affected fromDate t)
    (covered : db.covers affected fromDate m.sku m.marginDate = true)
    (here : db.computed m.sku m.marginDate = some (some m)) (stored : m.stored = some row) :
    Refreshing db affected fromDate (t.putMargin row) := by
  refine ⟨h.series, h.products, h.prices, h.syncRuns, ?_⟩
  obtain ⟨sameSku, sameDate⟩ := stored_key stored
  intro sku date
  rw [getElem?_putMargin, sameSku, sameDate]
  by_cases same : m.sku = sku ∧ m.marginDate = date
  · obtain ⟨rfl, rfl⟩ := same
    rw [if_pos ⟨rfl, rfl⟩]
    refine .inr ⟨covered, row, ?_, rfl⟩
    rw [due_of_computed here, stored]
  · rw [if_neg same]
    exact h.margins sku date

theorem refreshed_put {m row : MarginDaily} (here : db.computed m.sku m.marginDate = some (some m))
    (stored : m.stored = some row) : Refreshed db affected fromDate (t.putMargin row) m.sku m.marginDate := by
  intro _ r due
  obtain ⟨sameSku, sameDate⟩ := stored_key stored
  rw [due_of_computed here, stored] at due
  cases due
  rw [getElem?_putMargin, sameSku, sameDate, if_pos ⟨rfl, rfl⟩]
  exact ⟨rfl, rfl⟩

theorem Refreshed.put {row : MarginDaily} (h : Refreshed db affected fromDate t sku date)
    (other : ¬ (row.sku = sku ∧ row.marginDate = date)) : Refreshed db affected fromDate (t.putMargin row) sku date := by
  intro covered r due
  rw [getElem?_putMargin, if_neg other]
  exact h covered r due

/-- The exception a recompute may end in: a row that is due cannot be computed or stored. -/
def Stuck (db : Db) : Prop := ∃ sku date, db.due sku date = some none

theorem stuck_of_computed (h : db.computed sku date = some none) : Stuck db := by
  refine ⟨sku, date, ?_⟩
  rw [Db.due, h]
  rfl

theorem keeps_upserts (still : ∀ t u, W.moves t u → u = t) {ms : List MarginDaily}
    (rows : db.market.upserts affected fromDate = some ms) :
    wp W ((slices 500 ms).forM fun group => group.forM upsertMargin)
      (.keeps (Refreshing db affected fromDate) (fun _ t => ∀ sku date, Refreshed db affected fromDate t sku date)
        fun _ _ => W.faults ∨ Stuck db) db := by
  -- A covered key is refreshed, or its row is still to be written.
  let pending (rest : List MarginDaily) (t : Db) : Prop := ∀ sku date,
    Refreshed db affected fromDate t sku date ∨ ∃ m ∈ rest, m.sku = sku ∧ m.marginDate = date
  have one (m : MarginDaily) (rest : List MarginDaily) (t : Db) (member : m ∈ ms) (hI : Refreshing db affected fromDate t)
      (before : pending (m :: rest) t) : wp W (upsertMargin m)
        (.keeps (Refreshing db affected fromDate) (fun _ => pending rest) fun _ _ => W.faults ∨ Stuck db) t := by
    obtain ⟨covered, here⟩ := (mem_upserts rows).mp member
    obtain ⟨p, target, known, -⟩ := covers_iff.mp covered
    have held : m.sku ∈ t.products.rows := by
      rw [hI.products, ← known, Std.ExtTreeMap.mem_iff_isSome_getElem?, (mem_targetProducts.mp target).1]
      rfl
    refine keeps_statement still hI ?_ ?_ Or.inl
    · intro refused
      refine .inr ⟨m.sku, m.marginDate, ?_⟩
      rw [due_of_computed here]
      cases stored : m.stored with
      | none => rfl
      | some row => simp [stored, (stored_key stored).1, held] at refused
    · rintro ⟨⟩ u done
      obtain ⟨row, stored, done⟩ := Option.bind_eq_some_iff.mp done
      rw [(stored_key stored).1, if_pos held] at done
      cases Option.some.inj done
      refine ⟨hI.put covered here stored, ?_⟩
      intro sku date
      by_cases same : m.sku = sku ∧ m.marginDate = date
      · obtain ⟨rfl, rfl⟩ := same
        exact .inl (refreshed_put here stored)
      · rcases before sku date with fresh | ⟨m', waiting, key⟩
        · obtain ⟨sameSku, sameDate⟩ := stored_key stored
          exact .inl (fresh.put (by rwa [sameSku, sameDate]))
        · rcases List.mem_cons.mp waiting with rfl | later
          · exact absurd key same
          · exact .inr ⟨m', later, key⟩
  have whole : (slices 500 ms).flatten = ms := slices_flatten (by decide) ms
  refine keeps_forM (J := fun groups t => pending groups.flatten t) ?_ ?_ (Refreshing.refl db) ?_
  · rintro group groups t ⟨front, split⟩ hI before
    refine keeps_forM (J := fun rest t => pending (rest ++ groups.flatten) t) ?_ (fun _ _ h => h) hI before
    rintro m rest t ⟨done, inGroup⟩ hI before
    refine one m _ t ?_ hI before
    rw [← whole, split, inGroup]
    simp
  · intro t _ done sku date
    rcases done sku date with fresh | ⟨m, waiting, -⟩
    · exact fresh
    · cases waiting
  · intro sku date
    rw [whole]
    by_cases covered : db.covers affected fromDate sku date = true
    · cases here : db.computed sku date with
      | none =>
        left
        intro _ r due
        simp [Db.due, here] at due
      | some m =>
        cases m with
        | none => exact absurd here (upserts_some rows covered)
        | some m =>
          obtain ⟨rfl, rfl⟩ := computed_key here
          exact .inr ⟨m, (mem_upserts rows).mpr ⟨covered, here⟩, rfl, rfl⟩
    · exact .inl fun h => absurd h covered

/-- A recompute that succeeds refreshes the keys it covers; without faults it can only fail on a row that cannot be
computed or stored. -/
theorem keeps_recompute (still : ∀ t u, W.moves t u → u = t) :
    wp W (recompute affected fromDate) (.keeps (Refreshing db affected fromDate)
      (fun _ t => ∀ sku date, Refreshed db affected fromDate t sku date) fun _ _ => W.faults ∨ Stuck db) db := by
  have start : Refreshing db affected fromDate db := .refl db
  have prices : wp W (pricesForSeries (db.series.list.map MarketSeries.seriesCode)) (.keeps (Refreshing db affected fromDate)
      (fun byCode t => t = db ∧ byCode = db.market.byCode) fun _ _ => W.faults ∨ Stuck db) db := by
    rw [pricesForSeries]
    split
    next none =>
      refine keeps_pure start ⟨rfl, ?_⟩
      funext code
      change _ = if code ∈ Db.stringToArray ([','].intercalate (db.series.list.map MarketSeries.seriesCode)) then _ else _
      rw [stringToArray_codes, List.isEmpty_iff.mp none, if_neg List.not_mem_nil]
    next => exact keeps_query _ still start Or.inl
  refine keeps_bind (keeps_query _ still start Or.inl) ?_
  rintro _ t - ⟨same, rfl⟩
  subst same
  refine keeps_bind (keeps_query _ still start Or.inl) ?_
  rintro _ u - ⟨same, rfl⟩
  subst same
  refine keeps_bind prices ?_
  rintro _ v - ⟨same, rfl⟩
  subst same
  have market : Market.upserts ⟨v.series.list, v.products.list, v.market.byCode⟩ affected fromDate = v.market.upserts affected fromDate := rfl
  cases rows : v.market.upserts affected fromDate with
  | none =>
    rw [rows] at market
    simp only [market]
    obtain ⟨sku, date, raised⟩ := upserts_none rows
    exact keeps_throw start (.inr (stuck_of_computed raised))
  | some ms =>
    rw [rows] at market
    simp only [market]
    refine keeps_bind (keeps_upserts still rows) ?_
    rintro ⟨⟩ t hI done
    exact keeps_pure hI done

/-- What is due depends on the series, the products and the prices. -/
theorem due_congr (series : t.series = db.series) (products : t.products = db.products) (prices : t.prices = db.prices) :
    t.due sku date = db.due sku date := by
  simp only [Db.due, Db.computed, Db.listed, Db.latest, Db.currency, series, products, prices]

/-- Under a key that a successful recompute covers stands the row that is due, or what stood there. -/
theorem margins_covered (h : Refreshing db affected fromDate t) (done : Refreshed db affected fromDate t sku date)
    (covered : db.covers affected fromDate sku date = true) :
    (t.margins sku)[date]?.map some = (db.due sku date).or ((db.margins sku)[date]?.map some) := by
  cases due : db.due sku date with
  | none =>
    rcases h.margins sku date with same | ⟨-, row, other, -⟩
    · rw [same]
      rfl
    · rw [due] at other
      cases other
  | some row =>
    obtain ⟨some, there⟩ := done covered row due
    obtain ⟨row, rfl⟩ := Option.isSome_iff_exists.mp some
    rw [there]
    rfl

theorem margins_uncovered (h : Refreshing db affected fromDate t) (other : db.covers affected fromDate sku date = false) :
    (t.margins sku)[date]? = (db.margins sku)[date]? := by
  rcases h.margins sku date with same | ⟨covered, -⟩
  · exact same
  · rw [other] at covered
    cases covered

/-- A key that a successful recompute covers is up to date if no row of it is left over from elsewhere. -/
theorem upToDate_covered (h : Refreshing db affected fromDate t) (done : Refreshed db affected fromDate t sku date)
    (covered : db.covers affected fromDate sku date = true)
    (nothing : db.due sku date = none → (db.margins sku)[date]? = none) : t.UpToDate sku date := by
  rw [Db.UpToDate, due_congr h.series h.products h.prices, margins_covered h done covered]
  cases due : db.due sku date with
  | none => rw [nothing due]; rfl
  | some row => rfl

theorem upToDate_uncovered (h : Refreshing db affected fromDate t) (other : db.covers affected fromDate sku date = false) :
    t.UpToDate sku date ↔ db.UpToDate sku date := by
  rw [Db.UpToDate, Db.UpToDate, due_congr h.series h.products h.prices, margins_uncovered h other]

/-- The margins a recompute of everything would write into an empty table. -/
def Db.bare (db : Db) : Db := { db with margins := fun _ => ∅ }

/-- The table holds exactly the rows that a recompute of all series and dates would write. -/
def Db.Healed (db : Db) : Prop := ∃ count, (recompute [] none).eval db.bare = (.ok count, db)

theorem covers_all (known : sku ∈ db.products.rows) : db.covers [] none sku date = true := by
  obtain ⟨p, found⟩ := Option.isSome_iff_exists.mp (Std.ExtTreeMap.mem_iff_isSome_getElem?.mp known)
  simp [Db.covers, found, Market.globalChange]

theorem known_of_due {row : Option MarginDaily} (h : db.due sku date = some row) : sku ∈ db.products.rows := by
  obtain ⟨m, here, -⟩ := Option.map_eq_some_iff.mp h
  obtain ⟨p, price, found, -⟩ := computed_priced here
  rw [Std.ExtTreeMap.mem_iff_isSome_getElem?, found]
  rfl

/-- The table is what a recompute of all series and dates makes of another one. -/
def Db.FullFrom (db : Db) (before : Text → KeyMap Text MarginDaily) : Prop :=
  ∃ count, (recompute [] none).eval { db with margins := before } = (.ok count, db)

/-- Under a key stands the row that is due, or else the row of a table from before. -/
def Db.Settled (db : Db) (before : Text → KeyMap Text MarginDaily) (sku date : Text) : Prop :=
  (db.margins sku)[date]?.map some = (db.due sku date).or ((before sku)[date]?.map some)

theorem full_settled (h : Refreshing db [] none t) (done : ∀ sku date, Refreshed db [] none t sku date) :
    t.Settled db.margins sku date := by
  rw [Db.Settled, due_congr h.series h.products h.prices]
  cases covered : db.covers [] none sku date with
  | true => exact margins_covered h (done sku date) covered
  | false =>
    rw [margins_uncovered h covered]
    cases due : db.due sku date with
    | none => rfl
    | some row =>
      rw [covers_all (known_of_due due)] at covered
      cases covered

theorem Db.ext {db t : Db} (series : t.series = db.series) (products : t.products = db.products)
    (prices : t.prices = db.prices) (syncRuns : t.syncRuns = db.syncRuns)
    (margins : ∀ sku date : Text, (t.margins sku)[date]? = (db.margins sku)[date]?) : t = db := by
  have tables : t.margins = db.margins := funext fun sku => Std.ExtTreeMap.ext_getElem? (margins sku)
  cases t
  cases db
  simp only [Db.mk.injEq]
  exact ⟨series, products, prices, tables, syncRuns⟩

/-- The table is what a recompute makes of another exactly if every key is settled. -/
theorem fullFrom_iff {before : Text → KeyMap Text MarginDaily} :
    db.FullFrom before ↔ ∀ sku date, db.Settled before sku date := by
  have still : ∀ t u, (Weather.calm Db).moves t u → u = t := fun t u same => same.symm
  have ran := @wp_run _ _ _ _ _ _ _ [] (@keeps_recompute { db with margins := before } [] none (.calm Db) still) (by simp)
  rw [Prog.run_nil] at ran
  constructor
  · rintro ⟨count, done⟩ sku date
    rw [done] at ran
    obtain ⟨hI, fresh⟩ := ran
    exact full_settled hI fresh
  · intro current
    cases result : (recompute [] none).eval { db with margins := before } with
    | mk answer t =>
      rw [result] at ran
      cases answer with
      | error e =>
        obtain ⟨-, faults | ⟨sku, date, stuck⟩⟩ := ran
        · exact faults.elim
        · have now := current sku date
          have stuck : db.due sku date = some none := stuck
          rw [Db.Settled, stuck] at now
          cases there : (db.margins sku)[date]? with
          | none => simp [there] at now
          | some row => simp [there] at now
      | ok count =>
        obtain ⟨hI, fresh⟩ := ran
        have same : t = db := by
          refine Db.ext hI.series hI.products hI.prices hI.syncRuns fun sku date => ?_
          have after : t.Settled before sku date := full_settled hI fresh
          have due : t.due sku date = db.due sku date := due_congr hI.series hI.products hI.prices
          have now := current sku date
          rw [Db.Settled, due, ← now] at after
          exact Option.map_injective (Option.some_injective _) after
        refine ⟨count, ?_⟩
        rw [result, same]

/-- The table is what a recompute would write exactly if every key is up to date. -/
theorem healed_iff : db.Healed ↔ ∀ sku date, db.UpToDate sku date := by
  have full : db.Healed ↔ db.FullFrom fun _ => ∅ := Iff.rfl
  rw [full, fullFrom_iff]
  refine forall_congr' fun sku => forall_congr' fun date => ?_
  have bare : ((∅ : KeyMap Text MarginDaily)[date]?).map some = none := by rw [Std.ExtTreeMap.getElem?_empty]; rfl
  rw [Db.Settled, Db.UpToDate, bare, Option.or_none, eq_comm]

/-- What holds between runs: the products are the catalog's, and margins stand only where a row is due. -/
structure Sound (catalog : Catalog) (db : Db) : Prop where
  catalogued : ∀ (sku : Text) (p : Product), db.products.rows[sku]? = some p → ∃ q ∈ catalog.products, q.stored = some p
  due : ∀ sku date, date ∈ db.margins sku → (db.due sku date).isSome

/-- Series, products and prices are only added; a price may change its value. -/
structure Grows (db t : Db) : Prop where
  series : ∀ code ∈ db.series.rows, code ∈ t.series.rows
  products : ∀ (sku : Text) (p : Product), db.products.rows[sku]? = some p → t.products.rows[sku]? = some p
  prices : ∀ code, ∀ date ∈ db.prices code, date ∈ t.prices code

variable {catalog : Catalog} {db t u : Db} {affected codes : List Text} {fromDate : Option Text}
  {sku date code since : Text} {W : Weather Db}

theorem due_isSome_iff : (db.due sku date).isSome ↔ ∃ p, db.products.rows[sku]? = some p ∧
    date ∈ db.listed p.commoditySeriesCode ∧ (db.latest fxSeriesCode date).isSome ∧
    (db.latest freightSeriesCode date).isSome := by
  rw [Db.due, Option.isSome_map, Db.computed]
  constructor
  · intro h
    obtain ⟨row, h⟩ := Option.isSome_iff_exists.mp h
    obtain ⟨p, found, h⟩ := Option.bind_eq_some_iff.mp h
    obtain ⟨price, priced, h⟩ := Option.bind_eq_some_iff.mp h
    obtain ⟨usdNok, usd, h⟩ := Option.bind_eq_some_iff.mp h
    obtain ⟨wci, freight, -⟩ := Option.bind_eq_some_iff.mp h
    exact ⟨p, found, by rw [Std.ExtTreeMap.mem_iff_isSome_getElem?, priced]; rfl, by rw [usd]; rfl, by rw [freight]; rfl⟩
  · rintro ⟨p, found, priced, usd, freight⟩
    obtain ⟨price, priced⟩ := Option.isSome_iff_exists.mp (Std.ExtTreeMap.mem_iff_isSome_getElem?.mp priced)
    obtain ⟨usdNok, usd⟩ := Option.isSome_iff_exists.mp usd
    obtain ⟨wci, freight⟩ := Option.isSome_iff_exists.mp freight
    simp [found, priced, usd, freight]

theorem mem_listed : date ∈ db.listed code ↔ code ∈ db.series.rows ∧ date ∈ db.prices code := by
  rw [Db.listed]
  by_cases known : code ∈ db.series.rows
  · simp [known]
  · simp [known]

/-- Where a row is due, one stays due. -/
theorem Grows.due (h : Grows db t) (before : (db.due sku date).isSome) : (t.due sku date).isSome := by
  have listed (code d : Text) (held : d ∈ db.listed code) : d ∈ t.listed code := by
    obtain ⟨known, priced⟩ := mem_listed.mp held
    exact mem_listed.mpr ⟨h.series code known, h.prices code d priced⟩
  have latest (code : Text) (some : (db.latest code date).isSome) : (t.latest code date).isSome := by
    obtain ⟨d, held, early⟩ := latest_isSome.mp some
    exact latest_isSome.mpr ⟨d, listed code d held, early⟩
  obtain ⟨p, found, priced, usd, freight⟩ := due_isSome_iff.mp before
  exact due_isSome_iff.mpr ⟨p, h.products sku p found, listed _ _ priced, latest _ usd, latest _ freight⟩

theorem Sound.grow (h : Sound catalog db) (grows : Grows db t) (margins : t.margins = db.margins)
    (catalogued : ∀ (sku : Text) (p : Product), t.products.rows[sku]? = some p → ∃ q ∈ catalog.products, q.stored = some p) : Sound catalog t := by
  refine ⟨catalogued, ?_⟩
  intro sku date held
  rw [margins] at held
  exact grows.due (h.due sku date held)

theorem Sound.refreshing (h : Sound catalog db) (step : Refreshing db affected fromDate t) : Sound catalog t := by
  have due (sku date : Text) : t.due sku date = db.due sku date := due_congr step.series step.products step.prices
  refine ⟨?_, ?_⟩
  · rw [step.products]
    exact h.catalogued
  · intro sku date held
    rw [due]
    rcases step.margins sku date with same | ⟨-, row, there, -⟩
    · apply h.due
      rw [Std.ExtTreeMap.mem_iff_isSome_getElem?, ← same]
      exact Std.ExtTreeMap.mem_iff_isSome_getElem?.mp held
    · rw [there]
      rfl

theorem Sound.nothing (h : Sound catalog db) (nothing : db.due sku date = none) : (db.margins sku)[date]? = none := by
  apply Std.ExtTreeMap.getElem?_eq_none
  intro held
  have some := h.due sku date held
  rw [nothing] at some
  cases some

/-- A recompute of everything leaves every key up to date. -/
theorem upToDate_all (h : Sound catalog db) (step : Refreshing db [] none t)
    (done : ∀ sku date, Refreshed db [] none t sku date) : t.UpToDate sku date := by
  cases covered : db.covers [] none sku date with
  | true => exact upToDate_covered step (done sku date) covered h.nothing
  | false =>
    rw [upToDate_uncovered step covered, Db.UpToDate]
    cases due : db.due sku date with
    | none =>
      rw [h.nothing due]
      rfl
    | some row =>
      rw [covers_all (known_of_due due)] at covered
      cases covered

theorem cast_eq {d : Text} (h : IsoDate.cast date = some d) : d = date := by
  obtain ⟨c, -, h⟩ := Option.bind_eq_some_iff.mp h
  split at h
  next => exact (Option.some.inj h).symm
  next => cases h

theorem stored_sku {p q : Product} (h : q.stored = some p) : p.sku = q.sku := by
  obtain ⟨contentKg, -, h⟩ := Option.bind_eq_some_iff.mp h
  obtain ⟨freightKg, -, h⟩ := Option.bind_eq_some_iff.mp h
  obtain ⟨overheadPct, -, h⟩ := Option.bind_eq_some_iff.mp h
  obtain ⟨listPriceUsd, -, h⟩ := Option.bind_eq_some_iff.mp h
  cases Option.some.inj h
  rfl

theorem mem_putPrice {value : Decimal} {code' d : Text} :
    d ∈ (db.putPrice code date value).prices code' ↔ d ∈ db.prices code' ∨ code' = code ∧ d = date := by
  change d ∈ Function.update db.prices code ((db.prices code).insert date value) code' ↔ _
  by_cases same : code' = code
  · subst same
    rw [Function.update_self, Std.ExtTreeMap.mem_insert, Std.LawfulEqOrd.compare_eq_iff_eq, or_comm, eq_comm]
    simp
  · rw [Function.update_of_ne same]
    simp [same]

theorem getElem?_putPrice {value : Decimal} {code' d : Text} (other : ¬ (code' = code ∧ d = date)) :
    ((db.putPrice code date value).prices code')[d]? = (db.prices code')[d]? := by
  change (Function.update db.prices code ((db.prices code).insert date value) code')[d]? = _
  by_cases same : code' = code
  · subst same
    have days : ¬ date = d := fun eq => other ⟨rfl, eq.symm⟩
    rw [Function.update_self, Std.ExtTreeMap.getElem?_insert, if_neg (by rwa [Std.LawfulEqOrd.compare_eq_iff_eq])]
  · rw [Function.update_of_ne same]

theorem Sound.putPrice (h : Sound catalog db) (value : Decimal) : Sound catalog (db.putPrice code date value) :=
  h.grow ⟨fun _ held => held, fun _ _ found => found, fun _ _ held => mem_putPrice.mpr (.inl held)⟩ rfl h.catalogued

theorem Sound.putSeries (h : Sound catalog db) (s : MarketSeries) :
    Sound catalog { db with series := db.series.put s } :=
  h.grow ⟨fun _ held => Keyed.mem_put.mpr (.inl held), fun _ _ found => found, fun _ _ held => held⟩ rfl h.catalogued

theorem Sound.putProduct (h : Sound catalog db) {p row : Product} (member : p ∈ catalog.products) (stored : p.stored = some row) :
    Sound catalog { db with products := db.products.put row } := by
  refine h.grow ⟨fun _ held => held, ?_, fun _ _ held => held⟩ rfl ?_
  · intro sku q found
    change (db.products.put row).rows[sku]? = some q
    rw [Keyed.getElem?_put]
    by_cases same : row.sku = sku
    · obtain ⟨q', member', stored'⟩ := h.catalogued sku q found
      have skus : q'.sku = p.sku := by
        rw [← stored_sku stored', ← stored_sku stored, same]
        exact db.products.keyed sku q found
      cases List.inj_on_of_nodup_map catalog.distinctProducts member' member skus
      rw [if_pos same, ← stored, stored']
    · rw [if_neg same]
      exact found
  · intro sku q found
    change (db.products.put row).rows[sku]? = some q at found
    rw [Keyed.getElem?_put] at found
    split at found
    next =>
      cases found
      exact ⟨p, member, stored⟩
    next => exact h.catalogued sku q found

end OtterWorks.Analytics
