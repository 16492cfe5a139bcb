import OtterWorks.Analytics.MarketTasks

namespace OtterWorks.Analytics

variable {db t : Db} {affected : List Text} {fromDate : Option Text} {sku date code : Text}

theorem mem_codes : code ∈ db.series.list.map MarketSeries.seriesCode ↔ code ∈ db.series.rows := by
  rw [List.mem_map, ← Std.ExtTreeMap.isSome_getElem?_iff_mem, Option.isSome_iff_exists]
  constructor
  · rintro ⟨s, member, rfl⟩
    exact ⟨s, Keyed.mem_list.mp member⟩
  · rintro ⟨s, found⟩
    have same := db.series.keyed code s found
    refine ⟨s, Keyed.mem_list.mpr ?_, same⟩
    rw [same]
    exact found

/-- The statement finds the codes that were joined. -/
theorem stringToArray_codes (series : List MarketSeries) :
    Db.stringToArray ([','].intercalate (series.map MarketSeries.seriesCode)) = series.map MarketSeries.seriesCode := by
  cases series with
  | nil => rfl
  | cons s rest =>
    have joined : [','].intercalate ((s :: rest).map MarketSeries.seriesCode) ≠ [] := by
      cases rest with
      | nil => simpa [List.intercalate] using s.named
      | cons s' rest => simp [List.intercalate, s.named]
    rw [Db.stringToArray, if_neg (by simpa using joined)]
    apply List.splitOn_intercalate
    · intro code member
      obtain ⟨s', _, rfl⟩ := List.mem_map.mp member
      exact s'.plain
    · simp

theorem market_byCode (db : Db) (code : Text) : db.market.byCode code = (db.listed code).toList := by
  change (if code ∈ Db.stringToArray ([','].intercalate (db.series.list.map MarketSeries.seriesCode)) then
    (db.prices code).toList else []) = _
  rw [stringToArray_codes, Db.listed]
  by_cases known : code ∈ db.series.rows
  · rw [if_pos known, if_pos (mem_codes.mpr known)]
  · rw [if_neg known, if_neg (mt mem_codes.mp known)]
    exact (Std.ExtTreeMap.toList_eq_nil_iff.mpr rfl).symm

theorem market_currency (db : Db) (code : Text) : db.market.currency code = db.currency code := by
  rw [Market.currency, Db.currency]
  exact congrArg (fun s : Option MarketSeries => (s.map MarketSeries.currency).getD (text "USD"))
    (Keyed.find?_list db.series code)

/-- Only the prices up to a date count for the latest one. -/
theorem latest_congr (same : ∀ d, (compare d date).isLE → (db.listed code)[d]? = (t.listed code)[d]?) :
    db.latest code date = t.latest code date := by
  have front : (db.listed code).filter (fun d _ => (compare d date).isLE) =
      (t.listed code).filter fun d _ => (compare d date).isLE := by
    apply Std.ExtTreeMap.ext_getElem?
    intro d
    rw [Std.ExtTreeMap.getElem?_filter', Std.ExtTreeMap.getElem?_filter']
    by_cases early : (compare d date).isLE = true
    · rw [same d early]
    · cases (db.listed code)[d]? <;> cases (t.listed code)[d]? <;> simp [early]
  rw [Db.latest, Db.latest, latestAtOrBefore, latestAtOrBefore, KeyMap.takeWhile_toList, KeyMap.takeWhile_toList, front]

theorem latest_isSome : (db.latest code date).isSome ↔ ∃ d, d ∈ db.listed code ∧ (compare d date).isLE := by
  have inFront {row : Text × Decimal} : row ∈ ((db.listed code).filter fun d _ => (compare d date).isLE).toList ↔
      row ∈ (db.listed code).toList ∧ (compare row.1 date).isLE = true := by
    rw [Std.ExtTreeMap.toList_filter, List.mem_filter]
  rw [Db.latest, latestAtOrBefore, KeyMap.takeWhile_toList, Option.isSome_map, List.getLast?_isSome]
  constructor
  · intro some
    obtain ⟨row, member⟩ := List.exists_mem_of_ne_nil _ some
    obtain ⟨held, early⟩ := inFront.mp member
    have found : (db.listed code)[row.1]? = Option.some row.2 := KeyMap.mem_toList.mp held
    exact ⟨row.1, Std.ExtTreeMap.mem_iff_isSome_getElem?.mpr (by simp [found]), early⟩
  · rintro ⟨d, held, early⟩
    obtain ⟨v, found⟩ := Option.isSome_iff_exists.mp (Std.ExtTreeMap.mem_iff_isSome_getElem?.mp held)
    exact List.ne_nil_of_mem (inFront.mpr ⟨KeyMap.mem_toList.mpr found, early⟩)

theorem computeMargin_key {p : Product} {price usdNok wci : Decimal} {currency : Text} {m : MarginDaily}
    (h : computeMargin p price currency usdNok wci date = some m) : m.sku = p.sku ∧ m.marginDate = date := by
  simp only [computeMargin] at h
  obtain ⟨priceUsd, -, h⟩ := Option.bind_eq_some_iff.mp h
  obtain ⟨freight, -, h⟩ := Option.bind_eq_some_iff.mp h
  obtain ⟨overhead, -, h⟩ := Option.bind_eq_some_iff.mp h
  obtain ⟨marginPct, -, h⟩ := Option.bind_eq_some_iff.mp h
  cases Option.some.inj h
  exact ⟨rfl, rfl⟩

theorem stored_key {m row : MarginDaily} (h : m.stored = some row) : row.sku = m.sku ∧ row.marginDate = m.marginDate := by
  obtain ⟨commodityCost, -, h⟩ := Option.bind_eq_some_iff.mp h
  obtain ⟨freightCost, -, h⟩ := Option.bind_eq_some_iff.mp h
  obtain ⟨overheadCost, -, h⟩ := Option.bind_eq_some_iff.mp h
  obtain ⟨cogs, -, h⟩ := Option.bind_eq_some_iff.mp h
  obtain ⟨marginPct, -, h⟩ := Option.bind_eq_some_iff.mp h
  cases Option.some.inj h
  exact ⟨rfl, rfl⟩

theorem computed_key {m : MarginDaily} (h : db.computed sku date = some (some m)) : m.sku = sku ∧ m.marginDate = date := by
  obtain ⟨p, found, h⟩ := Option.bind_eq_some_iff.mp h
  obtain ⟨price, -, h⟩ := Option.bind_eq_some_iff.mp h
  obtain ⟨usdNok, -, h⟩ := Option.bind_eq_some_iff.mp h
  obtain ⟨wci, -, h⟩ := Option.bind_eq_some_iff.mp h
  have key := computeMargin_key (Option.some.inj h)
  rw [db.products.keyed sku p found] at key
  exact key

/-- What is made of one price of a product. -/
theorem marginFor_eq {p : Product} {price : Decimal} (found : db.products.rows[p.sku]? = some p)
    (priced : (db.listed p.commoditySeriesCode)[date]? = some price) :
    db.market.marginFor p (date, price) = ((db.computed p.sku date).map fun m => m.map fun row => [row]).getD (some []) := by
  have usd : latestAtOrBefore (db.market.byCode fxSeriesCode) date = db.latest fxSeriesCode date := by
    rw [market_byCode, Db.latest]
  have wci : latestAtOrBefore (db.market.byCode freightSeriesCode) date = db.latest freightSeriesCode date := by
    rw [market_byCode, Db.latest]
  simp only [Market.marginFor, usd, wci, market_currency, Db.computed, found, priced, Option.bind_eq_bind, Option.bind_some]
  cases db.latest fxSeriesCode date with
  | none => rfl
  | some usdNok =>
    cases db.latest freightSeriesCode date with
    | none => rfl
    | some wci => rfl

theorem computed_priced {m : Option MarginDaily} (h : db.computed sku date = some m) :
    ∃ p price, db.products.rows[sku]? = some p ∧ (db.listed p.commoditySeriesCode)[date]? = some price := by
  obtain ⟨p, found, h⟩ := Option.bind_eq_some_iff.mp h
  obtain ⟨price, priced, -⟩ := Option.bind_eq_some_iff.mp h
  exact ⟨p, price, found, priced⟩

theorem mem_targetProducts {p : Product} : p ∈ db.market.targetProducts affected ↔
    db.products.rows[p.sku]? = some p ∧ (Market.globalChange affected || p.commoditySeriesCode ∈ affected) = true := by
  rw [Market.targetProducts, List.mem_filter]
  exact and_congr_left fun _ => Keyed.mem_list

theorem covers_iff : db.covers affected fromDate sku date = true ↔
    ∃ p ∈ db.market.targetProducts affected, p.sku = sku ∧ fromDate.all (fun d => (compare d date).isLE) = true := by
  rw [Db.covers, Bool.and_eq_true, Option.any_eq_true]
  constructor
  · rintro ⟨⟨p, found, wanted⟩, since⟩
    have same := db.products.keyed sku p found
    refine ⟨p, mem_targetProducts.mpr ⟨?_, wanted⟩, same, since⟩
    rw [same]
    exact found
  · rintro ⟨p, target, rfl, since⟩
    obtain ⟨found, wanted⟩ := mem_targetProducts.mp target
    exact ⟨⟨p, found, wanted⟩, since⟩

section

variable {p : Product} {ms : List MarginDaily} {m : MarginDaily}

theorem productRows_parts (h : db.market.productRows fromDate p = some ms) :
    ∃ parts, ms = parts.flatten ∧ List.Forall₂ (fun row part => db.market.marginFor p row = some part)
      ((db.listed p.commoditySeriesCode).toList.filter fun row => fromDate.all fun d => (compare d row.1).isLE) parts := by
  rw [Market.productRows, market_byCode] at h
  obtain ⟨parts, all, rfl⟩ := Option.map_eq_some_iff.mp h
  exact ⟨parts, rfl, mapM_some.mp all⟩

theorem mem_productRows (found : db.products.rows[p.sku]? = some p) (h : db.market.productRows fromDate p = some ms) :
    m ∈ ms ↔ m.sku = p.sku ∧ fromDate.all (fun d => (compare d m.marginDate).isLE) = true ∧
      db.computed p.sku m.marginDate = some (some m) := by
  obtain ⟨parts, rfl, related⟩ := productRows_parts h
  rw [List.mem_flatten]
  constructor
  · rintro ⟨part, member, inPart⟩
    obtain ⟨⟨d, price⟩, held, made⟩ := forall₂_right related member
    obtain ⟨listed, since⟩ := List.mem_filter.mp held
    rw [marginFor_eq found (KeyMap.mem_toList.mp listed)] at made
    cases here : db.computed p.sku d with
    | none =>
      simp only [here, Option.map_none, Option.getD_none, Option.some.injEq] at made
      rw [← made] at inPart
      cases inPart
    | some row =>
      simp only [here, Option.map_some, Option.getD_some] at made
      obtain ⟨row, rfl, rfl⟩ := Option.map_eq_some_iff.mp made
      cases List.mem_singleton.mp inPart
      obtain ⟨sku, rfl⟩ := computed_key here
      exact ⟨sku, since, here⟩
  · rintro ⟨-, since, here⟩
    obtain ⟨q, price, found', priced⟩ := computed_priced here
    rw [found] at found'
    cases found'
    obtain ⟨part, member, made⟩ := forall₂_left related (x := (m.marginDate, price))
      (List.mem_filter.mpr ⟨KeyMap.mem_toList.mpr priced, since⟩)
    rw [marginFor_eq found priced, here] at made
    cases Option.some.inj made
    exact ⟨_, member, List.mem_singleton_self m⟩

theorem productRows_none (found : db.products.rows[p.sku]? = some p) (h : db.market.productRows fromDate p = none) :
    ∃ date, db.computed p.sku date = some none := by
  rw [Market.productRows, market_byCode, Option.map_eq_none_iff] at h
  obtain ⟨⟨d, price⟩, held, raised⟩ := mapM_none h
  rw [marginFor_eq found (KeyMap.mem_toList.mp (List.mem_filter.mp held).1)] at raised
  refine ⟨d, ?_⟩
  cases here : db.computed p.sku d with
  | none => simp [here] at raised
  | some row => cases row with
    | none => rfl
    | some row => simp [here] at raised

theorem productRows_some (found : db.products.rows[p.sku]? = some p) (h : db.market.productRows fromDate p = some ms)
    (since : fromDate.all (fun d => (compare d date).isLE) = true) : db.computed p.sku date ≠ some none := by
  intro here
  obtain ⟨q, price, found', priced⟩ := computed_priced here
  rw [found] at found'
  cases found'
  obtain ⟨parts, -, related⟩ := productRows_parts h
  obtain ⟨part, -, made⟩ := forall₂_left related (x := (date, price))
    (List.mem_filter.mpr ⟨KeyMap.mem_toList.mpr priced, since⟩)
  rw [marginFor_eq found priced, here] at made
  cases made

theorem upserts_parts (h : db.market.upserts affected fromDate = some ms) :
    ∃ parts, ms = parts.flatten ∧ List.Forall₂ (fun p part => db.market.productRows fromDate p = some part)
      (db.market.targetProducts affected) parts := by
  obtain ⟨parts, all, rfl⟩ := Option.map_eq_some_iff.mp h
  exact ⟨parts, rfl, mapM_some.mp all⟩

/-- The rows of a recompute are what is computed under the keys it covers. -/
theorem mem_upserts (h : db.market.upserts affected fromDate = some ms) :
    m ∈ ms ↔ db.covers affected fromDate m.sku m.marginDate = true ∧ db.computed m.sku m.marginDate = some (some m) := by
  obtain ⟨parts, rfl, related⟩ := upserts_parts h
  rw [List.mem_flatten, covers_iff]
  constructor
  · rintro ⟨part, member, inPart⟩
    obtain ⟨p, target, rows⟩ := forall₂_right related member
    obtain ⟨sku, since, here⟩ := (mem_productRows (mem_targetProducts.mp target).1 rows).mp inPart
    refine ⟨⟨p, target, sku.symm, since⟩, ?_⟩
    rw [sku]
    exact here
  · rintro ⟨⟨p, target, sku, since⟩, here⟩
    obtain ⟨part, member, rows⟩ := forall₂_left related target
    rw [← sku] at here
    exact ⟨part, member, (mem_productRows (mem_targetProducts.mp target).1 rows).mpr ⟨sku.symm, since, here⟩⟩

/-- A recompute raises only where a row cannot be computed. -/
theorem upserts_none (h : db.market.upserts affected fromDate = none) : ∃ sku date, db.computed sku date = some none := by
  obtain ⟨p, target, none⟩ := mapM_none (Option.map_eq_none_iff.mp h)
  obtain ⟨date, raised⟩ := productRows_none (mem_targetProducts.mp target).1 none
  exact ⟨p.sku, date, raised⟩

theorem upserts_some (h : db.market.upserts affected fromDate = some ms)
    (covered : db.covers affected fromDate sku date = true) : db.computed sku date ≠ some none := by
  obtain ⟨p, target, rfl, since⟩ := covers_iff.mp covered
  obtain ⟨parts, -, related⟩ := upserts_parts h
  obtain ⟨part, -, rows⟩ := forall₂_left related target
  exact productRows_some (mem_targetProducts.mp target).1 rows since

end

end OtterWorks.Analytics
