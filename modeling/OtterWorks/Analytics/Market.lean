import OtterWorks.Lib.IsoDate
import OtterWorks.Lib.KeyMap
import Mathlib.Logic.Function.Basic

namespace OtterWorks.Analytics

/-- A row of the seed file, which is split at its commas. -/
structure MarketSeries where
  seriesCode : Text
  currency : Text
  named : seriesCode ≠ []
  plain : ',' ∉ seriesCode
  deriving DecidableEq, Repr

structure Product where
  sku : Text
  commoditySeriesCode : Text
  contentKg : Decimal
  freightKg : Decimal
  overheadPct : Decimal
  listPriceUsd : Decimal
  deriving DecidableEq, Repr

structure MarginDaily where
  sku : Text
  marginDate : Text
  commodityCostUsd : Decimal
  freightCostUsd : Decimal
  overheadCostUsd : Decimal
  cogsUsd : Decimal
  marginPct : Decimal
  deriving DecidableEq, Repr

/-- The row as `products` keeps it, unless a number is too large for its column. -/
def Product.stored (p : Product) : Option Product := do
  let contentKg ← p.contentKg.castNumeric 10 4
  let freightKg ← p.freightKg.castNumeric 10 4
  let overheadPct ← p.overheadPct.castNumeric 5 2
  let listPriceUsd ← p.listPriceUsd.castNumeric 10 2
  some ⟨p.sku, p.commoditySeriesCode, contentKg, freightKg, overheadPct, listPriceUsd⟩

/-- The row as `product_margin_daily` keeps it, unless a number is too large for its column. -/
def MarginDaily.stored (m : MarginDaily) : Option MarginDaily := do
  let commodityCost ← m.commodityCostUsd.castNumeric 12 4
  let freightCost ← m.freightCostUsd.castNumeric 12 4
  let overheadCost ← m.overheadCostUsd.castNumeric 12 4
  let cogs ← m.cogsUsd.castNumeric 12 4
  let marginPct ← m.marginPct.castNumeric 8 4
  some ⟨m.sku, m.marginDate, commodityCost, freightCost, overheadCost, cogs, marginPct⟩

/-- The number that `market_prices` keeps of a value. -/
def storedPrice (value : Decimal) : Option Decimal := value.castNumeric 14 6

def fxSeriesCode : Text := text "USD_NOK"

def freightSeriesCode : Text := text "DREWRY_WCI_USD_FEU"

def kgPerFeu : Decimal := ⟨25000, 0⟩

/-- `computeMargin`, with the date its caller sets; it raises on a division by zero. -/
def computeMargin (product : Product) (commodityPrice : Decimal) (commodityCurrency : Text) (usdNok wciUsdFeu : Decimal)
    (date : Text) : Option MarginDaily := do
  let mul := Decimal.mul Decimal.decimal128
  let add := Decimal.add Decimal.decimal128
  let priceUsd ←
    (if commodityCurrency = text "NOK" then commodityPrice.div Decimal.decimal128 usdNok else some commodityPrice)
  let commodityCost := (mul priceUsd product.contentKg).setScale 4
  let freightCost := (mul (← wciUsdFeu.div Decimal.decimal128 kgPerFeu) product.freightKg).setScale 4
  let overhead ← (mul (add commodityCost freightCost) product.overheadPct).div Decimal.decimal128 ⟨100, 0⟩
  let overheadCost := overhead.setScale 4
  let cogs := (add (add commodityCost freightCost) overheadCost).setScale 4
  let marginPct ←
    (if product.listPriceUsd.coeff = 0 then some .zero
    else do
      let share ← (product.listPriceUsd.sub Decimal.decimal128 cogs).div Decimal.decimal128 product.listPriceUsd
      some ((mul share ⟨100, 0⟩).setScale 4))
  some ⟨product.sku, date, commodityCost, freightCost, overheadCost, cogs, marginPct⟩

/-- `latestAtOrBefore`, over rows in the order of their dates. -/
def latestAtOrBefore (sorted : List (Text × Decimal)) (date : Text) : Option Decimal :=
  ((sorted.takeWhile fun row => (compare row.1 date).isLE).getLast?).map Prod.snd

/-- What a recompute reads. -/
structure Market where
  seriesMeta : List MarketSeries
  products : List Product
  byCode : Text → List (Text × Decimal)

namespace Market

/-- The entry of `currencyByCode`, where the last of a code counts. -/
def currency (market : Market) (code : Text) : Text :=
  ((market.seriesMeta.reverse.find? fun s => s.seriesCode = code).map MarketSeries.currency).getD (text "USD")

/-- The row of one price, if a rate and a freight price are known by then. -/
def marginFor (market : Market) (product : Product) (row : Text × Decimal) : Option (List MarginDaily) :=
  match latestAtOrBefore (market.byCode fxSeriesCode) row.1, latestAtOrBefore (market.byCode freightSeriesCode) row.1 with
  | some usdNok, some wci =>
    (computeMargin product row.2 (market.currency product.commoditySeriesCode) usdNok wci row.1).map fun m => [m]
  | _, _ => some []

def productRows (market : Market) (fromDate : Option Text) (product : Product) : Option (List MarginDaily) :=
  (((market.byCode product.commoditySeriesCode).filter fun row => fromDate.all fun d => (compare d row.1).isLE).mapM
    (market.marginFor product)).map List.flatten

/-- No series stands for all of them. -/
def globalChange (affected : List Text) : Bool :=
  affected.isEmpty || fxSeriesCode ∈ affected || freightSeriesCode ∈ affected

def targetProducts (market : Market) (affected : List Text) : List Product :=
  market.products.filter fun p => globalChange affected || p.commoditySeriesCode ∈ affected

def upserts (market : Market) (affected : List Text) (fromDate : Option Text) : Option (List MarginDaily) :=
  ((market.targetProducts affected).mapM (market.productRows fromDate)).map List.flatten

end Market

/-- A row of `sync_runs`. -/
structure SyncRun where
  runType : Text
  observationsCount : Nat
  deriving DecidableEq, Repr

/-- `market_series`, `products`, by series and by product the rows of `market_prices` and `product_margin_daily`
under their dates, and `sync_runs` in the order of its ids. -/
structure Db where
  series : Keyed MarketSeries.seriesCode
  products : Keyed Product.sku
  prices : Text → KeyMap Text Decimal
  margins : Text → KeyMap Text MarginDaily
  syncRuns : List SyncRun

namespace Db

def empty : Db := ⟨.empty, .empty, fun _ => ∅, fun _ => ∅, []⟩

def putPrice (db : Db) (code date : Text) (value : Decimal) : Db :=
  { db with prices := Function.update db.prices code ((db.prices code).insert date value) }

def putMargin (db : Db) (m : MarginDaily) : Db :=
  { db with margins := Function.update db.margins m.sku ((db.margins m.sku).insert m.marginDate m) }

/-- `string_to_array` at commas, which makes no element of an empty text. -/
def stringToArray (s : Text) : List Text := if s.isEmpty then [] else s.splitOn ','

/-- The codes are joined with commas for the statement. -/
def pricesForSeries (db : Db) (codes : List Text) (code : Text) : List (Text × Decimal) :=
  if code ∈ stringToArray ([','].intercalate codes) then (db.prices code).toList else []

def market (db : Db) : Market :=
  ⟨db.series.list, db.products.list, db.pricesForSeries (db.series.list.map MarketSeries.seriesCode)⟩

/-- The prices of a listed series. -/
def listed (db : Db) (code : Text) : KeyMap Text Decimal := if code ∈ db.series.rows then db.prices code else ∅

def currency (db : Db) (code : Text) : Text := (db.series.rows[code]?.map MarketSeries.currency).getD (text "USD")

def latest (db : Db) (code date : Text) : Option Decimal := latestAtOrBefore (db.listed code).toList date

/-- What a recompute of everything computes under a key: nothing, a row, or an exception. -/
def computed (db : Db) (sku date : Text) : Option (Option MarginDaily) := do
  let product ← db.products.rows[sku]?
  let price ← (db.listed product.commoditySeriesCode)[date]?
  let usdNok ← db.latest fxSeriesCode date
  let wci ← db.latest freightSeriesCode date
  some (computeMargin product price (db.currency product.commoditySeriesCode) usdNok wci date)

/-- The row due under a key; a row that cannot be computed or stored is due as `none`. -/
def due (db : Db) (sku date : Text) : Option (Option MarginDaily) :=
  (db.computed sku date).map fun m => m.bind MarginDaily.stored

/-- The table has the row that is due under a key, and none where none is due. -/
def UpToDate (db : Db) (sku date : Text) : Prop := db.due sku date = (db.margins sku)[date]?.map some

instance (db : Db) (sku date : Text) : Decidable (db.UpToDate sku date) := inferInstanceAs (Decidable (_ = _))

/-- Whether a recompute of some series from a date on looks at a key. -/
def covers (db : Db) (affected : List Text) (fromDate : Option Text) (sku date : Text) : Bool :=
  db.products.rows[sku]?.any (fun p => Market.globalChange affected || p.commoditySeriesCode ∈ affected) &&
    fromDate.all fun d => (compare d date).isLE

end Db

end OtterWorks.Analytics
