import OtterWorks.Analytics.Market
import OtterWorks.Lib.Slices
import OtterWorks.Lib.Together
import Mathlib.Data.Char
import Mathlib.Data.List.Lex

namespace OtterWorks.Analytics

inductive Failure
  | database
  | arithmetic
  | badDate
  deriving DecidableEq, Repr

abbrev Task := Prog Db Failure

/-- A statement that the database refuses changes nothing. -/
def statement {α : Type} (exec : Db → Option (α × Db)) : Task α :=
  .attempt fun db =>
    match exec db with
    | some (a, db') => (.ok a, db')
    | none => (.error .database, db)

def listSeries : Task (List MarketSeries) := .query fun db => db.series.list

def listProducts : Task (List Product) := .query fun db => db.products.list

def pricesForSeries (seriesCodes : List Text) : Task (Text → List (Text × Decimal)) :=
  if seriesCodes.isEmpty then pure fun _ => [] else .query fun db => db.pricesForSeries seriesCodes

def upsertSeries (s : MarketSeries) : Task Unit := statement fun db => some ((), { db with series := db.series.put s })

/-- A product's series is a reference to `market_series`. -/
def upsertProduct (p : Product) : Task Unit :=
  statement fun db => do
    let row ← p.stored
    if row.commoditySeriesCode ∈ db.series.rows then some ((), { db with products := db.products.put row }) else none

def insertPriceIfAbsent (db : Db) (code date : Text) (value : Decimal) : Option (Nat × Db) := do
  let date ← IsoDate.cast date
  let value ← storedPrice value
  if date ∈ db.prices code then some (0, db)
  else if code ∈ db.series.rows then some (1, db.putPrice code date value) else none

def upsertManualPrice (code date : Text) (value : Decimal) : Task Unit :=
  statement fun db => do
    let date ← IsoDate.cast date
    let value ← storedPrice value
    if code ∈ db.series.rows then some ((), db.putPrice code date value) else none

def upsertMargin (m : MarginDaily) : Task Unit :=
  statement fun db => do
    let row ← m.stored
    if row.sku ∈ db.products.rows then some ((), db.putMargin row) else none

def latestMarginDate : Task (Option Text) :=
  .query fun db => firstMax id (db.products.list.flatMap fun p => (db.margins p.sku).keys)

def insertSyncRun (runType : Text) (observationsCount : Nat) : Task Unit :=
  .modify fun db => { db with syncRuns := db.syncRuns ++ [⟨runType, observationsCount⟩] }

/-- `recompute`. Its upserts are not one transaction. -/
def recompute (affectedSeries : List Text) (fromDate : Option Text) : Task Nat := do
  let seriesMeta ← listSeries
  let products ← listProducts
  let byCode ← pricesForSeries (seriesMeta.map MarketSeries.seriesCode)
  let market : Market := ⟨seriesMeta, products, byCode⟩
  match market.upserts affectedSeries fromDate with
  | none => throw .arithmetic
  | some upserts => do
    (slices 500 upserts).forM fun group => group.forM upsertMargin
    pure (market.targetProducts affectedSeries).length

structure Observation where
  seriesCode : Text
  priceDate : Text
  value : Decimal
  deriving DecidableEq, Repr

structure RejectedObservation where
  seriesCode : Text
  priceDate : Text
  reason : Text
  deriving DecidableEq, Repr

structure ObservationsResponse where
  accepted : Nat
  rejected : List RejectedObservation
  recomputedSkus : Nat
  deriving DecidableEq, Repr

def validate (knownCodes : List Text) (today : Int) (o : Observation) : Option RejectedObservation :=
  if o.seriesCode ∉ knownCodes then
    some ⟨o.seriesCode, o.priceDate, text "unknown series_code '" ++ o.seriesCode ++ text "'"⟩
  else
    match IsoDate.parse o.priceDate with
    | none => some ⟨o.seriesCode, o.priceDate, text "invalid price_date (expected YYYY-MM-DD)"⟩
    | some d =>
      if today < d then some ⟨o.seriesCode, o.priceDate, text "price_date is in the future"⟩
      else if o.value.coeff ≤ 0 then some ⟨o.seriesCode, o.priceDate, text "value must be positive"⟩
      else none

def valid (knownCodes : List Text) (today : Int) (observations : List Observation) : List Observation :=
  observations.filter fun o => validate knownCodes today o = none

/-- The least of some dates. -/
def earliest : List Text → Option Text
  | [] => none
  | date :: dates => some (dates.foldl (fun least d => if (compare least d).isLE then least else d) date)

/-- `ingest`: Scala's `Left` is an error here, and `Right` is not. -/
def ingest (order : Scan Observation) (today : Int) (observations : List Observation) :
    Task (Except (List RejectedObservation) ObservationsResponse) := do
  let seriesMeta ← listSeries
  let knownCodes := seriesMeta.map MarketSeries.seriesCode
  let rejected := observations.filterMap (validate knownCodes today)
  let accepted := valid knownCodes today observations
  match earliest (accepted.map Observation.priceDate) with
  | none => pure (.error rejected)
  | some fromDate => do
    let _ ← Prog.together order (fun o => upsertManualPrice o.seriesCode o.priceDate o.value) accepted
    let recomputed ← recompute (accepted.map Observation.seriesCode).dedup (some fromDate)
    insertSyncRun (text "manual_pull") accepted.length
    pure (.ok ⟨accepted.length, rejected, recomputed⟩)

/-- The bundled catalog, and the random walk that extends its prices. -/
structure Catalog where
  series : List MarketSeries
  products : List Product
  baseline : List (Text × Text × Decimal)
  nextWalkValue : Text → Int → Decimal → Decimal
  distinctSeries : (series.map MarketSeries.seriesCode).Nodup
  distinctProducts : (products.map Product.sku).Nodup

namespace Catalog

/-- The next `n` days of a walk. -/
def walk (catalog : Catalog) (code : Text) : Nat → Int → Decimal → List (Text × Text × Decimal)
  | 0, _, _ => []
  | n + 1, date, value =>
    let next := catalog.nextWalkValue code (date + 1) value
    (code, IsoDate.print (date + 1), next) :: walk catalog code n (date + 1) next

def lastBaseline (catalog : Catalog) (code : Text) : Option (Text × Decimal) :=
  (firstMax (fun row => row.2.1) (catalog.baseline.filter fun row => row.1 = code)).map Prod.snd

def walkExtension (catalog : Catalog) (code : Text) (lastDate : Int) (lastValue : Decimal) (today : Int) :
    List (Text × Text × Decimal) :=
  catalog.walk code (today - lastDate).toNat lastDate lastValue

/-- The extension of a series, unless its last baseline date is no date. -/
def extend (catalog : Catalog) (today : Int) (s : MarketSeries) : Option (List (Text × Text × Decimal)) :=
  match catalog.lastBaseline s.seriesCode with
  | none => some []
  | some (date, value) => (IsoDate.parse date).map fun lastDate => catalog.walkExtension s.seriesCode lastDate value today

def extension (catalog : Catalog) (today : Int) : Option (List (Text × Text × Decimal)) :=
  (catalog.series.mapM (catalog.extend today)).map List.flatten

end Catalog

/-- The orders in which statements sent together are executed. -/
structure Orders where
  series : Scan MarketSeries
  products : Scan Product
  batches : Scan (List (Text × Text × Decimal))

def insertPrice (counted : Nat × Db) (row : Text × Text × Decimal) : Option (Nat × Db) :=
  (insertPriceIfAbsent counted.2 row.1 row.2.1 row.2.2).map fun inserted => (counted.1 + inserted.1, inserted.2)

/-- A batch of prices is one transaction; the answer is the number of rows inserted. -/
def insertBatch (batch : List (Text × Text × Decimal)) : Task Nat := statement fun db => batch.foldlM insertPrice (0, db)

/-- `MarketSeeder.run`. -/
def seed (catalog : Catalog) (orders : Orders) (today : Int) : Task Nat :=
  match catalog.extension today with
  | none => throw .badDate
  | some extension => do
    let _ ← Prog.together orders.series upsertSeries catalog.series
    let _ ← Prog.together orders.products upsertProduct catalog.products
    let counts ← Prog.together orders.batches insertBatch (slices 500 (catalog.baseline ++ extension))
    let marginDate ← latestMarginDate
    let _ ← (if counts.sum > 0 ∨ marginDate = none then recompute [] none else pure 0)
    let _ ← (if counts.sum > 0 then insertSyncRun (text "baseline_seed") counts.sum else pure ())
    pure counts.sum

/-- A run of the seeder or a request, with what becomes of its calls. -/
inductive Run
  | seeder (orders : Orders) (today : Int) (endings : List (Ending Failure))
  | request (order : Scan Observation) (today : Int) (observations : List Observation) (endings : List (Ending Failure))

/-- No call meets another client. -/
def alone (endings : List (Ending Failure)) : List (Turn Db Failure) := endings.map fun ending => ⟨id, ending⟩

namespace Run

def outcome {α : Type} (completes : α → Bool) : Outcome Failure α × Db → Bool × Db
  | (.ended (.ok a), db) => (completes a, db)
  | (_, db) => (false, db)

/-- Whether a seeder's run completes or an ingest returns `Right`, and the database after it. -/
def exec (catalog : Catalog) (db : Db) : Run → Bool × Db
  | .seeder orders today endings => outcome (fun _ => true) ((seed catalog orders today).run (alone endings) db)
  | .request order today observations endings =>
    outcome (fun answer => answer.isOk) ((ingest order today observations).run (alone endings) db)

def step (catalog : Catalog) (db : Db) (run : Run) : Db := (run.exec catalog db).2

def completes (catalog : Catalog) (db : Db) (run : Run) : Bool := (run.exec catalog db).1

end Run

end OtterWorks.Analytics
