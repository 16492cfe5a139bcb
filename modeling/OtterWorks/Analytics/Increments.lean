import OtterWorks.Analytics.Recompute
import Mathlib.Data.List.Dedup

namespace OtterWorks.Analytics

variable {db t : Db}

/-- What the prices of a request may change: those of its series from its first date on. -/
structure Pulled (db : Db) (codes : List Text) (since : Text) (t : Db) : Prop where
  series : t.series = db.series
  products : t.products = db.products
  margins : t.margins = db.margins
  prices : ∀ code d, code ∉ codes ∨ (compare since d).isLE = false → (t.prices code)[d]? = (db.prices code)[d]?

section

variable {codes : List Text} {sku date code since : Text}

theorem Pulled.listed (h : Pulled db codes since t) (other : code ∉ codes ∨ (compare since date).isLE = false) :
    (t.listed code)[date]? = (db.listed code)[date]? := by
  rw [Db.listed, Db.listed, h.series]
  split
  next => exact h.prices code date other
  next => rfl

theorem Pulled.latest (h : Pulled db codes since t) (other : code ∉ codes ∨ (compare since date).isLE = false) :
    t.latest code date = db.latest code date := by
  apply latest_congr
  intro d early
  apply h.listed
  refine other.imp_right fun late => ?_
  by_contra reached
  have since : (compare since date).isLE = true := Std.TransCmp.isLE_trans (Bool.eq_true_of_not_eq_false reached) early
  rw [late] at since
  cases since

/-- Outside of what its recompute covers, a request changes nothing that is due. -/
theorem Pulled.due (h : Pulled db codes since t) (other : db.covers codes (some since) sku date = false) :
    t.due sku date = db.due sku date := by
  rw [Db.due, Db.due, Db.computed, Db.computed, h.products]
  cases found : db.products.rows[sku]? with
  | none => rfl
  | some p =>
    have apart : (Market.globalChange codes || p.commoditySeriesCode ∈ codes) = false ∨ (compare since date).isLE = false := by
      rw [Db.covers, found, Bool.and_eq_false_iff] at other
      exact other
    have aside (code : Text) (code' : code = p.commoditySeriesCode ∨ code = fxSeriesCode ∨ code = freightSeriesCode) :
        code ∉ codes ∨ (compare since date).isLE = false := by
      refine apart.imp_left ?_
      intro none
      simp only [Market.globalChange, Bool.or_eq_false_iff, decide_eq_false_iff_not] at none
      rcases code' with rfl | rfl | rfl
      · exact none.2
      · exact none.1.1.2
      · exact none.1.2
    simp only [Option.bind_eq_bind, Option.bind_some, h.listed (aside _ (.inl rfl)), h.latest (aside _ (.inr (.inl rfl))),
      h.latest (aside _ (.inr (.inr rfl))), Db.currency, h.series]

end

theorem least_le (dates : List Text) (date : Text) :
    ∀ d ∈ date :: dates, (compare (dates.foldl (fun least d => if (compare least d).isLE then least else d) date) d).isLE = true := by
  induction dates generalizing date with
  | nil =>
    intro d member
    rw [List.mem_singleton.mp member]
    exact Std.ReflCmp.isLE_rfl
  | cons next dates ih =>
    intro d member
    rw [List.foldl_cons]
    have below := ih (if (compare date next).isLE then date else next)
    have first := below _ (List.mem_cons_self ..)
    by_cases le : (compare date next).isLE = true
    · rw [if_pos le] at below first ⊢
      rcases List.mem_cons.mp member with rfl | member
      · exact first
      · rcases List.mem_cons.mp member with rfl | member
        · exact Std.TransCmp.isLE_trans first le
        · exact below d (List.mem_cons_of_mem _ member)
    · rw [if_neg le] at below first ⊢
      have less : (compare next date).isLE = true := by
        rw [@Std.OrientedCmp.eq_swap _ compare _ next date]
        cases order : compare date next with
        | lt => simp [order] at le
        | eq => simp [order] at le
        | gt => rfl
      rcases List.mem_cons.mp member with rfl | member
      · exact Std.TransCmp.isLE_trans first less
      · exact below d member

theorem earliest_le {dates : List Text} {since : Text} (h : earliest dates = some since) :
    ∀ d ∈ dates, (compare since d).isLE = true := by
  cases dates with
  | nil => cases h
  | cons date dates =>
    cases Option.some.inj h
    exact least_le dates date

theorem stormy_still (t u : Db) (moved : (Weather.stormy Db).moves t u) : u = t := Eq.symm moved

theorem keeps_pull {I : Db → Prop} {order : Scan Observation} {accepted : List Observation} {since : Text}
    (kept : ∀ t code date value, I t → I (t.putPrice code date value)) (h : I db)
    (first : earliest (accepted.map Observation.priceDate) = some since) :
    wp (.stormy Db) (Prog.together order (fun o => upsertManualPrice o.seriesCode o.priceDate o.value) accepted)
      (.keep I fun _ t => Pulled db (accepted.map Observation.seriesCode).dedup since t) db := by
  have each := @keeps_together _ _ _ _ (.stormy Db) I
    (fun o : Observation => upsertManualPrice o.seriesCode o.priceDate o.value) order accepted db (fun _ => True)
    (fun _ _ t => Pulled db (accepted.map Observation.seriesCode).dedup since t) ?_ h ⟨rfl, rfl, rfl, fun _ _ _ => rfl⟩
  · refine keep_mono each ?_
    rintro _ t - ⟨_, _, pulled⟩
    exact pulled
  · intro o t member hI
    refine keeps_statement stormy_still hI (fun _ => trivial) ?_ fun _ => trivial
    rintro ⟨⟩ u done
    obtain ⟨d, cast, done⟩ := Option.bind_eq_some_iff.mp done
    obtain ⟨value, -, done⟩ := Option.bind_eq_some_iff.mp done
    cases cast_eq cast
    split at done
    next =>
      cases Option.some.inj done
      refine ⟨kept t _ _ value hI, ?_⟩
      rintro _ _ before
      refine ⟨before.series, before.products, before.margins, ?_⟩
      intro code d other
      rw [getElem?_putPrice, before.prices code d other]
      rintro ⟨rfl, rfl⟩
      rcases other with foreign | early
      · exact foreign (List.mem_dedup.mpr (List.mem_map.mpr ⟨o, member, rfl⟩))
      · rw [earliest_le first _ (List.mem_map.mpr ⟨o, member, rfl⟩)] at early
        cases early
    next => cases done

/-- Observations are stored, and the margins of their series recomputed from the earliest of their dates on. -/
def pull (order : Scan Observation) (observations : List Observation) : Task Nat := do
  let _ ← Prog.together order (fun o => upsertManualPrice o.seriesCode o.priceDate o.value) observations
  recompute (observations.map Observation.seriesCode).dedup (earliest (observations.map Observation.priceDate))

section

variable {before : Text → KeyMap Text MarginDaily} {codes : List Text} {since sku date : Text} {fromDate : Option Text}

/-- A recompute settles what it covers, and nothing else has become unsettled. -/
theorem pulled_settled {u : Db} (pulled : Pulled db codes since t) (grows : Grows db t)
    (step : Refreshing t codes (some since) u) (done : Refreshed t codes (some since) u sku date)
    (settled : db.Settled before sku date) : u.Settled before sku date := by
  have dueAfter : u.due sku date = t.due sku date := due_congr step.series step.products step.prices
  rw [Db.Settled, dueAfter]
  cases covered : t.covers codes (some since) sku date with
  | true =>
    rw [margins_covered step done covered, pulled.margins, settled]
    cases due : t.due sku date with
    | none =>
      have none : db.due sku date = none := by
        by_contra some
        have after := grows.due (Option.isSome_iff_ne_none.mpr some)
        rw [due] at after
        cases after
      rw [none]
      rfl
    | some row => rfl
  | false =>
    have same : t.due sku date = db.due sku date := by
      apply pulled.due
      rw [Db.covers, ← pulled.products]
      exact covered
    rw [margins_uncovered step covered, pulled.margins, same]
    exact settled

theorem Grows.refl (db : Db) : Grows db db := ⟨fun _ held => held, fun _ _ found => found, fun _ _ held => held⟩

theorem Grows.putPrice {code : Text} (value : Decimal) (h : Grows db t) : Grows db (t.putPrice code date value) :=
  ⟨h.series, h.products, fun code' d held => mem_putPrice.mpr (.inl (h.prices code' d held))⟩

theorem earliest_none {dates : List Text} (h : earliest dates = none) : dates = [] := by
  cases dates with
  | nil => rfl
  | cons date dates => cases h

theorem keeps_pulled (order : Scan Observation) (observations : List Observation)
    (settled : ∀ sku date, db.Settled before sku date) :
    wp (.stormy Db) (pull order observations) ⟨fun _ u => ∀ sku date, u.Settled before sku date, fun _ _ => True, fun _ => True⟩ db := by
  rw [pull, wp_bind]
  cases first : earliest (observations.map Observation.priceDate) with
  | none =>
    cases List.map_eq_nil_iff.mp (earliest_none first)
    have still : wp (.stormy Db) (Prog.together order (fun o : Observation => upsertManualPrice o.seriesCode o.priceDate o.value) [])
        (.keep (fun t => t = db) fun _ _ => True) db :=
      keep_mono (keeps_together (J := fun _ _ _ => True) (fun _ _ member => by cases member) rfl trivial) fun _ _ _ _ => trivial
    refine wp_mono still ?_ (fun _ _ _ => trivial) fun _ _ => trivial
    rintro - t ⟨rfl, -⟩
    refine wp_mono (keeps_recompute stormy_still) ?_ (fun _ _ _ => trivial) fun _ _ => trivial
    rintro count u ⟨step, done⟩ sku date
    have after : u.Settled t.margins sku date := full_settled step done
    have dueAfter : u.due sku date = t.due sku date := due_congr step.series step.products step.prices
    rw [Db.Settled, after, settled sku date, dueAfter]
    cases t.due sku date with
    | none => rfl
    | some row => rfl
  | some since =>
    refine wp_mono (keeps_pull (I := Grows db) (fun _ _ _ value h => h.putPrice value) (Grows.refl db) first) ?_
      (fun _ _ _ => trivial) fun _ _ => trivial
    rintro _ t ⟨grows, pulled⟩
    refine wp_mono (keeps_recompute stormy_still) ?_ (fun _ _ _ => trivial) fun _ _ => trivial
    rintro count u ⟨step, done⟩ sku date
    exact pulled_settled pulled grows step (done sku date) (settled sku date)

/-- The margins that a full recompute makes of some earlier table stay what it makes of that table. -/
theorem pull_full (order : Scan Observation) (observations : List Observation) {count : Nat} (full : db.FullFrom before)
    (succeeds : (pull order observations).eval db = (.ok count, t)) : t.FullFrom before := by
  have ran := @wp_run _ _ _ _ _ _ _ [] (keeps_pulled order observations (fullFrom_iff.mp full)) (by simp)
  rw [Prog.run_nil, succeeds] at ran
  exact fullFrom_iff.mpr ran

end

def salmonSeries : List MarketSeries :=
  [⟨text "SALMON_NOK_KG", text "NOK", by decide, by decide⟩, ⟨freightSeriesCode, text "USD", by decide, by decide⟩,
    ⟨fxSeriesCode, text "NOK", by decide, by decide⟩]

def unpriced : Db where
  series := (Keyed.empty : Keyed MarketSeries.seriesCode).putAll salmonSeries
  products := (Keyed.empty : Keyed Product.sku).put
    ⟨text "SLM-001", text "SALMON_NOK_KG", ⟨13623, -4⟩, ⟨15033, -4⟩, ⟨1311, -2⟩, ⟨3265, -2⟩⟩
  prices _ := ∅
  margins _ := ∅
  syncRuns := []

def firstPull : List Observation :=
  [⟨text "SALMON_NOK_KG", text "2024-08-01", ⟨86950439, -6⟩⟩, ⟨freightSeriesCode, text "2024-08-01", ⟨3138320337, -6⟩⟩,
    ⟨fxSeriesCode, text "2024-08-01", ⟨10514837, -6⟩⟩, ⟨text "SALMON_NOK_KG", text "2024-08-03", ⟨87, 0⟩⟩]

/-- A rate between the dates of two prices, the later of which it is carried to. -/
def ratePull : List Observation := [⟨fxSeriesCode, text "2024-08-02", ⟨11, 0⟩⟩]

def firstPulled : Db := ((pull .asStored firstPull).eval unpriced).2

def ratePulled : Db := ((pull .asStored ratePull).eval firstPulled).2

theorem rate_pull_full : ratePulled.FullFrom (fun _ => ∅) ∧
    (ratePulled.margins (text "SLM-001"))[text "2024-08-03"]? ≠ (firstPulled.margins (text "SLM-001"))[text "2024-08-03"]? := by
  have priced : (pull .asStored firstPull).eval unpriced = (.ok 1, firstPulled) := Prod.ext (by decide +kernel) rfl
  have rated : (pull .asStored ratePull).eval firstPulled = (.ok 1, ratePulled) := Prod.ext (by decide +kernel) rfl
  have start : unpriced.FullFrom fun _ => ∅ := ⟨1, rfl⟩
  exact ⟨pull_full .asStored ratePull (pull_full .asStored firstPull start priced) rated, by decide +kernel⟩

end OtterWorks.Analytics
