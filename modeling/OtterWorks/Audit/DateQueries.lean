import OtterWorks.Audit.Archiver
import OtterWorks.Audit.DateTimes

namespace OtterWorks.Audit

/-- `DateTime` on a machine in some time zone. -/
def dateText (zone : Int → UtcOffset) : DateText DateTime :=
  ⟨DateTime.text, DateTime.parse zone, .minValue, fun a b => decide (a.ticks ≤ b.ticks)⟩

abbrev Event := AuditEvent Text DateTime

/-- What `QueryEventsAsync` is asked for, apart from the page. -/
structure EventFilter where
  userId : Option Text
  action : Option Text
  resourceType : Option Text
  resourceId : Option Text
  fromDate : Option DateTime
  toDate : Option DateTime

/-- `#uid = :uid` and its like, which are left out for an argument that is null or empty. -/
def wanted (argument kept : Option Text) : Bool := argument.all fun s => s.isEmpty || kept == some s

structure AuditEventPage where
  events : List Event
  total : Nat
  page : Int
  pageSize : Int

namespace EventFilter

def fields (filter : EventFilter) (item : Item Text) : Bool :=
  wanted filter.userId item.userId && wanted filter.action item.action &&
    wanted filter.resourceType item.resourceType && wanted filter.resourceId item.resourceId

/-- The filter expression of `QueryEventsAsync`. -/
def accepts (filter : EventFilter) (item : Item Text) : Bool :=
  filter.fields item &&
    (filter.fromDate.all (fun t => item.timestamp.any fun ts => (compare t.text ts).isLE) &&
      filter.toDate.all (fun t => item.timestamp.any fun ts => (compare ts t.text).isLE))

/-- Between two dates, with nothing else asked for. -/
def range (fromDate toDate : DateTime) : EventFilter := ⟨none, none, none, none, some fromDate, some toDate⟩

end EventFilter

/-- The loop over the pages of a scan. -/
def scanEvents {Id Time : Type} (format : DateText Time) (filter : Item Id → Bool) (pages : List (List (Item Id))) :
    List (AuditEvent Id Time) :=
  pages.foldl (fun allEvents page => allEvents ++ (page.filter filter).map (mapToAuditEvent format)) []

/-- `OrderByDescending(e => e.Timestamp)`. -/
def newestFirst {Id Time : Type} (format : DateText Time) (events : List (AuditEvent Id Time)) : List (AuditEvent Id Time) :=
  events.insertionSort fun a b => format.le b.timestamp a.timestamp = true

/-- The events that `QueryEventsAsync` finds. -/
def allEvents (zone : Int → UtcOffset) (pages : List (List (Item Text))) (filter : EventFilter) : List Event :=
  newestFirst (dateText zone) (scanEvents (dateText zone) filter.accepts pages)

/-- C#'s `int` product wraps around. -/
def queryEventsAsync (zone : Int → UtcOffset) (pages : List (List (Item Text))) (filter : EventFilter) (page pageSize : Int) :
    AuditEventPage :=
  let allEvents := allEvents zone pages filter
  let skipped := ((page - 1) * pageSize).bmod (2 ^ 32)
  ⟨(allEvents.drop skipped.toNat).take pageSize.toNat, allEvents.length, page, pageSize⟩

def getEventsByDateRangeAsync (zone : Int → UtcOffset) (pages : List (List (Item Text))) (fromDate toDate : DateTime) :
    List Event :=
  newestFirst (dateText zone) (scanEvents (dateText zone) (Item.within fromDate.text toDate.text) pages)

/-- The saved events, each under its id. -/
abbrev EventTable := Keyed (AuditEvent.id : Event → Text)

/-- `SaveEventAsync`. -/
def EventTable.save (table : EventTable) (e : Event) : EventTable := table.put e

/-- The pages in which a scan may return the table. -/
def EventTable.Scanned (table : EventTable) (pages : List (List Event)) : Prop := pages.flatten.Perm table.list

def itemPages (zone : Int → UtcOffset) (pages : List (List Event)) : List (List (Item Text)) :=
  pages.map fun page => page.map fun e => e.item (dateText zone)

/-- The event as it is read back. -/
def readBack (zone : Int → UtcOffset) (e : Event) : Event := mapToAuditEvent (dateText zone) (e.item (dateText zone))

/-- The answer is made of the given events, the newest first. -/
def Newest (zone : Int → UtcOffset) (events answer : List Event) : Prop :=
  ∃ l : List Event, l.Perm events ∧ l.Pairwise (fun a b => b.timestamp.instant ≤ a.timestamp.instant) ∧ answer = l.map (readBack zone)

namespace EventFilter

/-- The events asked for: their instants lie in the range. -/
def selects (filter : EventFilter) (zone : Int → UtcOffset) (e : Event) : Bool :=
  filter.fields (e.item (dateText zone)) &&
    (filter.fromDate.all (fun t => t.instant ≤ e.timestamp.instant) && filter.toDate.all fun t => e.timestamp.instant ≤ t.instant)

/-- Every scan of the table finds the events asked for, and consecutive pages give them one after the other. -/
def Chronological (filter : EventFilter) (zone : Int → UtcOffset) (table : EventTable) : Prop :=
  ∀ pages, table.Scanned pages →
    Newest zone (table.list.filter (filter.selects zone)) (allEvents zone (itemPages zone pages) filter) ∧
      ∀ last pageSize : Nat, last * pageSize < 2 ^ 31 →
        ((List.range last).map fun p : Nat => (queryEventsAsync zone (itemPages zone pages) filter ((p : Int) + 1) pageSize).events).flatten =
          (allEvents zone (itemPages zone pages) filter).take (last * pageSize)

end EventFilter

/-- What the clock shows of a time once it is read back. -/
def DateTime.shown (zone : Int → UtcOffset) (t : DateTime) : Nat := ((t.toLocal zone).getD .minValue).ticks

/-- One reading of the clock is not after another; of equal ones the suffixes decide. -/
def DateTime.readsBefore (a b : DateTime) : Bool := a.ticks < b.ticks || a.ticks == b.ticks && (compare a.suffix b.suffix).isLE

/-- Clocks order the events and the ends of the range as their instants do. -/
structure EventFilter.ClocksAgree (filter : EventFilter) (zone : Int → UtcOffset) (table : EventTable) : Prop where
  bounds : ∀ e ∈ table.list, filter.fields (e.item (dateText zone)) = true →
    ((filter.fromDate.all (fun t => t.readsBefore e.timestamp) && filter.toDate.all fun t => e.timestamp.readsBefore t) = true ↔
      (filter.fromDate.all (fun t => t.instant ≤ e.timestamp.instant) && filter.toDate.all fun t => e.timestamp.instant ≤ t.instant) = true)
  order : ∀ a ∈ table.list, ∀ b ∈ table.list, filter.selects zone a = true → filter.selects zone b = true →
    a.timestamp.shown zone ≤ b.timestamp.shown zone → a.timestamp.instant ≤ b.timestamp.instant

section

variable {zone : Int → UtcOffset} {table : EventTable} {filter : EventFilter} {pages : List (List Event)}

theorem readBack_id (e : Event) : (readBack zone e).id = e.id := rfl

theorem readBack_ticks (e : Event) : (readBack zone e).timestamp.ticks = e.timestamp.shown zone := by
  change (((some e.timestamp.text).bind (DateTime.parse zone)).getD DateTime.minValue).ticks = _
  rw [Option.bind_some, DateTime.parse_text, DateTime.shown]

/-- A scan in pages finds what a scan in one piece finds. -/
theorem scanEvents_flatten {Id Time : Type} (format : DateText Time) (filter : Item Id → Bool) (pages : List (List (Item Id))) :
    scanEvents format filter pages = (pages.flatten.filter filter).map (mapToAuditEvent format) := by
  have loop (events : List (AuditEvent Id Time)) :
      pages.foldl (fun allEvents page => allEvents ++ (page.filter filter).map (mapToAuditEvent format)) events =
        events ++ (pages.flatten.filter filter).map (mapToAuditEvent format) := by
    induction pages generalizing events with
    | nil => simp
    | cons page pages ih =>
      rw [List.foldl_cons, ih, List.flatten_cons, List.filter_append, List.map_append, List.append_assoc]
  exact loop []

/-- What a query finds, sorted by what the clocks show. -/
theorem newest_scanned (accepts : Item Text → Bool) (pages : List (List Event)) :
    newestFirst (dateText zone) (scanEvents (dateText zone) accepts (itemPages zone pages)) =
      ((pages.flatten.filter fun e => accepts (e.item (dateText zone))).insertionSort
        fun a b => b.timestamp.shown zone ≤ a.timestamp.shown zone).map (readBack zone) := by
  have found : scanEvents (dateText zone) accepts (itemPages zone pages) =
      (pages.flatten.filter fun e => accepts (e.item (dateText zone))).map (readBack zone) := by
    rw [scanEvents_flatten, itemPages, ← List.map_flatten, List.filter_map, List.map_map]
    rfl
  rw [found, newestFirst]
  symm
  apply List.map_insertionSort
  intro a _ b _
  change _ ↔ decide ((readBack zone b).timestamp.ticks ≤ (readBack zone a).timestamp.ticks) = true
  rw [readBack_ticks, readBack_ticks, decide_eq_true_eq]

theorem accepts_item (e : Event) : filter.accepts (e.item (dateText zone)) =
    (filter.fields (e.item (dateText zone)) &&
      (filter.fromDate.all (fun t => t.readsBefore e.timestamp) && filter.toDate.all fun t => e.timestamp.readsBefore t)) := by
  have text (a b : DateTime) : (compare a.text b.text).isLE = a.readsBefore b := by
    rw [Bool.eq_iff_iff, DateTime.text_le_iff]
    simp [DateTime.readsBefore]
  have stamp : (e.item (dateText zone)).timestamp = some e.timestamp.text := rfl
  simp only [EventFilter.accepts, stamp, Option.any_some, text]

theorem eq_of_id {a b : Event} (ha : a ∈ table.list) (hb : b ∈ table.list) (same : a.id = b.id) : a = b := by
  have found := Keyed.mem_list.mp ha
  rw [same, Keyed.mem_list.mp hb] at found
  exact (Option.some.inj found).symm

/-- Every scan is answered with the events selected, the newest first, exactly if the filter accepts just these and the
clocks order them. -/
theorem newest_iff {accepts : Item Text → Bool} {selects : Event → Bool} :
    (∀ pages, table.Scanned pages →
      Newest zone (table.list.filter selects)
        (newestFirst (dateText zone) (scanEvents (dateText zone) accepts (itemPages zone pages)))) ↔
    (∀ e ∈ table.list, accepts (e.item (dateText zone)) = selects e) ∧
      ∀ a ∈ table.list, ∀ b ∈ table.list, selects a = true → selects b = true →
        a.timestamp.shown zone ≤ b.timestamp.shown zone → a.timestamp.instant ≤ b.timestamp.instant := by
  constructor
  · intro answered
    have agree : ∀ e ∈ table.list, accepts (e.item (dateText zone)) = selects e := by
      intro e member
      obtain ⟨l, perm, -, answer⟩ := answered [table.list] (by simp [EventTable.Scanned])
      rw [newest_scanned] at answer
      have ids : e.id ∈ (table.list.filter fun e => accepts (e.item (dateText zone))).map AuditEvent.id ↔
          e.id ∈ (table.list.filter selects).map AuditEvent.id := by
        have names := congrArg (List.map AuditEvent.id) answer
        rw [List.map_map, List.map_map] at names
        rw [← (perm.map AuditEvent.id).mem_iff]
        change _ ↔ e.id ∈ l.map (AuditEvent.id ∘ readBack zone)
        rw [← names, List.flatten_singleton]
        exact ((List.perm_insertionSort _ _).map AuditEvent.id).mem_iff.symm
      have only (p : Event → Bool) : e.id ∈ (table.list.filter p).map AuditEvent.id ↔ p e = true := by
        rw [List.mem_map]
        constructor
        · rintro ⟨x, held, same⟩
          obtain ⟨listed, passes⟩ := List.mem_filter.mp held
          rwa [← eq_of_id listed member same]
        · intro passes
          exact ⟨e, List.mem_filter.mpr ⟨member, passes⟩, rfl⟩
      rw [only, only] at ids
      exact Bool.eq_iff_iff.mpr ids
    refine ⟨agree, ?_⟩
    intro a ha b hb wanted wanted' shown
    by_cases same : a = b
    · rw [same]
    · -- A scan that comes upon the later reading first.
      have split : ([b, a] ++ (table.list.erase b).erase a).Perm table.list := by
        have left : a ∈ table.list.erase b := (List.mem_erase_of_ne same).mpr ha
        exact ((List.perm_cons_erase left).symm.cons b).trans (List.perm_cons_erase hb).symm
      obtain ⟨l, perm, sorted, answer⟩ := answered [[b, a], (table.list.erase b).erase a] (by simpa [EventTable.Scanned] using split)
      rw [newest_scanned] at answer
      have front : [b, a].Sublist ([[b, a], (table.list.erase b).erase a].flatten.filter fun e => accepts (e.item (dateText zone))) := by
        have kept : [b, a].filter (fun e => accepts (e.item (dateText zone))) = [b, a] := by
          simp [agree a ha, agree b hb, wanted, wanted']
        rw [List.flatten_cons, List.filter_append, kept]
        exact List.sublist_append_left ..
      have placed := (List.pair_sublist_insertionSort (r := fun x y : Event => y.timestamp.shown zone ≤ x.timestamp.shown zone) shown front).map (readBack zone)
      rw [answer] at placed
      obtain ⟨l', below, image⟩ := List.sublist_map_iff.mp placed
      have names := congrArg (List.map AuditEvent.id) image
      have listed : ∀ x ∈ l', x ∈ table.list := fun x hx => (List.mem_filter.mp (perm.subset (below.subset hx))).1
      have pair := sorted.sublist below
      have two : l'.length = 2 := by
        have lengths := congrArg List.length image
        rw [List.length_map, List.length_map] at lengths
        exact lengths.symm
      obtain ⟨x, y, rfl⟩ := List.length_eq_two.mp two
      simp only [List.map_cons, List.map_nil, List.cons.injEq, readBack_id, and_true] at names
      cases eq_of_id (listed x (by simp)) hb names.1.symm
      cases eq_of_id (listed y (by simp)) ha names.2.symm
      exact (List.pairwise_cons.mp pair).1 a (by simp)
  · rintro ⟨agree, order⟩ pages scanned
    rw [newest_scanned]
    refine ⟨_, ?_, ?_, rfl⟩
    · refine (List.perm_insertionSort _ _).trans ((scanned.filter _).trans ?_)
      rw [List.filter_congr agree]
    · have total : Std.Total fun x y : Event => y.timestamp.shown zone ≤ x.timestamp.shown zone := ⟨fun x y => le_total _ _⟩
      have trans : IsTrans Event fun x y => y.timestamp.shown zone ≤ x.timestamp.shown zone :=
        ⟨fun x y z first second => le_trans second first⟩
      have sorted := List.pairwise_insertionSort (fun x y : Event => y.timestamp.shown zone ≤ x.timestamp.shown zone)
        (pages.flatten.filter fun e => accepts (e.item (dateText zone)))
      refine sorted.imp_of_mem ?_
      intro x y hx hy le
      have found (e : Event) (he : e ∈ List.insertionSort (fun x y : Event => y.timestamp.shown zone ≤ x.timestamp.shown zone)
          (pages.flatten.filter fun e => accepts (e.item (dateText zone)))) : e ∈ table.list ∧ selects e = true := by
        obtain ⟨held, passes⟩ := List.mem_filter.mp ((List.perm_insertionSort _ _).subset he)
        have listed := scanned.subset held
        rw [agree e listed] at passes
        exact ⟨listed, passes⟩
      exact order y (found y hy).1 x (found x hx).1 (found y hy).2 (found x hx).2 le

/-- Consecutive pages are the slices of what the query finds. -/
theorem pages_flatten (items : List (List (Item Text))) {last pageSize : Nat} (small : last * pageSize < 2 ^ 31) :
    ((List.range last).map fun p : Nat => (queryEventsAsync zone items filter ((p : Int) + 1) pageSize).events).flatten =
      (allEvents zone items filter).take (last * pageSize) := by
  have each : (List.range last).map (fun p : Nat => (queryEventsAsync zone items filter ((p : Int) + 1) pageSize).events) =
      (List.range last).map (pageAt pageSize (allEvents zone items filter)) := by
    refine List.map_congr_left fun p member => ?_
    have before : p * pageSize ≤ last * pageSize := Nat.mul_le_mul_right _ (List.mem_range.mp member).le
    have product : ((p : Int) + 1 - 1) * pageSize = ((p * pageSize : Nat) : Int) := by
      rw [Int.add_sub_cancel, Int.natCast_mul]
    have skipped : ((((p : Int) + 1 - 1) * pageSize).bmod (2 ^ 32)).toNat = p * pageSize := by
      rw [product, Int.bmod_eq_of_le (by omega) (by omega)]
      omega
    simp only [queryEventsAsync]
    rw [skipped, pageAt, Int.toNat_natCast]
  rw [each, flatten_pageAt]

theorem chronological_iff : filter.Chronological zone table ↔ filter.ClocksAgree zone table := by
  have pages : filter.Chronological zone table ↔ ∀ pages, table.Scanned pages →
      Newest zone (table.list.filter (filter.selects zone)) (allEvents zone (itemPages zone pages) filter) :=
    forall₂_congr fun pages scanned => and_iff_left fun last pageSize small => pages_flatten _ small
  refine pages.trans (newest_iff.trans ⟨?_, ?_⟩)
  · rintro ⟨agree, order⟩
    refine ⟨fun e member fields => ?_, order⟩
    have same := agree e member
    rw [accepts_item, EventFilter.selects, fields, Bool.true_and, Bool.true_and] at same
    rw [same]
  · rintro ⟨bounds, order⟩
    refine ⟨fun e member => ?_, order⟩
    rw [accepts_item, EventFilter.selects]
    cases fields : filter.fields (e.item (dateText zone)) with
    | false => rfl
    | true => exact Bool.eq_iff_iff.mpr (bounds e member fields)

/-- The answer of `GetEventsByDateRangeAsync`. -/
def ChronologicalRange (zone : Int → UtcOffset) (table : EventTable) (fromDate toDate : DateTime) : Prop :=
  ∀ pages, table.Scanned pages →
    Newest zone (table.list.filter fun e => fromDate.instant ≤ e.timestamp.instant && e.timestamp.instant ≤ toDate.instant)
      (getEventsByDateRangeAsync zone (itemPages zone pages) fromDate toDate)

theorem within_range (fromDate toDate : DateTime) (item : Item Text) :
    item.within fromDate.text toDate.text = (EventFilter.range fromDate toDate).accepts item := by
  cases stamp : item.timestamp with
  | none => simp [Item.within, EventFilter.accepts, EventFilter.range, stamp]
  | some ts => simp [Item.within, EventFilter.accepts, EventFilter.range, EventFilter.fields, wanted, stamp]

theorem chronologicalRange_iff {fromDate toDate : DateTime} :
    ChronologicalRange zone table fromDate toDate ↔ (EventFilter.range fromDate toDate).ClocksAgree zone table := by
  have accepts : Item.within fromDate.text toDate.text = (EventFilter.range fromDate toDate).accepts :=
    funext fun item => within_range fromDate toDate item
  have selects (e : Event) : (EventFilter.range fromDate toDate).selects zone e =
      (fromDate.instant ≤ e.timestamp.instant && e.timestamp.instant ≤ toDate.instant) := by
    simp [EventFilter.selects, EventFilter.range, EventFilter.fields, wanted]
  rw [← chronological_iff, EventFilter.Chronological]
  refine forall₂_congr fun pages scanned => ?_
  rw [and_iff_left fun last pageSize small => pages_flatten _ small, getEventsByDateRangeAsync, accepts]
  simp only [funext selects]
  rfl

/-- Times of one kind that is not local are in the order of their instants. -/
theorem clocksAgree_of_kind {kind : DateTimeKind} (plain : ∀ offset, kind ≠ .localTime offset)
    (events : ∀ e ∈ table.list, e.timestamp.kind = kind) (fromDate : ∀ t ∈ filter.fromDate, t.kind = kind)
    (toDate : ∀ t ∈ filter.toDate, t.kind = kind) : filter.ClocksAgree zone table := by
  have instant (t : DateTime) (same : t.kind = kind) : t.instant = t.ticks := by
    unfold DateTime.instant
    split
    next offset here => exact absurd (same.symm.trans here) (plain offset)
    next => rfl
  have shown (t : DateTime) (same : t.kind = kind) : t.shown zone = t.ticks := by
    unfold DateTime.shown DateTime.toLocal
    split
    next offset here => exact absurd (same.symm.trans here) (plain offset)
    next => rfl
  have before (a b : DateTime) (left : a.kind = kind) (right : b.kind = kind) :
      a.readsBefore b = decide (a.instant ≤ b.instant) := by
    have suffix : a.suffix = b.suffix := by rw [DateTime.suffix, DateTime.suffix, left, right]
    have equal : (compare b.suffix b.suffix).isLE = true := Std.ReflCmp.isLE_rfl
    rw [DateTime.readsBefore, instant a left, instant b right, suffix, equal, Bool.and_true, Bool.eq_iff_iff]
    simp only [Bool.or_eq_true, decide_eq_true_eq, beq_iff_eq]
    omega
  refine ⟨?_, ?_⟩
  · intro e member _
    have stamp := events e member
    have starts : filter.fromDate.all (fun t => t.readsBefore e.timestamp) =
        filter.fromDate.all fun t => t.instant ≤ e.timestamp.instant := by
      cases first : filter.fromDate with
      | none => rfl
      | some t => exact before t e.timestamp (fromDate t first) stamp
    have ends : filter.toDate.all (fun t => e.timestamp.readsBefore t) =
        filter.toDate.all fun t => e.timestamp.instant ≤ t.instant := by
      cases last : filter.toDate with
      | none => rfl
      | some t => exact before e.timestamp t stamp (toDate t last)
    rw [starts, ends]
  · intro a ha b hb _ _ le
    rw [shown a.timestamp (events a ha), shown b.timestamp (events b hb)] at le
    rw [instant a.timestamp (events a ha), instant b.timestamp (events b hb)]
    omega

/-- Date filters are chronological exactly where the clocks agree with the instants. -/
theorem date_filters_iff (zone : Int → UtcOffset) (table : EventTable) :
    (∀ filter : EventFilter, filter.Chronological zone table ↔ filter.ClocksAgree zone table) ∧
    ∀ fromDate toDate : DateTime,
      ChronologicalRange zone table fromDate toDate ↔ (EventFilter.range fromDate toDate).ClocksAgree zone table :=
  ⟨fun _ => chronological_iff, fun _ _ => chronologicalRange_iff⟩

end

def eastern (_ : Int) : UtcOffset := ⟨120, by decide⟩

/-- Half past one on 2026-01-02 at `+02:00`, which is half an hour before midnight in UTC. -/
def pastMidnight : DateTime := ⟨639029142000000000, .localTime ⟨120, by decide⟩, by decide⟩

def nightLogin : Event := ⟨text "m1", text "u1", text "login", text "user", text "u1", none, none, none, pastMidnight⟩

/-- All of 2026-01-01 in UTC. -/
def newYear : EventFilter := .range ⟨639028224000000000, .utc, by decide⟩ ⟨639029087999999999, .utc, by decide⟩

/-- The event lies in the day, and no query for the day finds it. -/
theorem night_login_missed : ¬ newYear.Chronological eastern (EventTable.save .empty nightLogin) := by
  rw [chronological_iff]
  intro agree
  have bounds := agree.bounds nightLogin (Keyed.mem_list.mpr (by decide +kernel)) (by decide +kernel)
  revert bounds
  decide +kernel

end OtterWorks.Audit
