import OtterWorks.Lib.Fallible
import OtterWorks.Lib.Groups
import OtterWorks.Lib.IsoDate
import Mathlib.Data.List.Sort

namespace OtterWorks.Analytics

/-- A `Long` wraps around. -/
def long (n : Int) : Int := n.bmod (2 ^ 64)

/-- `java.time.Instant`. -/
structure Instant where
  epochSecond : Int
  nano : Nat
  inSecond : nano < 1000000000

namespace Instant

/-- `Instant.ofEpochSecond`, with nanoseconds of any size and sign. -/
def ofEpochSecond (epochSecond nanoAdjustment : Int) : Instant where
  epochSecond := epochSecond + nanoAdjustment / 1000000000
  nano := (nanoAdjustment % 1000000000).toNat
  inSecond := by omega

/-- `LocalDate` in UTC, as days since 1970-01-01. -/
def localDate (i : Instant) : Int := i.epochSecond / 86400

end Instant

def toEpochNanos (i : Instant) : Int := long (long (i.epochSecond * 1000000000) + i.nano)

def fromEpochNanos (n : Int) : Instant := .ofEpochSecond (n.tdiv 1000000000) (n.tmod 1000000000)

structure AnalyticsEvent (Metadata : Type) where
  eventId : Text
  eventType : Text
  userId : Text
  resourceId : Text
  resourceType : Text
  metadata : Metadata
  timestamp : Instant

def dateOf {M : Type} (event : AnalyticsEvent M) : Int := event.timestamp.localDate

namespace EventType

def documentCreated : Text := text "document.created"

def documentViewed : Text := text "document.viewed"

def documentEdited : Text := text "document.edited"

def fileUploaded : Text := text "file.uploaded"

def fileDownloaded : Text := text "file.downloaded"

def collabSessionStarted : Text := text "collab.session_started"

def storageAllocated : Text := text "storage.allocated"

def storageReleased : Text := text "storage.released"

end EventType

/-- The string maps that events carry, and the library that writes them as JSON and reads them back. -/
structure MetadataFormat (Metadata : Type) where
  empty : Metadata
  get : Metadata → Text → Option Text
  compactPrint : Metadata → Text
  parseJson : Text → Option Metadata
  parseJson_compactPrint : ∀ m, parseJson (compactPrint m) = some m
  compactPrint_ne_nil : ∀ m, compactPrint m ≠ []

structure EventRow where
  eventId : Text
  eventType : Text
  userId : Text
  resourceId : Text
  resourceType : Text
  metadata : Text
  occurredAt : Int

structure DailyMetric where
  eventDate : Text
  eventType : Text
  eventCount : Nat
  deriving DecidableEq, Repr

/-- `analytics_events` in the order of its ids, and `analytics_daily_metrics`. -/
structure EventStore where
  events : List EventRow
  daily : List DailyMetric

/-- A text column keeps every text without a NUL. -/
def textColumn (s : Text) : Option Text := if s.any fun c => c.toNat = 0 then none else some s

/-- `VARCHAR(n)`: of a text that is too long only blanks are cut off. -/
def varchar (n : Nat) (s : Text) : Option Text :=
  if (s.drop n).all (· = ' ') then textColumn (s.take n) else none

def maxLong : Nat := 2 ^ 63 - 1

/-- The upsert of a count: it starts at 1, and fails past the last `BIGINT`. -/
def countUp (eventDate eventType : Text) : List DailyMetric → Option (List DailyMetric)
  | [] => some [⟨eventDate, eventType, 1⟩]
  | row :: rows =>
    if row.eventDate = eventDate ∧ row.eventType = eventType then
      if row.eventCount < maxLong then some ({ row with eventCount := row.eventCount + 1 } :: rows) else none
    else (countUp eventDate eventType rows).map (row :: ·)

section

variable {M : Type} (format : MetadataFormat M)

def decodeMetadata (s : Text) : Option M := if s.isEmpty then some format.empty else format.parseJson s

def EventRow.event (row : EventRow) : Option (AnalyticsEvent M) := do
  let metadata ← decodeMetadata format row.metadata
  some ⟨row.eventId, row.eventType, row.userId, row.resourceId, row.resourceType, metadata, fromEpochNanos row.occurredAt⟩

namespace EventStore

def empty : EventStore := ⟨[], []⟩

def loadAll (store : EventStore) : Option (List (AnalyticsEvent M)) := store.events.mapM (EventRow.event format)

def insertEvent (store : EventStore) (event : AnalyticsEvent M) : Option EventStore := do
  let eventId ← varchar 64 event.eventId
  let eventType ← varchar 64 event.eventType
  let userId ← varchar 128 event.userId
  let resourceId ← varchar 128 event.resourceId
  let resourceType ← varchar 64 event.resourceType
  let metadata ← textColumn (format.compactPrint event.metadata)
  if store.events.any fun row => row.eventId = eventId then none
  else
    let row := ⟨eventId, eventType, userId, resourceId, resourceType, metadata, toEpochNanos event.timestamp⟩
    some { store with events := store.events ++ [row] }

def upsertRollup (store : EventStore) (day eventType : Text) : Option EventStore := do
  let eventDate ← IsoDate.cast day
  let eventType ← varchar 64 eventType
  let daily ← countUp eventDate eventType store.daily
  some { store with daily := daily }

/-- The transaction of `storeEvent`, which fails as a whole. -/
def storeEvent (store : EventStore) (event : AnalyticsEvent M) : Option EventStore := do
  let inserted ← store.insertEvent format event
  inserted.upsertRollup (IsoDate.print event.timestamp.localDate) event.eventType

/-- `getDailyMetrics`; how event types are ordered is up to the collation of the database. -/
def getDailyMetrics (collation : Text → Text → Bool) (store : EventStore) : List DailyMetric :=
  store.daily.insertionSort fun a b =>
    compare a.eventDate b.eventDate = .lt ∨ a.eventDate = b.eventDate ∧ collation a.eventType b.eventType

end EventStore

/-- A call of `storeEvent`, and whether its transaction gets through: the connection may fail at any time. -/
structure StoreCall (M : Type) where
  event : AnalyticsEvent M
  commits : Bool

namespace EventStore

def call (store : EventStore) (c : StoreCall M) : EventStore :=
  if c.commits then (store.storeEvent format c.event).getD store else store

/-- The store after some calls. -/
def after (calls : List (StoreCall M)) : EventStore := calls.foldl (call format) empty

/-- The events that some calls add to a store. -/
def kept (store : EventStore) : List (StoreCall M) → List (AnalyticsEvent M)
  | [] => []
  | c :: calls =>
    if c.commits ∧ (store.storeEvent format c.event).isSome then c.event :: (store.call format c).kept calls
    else (store.call format c).kept calls

end EventStore

end

theorem long_add_long (a b : Int) : long (long a + b) = long (a + b) := Int.bmod_add_bmod

theorem long_sub_long (a b : Int) : long (long a - b) = long (a - b) := Int.bmod_sub_bmod

theorem long_bounds (n : Int) : -2 ^ 63 ≤ long n ∧ long n < 2 ^ 63 :=
  ⟨Int.le_bmod (by decide), Int.bmod_lt (by decide)⟩

namespace Instant

variable {i : Instant}

/-- Nanoseconds since 1970, without a bound. -/
def nanos (i : Instant) : Int := i.epochSecond * 1000000000 + i.nano

/-- The nanoseconds are those of a `Long`. -/
def Fits (i : Instant) : Prop := -2 ^ 63 ≤ i.nanos ∧ i.nanos < 2 ^ 63

instance (i : Instant) : Decidable i.Fits := inferInstanceAs (Decidable (_ ∧ _))

/-- 1677-09-21, the day of the least `Long`. -/
def firstDay : Int := -106752

/-- 2262-04-11, the day of the greatest. -/
def lastDay : Int := 106751

/-- The instant as it is loaded. -/
def loaded (i : Instant) : Instant := fromEpochNanos (toEpochNanos i)

theorem localDate_eq (i : Instant) : i.localDate = i.nanos / 86400000000000 := by
  have inSecond := i.inSecond
  unfold localDate nanos
  omega

theorem toEpochNanos_eq (i : Instant) : toEpochNanos i = long i.nanos := long_add_long _ _

theorem nanos_fromEpochNanos (n : Int) : (fromEpochNanos n).nanos = n := by
  have split := Int.mul_tdiv_add_tmod n 1000000000
  unfold fromEpochNanos ofEpochSecond nanos
  dsimp only
  omega

theorem nanos_loaded (i : Instant) : i.loaded.nanos = long i.nanos := by
  rw [loaded, nanos_fromEpochNanos, toEpochNanos_eq]

theorem loaded_localDate_of_fits (fits : i.Fits) : i.loaded.localDate = i.localDate := by
  have same : long i.nanos = i.nanos := Int.bmod_eq_of_le fits.1 fits.2
  rw [localDate_eq, localDate_eq, nanos_loaded, same]

theorem loaded_localDate_range (i : Instant) : firstDay ≤ i.loaded.localDate ∧ i.loaded.localDate ≤ lastDay := by
  have bounds := long_bounds i.nanos
  rw [localDate_eq, nanos_loaded]
  unfold firstDay lastDay
  omega

/-- What does not fit comes back on another day, and the two days at the ends change places. -/
theorem loaded_localDate_of_not_fits (far : ¬i.Fits) : i.loaded.localDate ≠ i.localDate ∧
    (i.localDate ≤ firstDay ∨ lastDay ≤ i.localDate) ∧ (i.localDate = firstDay → i.loaded.localDate = lastDay) ∧
      (i.localDate = lastDay → i.loaded.localDate = firstDay) := by
  have bounds := long_bounds i.nanos
  obtain ⟨turns, turn⟩ : ∃ turns, i.nanos = long i.nanos + 18446744073709551616 * turns := by
    obtain ⟨turns, same⟩ := Int.dvd_self_sub_bmod (x := i.nanos) (m := 2 ^ 64)
    refine ⟨turns, ?_⟩
    rw [long]
    omega
  rw [localDate_eq, localDate_eq, nanos_loaded]
  unfold Fits at far
  unfold firstDay lastDay
  omega

end Instant

/-! What a run of calls leaves in the store. -/

section

variable {M : Type} {format : MetadataFormat M} {store store' : EventStore} {seen : List (AnalyticsEvent M)}
  {e : AnalyticsEvent M}

/-- The event as it is loaded. -/
def AnalyticsEvent.loaded (e : AnalyticsEvent M) : AnalyticsEvent M :=
  ⟨e.eventId.take 64, e.eventType.take 64, e.userId.take 128, e.resourceId.take 128, e.resourceType.take 64, e.metadata,
    e.timestamp.loaded⟩

theorem textColumn_eq {s t : Text} (h : textColumn s = some t) : t = s := by
  rw [textColumn] at h
  split at h
  next => cases h
  next => exact (Option.some.inj h).symm

theorem varchar_eq {n : Nat} {s t : Text} (h : varchar n s = some t) : t = s.take n := by
  rw [varchar] at h
  split at h
  next => exact textColumn_eq h
  next => cases h

theorem cast_print {days : Int} {d : Text} (h : IsoDate.cast (IsoDate.print days) = some d) :
    d = IsoDate.print days ∧ IsoDate.FourDigits days := by
  refine ⟨?_, IsoDate.FourDigits.of_cast (by rw [h]; rfl)⟩
  rw [IsoDate.cast] at h
  obtain ⟨c, -, h⟩ := Option.bind_eq_some_iff.mp h
  obtain ⟨-, same⟩ := Option.ite_none_right_eq_some.mp h
  exact (Option.some.inj same).symm

/-- An upsert adds 1 to the count of its date and type, in whatever groups counts are added up. -/
theorem groupTotal_countUp {ν : Type} [DecidableEq ν] {f : Text × Text → ν} {n : ν} {rows rows' : List DailyMetric}
    {date type : Text} (h : countUp date type rows = some rows') :
    groupTotal (fun row => f (row.eventDate, row.eventType)) DailyMetric.eventCount n rows' =
      groupTotal (fun row => f (row.eventDate, row.eventType)) DailyMetric.eventCount n rows +
        if f (date, type) = n then 1 else 0 := by
  induction rows generalizing rows' with
  | nil =>
    cases Option.some.inj h
    rw [groupTotal_cons]
    exact Nat.add_comm _ _
  | cons row rows ih =>
    rw [countUp] at h
    split at h
    next here =>
      obtain ⟨-, same⟩ := Option.ite_none_right_eq_some.mp h
      cases Option.some.inj same
      obtain ⟨rfl, rfl⟩ := here
      rw [groupTotal_cons, groupTotal_cons]
      split
      next => exact Nat.add_right_comm _ _ _
      next => rfl
    next =>
      obtain ⟨rest, counted, rfl⟩ := Option.map_eq_some_iff.mp h
      rw [groupTotal_cons, groupTotal_cons, ih counted, Nat.add_assoc]

/-- The store holds some events, and counts each under its day. -/
structure Recorded (format : MetadataFormat M) (store : EventStore) (seen : List (AnalyticsEvent M)) : Prop where
  rows : List.Forall₂ (fun row e => EventRow.event format row = some e.loaded) store.events seen
  counts : ∀ {ν : Type} [DecidableEq ν] (f : Text × Text → ν) (n : ν),
    groupTotal (fun row => f (row.eventDate, row.eventType)) DailyMetric.eventCount n store.daily =
      (inGroup (fun e => f (IsoDate.print (dateOf e), e.eventType.take 64)) n seen).length
  dates : ∀ e ∈ seen, IsoDate.FourDigits (dateOf e)

theorem recorded_empty : Recorded format .empty ([] : List (AnalyticsEvent M)) :=
  ⟨.nil, fun _ _ => rfl, fun _ member => by cases member⟩

theorem Recorded.loadAll (h : Recorded format store seen) : store.loadAll format = some (seen.map AnalyticsEvent.loaded) :=
  mapM_some.mpr (List.forall₂_map_right_iff.mpr h.rows)

/-- What an insert adds. -/
theorem insertEvent_some (h : store.insertEvent format e = some store') :
    store'.daily = store.daily ∧ ∃ row, store'.events = store.events ++ [row] ∧ EventRow.event format row = some e.loaded := by
  unfold EventStore.insertEvent at h
  obtain ⟨eventId, h1, h⟩ := Option.bind_eq_some_iff.mp h
  obtain ⟨eventType, h2, h⟩ := Option.bind_eq_some_iff.mp h
  obtain ⟨userId, h3, h⟩ := Option.bind_eq_some_iff.mp h
  obtain ⟨resourceId, h4, h⟩ := Option.bind_eq_some_iff.mp h
  obtain ⟨resourceType, h5, h⟩ := Option.bind_eq_some_iff.mp h
  obtain ⟨metadata, h6, h⟩ := Option.bind_eq_some_iff.mp h
  obtain ⟨-, same⟩ := Option.ite_none_left_eq_some.mp h
  rw [← Option.some.inj same]
  refine ⟨rfl, _, rfl, ?_⟩
  have nonempty : (format.compactPrint e.metadata).isEmpty = false := List.isEmpty_eq_false_iff.mpr (format.compactPrint_ne_nil _)
  rw [varchar_eq h1, varchar_eq h2, varchar_eq h3, varchar_eq h4, varchar_eq h5, textColumn_eq h6]
  simp [EventRow.event, decodeMetadata, nonempty, format.parseJson_compactPrint, AnalyticsEvent.loaded, Instant.loaded]

/-- What an upsert changes. -/
theorem upsertRollup_some {day type : Text} (h : store.upsertRollup day type = some store') :
    store'.events = store.events ∧
      ∃ date, IsoDate.cast day = some date ∧ countUp date (type.take 64) store.daily = some store'.daily := by
  unfold EventStore.upsertRollup at h
  obtain ⟨date, cast, h⟩ := Option.bind_eq_some_iff.mp h
  obtain ⟨kind, column, h⟩ := Option.bind_eq_some_iff.mp h
  obtain ⟨daily, counted, h⟩ := Option.bind_eq_some_iff.mp h
  rw [← Option.some.inj h]
  rw [varchar_eq column] at counted
  exact ⟨rfl, date, cast, counted⟩

theorem Recorded.storeEvent (recorded : Recorded format store seen) (h : store.storeEvent format e = some store') :
    Recorded format store' (seen ++ [e]) := by
  obtain ⟨inserted, first, second⟩ := Option.bind_eq_some_iff.mp h
  obtain ⟨daily, row, events, loads⟩ := insertEvent_some first
  obtain ⟨events', date, cast, counted⟩ := upsertRollup_some second
  obtain ⟨rfl, four⟩ := cast_print cast
  rw [events] at events'
  rw [daily] at counted
  constructor
  · rw [events']
    exact List.rel_append recorded.rows (.cons loads .nil)
  · intro ν _ f n
    rw [groupTotal_countUp counted, recorded.counts, length_inGroup_concat]
    rfl
  · intro e' member
    rcases List.mem_append.mp member with old | new
    · exact recorded.dates e' old
    · rw [List.mem_singleton.mp new]
      exact four

theorem Recorded.calls (recorded : Recorded format store seen) (calls : List (StoreCall M)) :
    Recorded format (calls.foldl (EventStore.call format) store) (seen ++ store.kept format calls) := by
  induction calls generalizing store seen with
  | nil => rwa [EventStore.kept, List.append_nil]
  | cons c calls ih =>
    rw [List.foldl_cons, EventStore.kept]
    split
    next done =>
      obtain ⟨store', stored⟩ := Option.isSome_iff_exists.mp done.2
      have next : store.call format c = store' := by
        rw [EventStore.call, if_pos done.1, stored]
        rfl
      have := ih (recorded.storeEvent stored)
      rwa [List.append_assoc, ← next] at this
    next failed =>
      have same : store.call format c = store := by
        rw [EventStore.call]
        split
        next commits =>
          rw [Option.not_isSome_iff_eq_none.mp fun stored => failed ⟨commits, stored⟩]
          rfl
        next => rfl
      rw [same]
      exact ih recorded

theorem recorded_after (calls : List (StoreCall M)) :
    Recorded format (.after format calls) (EventStore.empty.kept format calls) :=
  recorded_empty.calls calls

end

end OtterWorks.Analytics
