import OtterWorks.Analytics.EventStore
import Mathlib.Data.List.Dedup

namespace OtterWorks.Analytics

section

variable {M : Type} (format : MetadataFormat M)

/-- `Long.parseLong`, which knows only digits of one UTF-16 unit. -/
def parseLong (s : Text) : Option Int :=
  let (negative, digits) := splitSign s
  if digits ≠ [] ∧ digits.all fun c => isDecimal c && decide (c.toNat < 0x10000) then
    let n := signed negative (digitsValue digits)
    if -2 ^ 63 ≤ n ∧ n < 2 ^ 63 then some n else none
  else none

def bytes (event : AnalyticsEvent M) : Int :=
  (parseLong ((format.get event.metadata (text "bytes")).getD (text "0"))).getD 0

/-! The nightly rollup. -/

structure DailyUsageRollup where
  date : Text
  totalEvents : Nat
  activeUsers : Nat
  documentsCreated : Nat
  documentsViewed : Nat
  documentsEdited : Nat
  filesUploaded : Nat
  filesDownloaded : Nat
  collabSessions : Nat
  storageAllocatedBytes : Int
  storageReleasedBytes : Int
  netStorageBytes : Int
  deriving DecidableEq, Repr

def countOf (events : List (AnalyticsEvent M)) (eventType : Text) : Nat := events.countP fun e => e.eventType = eventType

def storageBytes (events : List (AnalyticsEvent M)) (eventType : Text) : Int :=
  (events.filter fun e => e.eventType = eventType).foldl (fun acc e => long (acc + bytes format e)) 0

def rollupDay (date : Int) (dayEvents : List (AnalyticsEvent M)) : DailyUsageRollup :=
  let allocated := storageBytes format dayEvents EventType.storageAllocated
  let released := storageBytes format dayEvents EventType.storageReleased
  { date := IsoDate.print date
    totalEvents := dayEvents.length
    activeUsers := (dayEvents.map AnalyticsEvent.userId).dedup.length
    documentsCreated := countOf dayEvents EventType.documentCreated
    documentsViewed := countOf dayEvents EventType.documentViewed
    documentsEdited := countOf dayEvents EventType.documentEdited
    filesUploaded := countOf dayEvents EventType.fileUploaded
    filesDownloaded := countOf dayEvents EventType.fileDownloaded
    collabSessions := countOf dayEvents EventType.collabSessionStarted
    storageAllocatedBytes := allocated
    storageReleasedBytes := released
    netStorageBytes := long (allocated - released) }

/-- The days of some events, in their order. -/
def daysOf (events : List (AnalyticsEvent M)) : List Int := (events.map dateOf).dedup.insertionSort (· ≤ ·)

def rollup (events : List (AnalyticsEvent M)) : List DailyUsageRollup :=
  (daysOf events).map fun date => rollupDay format date (inGroup dateOf date events)

/-- What a rollup counts by type. -/
def counted : List (Text × (DailyUsageRollup → Nat)) :=
  [(EventType.documentCreated, DailyUsageRollup.documentsCreated), (EventType.documentViewed, DailyUsageRollup.documentsViewed),
    (EventType.documentEdited, DailyUsageRollup.documentsEdited), (EventType.fileUploaded, DailyUsageRollup.filesUploaded),
    (EventType.fileDownloaded, DailyUsageRollup.filesDownloaded),
    (EventType.collabSessionStarted, DailyUsageRollup.collabSessions)]

/-! The storage usage. -/

structure StorageUsageResponse where
  userId : Option Text
  totalStorageBytes : Int
  filesCount : Nat
  documentsCount : Nat
  breakdownByType : KeyMap Text Int

/-- `totalBytes` of `storageUsage`, before it is clamped. -/
def totalBytes (filtered : List (AnalyticsEvent M)) : Int :=
  (filtered.filter fun e => e.eventType = EventType.storageAllocated ∨ e.eventType = EventType.storageReleased).foldl
    (fun acc e =>
      if e.eventType = EventType.storageAllocated then long (acc + bytes format e) else long (acc - bytes format e)) 0

def storageUsage (events : List (AnalyticsEvent M)) (userId : Option Text) : StorageUsageResponse :=
  let filtered := events.filter fun e => userId.all (e.userId = ·)
  { userId := userId
    totalStorageBytes := max 0 (totalBytes format filtered)
    filesCount := countOf filtered EventType.fileUploaded
    documentsCount := countOf filtered EventType.documentCreated
    breakdownByType := groupFold AnalyticsEvent.resourceType
      (fun sum e => long (sum + ((format.get e.metadata (text "bytes")).bind parseLong).getD 0)) 0 ∅
      (filtered.filter fun e => e.eventType = EventType.storageAllocated) }

end

/-! The days that events are moved to. -/

section

variable {M : Type} {xs : List (AnalyticsEvent M)} {format : MetadataFormat M}

/-- The day of an event as it is loaded. -/
def loadedDate (e : AnalyticsEvent M) : Int := e.timestamp.loaded.localDate

/-- How many events of a day do not fit. -/
def strays (day : Int) (events : List (AnalyticsEvent M)) : Nat :=
  (inGroup dateOf day (events.filter fun e => ¬e.timestamp.Fits)).length

/-- The events that do not fit are of the two days at the ends, and as many of either. -/
structure Exchanged (events : List (AnalyticsEvent M)) : Prop where
  ends : ∀ e ∈ events, ¬e.timestamp.Fits → dateOf e = Instant.firstDay ∨ dateOf e = Instant.lastDay
  even : strays Instant.firstDay events = strays Instant.lastDay events

theorem far_of_mem {e : AnalyticsEvent M} (member : e ∈ xs.filter fun e => ¬e.timestamp.Fits) : ¬e.timestamp.Fits := by
  simpa using (List.mem_filter.mp member).2

/-- Of the strays, those of one end are loaded at the other. -/
theorem loaded_strays (ends : ∀ e ∈ xs, ¬e.timestamp.Fits → dateOf e = Instant.firstDay ∨ dateOf e = Instant.lastDay) :
    inGroup loadedDate Instant.lastDay (xs.filter fun e => ¬e.timestamp.Fits) =
        inGroup dateOf Instant.firstDay (xs.filter fun e => ¬e.timestamp.Fits) ∧
      inGroup loadedDate Instant.firstDay (xs.filter fun e => ¬e.timestamp.Fits) =
        inGroup dateOf Instant.lastDay (xs.filter fun e => ¬e.timestamp.Fits) := by
  have apart : Instant.firstDay ≠ Instant.lastDay := by decide
  have each (e : AnalyticsEvent M) (member : e ∈ xs.filter fun e => ¬e.timestamp.Fits) :
      (dateOf e = Instant.firstDay ∧ loadedDate e = Instant.lastDay) ∨
        dateOf e = Instant.lastDay ∧ loadedDate e = Instant.firstDay := by
    obtain ⟨-, -, low, high⟩ := Instant.loaded_localDate_of_not_fits (far_of_mem member)
    rcases ends e (List.mem_of_mem_filter member) (far_of_mem member) with first | last
    · exact Or.inl ⟨first, low first⟩
    · exact Or.inr ⟨last, high last⟩
  constructor
  · apply List.filter_congr
    intro e member
    rcases each e member with ⟨day, day'⟩ | ⟨day, day'⟩
    · simp [day, day']
    · simp [day, day', apart, apart.symm]
  · apply List.filter_congr
    intro e member
    rcases each e member with ⟨day, day'⟩ | ⟨day, day'⟩
    · simp [day, day', apart, apart.symm]
    · simp [day, day']

/-- The days of some events count the same before and after they are stored exactly if the strays change places. -/
theorem days_agree_iff :
    (∀ day, (inGroup dateOf day xs).length = (inGroup loadedDate day xs).length) ↔ Exchanged xs := by
  have moved : (xs.filter fun e => dateOf e ≠ loadedDate e) = xs.filter fun e => ¬e.timestamp.Fits := by
    apply List.filter_congr
    intro e _
    apply decide_eq_decide.mpr
    constructor
    · intro differs fits
      exact differs (Instant.loaded_localDate_of_fits fits).symm
    · intro far same
      exact (Instant.loaded_localDate_of_not_fits far).1 same.symm
  have only : (∀ day, (inGroup dateOf day xs).length = (inGroup loadedDate day xs).length) ↔
      ∀ day, (inGroup dateOf day (xs.filter fun e => ¬e.timestamp.Fits)).length =
        (inGroup loadedDate day (xs.filter fun e => ¬e.timestamp.Fits)).length := by
    apply forall_congr'
    intro day
    have same := @groupTotal_moved _ _ _ dateOf loadedDate day xs Nat _ fun _ => 1
    rw [groupTotal_one, groupTotal_one, groupTotal_one, groupTotal_one, moved] at same
    exact same
  rw [only]
  constructor
  · intro same
    have ends : ∀ e ∈ xs, ¬e.timestamp.Fits → dateOf e = Instant.firstDay ∨ dateOf e = Instant.lastDay := by
      intro e member far
      have here : e ∈ inGroup dateOf (dateOf e) (xs.filter fun e => ¬e.timestamp.Fits) :=
        mem_inGroup.mpr ⟨List.mem_filter.mpr ⟨member, decide_eq_true far⟩, rfl⟩
      have some : 0 < (inGroup loadedDate (dateOf e) (xs.filter fun e => ¬e.timestamp.Fits)).length := by
        rw [← same]
        exact List.length_pos_of_mem here
      obtain ⟨e', there⟩ := List.exists_mem_of_length_pos some
      have day : loadedDate e' = dateOf e := (mem_inGroup.mp there).2
      have range := e'.timestamp.loaded_localDate_range
      have outside := (Instant.loaded_localDate_of_not_fits far).2.1
      unfold loadedDate at day
      unfold dateOf at day ⊢
      omega
    refine ⟨ends, ?_⟩
    rw [strays, strays, same, (loaded_strays ends).2]
  · intro h day
    obtain ⟨last, first⟩ := loaded_strays h.ends
    have even := h.even
    unfold strays at even
    by_cases isFirst : day = Instant.firstDay
    · rw [isFirst, first, even]
    by_cases isLast : day = Instant.lastDay
    · rw [isLast, last, even]
    · have none : inGroup dateOf day (xs.filter fun e => ¬e.timestamp.Fits) = [] := by
        apply inGroup_eq_nil
        rintro e member rfl
        rcases h.ends e (List.mem_of_mem_filter member) (far_of_mem member) with low | high
        · exact isFirst low
        · exact isLast high
      have none' : inGroup loadedDate day (xs.filter fun e => ¬e.timestamp.Fits) = [] := by
        apply inGroup_eq_nil
        rintro e member rfl
        obtain ⟨-, -, low, high⟩ := Instant.loaded_localDate_of_not_fits (far_of_mem member)
        rcases h.ends e (List.mem_of_mem_filter member) (far_of_mem member) with first | last
        · exact isLast (low first)
        · exact isFirst (high last)
      rw [none, none']

end

/-! What the rollup adds up to. -/

section

variable {M : Type} {format : MetadataFormat M} {events permuted : List (AnalyticsEvent M)}

theorem nodup_daysOf : (daysOf events).Nodup := (List.perm_insertionSort _ _).nodup_iff.mpr (List.nodup_dedup _)

theorem mem_daysOf {e : AnalyticsEvent M} (member : e ∈ events) : dateOf e ∈ daysOf events :=
  (List.mem_insertionSort _).mpr (List.mem_dedup.mpr (List.mem_map_of_mem member))

/-- A number of a day that counts some of its events counts them in the rollup. -/
theorem groupTotal_rollup {count : DailyUsageRollup → Nat} {p : AnalyticsEvent M → Bool}
    (counts : ∀ date day, count (rollupDay format date day) = (day.filter p).length) (date : Text) :
    groupTotal DailyUsageRollup.date count date (rollup format events) =
      (inGroup (fun e => IsoDate.print (dateOf e)) date (events.filter p)).length := by
  have each : (fun day => count (rollupDay format day (inGroup dateOf day events))) =
      fun day => groupTotal dateOf (fun _ => 1) day (events.filter p) := by
    funext day
    rw [counts, groupTotal_one, inGroup, inGroup, List.filter_comm]
  have listed (e : AnalyticsEvent M) (member : e ∈ events.filter p) : dateOf e ∈ daysOf events :=
    mem_daysOf (List.mem_of_mem_filter member)
  rw [rollup, groupTotal_map, each]
  exact (groupTotal_grouped nodup_daysOf listed).trans groupTotal_one

theorem countOf_eq (events : List (AnalyticsEvent M)) (type : Text) :
    countOf events type = (events.filter fun e => e.eventType = type).length := List.countP_eq_length_filter

theorem counted_rollupDay {type : Text} {count : DailyUsageRollup → Nat} (member : (type, count) ∈ counted) (date : Int)
    (day : List (AnalyticsEvent M)) : count (rollupDay format date day) = (day.filter fun e => e.eventType = type).length := by
  rw [← countOf_eq]
  simp only [counted, List.mem_cons, List.not_mem_nil, or_false] at member
  rcases member with h | h | h | h | h | h
  all_goals
    cases h
    rfl

/-- The types that are counted are shorter than their column. -/
theorem counted_short {type : Text} {count : DailyUsageRollup → Nat} (member : (type, count) ∈ counted) : type.length < 64 := by
  simp only [counted, List.mem_cons, List.not_mem_nil, or_false] at member
  rcases member with h | h | h | h | h | h
  all_goals
    cases h
    decide

theorem daysOf_perm (perm : permuted.Perm events) : daysOf permuted = daysOf events := by
  have total : Std.Total fun a b : Int => a ≤ b := ⟨fun a b => by omega⟩
  have trans : IsTrans Int fun a b => a ≤ b := ⟨fun a b c h k => by omega⟩
  have anti : Std.Antisymm fun a b : Int => a ≤ b := ⟨fun a b h k => by omega⟩
  have same : (daysOf permuted).Perm (daysOf events) :=
    ((List.perm_insertionSort _ _).trans (perm.map dateOf).dedup).trans (List.perm_insertionSort _ _).symm
  exact same.eq_of_pairwise' (List.pairwise_insertionSort _ _) (List.pairwise_insertionSort _ _)

/-- A fold of wrapping additions wraps the sum. -/
theorem foldl_long (f : AnalyticsEvent M → Int) (xs : List (AnalyticsEvent M)) (start : Int) :
    xs.foldl (fun acc e => long (acc + f e)) (long start) = long (start + (xs.map f).sum) := by
  induction xs generalizing start with
  | nil => simp
  | cons e xs ih =>
    rw [List.foldl_cons, long_add_long, ih, List.map_cons, List.sum_cons, Int.add_assoc]

theorem storageBytes_eq (events : List (AnalyticsEvent M)) (type : Text) : storageBytes format events type =
    long ((events.filter fun e => e.eventType = type).map (bytes format)).sum := by
  have all := foldl_long (bytes format) (events.filter fun e => e.eventType = type) 0
  rwa [Int.zero_add] at all

theorem storageBytes_perm (perm : permuted.Perm events) (type : Text) :
    storageBytes format permuted type = storageBytes format events type := by
  rw [storageBytes_eq, storageBytes_eq, ((perm.filter _).map _).sum_eq]

theorem rollupDay_perm (perm : permuted.Perm events) (date : Int) :
    rollupDay format date permuted = rollupDay format date events := by
  have counts (type : Text) : countOf permuted type = countOf events type := perm.countP_eq _
  have users := (perm.map AnalyticsEvent.userId).dedup.length_eq
  rw [rollupDay, rollupDay, perm.length_eq, users, storageBytes_perm perm, storageBytes_perm perm]
  simp only [counts]

theorem rollup_perm (perm : permuted.Perm events) : rollup format permuted = rollup format events := by
  rw [rollup, rollup, daysOf_perm perm]
  apply List.map_congr_left
  intro date _
  exact rollupDay_perm (inGroup_perm perm) date

/-- What an event adds to the storage, or takes from it. -/
def netBytes (format : MetadataFormat M) (e : AnalyticsEvent M) : Int :=
  if e.eventType = EventType.storageAllocated then bytes format e
  else if e.eventType = EventType.storageReleased then -bytes format e else 0

theorem sum_netBytes (events : List (AnalyticsEvent M)) : (events.map (netBytes format)).sum =
    ((events.filter fun e => e.eventType = EventType.storageAllocated).map (bytes format)).sum -
      ((events.filter fun e => e.eventType = EventType.storageReleased).map (bytes format)).sum := by
  have differ : EventType.storageAllocated ≠ EventType.storageReleased := by decide
  induction events with
  | nil => rfl
  | cons e events ih =>
    rw [List.map_cons, List.sum_cons, ih, netBytes]
    by_cases allocated : e.eventType = EventType.storageAllocated
    · have other : e.eventType ≠ EventType.storageReleased := by
        rw [allocated]
        exact differ
      simp only [List.filter_cons, allocated, decide_true, if_true, List.map_cons, List.sum_cons]
      simp only [differ, decide_false, Bool.false_eq_true, if_false]
      omega
    · by_cases released : e.eventType = EventType.storageReleased
      · simp only [List.filter_cons, released, decide_true, if_true, List.map_cons, List.sum_cons]
        simp only [differ.symm, decide_false, Bool.false_eq_true, if_false]
        omega
      · simp only [List.filter_cons, allocated, released, decide_false, Bool.false_eq_true, if_false]
        omega

theorem netStorageBytes_rollupDay (date : Int) (day : List (AnalyticsEvent M)) :
    (rollupDay format date day).netStorageBytes = long (day.map (netBytes format)).sum := by
  change long (storageBytes format day EventType.storageAllocated - storageBytes format day EventType.storageReleased) = _
  rw [storageBytes_eq, storageBytes_eq, sum_netBytes, long_sub_long, long, long, long]
  exact Int.sub_bmod_bmod

theorem totalBytes_eq (events : List (AnalyticsEvent M)) : totalBytes format events = long (events.map (netBytes format)).sum := by
  have differ : EventType.storageReleased ≠ EventType.storageAllocated := by decide
  have all (start : Int) : (events.filter fun e =>
      e.eventType = EventType.storageAllocated ∨ e.eventType = EventType.storageReleased).foldl (fun acc e =>
        if e.eventType = EventType.storageAllocated then long (acc + bytes format e) else long (acc - bytes format e)) (long start) =
      long (start + (events.map (netBytes format)).sum) := by
    induction events generalizing start with
    | nil => simp
    | cons e events ih =>
      rw [List.map_cons, List.sum_cons, ← Int.add_assoc, netBytes]
      by_cases allocated : e.eventType = EventType.storageAllocated
      · rw [List.filter_cons_of_pos (by simp [allocated]), List.foldl_cons, if_pos allocated, if_pos allocated, long_add_long, ih]
      · by_cases released : e.eventType = EventType.storageReleased
        · rw [List.filter_cons_of_pos (by simp [released]), List.foldl_cons, if_neg allocated, if_neg allocated, if_pos released,
            long_sub_long, ih]
          rfl
        · rw [List.filter_cons_of_neg (by simp [allocated, released]), if_neg allocated, if_neg released, Int.add_zero, ih]
  have whole := all 0
  rwa [Int.zero_add] at whole

theorem long_sum {α : Type} (f : α → Int) (xs : List α) : long (xs.map fun x => long (f x)).sum = long (xs.map f).sum := by
  induction xs with
  | nil => rfl
  | cons x xs ih =>
    have rest : long (f x + (xs.map fun x => long (f x)).sum) = long (f x + (xs.map f).sum) := by
      rw [Int.add_comm, ← long_add_long, ih, long_add_long, Int.add_comm]
    rw [List.map_cons, List.sum_cons, long_add_long, rest, List.map_cons, List.sum_cons]

theorem netStorage_rollup (events : List (AnalyticsEvent M)) :
    long ((rollup format events).map DailyUsageRollup.netStorageBytes).sum = totalBytes format events := by
  have days : (rollup format events).map DailyUsageRollup.netStorageBytes =
      (daysOf events).map fun day => long (groupTotal dateOf (netBytes format) day events) := by
    rw [rollup, List.map_map]
    apply List.map_congr_left
    intro day _
    exact netStorageBytes_rollupDay day _
  have whole {α : Type} (w : α → Int) (xs : List α) : groupTotal (fun _ => ()) w () xs = (xs.map w).sum := by
    simp [groupTotal, inGroup]
  have all := @groupTotal_grouped _ _ _ dateOf events _ _ (netBytes format) _ _ (fun _ => ()) () _ nodup_daysOf
    fun e member => mem_daysOf member
  rw [whole, whole] at all
  rw [days, long_sum, all, totalBytes_eq]

end

/-! The store and the rollup side by side. -/

section

variable {M : Type} {format : MetadataFormat M} {store : EventStore} {seen : List (AnalyticsEvent M)}
  {collation : Text → Text → Bool}

/-- The metrics of a store agree with the rollup of its events. -/
structure Reconciled (format : MetadataFormat M) (collation : Text → Text → Bool) (store : EventStore)
    (events : List (AnalyticsEvent M)) : Prop where
  totals : ∀ date, groupTotal DailyMetric.eventDate DailyMetric.eventCount date (store.getDailyMetrics collation) =
    groupTotal DailyUsageRollup.date DailyUsageRollup.totalEvents date (rollup format events)
  counts : ∀ type count, (type, count) ∈ counted → ∀ date,
    groupTotal (fun row => (row.eventDate, row.eventType)) DailyMetric.eventCount (date, type) (store.getDailyMetrics collation) =
      groupTotal DailyUsageRollup.date count date (rollup format events)
  order : ∀ permuted, permuted.Perm events → rollup format permuted = rollup format events
  storage : long ((rollup format events).map DailyUsageRollup.netStorageBytes).sum = totalBytes format events
  usage : (storageUsage format events none).totalStorageBytes =
    max 0 (long ((rollup format events).map DailyUsageRollup.netStorageBytes).sum)

/-- The events of a run that do not fit change places, all together and those of each type that is counted. -/
structure AllExchanged (events : List (AnalyticsEvent M)) : Prop where
  all : Exchanged events
  each : ∀ type count, (type, count) ∈ counted → Exchanged (events.filter fun e => e.eventType = type)

theorem take_eq_iff {s t : Text} {n : Nat} (short : t.length < n) : s.take n = t ↔ s = t := by
  constructor
  · intro same
    have length := congrArg List.length same
    rw [List.length_take] at length
    rwa [List.take_of_length_le (by omega)] at same
  · rintro rfl
    exact List.take_of_length_le short.le

/-- Texts of days agree exactly if the days do. -/
theorem texts_agree_iff (dates : ∀ e ∈ seen, IsoDate.FourDigits (dateOf e)) :
    (∀ date, (inGroup (fun e => IsoDate.print (dateOf e)) date seen).length =
      (inGroup (fun e => IsoDate.print (loadedDate e)) date seen).length) ↔ Exchanged seen := by
  have ends : IsoDate.FourDigits Instant.firstDay ∧ IsoDate.FourDigits Instant.lastDay := by
    unfold IsoDate.FourDigits
    decide
  have loaded (e : AnalyticsEvent M) : IsoDate.FourDigits (loadedDate e) :=
    ends.1.between ends.2 e.timestamp.loaded_localDate_range.1 e.timestamp.loaded_localDate_range.2
  exact (groups_agree_iff (P := IsoDate.FourDigits) (fun _ _ => IsoDate.print_inj) dates fun e _ => loaded e).trans days_agree_iff

theorem reconciled_iff (recorded : Recorded format store seen) :
    Reconciled format collation store (seen.map AnalyticsEvent.loaded) ↔ AllExchanged seen := by
  have metrics : (store.getDailyMetrics collation).Perm store.daily := List.perm_insertionSort _ _
  have totals (date : Text) : groupTotal DailyMetric.eventDate DailyMetric.eventCount date (store.getDailyMetrics collation) =
      (inGroup (fun e => IsoDate.print (dateOf e)) date seen).length := by
    rw [groupTotal_perm metrics]
    exact recorded.counts Prod.fst date
  have rolled (date : Text) :
      groupTotal DailyUsageRollup.date DailyUsageRollup.totalEvents date (rollup format (seen.map AnalyticsEvent.loaded)) =
        (inGroup (fun e => IsoDate.print (loadedDate e)) date seen).length := by
    rw [@groupTotal_rollup _ _ _ DailyUsageRollup.totalEvents (fun _ => true) fun _ day => by rw [List.filter_true]; rfl,
      List.filter_true, inGroup_map, List.length_map]
    rfl
  have kind {type : Text} {count : DailyUsageRollup → Nat} (member : (type, count) ∈ counted) (e : AnalyticsEvent M) :
      decide (e.eventType.take 64 = type) = decide (e.eventType = type) :=
    decide_eq_decide.mpr (take_eq_iff (counted_short member))
  have counts {type : Text} {count : DailyUsageRollup → Nat} (member : (type, count) ∈ counted) (date : Text) :
      groupTotal (fun row => (row.eventDate, row.eventType)) DailyMetric.eventCount (date, type) (store.getDailyMetrics collation) =
        (inGroup (fun e => IsoDate.print (dateOf e)) date (seen.filter fun e => e.eventType = type)).length := by
    rw [groupTotal_perm metrics]
    refine (recorded.counts id (date, type)).trans ?_
    rw [inGroup, inGroup, List.filter_filter]
    congr 2
    funext e
    rw [← kind member, ← Bool.decide_and]
    exact decide_eq_decide.mpr Prod.ext_iff
  have rolledCounts {type : Text} {count : DailyUsageRollup → Nat} (member : (type, count) ∈ counted) (date : Text) :
      groupTotal DailyUsageRollup.date count date (rollup format (seen.map AnalyticsEvent.loaded)) =
        (inGroup (fun e => IsoDate.print (loadedDate e)) date (seen.filter fun e => e.eventType = type)).length := by
    have types : ((seen.map AnalyticsEvent.loaded).filter fun e => e.eventType = type) =
        (seen.filter fun e => e.eventType = type).map AnalyticsEvent.loaded := by
      rw [List.filter_map]
      congr 2
      funext e
      exact kind member e
    rw [groupTotal_rollup (counted_rollupDay member), types, inGroup_map, List.length_map]
    rfl
  have some (type : Text) : ∀ e ∈ seen.filter fun e => e.eventType = type, IsoDate.FourDigits (dateOf e) :=
    fun e member => recorded.dates e (List.mem_of_mem_filter member)
  constructor
  · intro h
    constructor
    · apply (texts_agree_iff recorded.dates).mp
      intro date
      rw [← totals, ← rolled]
      exact h.totals date
    · intro type count member
      apply (texts_agree_iff (some type)).mp
      intro date
      rw [← counts member, ← rolledCounts member]
      exact h.counts type count member date
  · intro h
    refine ⟨?_, ?_, fun _ => rollup_perm, netStorage_rollup _, ?_⟩
    · intro date
      rw [totals, rolled]
      exact (texts_agree_iff recorded.dates).mpr h.all date
    · intro type count member date
      rw [counts member, rolledCounts member]
      exact (texts_agree_iff (some type)).mpr (h.each type count member) date
    · rw [netStorage_rollup, storageUsage]
      dsimp only [Option.all]
      rw [List.filter_true]

/-- The daily metrics reconcile exactly if the events whose nanoseconds do not fit change places evenly. -/
theorem metrics_reconciled_iff (format : MetadataFormat M) (collation : Text → Text → Bool) (calls : List (StoreCall M)) :
    (∃ events, (EventStore.after format calls).loadAll format = some events ∧
      Reconciled format collation (.after format calls) events) ↔ AllExchanged (EventStore.empty.kept format calls) := by
  have recorded : Recorded format (.after format calls) (EventStore.empty.kept format calls) := recorded_after calls
  rw [← reconciled_iff recorded, recorded.loadAll]
  constructor
  · rintro ⟨events, same, h⟩
    rwa [Option.some.inj same]
  · intro h
    exact ⟨_, rfl, h⟩

end

/-- Only the empty map, which is all that some events carry. -/
def noMetadata : MetadataFormat Unit where
  empty := ()
  get _ _ := none
  compactPrint _ := text "\x7b\x7d"
  parseJson s := if s = text "\x7b\x7d" then some () else none
  parseJson_compactPrint _ := by simp
  compactPrint_ne_nil _ := by decide

/-- An event of the first second of the year 2300. -/
def lateView : StoreCall Unit where
  event := ⟨text "e-1", EventType.documentViewed, text "u-1", text "d-1", text "document", (), ⟨10413792000, 0, by decide⟩⟩
  commits := true

theorem late_view_moved : ¬∃ events, (EventStore.after noMetadata [lateView]).loadAll noMetadata = some events ∧
    Reconciled noMetadata (fun a b => (compare a b).isLE) (.after noMetadata [lateView]) events := by
  rintro ⟨events, loaded, reconciled⟩
  have rolled : ((EventStore.after noMetadata [lateView]).loadAll noMetadata).map (fun events =>
      groupTotal DailyUsageRollup.date DailyUsageRollup.totalEvents (text "2300-01-01") (rollup noMetadata events)) = some 0 := by
    decide +kernel
  have stored : groupTotal DailyMetric.eventDate DailyMetric.eventCount (text "2300-01-01")
      ((EventStore.after noMetadata [lateView]).getDailyMetrics fun a b => (compare a b).isLE) = 1 := by
    decide +kernel
  rw [loaded] at rolled
  have none : groupTotal DailyUsageRollup.date DailyUsageRollup.totalEvents (text "2300-01-01") (rollup noMetadata events) = 0 :=
    Option.some.inj rolled
  have totals := reconciled.totals (text "2300-01-01")
  rw [stored, none] at totals
  cases totals

end OtterWorks.Analytics
