import OtterWorks.Billing.Invoicing
import OtterWorks.Lib.Upsert

namespace OtterWorks.Billing

inductive AttemptStatus
  | scheduled
  | sent
  | skipped
  deriving DecidableEq, Repr

/-- A row of `dunning_attempts`; `attempt_no` is a positive `integer`. -/
structure DunningAttempt where
  id : Uuid
  tenantId : Uuid
  invoiceId : Uuid
  attemptNo : Int
  scheduledFor : Int
  status : AttemptStatus
  attemptNo_range : 0 < attemptNo ∧ attemptNo < 2 ^ 31
  deriving DecidableEq

/-- The tables `invoices` and `dunning_attempts`, with their keys. -/
structure Dunning where
  invoices : List Invoice
  attempts : List DunningAttempt
  invoiceIds : (invoices.map Invoice.id).Nodup
  attemptIds : (attempts.map DunningAttempt.id).Nodup
  attemptNos : (attempts.map fun a => (a.invoiceId, a.attemptNo)).Nodup

inductive DunningError
  | sql (e : SqlError)
  | dateOutOfRange
  deriving DecidableEq, Repr

/-- The first day, counted from 1970-01-01, that is past the last `date`. -/
def endOfDates : Int := 2147483494 - 2440588

def isodow (day : Int) : Int := (day + 3) % 7 + 1

def addDays (day n : Int) : Except DunningError Int :=
  if day + n < endOfDates then .ok (day + n) else .error .dateOutOfRange

/-- `v_next`: a weekend is put off to the Monday. -/
def nextDunning (asOf : Int) : Except DunningError Int :=
  if isodow asOf = 6 then addDays asOf 2 else if isodow asOf = 7 then addDays asOf 1 else .ok asOf

namespace Dunning

def attemptsOf (d : Dunning) (invoice : Uuid) : List DunningAttempt := d.attempts.filter (·.invoiceId = invoice)

/-- `COALESCE(max(attempt_no), 0)`; every number is positive. -/
def lastAttempt (d : Dunning) (invoice : Uuid) : Int := ((d.attemptsOf invoice).map DunningAttempt.attemptNo).foldl max 0

/-- `ORDER BY i.issued_at, i.id` -/
def dunningOrder (i j : Invoice) : Bool := i.issuedAt < j.issuedAt ∨ i.issuedAt = j.issuedAt ∧ i.id ≤ j.id

def overdue (d : Dunning) : List Invoice := (d.invoices.filter (·.status = .overdue)).mergeSort dunningOrder

/-- `INSERT INTO dunning_attempts .. ON CONFLICT (invoice_id, attempt_no) DO NOTHING`. -/
def insertAttempt (d : Dunning) (a : DunningAttempt) : Except DunningError Dunning :=
  if same : (a.invoiceId, a.attemptNo) ∈ d.attempts.map fun a => (a.invoiceId, a.attemptNo) then .ok d
  else if taken : a.id ∈ d.attempts.map DunningAttempt.id then .error (.sql .uniqueViolation)
  else
    .ok ⟨d.invoices, d.attempts ++ [a], d.invoiceIds,
      by rw [List.map_append]; exact d.attemptIds.append (List.nodup_singleton _) (by simpa using taken),
      by rw [List.map_append]; exact d.attemptNos.append (List.nodup_singleton _) (by simpa using same)⟩

/-- One turn of the loop; `attemptId` is the uuid that `md5` makes of an invoice and a number. -/
def scheduleNext (attemptId : Uuid → Int → Uuid) (asOf : Int) (d : Dunning) (invoice : Invoice) :
    Except DunningError Dunning := do
  let attempt ← (int4 (d.lastAttempt invoice.id + 1)).mapError .sql
  let next ← nextDunning asOf
  if range : 0 < attempt ∧ attempt < 2 ^ 31 then
    d.insertAttempt ⟨attemptId invoice.id attempt, invoice.tenantId, invoice.id, attempt, next, .scheduled, range⟩
  else .error (.sql .checkViolation)

def spScheduleDunning (attemptId : Uuid → Int → Uuid) (asOf : Int) (d : Dunning) : Except DunningError Dunning :=
  d.overdue.foldlM (scheduleNext attemptId asOf) d

/-- A call that raises rolls back. -/
def after (attemptId : Uuid → Int → Uuid) (asOf : Int) (d : Dunning) : Dunning :=
  match d.spScheduleDunning attemptId asOf with
  | .ok d' => d'
  | .error _ => d

def afterCalls (attemptId : Uuid → Int → Uuid) (asOf : Int) (d : Dunning) (n : Nat) : Dunning :=
  (after attemptId asOf)^[n] d

/-- The ids of the attempts that are `k` numbers ahead. -/
def idsAhead (attemptId : Uuid → Int → Uuid) (d : Dunning) (k : Int) : List Uuid :=
  d.overdue.map fun i => attemptId i.id (d.lastAttempt i.id + k)

end Dunning

/-- However often the procedure is called, each overdue invoice has at most one new attempt, and the attempts are those
after the first call. -/
structure ScheduledOnce (attemptId : Uuid → Int → Uuid) (asOf : Int) (d : Dunning) : Prop where
  same : ∀ n, 0 < n → (d.afterCalls attemptId asOf n).attempts = (d.afterCalls attemptId asOf 1).attempts
  one : ∀ n, ∀ i ∈ d.overdue, ((d.afterCalls attemptId asOf n).attemptsOf i.id).length ≤ (d.attemptsOf i.id).length + 1

/-- Nothing stands in the way of two more attempts for each overdue invoice: neither the range of the numbers and dates
nor an id that is taken. -/
structure RoomForTwo (attemptId : Uuid → Int → Uuid) (asOf : Int) (d : Dunning) : Prop where
  numbers : ∀ i ∈ d.overdue, d.lastAttempt i.id + 2 < 2 ^ 31
  date : ∃ next, nextDunning asOf = .ok next
  ids : (d.attempts.map DunningAttempt.id ++ d.idsAhead attemptId 1 ++ d.idsAhead attemptId 2).Nodup

section

variable {attemptId : Uuid → Int → Uuid} {asOf : Int} {d d' d'' mid : Dunning} {invoice : Invoice} {invoices : List Invoice}
  {rows : List DunningAttempt} {i : Uuid}

theorem foldl_max_ge (l : List Int) (b : Int) : b ≤ l.foldl max b ∧ ∀ x ∈ l, x ≤ l.foldl max b := by
  induction l generalizing b with
  | nil =>
    refine ⟨le_refl b, ?_⟩
    intro x member
    cases member
  | cons y l ih =>
    obtain ⟨start, rest⟩ := ih (max b y)
    rw [List.foldl_cons]
    refine ⟨le_trans (le_max_left b y) start, ?_⟩
    intro x member
    rcases List.mem_cons.mp member with rfl | later
    · exact le_trans (le_max_right b x) start
    · exact rest x later

theorem lastAttempt_nonneg : 0 ≤ d.lastAttempt i := (foldl_max_ge _ 0).1

/-- The next number is not taken: the conflict clause has nothing to do. -/
theorem next_not_taken : (i, d.lastAttempt i + 1) ∉ d.attempts.map fun a => (a.invoiceId, a.attemptNo) := by
  intro taken
  obtain ⟨a, member, same⟩ := List.mem_map.mp taken
  have invoiceId : a.invoiceId = i := congrArg Prod.fst same
  have attemptNo : a.attemptNo = d.lastAttempt i + 1 := congrArg Prod.snd same
  have mine : a ∈ d.attemptsOf i := List.mem_filter.mpr ⟨member, by simpa using invoiceId⟩
  have le : a.attemptNo ≤ d.lastAttempt i := (foldl_max_ge _ 0).2 _ (List.mem_map_of_mem mine)
  omega

/-- One turn appends the next attempt of its invoice, if its number is in range and its id is free. -/
theorem scheduleNext_ok (h : d.scheduleNext attemptId asOf invoice = .ok d') : ∃ a next, nextDunning asOf = .ok next ∧
    d.lastAttempt invoice.id + 1 < 2 ^ 31 ∧ a.id = attemptId invoice.id (d.lastAttempt invoice.id + 1) ∧
      a.invoiceId = invoice.id ∧ a.attemptNo = d.lastAttempt invoice.id + 1 ∧
        a.id ∉ d.attempts.map DunningAttempt.id ∧ d'.attempts = d.attempts ++ [a] ∧ d'.invoices = d.invoices := by
  unfold Dunning.scheduleNext at h
  obtain ⟨attempt, numbered, h⟩ := bind_ok h
  obtain ⟨next, dated, h⟩ := bind_ok h
  unfold int4 at numbered
  split at numbered
  next range =>
    cases Except.ok.inj numbered
    split at h
    next positive =>
      unfold Dunning.insertAttempt at h
      split at h
      next taken => exact absurd taken next_not_taken
      next =>
        split at h
        next => cases h
        next free =>
          cases Except.ok.inj h
          exact ⟨_, next, dated, range.2, rfl, rfl, rfl, free, rfl, rfl⟩
    next => cases h
  next => cases numbered

theorem scheduleNext_succeeds {next : Int} (dated : nextDunning asOf = .ok next)
    (number : d.lastAttempt invoice.id + 1 < 2 ^ 31)
    (free : attemptId invoice.id (d.lastAttempt invoice.id + 1) ∉ d.attempts.map DunningAttempt.id) :
    ∃ d', d.scheduleNext attemptId asOf invoice = .ok d' := by
  have nonneg := @lastAttempt_nonneg d invoice.id
  have numbered : int4 (d.lastAttempt invoice.id + 1) = .ok (d.lastAttempt invoice.id + 1) :=
    if_pos ⟨by omega, number⟩
  have range : 0 < d.lastAttempt invoice.id + 1 ∧ d.lastAttempt invoice.id + 1 < 2 ^ 31 := ⟨by omega, number⟩
  have inserted : ∃ d', d.insertAttempt ⟨attemptId invoice.id (d.lastAttempt invoice.id + 1), invoice.tenantId,
      invoice.id, d.lastAttempt invoice.id + 1, next, .scheduled, range⟩ = .ok d' := by
    unfold Dunning.insertAttempt
    rw [dif_neg next_not_taken, dif_neg free]
    exact ⟨_, rfl⟩
  obtain ⟨d', inserted⟩ := inserted
  unfold Dunning.scheduleNext
  rw [numbered, dated]
  exact ⟨d', (dif_pos range).trans inserted⟩

theorem attemptsOf_append (appended : d'.attempts = d.attempts ++ rows) :
    d'.attemptsOf i = d.attemptsOf i ++ rows.filter (·.invoiceId = i) := by
  unfold Dunning.attemptsOf
  rw [appended, List.filter_append]

theorem lastAttempt_other (appended : d'.attempts = d.attempts ++ rows) (others : ∀ a ∈ rows, a.invoiceId ≠ i) :
    d'.lastAttempt i = d.lastAttempt i := by
  have none_ : rows.filter (·.invoiceId = i) = [] := by
    rw [List.filter_eq_nil_iff]
    intro a member
    simpa using others a member
  unfold Dunning.lastAttempt
  rw [attemptsOf_append appended, none_, List.append_nil]

/-- The attempts for other invoices stay. -/
theorem scheduleNext_others (h : d.scheduleNext attemptId asOf invoice = .ok d')
    (apart : invoice.id ∉ invoices.map Invoice.id) : ∀ i ∈ invoices, d'.lastAttempt i.id = d.lastAttempt i.id := by
  obtain ⟨a, _, _, _, _, invoiceId, _, _, appended, _⟩ := scheduleNext_ok h
  intro i member
  apply lastAttempt_other appended
  intro a' row
  rw [List.mem_singleton.mp row, invoiceId]
  exact fun same => apart (same ▸ List.mem_map_of_mem member)

/-- What the loop makes of a list of invoices. -/
structure Scheduled (attemptId : Uuid → Int → Uuid) (asOf : Int) (d : Dunning) (invoices : List Invoice)
    (d' : Dunning) (rows : List DunningAttempt) : Prop where
  attempts : d'.attempts = d.attempts ++ rows
  untouched : d'.invoices = d.invoices
  keys : rows.map (fun a => (a.id, a.invoiceId, a.attemptNo)) =
    invoices.map fun i => (attemptId i.id (d.lastAttempt i.id + 1), i.id, d.lastAttempt i.id + 1)

theorem schedule_ok (distinct : (invoices.map Invoice.id).Nodup)
    (h : invoices.foldlM (Dunning.scheduleNext attemptId asOf) d = .ok d') :
    (∀ i ∈ invoices, d.lastAttempt i.id + 1 < 2 ^ 31) ∧ (invoices ≠ [] → ∃ next, nextDunning asOf = .ok next) ∧
      ∃ rows, Scheduled attemptId asOf d invoices d' rows := by
  induction invoices generalizing d with
  | nil =>
    cases Except.ok.inj h
    refine ⟨?_, fun some_ => absurd rfl some_, [], (List.append_nil _).symm, rfl, rfl⟩
    intro i member
    cases member
  | cons invoice invoices ih =>
    rw [List.foldlM_cons] at h
    obtain ⟨mid, first, rest⟩ := bind_ok h
    obtain ⟨a, next, dated, number, id_, invoiceId, attemptNo, _, appended, kept⟩ := scheduleNext_ok first
    rw [List.map_cons, List.nodup_cons] at distinct
    obtain ⟨numbers, _, rows, attempts, invoices', keys⟩ := ih distinct.2 rest
    have others := scheduleNext_others first distinct.1
    refine ⟨?_, fun _ => ⟨next, dated⟩, a :: rows, ?_, invoices'.trans kept, ?_⟩
    · intro i member
      rcases List.mem_cons.mp member with rfl | later
      · exact number
      · rw [← others i later]
        exact numbers i later
    · rw [attempts, appended, List.append_assoc]
      rfl
    · rw [List.map_cons, List.map_cons, keys, id_, invoiceId, attemptNo]
      congr 1
      apply List.map_congr_left
      intro i member
      rw [others i member]

theorem schedule_succeeds (distinct : (invoices.map Invoice.id).Nodup) {next : Int} (dated : nextDunning asOf = .ok next)
    (numbers : ∀ i ∈ invoices, d.lastAttempt i.id + 1 < 2 ^ 31)
    (free : (d.attempts.map DunningAttempt.id ++ invoices.map fun i => attemptId i.id (d.lastAttempt i.id + 1)).Nodup) :
    ∃ d', invoices.foldlM (Dunning.scheduleNext attemptId asOf) d = .ok d' := by
  induction invoices generalizing d with
  | nil => exact ⟨d, rfl⟩
  | cons invoice invoices ih =>
    rw [List.map_cons, List.nodup_cons] at distinct
    have unused : attemptId invoice.id (d.lastAttempt invoice.id + 1) ∉ d.attempts.map DunningAttempt.id := by
      intro taken
      rw [List.nodup_append] at free
      exact free.2.2 _ taken _ (by simp) rfl
    obtain ⟨mid, first⟩ := scheduleNext_succeeds dated (numbers invoice (List.mem_cons_self ..)) unused
    obtain ⟨a, _, _, _, id_, invoiceId, _, _, appended, _⟩ := scheduleNext_ok first
    have others := scheduleNext_others first distinct.1
    have ids : (invoices.map fun i => attemptId i.id (mid.lastAttempt i.id + 1)) =
        invoices.map fun i => attemptId i.id (d.lastAttempt i.id + 1) := by
      apply List.map_congr_left
      intro i member
      rw [others i member]
    have numbers' : ∀ i ∈ invoices, mid.lastAttempt i.id + 1 < 2 ^ 31 := by
      intro i member
      rw [others i member]
      exact numbers i (List.mem_cons_of_mem _ member)
    have free' : (mid.attempts.map DunningAttempt.id ++
        invoices.map fun i => attemptId i.id (mid.lastAttempt i.id + 1)).Nodup := by
      rw [ids, appended, List.map_append, List.map_singleton, id_, List.append_assoc]
      exact free
    obtain ⟨d', rest⟩ := ih distinct.2 numbers' free'
    refine ⟨d', ?_⟩
    rw [List.foldlM_cons, first]
    exact rest

theorem overdue_distinct : (d.overdue.map Invoice.id).Nodup := by
  have order : (d.overdue.map Invoice.id).Perm ((d.invoices.filter (·.status = .overdue)).map Invoice.id) :=
    (List.mergeSort_perm ..).map _
  exact order.nodup_iff.mpr (d.invoiceIds.sublist (List.filter_sublist.map _))

theorem Scheduled.ids (scheduled : Scheduled attemptId asOf d d.overdue d' rows) :
    rows.map DunningAttempt.id = d.idsAhead attemptId 1 := by
  have firsts := congrArg (List.map Prod.fst) scheduled.keys
  rw [List.map_map, List.map_map] at firsts
  exact firsts

/-- A call adds one attempt for each overdue invoice, with the next number. -/
theorem Scheduled.added (scheduled : Scheduled attemptId asOf d d.overdue d' rows) (member : invoice ∈ d.overdue) :
    (rows.filter (·.invoiceId = invoice.id)).map DunningAttempt.attemptNo = [d.lastAttempt invoice.id + 1] := by
  have here := congrArg (fun keys => (keys.filter fun k => k.2.1 = invoice.id).map fun k => k.2.2) scheduled.keys
  rw [List.filter_map, List.filter_map, List.map_map, List.map_map] at here
  have mine : d.overdue.filter (·.id = invoice.id) = [invoice] := filter_key overdue_distinct member
  have chosen : d.overdue.filter ((fun k : Uuid × Uuid × Int => decide (k.2.1 = invoice.id)) ∘
      fun i => (attemptId i.id (d.lastAttempt i.id + 1), i.id, d.lastAttempt i.id + 1)) = [invoice] := mine
  rw [chosen] at here
  exact here

/-- A call moves each overdue invoice on by one attempt. -/
theorem Scheduled.lastAttempt (scheduled : Scheduled attemptId asOf d d.overdue d' rows) (member : invoice ∈ d.overdue) :
    d'.lastAttempt invoice.id = d.lastAttempt invoice.id + 1 := by
  unfold Dunning.lastAttempt
  rw [attemptsOf_append scheduled.attempts, List.map_append, scheduled.added member, List.foldl_append, List.foldl_cons,
    List.foldl_nil]
  exact max_eq_right (Int.le_add_one (le_refl _))

theorem Scheduled.overdue (scheduled : Scheduled attemptId asOf d d.overdue d' rows) : d'.overdue = d.overdue := by
  unfold Dunning.overdue
  rw [scheduled.untouched]

theorem Scheduled.idsAhead (scheduled : Scheduled attemptId asOf d d.overdue d' rows) :
    d'.idsAhead attemptId 1 = d.idsAhead attemptId 2 := by
  unfold Dunning.idsAhead
  rw [scheduled.overdue]
  apply List.map_congr_left
  intro i member
  rw [scheduled.lastAttempt member, Int.add_assoc]
  rfl

theorem afterDunning_ok (h : d.spScheduleDunning attemptId asOf = .ok d') : d.after attemptId asOf = d' := by
  unfold Dunning.after
  rw [h]

theorem afterDunning_error {e : DunningError} (h : d.spScheduleDunning attemptId asOf = .error e) :
    d.after attemptId asOf = d := by
  unfold Dunning.after
  rw [h]

/-- After a call that fails, or that has nothing to do, every call does so. -/
theorem afterCalls_fixed (fixed : d.after attemptId asOf = d) (n : Nat) : d.afterCalls attemptId asOf n = d :=
  Function.iterate_fixed fixed n

theorem scheduledOnce_fixed (fixed : d.after attemptId asOf = d) : ScheduledOnce attemptId asOf d where
  same := by
    intro n _
    rw [afterCalls_fixed fixed, afterCalls_fixed fixed]
  one := by
    intro n i _
    rw [afterCalls_fixed fixed]
    exact Nat.le_add_right _ _

/-- A second call that succeeds finds room for two and leaves twice as many new attempts. -/
theorem room_of_two (first : d.spScheduleDunning attemptId asOf = .ok d')
    (second : d'.spScheduleDunning attemptId asOf = .ok d'') (some_ : d.overdue ≠ []) : RoomForTwo attemptId asOf d := by
  obtain ⟨_, dated, rows, scheduled⟩ := schedule_ok overdue_distinct first
  obtain ⟨numbers, _, rows', scheduled'⟩ := schedule_ok overdue_distinct second
  refine ⟨?_, dated some_, ?_⟩
  · intro i member
    have next := numbers i (scheduled.overdue ▸ member)
    rw [scheduled.lastAttempt member] at next
    omega
  · have distinct := d''.attemptIds
    rw [scheduled'.attempts, scheduled.attempts, List.map_append, List.map_append, scheduled.ids, scheduled'.ids,
      scheduled.idsAhead] at distinct
    exact distinct

theorem two_calls_of_room (room : RoomForTwo attemptId asOf d) : ∃ d' d'',
    d.spScheduleDunning attemptId asOf = .ok d' ∧ d'.spScheduleDunning attemptId asOf = .ok d'' := by
  obtain ⟨next, dated⟩ := room.date
  have numbers : ∀ i ∈ d.overdue, d.lastAttempt i.id + 1 < 2 ^ 31 := by
    intro i member
    have two := room.numbers i member
    omega
  obtain ⟨d', first⟩ := schedule_succeeds overdue_distinct dated numbers room.ids.of_append_left
  obtain ⟨_, _, rows, scheduled⟩ := schedule_ok overdue_distinct first
  have numbers' : ∀ i ∈ d'.overdue, d'.lastAttempt i.id + 1 < 2 ^ 31 := by
    intro i member
    rw [scheduled.overdue] at member
    have two := room.numbers i member
    rw [scheduled.lastAttempt member]
    omega
  have free : (d'.attempts.map DunningAttempt.id ++ d'.idsAhead attemptId 1).Nodup := by
    rw [scheduled.attempts, List.map_append, scheduled.ids, scheduled.idsAhead]
    exact room.ids
  obtain ⟨d'', second⟩ := schedule_succeeds overdue_distinct dated numbers' free
  exact ⟨d', d'', first, second⟩

theorem not_once_of_two (first : d.spScheduleDunning attemptId asOf = .ok d')
    (second : d'.spScheduleDunning attemptId asOf = .ok d'') (some_ : d.overdue ≠ []) : ¬ScheduledOnce attemptId asOf d := by
  intro once
  obtain ⟨_, _, rows, scheduled⟩ := schedule_ok overdue_distinct first
  obtain ⟨_, _, rows', scheduled'⟩ := schedule_ok overdue_distinct second
  have same : d''.attempts = d'.attempts := by
    have twice := once.same 2 (by decide)
    unfold Dunning.afterCalls at twice
    rw [Function.iterate_succ_apply, Function.iterate_one, afterDunning_ok first] at twice
    rw [← twice, afterDunning_ok second]
  rw [scheduled'.attempts] at same
  have nothing : rows' = [] := List.append_right_eq_self.mp same
  have empty := scheduled'.keys
  rw [nothing, List.map_nil, scheduled.overdue] at empty
  exact some_ (List.map_eq_nil_iff.mp empty.symm)

/-- Scheduling is idempotent exactly if no invoice is overdue, or two attempts for each cannot be inserted. -/
theorem scheduled_once_iff (attemptId : Uuid → Int → Uuid) (asOf : Int) (d : Dunning) :
    ScheduledOnce attemptId asOf d ↔ d.overdue = [] ∨ ¬RoomForTwo attemptId asOf d := by
  constructor
  · intro once
    by_contra both
    rw [not_or, not_not] at both
    obtain ⟨d', d'', first, second⟩ := two_calls_of_room both.2
    exact not_once_of_two first second both.1 once
  · intro stops
    by_cases none_ : d.overdue = []
    · have done : d.spScheduleDunning attemptId asOf = .ok d := by
        unfold Dunning.spScheduleDunning
        rw [none_]
        rfl
      exact scheduledOnce_fixed (afterDunning_ok done)
    · have short : ¬RoomForTwo attemptId asOf d := stops.resolve_left none_
      cases first : d.spScheduleDunning attemptId asOf with
      | error e => exact scheduledOnce_fixed (afterDunning_error first)
      | ok d' =>
        cases second : d'.spScheduleDunning attemptId asOf with
        | ok d'' => exact absurd (room_of_two first second none_) short
        | error e =>
          have calls : ∀ n, d.afterCalls attemptId asOf (n + 1) = d' := by
            intro n
            unfold Dunning.afterCalls
            rw [Function.iterate_succ_apply, afterDunning_ok first]
            exact Function.iterate_fixed (afterDunning_error second) n
          obtain ⟨_, _, rows, scheduled⟩ := schedule_ok overdue_distinct first
          refine ⟨?_, ?_⟩
          · intro n positive
            obtain ⟨m, rfl⟩ := Nat.exists_eq_add_of_lt positive
            rw [Nat.zero_add, calls m, calls 0]
          · intro n i member
            cases n with
            | zero => exact Nat.le_add_right _ _
            | succ n =>
              have added := congrArg List.length (scheduled.added member)
              rw [List.length_map, List.length_singleton] at added
              rw [calls n, attemptsOf_append scheduled.attempts, List.length_append, added]

/-- One overdue invoice, never dunned. -/
def lateInvoice : Invoice := ⟨1, 1, 1, 20454, 0, 0, 0, .overdue, no_amounts⟩

def lateBook : Dunning := ⟨[lateInvoice], [], by simp, by simp, by simp⟩

/-- The same day's job run twice schedules the attempts 1 and 2. -/
theorem second_run_schedules_again : ¬ScheduledOnce (fun invoice attempt => 100 * invoice + attempt.toNat) 20468 lateBook := by
  have late : lateBook.overdue = [lateInvoice] := List.mergeSort_singleton _
  have none_ : lateBook.lastAttempt lateInvoice.id = 0 := rfl
  have room : RoomForTwo (fun invoice attempt => 100 * invoice + attempt.toNat) 20468 lateBook := by
    refine ⟨?_, ⟨20468, by decide⟩, ?_⟩
    · intro i member
      rw [late] at member
      rw [List.mem_singleton.mp member, none_]
      decide
    · unfold Dunning.idsAhead
      rw [late]
      decide
  obtain ⟨d', d'', first, second⟩ := two_calls_of_room room
  exact not_once_of_two first second (by rw [late]; simp)

end

end OtterWorks.Billing
