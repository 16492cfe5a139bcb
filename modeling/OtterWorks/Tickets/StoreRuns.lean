import OtterWorks.Tickets.StoreReads

namespace OtterWorks.Tickets

open StorePlatform StoreOp

/-- Whether the local store lets a dispatch be claimed. -/
def LocalStore.claimable (t : Ticket) (now : Nat) : Bool := !given t.devin.sessionId && !LocalStore.leaseHeld t now

/-- A lease that is not over at its end is one that is over after it, but at the end itself and from the time zero. -/
theorem lease_over_iff (dispatched lease now : Nat) :
    (now ≠ dispatched + lease ∧ (dispatched = 0 → lease < now)) ↔
      (!(decide (dispatched ≠ 0) && decide (now < dispatched + lease))) = decide (dispatched + lease < now) := by
  by_cases zero : dispatched = 0
  · by_cases later : lease < now
    · simp only [zero, Nat.zero_add, later, ne_eq, not_true_eq_false, decide_false, Bool.false_and, Bool.not_false,
        decide_true, implies_true, and_true, iff_true]
      omega
    · simp [zero, later]
  · by_cases later : dispatched + lease < now
    · have held : ¬ now < dispatched + lease := by omega
      have apart : now ≠ dispatched + lease := by omega
      simp [zero, later, held, apart]
    · by_cases exactly : now = dispatched + lease
      · simp [exactly, zero]
      · have held : now < dispatched + lease := by omega
        simp [zero, later, held, exactly]

theorem claims_agree_iff (session : Option String) (dispatchedAt : Option Nat) (lease now : Nat) :
    ((session = none → ∀ dispatched, dispatchedAt = some dispatched →
        now ≠ dispatched + lease ∧ (dispatched = 0 → lease < now)) ∧
      (session = some "" →
        (dispatchedAt.any fun dispatched => dispatched ≠ 0 && decide (now < dispatched + lease)) = true)) ↔
      (!given session && !(dispatchedAt.any fun dispatched => dispatched ≠ 0 && decide (now < dispatched + lease))) =
        (session.isNone && dispatchedAt.all fun dispatched => decide (dispatched + lease < now)) := by
  cases session with
  | none =>
    cases dispatchedAt with
    | none => simp [given]
    | some time =>
      simp only [given, reduceCtorEq, false_implies, and_true, forall_const, Option.any_none, Option.any_some,
        Option.all_some, Option.isNone_none, Option.some.injEq, forall_eq', Bool.not_false, Bool.true_and]
      exact lease_over_iff time lease now
  | some s =>
    by_cases empty : s = ""
    · subst empty
      simp [given]
    · simp [given, empty]

theorem leaseAgrees_iff {t : Ticket} {now : Nat} :
    LeaseAgrees t now ↔ LocalStore.claimable t now = DynamoStore.claimable t now :=
  claims_agree_iff t.devin.sessionId t.devin.dispatchedAt dispatchLease now

section

variable {Time Place : Type} [LinearOrder Place] {platform : StorePlatform Time Place} {d : LocalData Time}
  {table : Table Time Place}

theorem localClaim_of_some {key : String} {t : Ticket} (h : LocalStore.getTicket d key = some t) (now : Nat) :
    LocalStore.claimDispatch d key now =
      if LocalStore.claimable t now then (LocalStore.putTicket d (LocalStore.claimed t now), true) else (d, false) := by
  simp only [LocalStore.claimDispatch, h, LocalStore.claimable]
  by_cases session : given t.devin.sessionId = true
  · simp [session]
  · by_cases lease : LocalStore.leaseHeld t now = true
    · simp [session, lease]
    · simp [session, lease]

theorem localClaim_of_none {key : String} (h : LocalStore.getTicket d key = none) (now : Nat) :
    LocalStore.claimDispatch d key now = (d, false) := by
  rw [LocalStore.claimDispatch, h]

theorem Mirrors.claim_of_some (m : Mirrors platform d table) {key : String} {t : Ticket}
    (h : DynamoStore.getTicket platform table key = some t) (now : Nat) :
    DynamoStore.claimDispatch platform table key now =
      if DynamoStore.claimable t now then (DynamoStore.putTicket platform table (LocalStore.claimed t now), true)
      else (table, false) := by
  obtain ⟨project, number⟩ := (m.getTicket_some.mp h).2
  rw [DynamoStore.getTicket, project, number] at h
  rw [DynamoStore.claimDispatch, project, number]
  simp only [h, DynamoStore.putTicket, LocalStore.claimed]

theorem claim_of_none {key : String} (h : DynamoStore.getTicket platform table key = none) (now : Nat) :
    DynamoStore.claimDispatch platform table key now = (table, false) := by
  rw [DynamoStore.getTicket] at h
  rw [DynamoStore.claimDispatch]
  cases project : projectKeyOf key with
  | none => rfl
  | some pk =>
    cases number : ticketNumberOf key with
    | none => rfl
    | some n =>
      rw [project, number] at h
      simp only [h]

/-- The one ticket to which a key leads. -/
theorem Mirrors.addressed_unique (m : Mirrors platform d table) {key : String} {t u : Ticket}
    (ht : t ∈ d.tickets) (hu : u ∈ d.tickets) (leadsT : Addresses key t) (leadsU : Addresses key u) : t = u := by
  have found := m.getTicket_some.mpr ⟨ht, leadsT⟩
  rw [m.getTicket_some.mpr ⟨hu, leadsU⟩] at found
  exact (Option.some.inj found).symm

theorem Mirrors.claimFits_of_none (m : Mirrors platform d table) {key : String}
    (h : DynamoStore.getTicket platform table key = none) (now : Nat) : ClaimFits d key now := by
  intro t ht leads
  rw [m.getTicket_some.mpr ⟨ht, leads⟩] at h
  cases h

theorem Mirrors.claimFits_of_some (m : Mirrors platform d table) {key : String} {t : Ticket}
    (h : DynamoStore.getTicket platform table key = some t) (now : Nat) :
    ClaimFits d key now ↔ if t.key = key then LeaseAgrees t now else DynamoStore.claimable t now = false := by
  obtain ⟨ht, leads⟩ := m.getTicket_some.mp h
  constructor
  · intro all
    exact all t ht leads
  · intro own u hu leadsU
    rw [← m.addressed_unique ht hu leads leadsU]
    exact own

theorem Mirrors.localTicket_none (m : Mirrors platform d table) {key : String}
    (h : ∀ t, DynamoStore.getTicket platform table key = some t → t.key ≠ key) : LocalStore.getTicket d key = none := by
  cases found : LocalStore.getTicket d key with
  | none => rfl
  | some t =>
    obtain ⟨ht, rfl⟩ := m.localTicket_some.mp found
    exact absurd rfl (h t (m.getTicket_some.mpr ⟨ht, (m.keyed.wellKeyed t ht).addresses_key⟩))

/-- A ticket under an address that is not its key is not found by the store of this machine. -/
theorem Mirrors.localTicket_foreign (m : Mirrors platform d table) {key : String} {t : Ticket}
    (found : DynamoStore.getTicket platform table key = some t) (other : t.key ≠ key) :
    LocalStore.getTicket d key = none := by
  apply m.localTicket_none
  intro u hu
  rw [found] at hu
  rw [← Option.some.inj hu]
  exact other

theorem Mirrors.claimDispatch_iff (m : Mirrors platform d table) (key : String) (now : Nat) :
    (LocalStore.claimDispatch d key now).2 = (DynamoStore.claimDispatch platform table key now).2 ↔
      ClaimFits d key now := by
  cases found : DynamoStore.getTicket platform table key with
  | none =>
    have absent : LocalStore.getTicket d key = none := m.localTicket_none fun t h => by rw [found] at h; cases h
    rw [localClaim_of_none absent, claim_of_none found]
    exact iff_of_true rfl (m.claimFits_of_none found now)
  | some t =>
    rw [m.claim_of_some found, m.claimFits_of_some found]
    by_cases own : t.key = key
    · have same : LocalStore.getTicket d key = some t := m.localTicket_some.mpr ⟨(m.getTicket_some.mp found).1, own⟩
      rw [if_pos own, leaseAgrees_iff, localClaim_of_some same]
      cases LocalStore.claimable t now <;> cases DynamoStore.claimable t now <;> simp
    · have absent := m.localTicket_foreign found own
      rw [if_neg own, localClaim_of_none absent]
      cases DynamoStore.claimable t now <;> simp

theorem Ticket.WellKeyed.claimed {t : Ticket} (h : t.WellKeyed) (now : Nat) : (LocalStore.claimed t now).WellKeyed :=
  ⟨h.project, h.key, h.safe⟩

theorem Mirrors.claimDispatch (m : Mirrors platform d table) {key : String} {now : Nat} (fits : ClaimFits d key now) :
    Mirrors platform (LocalStore.claimDispatch d key now).1 (DynamoStore.claimDispatch platform table key now).1 := by
  cases found : DynamoStore.getTicket platform table key with
  | none =>
    have absent : LocalStore.getTicket d key = none := m.localTicket_none fun t h => by rw [found] at h; cases h
    rw [localClaim_of_none absent, claim_of_none found]
    exact m
  | some t =>
    rw [m.claimFits_of_some found] at fits
    rw [m.claim_of_some found]
    by_cases own : t.key = key
    · rw [if_pos own, leaseAgrees_iff] at fits
      have ht := (m.getTicket_some.mp found).1
      rw [localClaim_of_some (m.localTicket_some.mpr ⟨ht, own⟩), fits]
      cases DynamoStore.claimable t now with
      | false => exact m
      | true => exact m.putTicket ((m.keyed.wellKeyed t ht).claimed now)
    · have absent := m.localTicket_foreign found own
      rw [if_neg own] at fits
      rw [localClaim_of_none absent, fits]
      exact m

end

section Runs

variable {Time Place : Type} [LinearOrder Time] [LinearOrder Place] {platform : StorePlatform Time Place}
  {d : LocalData Time} {table : Table Time Place}

theorem Mirrors.step (m : Mirrors platform d table) {op : StoreOp Time} (sound : op.Sound) (fits : Agreed platform d op) :
    Mirrors platform (LocalStore.step platform d op).1 (DynamoStore.step platform table op).1 := by
  cases op with
  | listProjects => exact m
  | getProject key => exact m
  | putProject project => exact m.putProject sound
  | createProject project => exact m.createProject sound
  | deleteProject key => exact m.deleteProject key
  | nextTicketNumber key => exact (m.nextTicketNumber key).2
  | listTickets key => exact m
  | listTicketsWithSessions => exact m
  | getTicket key => exact m
  | putTicket ticket => exact m.putTicket sound
  | claimDispatch key now => exact m.claimDispatch fits
  | deleteTicket ticket => exact m.deleteTicket sound
  | listEntries kind key => cases kind <;> exact m
  | addEntry e =>
    rw [LocalStore.step, DynamoStore.step]
    cases e.kind with
    | comment => exact m.push .comment e
    | event => exact m.push .event e
    | delivery => exact m.push .delivery e

/-- An operation has the same answer in both stores exactly if it is one on which they agree. -/
theorem Mirrors.answer_iff (m : Mirrors platform d table) (op : StoreOp Time) :
    (LocalStore.step platform d op).2 = (DynamoStore.step platform table op).2 ↔ Agreed platform d op := by
  cases op with
  | listProjects => exact iff_of_true (congrArg StoreAnswer.projects m.listProjects) trivial
  | getProject key => exact iff_of_true (congrArg StoreAnswer.project (m.getProject key)) trivial
  | putProject project => exact iff_of_true rfl trivial
  | createProject project => exact iff_of_true (congrArg StoreAnswer.taken (m.createProject_taken project)) trivial
  | deleteProject key => exact iff_of_true rfl trivial
  | nextTicketNumber key => exact iff_of_true (congrArg StoreAnswer.number (m.nextTicketNumber key).1) trivial
  | listTickets key =>
    rw [LocalStore.step, DynamoStore.step, StoreAnswer.tickets.injEq]
    exact m.listTickets_iff key
  | listTicketsWithSessions =>
    rw [LocalStore.step, DynamoStore.step, StoreAnswer.tickets.injEq]
    exact m.sessions_iff
  | getTicket key =>
    rw [LocalStore.step, DynamoStore.step, StoreAnswer.ticket.injEq]
    exact m.getTicket_iff key
  | putTicket ticket => exact iff_of_true rfl trivial
  | claimDispatch key now =>
    rw [LocalStore.step, DynamoStore.step, StoreAnswer.taken.injEq]
    exact m.claimDispatch_iff key now
  | deleteTicket ticket => exact iff_of_true rfl trivial
  | listEntries kind key =>
    have entries : LocalStore.listEntries d kind key = DynamoStore.listEntries platform table kind key ↔ _ :=
      m.listEntries_iff
    cases kind with
    | comment =>
      rw [LocalStore.step, DynamoStore.step, StoreAnswer.entries.injEq]
      exact entries
    | event =>
      rw [LocalStore.step, DynamoStore.step, StoreAnswer.entries.injEq]
      exact entries
    | delivery =>
      rw [LocalStore.step, DynamoStore.step, StoreAnswer.entries.injEq]
      exact entries
  | addEntry e =>
    rw [LocalStore.step, DynamoStore.step]
    cases e.kind with
    | comment => exact iff_of_true rfl trivial
    | event => exact iff_of_true rfl trivial
    | delivery => exact iff_of_true rfl trivial

/-- The two stores, each empty at first, answer a sequence of operations alike exactly if it is made of operations on
which they agree. -/
theorem stores_agree_iff (platform : StorePlatform Time Place) (ops : List (StoreOp Time))
    (sound : ∀ op ∈ ops, op.Sound) :
    answers (LocalStore.step platform) .empty ops = answers (DynamoStore.step platform) ∅ ops ↔
      ∀ n op, ops[n]? = some op → Agreed platform (after (LocalStore.step platform) .empty (ops.take n)) op :=
  answers_eq_iff (fun _ _ op m _ => m.answer_iff op) (fun _ _ _ m ok fits => m.step ok fits) mirrors_empty ops sound

end Runs

/-- Texts and partitions in the order of their characters, and times in decimal. -/
def plainPlatform : StorePlatform Nat Text where
  localeLe a b := decide (a.toList ≤ b.toList)
  localeLe_total a b := by simpa using le_total a.toList b.toList
  localeLe_trans a b c := by
    intro ab bc
    rw [decide_eq_true_eq] at ab bc ⊢
    exact ab.trans bc
  localeLe_antisymm a b := by
    intro _ _ ab ba
    rw [decide_eq_true_eq] at ab ba
    exact String.toList_inj.mp (le_antisymm ab ba)
  timeText n := Nat.toDigits 10 n
  place := id
  place_injective := Function.injective_id

def deskTicket : Ticket where
  key := "OTTER-1"
  projectKey := "OTTER"
  number := 1
  title := ""
  description := ""
  type := .task
  priority := .low
  status := .ready
  labels := []
  assignee := devinAssignee
  repo := ""
  branch := ""
  prUrl := ""
  devin := .empty
  createdAt := 1000
  updatedAt := 1000

theorem deskTicket_wellKeyed : deskTicket.WellKeyed := ⟨by decide, by decide, by decide⟩

/-- A second claim five minutes after the first, to the millisecond. -/
def claimsAtTheEnd : List (StoreOp Nat) :=
  [.putTicket deskTicket, .claimDispatch "OTTER-1" 1000, .claimDispatch "OTTER-1" 301000]

theorem lease_end_differs :
    (∀ op ∈ claimsAtTheEnd, op.Sound) ∧
      answers (LocalStore.step plainPlatform) .empty claimsAtTheEnd = [.done, .taken true, .taken true] ∧
      answers (DynamoStore.step plainPlatform) ∅ claimsAtTheEnd = [.done, .taken true, .taken false] ∧
      answers (LocalStore.step plainPlatform) .empty claimsAtTheEnd ≠
        answers (DynamoStore.step plainPlatform) ∅ claimsAtTheEnd := by
  have localAnswers : answers (LocalStore.step plainPlatform) .empty claimsAtTheEnd =
      [.done, .taken true, .taken true] := by decide
  have dynamoAnswers : answers (DynamoStore.step plainPlatform) ∅ claimsAtTheEnd =
      [.done, .taken true, .taken false] := by decide +kernel
  refine ⟨?_, localAnswers, dynamoAnswers, ?_⟩
  · intro op h
    simp only [claimsAtTheEnd, List.mem_cons, List.not_mem_nil, or_false] at h
    have key : "OTTER-1" ∉ inheritedNames := by decide
    rcases h with rfl | rfl | rfl
    · exact deskTicket_wellKeyed
    · exact key
    · exact key
  · rw [localAnswers, dynamoAnswers]
    decide

/-- A claim, a comment and a second claim once the lease is over. -/
def deskDay : List (StoreOp Nat) :=
  [.putTicket deskTicket, .claimDispatch "OTTER-1" 1000,
    .addEntry ⟨"c2", "OTTER-1", .comment "devin" "done" .devin, 300000⟩,
    .addEntry ⟨"c1", "OTTER-1", .comment "ada" "thanks" .human, 300001⟩, .listEntries .comment "OTTER-1",
    .claimDispatch "OTTER-1" 301001, .listTickets "OTTER", .getTicket "OTTER-1"]

theorem desk_day_agrees :
    answers (LocalStore.step plainPlatform) .empty deskDay = answers (DynamoStore.step plainPlatform) ∅ deskDay ∧
      ∀ n op, deskDay[n]? = some op →
        Agreed plainPlatform (after (LocalStore.step plainPlatform) .empty (deskDay.take n)) op := by
  have same : answers (LocalStore.step plainPlatform) .empty deskDay =
      answers (DynamoStore.step plainPlatform) ∅ deskDay := by decide +kernel
  have sound : ∀ op ∈ deskDay, op.Sound := by
    intro op h
    simp only [deskDay, List.mem_cons, List.not_mem_nil, or_false] at h
    have key : "OTTER-1" ∉ inheritedNames := by decide
    rcases h with rfl | rfl | rfl | rfl | rfl | rfl | rfl | rfl
    · exact deskTicket_wellKeyed
    · exact key
    · trivial
    · trivial
    · trivial
    · exact key
    · trivial
    · exact key
  exact ⟨same, (stores_agree_iff plainPlatform deskDay sound).mp same⟩

end OtterWorks.Tickets
