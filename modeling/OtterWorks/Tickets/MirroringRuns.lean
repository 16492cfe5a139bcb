import OtterWorks.Tickets.Mirroring
import Mathlib.Data.List.DropRight

namespace OtterWorks.Tickets

/-- Where everything given so far counts once and nothing else counts, a step that counts some of what it is given
once more keeps this exactly if it counts what was not given before. -/
theorem once_step_iff {α : Type} {count after : α → Nat} {made : α → Prop} [DecidablePred made] {old new : List α}
    (grow : ∀ a, after a = count a + if made a then 1 else 0) (within : ∀ a, made a → a ∈ new)
    (once : ∀ a ∈ old, count a = 1) (never : ∀ a, a ∉ old → count a = 0) :
    (∀ a ∈ old ++ new, after a = 1) ↔ ∀ a ∈ new, (a ∈ old ↔ ¬ made a) := by
  constructor
  · intro h a mem
    have total := h a (List.mem_append_right _ mem)
    rw [grow] at total
    by_cases there : a ∈ old
    · rw [once a there] at total
      have not : ¬ made a := by
        intro yes
        rw [if_pos yes] at total
        omega
      exact iff_of_true there not
    · rw [never a there] at total
      have yes : made a := by
        by_contra not
        rw [if_neg not] at total
        omega
      exact iff_of_false there (not_not_intro yes)
  · intro h a mem
    rw [grow]
    by_cases there : a ∈ old
    · have not : ¬ made a := fun yes => (h a (within a yes)).mp there yes
      rw [once a there, if_neg not]
    · have yes : made a := by
        by_contra not
        have arrived := (List.mem_append.mp mem).resolve_left there
        exact there ((h a arrived).mpr not)
      rw [never a there, if_pos yes]

theorem never_step {α : Type} {count after : α → Nat} {made : α → Prop} [DecidablePred made] {old new : List α}
    (grow : ∀ a, after a = count a + if made a then 1 else 0) (within : ∀ a, made a → a ∈ new)
    (never : ∀ a, a ∉ old → count a = 0) {a : α} (absent : a ∉ old ++ new) : after a = 0 := by
  rw [List.mem_append, not_or] at absent
  rw [grow, never a absent.1, if_neg fun yes => absent.2 (within a yes)]

/-- The ids that are remembered once one more is. -/
def remember (window : List String) (id : String) : List String := (window ++ [id]).rtake 500

theorem rtake_append_rtake {α : Type} (n : Nat) (xs ys : List α) : (xs.rtake n ++ ys).rtake n = (xs ++ ys).rtake n := by
  have length : (xs.drop (xs.length - n)).length = xs.length - (xs.length - n) := List.length_drop
  unfold List.rtake
  by_cases short : xs.length ≤ n
  · have all : xs.length - n = 0 := by omega
    rw [all, List.drop_zero]
  · have sooner : (xs.drop (xs.length - n) ++ ys).length - n = ys.length := by
      rw [List.length_append, length]
      omega
    have later : (xs ++ ys).length - n = (xs.length - n) + ys.length := by
      rw [List.length_append]
      omega
    have inner : (xs ++ ys).drop (xs.length - n) = xs.drop (xs.length - n) ++ ys :=
      List.drop_append_of_le_length (by omega)
    rw [sooner, later, ← List.drop_drop, inner]

/-- After ids one by one the last five hundred are remembered. -/
theorem foldl_remember (ids : List String) {window : List String} (short : window.length ≤ 500) :
    ids.foldl remember window = (window ++ ids).rtake 500 := by
  induction ids generalizing window with
  | nil =>
    have all : window.length - 500 = 0 := by omega
    rw [List.foldl_nil, List.append_nil, List.rtake, all, List.drop_zero]
  | cons id ids ih =>
    have still : (remember window id).length ≤ 500 := by
      unfold remember List.rtake
      rw [List.length_drop]
      omega
    rw [List.foldl_cons, ih still, remember, rtake_append_rtake, List.append_assoc]
    rfl

namespace Mirror

section

variable {sha1 : String → String} {s : Mirror} {answer : SessionAnswer} {ev : DevinEvent} {now : Nat} {id : String}
  {messages : List DevinMessage}

theorem mirrored_congr {t : Mirror} (same : s.comments = t.comments) : s.mirrored id = t.mirrored id := by
  unfold mirrored
  rw [same]

theorem messageIsNew_iff {devin : DevinLink} :
    (ev.normalized sha1 now).messageIsNew devin = true ↔ ev.text ≠ [] ∧ ev.id sha1 ∉ devin.seenMessageIds := by
  have text : String.ofList ev.text ≠ "" ↔ ev.text ≠ [] := by
    rw [← String.ofList_nil, Ne, String.ofList_inj]
  simp only [InboundDevinEvent.messageIsNew, DevinEvent.normalized, Bool.and_eq_true, decide_eq_true_eq,
    Bool.not_eq_true', text, List.contains_eq_mem, decide_eq_false_iff_not]

/-- A ticket that is not stored has no new message. -/
theorem seen_applyDevinEvent : (s.applyDevinEvent sha1 ev now).ticket.devin.seenMessageIds =
    if ev.text ≠ [] ∧ ev.id sha1 ∉ s.ticket.devin.seenMessageIds then remember s.ticket.devin.seenMessageIds (ev.id sha1)
    else s.ticket.devin.seenMessageIds := by
  have link : ((ev.normalized sha1 now).link s.ticket.devin).seenMessageIds =
      if ev.text ≠ [] ∧ ev.id sha1 ∉ s.ticket.devin.seenMessageIds then
        remember s.ticket.devin.seenMessageIds (ev.id sha1)
      else s.ticket.devin.seenMessageIds := by
    simp only [InboundDevinEvent.link, messageIsNew_iff]
    rfl
  unfold applyDevinEvent
  dsimp only
  split
  case isTrue => exact link
  case isFalse same =>
    have not : ¬ (ev.text ≠ [] ∧ ev.id sha1 ∉ s.ticket.devin.seenMessageIds) := by
      intro new
      refine same ?_
      unfold InboundDevinEvent.changes
      rw [messageIsNew_iff.mpr new]
      simp
    rw [if_neg not]

theorem mirrored_applyDevinEvent : (s.applyDevinEvent sha1 ev now).mirrored id = s.mirrored id +
    if ev.text ≠ [] ∧ ev.id sha1 ∉ s.ticket.devin.seenMessageIds ∧ given ev.messageId ∧ ev.messageId = some id then 1
    else 0 := by
  unfold applyDevinEvent mirrored
  dsimp only
  by_cases new : ev.text ≠ [] ∧ ev.id sha1 ∉ s.ticket.devin.seenMessageIds
  · rw [if_pos (messageIsNew_iff.mpr new), List.countP_append, List.countP_singleton]
    congr 1
    by_cases sent : given ev.messageId = true
    · simp only [sent, if_true, decide_eq_true_eq, true_and, new.1, new.2, ne_eq, not_false_eq_true]
    · simp only [sent, Bool.false_eq_true, if_false, false_and, and_false, reduceCtorEq, decide_false]
  · rw [if_neg (fun h => new (messageIsNew_iff.mp h)), if_neg fun h => new ⟨h.1, h.2.1⟩, Nat.add_zero]

theorem mem_remember {window : List String} {x : String} (h : x ∈ remember window id) : x ∈ window ∨ x = id := by
  have mem : x ∈ window ++ [id] := List.mem_of_mem_drop h
  rcases List.mem_append.mp mem with mem | mem
  · exact Or.inl mem
  · exact Or.inr (List.mem_singleton.mp mem)

theorem event_id {m : DevinMessage} (named : m.eventId ≠ "") : (m.event answer).id sha1 = m.eventId := by
  have sent : given (m.event answer).messageId = true := by simp [given, DevinMessage.event, named]
  unfold DevinEvent.id
  rw [if_pos sent]
  rfl

/-- One message of the poller, with an id that is not remembered. -/
theorem mirrored_message {m : DevinMessage} (named : m.eventId ≠ "") (new : m.eventId ∉ s.ticket.devin.seenMessageIds) :
    (s.applyDevinEvent sha1 (m.event answer) now).mirrored id =
      s.mirrored id + if m.eventId = id ∧ (m.event answer).text ≠ [] then 1 else 0 := by
  have sent : given (m.event answer).messageId = true := by simp [given, DevinMessage.event, named]
  rw [mirrored_applyDevinEvent, event_id named]
  refine congrArg (s.mirrored id + ·) (if_congr ?_ rfl rfl)
  constructor
  · intro h
    exact ⟨Option.some.inj h.2.2.2, h.1⟩
  · intro h
    exact ⟨h.2, new, sent, congrArg some h.1⟩

/-- What comes with other ids is as new after a message as before. -/
theorem new_after {m : DevinMessage} (named : m.eventId ≠ "") (others : ∀ x ∈ messages, x.eventId ≠ m.eventId)
    (new : ∀ x ∈ messages, x.eventId ∉ s.ticket.devin.seenMessageIds) :
    ∀ x ∈ messages, x.eventId ∉ (s.applyDevinEvent sha1 (m.event answer) now).ticket.devin.seenMessageIds := by
  intro x mem there
  rw [seen_applyDevinEvent, event_id named] at there
  split at there
  case isTrue =>
    rcases mem_remember there with old | same
    · exact new x mem old
    · exact others x mem same
  case isFalse => exact new x mem there

theorem mirrored_mirrorAll (named : ∀ m ∈ messages, m.eventId ≠ "") (distinct : (messages.map DevinMessage.eventId).Nodup)
    (new : ∀ m ∈ messages, m.eventId ∉ s.ticket.devin.seenMessageIds) :
    (s.mirrorAll sha1 answer now messages).mirrored id =
      s.mirrored id + if ∃ m ∈ messages, m.eventId = id ∧ (m.event answer).text ≠ [] then 1 else 0 := by
  induction messages generalizing s with
  | nil => simp [mirrorAll]
  | cons m messages ih =>
    have here := named m (List.mem_cons_self ..)
    have unused := new m (List.mem_cons_self ..)
    rw [List.map_cons, List.nodup_cons] at distinct
    have others : ∀ x ∈ messages, x.eventId ≠ m.eventId := by
      intro x mem same
      exact distinct.1 (List.mem_map.mpr ⟨x, mem, same⟩)
    have still : ∀ x ∈ messages,
        x.eventId ∉ (s.applyDevinEvent sha1 (m.event answer) now).ticket.devin.seenMessageIds :=
      new_after here others fun x mem => new x (List.mem_cons_of_mem _ mem)
    have rest := ih (fun x mem => named x (List.mem_cons_of_mem _ mem)) distinct.2 still
    rw [mirrored_message here unused, Nat.add_assoc] at rest
    refine rest.trans (congrArg (s.mirrored id + ·) ?_)
    by_cases first : m.eventId = id ∧ (m.event answer).text ≠ []
    · have later : ¬ ∃ x ∈ messages, x.eventId = id ∧ (x.event answer).text ≠ [] := by
        intro h
        obtain ⟨x, mem, same, -⟩ := h
        exact others x mem (same.trans first.1.symm)
      rw [if_pos first, if_neg later, if_pos ⟨m, List.mem_cons_self .., first⟩]
    · rw [if_neg first, Nat.zero_add]
      refine if_congr ?_ rfl rfl
      simp only [List.exists_mem_cons_iff, first, false_or]

/-- Messages with text and ids that are not remembered are all remembered, up to five hundred. -/
theorem seen_mirrorAll (named : ∀ m ∈ messages, m.eventId ≠ "") (distinct : (messages.map DevinMessage.eventId).Nodup)
    (new : ∀ m ∈ messages, m.eventId ∉ s.ticket.devin.seenMessageIds)
    (filled : ∀ m ∈ messages, (m.event answer).text ≠ []) :
    (s.mirrorAll sha1 answer now messages).ticket.devin.seenMessageIds =
      (messages.map DevinMessage.eventId).foldl remember s.ticket.devin.seenMessageIds := by
  induction messages generalizing s with
  | nil => rfl
  | cons m messages ih =>
    have here := named m (List.mem_cons_self ..)
    have unused := new m (List.mem_cons_self ..)
    rw [List.map_cons, List.nodup_cons] at distinct
    have seen : (s.applyDevinEvent sha1 (m.event answer) now).ticket.devin.seenMessageIds =
        remember s.ticket.devin.seenMessageIds m.eventId := by
      rw [seen_applyDevinEvent, event_id here, if_pos ⟨filled m (List.mem_cons_self ..), unused⟩]
    have others : ∀ x ∈ messages, x.eventId ≠ m.eventId := by
      intro x mem same
      exact distinct.1 (List.mem_map.mpr ⟨x, mem, same⟩)
    have still : ∀ x ∈ messages,
        x.eventId ∉ (s.applyDevinEvent sha1 (m.event answer) now).ticket.devin.seenMessageIds :=
      new_after here others fun x mem => new x (List.mem_cons_of_mem _ mem)
    have rest := ih (fun x mem => named x (List.mem_cons_of_mem _ mem)) distinct.2 still
      fun x mem => filled x (List.mem_cons_of_mem _ mem)
    rw [List.map_cons, List.foldl_cons, ← seen]
    exact rest

theorem mem_fresh {m : DevinMessage} : m ∈ s.fresh answer ↔
    m ∈ answer.devinMessages ∧ m.eventId ∉ s.ticket.devin.seenMessageIds := by
  unfold fresh
  rw [List.mem_insertionSort, List.mem_filter]
  simp

theorem fresh_named (s : Mirror) (answer : SessionAnswer) : ∀ m ∈ s.fresh answer, m.eventId ≠ "" :=
  fun m mem => answer.named m (List.mem_of_mem_filter (mem_fresh.mp mem).1)

theorem devinMessages_distinct (answer : SessionAnswer) : (answer.devinMessages.map DevinMessage.eventId).Nodup :=
  answer.distinct.sublist (List.filter_sublist.map _)

/-- Where nothing is remembered and the messages are listed by their time, all are mirrored as they are listed. -/
theorem fresh_of_ordered (none : s.ticket.devin.seenMessageIds = [])
    (ordered : answer.devinMessages.Pairwise fun a b => a.createdAt ≤ b.createdAt) :
    s.fresh answer = answer.devinMessages := by
  have all : (answer.devinMessages.filter fun m => !s.ticket.devin.seenMessageIds.contains m.eventId) =
      answer.devinMessages := by
    rw [none]
    exact List.filter_eq_self.mpr fun _ _ => rfl
  unfold fresh
  rw [all]
  exact ordered.insertionSort_eq

theorem fresh_distinct (s : Mirror) (answer : SessionAnswer) : ((s.fresh answer).map DevinMessage.eventId).Nodup := by
  have kept : ((answer.devinMessages.filter fun m => !s.ticket.devin.seenMessageIds.contains m.eventId).map
      DevinMessage.eventId).Nodup := (devinMessages_distinct answer).sublist (List.filter_sublist.map _)
  exact ((List.perm_insertionSort _ _).map _).nodup_iff.mpr kept

/-- The event at the end of a run has no message. -/
theorem text_lastEvent (answer : SessionAnswer) : answer.lastEvent.text = [] := rfl

theorem delivered_poll (live : polled s.ticket) :
    (s.poll sha1 answer now).delivered = s.delivered ++ answer.devinMessages.map DevinMessage.eventId := by
  unfold poll
  rw [if_pos live]

/-- What a run of the poller adds. -/
theorem mirrored_poll (live : polled s.ticket) : (s.poll sha1 answer now).mirrored id = s.mirrored id +
    if ∃ m ∈ s.fresh answer, m.eventId = id ∧ (m.event answer).text ≠ [] then 1 else 0 := by
  have all : (s.mirrorAll sha1 answer now (s.fresh answer)).mirrored id = s.mirrored id +
      if ∃ m ∈ s.fresh answer, m.eventId = id ∧ (m.event answer).text ≠ [] then 1 else 0 :=
    mirrored_mirrorAll (fresh_named s answer) (fresh_distinct s answer) fun m mem => (mem_fresh.mp mem).2
  have last : ((s.mirrorAll sha1 answer now (s.fresh answer)).applyDevinEvent sha1 answer.lastEvent now).mirrored id =
      (s.mirrorAll sha1 answer now (s.fresh answer)).mirrored id := by
    rw [mirrored_applyDevinEvent, if_neg fun h => h.1 (text_lastEvent answer), Nat.add_zero]
  unfold poll
  rw [if_pos live]
  refine Eq.trans ?_ (last.trans all)
  unfold mirrored
  dsimp only

theorem mirrored_inbound : (s.inbound sha1 ev now).mirrored id = s.mirrored id +
    if ev.sent = some id ∧ ev.text ≠ [] ∧ id ∉ s.ticket.devin.seenMessageIds then 1 else 0 := by
  have message : ev.text ≠ [] → given ev.message = true := by
    intro some
    cases given? : given ev.message with
    | true => rfl
    | false =>
      have empty : ev.message.getD "" = "" := by
        cases there : ev.message with
        | none => rfl
        | some v => simpa [given, there] using given?
      exact absurd (by unfold DevinEvent.text; rw [empty]; rfl) some
  have alike : (ev.text ≠ [] ∧ ev.id sha1 ∉ s.ticket.devin.seenMessageIds ∧ given ev.messageId ∧
      ev.messageId = some id) ↔ (ev.sent = some id ∧ ev.text ≠ [] ∧ id ∉ s.ticket.devin.seenMessageIds) := by
    unfold DevinEvent.sent DevinEvent.id
    by_cases named : given ev.messageId = true
    · rw [if_pos named]
      constructor
      · intro h
        obtain ⟨some, new, -, same⟩ := h
        rw [same, Option.getD_some] at new
        exact ⟨(if_pos ⟨message some, named⟩).trans same, some, new⟩
      · intro h
        obtain ⟨sent, some, new⟩ := h
        rw [if_pos ⟨message some, named⟩] at sent
        refine ⟨some, ?_, named, sent⟩
        rw [sent]
        exact new
    · constructor
      · exact fun h => absurd h.2.2.1 named
      · intro h
        obtain ⟨sent, -, -⟩ := h
        rw [if_neg fun both => named both.2] at sent
        cases sent
  have same : (s.inbound sha1 ev now).mirrored id = (s.applyDevinEvent sha1 ev now).mirrored id :=
    mirrored_congr (by simp only [inbound])
  rw [same, mirrored_applyDevinEvent, if_congr alike rfl rfl]

/-- A message that never came has no comment. -/
def Quiet (s : Mirror) : Prop := ∀ id, id ∉ s.delivered → s.mirrored id = 0

theorem poll_passed (done : ¬ polled s.ticket = true) : s.poll sha1 answer now = s := by
  unfold poll
  exact if_neg done

theorem fresh_within (s : Mirror) (answer : SessionAnswer) (id : String)
    (h : ∃ m ∈ s.fresh answer, m.eventId = id ∧ (m.event answer).text ≠ []) :
    id ∈ answer.devinMessages.map DevinMessage.eventId := by
  obtain ⟨m, mem, rfl, -⟩ := h
  exact List.mem_map.mpr ⟨m, (mem_fresh.mp mem).1, rfl⟩

theorem Quiet.step (quiet : s.Quiet) (event : MirrorEvent) : (s.step sha1 event).Quiet := by
  intro id absent
  cases event with
  | poll answer now =>
    by_cases live : polled s.ticket = true
    · have absent' : id ∉ s.delivered ++ answer.devinMessages.map DevinMessage.eventId := by
        rw [← delivered_poll live]
        exact absent
      exact never_step (fun _ => mirrored_poll live) (fresh_within s answer) quiet absent'
    · have same : s.step sha1 (.poll answer now) = s := poll_passed live
      rw [same] at absent ⊢
      exact quiet id absent
  | inbound ev now =>
    have absent' : id ∉ s.delivered ++ ev.sent.toList := absent
    exact never_step (fun _ => mirrored_inbound) (fun _ h => Option.mem_toList.mpr h.1) quiet absent'

/-- A listed message leaves a comment exactly if its id is not remembered and its text is not blank. -/
theorem fresh_message_iff {m : DevinMessage} (listed : m ∈ answer.devinMessages) :
    (¬ ∃ x ∈ s.fresh answer, x.eventId = m.eventId ∧ (x.event answer).text ≠ []) ↔
      m.eventId ∈ s.ticket.devin.seenMessageIds ∨ (m.event answer).text = [] := by
  constructor
  · intro none
    by_contra neither
    rw [not_or] at neither
    exact none ⟨m, mem_fresh.mpr ⟨listed, neither.1⟩, rfl, neither.2⟩
  · intro h found
    obtain ⟨x, mem, same, some⟩ := found
    obtain ⟨there, new⟩ := mem_fresh.mp mem
    obtain rfl := List.inj_on_of_nodup_map (devinMessages_distinct answer) there listed same
    rcases h with seen | blank
    · exact new seen
    · exact some blank

theorem seen_poll (live : polled s.ticket) (filled : ∀ m ∈ answer.devinMessages, (m.event answer).text ≠ []) :
    (s.poll sha1 answer now).ticket.devin.seenMessageIds =
      ((s.fresh answer).map DevinMessage.eventId).foldl remember s.ticket.devin.seenMessageIds := by
  have all : (s.mirrorAll sha1 answer now (s.fresh answer)).ticket.devin.seenMessageIds =
      ((s.fresh answer).map DevinMessage.eventId).foldl remember s.ticket.devin.seenMessageIds :=
    seen_mirrorAll (fresh_named s answer) (fresh_distinct s answer) (fun m mem => (mem_fresh.mp mem).2)
      fun m mem => filled m (mem_fresh.mp mem).1
  unfold poll
  rw [if_pos live]
  dsimp only
  rw [seen_applyDevinEvent, if_neg fun h => h.1 (text_lastEvent answer), all]

/-- A ticket in work, with no pull request. -/
def Calm (s : Mirror) : Prop :=
  given s.ticket.devin.sessionId = true ∧ s.ticket.status = .inProgress ∧ s.ticket.prUrl = ""

theorem Calm.polled (calm : s.Calm) : polled s.ticket = true := by
  unfold OtterWorks.Tickets.polled
  rw [calm.1, calm.2.1]
  rfl

/-- Without a pull request the ticket stays where it is. -/
theorem Calm.applyDevinEvent (calm : s.Calm) (none : ev.prUrl = none) : (s.applyDevinEvent sha1 ev now).Calm := by
  obtain ⟨session, status, noPr⟩ := calm
  have sent : (ev.normalized sha1 now).prUrl = "" := by
    unfold DevinEvent.normalized
    rw [none]
    rfl
  have pullRequest : (ev.normalized sha1 now).pullRequest s.ticket = "" := by
    rw [InboundDevinEvent.pullRequest, sent, noPr]
    rfl
  have next : (ev.normalized sha1 now).nextStatus s.ticket = Option.none := by
    unfold InboundDevinEvent.nextStatus
    dsimp only
    rw [pullRequest, status]
    simp
  have linked : given ((ev.normalized sha1 now).link s.ticket.devin).sessionId = true := by
    unfold InboundDevinEvent.link
    dsimp only
    split
    case isTrue news =>
      unfold InboundDevinEvent.news at news
      exact (Bool.and_eq_true _ _ ▸ news).1
    case isFalse => exact session
  unfold Mirror.applyDevinEvent
  dsimp only
  split
  case isTrue =>
    unfold Calm InboundDevinEvent.apply
    dsimp only
    rw [next]
    exact ⟨linked, status, pullRequest⟩
  case isFalse => exact ⟨session, status, noPr⟩

theorem Calm.poll (calm : s.Calm) (none : answer.prUrl = none) : (s.poll sha1 answer now).Calm := by
  have all : ∀ messages : List DevinMessage, ∀ s : Mirror, s.Calm → (s.mirrorAll sha1 answer now messages).Calm := by
    intro messages
    induction messages with
    | nil => exact fun _ calm => calm
    | cons m messages ih => exact fun s calm => ih _ (calm.applyDevinEvent rfl)
  have last : ((s.mirrorAll sha1 answer now (s.fresh answer)).applyDevinEvent sha1 answer.lastEvent now).Calm :=
    (all _ s calm).applyDevinEvent none
  unfold Mirror.poll
  rw [if_pos calm.polled]
  exact last

theorem poll_exact_iff (live : polled s.ticket) (quiet : s.Quiet) (exact' : s.Exact) : (s.poll sha1 answer now).Exact ↔
    ∀ m ∈ answer.devinMessages, s.Knows m.eventId (m.event answer).text := by
  unfold Exact Knows
  rw [delivered_poll live, once_step_iff (fun _ => mirrored_poll live) (fresh_within s answer) exact' quiet]
  constructor
  · intro h m listed
    exact (h m.eventId (List.mem_map_of_mem listed)).trans (fresh_message_iff listed)
  · intro h id mem
    obtain ⟨m, listed, rfl⟩ := List.mem_map.mp mem
    exact (h m listed).trans (fresh_message_iff listed).symm

/-- A message that is forgotten in the run that lists it gets a second comment in the next. -/
theorem not_exact_of_forgotten {later : Nat} {m : DevinMessage} (live : polled s.ticket)
    (still : polled (s.poll sha1 answer now).ticket) (quiet : s.Quiet) (exact' : (s.poll sha1 answer now).Exact)
    (listed : m ∈ answer.devinMessages) (filled : (m.event answer).text ≠ [])
    (forgotten : m.eventId ∉ (s.poll sha1 answer now).ticket.devin.seenMessageIds) :
    ¬ ((s.poll sha1 answer now).poll sha1 answer later).Exact := by
  intro h
  have quiet' : (s.poll sha1 answer now).Quiet := quiet.step (.poll answer now)
  have known := (poll_exact_iff still quiet' exact').mp h m listed
  have delivered : m.eventId ∈ (s.poll sha1 answer now).delivered := by
    rw [delivered_poll live]
    exact List.mem_append_right _ (List.mem_map_of_mem listed)
  rcases known.mp delivered with seen | blank
  · exact forgotten seen
  · exact filled blank

theorem exact_of_polls {later : Nat} (always : ∀ n, (([.poll answer now, .poll answer later].take n).foldl
    (step sha1) s).Exact) : (s.poll sha1 answer now).Exact ∧ ((s.poll sha1 answer now).poll sha1 answer later).Exact :=
  ⟨always 1, always 2⟩

theorem inbound_exact_iff (quiet : s.Quiet) (exact' : s.Exact) : (s.inbound sha1 ev now).Exact ↔
    ∀ id ∈ ev.sent, s.Knows id ev.text := by
  have delivered : (s.inbound sha1 ev now).delivered = s.delivered ++ ev.sent.toList := rfl
  unfold Exact Knows
  rw [delivered, once_step_iff (fun _ => mirrored_inbound) (fun _ h => Option.mem_toList.mpr h.1) exact' quiet]
  refine forall_congr' fun id => ?_
  rw [Option.mem_toList]
  refine forall_congr' fun sent => ?_
  have kept : ¬ (ev.sent = some id ∧ ev.text ≠ [] ∧ id ∉ s.ticket.devin.seenMessageIds) ↔
      id ∈ s.ticket.devin.seenMessageIds ∨ ev.text = [] := by
    have here : ev.sent = some id := sent
    rw [here, eq_self_iff_true, true_and, not_and_or, not_not, not_not, or_comm]
  rw [kept]

theorem step_exact_iff (quiet : s.Quiet) (exact' : s.Exact) (event : MirrorEvent) :
    (s.step sha1 event).Exact ↔ s.Remembers event := by
  cases event with
  | poll answer now =>
    show (s.poll sha1 answer now).Exact ↔ (polled s.ticket → _)
    by_cases live : polled s.ticket = true
    · rw [poll_exact_iff live quiet exact']
      exact ⟨fun h _ => h, fun h => h live⟩
    · rw [poll_passed live]
      exact iff_of_true exact' fun h => absurd h live
  | inbound ev now => exact inbound_exact_iff quiet exact'

end

end Mirror

/-- In a run of poller runs and inbound events each message that came has one comment throughout exactly if each event
finds remembered what came before. -/
theorem messages_mirrored_once_iff (sha1 : String → String) (ticket : Ticket) (events : List MirrorEvent) :
    (∀ n, ((events.take n).foldl (Mirror.step sha1) (.start ticket)).Exact) ↔
      ∀ n event, events[n]? = some event →
        ((events.take n).foldl (Mirror.step sha1) (.start ticket)).Remembers event := by
  have quiet : (Mirror.start ticket).Quiet := fun _ _ => rfl
  have exact' : (Mirror.start ticket).Exact := fun _ mem => nomatch mem
  have quietStep : ∀ (s : Mirror) (event : MirrorEvent), s.Quiet → s.Exact → (s.step sha1 event).Quiet :=
    fun s event quiet _ => quiet.step event
  have stepIff : ∀ (s : Mirror) (event : MirrorEvent), s.Quiet → s.Exact →
      ((s.step sha1 event).Exact ↔ s.Remembers event) :=
    fun s event quiet exact' => Mirror.step_exact_iff quiet exact' event
  rw [foldl_always_iff_with quietStep stepIff quiet events]
  exact and_iff_right exact'

/-- Pages of a hundred messages, with a cursor whose length counts the pages. -/
def pageOf (history : List DevinMessage) (after : Option String) : Page :=
  let k := (after.getD "").length
  ⟨(history.drop (100 * k)).take 100, 100 * (k + 1) < history.length,
    some (String.ofList (List.replicate (k + 1) 'c'))⟩

theorem listPages_pageOf (history : List DevinMessage) (n k : Nat) {after : Option String}
    (count : (after.getD "").length = k) :
    listPages (pageOf history) n after = (history.drop (100 * k)).take (100 * n) := by
  induction n generalizing k after with
  | zero => simp [listPages]
  | succ n ih =>
    have length : (String.ofList (List.replicate (k + 1) 'c')).length = k + 1 := by simp
    have named : given (some (String.ofList (List.replicate (k + 1) 'c'))) = true := by
      have some : String.ofList (List.replicate (k + 1) 'c') ≠ "" := by
        intro empty
        have none := congrArg String.length empty
        rw [length] at none
        cases none
      simp [given, some]
    have next : listPages (pageOf history) n (some (String.ofList (List.replicate (k + 1) 'c'))) =
        (history.drop (100 * (k + 1))).take (100 * n) := ih (k + 1) length
    unfold listPages
    simp only [pageOf, count, named, Bool.not_true, Bool.or_false]
    by_cases more : 100 * (k + 1) < history.length
    · have parts : (history.drop (100 * k)).take (100 * (n + 1)) =
          (history.drop (100 * k)).take 100 ++ (history.drop (100 * (k + 1))).take (100 * n) := by
        rw [show 100 * (n + 1) = 100 + 100 * n by omega, List.take_add, List.drop_drop,
          show 100 * (k + 1) = 100 * k + 100 by omega]
      rw [if_neg (by simp [more]), parts]
      exact congrArg _ next
    · have short : (history.drop (100 * k)).length ≤ 100 := by
        rw [List.length_drop]
        omega
      rw [if_pos (by simp [more]), List.append_nil, List.take_of_length_le short, List.take_of_length_le (by omega)]

/-- Of a session's messages the first two thousand are listed. -/
theorem listMessages_pageOf (history : List DevinMessage) : listMessages (pageOf history) = history.take 2000 :=
  listPages_pageOf history 20 0 rfl

/-- Names by their length. -/
def noteId (n : Nat) : String := String.ofList (List.replicate (n + 1) 'm')

def note (n : Nat) : DevinMessage := ⟨noteId n, .devin, "Still on it", n⟩

def notes (count : Nat) : List DevinMessage := (List.range count).map note

theorem length_noteId (n : Nat) : (noteId n).length = n + 1 := by
  simp [noteId]

theorem noteId_inj {a b : Nat} (h : noteId a = noteId b) : a = b := by
  have lengths := congrArg String.length h
  rw [length_noteId, length_noteId] at lengths
  omega

theorem noteIds (count : Nat) : (notes count).map DevinMessage.eventId = (List.range count).map noteId := by
  unfold notes
  rw [List.map_map]
  rfl

theorem notes_ordered (count : Nat) : (notes count).Pairwise fun a b => a.createdAt ≤ b.createdAt := by
  refine List.pairwise_map.mpr (List.pairwise_lt_range.imp ?_)
  intro a b before
  exact Nat.le_of_lt before

def longAnswer : SessionAnswer where
  sessionId := "devin-1"
  url := "https://app.devin.ai/sessions/1"
  status := "running"
  prUrl := none
  page := pageOf (notes 501)
  named := by
    intro m mem
    rw [listMessages_pageOf] at mem
    obtain ⟨n, -, rfl⟩ := List.mem_map.mp (List.mem_of_mem_take mem)
    intro empty
    have none : (noteId n).length = 0 := congrArg String.length empty
    rw [length_noteId] at none
    cases none
  distinct := by
    rw [listMessages_pageOf, List.take_of_length_le (by simp [notes]), noteIds]
    exact List.nodup_range.map fun a b => noteId_inj

def busyTicket : Ticket where
  key := "OTTER-1"
  projectKey := "OTTER"
  number := 1
  title := "Fix the thing"
  description := ""
  type := .story
  priority := .medium
  status := .inProgress
  labels := []
  assignee := "devin"
  repo := ""
  branch := ""
  prUrl := ""
  devin := { DevinLink.empty with sessionId := some "devin-1" }
  createdAt := 0
  updatedAt := 0

theorem devinMessages_longAnswer : longAnswer.devinMessages = notes 501 := by
  unfold SessionAnswer.devinMessages
  show (listMessages (pageOf (notes 501))).filter _ = _
  rw [listMessages_pageOf, List.take_of_length_le (by simp [notes]), List.filter_eq_self]
  intro m mem
  obtain ⟨n, -, rfl⟩ := List.mem_map.mp mem
  rfl

theorem text_note {m : DevinMessage} (listed : m ∈ longAnswer.devinMessages) : (m.event longAnswer).text ≠ [] := by
  rw [devinMessages_longAnswer] at listed
  obtain ⟨n, -, rfl⟩ := List.mem_map.mp listed
  have cut : "Still on it".toList.take 20000 = "Still on it".toList := List.take_of_length_le (by decide)
  have filled : JsText.trim "Still on it".toList ≠ [] := by decide
  unfold DevinEvent.text DevinMessage.event note
  rw [Option.getD_some, cut]
  exact filled

/-- With 501 messages the first is forgotten in the run of the poller that mirrors them. -/
theorem first_note_forgotten (sha1 : String → String) (now : Nat) :
    (note 0).eventId ∉ ((Mirror.start busyTicket).poll sha1 longAnswer now).ticket.devin.seenMessageIds := by
  have ordered : longAnswer.devinMessages.Pairwise fun a b => a.createdAt ≤ b.createdAt :=
    devinMessages_longAnswer ▸ notes_ordered 501
  have nothing : (Mirror.start busyTicket).ticket.devin.seenMessageIds = [] := rfl
  have fresh : (Mirror.start busyTicket).fresh longAnswer = notes 501 :=
    (Mirror.fresh_of_ordered nothing ordered).trans devinMessages_longAnswer
  have empty : ([] : List String).length ≤ 500 := Nat.zero_le 500
  have window := foldl_remember ((List.range 501).map noteId) empty
  rw [List.nil_append] at window
  intro there
  rw [Mirror.seen_poll rfl fun m => text_note, fresh, noteIds] at there
  have kept : (note 0).eventId ∈ ((List.range 501).map noteId).rtake 500 := window ▸ there
  unfold List.rtake at kept
  rw [List.length_map, List.length_range, ← List.map_drop] at kept
  obtain ⟨n, mem, same⟩ := List.mem_map.mp kept
  rw [noteId_inj same, List.range_eq_range', List.drop_range'] at mem
  have above := (List.mem_range'_1.mp mem).1
  omega

/-- The first of 501 messages has two comments once the poller has run twice. -/
theorem first_note_mirrored_twice : ¬ ∀ n, (([.poll longAnswer 0, .poll longAnswer 1].take n).foldl
    (Mirror.step fun text => text) (.start busyTicket)).Exact := by
  intro h
  have calm : (Mirror.start busyTicket).Calm := ⟨rfl, rfl, rfl⟩
  have again : ((Mirror.start busyTicket).poll (fun text => text) longAnswer 0).Calm := calm.poll rfl
  have quiet : (Mirror.start busyTicket).Quiet := fun _ _ => rfl
  have listed : note 0 ∈ longAnswer.devinMessages := by
    rw [devinMessages_longAnswer]
    exact List.mem_map.mpr ⟨0, List.mem_range.mpr (by omega), rfl⟩
  obtain ⟨first, second⟩ := Mirror.exact_of_polls h
  exact Mirror.not_exact_of_forgotten calm.polled again.polled quiet first listed (text_note listed)
    (first_note_forgotten _ 0) second

end OtterWorks.Tickets
