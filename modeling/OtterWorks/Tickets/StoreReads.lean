import OtterWorks.Tickets.StoreSteps

namespace OtterWorks.Tickets

open StorePlatform

section

variable {Time Place : Type} [LinearOrder Place] {platform : StorePlatform Time Place} {d : LocalData Time}
  {table : Table Time Place}

theorem project?_eq_some {item : Item Time} {p : Project} : item.project? = some p ↔ item = .project p := by
  cases item <;> simp [Item.project?]

theorem counter?_eq_some {item : Item Time} {n : Nat} : item.counter? = some n ↔ item = .counter n := by
  cases item <;> simp [Item.counter?]

theorem child?_eq_some {item : Item Time} {e : Entry Time} : item.child? = some e ↔ item = .entry e := by
  cases item <;> simp [Item.child?]

theorem Mirrors.getProject (m : Mirrors platform d table) (key : String) :
    LocalStore.getProject d key = DynamoStore.getProject platform table key := by
  apply Option.ext
  intro p
  rw [LocalStore.getProject, find?_key_eq_some m.keyed.projects, DynamoStore.getProject, Option.bind_eq_some_iff]
  simp only [project?_eq_some, exists_eq_right, m.held, LocalData.Holds, metaKey_inj]

theorem Mirrors.mem_metaKey (m : Mirrors platform d table) (project : Project) :
    platform.metaKey project.key ∈ table ↔ ∃ p ∈ d.projects, p.key = project.key := by
  rw [Std.ExtTreeMap.mem_iff_isSome_getElem?, Option.isSome_iff_exists]
  constructor
  · intro h
    obtain ⟨item, held⟩ := h
    have holds := (m.held _ _).mp held
    have own : KeyedAs platform (platform.metaKey project.key) (.project project : Item Time) := rfl
    have form := holds.keyedAs.form_eq own
    cases item with
    | project p => exact ⟨p, holds.1, metaKey_inj.mp holds.2⟩
    | counter n => cases form
    | ticket t => cases form
    | entry e => cases form
  · intro h
    obtain ⟨p, hp, same⟩ := h
    exact ⟨.project p, (m.held _ _).mpr ⟨hp, metaKey_inj.mpr same⟩⟩

theorem Mirrors.createProject_taken (m : Mirrors platform d table) (project : Project) :
    (LocalStore.createProject d project).2 = (DynamoStore.createProject platform table project).2 := by
  rw [LocalStore.createProject, DynamoStore.createProject]
  by_cases there : ∃ p ∈ d.projects, p.key = project.key
  · rw [if_pos (by simpa using there), if_pos ((m.mem_metaKey project).mpr there)]
  · rw [if_neg (by simpa using there), if_neg fun h => there ((m.mem_metaKey project).mp h)]

theorem Mirrors.createProject (m : Mirrors platform d table) {project : Project}
    (sound : isProjectKey project.key.toList) :
    Mirrors platform (LocalStore.createProject d project).1 (DynamoStore.createProject platform table project).1 := by
  rw [LocalStore.createProject, DynamoStore.createProject]
  by_cases there : ∃ p ∈ d.projects, p.key = project.key
  · rw [if_pos (by simpa using there), if_pos ((m.mem_metaKey project).mpr there)]
    exact m
  · rw [if_neg (by simpa using there), if_neg fun h => there ((m.mem_metaKey project).mp h)]
    exact m.putProject sound

theorem Mirrors.counter_eq (m : Mirrors platform d table) (key : String) :
    (d.counters.find? fun c => c.1 = key).map Prod.snd =
      table[platform.counterKey key]?.bind Item.counter? := by
  apply Option.ext
  intro n
  rw [Option.map_eq_some_iff, Option.bind_eq_some_iff]
  simp only [find?_key_eq_some m.keyed.counters, counter?_eq_some, exists_eq_right, m.held, LocalData.Holds, counterKey_inj]
  constructor
  · intro h
    obtain ⟨c, ⟨hc, rfl⟩, rfl⟩ := h
    exact hc
  · intro h
    exact ⟨(key, n), ⟨h, rfl⟩, rfl⟩

theorem Mirrors.nextTicketNumber (m : Mirrors platform d table) (key : String) :
    (LocalStore.nextTicketNumber d key).2 = (DynamoStore.nextTicketNumber platform table key).2 ∧
      Mirrors platform (LocalStore.nextTicketNumber d key).1 (DynamoStore.nextTicketNumber platform table key).1 := by
  rw [LocalStore.nextTicketNumber, DynamoStore.nextTicketNumber, m.counter_eq]
  exact ⟨rfl, m.counter key _⟩

theorem Mirrors.listProjects (m : Mirrors platform d table) :
    LocalStore.listProjects platform d = DynamoStore.listProjects platform table := by
  have keyed : ∀ k item p, table[k]? = some item → decide (k.sk = text "META") = true → item.project? = some p →
      platform.metaKey p.key = k := by
    intro k item p held _ here
    rw [project?_eq_some.mp here, m.held] at held
    exact held.2
  have sorted : ((DynamoStore.scan table fun sk _ => sk = text "META").filterMap fun row => row.2.project?).Pairwise
      fun a b => platform.metaKey a.key < platform.metaKey b.key := KeyMap.listed_sorted keyed
  have mem : ∀ p, p ∈ d.projects ↔
      p ∈ (DynamoStore.scan table fun sk _ => sk = text "META").filterMap fun row => row.2.project? := by
    intro p
    rw [DynamoStore.scan, KeyMap.mem_listed]
    constructor
    · intro hp
      exact ⟨platform.metaKey p.key, .project p, (m.held _ _).mpr ⟨hp, rfl⟩, by simp [metaKey], rfl⟩
    · intro h
      obtain ⟨k, item, held, _, here⟩ := h
      rw [project?_eq_some.mp here, m.held] at held
      exact held.1
  have perm := (List.perm_ext_iff_of_nodup m.keyed.projects.of_map (nodup_of_keys_sorted sorted)).mpr mem
  have total : Std.Total fun a b : Project => platform.localeLe a.key b.key = true :=
    ⟨fun a b => by simpa using platform.localeLe_total a.key b.key⟩
  have trans : IsTrans Project fun a b => platform.localeLe a.key b.key = true :=
    ⟨fun a b c => platform.localeLe_trans a.key b.key c.key⟩
  rw [LocalStore.listProjects, DynamoStore.listProjects]
  apply List.Perm.eq_of_pairwise _ (List.pairwise_insertionSort _ _) (List.pairwise_insertionSort _ _)
  · exact (List.perm_insertionSort _ _).trans (perm.trans (List.perm_insertionSort _ _).symm)
  · intro a b ha hb less back
    have memA := (List.mem_insertionSort _).mp ha
    have memB := (mem b).mpr ((List.mem_insertionSort _).mp hb)
    have same := platform.localeLe_antisymm _ _ (m.keyed.projectKeys a memA) (m.keyed.projectKeys b memB) less back
    exact List.inj_on_of_nodup_map m.keyed.projects memA memB same

theorem Mirrors.listTickets_sorted (m : Mirrors platform d table) (key : String) :
    (DynamoStore.listTickets platform table key).Pairwise fun a b =>
      platform.ticketKey a.projectKey a.number < platform.ticketKey b.projectKey b.number := by
  apply KeyMap.listed_sorted
  intro k item t held _ here
  rw [ticket?_eq_some.mp here, m.held] at held
  exact held.2

theorem mem_localTickets {key : String} {t : Ticket} :
    t ∈ LocalStore.listTickets d key ↔ t ∈ d.tickets ∧ t.projectKey = key := by
  rw [LocalStore.listTickets, List.mem_insertionSort, List.mem_filter, decide_eq_true_eq]

/-- A project's tickets have different numbers. -/
theorem LocalData.Keyed.numbers_sorted (h : d.Keyed) (key : String) :
    (LocalStore.listTickets d key).Pairwise fun a b => a.number < b.number := by
  have total : Std.Total fun a b : Ticket => a.number ≤ b.number := ⟨fun a b => Nat.le_total a.number b.number⟩
  have trans : IsTrans Ticket fun a b => a.number ≤ b.number := ⟨fun a b c => Nat.le_trans⟩
  have sorted : (LocalStore.listTickets d key).Pairwise fun a b => a.number ≤ b.number := List.pairwise_insertionSort _ _
  have distinct : ((LocalStore.listTickets d key).map Ticket.key).Nodup :=
    ((List.perm_insertionSort _ _).map Ticket.key).nodup_iff.mpr (nodup_filter_keys h.tickets _)
  apply (sorted.and (List.pairwise_map.mp distinct)).imp_of_mem
  intro a b ha hb both
  obtain ⟨memA, projectA⟩ := mem_localTickets.mp ha
  obtain ⟨memB, projectB⟩ := mem_localTickets.mp hb
  have other : a.number ≠ b.number := fun same =>
    both.2 (((h.wellKeyed a memA).key_eq_iff (h.wellKeyed b memB)).mpr ⟨projectA.trans projectB.symm, same⟩)
  exact lt_of_le_of_ne both.1 other

/-- The tickets of a project are listed in the same order exactly if their padded numbers are in the order of the
numbers. -/
theorem Mirrors.listTickets_iff (m : Mirrors platform d table) (key : String) :
    LocalStore.listTickets d key = DynamoStore.listTickets platform table key ↔
      ∀ a ∈ d.tickets, ∀ b ∈ d.tickets, a.projectKey = key → b.projectKey = key → a.number < b.number →
        padNumber a.number < padNumber b.number := by
  have numbers := m.keyed.numbers_sorted key
  constructor
  · intro same a ha b hb projectA projectB less
    have keys := m.listTickets_sorted key
    rw [← same] at keys
    have both := numbers.and keys
    have padded := keys_agree_of_sorted (both.imp fun {x y} h => ⟨h.1.le, h.2⟩) (mem_localTickets.mpr ⟨ha, projectA⟩)
      (mem_localTickets.mpr ⟨hb, projectB⟩) less
    rw [projectA, projectB] at padded
    exact ticketKey_lt_iff.mp padded
  · intro agree
    have keys : (LocalStore.listTickets d key).Pairwise fun a b =>
        platform.ticketKey a.projectKey a.number < platform.ticketKey b.projectKey b.number := by
      apply numbers.imp_of_mem
      intro a b ha hb less
      obtain ⟨memA, projectA⟩ := mem_localTickets.mp ha
      obtain ⟨memB, projectB⟩ := mem_localTickets.mp hb
      rw [projectA, projectB, ticketKey_lt_iff]
      exact agree a memA b memB projectA projectB less
    apply eq_of_keys_sorted keys (m.listTickets_sorted key)
    intro t
    rw [mem_localTickets, m.mem_listTickets]

theorem given_iff {session : Option String} : given session = true ↔ session.isSome = true ∧ session ≠ some "" := by
  cases session with
  | none => simp [given]
  | some s => simp [given]

theorem Mirrors.mem_sessions (m : Mirrors platform d table) {t : Ticket} :
    t ∈ DynamoStore.listTicketsWithSessions table ↔ t ∈ d.tickets ∧ t.devin.sessionId.isSome = true := by
  rw [DynamoStore.listTicketsWithSessions, DynamoStore.scan, KeyMap.mem_listed]
  constructor
  · intro h
    obtain ⟨k, item, held, pass, here⟩ := h
    have session := (Bool.and_eq_true_iff.mp pass).2
    rw [here] at session
    rw [ticket?_eq_some.mp here, m.held] at held
    exact ⟨held.1, session⟩
  · intro h
    obtain ⟨ht, session⟩ := h
    refine ⟨platform.ticketKey t.projectKey t.number, .ticket t, (m.held _ _).mpr ⟨ht, rfl⟩, ?_, rfl⟩
    simp [ticketKey, ticketSk, Item.ticket?, session]

theorem Mirrors.sessions_iff (m : Mirrors platform d table) :
    LocalStore.listTicketsWithSessions d = DynamoStore.listTicketsWithSessions table ↔
      (∀ t ∈ d.tickets, t.devin.sessionId ≠ some "") ∧
        (LocalStore.listTicketsWithSessions d).Pairwise fun a b =>
          platform.ticketKey a.projectKey a.number < platform.ticketKey b.projectKey b.number := by
  have sorted : (DynamoStore.listTicketsWithSessions table).Pairwise fun a b =>
      platform.ticketKey a.projectKey a.number < platform.ticketKey b.projectKey b.number := by
    apply KeyMap.listed_sorted
    intro k item t held _ here
    rw [ticket?_eq_some.mp here, m.held] at held
    exact held.2
  have mem : ∀ t, t ∈ LocalStore.listTicketsWithSessions d ↔ t ∈ d.tickets ∧ given t.devin.sessionId = true := fun t =>
    List.mem_filter
  constructor
  · intro same
    constructor
    · intro t ht empty
      have listed := m.mem_sessions.mpr ⟨ht, by rw [empty]; rfl⟩
      rw [← same, mem, given_iff] at listed
      exact listed.2.2 empty
    · rw [same]
      exact sorted
  · intro h
    obtain ⟨named, keys⟩ := h
    apply eq_of_keys_sorted keys sorted
    intro t
    rw [mem, m.mem_sessions, given_iff]
    exact and_congr_right fun ht => and_iff_left (named t ht)

theorem Mirrors.getTicket_some (m : Mirrors platform d table) {key : String} {t : Ticket} :
    DynamoStore.getTicket platform table key = some t ↔ t ∈ d.tickets ∧ StoreOp.Addresses key t := by
  rw [DynamoStore.getTicket, StoreOp.Addresses]
  cases projectKeyOf key with
  | none => simp
  | some pk =>
    cases ticketNumberOf key with
    | none => simp
    | some n =>
      simp only [Option.bind_eq_some_iff, ticket?_eq_some, exists_eq_right, m.held, LocalData.Holds, ticketKey_inj,
        Option.some.injEq]
      rw [eq_comm (a := t.projectKey), eq_comm (a := t.number)]

theorem Mirrors.localTicket_some (m : Mirrors platform d table) {key : String} {t : Ticket} :
    LocalStore.getTicket d key = some t ↔ t ∈ d.tickets ∧ t.key = key := find?_key_eq_some m.keyed.tickets

theorem Mirrors.getTicket_iff (m : Mirrors platform d table) (key : String) :
    LocalStore.getTicket d key = DynamoStore.getTicket platform table key ↔
      ∀ t ∈ d.tickets, StoreOp.Addresses key t → t.key = key := by
  constructor
  · intro same t ht leads
    have found := m.getTicket_some.mpr ⟨ht, leads⟩
    rw [← same] at found
    exact (m.localTicket_some.mp found).2
  · intro own
    apply Option.ext
    intro t
    rw [m.localTicket_some, m.getTicket_some]
    constructor
    · intro h
      obtain ⟨ht, rfl⟩ := h
      exact ⟨ht, (m.keyed.wellKeyed t ht).addresses_key⟩
    · intro h
      exact ⟨h.1, own t h.1 h.2⟩

end

section Entries

variable {Time Place : Type} [LinearOrder Place] {platform : StorePlatform Time Place} {d : LocalData Time}
  {table : Table Time Place} {kind : Kind} {key : String}

theorem Mirrors.mem_listEntries (m : Mirrors platform d table) {e : Entry Time} :
    e ∈ DynamoStore.listEntries platform table kind key ↔
      e.ticketKey = key ∧ d.latest platform kind (platform.entryKey kind e) = some e := by
  rw [DynamoStore.listEntries, DynamoStore.query, KeyMap.mem_listed]
  constructor
  · intro h
    obtain ⟨k, item, held, pass, here⟩ := h
    rw [child?_eq_some.mp here, m.held] at held
    obtain ⟨other, held⟩ := held
    obtain ⟨_, rfl⟩ := LocalData.latest_some held
    obtain ⟨place, starts⟩ := Bool.and_eq_true_iff.mp pass
    rw [decide_eq_true_eq, entryKey, place_itemKey, platform.place_injective.eq_iff, ticketPk_inj] at place
    rw [entryKey, sk_itemKey, entrySk, List.append_assoc, isPrefixOf_skPrefix, decide_eq_true_eq] at starts
    subst starts
    exact ⟨place, held⟩
  · intro h
    obtain ⟨rfl, held⟩ := h
    refine ⟨platform.entryKey kind e, .entry e, (m.held _ _).mpr ⟨kind, held⟩, ?_, rfl⟩
    rw [Bool.and_eq_true_iff, entryKey, sk_itemKey, entrySk, List.append_assoc, isPrefixOf_skPrefix]
    simp

theorem Mirrors.listEntries_sorted (m : Mirrors platform d table) :
    (DynamoStore.listEntries platform table kind key).Pairwise fun a b =>
      platform.entrySk kind a < platform.entrySk kind b := by
  have keys : (DynamoStore.listEntries platform table kind key).Pairwise fun a b =>
      platform.entryKey kind a < platform.entryKey kind b := by
    apply KeyMap.listed_sorted
    intro k item e held pass here
    rw [child?_eq_some.mp here, m.held] at held
    obtain ⟨other, held⟩ := held
    obtain ⟨_, rfl⟩ := LocalData.latest_some held
    have starts := (Bool.and_eq_true_iff.mp pass).2
    rw [entryKey, sk_itemKey, entrySk, List.append_assoc, isPrefixOf_skPrefix, decide_eq_true_eq] at starts
    rw [starts]
  apply keys.imp_of_mem
  intro a b ha hb less
  rw [entryKey, entryKey, (m.mem_listEntries.mp ha).1, (m.mem_listEntries.mp hb).1, itemKey_lt_iff] at less
  exact less

end Entries

section Orders

open StoreOp

variable {Time Place : Type} [LinearOrder Time] {platform : StorePlatform Time Place} {kind : Kind}

theorem StoreOp.SortsAlike.ne {a b : Entry Time} (h : SortsAlike platform kind a b) :
    platform.entrySk kind a ≠ platform.entrySk kind b := by
  intro same
  rcases le_or_gt a.createdAt b.createdAt with le | gt
  · exact absurd (h.1 le) (by rw [same]; exact lt_irrefl _)
  · exact absurd (h.2 gt) (by rw [same]; exact lt_irrefl _)

theorem StoreOp.SortsAlike.le_iff {a b : Entry Time} (h : SortsAlike platform kind a b) :
    a.createdAt ≤ b.createdAt ↔ platform.entrySk kind a ≤ platform.entrySk kind b := by
  constructor
  · intro le
    exact (h.1 le).le
  · intro le
    by_contra gt
    exact absurd (h.2 (not_le.mp gt)) (not_lt.mpr le)

theorem byCreated_sorted {entries : List (Entry Time)} (alike : entries.Pairwise (SortsAlike platform kind)) :
    (LocalStore.byCreated entries).Pairwise fun a b => platform.entrySk kind a < platform.entrySk kind b := by
  have total : Std.Total fun a b : Entry Time => platform.entrySk kind a ≤ platform.entrySk kind b :=
    ⟨fun a b => le_total (platform.entrySk kind a) (platform.entrySk kind b)⟩
  have trans : IsTrans (Entry Time) fun a b => platform.entrySk kind a ≤ platform.entrySk kind b :=
    ⟨fun a b c => le_trans⟩
  have bySk : LocalStore.byCreated entries =
      entries.insertionSort fun a b => platform.entrySk kind a ≤ platform.entrySk kind b :=
    insertionSort_congr (alike.imp SortsAlike.le_iff)
  have distinct : (entries.map (platform.entrySk kind)).Nodup := List.pairwise_map.mpr (alike.imp SortsAlike.ne)
  have stays : ((LocalStore.byCreated entries).map (platform.entrySk kind)).Nodup :=
    ((List.perm_insertionSort _ _).map _).nodup_iff.mpr distinct
  have sorted : (LocalStore.byCreated entries).Pairwise fun a b =>
      platform.entrySk kind a ≤ platform.entrySk kind b := by
    rw [bySk]
    exact List.pairwise_insertionSort _ _
  exact (sorted.and (List.pairwise_map.mp stays)).imp fun {a b} both => lt_of_le_of_ne both.1 both.2

/-- Entries that a stable sort by time leaves in the order of their sort keys are alike in both orders. -/
theorem sortsAlike_of_sorted {entries : List (Entry Time)}
    (sorted : (LocalStore.byCreated entries).Pairwise fun a b => platform.entrySk kind a < platform.entrySk kind b) :
    entries.Pairwise (SortsAlike platform kind) := by
  have total : Std.Total fun a b : Entry Time => a.createdAt ≤ b.createdAt :=
    ⟨fun a b => le_total a.createdAt b.createdAt⟩
  have trans : IsTrans (Entry Time) fun a b => a.createdAt ≤ b.createdAt := ⟨fun a b c => le_trans⟩
  have times : (LocalStore.byCreated entries).Pairwise fun a b => a.createdAt ≤ b.createdAt :=
    List.pairwise_insertionSort _ _
  apply List.pairwise_iff_forall_sublist.mpr
  intro a b pair
  constructor
  · intro le
    have stays : [a, b].Sublist (LocalStore.byCreated entries) := List.pair_sublist_insertionSort le pair
    have apart := sorted.sublist stays
    rw [List.pairwise_pair] at apart
    exact apart
  · intro gt
    have mem : ∀ e ∈ [a, b], e ∈ LocalStore.byCreated entries := fun e he =>
      (List.mem_insertionSort _).mpr (pair.subset he)
    exact keys_agree_of_sorted (times.and sorted) (mem b (by simp)) (mem a (by simp)) gt

variable [LinearOrder Place] {d : LocalData Time} {table : Table Time Place} {key : String}

theorem Mirrors.listEntries_iff (m : Mirrors platform d table) :
    LocalStore.listEntries d kind key = DynamoStore.listEntries platform table kind key ↔
      ((d.entries kind).filter fun e => e.ticketKey = key).Pairwise (SortsAlike platform kind) := by
  constructor
  · intro same
    apply sortsAlike_of_sorted
    rw [← LocalStore.listEntries, same]
    exact m.listEntries_sorted
  · intro alike
    apply eq_of_keys_sorted (byCreated_sorted alike) m.listEntries_sorted
    intro e
    have distinct : (((d.entries kind).filter fun e => e.ticketKey = key).map (platform.entrySk kind)).Nodup :=
      List.pairwise_map.mpr (alike.imp SortsAlike.ne)
    rw [LocalStore.byCreated, List.mem_insertionSort, m.mem_listEntries]
    constructor
    · intro he
      obtain ⟨mem, here⟩ := List.mem_filter.mp he
      rw [decide_eq_true_eq] at here
      refine ⟨here, ?_⟩
      -- the last entry with this key is the only one
      cases found : d.latest platform kind (platform.entryKey kind e) with
      | none =>
        have miss := List.find?_eq_none.mp found e (List.mem_reverse.mpr mem)
        simp at miss
      | some f =>
        obtain ⟨hf, same⟩ := LocalData.latest_some found
        obtain ⟨ticket, sk⟩ := entryKey_eq_iff.mp same
        have listed : f ∈ (d.entries kind).filter fun e => e.ticketKey = key :=
          List.mem_filter.mpr ⟨hf, decide_eq_true (ticket.trans here)⟩
        rw [List.inj_on_of_nodup_map distinct listed he sk]
    · intro h
      exact List.mem_filter.mpr ⟨(LocalData.latest_some h.2).1, decide_eq_true h.1⟩

end Orders

end OtterWorks.Tickets
