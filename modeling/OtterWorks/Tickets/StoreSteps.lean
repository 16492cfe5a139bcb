import OtterWorks.Tickets.StoreMirror

namespace OtterWorks.Tickets

open StorePlatform

/-- A record put in its place is the one item that its key then has. -/
theorem setKey_at {α κ : Type} {key : α → String} {loc : α → κ} {row x : α} {rows : List α} {k : κ}
    (same : ∀ r ∈ rows, (loc r = loc row ↔ key r = key row)) :
    (x ∈ setKey key row rows ∧ loc x = k) ↔ (loc row = k ∧ x = row) ∨ (loc row ≠ k ∧ x ∈ rows ∧ loc x = k) := by
  rw [mem_setKey]
  constructor
  · intro h
    obtain ⟨h, here⟩ := h
    rcases h with rfl | ⟨hx, other⟩
    · exact Or.inl ⟨here, rfl⟩
    · have apart : loc row ≠ k := fun there => other ((same x hx).mp (here.trans there.symm))
      exact Or.inr ⟨apart, hx, here⟩
  · intro h
    rcases h with ⟨here, rfl⟩ | ⟨apart, hx, here⟩
    · exact ⟨Or.inl rfl, here⟩
    · have other : key x ≠ key row := fun equal => apart (((same x hx).mpr equal).symm.trans here)
      exact ⟨Or.inr ⟨hx, other⟩, here⟩

section

variable {Time Place : Type} [LinearOrder Place] {platform : StorePlatform Time Place} {d : LocalData Time}
  {table : Table Time Place}

theorem LocalData.Keyed.putProject (h : d.Keyed) {project : Project} (sound : isProjectKey project.key.toList) :
    (LocalStore.putProject d project).Keyed where
  projects := nodup_setKey h.projects
  projectKeys := by
    intro p hp
    rcases mem_setKey.mp hp with rfl | ⟨hp, _⟩
    · exact sound
    · exact h.projectKeys p hp
  counters := h.counters
  tickets := h.tickets
  wellKeyed := h.wellKeyed

theorem LocalData.Keyed.putTicket (h : d.Keyed) {ticket : Ticket} (sound : ticket.WellKeyed) :
    (LocalStore.putTicket d ticket).Keyed where
  projects := h.projects
  projectKeys := h.projectKeys
  counters := h.counters
  tickets := nodup_setKey h.tickets
  wellKeyed := by
    intro t ht
    rcases mem_setKey.mp ht with rfl | ⟨ht, _⟩
    · exact sound
    · exact h.wellKeyed t ht

theorem Mirrors.putProject (m : Mirrors platform d table) {project : Project}
    (sound : isProjectKey project.key.toList) :
    Mirrors platform (LocalStore.putProject d project) (DynamoStore.putProject platform table project) := by
  rw [DynamoStore.putProject]
  have form : KeyedAs platform (platform.metaKey project.key) (.project project : Item Time) := rfl
  apply m.insert (m.keyed.putProject sound) form
  · intro k item other
    cases item with
    | project p => exact absurd rfl other
    | counter n => exact Iff.rfl
    | ticket t => exact Iff.rfl
    | entry e => exact Iff.rfl
  · intro k item same
    cases item with
    | project p =>
      have place := @setKey_at _ _ Project.key (fun p => platform.metaKey p.key) project p _ k fun r (_ : r ∈ d.projects) => metaKey_inj
      simpa [LocalData.Holds, LocalStore.putProject] using place
    | counter n => cases same
    | ticket t => cases same
    | entry e => cases same

theorem Mirrors.putTicket (m : Mirrors platform d table) {ticket : Ticket} (sound : ticket.WellKeyed) :
    Mirrors platform (LocalStore.putTicket d ticket) (DynamoStore.putTicket platform table ticket) := by
  rw [DynamoStore.putTicket]
  have form : KeyedAs platform (platform.ticketKey ticket.projectKey ticket.number) (.ticket ticket : Item Time) := rfl
  apply m.insert (m.keyed.putTicket sound) form
  · intro k item other
    cases item with
    | project p => exact Iff.rfl
    | counter n => exact Iff.rfl
    | ticket t => exact absurd rfl other
    | entry e => exact Iff.rfl
  · intro k item same
    cases item with
    | project p => cases same
    | counter n => cases same
    | ticket t =>
      have keys : ∀ u ∈ d.tickets, (platform.ticketKey u.projectKey u.number =
          platform.ticketKey ticket.projectKey ticket.number ↔ u.key = ticket.key) := by
        intro u hu
        rw [(m.keyed.wellKeyed u hu).key_eq_iff sound, ticketKey_inj]
      have place := @setKey_at _ _ Ticket.key (fun t => platform.ticketKey t.projectKey t.number) ticket t _ k keys
      simpa [LocalData.Holds, LocalStore.putTicket] using place
    | entry e => cases same

theorem Mirrors.counter (m : Mirrors platform d table) (key : String) (n : Nat) :
    Mirrors platform { d with counters := setKey Prod.fst (key, n) d.counters }
      (table.insert (platform.counterKey key) (.counter n)) := by
  have keyed : LocalData.Keyed { d with counters := setKey Prod.fst (key, n) d.counters } :=
    ⟨m.keyed.projects, m.keyed.projectKeys, nodup_setKey m.keyed.counters, m.keyed.tickets, m.keyed.wellKeyed⟩
  refine m.insert keyed ?_ ?_ ?_
  · exact ⟨key, rfl⟩
  · intro k item other
    cases item with
    | project p => exact Iff.rfl
    | counter n => exact absurd rfl other
    | ticket t => exact Iff.rfl
    | entry e => exact Iff.rfl
  · intro k item same
    cases item with
    | project p => cases same
    | counter c =>
      have place : ∀ name, ((name, c) ∈ setKey Prod.fst (key, n) d.counters ∧ platform.counterKey name = k) ↔
          (platform.counterKey key = k ∧ (name, c) = (key, n)) ∨
            (platform.counterKey key ≠ k ∧ (name, c) ∈ d.counters ∧ platform.counterKey name = k) := fun name =>
        @setKey_at _ _ Prod.fst (fun c => platform.counterKey c.1) (key, n) (name, c) _ k
          fun r (_ : r ∈ d.counters) => counterKey_inj
      simp only [LocalData.Holds, place, exists_or, Item.counter.injEq]
      apply or_congr
      · simp [Prod.ext_iff]
      · simp
    | ticket t => cases same
    | entry e => cases same

/-- `push` on one of the three arrays. -/
def LocalData.push (d : LocalData Time) : Kind → Entry Time → LocalData Time
  | .comment, e => LocalStore.addComment d e
  | .event, e => LocalStore.addEvent d e
  | .delivery, e => LocalStore.addDelivery d e

theorem LocalData.entries_push (d : LocalData Time) (kind other : Kind) (e : Entry Time) :
    (d.push kind e).entries other = if kind = other then d.entries other ++ [e] else d.entries other := by
  cases kind <;> cases other <;> rfl

theorem LocalData.latest_push {kind other : Kind} {e : Entry Time} {k : ItemKey Place} :
    (d.push kind e).latest platform other k =
      if kind = other ∧ platform.entryKey kind e = k then some e else d.latest platform other k := by
  rw [LocalData.latest, LocalData.entries_push]
  by_cases same : kind = other
  · subst same
    rw [if_pos rfl, List.reverse_append, List.reverse_singleton, List.singleton_append, List.find?_cons]
    by_cases here : platform.entryKey kind e = k
    · simp [here]
    · simp [here, LocalData.latest]
  · rw [if_neg same, if_neg fun h => same h.1, LocalData.latest]

theorem LocalData.Keyed.push (h : d.Keyed) (kind : Kind) (e : Entry Time) : (d.push kind e).Keyed := by
  cases kind with
  | comment => exact ⟨h.projects, h.projectKeys, h.counters, h.tickets, h.wellKeyed⟩
  | event => exact ⟨h.projects, h.projectKeys, h.counters, h.tickets, h.wellKeyed⟩
  | delivery => exact ⟨h.projects, h.projectKeys, h.counters, h.tickets, h.wellKeyed⟩

theorem Mirrors.push (m : Mirrors platform d table) (kind : Kind) (e : Entry Time) :
    Mirrors platform (d.push kind e) (DynamoStore.addEntry platform table kind e) := by
  rw [DynamoStore.addEntry]
  refine m.insert (m.keyed.push kind e) ?_ ?_ ?_
  · exact ⟨kind, rfl⟩
  · intro k item other
    cases item with
    | project p => cases kind <;> exact Iff.rfl
    | counter n => cases kind <;> exact Iff.rfl
    | ticket t => cases kind <;> exact Iff.rfl
    | entry f => exact absurd rfl other
  · intro k item same
    cases item with
    | project p => cases same
    | counter n => cases same
    | ticket t => cases same
    | entry f =>
      simp only [LocalData.Holds, LocalData.latest_push, Item.entry.injEq]
      by_cases here : platform.entryKey kind e = k
      · have alone : ∀ other, d.latest platform other k = some f → kind = other := fun other h =>
          kind_eq_of_entryKey (here.trans (LocalData.latest_some h).2.symm)
        constructor
        · intro h
          obtain ⟨other, h⟩ := h
          by_cases hit : kind = other
          · rw [if_pos ⟨hit, here⟩] at h
            exact Or.inl ⟨here, (Option.some.inj h).symm⟩
          · rw [if_neg fun both => hit both.1] at h
            exact absurd (alone other h) hit
        · intro h
          obtain ⟨_, rfl⟩ := h.resolve_right fun both => both.1 here
          exact ⟨kind, if_pos ⟨rfl, here⟩⟩
      · simp [here]

theorem LocalData.entries_deleteTicket (d : LocalData Time) (ticket : Ticket) (kind : Kind) :
    (LocalStore.deleteTicket d ticket).entries kind = (d.entries kind).filter fun e => e.ticketKey ≠ ticket.key := by
  cases kind <;> rfl

theorem LocalData.Keyed.deleteTicket (h : d.Keyed) (ticket : Ticket) : (LocalStore.deleteTicket d ticket).Keyed where
  projects := h.projects
  projectKeys := h.projectKeys
  counters := h.counters
  tickets := nodup_filter_keys h.tickets _
  wellKeyed := fun t ht => h.wellKeyed t (List.mem_filter.mp ht).1

theorem LocalData.latest_deleteTicket {ticket : Ticket} {kind : Kind} {k : ItemKey Place} {e : Entry Time} :
    (LocalStore.deleteTicket d ticket).latest platform kind k = some e ↔
      k.place ≠ platform.place (ticketPk ticket.key) ∧ d.latest platform kind k = some e := by
  have place : ∀ f : Entry Time, platform.entryKey kind f = k →
      (k.place = platform.place (ticketPk ticket.key) ↔ f.ticketKey = ticket.key) := by
    intro f hf
    rw [← hf, entryKey, place_itemKey, platform.place_injective.eq_iff, ticketPk_inj]
  rw [LocalData.latest, LocalData.entries_deleteTicket, ← List.filter_reverse, LocalData.latest]
  by_cases child : k.place = platform.place (ticketPk ticket.key)
  · rw [find?_filter_dropped]
    · simp [child]
    · intro f _ hit
      simpa using (place f (by simpa using hit)).mp child
  · rw [find?_filter_kept]
    · simp [child]
    · intro f _ hit
      have apart : f.ticketKey ≠ ticket.key := fun same => child ((place f (by simpa using hit)).mpr same)
      simpa using apart

theorem mem_children {table : Table Time Place} {pk : Text} {k : ItemKey Place} :
    k ∈ ((DynamoStore.query platform table pk []).map fun row => row.1.sk).map (platform.itemKey pk) ↔
      k.place = platform.place pk ∧ k ∈ table := by
  simp only [DynamoStore.query, List.mem_map, List.mem_filter, exists_exists_and_eq_and]
  constructor
  · intro h
    obtain ⟨row, ⟨hr, pass⟩, rfl⟩ := h
    have here : row.1.place = platform.place pk := by simpa using pass
    have same : platform.itemKey pk row.1.sk = row.1 := by rw [itemKey, ← here]
    rw [same]
    exact ⟨here, Std.ExtTreeMap.mem_iff_isSome_getElem?.mpr (by rw [KeyMap.mem_toList.mp hr]; rfl)⟩
  · intro h
    obtain ⟨here, mem⟩ := h
    obtain ⟨item, held⟩ := Option.isSome_iff_exists.mp (Std.ExtTreeMap.mem_iff_isSome_getElem?.mp mem)
    refine ⟨(k, item), ⟨KeyMap.mem_toList.mpr held, by simp [here]⟩, ?_⟩
    rw [itemKey, ← here]

theorem getElem?_deleteTicket {table : Table Time Place} {ticket : Ticket} (k : ItemKey Place) :
    (DynamoStore.deleteTicket platform table ticket)[k]? =
      if k.place = platform.place (ticketPk ticket.key) ∨ k = platform.ticketKey ticket.projectKey ticket.number then none
      else table[k]? := by
  rw [DynamoStore.deleteTicket, Std.ExtTreeMap.getElem?_erase, DynamoStore.batchDelete, KeyMap.getElem?_dropKeys]
  by_cases own : k = platform.ticketKey ticket.projectKey ticket.number
  · simp [own]
  · have apart : ¬ platform.ticketKey ticket.projectKey ticket.number = k := fun same => own same.symm
    by_cases child : k.place = platform.place (ticketPk ticket.key)
    · by_cases mem : k ∈ table
      · rw [if_pos (mem_children.mpr ⟨child, mem⟩)]
        simp [child]
      · rw [if_neg fun h => mem (mem_children.mp h).2]
        simp [child, mem]
    · rw [if_neg fun h => child (mem_children.mp h).1]
      simp [own, apart, child]

theorem Mirrors.deleteTicket (m : Mirrors platform d table) {ticket : Ticket} (sound : ticket.WellKeyed) :
    Mirrors platform (LocalStore.deleteTicket d ticket) (DynamoStore.deleteTicket platform table ticket) := by
  refine m.drop (m.keyed.deleteTicket ticket) _ getElem?_deleteTicket ?_
  intro k item
  have noChild : ∀ pk sk, platform.itemKey (projectPk pk) sk = k → k.place ≠ platform.place (ticketPk ticket.key) := by
    intro pk sk same child
    rw [← same, place_itemKey, platform.place_injective.eq_iff] at child
    exact projectPk_ne_ticketPk child
  cases item with
  | project p =>
    constructor
    · intro h
      refine ⟨?_, h⟩
      intro gone
      rcases gone with child | own
      · exact noChild _ _ h.2 child
      · exact metaKey_ne_ticketKey (h.2.trans own)
    · exact And.right
  | counter n =>
    constructor
    · intro h
      refine ⟨?_, h⟩
      obtain ⟨key, _, here⟩ := h
      intro gone
      rcases gone with child | own
      · exact noChild _ _ here child
      · exact counterKey_ne_ticketKey (here.trans own)
    · exact And.right
  | ticket t =>
    have left : t ∈ (LocalStore.deleteTicket d ticket).tickets ↔ t ∈ d.tickets ∧ t.key ≠ ticket.key := by
      simp [LocalStore.deleteTicket]
    constructor
    · intro h
      obtain ⟨ht, here⟩ := h
      obtain ⟨ht, other⟩ := left.mp ht
      refine ⟨?_, ht, here⟩
      intro gone
      rcases gone with child | own
      · exact noChild _ _ here child
      · exact other (((m.keyed.wellKeyed t ht).key_eq_iff sound).mpr (ticketKey_inj.mp (here.trans own)))
    · intro h
      obtain ⟨stays, ht, here⟩ := h
      refine ⟨left.mpr ⟨ht, ?_⟩, here⟩
      intro same
      apply stays
      right
      rw [← here, ticketKey_inj]
      exact ((m.keyed.wellKeyed t ht).key_eq_iff sound).mp same
  | entry e =>
    simp only [LocalData.Holds, LocalData.latest_deleteTicket]
    constructor
    · intro h
      obtain ⟨kind, child, h⟩ := h
      refine ⟨?_, kind, h⟩
      intro gone
      rcases gone with here | own
      · exact child here
      · exact ticketKey_ne_entryKey (own.symm.trans (LocalData.latest_some h).2.symm)
    · intro h
      obtain ⟨stays, kind, h⟩ := h
      exact ⟨kind, fun child => stays (Or.inl child), h⟩

theorem ticket?_eq_some {item : Item Time} {t : Ticket} : item.ticket? = some t ↔ item = .ticket t := by
  cases item <;> simp [Item.ticket?]

theorem Mirrors.mem_listTickets (m : Mirrors platform d table) {key : String} {t : Ticket} :
    t ∈ DynamoStore.listTickets platform table key ↔ t ∈ d.tickets ∧ t.projectKey = key := by
  rw [DynamoStore.listTickets, DynamoStore.query, KeyMap.mem_listed]
  constructor
  · intro h
    obtain ⟨k, item, held, pass, here⟩ := h
    rw [ticket?_eq_some.mp here, m.held] at held
    obtain ⟨ht, rfl⟩ := held
    have place := (Bool.and_eq_true_iff.mp pass).1
    rw [decide_eq_true_eq, ticketKey, place_itemKey, platform.place_injective.eq_iff, projectPk_inj] at place
    exact ⟨ht, place⟩
  · intro h
    obtain ⟨ht, rfl⟩ := h
    refine ⟨platform.ticketKey t.projectKey t.number, .ticket t, (m.held _ _).mpr ⟨ht, rfl⟩, ?_, rfl⟩
    simp [ticketKey, ticketSk]

theorem foldl_deleteTicket (ts : List Ticket) (d : LocalData Time) :
    ts.foldl LocalStore.deleteTicket d =
      { d with
        tickets := d.tickets.filter fun t => ∀ u ∈ ts, t.key ≠ u.key
        comments := d.comments.filter fun c => ∀ u ∈ ts, c.ticketKey ≠ u.key
        events := d.events.filter fun e => ∀ u ∈ ts, e.ticketKey ≠ u.key
        deliveries := d.deliveries.filter fun e => ∀ u ∈ ts, e.ticketKey ≠ u.key } := by
  induction ts generalizing d with
  | nil => simp
  | cons t ts ih =>
    rw [List.foldl_cons, ih]
    simp [LocalStore.deleteTicket, List.filter_filter, Bool.and_comm]

/-- A project's own records go. -/
def LocalData.dropProject (d : LocalData Time) (key : String) : LocalData Time :=
  { d with
    projects := d.projects.filter fun p => p.key ≠ key
    counters := d.counters.filter fun c => c.1 ≠ key }

/-- The tickets of a project may go before it and in any order. -/
theorem deleteProject_eq {key : String} {ts : List Ticket} (same : ∀ t, t ∈ ts ↔ t ∈ d.tickets ∧ t.projectKey = key) :
    LocalStore.deleteProject d key = (ts.foldl LocalStore.deleteTicket d).dropProject key := by
  have listed : ∀ k : String, (∀ u ∈ d.tickets.filter fun t => t.projectKey = key, k ≠ u.key) ↔ ∀ u ∈ ts, k ≠ u.key := by
    intro k
    simp only [List.mem_filter, decide_eq_true_eq, same]
  rw [LocalStore.deleteProject, foldl_deleteTicket, foldl_deleteTicket, LocalData.dropProject]
  simp only [listed]

theorem Mirrors.dropProject (m : Mirrors platform d table) (key : String) :
    Mirrors platform (d.dropProject key)
      (DynamoStore.batchDelete platform table (projectPk key) [text "META", text "COUNTER"]) := by
  have keyed : (d.dropProject key).Keyed :=
    ⟨nodup_filter_keys m.keyed.projects _, fun p hp => m.keyed.projectKeys p (List.mem_filter.mp hp).1,
      nodup_filter_keys m.keyed.counters _, m.keyed.tickets, m.keyed.wellKeyed⟩
  refine m.drop keyed (fun k => k = platform.metaKey key ∨ k = platform.counterKey key) ?_ ?_
  · intro k
    rw [DynamoStore.batchDelete, KeyMap.getElem?_dropKeys]
    exact if_congr (by simp [metaKey, counterKey]) rfl rfl
  · intro k item
    cases item with
    | project p =>
      simp only [LocalData.Holds, LocalData.dropProject, List.mem_filter, decide_eq_true_eq]
      constructor
      · intro h
        obtain ⟨⟨hp, other⟩, rfl⟩ := h
        simp [hp, other]
      · intro h
        obtain ⟨stays, hp, rfl⟩ := h
        exact ⟨⟨hp, fun same => stays (Or.inl (metaKey_inj.mpr same))⟩, rfl⟩
    | counter n =>
      simp only [LocalData.Holds, LocalData.dropProject, List.mem_filter, decide_eq_true_eq]
      constructor
      · intro h
        obtain ⟨name, ⟨hc, other⟩, rfl⟩ := h
        refine ⟨?_, name, hc, rfl⟩
        simpa [metaKey_ne_counterKey.symm] using other
      · intro h
        obtain ⟨stays, name, hc, rfl⟩ := h
        exact ⟨name, ⟨hc, fun same => stays (Or.inr (counterKey_inj.mpr same))⟩, rfl⟩
    | ticket t =>
      constructor
      · intro h
        refine ⟨?_, h⟩
        rw [← h.2]
        simp [metaKey_ne_ticketKey.symm, counterKey_ne_ticketKey.symm]
      · exact And.right
    | entry e =>
      constructor
      · intro h
        refine ⟨?_, h⟩
        obtain ⟨kind, h⟩ := h
        rw [← (LocalData.latest_some h).2]
        simp [metaKey_ne_entryKey.symm, counterKey_ne_entryKey.symm]
      · exact And.right

theorem Mirrors.foldl_deleteTicket (m : Mirrors platform d table) (ts : List Ticket) (sound : ∀ t ∈ ts, t.WellKeyed) :
    Mirrors platform (ts.foldl LocalStore.deleteTicket d) (ts.foldl (DynamoStore.deleteTicket platform) table) := by
  induction ts generalizing d table with
  | nil => exact m
  | cons t ts ih =>
    exact ih (m.deleteTicket (sound t (List.mem_cons_self ..))) fun u hu => sound u (List.mem_cons_of_mem _ hu)

theorem Mirrors.deleteProject (m : Mirrors platform d table) (key : String) :
    Mirrors platform (LocalStore.deleteProject d key) (DynamoStore.deleteProject platform table key) := by
  rw [deleteProject_eq fun t => m.mem_listTickets]
  apply Mirrors.dropProject
  apply m.foldl_deleteTicket
  intro t ht
  exact m.keyed.wellKeyed t (m.mem_listTickets.mp ht).1

end

end OtterWorks.Tickets
