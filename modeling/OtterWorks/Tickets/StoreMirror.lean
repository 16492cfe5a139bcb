import OtterWorks.Lib.Sorting
import OtterWorks.Tickets.StoreOps

namespace OtterWorks.Tickets

open StorePlatform

section Records

variable {α : Type} {key : α → String} {row x : α} {rows : List α}

theorem mem_setKey : x ∈ setKey key row rows ↔ x = row ∨ (x ∈ rows ∧ key x ≠ key row) := by
  rw [setKey]
  by_cases there : (rows.any fun r => decide (key r = key row)) = true
  · rw [upsert_conflict there, List.mem_map]
    obtain ⟨old, hold, same⟩ := List.any_eq_true.mp there
    constructor
    · intro h
      obtain ⟨r, hr, h⟩ := h
      by_cases hit : key r = key row
      · rw [if_pos (decide_eq_true hit)] at h
        exact Or.inl h.symm
      · rw [if_neg (by simpa using hit)] at h
        rw [← h]
        exact Or.inr ⟨hr, hit⟩
    · intro h
      rcases h with rfl | ⟨hx, other⟩
      · exact ⟨old, hold, if_pos same⟩
      · exact ⟨x, hx, if_neg (by simpa using other)⟩
  · rw [upsert_new (by simpa using there), List.mem_append, List.mem_singleton, or_comm]
    have fresh : x ∈ rows → key x ≠ key row := fun hx same =>
      there (List.any_eq_true.mpr ⟨x, hx, decide_eq_true same⟩)
    constructor
    · intro h
      exact h.imp_right fun hx => ⟨hx, fresh hx⟩
    · intro h
      exact h.imp_right And.left

theorem nodup_setKey (distinct : (rows.map key).Nodup) : ((setKey key row rows).map key).Nodup := by
  rw [setKey]
  by_cases there : (rows.any fun r => decide (key r = key row)) = true
  · rw [upsert_conflict there, List.map_map]
    have same : rows.map (key ∘ fun r => if decide (key r = key row) = true then row else r) = rows.map key := by
      apply List.map_congr_left
      intro r _
      by_cases hit : key r = key row
      · simp [hit]
      · simp [hit]
    rw [same]
    exact distinct
  · rw [upsert_new (by simpa using there), List.map_append, List.map_singleton]
    apply List.nodup_append'.mpr
    refine ⟨distinct, List.nodup_singleton _, ?_⟩
    intro k hk last
    obtain ⟨r, hr, rfl⟩ := List.mem_map.mp hk
    exact there (List.any_eq_true.mpr ⟨r, hr, decide_eq_true (List.mem_singleton.mp last)⟩)

theorem nodup_filter_keys (distinct : (rows.map key).Nodup) (p : α → Bool) : ((rows.filter p).map key).Nodup :=
  distinct.sublist (List.filter_sublist.map key)

/-- Rows with distinct keys are found under them. -/
theorem find?_key_eq_some (distinct : (rows.map key).Nodup) {k : String} :
    (rows.find? fun r => key r = k) = some x ↔ x ∈ rows ∧ key x = k := by
  constructor
  · intro h
    exact ⟨List.mem_of_find?_eq_some h, by simpa using List.find?_some h⟩
  · intro h
    cases found : rows.find? fun r => key r = k with
    | none =>
      have miss := List.find?_eq_none.mp found x h.1
      exact absurd (decide_eq_true h.2) miss
    | some r =>
      have there : key r = k := by simpa using List.find?_some found
      rw [List.inj_on_of_nodup_map distinct (List.mem_of_find?_eq_some found) h.1 (there.trans h.2.symm)]

theorem find?_filter_kept {p q : α → Bool} (kept : ∀ r ∈ rows, q r = true → p r = true) :
    (rows.filter p).find? q = rows.find? q := by
  induction rows with
  | nil => rfl
  | cons r rows ih =>
    have rest := ih fun x hx => kept x (List.mem_cons_of_mem _ hx)
    by_cases hit : q r = true
    · simp [kept r (List.mem_cons_self ..) hit, hit]
    · by_cases pass : p r = true
      · simp [pass, hit, rest]
      · simp [pass, hit, rest]

theorem find?_filter_dropped {p q : α → Bool} (dropped : ∀ r ∈ rows, q r = true → p r = false) :
    (rows.filter p).find? q = none := by
  apply List.find?_eq_none.mpr
  intro r hr hit
  obtain ⟨mem, pass⟩ := List.mem_filter.mp hr
  rw [dropped r mem hit] at pass
  cases pass

end Records

/-- What a local store keeps of its keys. -/
structure LocalData.Keyed {Time : Type} (d : LocalData Time) : Prop where
  projects : (d.projects.map Project.key).Nodup
  projectKeys : ∀ p ∈ d.projects, isProjectKey p.key.toList
  counters : (d.counters.map Prod.fst).Nodup
  tickets : (d.tickets.map Ticket.key).Nodup
  wellKeyed : ∀ t ∈ d.tickets, t.WellKeyed

inductive ItemForm
  | project
  | counter
  | ticket
  | entry

def Item.form {Time : Type} : Item Time → ItemForm
  | .project _ => .project
  | .counter _ => .counter
  | .ticket _ => .ticket
  | .entry _ => .entry

section

variable {Time Place : Type} {platform : StorePlatform Time Place}

/-- A key of the form that an item's key has. -/
def KeyedAs (platform : StorePlatform Time Place) (k : ItemKey Place) : Item Time → Prop
  | .project p => platform.metaKey p.key = k
  | .counter _ => ∃ key, platform.counterKey key = k
  | .ticket t => platform.ticketKey t.projectKey t.number = k
  | .entry e => ∃ kind, platform.entryKey kind e = k

/-- A key has one form. -/
theorem KeyedAs.form_eq {k : ItemKey Place} {i j : Item Time} (hi : KeyedAs platform k i)
    (hj : KeyedAs platform k j) : i.form = j.form := by
  cases i <;> cases j <;>
    grind [KeyedAs, Item.form, metaKey_ne_counterKey, metaKey_ne_ticketKey, counterKey_ne_ticketKey, metaKey_ne_entryKey,
      counterKey_ne_entryKey, ticketKey_ne_entryKey]

end

section

variable {Time Place : Type} [LinearOrder Place] (platform : StorePlatform Time Place)

/-- The last of the entries that share a sort key. -/
def LocalData.latest (d : LocalData Time) (kind : Kind) (k : ItemKey Place) : Option (Entry Time) :=
  (d.entries kind).reverse.find? fun e => platform.entryKey kind e = k

/-- Whether a local store says that a key has an item. -/
def LocalData.Holds (d : LocalData Time) (k : ItemKey Place) : Item Time → Prop
  | .project p => p ∈ d.projects ∧ platform.metaKey p.key = k
  | .counter n => ∃ key, (key, n) ∈ d.counters ∧ platform.counterKey key = k
  | .ticket t => t ∈ d.tickets ∧ platform.ticketKey t.projectKey t.number = k
  | .entry e => ∃ kind, d.latest platform kind k = some e

/-- A table that holds what a local store says. -/
structure Mirrors (d : LocalData Time) (table : Table Time Place) : Prop where
  keyed : d.Keyed
  held : ∀ k item, table[k]? = some item ↔ d.Holds platform k item

end

section

variable {Time Place : Type} [LinearOrder Place] {platform : StorePlatform Time Place} {d d' : LocalData Time}
  {table : Table Time Place}

theorem LocalData.latest_some {kind : Kind} {k : ItemKey Place} {e : Entry Time}
    (h : d.latest platform kind k = some e) : e ∈ d.entries kind ∧ platform.entryKey kind e = k :=
  ⟨List.mem_reverse.mp (List.mem_of_find?_eq_some h), by simpa using List.find?_some h⟩

theorem LocalData.Holds.keyedAs {k : ItemKey Place} {item : Item Time} (h : d.Holds platform k item) :
    KeyedAs platform k item := by
  cases item with
  | project p => exact h.2
  | counter n =>
    obtain ⟨key, _, here⟩ := h
    exact ⟨key, here⟩
  | ticket t => exact h.2
  | entry e =>
    obtain ⟨kind, h⟩ := h
    exact ⟨kind, (LocalData.latest_some h).2⟩

/-- An item that is put under a key leaves the items of the other forms as they are. -/
theorem Mirrors.insert (m : Mirrors platform d table) (keyed : d'.Keyed) {k : ItemKey Place} {item : Item Time}
    (form : KeyedAs platform k item)
    (others : ∀ k' i, i.form ≠ item.form → (d'.Holds platform k' i ↔ d.Holds platform k' i))
    (new : ∀ k' i, i.form = item.form →
      (d'.Holds platform k' i ↔ (k = k' ∧ i = item) ∨ (k ≠ k' ∧ d.Holds platform k' i))) :
    Mirrors platform d' (table.insert k item) := by
  refine ⟨keyed, ?_⟩
  intro k' i
  rw [Std.ExtTreeMap.getElem?_insert]
  by_cases same : i.form = item.form
  · rw [new k' i same]
    by_cases here : k = k'
    · simp [here, eq_comm]
    · simp [here, m.held]
  · rw [others k' i same, ← m.held]
    by_cases here : k = k'
    · subst here
      have other : ¬ item = i := fun equal => same (by rw [equal])
      have absent : table[k]? ≠ some i := fun held =>
        same (((m.held k i).mp held).keyedAs.form_eq form)
      simp [other, absent]
    · simp [here]

theorem Mirrors.drop (m : Mirrors platform d table) (keyed : d'.Keyed) {table' : Table Time Place}
    (gone : ItemKey Place → Prop) [DecidablePred gone]
    (dropped : ∀ k, table'[k]? = if gone k then none else table[k]?)
    (left : ∀ k i, d'.Holds platform k i ↔ ¬ gone k ∧ d.Holds platform k i) : Mirrors platform d' table' := by
  refine ⟨keyed, ?_⟩
  intro k i
  rw [left, dropped]
  by_cases there : gone k
  · simp [there]
  · simp [there, m.held]

theorem mirrors_empty : Mirrors platform LocalData.empty (∅ : Table Time Place) where
  keyed := ⟨List.nodup_nil, by simp [LocalData.empty], List.nodup_nil, List.nodup_nil, by simp [LocalData.empty]⟩
  held := by
    intro k item
    rw [Std.ExtTreeMap.getElem?_empty]
    cases item with
    | project p => simp [LocalData.Holds, LocalData.empty]
    | counter n => simp [LocalData.Holds, LocalData.empty]
    | ticket t => simp [LocalData.Holds, LocalData.empty]
    | entry e =>
      have none : ∀ kind, (LocalData.empty : LocalData Time).latest platform kind k = none := by
        intro kind
        cases kind <;> rfl
      simp [LocalData.Holds, none]

end

end OtterWorks.Tickets
