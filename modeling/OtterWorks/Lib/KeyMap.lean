import Std.Data.ExtTreeMap
import Mathlib.Data.List.Perm.Subperm
import Mathlib.Order.Compare
import Mathlib.Data.List.Nodup
import Mathlib.Order.Lattice

namespace OtterWorks

/-- A relation with one row for each key, read in key order. -/
abbrev KeyMap (κ β : Type) [Ord κ] := Std.ExtTreeMap κ β compare

namespace KeyMap

def upsertAll {κ β : Type} [Ord κ] [Std.TransOrd κ] (m : KeyMap κ β) (rows : List (κ × β)) :
    KeyMap κ β :=
  rows.foldl (fun m row => m.insert row.1 row.2) m

/-- Insertion in which a row that is already there wins. -/
def addNew {κ β : Type} [Ord κ] [Std.TransOrd κ] (m : KeyMap κ β) (rows : List (κ × β)) :
    KeyMap κ β :=
  rows.foldl (fun m row => m.insertIfNew row.1 row.2) m

def dropKeys {κ β : Type} [Ord κ] [DecidableEq κ] (m : KeyMap κ β) (keys : List κ) : KeyMap κ β :=
  m.filter fun k _ => k ∉ keys

/-- The first `n` of some rows after a key. -/
def pageOf {κ β : Type} [Ord κ] (rows : List (κ × β)) (last : κ) (n : Nat) : List (κ × β) :=
  (rows.filter fun row => compare last row.1 == .lt).take n

def page {κ β : Type} [Ord κ] [Std.TransOrd κ] (m : KeyMap κ β) (last : κ) (n : Nat) : List (κ × β) :=
  pageOf m.toList last n

def countIf {κ β : Type} [Ord κ] (m : KeyMap κ β) (p : β → Bool) : Nat :=
  (m.filter fun _ v => p v).size

theorem getElem?_upsertAll {κ β : Type} [Ord κ] [Std.TransOrd κ] [Std.LawfulEqOrd κ] [DecidableEq κ]
    (m : KeyMap κ β) (rows : List (κ × β)) (k : κ) :
    (m.upsertAll rows)[k]? = ((rows.reverse.find? fun row => row.1 = k).map Prod.snd).or m[k]? := by
  induction rows generalizing m with
  | nil => simp [upsertAll]
  | cons row rows ih =>
    have step : m.upsertAll (row :: rows) = upsertAll (m.insert row.1 row.2) rows := rfl
    rw [step, ih, List.reverse_cons, List.find?_append, Std.ExtTreeMap.getElem?_insert]
    cases rows.reverse.find? fun row => row.1 = k with
    | some found => simp
    | none =>
      by_cases same : row.1 = k
      · simp [same]
      · simp [same]

theorem getElem?_addNew {κ β : Type} [Ord κ] [Std.TransOrd κ] [Std.LawfulEqOrd κ] [DecidableEq κ]
    (m : KeyMap κ β) (rows : List (κ × β)) (k : κ) :
    (m.addNew rows)[k]? = m[k]?.or ((rows.find? fun row => row.1 = k).map Prod.snd) := by
  induction rows generalizing m with
  | nil => simp [addNew]
  | cons row rows ih =>
    have step : m.addNew (row :: rows) = addNew (m.insertIfNew row.1 row.2) rows := rfl
    rw [step, ih, List.find?_cons, Std.ExtTreeMap.getElem?_insertIfNew]
    by_cases same : row.1 = k
    · subst same
      by_cases held : row.1 ∈ m
      · simp [held]
      · simp [held]
    · simp [same]

theorem getElem?_dropKeys {κ β : Type} [Ord κ] [Std.TransOrd κ] [Std.LawfulEqOrd κ] [DecidableEq κ]
    (m : KeyMap κ β) (keys : List κ) (k : κ) :
    (m.dropKeys keys)[k]? = if k ∈ keys then none else m[k]? := by
  rw [dropKeys, Std.ExtTreeMap.getElem?_filter']
  by_cases hk : k ∈ keys
  · cases m[k]? <;> simp [hk]
  · cases m[k]? <;> simp [hk]

theorem upsertAll_append {κ β : Type} [Ord κ] [Std.TransOrd κ] (m : KeyMap κ β) (xs ys : List (κ × β)) :
    m.upsertAll (xs ++ ys) = (m.upsertAll xs).upsertAll ys := by
  simp [upsertAll, List.foldl_append]

theorem addNew_append {κ β : Type} [Ord κ] [Std.TransOrd κ] (m : KeyMap κ β) (xs ys : List (κ × β)) :
    m.addNew (xs ++ ys) = (m.addNew xs).addNew ys := by
  simp [addNew, List.foldl_append]

/-- A listed row is found under its key when the list names each key once. -/
theorem find?_key_of_mem {κ β : Type} [DecidableEq κ] {rows : List (κ × β)}
    (distinct : (rows.map Prod.fst).Nodup) {k : κ} {v : β} (h : (k, v) ∈ rows) :
    (rows.find? fun row => row.1 = k) = some (k, v) := by
  induction rows with
  | nil => simp at h
  | cons row rows ih =>
    obtain ⟨fresh, distinct⟩ := List.nodup_cons.mp distinct
    rcases List.mem_cons.mp h with rfl | h
    · simp
    · have other : row.1 ≠ k := by
        rintro rfl
        exact fresh (List.mem_map.mpr ⟨_, h, rfl⟩)
      simp [other, ih distinct h]

theorem find?_key_none {κ β : Type} [DecidableEq κ] {rows : List (κ × β)} {k : κ}
    (absent : k ∉ rows.map Prod.fst) : (rows.find? fun row => row.1 = k) = none := by
  apply List.find?_eq_none.mpr
  intro row hr same
  exact absent (List.mem_map.mpr ⟨row, hr, by simpa using same⟩)

theorem upsertAll_of_mem {κ β : Type} [Ord κ] [Std.TransOrd κ] [Std.LawfulEqOrd κ] [DecidableEq κ]
    {m : KeyMap κ β} {rows : List (κ × β)} (distinct : (rows.map Prod.fst).Nodup) {k : κ} {v : β}
    (h : (k, v) ∈ rows) : (m.upsertAll rows)[k]? = some v := by
  have found := @find?_key_of_mem _ _ _ rows.reverse
      (by rw [List.map_reverse]; exact (List.reverse_perm _).nodup_iff.mpr distinct) _ _ (List.mem_reverse.mpr h)
  simp [getElem?_upsertAll, found]

theorem upsertAll_of_not_mem {κ β : Type} [Ord κ] [Std.TransOrd κ] [Std.LawfulEqOrd κ] [DecidableEq κ]
    {m : KeyMap κ β} {rows : List (κ × β)} {k : κ} (absent : k ∉ rows.map Prod.fst) :
    (m.upsertAll rows)[k]? = m[k]? := by
  have none := @find?_key_none _ _ _ rows.reverse k (by simpa using absent)
  simp [getElem?_upsertAll, none]

/-- Where a row of an upserted relation comes from. -/
theorem upsertAll_cases {κ β : Type} [Ord κ] [Std.TransOrd κ] [Std.LawfulEqOrd κ] [DecidableEq κ]
    {m : KeyMap κ β} {rows : List (κ × β)} {k : κ} {v : β} (h : (m.upsertAll rows)[k]? = some v) :
    (k, v) ∈ rows ∨ (k ∉ rows.map Prod.fst ∧ m[k]? = some v) := by
  by_cases hk : k ∈ rows.map Prod.fst
  · rw [getElem?_upsertAll] at h
    cases hf : rows.reverse.find? fun row => row.1 = k with
    | some found =>
      simp only [hf, Option.map_some, Option.some_or, Option.some.injEq] at h
      have hkey : found.1 = k := by simpa using List.find?_some hf
      have hmem := List.mem_reverse.mp (List.mem_of_find?_eq_some hf)
      left
      rw [← hkey, ← h]
      exact hmem
    | none =>
      obtain ⟨row, hr, rfl⟩ := List.mem_map.mp hk
      have := List.find?_eq_none.mp hf row (List.mem_reverse.mpr hr)
      simp at this
  · exact Or.inr ⟨hk, by rwa [upsertAll_of_not_mem hk] at h⟩

theorem addNew_cases {κ β : Type} [Ord κ] [Std.TransOrd κ] [Std.LawfulEqOrd κ] [DecidableEq κ]
    {m : KeyMap κ β} {rows : List (κ × β)} {k : κ} {v : β} (h : (m.addNew rows)[k]? = some v) :
    m[k]? = some v ∨ (m[k]? = none ∧ (k, v) ∈ rows) := by
  rw [getElem?_addNew] at h
  cases hm : m[k]? with
  | some w =>
    left
    simpa [hm] using h
  | none =>
    right
    simp only [hm, Option.none_or] at h
    obtain ⟨row, hf, hv⟩ := Option.map_eq_some_iff.mp h
    have hkey : row.1 = k := by simpa using List.find?_some hf
    refine ⟨rfl, ?_⟩
    rw [← hkey, ← hv]
    exact List.mem_of_find?_eq_some hf

theorem addNew_of_not_mem {κ β : Type} [Ord κ] [Std.TransOrd κ] [Std.LawfulEqOrd κ] [DecidableEq κ]
    {m : KeyMap κ β} {rows : List (κ × β)} {k : κ} (absent : k ∉ rows.map Prod.fst) :
    (m.addNew rows)[k]? = m[k]? := by
  simp [getElem?_addNew, find?_key_none absent]

section

variable {κ β : Type} [Ord κ] [Std.TransOrd κ]

theorem countIf_eq (m : KeyMap κ β) (p : β → Bool) : m.countIf p = m.toList.countP fun row => p row.2 := by
  rw [countIf, ← Std.ExtTreeMap.length_toList, Std.ExtTreeMap.toList_filter, List.countP_eq_length_filter]

/-- The rows are counted once by two tests of which each row meets one. -/
theorem countIf_add {m : KeyMap κ β} {p q : β → Bool} (one : ∀ v, q v = !p v) :
    m.countIf p + m.countIf q = m.size := by
  rw [countIf_eq, countIf_eq, ← Std.ExtTreeMap.length_toList, List.length_eq_countP_add_countP fun row => p row.2]
  congr 1
  apply List.countP_congr
  intro row _
  simp [one]

variable [Std.LawfulEqOrd κ]

/-- A map that has every key of another and no more rows has no other key. -/
theorem mem_of_size_le {γ : Type} {m : KeyMap κ β} {n : KeyMap κ γ} (sub : ∀ k ∈ m, k ∈ n) (le : n.size ≤ m.size) :
    ∀ k ∈ n, k ∈ m := by
  have subset : m.keys ⊆ n.keys := fun k hk => Std.ExtTreeMap.mem_keys.mpr (sub k (Std.ExtTreeMap.mem_keys.mp hk))
  have length : n.keys.length ≤ m.keys.length := by
    rw [Std.ExtTreeMap.length_keys, Std.ExtTreeMap.length_keys]
    exact le
  have same := (Std.ExtTreeMap.nodup_keys.subperm subset).perm_of_length_le length
  intro k hk
  exact Std.ExtTreeMap.mem_keys.mp (same.mem_iff.mpr (Std.ExtTreeMap.mem_keys.mpr hk))

theorem mem_upsertAll {m : KeyMap κ β} {rows : List (κ × β)} {k : κ} :
    k ∈ m.upsertAll rows ↔ k ∈ m ∨ k ∈ rows.map Prod.fst := by
  induction rows generalizing m with
  | nil => simp [upsertAll]
  | cons row rows ih =>
    have step : m.upsertAll (row :: rows) = upsertAll (m.insert row.1 row.2) rows := rfl
    rw [step, ih, Std.ExtTreeMap.mem_insert, Std.LawfulEqOrd.compare_eq_iff_eq, List.map_cons, List.mem_cons,
      eq_comm (a := row.1), or_comm (a := k = row.1), or_assoc]

theorem mem_addNew {m : KeyMap κ β} {rows : List (κ × β)} {k : κ} :
    k ∈ m.addNew rows ↔ k ∈ m ∨ k ∈ rows.map Prod.fst := by
  induction rows generalizing m with
  | nil => simp [addNew]
  | cons row rows ih =>
    have step : m.addNew (row :: rows) = addNew (m.insertIfNew row.1 row.2) rows := rfl
    rw [step, ih, Std.ExtTreeMap.mem_insertIfNew, Std.LawfulEqOrd.compare_eq_iff_eq, List.map_cons, List.mem_cons,
      eq_comm (a := row.1), or_comm (a := k = row.1), or_assoc]

theorem mem_dropKeys [DecidableEq κ] {m : KeyMap κ β} {keys : List κ} {k : κ} :
    k ∈ m.dropKeys keys ↔ k ∈ m ∧ k ∉ keys := by
  rw [← Std.ExtTreeMap.isSome_getElem?_iff_mem, getElem?_dropKeys, ← Std.ExtTreeMap.isSome_getElem?_iff_mem]
  by_cases hk : k ∈ keys
  · simp [hk]
  · simp [hk]

/-- Rows of different keys are upserted in any order. -/
theorem upsertAll_perm [DecidableEq κ] {m : KeyMap κ β} {xs ys : List (κ × β)} (distinct : (xs.map Prod.fst).Nodup)
    (perm : xs.Perm ys) : m.upsertAll xs = m.upsertAll ys := by
  have distinct' : (ys.map Prod.fst).Nodup := (perm.map Prod.fst).nodup_iff.mp distinct
  apply Std.ExtTreeMap.ext_getElem?
  intro k
  by_cases hk : k ∈ xs.map Prod.fst
  · obtain ⟨row, hrow, rfl⟩ := List.mem_map.mp hk
    rw [upsertAll_of_mem distinct hrow, upsertAll_of_mem distinct' (perm.subset hrow)]
  · have hk' : k ∉ ys.map Prod.fst := fun held => hk ((perm.map Prod.fst).symm.subset held)
    rw [upsertAll_of_not_mem hk, upsertAll_of_not_mem hk']

theorem upsertAll_eq_self_iff [DecidableEq κ] {m : KeyMap κ β} {rows : List (κ × β)}
    (distinct : (rows.map Prod.fst).Nodup) : m.upsertAll rows = m ↔ ∀ row ∈ rows, m[row.1]? = some row.2 := by
  constructor
  · intro same row member
    have here : (m.upsertAll rows)[row.1]? = some row.2 := upsertAll_of_mem distinct member
    rw [same] at here
    exact here
  · intro held
    apply Std.ExtTreeMap.ext_getElem?
    intro k
    by_cases hk : k ∈ rows.map Prod.fst
    · obtain ⟨row, member, rfl⟩ := List.mem_map.mp hk
      rw [upsertAll_of_mem distinct member, held row member]
    · exact upsertAll_of_not_mem hk

theorem addNew_eq_self_iff [DecidableEq κ] {m : KeyMap κ β} {rows : List (κ × β)} :
    m.addNew rows = m ↔ ∀ row ∈ rows, row.1 ∈ m := by
  constructor
  · intro same row member
    have here : row.1 ∈ m.addNew rows := mem_addNew.mpr (Or.inr (List.mem_map_of_mem member))
    rw [same] at here
    exact here
  · intro held
    apply Std.ExtTreeMap.ext_getElem?
    intro k
    by_cases hk : k ∈ m
    · obtain ⟨v, found⟩ := Option.isSome_iff_exists.mp (Std.ExtTreeMap.isSome_getElem?_iff_mem.mpr hk)
      rw [getElem?_addNew, found, Option.some_or]
    · apply addNew_of_not_mem
      intro listed
      obtain ⟨row, member, rfl⟩ := List.mem_map.mp listed
      exact hk (held row member)

/-- A row under a new key is counted if it passes. -/
theorem countIf_insertIfNew {m : KeyMap κ β} {k : κ} {v : β} {p : β → Bool} :
    countIf (m.insertIfNew k v) p = if k ∈ m then m.countIf p else m.countIf p + if p v then 1 else 0 := by
  by_cases held : k ∈ m
  · have same : m.insertIfNew k v = m := by
      apply Std.ExtTreeMap.ext_getElem?
      intro k'
      rw [Std.ExtTreeMap.getElem?_insertIfNew]
      by_cases eq : k = k'
      · simp [← eq, held]
      · simp [eq]
    rw [if_pos held, same]
  · rw [if_neg held]
    by_cases passes : p v = true
    · have same : ((m.insertIfNew k v).filter fun _ v => p v) = (m.filter fun _ v => p v).insert k v := by
        apply Std.ExtTreeMap.ext_getElem?
        intro k'
        rw [Std.ExtTreeMap.getElem?_filter', Std.ExtTreeMap.getElem?_insertIfNew, Std.ExtTreeMap.getElem?_insert,
          Std.ExtTreeMap.getElem?_filter']
        by_cases eq : k = k'
        · simp [← eq, held, passes]
        · simp [eq]
      have absent : k ∉ m.filter fun _ v => p v := fun h => held (Std.ExtTreeMap.mem_of_mem_filter h)
      rw [if_pos passes, countIf, same, Std.ExtTreeMap.size_insert, if_neg (by simpa using absent), countIf]
    · have same : ((m.insertIfNew k v).filter fun _ v => p v) = m.filter fun _ v => p v := by
        apply Std.ExtTreeMap.ext_getElem?
        intro k'
        rw [Std.ExtTreeMap.getElem?_filter', Std.ExtTreeMap.getElem?_insertIfNew, Std.ExtTreeMap.getElem?_filter']
        by_cases eq : k = k'
        · simp [← eq, held, passes]
        · simp [eq]
      rw [if_neg passes, countIf, same, countIf, Nat.add_zero]

/-- Of rows that all pass, as many are counted more as there are, exactly when their keys are new and distinct. -/
theorem countIf_addNew {m : KeyMap κ β} {rows : List (κ × β)} {p : β → Bool} (passes : ∀ row ∈ rows, p row.2 = true) :
    (m.addNew rows).countIf p ≤ m.countIf p + rows.length ∧
      ((m.addNew rows).countIf p = m.countIf p + rows.length ↔
        (rows.map Prod.fst).Nodup ∧ ∀ k ∈ rows.map Prod.fst, k ∉ m) := by
  induction rows generalizing m with
  | nil => simp [addNew]
  | cons row rows ih =>
    have step : m.addNew (row :: rows) = addNew (m.insertIfNew row.1 row.2) rows := rfl
    obtain ⟨most, all⟩ := @ih (m.insertIfNew row.1 row.2) fun r hr => passes r (List.mem_cons_of_mem _ hr)
    have first := @countIf_insertIfNew _ _ _ _ _ m row.1 row.2 p
    rw [if_pos (passes row (List.mem_cons_self ..))] at first
    rw [step, List.length_cons, List.map_cons, List.nodup_cons]
    by_cases held : row.1 ∈ m
    · rw [if_pos held] at first
      refine ⟨by omega, iff_of_false (by omega) ?_⟩
      rintro ⟨_, fresh⟩
      exact fresh row.1 (List.mem_cons_self ..) held
    · rw [if_neg held] at first
      refine ⟨by omega, ?_⟩
      have shift : countIf (addNew (m.insertIfNew row.1 row.2) rows) p = m.countIf p + (rows.length + 1) ↔
          countIf (addNew (m.insertIfNew row.1 row.2) rows) p = countIf (m.insertIfNew row.1 row.2) p + rows.length := by
        omega
      rw [shift, all]
      simp only [Std.ExtTreeMap.mem_insertIfNew, Std.LawfulEqOrd.compare_eq_iff_eq, List.mem_cons]
      constructor
      · rintro ⟨distinct, fresh⟩
        refine ⟨⟨fun again => fresh _ again (Or.inl rfl), distinct⟩, ?_⟩
        rintro k (rfl | hk)
        · exact held
        · exact fun old => fresh k hk (Or.inr old)
      · rintro ⟨⟨once, distinct⟩, fresh⟩
        refine ⟨distinct, fun k hk => ?_⟩
        rintro (rfl | old)
        · exact once hk
        · exact fresh k (Or.inr hk) old

/-- Rows of new and distinct keys are the same written either way. -/
theorem upsertAll_eq_addNew {m : KeyMap κ β} {rows : List (κ × β)} (distinct : (rows.map Prod.fst).Nodup)
    (fresh : ∀ k ∈ rows.map Prod.fst, k ∉ m) : m.upsertAll rows = m.addNew rows := by
  induction rows generalizing m with
  | nil => rfl
  | cons row rows ih =>
    obtain ⟨once, distinct⟩ := List.nodup_cons.mp distinct
    have new := fresh row.1 (List.mem_cons_self ..)
    have first : m.insert row.1 row.2 = m.insertIfNew row.1 row.2 := by
      apply Std.ExtTreeMap.ext_getElem?
      intro k
      rw [Std.ExtTreeMap.getElem?_insert, Std.ExtTreeMap.getElem?_insertIfNew]
      by_cases eq : row.1 = k
      · simp [← eq, new]
      · simp [eq]
    change upsertAll (m.insert row.1 row.2) rows = addNew (m.insertIfNew row.1 row.2) rows
    rw [first]
    apply ih distinct
    intro k hk
    rw [Std.ExtTreeMap.mem_insertIfNew, Std.LawfulEqOrd.compare_eq_iff_eq]
    rintro (rfl | old)
    · exact once hk
    · exact fresh k (List.mem_cons_of_mem _ hk) old

theorem mem_toList {m : KeyMap κ β} {k : κ} {v : β} : (k, v) ∈ m.toList ↔ m[k]? = some v :=
  Std.ExtTreeMap.mem_toList_iff_getElem?_eq_some

theorem mem_filter_keys {m : KeyMap κ β} {p : κ → β → Bool} {k : κ} :
    k ∈ (m.filter p).keys ↔ ∃ v, m[k]? = some v ∧ p k v = true := by
  rw [Std.ExtTreeMap.mem_keys, ← Std.ExtTreeMap.isSome_getElem?_iff_mem, Std.ExtTreeMap.getElem?_filter']
  cases m[k]? with
  | none => simp
  | some v =>
    by_cases h : p k v = true
    · simp [h]
    · simp [h]

theorem mem_listed {γ : Type} {m : KeyMap κ β} {p : κ × β → Bool} {pick : β → Option γ} {c : γ} :
    c ∈ (m.toList.filter p).filterMap (fun row => pick row.2) ↔
      ∃ k v, m[k]? = some v ∧ p (k, v) = true ∧ pick v = some c := by
  simp only [List.mem_filterMap, List.mem_filter, Prod.exists, mem_toList, and_assoc]

end

section

variable {κ β : Type} [Ord κ] [Std.TransOrd κ]

/-- A downward closed part of a sorted list is a front of it. -/
theorem takeWhile_eq_filter {α : Type} {p : α → Bool} {l : List α} (closed : l.Pairwise fun a b => p b = true → p a = true) :
    l.takeWhile p = l.filter p := by
  induction l with
  | nil => rfl
  | cons a l ih =>
    obtain ⟨first, rest⟩ := List.pairwise_cons.mp closed
    by_cases here : p a = true
    · rw [List.takeWhile_cons_of_pos here, List.filter_cons_of_pos here, ih rest]
    · have none : l.filter p = [] := List.filter_eq_nil_iff.mpr fun b hb later => here (first b hb later)
      rw [List.takeWhile_cons_of_neg here, List.filter_cons_of_neg here, none]

theorem takeWhile_toList (m : KeyMap κ β) (k : κ) :
    (m.toList.takeWhile fun row => (compare row.1 k).isLE) = (m.filter fun d _ => (compare d k).isLE).toList := by
  rw [Std.ExtTreeMap.toList_filter]
  apply takeWhile_eq_filter
  have ordered : m.toList.Pairwise fun a b => compare a.1 b.1 = .lt := Std.ExtTreeMap.ordered_keys_toList
  refine ordered.imp ?_
  intro a b less le
  have first : (compare a.1 b.1).isLE = true := by rw [less]; rfl
  exact Std.TransCmp.isLE_trans first le

end

/-- What is listed of some rows is in the order of its keys. -/
theorem listed_sorted {κ β γ : Type} [LinearOrder κ] {m : KeyMap κ β} {p : κ × β → Bool} {pick : β → Option γ}
    {keyOf : γ → κ} (keyed : ∀ k v c, m[k]? = some v → p (k, v) = true → pick v = some c → keyOf c = k) :
    ((m.toList.filter p).filterMap fun row => pick row.2).Pairwise fun x y => keyOf x < keyOf y := by
  rw [List.pairwise_filterMap]
  have ordered : m.toList.Pairwise fun a b => compare a.1 b.1 = .lt := Std.ExtTreeMap.ordered_keys_toList
  apply (ordered.filter p).imp_of_mem
  intro a b ha hb less x hx y hy
  obtain ⟨memA, passA⟩ := List.mem_filter.mp ha
  obtain ⟨memB, passB⟩ := List.mem_filter.mp hb
  rw [keyed a.1 a.2 x (mem_toList.mp memA) passA hx, keyed b.1 b.2 y (mem_toList.mp memB) passB hy]
  exact compare_lt_iff_lt.mp less

end KeyMap

/-- A relation whose rows hold the key they are stored under. -/
structure Keyed {κ β : Type} [Ord κ] [Std.TransOrd κ] (key : β → κ) where
  rows : KeyMap κ β
  keyed : ∀ k b, rows[k]? = some b → key b = k

namespace Keyed

section

variable {κ β : Type} [Ord κ] [Std.TransOrd κ] [Std.LawfulEqOrd κ] {key : β → κ}

def empty : Keyed key := ⟨∅, by simp⟩

/-- `INSERT .. ON CONFLICT (key) DO UPDATE` of every column. -/
def put (t : Keyed key) (b : β) : Keyed key where
  rows := t.rows.insert (key b) b
  keyed := by
    intro k c h
    rw [Std.ExtTreeMap.getElem?_insert] at h
    split at h
    next same =>
      cases Option.some.inj h
      exact Std.LawfulEqOrd.compare_eq_iff_eq.mp same
    next => exact t.keyed k c h

/-- All rows, in key order. -/
def list (t : Keyed key) : List β := t.rows.toList.map Prod.snd

theorem getElem?_put [DecidableEq κ] (t : Keyed key) (b : β) (k : κ) :
    (t.put b).rows[k]? = if key b = k then some b else t.rows[k]? := by
  have same : compare (key b) k = .eq ↔ key b = k := Std.LawfulEqOrd.compare_eq_iff_eq
  rw [put, Std.ExtTreeMap.getElem?_insert]
  by_cases h : key b = k
  · rw [if_pos h, if_pos (same.mpr h)]
  · rw [if_neg h, if_neg fun eq => h (same.mp eq)]

theorem mem_put {t : Keyed key} {b : β} {k : κ} : k ∈ (t.put b).rows ↔ k ∈ t.rows ∨ k = key b := by
  rw [put, Std.ExtTreeMap.mem_insert, Std.LawfulEqOrd.compare_eq_iff_eq, or_comm, eq_comm]

theorem mem_list {t : Keyed key} {b : β} : b ∈ t.list ↔ t.rows[key b]? = some b := by
  rw [list, List.mem_map]
  constructor
  · rintro ⟨⟨k, c⟩, member, rfl⟩
    have found := KeyMap.mem_toList.mp member
    rw [t.keyed k c found]
    exact found
  · intro found
    exact ⟨(key b, b), KeyMap.mem_toList.mpr found, rfl⟩

/-- Rows put one after another. -/
def putAll (t : Keyed key) (bs : List β) : Keyed key := bs.foldl put t

theorem find?_list [DecidableEq κ] (t : Keyed key) (k : κ) : (t.list.reverse.find? fun b => key b = k) = t.rows[k]? := by
  cases found : t.list.reverse.find? fun b => key b = k with
  | none =>
    cases held : t.rows[k]? with
    | none => rfl
    | some b =>
      have same := t.keyed k b held
      subst same
      have other := List.find?_eq_none.mp found b (List.mem_reverse.mpr (mem_list.mpr held))
      simp at other
  | some b =>
    have same : key b = k := by simpa using List.find?_some found
    rw [← same]
    exact (mem_list.mp (List.mem_reverse.mp (List.mem_of_find?_eq_some found))).symm

theorem ext {t u : Keyed key} (same : ∀ k : κ, t.rows[k]? = u.rows[k]?) : t = u := by
  have rows : t.rows = u.rows := Std.ExtTreeMap.ext_getElem? same
  cases t
  cases u
  simp only [mk.injEq]
  exact rows

theorem put_comm {t : Keyed key} {a b : β} (other : key a ≠ key b) : (t.put a).put b = (t.put b).put a := by
  classical
  apply ext
  intro k
  rw [getElem?_put, getElem?_put, getElem?_put, getElem?_put]
  by_cases first : key a = k
  · rw [if_neg fun second => other (first.trans second.symm), if_pos first, if_pos first]
  · rw [if_neg first, if_neg first]

/-- Rows of different keys may be put in any order. -/
theorem putAll_perm {t : Keyed key} {as bs : List β} (distinct : (as.map key).Nodup) (perm : as.Perm bs) :
    t.putAll as = t.putAll bs := by
  apply perm.foldl_eq'
  intro a ha b hb u
  by_cases same : a = b
  · rw [same]
  · exact put_comm fun keys => same (List.inj_on_of_nodup_map distinct ha hb keys)

end

end Keyed

end OtterWorks
