import Mathlib.Data.List.Basic

namespace OtterWorks

variable {α β : Type*}

/-- `INSERT .. ON CONFLICT DO UPDATE`: the rows in conflict are updated, or else the new row is added. -/
def upsert (conflict : α → Bool) (update : α → α) (row : α) (rows : List α) : List α :=
  if rows.any conflict then rows.map fun r => if conflict r then update r else r else rows ++ [row]

section

variable {conflict : α → Bool} {update : α → α} {row : α} {rows : List α}

/-- An update of some rows leaves a field alone that it does not touch. -/
theorem map_updated {field : α → β} {p : α → Prop} [DecidablePred p]
    (keeps : ∀ r ∈ rows, p r → field (update r) = field r) :
    (rows.map fun r => if p r then update r else r).map field = rows.map field := by
  rw [List.map_map]
  apply List.map_congr_left
  intro r member
  rw [Function.comp_apply]
  split
  next hit => exact keeps r member hit
  next => rfl

theorem upsert_conflict (h : rows.any conflict = true) :
    upsert conflict update row rows = rows.map fun r => if conflict r then update r else r := if_pos h

theorem upsert_new (h : rows.any conflict = false) : upsert conflict update row rows = rows ++ [row] := by
  simp [upsert, h]

theorem any_upsert (keeps : ∀ r, conflict r = true → conflict (update r) = true) (new : conflict row = true) :
    (upsert conflict update row rows).any conflict = true := by
  by_cases h : rows.any conflict = true
  · obtain ⟨r, hr, hit⟩ := List.any_eq_true.mp h
    rw [upsert_conflict h]
    refine List.any_eq_true.mpr ⟨_, List.mem_map_of_mem hr, ?_⟩
    simp [hit, keeps r hit]
  · rw [upsert_new (by simpa using h)]
    simp [new]

/-- The same upsert changes nothing the second time. -/
theorem upsert_again (keeps : ∀ r, conflict r = true → conflict (update r) = true) (new : conflict row = true)
    (again : ∀ r, conflict r = true → update (update r) = update r) (newRow : update row = row) :
    upsert conflict update row (upsert conflict update row rows) = upsert conflict update row rows := by
  rw [upsert_conflict (any_upsert keeps new)]
  by_cases h : rows.any conflict = true
  · rw [upsert_conflict h, List.map_map]
    apply List.map_congr_left
    intro r _
    by_cases hit : conflict r = true
    · simp [hit, keeps r hit, again r hit]
    · simp [hit]
  · rw [upsert_new (by simpa using h), List.map_append]
    congr 1
    · have unchanged : (rows.map fun r => if conflict r then update r else r).map id = rows.map id :=
        map_updated fun r hr hit => absurd (List.any_eq_true.mpr ⟨r, hr, hit⟩) h
      rw [List.map_id, List.map_id] at unchanged
      exact unchanged
    · simp [new, newRow]

/-- An upsert whose rows in conflict a filter leaves out is not seen through it. -/
theorem filter_upsert {p : α → Bool} (hidden : ∀ r ∈ rows, conflict r = true → p r = false)
    (stays : ∀ r ∈ rows, conflict r = true → p (update r) = false) (newHidden : p row = false) :
    (upsert conflict update row rows).filter p = rows.filter p := by
  by_cases h : rows.any conflict = true
  · rw [upsert_conflict h]
    clear h
    induction rows with
    | nil => rfl
    | cons r rows ih =>
      have rest := ih (fun x hx => hidden x (List.mem_cons_of_mem _ hx)) fun x hx => stays x (List.mem_cons_of_mem _ hx)
      rw [List.map_cons, List.filter_cons, List.filter_cons, rest]
      by_cases hit : conflict r = true
      · simp [hit, hidden r (List.mem_cons_self ..) hit, stays r (List.mem_cons_self ..) hit]
      · simp [hit]
  · rw [upsert_new (by simpa using h)]
    simp [newHidden]

/-- A predicate that no update touches, and that the new row fails, finds the same. -/
theorem any_upsert_iff {p : α → Bool} (same : ∀ r ∈ rows, conflict r = true → p (update r) = p r)
    (newMiss : p row = false) : (upsert conflict update row rows).any p = rows.any p := by
  by_cases h : rows.any conflict = true
  · rw [upsert_conflict h]
    clear h
    induction rows with
    | nil => rfl
    | cons r rows ih =>
      have rest := ih fun x hx => same x (List.mem_cons_of_mem _ hx)
      rw [List.map_cons, List.any_cons, List.any_cons, rest]
      by_cases hit : conflict r = true
      · simp [hit, same r (List.mem_cons_self ..) hit]
      · simp [hit]
  · rw [upsert_new (by simpa using h)]
    simp [newMiss]

theorem filter_key {κ : Type*} [DecidableEq κ] {key : α → κ} {x : α} (distinct : (rows.map key).Nodup) (member : x ∈ rows) :
    rows.filter (key · = key x) = [x] := by
  induction rows with
  | nil => cases member
  | cons y rows ih =>
    rw [List.map_cons, List.nodup_cons] at distinct
    rcases List.mem_cons.mp member with rfl | later
    · have rest : rows.filter (key · = key x) = [] := by
        rw [List.filter_eq_nil_iff]
        intro z held same
        exact distinct.1 (List.mem_map.mpr ⟨z, held, by simpa using same⟩)
      rw [List.filter_cons_of_pos (by simp), rest]
    · have other : key y ≠ key x := fun same => distinct.1 (same ▸ List.mem_map_of_mem later)
      rw [List.filter_cons_of_neg (by simpa using other), ih distinct.2 later]

theorem filter_key_le_one {κ : Type*} [DecidableEq κ] {key : α → κ} (distinct : (rows.map key).Nodup) (k : κ) :
    (rows.filter (key · = k)).length ≤ 1 := by
  cases found : rows.filter (key · = k) with
  | nil => exact Nat.zero_le 1
  | cons x rest =>
    have hit : x ∈ rows.filter (key · = k) := by rw [found]; exact List.mem_cons_self ..
    obtain ⟨member, same⟩ := List.mem_filter.mp hit
    have same : key x = k := by simpa using same
    have one := filter_key distinct member
    rw [same, found] at one
    rw [one]
    exact Nat.le_refl 1

end

end OtterWorks
