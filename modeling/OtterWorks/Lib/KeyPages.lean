import OtterWorks.Lib.KeyMap

namespace OtterWorks.KeyMap

section

variable {κ β : Type} [Ord κ] {rows : List (κ × β)} {last : κ} {n : Nat}

/-- Rows in strictly ascending key order. -/
def Ascending (rows : List (κ × β)) : Prop := rows.Pairwise fun a b => compare a.1 b.1 = .lt

/-- The rows up to a key. -/
def upto (rows : List (κ × β)) (last : κ) : List (κ × β) := rows.filter fun row => compare row.1 last != .gt

theorem Ascending.sublist {l m : List (κ × β)} (h : Ascending m) (sub : l.Sublist m) : Ascending l :=
  List.Pairwise.sublist sub h

theorem mem_upto {row : κ × β} : row ∈ upto rows last ↔ row ∈ rows ∧ compare row.1 last ≠ .gt := by
  simp [upto, List.mem_filter]

theorem pageOf_sublist (rows : List (κ × β)) (last : κ) (n : Nat) : (pageOf rows last n).Sublist rows :=
  (List.take_sublist _ _).trans List.filter_sublist

theorem mem_pageOf {row : κ × β} (h : row ∈ pageOf rows last n) : row ∈ rows ∧ compare last row.1 = .lt := by
  obtain ⟨hm, after⟩ := List.mem_filter.mp (List.mem_of_mem_take h)
  exact ⟨hm, by simpa using after⟩

theorem pageOf_nil (pos : 0 < n) (h : pageOf rows last n = []) {row : κ × β} (held : row ∈ rows) :
    compare last row.1 ≠ .lt := by
  intro after
  have here : row ∈ rows.filter fun row => compare last row.1 == .lt :=
    List.mem_filter.mpr ⟨held, by simpa using after⟩
  rcases List.take_eq_nil_iff.mp h with zero | none
  · omega
  · rw [none] at here
    cases here

variable [Std.TransOrd κ]

theorem ascending_toList (m : KeyMap κ β) : Ascending m.toList := Std.ExtTreeMap.ordered_keys_toList

theorem Ascending.nodup {l : List (κ × β)} (h : Ascending l) : l.Nodup := by
  refine List.Pairwise.imp ?_ h
  rintro a b before rfl
  have := @Std.ReflCmp.compare_self _ compare _ a.1
  rw [before] at this
  cases this

/-- A page leaves out no row between its first and its last. -/
theorem pageOf_full (sorted : Ascending rows) {final : κ × β} (hlast : (pageOf rows last n).getLast? = some final)
    {row : κ × β} (held : row ∈ rows) (after : compare last row.1 = .lt) (upto : compare row.1 final.1 ≠ .gt) :
    row ∈ pageOf rows last n := by
  have here : row ∈ rows.filter fun row => compare last row.1 == .lt :=
    List.mem_filter.mpr ⟨held, by simpa using after⟩
  rw [← List.take_append_drop n (rows.filter _)] at here
  rcases List.mem_append.mp here with inside | outside
  · exact inside
  · exfalso
    have sorted := sorted.sublist (List.filter_sublist (p := fun row => compare last row.1 == .lt))
    unfold Ascending at sorted
    rw [← List.take_append_drop n (rows.filter _), List.pairwise_append] at sorted
    have before := sorted.2.2 final (List.mem_of_getLast? hlast) row outside
    exact upto (Std.OrientedCmp.gt_iff_lt.mpr before)

theorem upto_or_after {k last : κ} : compare k last ≠ .gt ∨ compare last k = .lt := by
  by_cases h : compare k last = .gt
  · exact Or.inr (Std.OrientedCmp.gt_iff_lt.mp h)
  · exact Or.inl h

/-- The rows up to a page's last key are those before the page and the page. -/
theorem upto_page (sorted : Ascending rows) {final : κ × β} (hlast : (pageOf rows last n).getLast? = some final) :
    upto rows final.1 = upto rows last ++ pageOf rows last n := by
  have forward := (mem_pageOf (List.mem_of_getLast? hlast)).2
  have joined : Ascending (upto rows last ++ pageOf rows last n) := by
    refine List.pairwise_append.mpr ⟨sorted.sublist List.filter_sublist, sorted.sublist (pageOf_sublist ..), ?_⟩
    intro a ha b hb
    have before := (mem_upto.mp ha).2
    exact Std.TransCmp.lt_of_isLE_of_lt (Ordering.isLE_iff_ne_gt.mpr before) (mem_pageOf hb).2
  have perm : (upto rows final.1).Perm (upto rows last ++ pageOf rows last n) := by
    have once : (upto rows final.1).Nodup := (sorted.sublist List.filter_sublist).nodup
    refine (List.perm_ext_iff_of_nodup once joined.nodup).mpr fun row => ?_
    rw [List.mem_append, mem_upto, mem_upto]
    constructor
    · rintro ⟨held, here⟩
      rcases @upto_or_after _ _ _ row.1 last with before | after
      · exact Or.inl ⟨held, before⟩
      · exact Or.inr (pageOf_full sorted hlast held after here)
    · rintro (⟨held, before⟩ | inside)
      · refine ⟨held, ?_⟩
        have := Std.TransCmp.lt_of_isLE_of_lt (Ordering.isLE_iff_ne_gt.mpr before) forward
        simp [this]
      · refine ⟨(pageOf_sublist ..).subset inside, ?_⟩
        have sorted := sorted.sublist (pageOf_sublist rows last n)
        obtain ⟨front, split⟩ := List.getLast?_eq_some_iff.mp hlast
        rw [split] at sorted inside
        rcases List.mem_append.mp inside with h | h
        · have := (List.pairwise_append.mp sorted).2.2 row h final (by simp)
          simp [this]
        · rw [List.mem_singleton.mp h]
          simp
  refine perm.eq_of_pairwise ?_ (sorted.sublist List.filter_sublist) joined
  intro a b _ _ hab hba
  have := Std.OrientedCmp.gt_iff_lt.mpr hab
  rw [hba] at this
  cases this

/-- Each page leaves fewer keys to come. -/
theorem fewer_after {keys : List κ} {final : κ} (held : final ∈ keys) (after : compare last final = .lt) :
    (keys.filter fun k => compare final k == .lt).length < (keys.filter fun k => compare last k == .lt).length := by
  have nested : keys.filter (fun k => compare final k == .lt) =
      (keys.filter fun k => compare last k == .lt).filter fun k => compare final k == .lt := by
    rw [List.filter_filter]
    apply List.filter_congr
    intro k _
    by_cases h : compare final k = .lt
    · simp [h, Std.TransCmp.lt_trans after h]
    · simp [h]
  rw [nested, List.length_filter_lt_length_iff_exists]
  exact ⟨final, List.mem_filter.mpr ⟨held, by simpa using after⟩, by simp⟩

end

end OtterWorks.KeyMap
