import OtterWorks.Lib.KeyMap
import Mathlib.Algebra.BigOperators.Group.List.Basic

namespace OtterWorks

section

variable {α κ β : Type} [DecidableEq κ]

/-- The entries of a group, in their order. -/
def inGroup (key : α → κ) (k : κ) (xs : List α) : List α := xs.filter fun x => key x = k

/-- What the entries of a group add up to. -/
def groupTotal {M : Type} [AddMonoid M] (key : α → κ) (weight : α → M) (k : κ) (xs : List α) : M :=
  ((inGroup key k xs).map weight).sum

variable {key key' : α → κ} {k : κ} {xs ys : List α}

theorem mem_inGroup {x : α} : x ∈ inGroup key k xs ↔ x ∈ xs ∧ key x = k := by
  simp [inGroup, List.mem_filter]

theorem inGroup_cons_same {x : α} (here : key x = k) : inGroup key k (x :: xs) = x :: inGroup key k xs := by
  simp [inGroup, here]

theorem inGroup_cons_other {x : α} (other : key x ≠ k) : inGroup key k (x :: xs) = inGroup key k xs := by
  simp [inGroup, other]

theorem inGroup_eq_nil (none : ∀ x ∈ xs, key x ≠ k) : inGroup key k xs = [] := by
  apply List.filter_eq_nil_iff.mpr
  intro x hx
  simpa using none x hx

theorem inGroup_congr (same : ∀ x ∈ xs, key x = key' x) : inGroup key k xs = inGroup key' k xs := by
  apply List.filter_congr
  intro x hx
  rw [same x hx]

theorem inGroup_map {γ : Type} {f : γ → α} {zs : List γ} :
    inGroup key k (zs.map f) = (inGroup (fun z => key (f z)) k zs).map f := by
  rw [inGroup, inGroup, List.filter_map]
  rfl

theorem prefix_inGroup {pre : List α} (sub : pre <+: xs) : inGroup key k pre <+: inGroup key k xs := sub.filter _

/-- A front of a group is the group of a front. -/
theorem exists_prefix_of_inGroup {group : List α} (sub : group <+: inGroup key k xs) :
    ∃ pre, pre <+: xs ∧ group = inGroup key k pre := by
  obtain ⟨pre, front, same⟩ := List.prefix_filter_iff.mp sub
  exact ⟨pre, front, same⟩

theorem length_inGroup_concat {x : α} :
    (inGroup key k (xs ++ [x])).length = (inGroup key k xs).length + if key x = k then 1 else 0 := by
  rw [inGroup, List.filter_append, List.length_append]
  by_cases here : key x = k
  · simp [inGroup, here]
  · simp [inGroup, here]

theorem groupTotal_one : groupTotal key (fun _ => 1) k xs = (inGroup key k xs).length := by
  simp [groupTotal]

section

variable {M : Type} [AddCancelCommMonoid M] {weight : α → M}

theorem groupTotal_split (p : α → Bool) : groupTotal key weight k xs =
    groupTotal key weight k (xs.filter p) + groupTotal key weight k (xs.filter fun x => !p x) := by
  induction xs with
  | nil => simp [groupTotal, inGroup]
  | cons x xs ih =>
    unfold groupTotal at ih ⊢
    by_cases here : key x = k
    · by_cases first : p x = true
      · simp only [List.filter_cons, first, if_true, Bool.not_true, Bool.false_eq_true, if_false,
          inGroup_cons_same here, List.map_cons, List.sum_cons, ih, add_assoc]
      · simp only [Bool.not_eq_true] at first
        simp only [List.filter_cons, first, Bool.not_false, Bool.false_eq_true, if_true, if_false,
          inGroup_cons_same here, List.map_cons, List.sum_cons, ih]
        exact add_left_comm _ _ _
    · by_cases first : p x = true
      · simp only [List.filter_cons, first, if_true, Bool.not_true, Bool.false_eq_true, if_false,
          inGroup_cons_other here, ih]
      · simp only [Bool.not_eq_true] at first
        simp only [List.filter_cons, first, Bool.not_false, Bool.false_eq_true, if_true, if_false,
          inGroup_cons_other here, ih]

theorem groupTotal_concat {x : α} : groupTotal key weight (key x) (xs ++ [x]) = groupTotal key weight (key x) xs + weight x := by
  simp [groupTotal, inGroup, List.filter_append]

/-- Two weights have the same totals on every front of a list exactly if its entries have the same weights. -/
theorem groupTotal_prefixes {weight' : α → M} :
    (∀ pre, pre <+: xs → ∀ k, groupTotal key weight k pre = groupTotal key weight' k pre) ↔
      ∀ x ∈ xs, weight x = weight' x := by
  constructor
  · intro totals x member
    obtain ⟨front, rest, rfl⟩ := List.append_of_mem member
    have before := totals front (List.prefix_append _ _) (key x)
    have here := totals (front ++ [x]) (by simp) (key x)
    rw [groupTotal_concat, groupTotal_concat, before] at here
    exact add_left_cancel here
  · intro same pre sub k
    unfold groupTotal
    congr 1
    apply List.map_congr_left
    intro x member
    exact same x (sub.subset (mem_inGroup.mp member).1)

/-- Two groupings agree on a total exactly if they agree on the entries that they place differently. -/
theorem groupTotal_moved : groupTotal key weight k xs = groupTotal key' weight k xs ↔
    groupTotal key weight k (xs.filter fun x => key x ≠ key' x) =
      groupTotal key' weight k (xs.filter fun x => key x ≠ key' x) := by
  have still : groupTotal key weight k (xs.filter fun x => !decide (key x ≠ key' x)) =
      groupTotal key' weight k (xs.filter fun x => !decide (key x ≠ key' x)) := by
    unfold groupTotal
    rw [inGroup_congr]
    intro x hx
    have same := (List.mem_filter.mp hx).2
    simpa using same
  rw [groupTotal_split fun x => decide (key x ≠ key' x), @groupTotal_split _ _ _ key' k xs _ _ weight
    fun x => decide (key x ≠ key' x), still]
  exact add_left_inj _

end

theorem inGroup_perm (perm : xs.Perm ys) : (inGroup key k xs).Perm (inGroup key k ys) := perm.filter _

section

variable {M : Type} [AddCommMonoid M] {weight : α → M}

theorem groupTotal_perm (perm : xs.Perm ys) : groupTotal key weight k xs = groupTotal key weight k ys :=
  ((inGroup_perm perm).map weight).sum_eq

theorem groupTotal_cons {x : α} : groupTotal key weight k (x :: xs) = (if key x = k then weight x else 0) + groupTotal key weight k xs := by
  unfold groupTotal
  by_cases here : key x = k
  · rw [if_pos here, inGroup_cons_same here, List.map_cons, List.sum_cons]
  · rw [if_neg here, inGroup_cons_other here, zero_add]

theorem groupTotal_map {γ : Type} {f : γ → α} {zs : List γ} :
    groupTotal key weight k (zs.map f) = groupTotal (fun z => key (f z)) (fun z => weight (f z)) k zs := by
  rw [groupTotal, inGroup_map, List.map_map]
  rfl

variable {ν : Type} [DecidableEq ν] {name : κ → ν} {n : ν} {keys : List κ}

theorem groupTotal_add {weight' : α → M} :
    groupTotal key (fun x => weight x + weight' x) k xs = groupTotal key weight k xs + groupTotal key weight' k xs := by
  exact List.sum_map_add

theorem groupTotal_zero : groupTotal key (fun _ => (0 : M)) k xs = 0 := by
  simp [groupTotal]

/-- Among different keys, only its own has a part in a group. -/
theorem groupTotal_single (distinct : keys.Nodup) {x : κ} {w : M} (listed : x ∈ keys) :
    groupTotal name (fun k => if x = k then w else 0) n keys = if name x = n then w else 0 := by
  induction keys with
  | nil => cases listed
  | cons k keys ih =>
    obtain ⟨fresh, distinct⟩ := List.nodup_cons.mp distinct
    rw [groupTotal_cons]
    by_cases here : x = k
    · subst here
      have rest : groupTotal name (fun k => if x = k then w else 0) n keys = groupTotal name (fun _ => 0) n keys := by
        unfold groupTotal
        congr 1
        apply List.map_congr_left
        intro k member
        apply if_neg
        rintro rfl
        exact fresh (mem_inGroup.mp member).1
      rw [if_pos rfl, rest, groupTotal_zero, add_zero]
    · rw [if_neg here, ite_self, zero_add]
      exact ih distinct ((List.mem_cons.mp listed).resolve_left here)

/-- Totals of groups add up to the totals of coarser groups. -/
theorem groupTotal_grouped (distinct : keys.Nodup) (listed : ∀ x ∈ xs, key x ∈ keys) :
    groupTotal name (fun k => groupTotal key weight k xs) n keys = groupTotal (fun x => name (key x)) weight n xs := by
  induction xs with
  | nil => exact groupTotal_zero
  | cons x xs ih =>
    have each : (fun k => groupTotal key weight k (x :: xs)) =
        fun k => (if key x = k then weight x else 0) + groupTotal key weight k xs := funext fun k => groupTotal_cons
    rw [each, groupTotal_add, groupTotal_single distinct (listed x (List.mem_cons_self ..)),
      ih fun y hy => listed y (List.mem_cons_of_mem _ hy), groupTotal_cons]

/-- Keys may be compared by their names, when different ones have different names. -/
theorem inGroup_name {P : κ → Prop} (inj : ∀ k k', P k → P k' → name k = name k' → k = k') (all : ∀ x ∈ xs, P (key x))
    (this : P k) : inGroup (fun x => name (key x)) (name k) xs = inGroup key k xs := by
  apply List.filter_congr
  intro x hx
  apply decide_eq_decide.mpr
  constructor
  · exact inj _ _ (all x hx) this
  · exact congrArg name

theorem groups_agree_iff {P : κ → Prop} (inj : ∀ k k', P k → P k' → name k = name k' → k = k') (all : ∀ x ∈ xs, P (key x))
    (all' : ∀ x ∈ xs, P (key' x)) :
    (∀ n, (inGroup (fun x => name (key x)) n xs).length = (inGroup (fun x => name (key' x)) n xs).length) ↔
      ∀ k, (inGroup key k xs).length = (inGroup key' k xs).length := by
  constructor
  · intro named k
    by_cases this : P k
    · rw [← inGroup_name inj all this, ← inGroup_name inj all' this]
      exact named (name k)
    · have none (f : α → κ) (inside : ∀ x ∈ xs, P (f x)) : inGroup f k xs = [] := by
        apply inGroup_eq_nil
        rintro x hx rfl
        exact this (inside x hx)
      rw [none key all, none key' all']
  · intro keyed n
    by_cases this : ∃ k, P k ∧ name k = n
    · obtain ⟨k, hk, rfl⟩ := this
      rw [inGroup_name inj all hk, inGroup_name inj all' hk]
      exact keyed k
    · have none (f : α → κ) (inside : ∀ x ∈ xs, P (f x)) : inGroup (fun x => name (f x)) n xs = [] :=
        inGroup_eq_nil fun x hx same => this ⟨f x, inside x hx, same⟩
      rw [none key all, none key' all']

end

variable [Ord κ] [Std.TransOrd κ] [Std.LawfulEqOrd κ]

/-- A list folded group by group. -/
def groupFold (key : α → κ) (step : β → α → β) (init : β) (m : KeyMap κ β) (xs : List α) : KeyMap κ β :=
  xs.foldl (fun m x => m.insert (key x) (step ((m[key x]?).getD init) x)) m

/-- Each group is folded by itself. -/
theorem getElem?_groupFold {step : β → α → β} {init : β} {m : KeyMap κ β} :
    (groupFold key step init m xs)[k]? =
      if inGroup key k xs = [] then m[k]? else some ((inGroup key k xs).foldl step ((m[k]?).getD init)) := by
  induction xs generalizing m with
  | nil => rfl
  | cons x xs ih =>
    change (groupFold key step init (m.insert (key x) (step ((m[key x]?).getD init) x)) xs)[k]? = _
    rw [ih, Std.ExtTreeMap.getElem?_insert]
    by_cases here : key x = k
    · subst here
      rw [inGroup_cons_same rfl]
      simp only [Std.ReflCmp.compare_self, if_true, Option.getD_some, List.cons_ne_nil, if_false, List.foldl_cons]
      by_cases alone : inGroup key (key x) xs = []
      · rw [if_pos alone, alone]
        rfl
      · rw [if_neg alone]
    · have other : compare (key x) k ≠ .eq := fun same => here (Std.LawfulEqOrd.compare_eq_iff_eq.mp same)
      rw [if_neg other, inGroup_cons_other here]

/-- One row for each group, when the rows of a group agree. -/
theorem getElem?_upsertAll_groups {row : κ → β} : (KeyMap.upsertAll ∅ (xs.map fun x => (key x, row (key x))))[k]? =
    if inGroup key k xs = [] then none else some (row k) := by
  by_cases none : inGroup key k xs = []
  · rw [if_pos none, KeyMap.upsertAll_of_not_mem]
    · rfl
    · rw [List.map_map]
      intro inside
      obtain ⟨x, hx, same⟩ := List.mem_map.mp inside
      have there : x ∈ inGroup key k xs := mem_inGroup.mpr ⟨hx, same⟩
      rw [none] at there
      cases there
  · rw [if_neg none]
    obtain ⟨x, hx⟩ := List.exists_mem_of_ne_nil _ none
    obtain ⟨member, same⟩ := mem_inGroup.mp hx
    have listed : k ∈ KeyMap.upsertAll (∅ : KeyMap κ β) (xs.map fun x => (key x, row (key x))) := by
      rw [KeyMap.mem_upsertAll, List.map_map]
      exact Or.inr (List.mem_map.mpr ⟨x, member, same⟩)
    obtain ⟨v, held⟩ := Option.isSome_iff_exists.mp (Std.ExtTreeMap.isSome_getElem?_iff_mem.mpr listed)
    rw [held]
    rcases KeyMap.upsertAll_cases held with new | ⟨_, old⟩
    · obtain ⟨y, _, made⟩ := List.mem_map.mp new
      cases made
      rfl
    · cases old

end

end OtterWorks
