import Mathlib.Data.List.Basic

namespace OtterWorks

section

variable {α κ β : Type*} {about : α → Option κ} {value : α → Option β} {log : List α} {k : κ} {n i : Nat}

/-- From position `n` on nothing in the log is about the key. -/
def QuietFrom (about : α → Option κ) (log : List α) (k : κ) (n : Nat) : Prop :=
  ∀ i a, n ≤ i → log[i]? = some a → about a ≠ some k

theorem QuietFrom.mono {m : Nat} (h : QuietFrom about log k n) (le : n ≤ m) : QuietFrom about log k m :=
  fun i a from_m => h i a (Nat.le_trans le from_m)

theorem quietFrom_length : QuietFrom about log k log.length := by
  intro i a beyond found
  rw [List.getElem?_eq_none beyond] at found
  cases found

theorem QuietFrom.snoc {a : α} (h : QuietFrom about log k n) (other : about a ≠ some k) :
    QuietFrom about (log ++ [a]) k n := by
  intro i b from_n found
  by_cases before : i < log.length
  · rw [List.getElem?_append_left before] at found
    exact h i b from_n found
  · rw [List.getElem?_append_right (by omega)] at found
    have eq : b = a := by
      have member := List.mem_of_getElem? found
      exact List.mem_singleton.mp member
    rw [eq]
    exact other

theorem QuietFrom.of_snoc {a : α} (h : QuietFrom about (log ++ [a]) k n) : QuietFrom about log k n := by
  intro i b from_n found
  refine h i b from_n ?_
  rwa [List.getElem?_append_left (List.getElem?_eq_some_iff.mp found).1]

/-- A log that ends with an entry about the key is quiet only past its end. -/
theorem QuietFrom.past {a : α} (h : QuietFrom about (log ++ [a]) k n) (mine : about a = some k) : log.length < n := by
  by_contra before
  exact h log.length a (by omega) (by simp) mine

variable [DecidableEq κ]

/-- What a log says of a key: its last entry about it. -/
def replay (about : α → Option κ) (value : α → Option β) (log : List α) (k : κ) : Option β :=
  (log.reverse.find? fun a => about a = some k).bind value

theorem replay_snoc (a : α) :
    replay about value (log ++ [a]) k = if about a = some k then value a else replay about value log k := by
  by_cases mine : about a = some k
  · simp [replay, mine]
  · simp [replay, mine]

/-- What comes after the last entry about a key does not matter. -/
theorem QuietFrom.replay_take (h : QuietFrom about log k n) :
    replay about value (log.take n) k = replay about value log k := by
  have rest : (log.drop n).reverse.find? (fun a => about a = some k) = none := by
    apply List.find?_eq_none.mpr
    intro a member mine
    obtain ⟨i, found⟩ := List.mem_iff_getElem?.mp (List.mem_reverse.mp member)
    rw [List.getElem?_drop] at found
    exact h (n + i) a (by omega) found (by simpa using mine)
  have whole : replay about value log k = replay about value (log.take n ++ log.drop n) k := by
    rw [List.take_append_drop]
  rw [whole, replay, replay, List.reverse_append, List.find?_append, rest, Option.none_or]

theorem replay_at {a : α} (found : log[i]? = some a) (mine : about a = some k) (h : QuietFrom about log k (i + 1)) :
    replay about value log k = value a := by
  rw [← h.replay_take, List.take_add_one, found, Option.toList_some, replay_snoc, if_pos mine]

end

end OtterWorks
