import Mathlib.Logic.Relation
import Mathlib.Data.List.Nodup

namespace OtterWorks

/-- A history in which every thing is new when it comes, alone or in the place of an earlier one, and an earlier
one is replaced once. The newest entry comes first. -/
inductive Lineage {α : Type*} : List (Option α × α) → Prop
  | nil : Lineage []
  | root {log : List (Option α × α)} {b : α} (past : Lineage log) (fresh : b ∉ log.map Prod.snd) :
      Lineage ((none, b) :: log)
  | next {log : List (Option α × α)} {a b : α} (past : Lineage log) (listed : a ∈ log.map Prod.snd)
      (unused : a ∉ log.filterMap Prod.fst) (fresh : b ∉ log.map Prod.snd) : Lineage ((some a, b) :: log)

/-- `b` came in the place of `a`. -/
def Replaced {α : Type*} (log : List (Option α × α)) (a b : α) : Prop := (some a, b) ∈ log

namespace Lineage

open Relation

variable {α : Type*} {log : List (Option α × α)} {a b c root : α}

theorem mem_used : a ∈ log.filterMap Prod.fst ↔ ∃ b, Replaced log a b := by
  constructor
  · intro h
    obtain ⟨entry, held, same⟩ := List.mem_filterMap.mp h
    exact ⟨entry.2, by rw [Replaced, ← same]; exact held⟩
  · rintro ⟨b, held⟩
    exact List.mem_filterMap.mpr ⟨_, held, rfl⟩

theorem used_listed (h : Lineage log) (used : a ∈ log.filterMap Prod.fst) : a ∈ log.map Prod.snd := by
  induction h with
  | nil => cases used
  | root past fresh ih => exact List.mem_cons_of_mem _ (ih used)
  | @next log p b past listed unused fresh ih =>
    change a ∈ p :: log.filterMap Prod.fst at used
    rcases List.mem_cons.mp used with rfl | old
    · exact List.mem_cons_of_mem _ listed
    · exact List.mem_cons_of_mem _ (ih old)

/-- Nothing is replaced twice. -/
theorem used_nodup (h : Lineage log) : (log.filterMap Prod.fst).Nodup := by
  induction h with
  | nil => exact .nil
  | root past fresh ih => exact ih
  | next past listed unused fresh ih => exact List.nodup_cons.mpr ⟨unused, ih⟩

theorem listed_nodup (h : Lineage log) : (log.map Prod.snd).Nodup := by
  induction h with
  | nil => exact .nil
  | root past fresh ih => exact List.nodup_cons.mpr ⟨fresh, ih⟩
  | next past listed unused fresh ih => exact List.nodup_cons.mpr ⟨fresh, ih⟩

theorem rightUnique (h : Lineage log) : Relator.RightUnique (Replaced log) := by
  intro a b c one two
  induction h with
  | nil => cases one
  | root past fresh ih =>
    rcases List.mem_cons.mp one with new | olderB
    · cases new
    · rcases List.mem_cons.mp two with new | olderC
      · cases new
      · exact ih olderB olderC
  | next past listed unused fresh ih =>
    rcases List.mem_cons.mp one with newB | olderB
    · rcases List.mem_cons.mp two with newC | olderC
      · rw [← newC] at newB
        exact (Prod.mk.inj newB).2
      · cases newB
        exact absurd (mem_used.mpr ⟨c, olderC⟩) unused
    · rcases List.mem_cons.mp two with newC | olderC
      · cases newC
        exact absurd (mem_used.mpr ⟨b, olderB⟩) unused
      · exact ih olderB olderC

/-- What descends from one thing is a chain. -/
theorem chain (h : Lineage log) (left : ReflTransGen (Replaced log) root a) (right : ReflTransGen (Replaced log) root b) :
    ReflTransGen (Replaced log) a b ∨ ReflTransGen (Replaced log) b a :=
  ReflTransGen.total_of_right_unique h.rightUnique left right

theorem eq_of_unused (used : a ∉ log.filterMap Prod.fst) (way : ReflTransGen (Replaced log) a b) : a = b := by
  rcases way.cases_head with same | ⟨c, first, _⟩
  · exact same
  · exact absurd (mem_used.mpr ⟨c, first⟩) used

/-- A chain has one end. -/
theorem end_unique (h : Lineage log) (left : ReflTransGen (Replaced log) root a)
    (right : ReflTransGen (Replaced log) root b) (endA : a ∉ log.filterMap Prod.fst)
    (endB : b ∉ log.filterMap Prod.fst) : a = b := by
  rcases h.chain left right with way | way
  · exact eq_of_unused endA way
  · exact (eq_of_unused endB way).symm

/-- What is put in front moves both. -/
theorem earlier [DecidableEq α] {first : Option α × α} (past : Lineage log) (old : (some a, b) ∈ log)
    (fresh : first.2 ∉ log.map Prod.snd) (before : (log.map Prod.snd).idxOf b < (log.map Prod.snd).idxOf a) :
    ((first :: log).map Prod.snd).idxOf b < ((first :: log).map Prod.snd).idxOf a := by
  have listedA := past.used_listed (mem_used.mpr ⟨b, old⟩)
  have listedB : b ∈ log.map Prod.snd := List.mem_map.mpr ⟨_, old, rfl⟩
  have notA : first.2 ≠ a := fun same => fresh (same ▸ listedA)
  have notB : first.2 ≠ b := fun same => fresh (same ▸ listedB)
  rw [List.map_cons, List.idxOf_cons_ne _ notA, List.idxOf_cons_ne _ notB]
  omega

theorem replaced_ne [DecidableEq α] (h : Lineage log) (step : Replaced log a b) :
    (log.map Prod.snd).idxOf b < (log.map Prod.snd).idxOf a := by
  induction h with
  | nil => cases step
  | @root log r past fresh ih =>
    rcases List.mem_cons.mp step with new | old
    · cases new
    · exact past.earlier old fresh (ih old)
  | @next log p r past listed unused fresh ih =>
    rcases List.mem_cons.mp step with new | old
    · cases new
      have other : b ≠ a := fun same => fresh (same ▸ listed)
      rw [List.map_cons, List.idxOf_cons_self, List.idxOf_cons_ne _ other]
      omega
    · exact past.earlier old fresh (ih old)

/-- Nothing descends from itself. -/
theorem irrefl [DecidableEq α] (h : Lineage log) : ¬ TransGen (Replaced log) a a := by
  have later : ∀ b, TransGen (Replaced log) a b → (log.map Prod.snd).idxOf b < (log.map Prod.snd).idxOf a := by
    intro b way
    induction way with
    | single step => exact h.replaced_ne step
    | tail way step ih => exact Nat.lt_trans (h.replaced_ne step) ih
  intro loop
  exact Nat.lt_irrefl _ (later a loop)

end Lineage

end OtterWorks
