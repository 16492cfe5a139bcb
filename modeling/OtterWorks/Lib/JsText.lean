import OtterWorks.Lib.Text
import Mathlib.Data.List.TakeWhile

namespace OtterWorks.JsText

/-- The white space of `trim` and of `\s`. -/
def isBlank (c : Char) : Bool :=
  let n := c.toNat
  (9 ≤ n && n ≤ 13) || n = 0x20 || n = 0xa0 || n = 0x1680 || (0x2000 ≤ n && n ≤ 0x200a) || n = 0x2028 || n = 0x2029 ||
    n = 0x202f || n = 0x205f || n = 0x3000 || n = 0xfeff

def trim (s : Text) : Text := ((s.dropWhile isBlank).reverse.dropWhile isBlank).reverse

theorem eq_nil_of_blank {l : Text} (blank : ∀ c ∈ l, isBlank c) (plain : ∀ c ∈ l, isBlank c = false) : l = [] := by
  refine List.eq_nil_iff_forall_not_mem.mpr fun c mem => ?_
  have not := plain c mem
  rw [blank c mem] at not
  cases not

theorem trim_eq (s : Text) : ∃ lead trail : Text, (∀ c ∈ lead, isBlank c) ∧ (∀ c ∈ trail, isBlank c) ∧
    s = lead ++ (trim s ++ trail) := by
  refine ⟨s.takeWhile isBlank, ((s.dropWhile isBlank).reverse.takeWhile isBlank).reverse, ?_, ?_, ?_⟩
  · exact fun c mem => List.mem_takeWhile_imp mem
  · exact fun c mem => List.mem_takeWhile_imp (List.mem_reverse.mp mem)
  · unfold trim
    rw [← List.reverse_append, List.takeWhile_append_dropWhile, List.reverse_reverse, List.takeWhile_append_dropWhile]

theorem trim_of_plain {s : Text} (plain : ∀ c ∈ s, isBlank c = false) : trim s = s := by
  obtain ⟨lead, trail, leadBlank, trailBlank, eq⟩ := trim_eq s
  have front : lead = [] := eq_nil_of_blank leadBlank fun c mem => plain c (by rw [eq]; simp [mem])
  have back : trail = [] := eq_nil_of_blank trailBlank fun c mem => plain c (by rw [eq]; simp [mem])
  rw [front, back, List.nil_append, List.append_nil] at eq
  exact eq.symm

end OtterWorks.JsText
