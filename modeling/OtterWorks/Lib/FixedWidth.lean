import OtterWorks.Lib.Text
import Mathlib.Tactic.Ring

namespace OtterWorks

section

variable {α : Type} {xs b b' : List α} {offset offset' n : Nat}

/-- `out[offset : offset + len(b)] = b`. -/
def splice (offset : Nat) (b xs : List α) : List α := xs.take offset ++ b ++ xs.drop (offset + b.length)

theorem length_splice (inside : offset + b.length ≤ xs.length) : (splice offset b xs).length = xs.length := by
  rw [splice, List.length_append, List.length_append, List.length_take, List.length_drop]
  omega

/-- What was written is read back. -/
theorem slice_splice (inside : offset ≤ xs.length) : ((splice offset b xs).drop offset).take b.length = b := by
  have front : (xs.take offset).length = offset := List.length_take_of_le inside
  rw [splice, List.append_assoc, List.drop_append_of_le_length (by omega), List.drop_of_length_le (by omega),
    List.nil_append, List.take_left']
  rfl

/-- A slice beside what was written is as it was. -/
theorem slice_splice_apart (inside : offset + b.length ≤ xs.length)
    (apart : offset + b.length ≤ offset' ∨ offset' + n ≤ offset) :
    ((splice offset b xs).drop offset').take n = (xs.drop offset').take n := by
  apply List.ext_getElem?
  intro i
  rw [List.getElem?_take, List.getElem?_take]
  by_cases here : i < n
  · rw [if_pos here, if_pos here, List.getElem?_drop, List.getElem?_drop, splice]
    have front : (xs.take offset).length = offset := List.length_take_of_le (by omega)
    rcases apart with after | before
    · rw [List.getElem?_append_right (by rw [List.length_append, front]; omega), List.getElem?_drop, List.length_append,
        front]
      congr 1
      omega
    · rw [List.append_assoc, List.getElem?_append_left (by omega), List.getElem?_take, if_pos (by omega)]
  · rw [if_neg here, if_neg here]

end

/-! Spans one after another. -/

/-- The spans of `as`, in their order, fill `start` up to `stop`. -/
def Tiled {α : Type*} (offset length : α → Nat) : Nat → List α → Nat → Prop
  | start, [], stop => start = stop
  | start, a :: as, stop => offset a = start ∧ Tiled offset length (start + length a) as stop

section

variable {α β : Type*} {offset length : α → Nat} {start middle stop i : Nat} {as bs : List α} {a : α}

theorem Tiled.append (h : Tiled offset length start as middle) (rest : Tiled offset length middle bs stop) :
    Tiled offset length start (as ++ bs) stop := by
  induction as generalizing start with
  | nil =>
    have same : start = middle := h
    rw [same]
    exact rest
  | cons a as ih => exact ⟨h.1, ih h.2⟩

theorem Tiled.le (h : Tiled offset length start as stop) : start ≤ stop := by
  induction as generalizing start with
  | nil =>
    have same : start = stop := h
    omega
  | cons a as ih =>
    have := ih h.2
    omega

theorem Tiled.inside (h : Tiled offset length start as stop) (member : a ∈ as) :
    start ≤ offset a ∧ offset a + length a ≤ stop := by
  induction as generalizing start with
  | nil => cases member
  | cons b as ih =>
    obtain ⟨here, rest⟩ := h
    have after := rest.le
    rcases List.mem_cons.mp member with rfl | later
    · omega
    · have := ih rest later
      omega

/-- Each span ends before the later ones. -/
theorem Tiled.pairwise (h : Tiled offset length start as stop) :
    as.Pairwise fun a b => offset a + length a ≤ offset b := by
  induction as generalizing start with
  | nil => exact List.Pairwise.nil
  | cons a as ih =>
    obtain ⟨here, rest⟩ := h
    refine List.pairwise_cons.mpr ⟨?_, ih rest⟩
    intro b later
    have := rest.inside later
    omega

/-- Every place is in a span. -/
theorem Tiled.covers (h : Tiled offset length start as stop) (after : start ≤ i) (before : i < stop) :
    ∃ a ∈ as, offset a ≤ i ∧ i < offset a + length a := by
  induction as generalizing start with
  | nil =>
    have same : start = stop := h
    omega
  | cons a as ih =>
    obtain ⟨here, rest⟩ := h
    by_cases inside : i < start + length a
    · exact ⟨a, List.mem_cons_self .., by omega, by omega⟩
    · obtain ⟨b, member, found⟩ := ih rest (by omega)
      exact ⟨b, List.mem_cons_of_mem _ member, found⟩

/-- The slices put together are what they were cut from. -/
theorem Tiled.flatMap_slices (h : Tiled offset length start as stop) (xs : List β) :
    (as.flatMap fun a => (xs.drop (offset a)).take (length a)) = (xs.drop start).take (stop - start) := by
  induction as generalizing start with
  | nil =>
    have same : start = stop := h
    rw [same, Nat.sub_self, List.take_zero, List.flatMap_nil]
  | cons a as ih =>
    obtain ⟨here, rest⟩ := h
    have after := rest.le
    have cut : stop - start = length a + (stop - (start + length a)) := by omega
    rw [List.flatMap_cons, ih rest, here, cut, List.take_add, List.drop_drop]

end

/-! Integers of a fixed number of bytes, the highest first. -/

def beBytes : Nat → Nat → Bytes
  | 0, _ => []
  | length + 1, n => UInt8.ofNat (n / 256 ^ length) :: beBytes length n

def beValue (raw : Bytes) : Nat := raw.foldl (fun n b => 256 * n + b.toNat) 0

/-- `n.to_bytes(length, "big", signed=True)`. -/
def toBytes (length : Nat) (n : Int) : Except String Bytes :=
  if -(256 ^ length : Int) ≤ 2 * n ∧ 2 * n < 256 ^ length then .ok (beBytes length (n % 256 ^ length).toNat)
  else .error "int too big to convert"

section

variable {length n : Nat}

@[simp]
theorem length_beBytes : (beBytes length n).length = length := by
  induction length with
  | zero => rfl
  | succ length ih => rw [beBytes, List.length_cons, ih]

theorem beValue_beBytes : beValue (beBytes length n) = n % 256 ^ length := by
  have from_ : ∀ start, (beBytes length n).foldl (fun n b => 256 * n + b.toNat) start =
      start * 256 ^ length + n % 256 ^ length := by
    induction length with
    | zero =>
      intro start
      rw [beBytes, List.foldl_nil, Nat.pow_zero, Nat.mul_one, Nat.mod_one, Nat.add_zero]
    | succ length ih =>
      intro start
      have byte : (UInt8.ofNat (n / 256 ^ length)).toNat = n / 256 ^ length % 256 := UInt8.toNat_ofNat
      have split : n % 256 ^ (length + 1) = n / 256 ^ length % 256 * 256 ^ length + n % 256 ^ length := by
        rw [Nat.pow_succ, Nat.mod_mul, Nat.mul_comm, Nat.add_comm]
      rw [beBytes, List.foldl_cons, ih, byte, split, Nat.pow_succ]
      ring
  rw [beValue, from_, Nat.zero_mul, Nat.zero_add]

end

end OtterWorks
