import OtterWorks.Lib.JavaText
import Mathlib.Data.List.Basic

namespace OtterWorks.JsonText

def isHigh (c : UInt16) : Bool := 0xd800 ≤ c && c ≤ 0xdbff

def isLow (c : UInt16) : Bool := 0xdc00 ≤ c && c ≤ 0xdfff

/-- The bytes of a unit in UTF-8; half a surrogate pair is written as the replacement character. -/
def unitBytes (c : UInt16) : Nat := if c < 0x80 then 1 else if c < 0x800 then 2 else 3

/-- How many bytes a text has in UTF-8. -/
def byteLength : Utf16 → Nat
  | [] => 0
  | [c] => unitBytes c
  | c :: d :: rest => if isHigh c && isLow d then 4 + byteLength rest else unitBytes c + byteLength (d :: rest)

def hexUnit (n : UInt16) : UInt16 := if n < 10 then 0x30 + n else 0x57 + n

/-- A unit in a JSON string: an escape of two units, of six, or itself. -/
def escapeUnit (c : UInt16) : Utf16 :=
  if c = 8 then [0x5c, 0x62]
  else if c = 9 then [0x5c, 0x74]
  else if c = 10 then [0x5c, 0x6e]
  else if c = 12 then [0x5c, 0x66]
  else if c = 13 then [0x5c, 0x72]
  else if c = 0x22 then [0x5c, 0x22]
  else if c = 0x5c then [0x5c, 0x5c]
  else if c < 0x20 || isHigh c || isLow c then
    [0x5c, 0x75, hexUnit (c / 0x1000), hexUnit (c / 0x100 % 0x10), hexUnit (c / 0x10 % 0x10), hexUnit (c % 0x10)]
  else [c]

/-- The inside of a JSON string: a surrogate pair stays as it is, a half of one is escaped. -/
def escape : Utf16 → Utf16
  | [] => []
  | [c] => escapeUnit c
  | c :: d :: rest => if isHigh c && isLow d then c :: d :: escape rest else escapeUnit c ++ escape (d :: rest)

def quote (s : Utf16) : Utf16 := 0x22 :: (escape s ++ [0x22])

/-- An array of values that are written already. -/
def array (items : List Utf16) : Utf16 := 0x5b :: (List.intercalate [0x2c] items ++ [0x5d])

/-- An object, its fields in order and their values written already. -/
def object (fields : List (Utf16 × Utf16)) : Utf16 :=
  0x7b :: (List.intercalate [0x2c] (fields.map fun field => quote field.1 ++ 0x3a :: field.2) ++ [0x7d])

def unitCost (c : UInt16) : Nat :=
  if c = 8 ∨ c = 9 ∨ c = 10 ∨ c = 12 ∨ c = 13 ∨ c = 0x22 ∨ c = 0x5c then 2
  else if c < 0x20 || isHigh c || isLow c then 6
  else unitBytes c

/-- The bytes that a text takes inside a JSON string. -/
def cost : Utf16 → Nat
  | [] => 0
  | [c] => unitCost c
  | c :: d :: rest => if isHigh c && isLow d then 4 + cost rest else unitCost c + cost (d :: rest)

/-- No unit of what follows can join a unit of the text to a pair. -/
def Closed (v : Utf16) : Prop := ∀ rest, byteLength (v ++ rest) = byteLength v + byteLength rest

section

variable {a b s : Utf16} {c : UInt16} {items : List Utf16} {fields : List (Utf16 × Utf16)}

theorem byteLength_cons (h : isHigh c = false) (rest : Utf16) : byteLength (c :: rest) = unitBytes c + byteLength rest := by
  cases rest with
  | nil => rfl
  | cons d rest => simp [byteLength, h]

theorem isHigh_of_ascii (h : c < 0x80) : isHigh c = false := by
  have small : c.toNat < 128 := h
  have not : ¬ 0xd800 ≤ c := by
    intro le
    have le' : 0xd800 ≤ c.toNat := le
    omega
  simp [isHigh, not]

theorem byteLength_ascii (ascii : ∀ c ∈ a, c < 0x80) (rest : Utf16) :
    byteLength (a ++ rest) = a.length + byteLength rest := by
  induction a with
  | nil => simp
  | cons c a ih =>
    have here := ascii c (List.mem_cons_self ..)
    have one : unitBytes c = 1 := if_pos here
    rw [List.cons_append, byteLength_cons (isHigh_of_ascii here), ih fun x hx => ascii x (List.mem_cons_of_mem _ hx), one,
      List.length_cons]
    omega

theorem hexUnit_ascii {n : UInt16} (h : n.toNat < 16) : hexUnit n < 0x80 := by
  show (hexUnit n).toNat < 128
  unfold hexUnit
  split
  case isTrue small =>
    rw [UInt16.toNat_add]
    have base : (0x30 : UInt16).toNat = 48 := rfl
    omega
  case isFalse =>
    rw [UInt16.toNat_add]
    have base : (0x57 : UInt16).toNat = 87 := rfl
    omega

/-- An escape is written in ASCII. -/
theorem escapeUnit_cases (c : UInt16) :
    (escapeUnit c).length = unitCost c ∧ (∀ d ∈ escapeUnit c, d < 0x80) ∨
      escapeUnit c = [c] ∧ isHigh c = false ∧ unitCost c = unitBytes c := by
  by_cases short : c = 8 ∨ c = 9 ∨ c = 10 ∨ c = 12 ∨ c = 13 ∨ c = 0x22 ∨ c = 0x5c
  · left
    rcases short with rfl | rfl | rfl | rfl | rfl | rfl | rfl
    all_goals exact ⟨rfl, by simp [escapeUnit]⟩
  simp only [not_or] at short
  obtain ⟨h1, h2, h3, h4, h5, h6, h7⟩ := short
  have value : escapeUnit c = if c < 0x20 || isHigh c || isLow c then
      [0x5c, 0x75, hexUnit (c / 0x1000), hexUnit (c / 0x100 % 0x10), hexUnit (c / 0x10 % 0x10), hexUnit (c % 0x10)]
      else [c] := by
    simp only [escapeUnit, h1, h2, h3, h4, h5, h6, h7, if_false]
  have bytes : unitCost c = if c < 0x20 || isHigh c || isLow c then 6 else unitBytes c := by
    simp only [unitCost, h1, h2, h3, h4, h5, h6, h7, or_self, if_false]
  rw [value, bytes]
  by_cases long : (c < 0x20 || isHigh c || isLow c) = true
  · left
    rw [if_pos long, if_pos long]
    refine ⟨rfl, ?_⟩
    have wide := c.toNat_lt
    have first : (c / 0x1000).toNat < 16 := by
      rw [UInt16.toNat_div]
      show c.toNat / 4096 < 16
      omega
    have digit : ∀ n : UInt16, (n % 0x10).toNat < 16 := by
      intro n
      rw [UInt16.toNat_mod]
      show n.toNat % 16 < 16
      omega
    intro d mem
    simp only [List.mem_cons, List.not_mem_nil, or_false] at mem
    rcases mem with rfl | rfl | rfl | rfl | rfl | rfl
    · decide
    · decide
    · exact hexUnit_ascii first
    · exact hexUnit_ascii (digit _)
    · exact hexUnit_ascii (digit _)
    · exact hexUnit_ascii (digit _)
  · right
    rw [if_neg long, if_neg long]
    simp only [Bool.or_eq_true, not_or, Bool.not_eq_true] at long
    exact ⟨rfl, long.1.2, rfl⟩

theorem byteLength_escapeUnit (c : UInt16) (rest : Utf16) :
    byteLength (escapeUnit c ++ rest) = unitCost c + byteLength rest := by
  rcases escapeUnit_cases c with ⟨length, ascii⟩ | ⟨itself, notHigh, bytes⟩
  · rw [byteLength_ascii ascii, length]
  · rw [itself, bytes]
    exact byteLength_cons notHigh rest

theorem byteLength_escape (s rest : Utf16) : byteLength (escape s ++ rest) = cost s + byteLength rest := by
  induction s using escape.induct with
  | case1 => simp [escape, cost]
  | case2 c => exact byteLength_escapeUnit c rest
  | case3 c d s pair ih =>
    rw [escape, if_pos pair, cost, if_pos pair]
    show byteLength (c :: d :: (escape s ++ rest)) = _
    rw [byteLength, if_pos pair, ih]
    omega
  | case4 c d s alone ih =>
    rw [escape, if_neg alone, cost, if_neg alone, List.append_assoc, byteLength_escapeUnit, ih]
    omega

theorem Closed.append (ha : Closed a) (hb : Closed b) : Closed (a ++ b) := by
  intro rest
  rw [List.append_assoc, ha, hb, ha b, Nat.add_assoc]

theorem byteLength_quote (s rest : Utf16) : byteLength (quote s ++ rest) = cost s + 2 + byteLength rest := by
  unfold quote
  rw [List.cons_append, byteLength_cons (by decide), List.append_assoc, byteLength_escape, List.singleton_append,
    byteLength_cons (by decide)]
  have one : unitBytes 0x22 = 1 := rfl
  omega

theorem closed_quote (s : Utf16) : Closed (quote s) := by
  intro rest
  have all := byteLength_quote s []
  rw [List.append_nil] at all
  rw [byteLength_quote, all]
  rfl

theorem bytes_quote (s : Utf16) : byteLength (quote s) = cost s + 2 := by
  have all := byteLength_quote s []
  rwa [List.append_nil] at all

/-- From the second item on, a comma stands before each. -/
theorem byteLength_intercalate (closed : ∀ v ∈ items, Closed v) (rest : Utf16) :
    byteLength (List.intercalate [0x2c] items ++ rest) =
      (items.map byteLength).sum + (items.length - 1) + byteLength rest := by
  induction items with
  | nil => simp [List.intercalate]
  | cons v items ih =>
    have here := closed v (List.mem_cons_self ..)
    have later := ih fun x hx => closed x (List.mem_cons_of_mem _ hx)
    cases items with
    | nil => simpa [List.intercalate] using here rest
    | cons w items =>
      have comma : byteLength (0x2c :: (List.intercalate [0x2c] (w :: items) ++ rest)) =
          1 + byteLength (List.intercalate [0x2c] (w :: items) ++ rest) := byteLength_cons (by decide) _
      rw [List.intercalate_cons_cons, List.append_assoc, List.append_assoc, here, List.singleton_append, comma, later]
      simp only [List.map_cons, List.sum_cons, List.length_cons]
      omega

theorem byteLength_bracketed {f l : UInt16} (hf : f < 0x80) (hl : l < 0x80) (closed : ∀ v ∈ items, Closed v)
    (rest : Utf16) : byteLength (f :: (List.intercalate [0x2c] items ++ [l]) ++ rest) =
      (items.map byteLength).sum + (items.length - 1) + 2 + byteLength rest := by
  have one : unitBytes f = 1 := if_pos hf
  have one' : unitBytes l = 1 := if_pos hl
  rw [List.cons_append, byteLength_cons (isHigh_of_ascii hf), List.append_assoc, byteLength_intercalate closed,
    List.singleton_append, byteLength_cons (isHigh_of_ascii hl)]
  omega

theorem byteLength_array (closed : ∀ v ∈ items, Closed v) (rest : Utf16) :
    byteLength (array items ++ rest) = (items.map byteLength).sum + (items.length - 1) + 2 + byteLength rest :=
  byteLength_bracketed (by decide) (by decide) closed rest

theorem byteLength_field (k v rest : Utf16) :
    byteLength (quote k ++ 0x3a :: v ++ rest) = cost k + 3 + byteLength (v ++ rest) := by
  have one : unitBytes 0x3a = 1 := rfl
  rw [List.append_assoc, byteLength_quote, List.cons_append, byteLength_cons (by decide)]
  omega

theorem closed_field {k v : Utf16} (closed : Closed v) : Closed (quote k ++ 0x3a :: v) := by
  intro rest
  have all := byteLength_field k v []
  rw [List.append_nil, List.append_nil] at all
  rw [byteLength_field, closed, all]
  omega

theorem byteLength_object (closed : ∀ field ∈ fields, Closed field.2) (rest : Utf16) :
    byteLength (object fields ++ rest) = (fields.map fun field => cost field.1 + 3 + byteLength field.2).sum +
      (fields.length - 1) + 2 + byteLength rest := by
  have pieces : ∀ v ∈ fields.map (fun field => quote field.1 ++ 0x3a :: field.2), Closed v := by
    intro v mem
    obtain ⟨field, listed, rfl⟩ := List.mem_map.mp mem
    exact closed_field (closed field listed)
  have sizes : (fields.map fun field => quote field.1 ++ 0x3a :: field.2).map byteLength =
      fields.map fun field => cost field.1 + 3 + byteLength field.2 := by
    rw [List.map_map]
    refine List.map_congr_left fun field _ => ?_
    have all := byteLength_field field.1 field.2 []
    rw [List.append_nil, List.append_nil] at all
    exact all
  have whole := byteLength_bracketed (f := 0x7b) (l := 0x7d) (by decide) (by decide) pieces rest
  rw [sizes, List.length_map] at whole
  exact whole

theorem bytes_array (closed : ∀ v ∈ items, Closed v) :
    byteLength (array items) = (items.map byteLength).sum + (items.length - 1) + 2 := by
  have all := byteLength_array closed []
  rwa [List.append_nil] at all

theorem bytes_object (closed : ∀ field ∈ fields, Closed field.2) :
    byteLength (object fields) = (fields.map fun field => cost field.1 + 3 + byteLength field.2).sum +
      (fields.length - 1) + 2 := by
  have all := byteLength_object closed []
  rwa [List.append_nil] at all

theorem closed_array (closed : ∀ v ∈ items, Closed v) : Closed (array items) := fun rest => by
  rw [byteLength_array closed, bytes_array closed]

theorem closed_object (closed : ∀ field ∈ fields, Closed field.2) : Closed (object fields) := fun rest => by
  rw [byteLength_object closed, bytes_object closed]

/-- One field more, after the others. -/
theorem bytes_object_concat {k v : Utf16} (closed : ∀ field ∈ fields, Closed field.2) (closedValue : Closed v)
    (some : fields ≠ []) : byteLength (object (fields ++ [(k, v)])) =
      byteLength (object fields) + (cost k + byteLength v + 4) := by
  have all : ∀ field ∈ fields ++ [(k, v)], Closed field.2 := by
    intro field mem
    rcases List.mem_append.mp mem with mem | mem
    · exact closed field mem
    · rw [List.mem_singleton.mp mem]
      exact closedValue
  have pos := List.length_pos_of_ne_nil some
  rw [bytes_object all, bytes_object closed]
  simp only [List.map_append, List.map_cons, List.map_nil, List.sum_append, List.sum_cons, List.sum_nil,
    List.length_append, List.length_singleton]
  omega

theorem unitCost_le (c : UInt16) : unitCost c ≤ 6 := by
  unfold unitCost unitBytes
  split
  · omega
  split
  · omega
  split
  · omega
  split <;> omega

/-- An escape of six bytes for each unit is the worst. -/
theorem cost_le (s : Utf16) : cost s ≤ 6 * s.length := by
  induction s using cost.induct with
  | case1 => exact le_refl 0
  | case2 c => exact unitCost_le c
  | case3 c d s pair ih =>
    rw [cost, if_pos pair]
    simp only [List.length_cons]
    omega
  | case4 c d s alone ih =>
    have one := unitCost_le c
    rw [cost, if_neg alone]
    simp only [List.length_cons] at ih ⊢
    omega

theorem cost_cons (h : isHigh c = false) (s : Utf16) : cost (c :: s) = unitCost c + cost s := by
  cases s with
  | nil => rfl
  | cons d s => simp [cost, h]

theorem cost_of_plain (plain : ∀ c ∈ s, isHigh c = false ∧ unitCost c = 1) : cost s = s.length := by
  induction s with
  | nil => rfl
  | cons c s ih =>
    obtain ⟨notHigh, one⟩ := plain c (List.mem_cons_self ..)
    rw [cost_cons notHigh, one, ih fun x hx => plain x (List.mem_cons_of_mem _ hx), List.length_cons, Nat.add_comm]

theorem cost_replicate (h : isHigh c = false) (n : Nat) : cost (List.replicate n c) = n * unitCost c := by
  induction n with
  | zero => rw [List.replicate_zero, Nat.zero_mul]; rfl
  | succ n ih => rw [List.replicate_succ, cost_cons h, ih, Nat.succ_mul, Nat.add_comm]

end

end OtterWorks.JsonText
