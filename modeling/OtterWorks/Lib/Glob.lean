import Mathlib.Data.List.Infix
import OtterWorks.Lib.Text

namespace OtterWorks

/-- A piece of a pattern: any text, or one character of a set. -/
inductive Token
  | many
  | one (set : Char → Bool)

def matchesAll : List Token → Text → Bool
  | [], s => s.isEmpty
  | .one set :: rest, c :: s => set c && matchesAll rest s
  | .one _ :: _, [] => false
  | .many :: rest, s => s.tails.any (matchesAll rest)

/-- How a locale reads what follows a `[`: the characters it stands for, and how much of the pattern it takes. -/
abbrev Brackets := Text → Option ((Char → Bool) × Nat)

/-- The tokens of a shell pattern. -/
def shellTokens (brackets : Brackets) : Nat → Text → List Token
  | 0, _ => []
  | _ + 1, [] => []
  | n + 1, c :: p =>
    if c = '*' then .many :: shellTokens brackets n p
    else if c = '?' then .one (fun _ => true) :: shellTokens brackets n p
    else if c = '[' then
      match brackets p with
      | some (set, taken) => .one set :: shellTokens brackets n (p.drop taken)
      | none => .one (· == c) :: shellTokens brackets n p
    else if c = '\\' then
      match p with
      | [] => [.one (· == c)]
      | quoted :: p => .one (· == quoted) :: shellTokens brackets n p
    else .one (· == c) :: shellTokens brackets n p

/-- `case s in p) ..` -/
def shellMatches (brackets : Brackets) (p s : Text) : Bool := matchesAll (shellTokens brackets p.length p) s

/-- `StringLike`, where only `*` and `?` are wild. -/
def likeMatches (p s : Text) : Bool :=
  matchesAll (p.map fun c => if c = '*' then .many else if c = '?' then .one (fun _ => true) else .one (· == c)) s

/-- None of the characters that a shell pattern treats apart. -/
def PlainPattern (p : Text) : Prop := ∀ c ∈ p, c ≠ '*' ∧ c ≠ '?' ∧ c ≠ '[' ∧ c ≠ '\\'

theorem shellMatches_self {brackets : Brackets} {p : Text} (plain : PlainPattern p) : shellMatches brackets p p = true := by
  unfold shellMatches
  induction p with
  | nil => rfl
  | cons c p ih =>
    obtain ⟨many, one, bracket, quote⟩ := plain c (List.mem_cons_self ..)
    have rest := ih fun d member => plain d (List.mem_cons_of_mem _ member)
    simp [shellTokens, many, one, bracket, quote, matchesAll, rest]

end OtterWorks
