import OtterWorks.Lib.BinaryFloat
import OtterWorks.Lib.JsText
import OtterWorks.Tenants.Lifetimes
import Mathlib.Algebra.Order.Monoid.Unbundled.WithTop

namespace OtterWorks.Tenants.TtlText

open JsText (isBlank trim)

/-- A number of the dashboard, which is not negative here; `⊤` is `Infinity`. -/
abbrev Number := WithTop ℚ

def number (x : ℚ) : Number :=
  let rounded := BinaryFloat.nearest 52 x
  if rounded < 2 ^ 1024 then rounded else ⊤

def never : Text := text "never"

def isNeverTtl (ttl : Text) : Bool := (trim ttl).map Char.toLower == never

/-- The groups of `/^(\d+)\s*([hmdHMD]?)$/`. -/
def ttlMatch (s : Text) : Option (Text × Text) :=
  let num := s.takeWhile Char.isDigit
  let unit := (s.dropWhile Char.isDigit).dropWhile isBlank
  if num ≠ [] ∧ unit.length ≤ 1 ∧ unit.all (· ∈ text "hmdHMD") then some (num, unit) else none

def decimal (digits : Text) : Nat := Nat.ofDigitChars 10 digits 0

def secondsOf (num : Number) : Text → Option Number
  | ['m'] => some (times num 60)
  | ['h'] => some (times num 3600)
  | ['d'] => some (times num 86400)
  | _ => none
where
  times (num : Number) (k : Nat) : Number :=
    match num with
    | some n => number (n * k)
    | none => ⊤

def ttlToSeconds (ttl : Text) : Option Number :=
  if isNeverTtl ttl then some ((neverTtlSeconds : ℚ) : Number)
  else
    match ttlMatch (trim ttl) with
    | none => none
    | some (m1, m2) =>
      let num := number (decimal m1)
      if num = ⊤ ∨ num ≤ 0 then none
      else secondsOf num ((if m2 = [] then ['h'] else m2).map Char.toLower)

/-- The minutes are printed digit for digit, as they are up to `2 ^ 53`. -/
def secondsToTtl (seconds : ℚ) : Text :=
  let minutes := max 1 ⌈BinaryFloat.nearest 52 (seconds / 60)⌉
  Nat.toDigits 10 minutes.toNat ++ ['m']

/-- What is read of the body of a checkout. -/
structure CheckoutBody where
  ttl : Option Text
  persistent : Bool
  deriving DecidableEq, Repr

/-- The lifetime that a checkout hands on to the runner and the one that it records; nothing where it is refused.
`mayBePerpetual`: the tenant is in `perpetualTenantIds`. -/
def checkoutTtl (mayBePerpetual : Bool) (body : CheckoutBody) : Option (Text × Number) :=
  let persistent := body.persistent || isNeverTtl (body.ttl.getD [])
  if persistent && !mayBePerpetual then none
  else
    let ttlStr := if persistent then never else if body.ttl.getD [] ≠ [] then body.ttl.getD [] else text "72h"
    (ttlToSeconds ttlStr).map (ttlStr, ·)

/-- The lifetime that a redeploy hands on. -/
def redeployTtl (perpetual : Bool) (remaining : ℚ) : Text :=
  if perpetual then never else secondsToTtl remaining

/-- `${ttl%%[!0-9]*}` -/
def leadingDigits (ttl : Text) : Text := ttl.takeWhile Char.isDigit

/-- `${ttl##*[0-9]}` -/
def afterDigits (ttl : Text) : Text := (ttl.reverse.takeWhile fun c => !c.isDigit).reverse

def unitCase : Text → Option TtlUnit
  | ['h'] => some .h
  | ['H'] => some .h
  | [] => some .h
  | ['m'] => some .m
  | ['M'] => some .m
  | ['d'] => some .d
  | ['D'] => some .d
  | _ => none

/-- A run of digits in shell arithmetic: octal after a leading zero, where `8` and `9` are errors. -/
def shellNumber : Text → Option Nat
  | '0' :: rest => if rest.all (· < '8') then some (Nat.ofDigitChars 8 rest 0) else none
  | digits => some (decimal digits)

/-- `expiry_epoch` of the runner, in arithmetic of 64 bits. -/
def expiryEpoch (ttl : Text) (now : Nat) : Option Int :=
  if ttl = never then some (BitVec.ofNat 64 now + 10 * 365 * 86400).toInt
  else
    let num := leadingDigits ttl
    if num = [] then none
    else do
      let unit ← unitCase (afterDigits ttl)
      let n ← shellNumber num
      return (BitVec.ofNat 64 now + BitVec.ofNat 64 n * BitVec.ofNat 64 unit.mult).toInt

/-- `date -u -d "+N hours"` and its like, or the BSD form: the digits, the unit and the time of the call give the time
that is shown; nothing where `date` fails. -/
abbrev DateCommand := Text → TtlUnit → Nat → Option Int

/-- `ttl_to_expiry` of the tenant deploy. -/
def ttlToExpiry (date : DateCommand) (ttl : Text) (now : Nat) : Option Int :=
  if ttl = never then date (text "3650") .d now
  else
    let num := leadingDigits ttl
    if num = [] then none
    else (unitCase (afterDigits ttl)).bind fun unit => date num unit now

/-- A relative item adds its number, read as a decimal, of units, up to the greatest number that can be shown. -/
def Displaces (date : DateCommand) (most : TtlUnit → Nat → Nat) : Prop :=
  ∀ digits : Text, digits ≠ [] → (∀ c ∈ digits, c.isDigit) → ∀ unit now, date digits unit now =
    if decimal digits ≤ most unit now then some ((now + decimal digits * unit.mult : Nat) : Int) else none

/-- The three parsers take the text for one number of seconds, each from its own time on. -/
def Agree (date : DateCommand) (ttl : Text) (now later : Nat) : Prop :=
  ∃ seconds : Nat, ttlToSeconds ttl = some ((seconds : ℚ) : Number) ∧
    expiryEpoch ttl now = some ((now + seconds : Nat) : Int) ∧
    ttlToExpiry date ttl later = some ((later + seconds : Nat) : Int)

/-- How many of which unit a text asks for. -/
def reading (ttl : Text) : Option (Nat × TtlUnit) :=
  if isNeverTtl ttl then some (3650, .d)
  else do
    let (m1, m2) ← ttlMatch (trim ttl)
    let unit ← unitCase m2
    return (decimal m1, unit)

/-- No blank, and no zero in front of a number from eight on; a lifetime without end is spelled in one way. -/
def Plain (ttl : Text) : Prop :=
  if isNeverTtl ttl then ttl = never
  else ttl.all (fun c => !isBlank c) ∧ (ttl.head? = some '0' → ∀ r ∈ reading ttl, r.1 < 8)

/-- The number is one that `date` can add, the end is below `2 ^ 63` and a number of the dashboard holds the seconds. -/
def Fits (most : TtlUnit → Nat → Nat) (ttl : Text) (now later : Nat) : Prop :=
  ∀ r ∈ reading ttl, r.1 ≤ most r.2 later ∧ now + r.1 * r.2.mult < 2 ^ 63 ∧ BinaryFloat.Held 52 (r.1 * r.2.mult : Nat)

end OtterWorks.Tenants.TtlText
