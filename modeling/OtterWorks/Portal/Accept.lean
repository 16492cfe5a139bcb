import OtterWorks.Lib.JavaText
import Mathlib.Algebra.Order.Field.Rat

namespace OtterWorks.Portal

open Utf16

/-- What `Double.parseDouble` can give. -/
inductive Double
  | nan
  | infinite (negative : Bool)
  | finite (value : ℚ)
  deriving DecidableEq, Repr

/-- `x > 0`. -/
def Double.isPositive : Double → Bool
  | .nan => false
  | .infinite negative => !negative
  | .finite value => decide (0 < value)

/-- `x <= 0`. -/
def Double.isNotPositive : Double → Bool
  | .nan => false
  | .infinite negative => negative
  | .finite value => decide (value ≤ 0)

def comma : UInt16 := 0x2c

def semicolon : UInt16 := 0x3b

def slash : UInt16 := 0x2f

def equals : UInt16 := 0x3d

section

-- `Double.parseDouble`, with `none` for a `NumberFormatException`
variable (parseDouble : Utf16 → Option Double)

namespace Dispatcher

def qZero (range : Utf16) : Bool :=
  match ((split semicolon range).map trim).find? fun p => (ofString "q=").isPrefixOf p with
  | none => false
  | some p =>
    match parseDouble (p.drop 2) with
    | some q => q.isNotPositive
    | none => false

def acceptsJson : Option Utf16 → Bool
  | none => true
  | some accept =>
    if trim accept = [] then true
    else
      (split comma accept).any fun range =>
        let media := toLower (trim (before semicolon range))
        !media.isEmpty && !qZero parseDouble range &&
          (media == ofString "*/*" || media == ofString "application/*" ||
            media == ofString "application/json" || (ofString "+json").isSuffixOf media)

end Dispatcher

namespace PreferenceRouter

/-- The quality after the parameters of a range: the last `q` counts, and one that is no number is zero. -/
def quality (parameters : List Utf16) : Double :=
  parameters.foldl (fun quality part =>
    let parameter := trim part
    if (ofString "q=").isPrefixOf (toLower parameter) then
      (parseDouble (trim (parameter.drop 2))).getD (.finite 0)
    else quality) (.finite 1)

/-- Whether a range accepts JSON; `none` where there is no `parts[0]`. -/
def rangeAccepts (range : Utf16) : Option Bool :=
  match split semicolon (trim range) with
  | [] => none
  | first :: parameters =>
    let mediaType := toLower (trim first)
    some ((quality parseDouble parameters).isPositive &&
      (mediaType == ofString "application/json" || mediaType == ofString "application/*" ||
        mediaType == ofString "*/*"))

/-- The first range that accepts JSON ends the search, and so does one that raises. -/
def anyAccepts : List Utf16 → Option Bool
  | [] => some false
  | range :: ranges =>
    match rangeAccepts parseDouble range with
    | none => none
    | some true => some true
    | some false => anyAccepts ranges

/-- `none` where the call raises. -/
def acceptsJson : Option Utf16 → Option Bool
  | none => some true
  | some accept => anyAccepts parseDouble (split comma accept)

end PreferenceRouter

namespace FeedbackHandler

structure MediaRange where
  type : Utf16
  subtype : Utf16
  quality : ℚ
  deriving DecidableEq, Repr

def MediaRange.specificityForJson (range : MediaRange) : Int :=
  if range.type = ofString "application" ∧ range.subtype = ofString "json" then 2
  else if range.type = ofString "application" ∧ range.subtype = ofString "*" then 1
  else if range.type = ofString "*" ∧ range.subtype = ofString "*" then 0
  else -1

/-- The value of a parameter that is named `q`. -/
def qValue? (part : Utf16) : Option Utf16 :=
  let parameter := trim part
  if toLower (trim (before equals parameter)) = ofString "q" then after? equals parameter else none

/-- The quality after the parameters of a range, with one that is no number or not between zero and one as zero. -/
def quality (parameters : List Utf16) : ℚ :=
  let parsed := parameters.foldl (fun quality part =>
    match qValue? part with
    | some value => (parseDouble (trim value)).getD (.finite 0)
    | none => quality) (Double.finite 1)
  match parsed with
  | .finite value => if value < 0 ∨ 1 < value then 0 else value
  | _ => 0

/-- A range as it is read: `none` where there is no `parts[0]`, `some none` where the type has not two parts. -/
def mediaRange (rawRange : Utf16) : Option (Option MediaRange) :=
  match split semicolon (trim rawRange) with
  | [] => none
  | first :: parameters =>
    match (toLower (trim first)).splitOn slash with
    | [type, subtype] => some (some ⟨type, subtype, quality parseDouble parameters⟩)
    | _ => some none

/-- The best quality among the most specific ranges for JSON so far. -/
def better (best : Int × ℚ) (range : MediaRange) : Int × ℚ :=
  if range.specificityForJson < 0 then best
  else if best.1 < range.specificityForJson then (range.specificityForJson, range.quality)
  else if range.specificityForJson = best.1 then (best.1, max best.2 range.quality)
  else best

/-- `none` where the call raises. -/
def acceptsJson : Option Utf16 → Option Bool
  | none => some true
  | some accept =>
    if isBlank accept then some true
    else
      ((split comma accept).mapM (mediaRange parseDouble)).map fun ranges =>
        let best := (ranges.filterMap id).foldl better (-1, 0)
        decide (0 ≤ best.1 ∧ 0 < best.2)

end FeedbackHandler

end

end OtterWorks.Portal
