import Mathlib.Data.List.TakeWhile
import Mathlib.Algebra.Order.Ring.Int

namespace OtterWorks

/-- A text as its UTF-16 code units. -/
abbrev Utf16 := List UInt16

namespace Utf16

def ofChar (c : Char) : Utf16 :=
  if c.toNat < 0x10000 then [c.toNat.toUInt16]
  else [(0xd800 + (c.toNat - 0x10000) / 0x400).toUInt16, (0xdc00 + (c.toNat - 0x10000) % 0x400).toUInt16]

def ofString (s : String) : Utf16 := s.toList.flatMap ofChar

/-- What `trim` takes off both ends. -/
def isTrimmed (c : UInt16) : Bool := c ≤ 0x20

/-- `Character.isWhitespace`: blanks and separators that may be broken at, and some control characters. -/
def isWhitespace (c : UInt16) : Bool :=
  (0x9 ≤ c && c ≤ 0xd) || (0x1c ≤ c && c ≤ 0x20) || (0x2000 ≤ c && c ≤ 0x200a && c != 0x2007) ||
    [0x1680, 0x2028, 0x2029, 0x205f, 0x3000].contains c

def trim (s : Utf16) : Utf16 := ((s.dropWhile isTrimmed).reverse.dropWhile isTrimmed).reverse

/-- `isBlank`: no unit of a surrogate pair is white space, so the units can be asked one by one. -/
def isBlank (s : Utf16) : Bool := s.all isWhitespace

/-- Lower case, which for the ASCII names a media type is compared with is that of the ASCII letters. -/
def toLower (s : Utf16) : Utf16 := s.map fun c => if 0x41 ≤ c && c ≤ 0x5a then c + 0x20 else c

/-- `split`: empty pieces at the end are dropped, and a text without the separator is one piece. -/
def split (sep : UInt16) (s : Utf16) : List Utf16 :=
  if s.contains sep then ((s.splitOn sep).reverse.dropWhile List.isEmpty).reverse else [s]

/-- What stands before the first separator. -/
def before (sep : UInt16) (s : Utf16) : Utf16 := s.takeWhile (· != sep)

/-- What stands after the first separator, if there is one. -/
def after? (sep : UInt16) (s : Utf16) : Option Utf16 :=
  match s.dropWhile (· != sep) with
  | [] => none
  | _ :: rest => some rest

end Utf16

end OtterWorks
