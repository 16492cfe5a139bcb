import Mathlib.Algebra.Order.Ring.Int
import Mathlib.Data.List.Infix

namespace OtterWorks

/-- Text as its characters; `compare` is code point order. -/
abbrev Text := List Char

instance : LawfulBEq Text := inferInstance

abbrev Bytes := List UInt8

/-- `str.rstrip(" ")`, SQL's `RTRIM`. -/
def rtrim (s : Text) : Text := (s.reverse.dropWhile (· == ' ')).reverse

/-- `str.ljust` with blanks. -/
def ljust (s : Text) (n : Nat) : Text := s ++ List.replicate (n - s.length) ' '

def text (s : String) : Text := s.toList

def hexDigit (n : Nat) : Char := (Nat.toDigits 16 n).headD '0'

/-- `bytes.hex()`. -/
def hex (b : Bytes) : Text := b.flatMap fun byte => [hexDigit (byte.toNat / 16), hexDigit (byte.toNat % 16)]

/-- The lower case of a character as far as ASCII can tell: besides the ASCII capitals only the Kelvin sign and the dotted
capital I have an ASCII letter in it. -/
def lowerChar (c : Char) : Text :=
  if c.toNat = 0x212a then ['k']
  else if c.toNat = 0x130 then ['i', Char.ofNat 0x307]
  else [c.toLower]

def lower (s : Text) : Text := s.flatMap lowerChar

end OtterWorks
