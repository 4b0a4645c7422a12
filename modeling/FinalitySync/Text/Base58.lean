import FinalitySync.Bytes.Octets

/-!
Base 58 text of byte strings. The bytes are read as one number, most significant first, and each
zero byte in front is a `1` of its own.
-/

namespace FinalitySync.Base58

def alphabet : List Char :=
  "123456789ABCDEFGHJKLMNPQRSTUVWXYZabcdefghijkmnopqrstuvwxyz".toList

/-- The digits of a number, least significant first; zero has none. -/
def numerals (base : Nat) (large : 1 < base) (value : Nat) : List Nat :=
  if value = 0 then []
  else value % base :: numerals base large (value / base)
termination_by value
decreasing_by exact Nat.div_lt_self (by omega) large

/-- The number that digits spell, least significant first. -/
def value (base : Nat) (digits : List Nat) : Nat :=
  digits.foldr (fun digit rest => digit + base * rest) 0

/-- The digits of a number in another base, most significant first; zeros in front are kept. -/
def convert (source target : Nat) (large : 1 < target) (digits : List Nat) : List Nat :=
  List.replicate (digits.takeWhile (· == 0)).length 0 ++
    (numerals target large (value source digits.reverse)).reverse

def encode (bytes : Bytes) : String :=
  String.ofList <|
    (convert 256 58 (by decide) (bytes.map UInt8.toNat)).map fun digit => alphabet.getD digit '1'

def digit? (character : Char) : Option Nat :=
  alphabet.idxOf? character

/-- Refuses characters outside the alphabet. -/
def decode? (text : String) : Option Bytes := do
  let digits ← text.toList.mapM digit?
  return (convert 58 256 (by decide) digits).map UInt8.ofNat

end FinalitySync.Base58
