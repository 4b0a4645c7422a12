import FinalitySync.Bytes.Octets

/-!
Hexadecimal text: two digits a byte, written in lower case and read in either case.
-/

namespace FinalitySync.Hex

/-- The digit of a value below sixteen. -/
def digit (value : Nat) : Char :=
  if value < 10 then Char.ofNat (48 + value) else Char.ofNat (87 + value)

/-- The value of a digit of either case. -/
def value? (character : Char) : Option Nat :=
  let code := character.toNat
  if 48 ≤ code ∧ code ≤ 57 then some (code - 48)
  else if 97 ≤ code ∧ code ≤ 102 then some (code - 87)
  else if 65 ≤ code ∧ code ≤ 70 then some (code - 55)
  else none

/-- The two digits of a byte. -/
def byteDigits (byte : UInt8) : List Char :=
  [digit (byte.toNat / 16), digit (byte.toNat % 16)]

def encodeChars (bytes : Bytes) : List Char :=
  bytes.flatMap byteDigits

def encode (bytes : Bytes) : String :=
  String.ofList (encodeChars bytes)

/-- Refuses an odd number of digits and any other character. -/
def decodeChars? : List Char → Option Bytes
  | [] => some []
  | [_] => none
  | high :: low :: rest => do
      let highValue ← value? high
      let lowValue ← value? low
      let bytes ← decodeChars? rest
      return UInt8.ofNat (16 * highValue + lowValue) :: bytes

def decode? (text : String) : Option Bytes :=
  decodeChars? text.toList

/-- Leaves out one `0x` in front. -/
def withoutMarker : List Char → List Char
  | '0' :: 'x' :: digits => digits
  | digits => digits

end FinalitySync.Hex
