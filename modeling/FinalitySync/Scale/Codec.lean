import FinalitySync.Bytes.LittleEndian
import FinalitySync.Scale.Failure

/-!
SCALE encodings: a writer and a reader kept together. Readers take the encoding off the front of
the input and return what follows it, so encodings are concatenated without separators.
-/

namespace FinalitySync.Scale

structure Codec (α : Type) where
  encode : α → Bytes
  /-- The value at the front of the input, and the bytes after it. -/
  decode : Bytes → Except Failure (α × Bytes)

namespace Codec

variable {α β : Type}

/-- The first `size` bytes as they are. -/
def octets (size : Nat) : Codec (Octets size) where
  encode := Octets.toList
  decode input :=
    match Octets.ofList? size (input.take size) with
    | some taken => .ok (taken, input.drop size)
    | none => .error (.ofCause .endOfInput)

/-- Reads the same bytes as another codec, as values of another type. -/
def via (codec : Codec α) (ofCarrier : α → β) (toCarrier : β → α) : Codec β where
  encode value := codec.encode (toCarrier value)
  decode input := do
    let (value, rest) ← codec.decode input
    return (ofCarrier value, rest)

def word8 : Codec UInt8 :=
  (octets 1).via
    (fun bytes => UInt8.ofNat (LittleEndian.decode bytes.toList))
    (fun value => ⟨LittleEndian.encode 1 value.toNat, LittleEndian.length_encode _ _⟩)

def word32 : Codec UInt32 :=
  (octets 4).via
    (fun bytes => UInt32.ofNat (LittleEndian.decode bytes.toList))
    (fun value => ⟨LittleEndian.encode 4 value.toNat, LittleEndian.length_encode _ _⟩)

def word64 : Codec UInt64 :=
  (octets 8).via
    (fun bytes => UInt64.ofNat (LittleEndian.decode bytes.toList))
    (fun value => ⟨LittleEndian.encode 8 value.toNat, LittleEndian.length_encode _ _⟩)

/-- One byte, zero or one. -/
def boolean : Codec Bool where
  encode value := [if value then 1 else 0]
  decode input := do
    let (byte, rest) ← word8.decode input
    if byte = 0 then return (false, rest)
    else if byte = 1 then return (true, rest)
    else throw (.ofCause .badBoolean)

/-- One byte below `2 ^ 6`, two below `2 ^ 14`, four below `2 ^ 30`, otherwise a marker and four;
the two lowest bits of the first byte tell which. -/
def encodeCompact (value : UInt32) : Bytes :=
  let number := value.toNat
  if number < 2 ^ 6 then LittleEndian.encode 1 (4 * number)
  else if number < 2 ^ 14 then LittleEndian.encode 2 (4 * number + 1)
  else if number < 2 ^ 30 then LittleEndian.encode 4 (4 * number + 2)
  else 3 :: LittleEndian.encode 4 number

/-- A number of `width` bytes, divided by `divisor`, that no shorter form can hold. -/
def decodeCompactForm (width divisor least : Nat) (input : Bytes) :
    Except Failure (UInt32 × Bytes) := do
  let (bytes, rest) ← (octets width).decode input
  let number := LittleEndian.decode bytes.toList / divisor
  if least ≤ number then return (UInt32.ofNat number, rest)
  else throw (.ofCause .compactOutOfRange)

/-- Accepts the shortest form of each number only. -/
def decodeCompact (input : Bytes) : Except Failure (UInt32 × Bytes) :=
  match input with
  | [] => .error (.ofCause .endOfInput)
  | first :: rest =>
      match first.toNat % 4 with
      | 0 => decodeCompactForm 1 4 0 input
      | 1 => decodeCompactForm 2 4 (2 ^ 6) input
      | 2 => decodeCompactForm 4 4 (2 ^ 14) input
      | _ =>
          if first = 3 then decodeCompactForm 4 1 (2 ^ 30) rest
          else .error (.ofCause .compactOutOfRange)

def compact : Codec UInt32 where
  encode := encodeCompact
  decode := decodeCompact

/-- One encoding after the other. -/
def followedBy (first : Codec α) (second : Codec β) : Codec (α × β) where
  encode value := first.encode value.1 ++ second.encode value.2
  decode input := do
    let (left, afterLeft) ← first.decode input
    let (right, afterRight) ← second.decode afterLeft
    return ((left, right), afterRight)

/-- Names the place in failures. -/
def inside (place : Place) (codec : Codec α) : Codec α where
  encode := codec.encode
  decode input := (codec.decode input).mapError (Failure.inside place)

/-- Names a field in failures. -/
def component (path : String) (codec : Codec α) : Codec α :=
  codec.inside (.component path)

/-- The given number of values one after the other. -/
def decodeTimes (codec : Codec α) : Nat → Bytes → Except Failure (List α × Bytes)
  | 0, input => .ok ([], input)
  | count + 1, input => do
      let (value, rest) ← codec.decode input
      let (values, rest) ← decodeTimes codec count rest
      return (value :: values, rest)

/-- A compact count, then the values. -/
def vector (codec : Codec α) : Codec (List α) where
  encode values :=
    encodeCompact (UInt32.ofNat values.length) ++ values.flatMap codec.encode
  decode input := do
    let (count, rest) ← decodeCompact input
    decodeTimes codec count.toNat rest

/-- A compact count, then the bytes; a count past the end of the input is refused before any byte
is read. -/
def byteVector : Codec Bytes where
  encode bytes := encodeCompact (UInt32.ofNat bytes.length) ++ bytes
  decode input := do
    let (count, rest) ← decodeCompact input
    let bytes := rest.take count.toNat
    if bytes.length = count.toNat then return (bytes, rest.drop count.toNat)
    else throw (.ofCause .vectorTooLong)

end Codec

end FinalitySync.Scale
