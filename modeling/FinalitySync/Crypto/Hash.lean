import FinalitySync.Bytes.Hex
import FinalitySync.Crypto.Blake2b
import FinalitySync.Document.Form
import FinalitySync.Scale.Codec

/-!
Hashes of 32 bytes: of block headers, of state tries and of extrinsics.
-/

namespace FinalitySync

@[ext]
structure Hash extends Octets 32
deriving DecidableEq

namespace Hash

def zero : Hash := ⟨Octets.zero 32⟩

instance : Inhabited Hash := ⟨zero⟩

/-- The BLAKE2b digest of 32 bytes. -/
def blake2b (message : Bytes) : Hash :=
  ⟨⟨Blake2b.hash 32 message, Blake2b.length_hash message (by decide)⟩⟩

def codec : Scale.Codec Hash :=
  (Scale.Codec.octets 32).via Hash.mk Hash.toOctets

def hex (hash : Hash) : String := Hex.encode hash.toList

/-- Hexadecimal digits behind `0x`. -/
def text (hash : Hash) : String :=
  String.ofList ('0' :: 'x' :: Hex.encodeChars hash.toList)

/-- The bytes of the pairs of digits. Blanks are skipped, a last digit without a partner is
dropped, and any other character is refused. -/
def digitPairs? (characters : List Char) : Option Bytes := do
  let digits ← (characters.filter fun character => !isBlank character).mapM Hex.value?
  return pairs digits
where
  isBlank (character : Char) : Bool :=
    character == ' ' || character == '\r' || character == '\n' || character == '\t'
  pairs : List Nat → Bytes
    | high :: low :: digits => UInt8.ofNat (16 * high + low) :: pairs digits
    | _ => []

/-- Reads 64 bytes of text behind an optional `0x`; bytes that blanks leave unfilled are zero. -/
def ofText? (text : String) : Option Hash :=
  let digits := Hex.withoutMarker text.toList
  if (digits.map Char.utf8Size).foldr (· + ·) 0 = 64 then
    (digitPairs? digits).map fun bytes => ⟨Octets.padded 32 bytes⟩
  else none

def form : Form Hash := Form.spelled text ofText?

/-- Reads a hash from its text or from the list of its bytes. -/
def textOrBytes : Form Hash where
  write := form.write
  read?
    | .array bytes => do
        let octets ← Octets.ofList? 32 (← Form.word8.list.read? (.array bytes))
        return ⟨octets⟩
    | document => form.read? document

end Hash

end FinalitySync
