import FinalitySync.Bytes.Octets
import FinalitySync.Crypto.Word64

/-!
The SHA-512 hash function. A message is padded to whole blocks of 128 bytes, and each block is
compressed into a state of eight words.
-/

namespace FinalitySync.Sha512

abbrev State := Vector UInt64 8

/-- The first bits of the fractional parts of the cube roots of the first eighty primes. -/
def roundConstants : Vector UInt64 80 :=
  #v[
    0x428a2f98d728ae22, 0x7137449123ef65cd, 0xb5c0fbcfec4d3b2f,
    0xe9b5dba58189dbbc, 0x3956c25bf348b538, 0x59f111f1b605d019,
    0x923f82a4af194f9b, 0xab1c5ed5da6d8118, 0xd807aa98a3030242,
    0x12835b0145706fbe, 0x243185be4ee4b28c, 0x550c7dc3d5ffb4e2,
    0x72be5d74f27b896f, 0x80deb1fe3b1696b1, 0x9bdc06a725c71235,
    0xc19bf174cf692694, 0xe49b69c19ef14ad2, 0xefbe4786384f25e3,
    0x0fc19dc68b8cd5b5, 0x240ca1cc77ac9c65, 0x2de92c6f592b0275,
    0x4a7484aa6ea6e483, 0x5cb0a9dcbd41fbd4, 0x76f988da831153b5,
    0x983e5152ee66dfab, 0xa831c66d2db43210, 0xb00327c898fb213f,
    0xbf597fc7beef0ee4, 0xc6e00bf33da88fc2, 0xd5a79147930aa725,
    0x06ca6351e003826f, 0x142929670a0e6e70, 0x27b70a8546d22ffc,
    0x2e1b21385c26c926, 0x4d2c6dfc5ac42aed, 0x53380d139d95b3df,
    0x650a73548baf63de, 0x766a0abb3c77b2a8, 0x81c2c92e47edaee6,
    0x92722c851482353b, 0xa2bfe8a14cf10364, 0xa81a664bbc423001,
    0xc24b8b70d0f89791, 0xc76c51a30654be30, 0xd192e819d6ef5218,
    0xd69906245565a910, 0xf40e35855771202a, 0x106aa07032bbd1b8,
    0x19a4c116b8d2d0c8, 0x1e376c085141ab53, 0x2748774cdf8eeb99,
    0x34b0bcb5e19b48a8, 0x391c0cb3c5c95a63, 0x4ed8aa4ae3418acb,
    0x5b9cca4f7763e373, 0x682e6ff3d6b2b8a3, 0x748f82ee5defb2fc,
    0x78a5636f43172f60, 0x84c87814a1f0ab72, 0x8cc702081a6439ec,
    0x90befffa23631e28, 0xa4506cebde82bde9, 0xbef9a3f7b2c67915,
    0xc67178f2e372532b, 0xca273eceea26619c, 0xd186b8c721c0c207,
    0xeada7dd6cde0eb1e, 0xf57d4f7fee6ed178, 0x06f067aa72176fba,
    0x0a637dc5a2c898a6, 0x113f9804bef90dae, 0x1b710b35131c471b,
    0x28db77f523047d84, 0x32caab7b40c72493, 0x3c9ebe0a15c9bebc,
    0x431d67c49c100d4c, 0x4cc5d4becb3e42b6, 0x597f299cfc657e2a,
    0x5fcb6fab3ad6faec, 0x6c44198c4a475817]

/-- The word that bytes spell, most significant byte first. -/
def wordOfBytes (bytes : Bytes) : UInt64 :=
  bytes.foldl (fun word byte => (word <<< 8) ||| byte.toUInt64) 0

/-- The bytes of a word, most significant byte first. -/
def bytesOfWord (word : UInt64) : Bytes :=
  ([56, 48, 40, 32, 24, 16, 8, 0] : List UInt64).map fun amount => (word >>> amount).toUInt8

/-- Consecutive parts of the given length; the last one may be shorter. -/
def chunks (length : Nat) (bytes : Bytes) : List Bytes :=
  (List.range ((bytes.length + length - 1) / length)).map fun index =>
    (bytes.drop (index * length)).take length

/-- The message, a one bit, zeros, and the bit length of the message in sixteen bytes. -/
def padded (message : Bytes) : Bytes :=
  let zeros := (111 - (message.length : Int)) % 128
  message ++ 0x80 :: List.replicate zeros.toNat 0 ++ List.replicate 8 0 ++
    bytesOfWord (UInt64.ofNat (8 * message.length))

def smallSigma0 (word : UInt64) : UInt64 :=
  Word64.rotateRight word 1 ^^^ Word64.rotateRight word 8 ^^^ (word >>> 7)

def smallSigma1 (word : UInt64) : UInt64 :=
  Word64.rotateRight word 19 ^^^ Word64.rotateRight word 61 ^^^ (word >>> 6)

def bigSigma0 (word : UInt64) : UInt64 :=
  Word64.rotateRight word 28 ^^^ Word64.rotateRight word 34 ^^^ Word64.rotateRight word 39

def bigSigma1 (word : UInt64) : UInt64 :=
  Word64.rotateRight word 14 ^^^ Word64.rotateRight word 18 ^^^ Word64.rotateRight word 41

/-- The sixteen latest words of the message schedule, one word further on. -/
def scheduleStep (window : Vector UInt64 16) : Vector UInt64 16 :=
  let next := smallSigma1 window[14] + window[9] + smallSigma0 window[1] + window[0]
  Vector.ofFn fun index =>
    if within : index.val + 1 < 16 then window[index.val + 1] else next

def roundStep (state : State) (constant word : UInt64) : State :=
  let a := state[0]
  let b := state[1]
  let c := state[2]
  let e := state[4]
  let f := state[5]
  let g := state[6]
  let choice := (e &&& f) ^^^ (~~~e &&& g)
  let majority := (a &&& b) ^^^ (a &&& c) ^^^ (b &&& c)
  let first := state[7] + bigSigma1 e + choice + constant + word
  let second := bigSigma0 a + majority
  #v[first + second, a, b, c, state[3] + first, e, f, g]

def compress (state : State) (block : Bytes) : State :=
  let words := (chunks 8 block).map wordOfBytes
  let window : Vector UInt64 16 := Vector.ofFn fun index => words.getD index.val 0
  let final := roundConstants.toList.foldl
    (fun (current : State × Vector UInt64 16) constant =>
      (roundStep current.1 constant current.2[0], scheduleStep current.2))
    (state, window)
  Vector.zipWith (· + ·) state final.1

/-- The hash of a message, 64 bytes. -/
def hash (message : Bytes) : Bytes :=
  let state := (chunks 128 (padded message)).foldl compress Word64.squareRootFractions
  state.toList.flatMap bytesOfWord

end FinalitySync.Sha512
