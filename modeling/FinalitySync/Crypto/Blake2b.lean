import FinalitySync.Bytes.LittleEndian
import FinalitySync.Crypto.Word64

/-!
The BLAKE2b hash function without a key, for digests of up to 64 bytes.
-/

namespace FinalitySync.Blake2b

abbrev State := Vector UInt64 8

/-- The order in which each of the ten kinds of round takes the words of a block. -/
def schedules : Vector (Vector (Fin 16) 16) 10 :=
  #v[
    #v[0, 1, 2, 3, 4, 5, 6, 7, 8, 9, 10, 11, 12, 13, 14, 15],
    #v[14, 10, 4, 8, 9, 15, 13, 6, 1, 12, 0, 2, 11, 7, 5, 3],
    #v[11, 8, 12, 0, 5, 2, 15, 13, 10, 14, 3, 6, 7, 1, 9, 4],
    #v[7, 9, 3, 1, 13, 12, 11, 14, 2, 6, 5, 10, 4, 0, 15, 8],
    #v[9, 0, 5, 7, 2, 4, 10, 15, 14, 1, 11, 12, 6, 8, 3, 13],
    #v[2, 12, 6, 10, 0, 11, 8, 3, 4, 13, 7, 5, 15, 14, 1, 9],
    #v[12, 5, 1, 15, 14, 13, 4, 10, 0, 7, 6, 3, 9, 2, 8, 11],
    #v[13, 11, 7, 14, 12, 1, 3, 9, 5, 0, 15, 4, 8, 6, 2, 10],
    #v[6, 15, 14, 9, 11, 3, 0, 8, 12, 2, 13, 7, 1, 4, 10, 5],
    #v[10, 2, 8, 4, 7, 6, 1, 5, 15, 11, 9, 14, 3, 12, 13, 0]]

/-- The four positions that each mixing step of a round works on: columns, then diagonals. -/
def mixedPositions : List (Fin 16 × Fin 16 × Fin 16 × Fin 16) :=
  [(0, 4, 8, 12), (1, 5, 9, 13), (2, 6, 10, 14), (3, 7, 11, 15),
    (0, 5, 10, 15), (1, 6, 11, 12), (2, 7, 8, 13), (3, 4, 9, 14)]

def mix (work : Vector UInt64 16) (a b c d : Fin 16) (x y : UInt64) : Vector UInt64 16 :=
  let wordA := work[a] + work[b] + x
  let wordD := Word64.rotateRight (work[d] ^^^ wordA) 32
  let wordC := work[c] + wordD
  let wordB := Word64.rotateRight (work[b] ^^^ wordC) 24
  let wordA := wordA + wordB + y
  let wordD := Word64.rotateRight (wordD ^^^ wordA) 16
  let wordC := wordC + wordD
  let wordB := Word64.rotateRight (wordB ^^^ wordC) 63
  (((work.set a wordA).set b wordB).set c wordC).set d wordD

/-- The words that a schedule takes, two for each mixing step. -/
def scheduledPairs (schedule : Vector (Fin 16) 16) (block : Vector UInt64 16) :
    List (UInt64 × UInt64) :=
  (List.finRange 8).map fun step =>
    (block[schedule[2 * step.val]], block[schedule[2 * step.val + 1]])

def roundStep (block : Vector UInt64 16) (work : Vector UInt64 16)
    (schedule : Vector (Fin 16) 16) : Vector UInt64 16 :=
  (mixedPositions.zip (scheduledPairs schedule block)).foldl
    (fun current step =>
      mix current step.1.1 step.1.2.1 step.1.2.2.1 step.1.2.2.2 step.2.1 step.2.2)
    work

/-- Twelve rounds; the last two repeat the schedules of the first two. -/
def compress (state : State) (block : Vector UInt64 16) (byteCount : Nat) (isLast : Bool) :
    State :=
  let last : UInt64 := if isLast then 0xffffffffffffffff else 0
  let offsets : State := #v[0, 0, 0, 0, UInt64.ofNat byteCount,
    UInt64.ofNat (byteCount / 2 ^ 64), last, 0]
  let lower := Vector.zipWith (· ^^^ ·) Word64.squareRootFractions offsets
  let rounds := schedules.toList ++ schedules.toList.take 2
  let work := rounds.foldl (roundStep block) (state ++ lower)
  Vector.ofFn fun index => state[index.val] ^^^ work[index.val] ^^^ work[index.val + 8]

/-- The sixteen words at the front of the bytes; zeros follow a short end. -/
def blockOfBytes (bytes : Bytes) : Vector UInt64 16 :=
  Vector.ofFn fun index =>
    UInt64.ofNat (LittleEndian.decode ((bytes.drop (8 * index.val)).take 8))

/-- The digest of a message, `size` bytes. A message of no bytes has one block of zeros. -/
def hash (size : Nat) (message : Bytes) : Bytes :=
  let blockCount := max 1 ((message.length + 127) / 128)
  let parameters : State := #v[0x01010000 + UInt64.ofNat size, 0, 0, 0, 0, 0, 0, 0]
  let start := Vector.zipWith (· ^^^ ·) Word64.squareRootFractions parameters
  let final := (List.range blockCount).foldl
    (fun state index =>
      compress state (blockOfBytes ((message.drop (128 * index)).take 128))
        (min message.length (128 * (index + 1))) (index + 1 == blockCount))
    start
  (final.toList.flatMap fun word => LittleEndian.encode 8 word.toNat).take size

theorem length_flatMap_encode (words : List UInt64) :
    (words.flatMap fun word => LittleEndian.encode 8 word.toNat).length = 8 * words.length := by
  induction words with
  | nil => rfl
  | cons word words inductionHypothesis =>
      simp only [List.flatMap_cons, List.length_append, LittleEndian.length_encode,
        inductionHypothesis, List.length_cons]
      omega

theorem length_hash {size : Nat} (message : Bytes) (fits : size ≤ 64) :
    (hash size message).length = size := by
  simp only [hash, List.length_take, length_flatMap_encode, Vector.length_toList]
  omega

end FinalitySync.Blake2b
