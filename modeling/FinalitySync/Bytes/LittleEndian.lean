import FinalitySync.Bytes.Octets

/-!
Numbers as bytes, least significant byte first. Writing to a fixed width and reading are inverse
to each other on the numbers that fit and on the byte strings of that width.
-/

namespace FinalitySync.LittleEndian

/-- The lowest `width` bytes of a number. -/
def encode : Nat → Nat → Bytes
  | 0, _ => []
  | width + 1, value => UInt8.ofNat value :: encode width (value / 256)

def decode : Bytes → Nat
  | [] => 0
  | byte :: bytes => byte.toNat + 256 * decode bytes

theorem length_encode (width value : Nat) : (encode width value).length = width := by
  induction width generalizing value with
  | zero => rfl
  | succ width inductionHypothesis => simp [encode, inductionHypothesis]

theorem decode_lt (bytes : Bytes) : decode bytes < Nat.pow 256 bytes.length := by
  induction bytes with
  | nil => decide
  | cons byte bytes inductionHypothesis =>
      have byteBound := byte.toNat_lt
      simp only [Nat.pow_eq] at inductionHypothesis
      simp only [decode, List.length_cons, Nat.pow_eq, Nat.pow_succ]
      omega

theorem decode_encode {width value : Nat} (fits : value < Nat.pow 256 width) :
    decode (encode width value) = value := by
  induction width generalizing value with
  | zero =>
      have zeroValue : value = 0 := by simpa using fits
      simp [encode, decode, zeroValue]
  | succ width inductionHypothesis =>
      have quotientFits : value / 256 < Nat.pow 256 width := by
        apply (Nat.div_lt_iff_lt_mul (by decide)).mpr
        simpa [Nat.pow_succ] using fits
      simp only [encode, decode, inductionHypothesis quotientFits, UInt8.toNat_ofNat']
      omega

theorem encode_decode (bytes : Bytes) : encode bytes.length (decode bytes) = bytes := by
  induction bytes with
  | nil => rfl
  | cons byte bytes inductionHypothesis =>
      have byteBound := byte.toNat_lt
      have quotient : (byte.toNat + 256 * decode bytes) / 256 = decode bytes := by omega
      have firstByte : UInt8.ofNat (byte.toNat + 256 * decode bytes) = byte := by
        apply UInt8.toNat_inj.mp
        rw [UInt8.toNat_ofNat']
        omega
      simp only [List.length_cons, decode, encode, quotient, firstByte, inductionHypothesis]

end FinalitySync.LittleEndian
