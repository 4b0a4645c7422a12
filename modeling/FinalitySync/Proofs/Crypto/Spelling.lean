import FinalitySync.Crypto.PublicKey
import FinalitySync.Crypto.Signature
import FinalitySync.Proofs.Text.Base58

/-!
# Keys and signatures are read back

A key is spelled as an address with a checksum and a signature by its digits.  Every key and every
signature is read back from its text.
-/

namespace FinalitySync

namespace Address

theorem length_checksum (body : Bytes) : (checksum body).length = 2 := by
  rw [checksum, List.length_take, Blake2b.length_hash _ (by decide)]
  rfl

theorem defaultNetwork_mem_registeredNetworks : defaultNetwork.toNat ∈ registeredNetworks := by
  decide

/-- The default network is one byte in front of the key. -/
theorem network?_defaultNetwork_cons {bytes : Bytes} (nonempty : bytes ≠ []) :
    network? (defaultNetwork :: bytes) = some (defaultNetwork.toNat, 1) := by
  cases bytes with
  | nil => exact absurd rfl nonempty
  | cons first rest => rfl

theorem decode?_encode (key : Octets 32) : decode? (encode key) = some key := by
  let body := defaultNetwork :: key.toList
  have lengthBody : body.length = 1 + 32 := by
    rw [List.length_cons, key.length_toList]
  have nonempty : key.toList ++ checksum body ≠ [] := by
    intro isEmpty
    have noKey := congrArg List.length (List.append_eq_nil_iff.mp isEmpty).1
    rw [key.length_toList] at noKey
    cases noKey
  have network : network? (body ++ checksum body) = some (defaultNetwork.toNat, 1) :=
    network?_defaultNetwork_cons nonempty
  have front : (body ++ checksum body).take (1 + 32) = body := by
    rw [← lengthBody, List.take_left]
  have back : (body ++ checksum body).drop (1 + 32) = checksum body := by
    rw [← lengthBody, List.drop_left]
  have whole : (body ++ checksum body).length = 1 + 34 := by
    rw [List.length_append, lengthBody, length_checksum]
  have keyBytes : Octets.ofList? 32 (body.drop 1) = some key := Octets.ofList?_toList key
  have decoded : Base58.decode? (encode key) = some (body ++ checksum body) :=
    Base58.decode?_encode (body ++ checksum body)
  simp only [decode?, decoded, network, front, back, keyBytes, whole, Option.bind_eq_bind,
    Option.bind_some, defaultNetwork_mem_registeredNetworks, and_self, if_true, Option.pure_def]

end Address

@[simp]
theorem PublicKey.form_isFaithful : PublicKey.form.IsFaithful := by
  apply Form.IsFaithful.ofSpelled
  intro key
  rw [address, Address.decode?_encode]
  rfl

namespace Hex

theorem value?_digit : ∀ value < 16, value? (digit value) = some value := by
  decide

theorem digit_ne_marker : ∀ value < 16, digit value ≠ 'x' := by
  decide

theorem decodeChars?_encodeChars (bytes : Bytes) :
    decodeChars? (encodeChars bytes) = some bytes := by
  induction bytes with
  | nil => rfl
  | cons byte bytes inductionHypothesis =>
      have byteBound := byte.toNat_lt
      have high := value?_digit (byte.toNat / 16) (by omega)
      have low := value?_digit (byte.toNat % 16) (by omega)
      have whole : UInt8.ofNat (16 * (byte.toNat / 16) + byte.toNat % 16) = byte := by
        rw [Nat.div_add_mod]
        exact UInt8.ofNat_toNat
      rw [encodeChars] at inductionHypothesis
      simp only [encodeChars, List.flatMap_cons, byteDigits, List.cons_append, List.nil_append,
        decodeChars?, high, low, inductionHypothesis, Option.bind_eq_bind, Option.bind_some,
        Option.pure_def, whole]

/-- No digit is an `x`, so the digits of bytes never begin with a marker. -/
theorem withoutMarker_encodeChars (bytes : Bytes) :
    withoutMarker (encodeChars bytes) = encodeChars bytes := by
  cases bytes with
  | nil => rfl
  | cons byte bytes =>
      have notMarker := digit_ne_marker (byte.toNat % 16) (by omega)
      rw [encodeChars, List.flatMap_cons, byteDigits]
      unfold withoutMarker
      split
      · rename_i sameDigits
        simp only [List.cons_append, List.nil_append, List.cons.injEq] at sameDigits
        exact absurd sameDigits.2.1 notMarker
      · rfl

end Hex

@[simp]
theorem Signature.form_isFaithful : Signature.form.IsFaithful := by
  apply Form.IsFaithful.ofSpelled
  intro signature
  rw [ofText?, hex, Hex.encode, String.toList_ofList, Hex.withoutMarker_encodeChars,
    Hex.decodeChars?_encodeChars]
  simp [Octets.ofList?_toList]

end FinalitySync
