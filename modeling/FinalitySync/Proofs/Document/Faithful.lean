import FinalitySync.Crypto.Hash
import FinalitySync.Proofs.Json.RoundTrip

/-!
# Faithful forms

A form is faithful if every value is read back from the document it is written as, and that
document survives being printed.  Values of a faithful form are read back from their JSON texts.
-/

namespace FinalitySync

/-- A list is read by reading each of its elements. -/
theorem mapM_eq_some_map
    {α β : Type} {read? : α → Option β} {value : α → β} {elements : List α}
    (readEach : ∀ element ∈ elements, read? element = some (value element)) :
    elements.mapM read? = some (elements.map value) := by
  induction elements with
  | nil => rfl
  | cons first elements inductionHypothesis =>
      have readFirst := readEach first List.mem_cons_self
      have readLater :=
        inductionHypothesis fun element member =>
          readEach element (List.mem_cons_of_mem first member)
      rw [List.mapM_cons, readFirst, readLater]
      rfl

structure Form.IsFaithful {α : Type} (form : Form α) : Prop where
  read?_write : ∀ value, form.read? (form.write value) = some value
  isPlain_write : ∀ value, (form.write value).IsPlain

attribute [simp] Form.IsFaithful.read?_write Form.IsFaithful.isPlain_write

namespace Form

variable {α β : Type}

theorem IsFaithful.ofJson?_toJson {form : Form α} (faithful : form.IsFaithful) (value : α) :
    form.ofJson? (form.toJson value) = some value := by
  rw [ofJson?, toJson, Json.parse?_print (faithful.isPlain_write value), Option.bind_some]
  exact faithful.read?_write value

/-- Words are written as natural numbers below their bound. -/
theorem IsFaithful.ofBelow
    {limit : Nat} {ofCarrier : Nat → β} {toCarrier : β → Nat}
    (bounded : ∀ value, toCarrier value < limit)
    (inverse : ∀ value, ofCarrier (toCarrier value) = value) :
    ((below limit).via ofCarrier toCarrier).IsFaithful where
  read?_write value := by
    simp [via, below, bounded value, inverse value]
  isPlain_write value := .natural (toCarrier value)

@[simp]
theorem word32_isFaithful : word32.IsFaithful :=
  .ofBelow (fun value => value.toNat_lt) (fun _ => UInt32.ofNat_toNat)

theorem IsFaithful.ofSpelled
    {spell : α → String} {parse? : String → Option α}
    (inverse : ∀ value, parse? (spell value) = some value) :
    (spelled spell parse?).IsFaithful where
  read?_write value := inverse value
  isPlain_write value := .text (spell value)

end Form

namespace Hash

theorem mapM_value?_encodeChars (bytes : Bytes) :
    (Hex.encodeChars bytes).mapM Hex.value? =
      some (bytes.flatMap fun byte => [byte.toNat / 16, byte.toNat % 16]) := by
  have digitValue : ∀ value < 16, Hex.value? (Hex.digit value) = some value := by
    decide
  induction bytes with
  | nil => rfl
  | cons byte bytes inductionHypothesis =>
      have byteBound := byte.toNat_lt
      have high := digitValue (byte.toNat / 16) (by omega)
      have low := digitValue (byte.toNat % 16) (by omega)
      rw [Hex.encodeChars] at inductionHypothesis
      simp [Hex.encodeChars, Hex.byteDigits, high, low, inductionHypothesis]

theorem pairs_flatMap (bytes : Bytes) :
    digitPairs?.pairs (bytes.flatMap fun byte => [byte.toNat / 16, byte.toNat % 16]) = bytes := by
  induction bytes with
  | nil => rfl
  | cons byte bytes inductionHypothesis =>
      have whole : UInt8.ofNat (16 * (byte.toNat / 16) + byte.toNat % 16) = byte := by
        rw [Nat.div_add_mod]
        exact UInt8.ofNat_toNat
      simp [digitPairs?.pairs, whole, inductionHypothesis]

/-- The digits of bytes are single bytes of text, and none is a blank. -/
theorem hexDigit_properties :
    ∀ value < 16,
      (Hex.digit value).utf8Size = 1 ∧ digitPairs?.isBlank (Hex.digit value) = false := by
  decide

theorem exists_digit_of_mem_encodeChars
    {bytes : Bytes} {character : Char} (member : character ∈ Hex.encodeChars bytes) :
    ∃ value < 16, character = Hex.digit value := by
  simp only [Hex.encodeChars, Hex.byteDigits, List.mem_flatMap, List.mem_cons,
    List.not_mem_nil, or_false] at member
  obtain ⟨byte, _, isHigh | isLow⟩ := member
  · have byteBound := byte.toNat_lt
    exact ⟨byte.toNat / 16, by omega, isHigh⟩
  · exact ⟨byte.toNat % 16, by omega, isLow⟩

theorem digitPairs?_encodeChars (bytes : Bytes) :
    digitPairs? (Hex.encodeChars bytes) = some bytes := by
  have noBlanks :
      (Hex.encodeChars bytes).filter (fun character => !digitPairs?.isBlank character) =
        Hex.encodeChars bytes := by
    rw [List.filter_eq_self]
    intro character member
    obtain ⟨value, bound, rfl⟩ := exists_digit_of_mem_encodeChars member
    simp [(hexDigit_properties value bound).2]
  rw [digitPairs?, noBlanks, mapM_value?_encodeChars]
  simp [pairs_flatMap]

theorem sum_utf8Size_encodeChars (bytes : Bytes) :
    ((Hex.encodeChars bytes).map Char.utf8Size).foldr (· + ·) 0 = 2 * bytes.length := by
  induction bytes with
  | nil => rfl
  | cons byte bytes inductionHypothesis =>
      have byteBound := byte.toNat_lt
      have high := (hexDigit_properties (byte.toNat / 16) (by omega)).1
      have low := (hexDigit_properties (byte.toNat % 16) (by omega)).1
      rw [Hex.encodeChars] at inductionHypothesis
      simp only [Hex.encodeChars, Hex.byteDigits, List.flatMap_cons, List.map_append,
        List.foldr_append, inductionHypothesis, List.map_cons, List.map_nil, List.foldr_cons,
        List.foldr_nil, high, low, List.length_cons]
      omega

theorem padded_toList {size : Nat} (octets : Octets size) :
    Octets.padded size octets.toList = octets := by
  apply Octets.ext
  have length_eq := octets.length_toList
  simp only [Octets.padded]
  rw [List.take_append_of_le_length (by omega), List.take_of_length_le (by omega)]

theorem ofText?_text (hash : Hash) : ofText? hash.text = some hash := by
  have digits : Hex.withoutMarker hash.text.toList = Hex.encodeChars hash.toList := by
    rw [text, String.toList_ofList]
    rfl
  have width : ((Hex.encodeChars hash.toList).map Char.utf8Size).foldr (· + ·) 0 = 64 := by
    rw [sum_utf8Size_encodeChars, hash.length_toList]
  simp only [ofText?, digits, width, if_true, digitPairs?_encodeChars, Option.map_some,
    padded_toList]

@[simp]
theorem form_isFaithful : form.IsFaithful :=
  .ofSpelled ofText?_text

end Hash

end FinalitySync
