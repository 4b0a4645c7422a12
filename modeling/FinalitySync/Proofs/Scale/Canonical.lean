import FinalitySync.Scale.Codec
import Mathlib.Logic.ExistsUnique

/-!
# Canonical codecs

A canonical codec reads exactly what it writes: every encoding is read back off the front of any
input, and whatever is read is the encoding of its value.  Compact numbers are canonical because
each of their forms refuses the numbers that a shorter one can hold, and the ways of putting codecs
together keep canonicity.
-/

namespace FinalitySync.Scale.Codec

variable {α β : Type}

theorem bind_eq_ok_iff
    {read : Except Failure α} {next : α → Except Failure β} {result : β} :
    (read >>= next) = .ok result ↔ ∃ outcome, read = .ok outcome ∧ next outcome = .ok result := by
  cases read <;> simp [bind, Except.bind]

/-- `codec.IsCanonical isEncodable` means that reading takes an encodable value's encoding off the
front of the input, and nothing else. -/
structure IsCanonical (codec : Codec α) (isEncodable : α → Prop) : Prop where
  decode_encode :
    ∀ value rest, isEncodable value → codec.decode (codec.encode value ++ rest) = .ok (value, rest)
  eq_encode_of_decode :
    ∀ input value rest,
      codec.decode input = .ok (value, rest) →
        isEncodable value ∧ input = codec.encode value ++ rest

/-- The values of a list are encodable, and there are few enough of them for their count. -/
def AllEncodable (isEncodable : α → Prop) (values : List α) : Prop :=
  values.length < 2 ^ 32 ∧ ∀ value ∈ values, isEncodable value

namespace IsCanonical

variable {codec : Codec α} {isEncodable : α → Prop}

/-- The encodable values may be described in another way. -/
theorem of_iff
    {isEncodableToo : α → Prop} (canonical : codec.IsCanonical isEncodable)
    (same : ∀ value, isEncodableToo value ↔ isEncodable value) :
    codec.IsCanonical isEncodableToo where
  decode_encode := by
    intro value rest encodable
    exact canonical.decode_encode value rest ((same value).mp encodable)
  eq_encode_of_decode := by
    intro input value rest decoded
    obtain ⟨encodable, split⟩ := canonical.eq_encode_of_decode input value rest decoded
    exact ⟨(same value).mpr encodable, split⟩

theorem decode_eq_ok_iff
    (canonical : codec.IsCanonical isEncodable) {input : Bytes} {value : α} {rest : Bytes} :
    codec.decode input = .ok (value, rest) ↔
      isEncodable value ∧ input = codec.encode value ++ rest := by
  constructor
  · exact canonical.eq_encode_of_decode input value rest
  · rintro ⟨encodable, rfl⟩
    exact canonical.decode_encode value rest encodable

/-- The encodings of different values do not begin one another. -/
theorem encode_append_inj
    (canonical : codec.IsCanonical isEncodable)
    {first second : α} (firstEncodable : isEncodable first) (secondEncodable : isEncodable second)
    {afterFirst afterSecond : Bytes} :
    codec.encode first ++ afterFirst = codec.encode second ++ afterSecond ↔
      first = second ∧ afterFirst = afterSecond := by
  constructor
  · intro same
    have readFirst := canonical.decode_encode first afterFirst firstEncodable
    have readSecond := canonical.decode_encode second afterSecond secondEncodable
    rw [same, readSecond, Except.ok.injEq, Prod.mk.injEq] at readFirst
    exact ⟨readFirst.1.symm, readFirst.2.symm⟩
  · intro same
    rw [same.1, same.2]

theorem encode_inj
    (canonical : codec.IsCanonical isEncodable)
    {first second : α} (firstEncodable : isEncodable first) (secondEncodable : isEncodable second) :
    codec.encode first = codec.encode second ↔ first = second := by
  have withNothing :
      codec.encode first ++ [] = codec.encode second ++ [] ↔ first = second ∧ [] = [] :=
    canonical.encode_append_inj firstEncodable secondEncodable
  simpa using withNothing

/-- An encodable value has one spelling. -/
theorem existsUnique_spelling
    (canonical : codec.IsCanonical isEncodable) {value : α} (encodable : isEncodable value) :
    ∃! bytes, codec.decode bytes = .ok (value, []) := by
  refine ⟨codec.encode value, ?_, ?_⟩
  · have decoded := canonical.decode_encode value [] encodable
    rw [List.append_nil] at decoded
    exact decoded
  · intro bytes decoded
    obtain ⟨_, split⟩ := canonical.eq_encode_of_decode bytes value [] decoded
    rw [split, List.append_nil]

end IsCanonical

theorem decode_octets_eq_ok_iff {size : Nat} {input rest : Bytes} {value : Octets size} :
    (octets size).decode input = .ok (value, rest) ↔ input = value.toList ++ rest := by
  constructor
  · intro decoded
    simp only [octets] at decoded
    cases read : Octets.ofList? size (input.take size) with
    | none =>
        rw [read] at decoded
        cases decoded
    | some taken =>
        rw [read] at decoded
        cases decoded
        rw [Octets.toList_of_ofList? read, List.take_append_drop]
  · rintro rfl
    have front : (value.toList ++ rest).take size = value.toList :=
      List.take_left' value.length_toList
    have back : (value.toList ++ rest).drop size = rest := List.drop_left' value.length_toList
    simp only [octets, front, back, Octets.ofList?_toList]

theorem octets_isCanonical (size : Nat) : (octets size).IsCanonical fun _ => True where
  decode_encode := fun _ _ _ => decode_octets_eq_ok_iff.mpr rfl
  eq_encode_of_decode := fun _ _ _ decoded => ⟨trivial, decode_octets_eq_ok_iff.mp decoded⟩

/-- Values of another type, one for each value that is read. -/
theorem IsCanonical.via
    {codec : Codec α} {isEncodable : α → Prop} (canonical : codec.IsCanonical isEncodable)
    {ofCarrier : α → β} {toCarrier : β → α}
    (ofCarrier_toCarrier : ∀ value, ofCarrier (toCarrier value) = value)
    (toCarrier_ofCarrier : ∀ carrier, toCarrier (ofCarrier carrier) = carrier) :
    (codec.via ofCarrier toCarrier).IsCanonical fun value => isEncodable (toCarrier value) where
  decode_encode := by
    intro value rest encodable
    have decoded := canonical.decode_encode (toCarrier value) rest encodable
    simp only [Codec.via, decoded, bind, Except.bind, pure, Except.pure, ofCarrier_toCarrier]
  eq_encode_of_decode := by
    intro input value rest decoded
    simp only [Codec.via, bind_eq_ok_iff] at decoded
    obtain ⟨⟨carrier, after⟩, read, same⟩ := decoded
    cases same
    obtain ⟨encodable, split⟩ := canonical.eq_encode_of_decode _ _ _ read
    simp only [Codec.via, toCarrier_ofCarrier]
    exact ⟨encodable, split⟩

/-- Words are spelled by their number, least significant byte first. -/
theorem littleEndian_isCanonical
    {Word : Type} (size : Nat) {ofNat : Nat → Word} {toNat : Word → Nat}
    (toNat_lt : ∀ word, toNat word < Nat.pow 256 size)
    (ofNat_toNat : ∀ word, ofNat (toNat word) = word)
    (toNat_ofNat : ∀ number, number < Nat.pow 256 size → toNat (ofNat number) = number) :
    ((octets size).via (fun bytes => ofNat (LittleEndian.decode bytes.toList))
      (fun word =>
        ⟨LittleEndian.encode size (toNat word), LittleEndian.length_encode _ _⟩)).IsCanonical
      fun _ => True := by
  apply (octets_isCanonical size).via
  · intro word
    rw [LittleEndian.decode_encode (toNat_lt word), ofNat_toNat]
  · intro bytes
    have bound := LittleEndian.decode_lt bytes.toList
    have sameBytes := LittleEndian.encode_decode bytes.toList
    rw [bytes.length_toList] at bound sameBytes
    apply Octets.ext
    dsimp only
    rw [toNat_ofNat _ bound, sameBytes]

theorem word8_isCanonical : word8.IsCanonical fun _ => True :=
  littleEndian_isCanonical 1 UInt8.toNat_lt (fun _ => UInt8.ofNat_toNat)
    (fun _ fits => UInt8.toNat_ofNat_of_lt' fits)

theorem word32_isCanonical : word32.IsCanonical fun _ => True :=
  littleEndian_isCanonical 4 UInt32.toNat_lt (fun _ => UInt32.ofNat_toNat)
    (fun _ fits => UInt32.toNat_ofNat_of_lt' fits)

theorem word64_isCanonical : word64.IsCanonical fun _ => True :=
  littleEndian_isCanonical 8 UInt64.toNat_lt (fun _ => UInt64.ofNat_toNat)
    (fun _ fits => UInt64.toNat_ofNat_of_lt' fits)

/-- A word of 32 bits is read off any input that has four bytes. -/
theorem exists_decode_word32_iff {input : Bytes} :
    (∃ outcome, word32.decode input = .ok outcome) ↔ 4 ≤ input.length := by
  constructor
  · rintro ⟨⟨value, rest⟩, decoded⟩
    obtain ⟨_, split⟩ := word32_isCanonical.eq_encode_of_decode input value rest decoded
    have width : (word32.encode value).length = 4 := LittleEndian.length_encode _ _
    rw [split, List.length_append]
    omega
  · intro longEnough
    have front : (input.take 4).length = 4 := List.length_take_of_le longEnough
    have split : input = (⟨input.take 4, front⟩ : Octets 4).toList ++ input.drop 4 :=
      (List.take_append_drop 4 input).symm
    have read := decode_octets_eq_ok_iff.mpr split
    simp only [word32, Codec.via, read]
    exact ⟨_, rfl⟩

theorem boolean_isCanonical : boolean.IsCanonical fun _ => True where
  decode_encode := by
    intro value rest _
    cases value <;> rfl
  eq_encode_of_decode := by
    intro input value rest decoded
    simp only [boolean, bind_eq_ok_iff] at decoded
    obtain ⟨⟨byte, after⟩, read, isBoolean⟩ := decoded
    obtain ⟨_, split⟩ := word8_isCanonical.eq_encode_of_decode input byte after read
    refine ⟨trivial, ?_⟩
    have spelling : word8.encode byte = [byte] :=
      congrArg (fun first => [first]) UInt8.ofNat_toNat
    rw [spelling] at split
    dsimp only at isBoolean
    split at isBoolean
    · rename_i isZero
      cases isBoolean
      rw [split, isZero]
      rfl
    · split at isBoolean
      · rename_i isOne
        cases isBoolean
        rw [split, isOne]
        rfl
      · cases isBoolean

/-! ## Compact numbers -/

/-- A form of a compact number is read exactly if it holds the number, with what it marks the form
by as the remainder, and no shorter form can. -/
theorem decodeCompactForm_eq_ok_iff
    {width divisor least : Nat} (positive : 0 < divisor) (narrow : width ≤ 4)
    {input rest : Bytes} {value : UInt32} :
    decodeCompactForm width divisor least input = .ok (value, rest) ↔
      ∃ remainder < divisor,
        divisor * value.toNat + remainder < Nat.pow 256 width ∧
          least ≤ value.toNat ∧
            input = LittleEndian.encode width (divisor * value.toNat + remainder) ++ rest := by
  constructor
  · intro decoded
    simp only [decodeCompactForm, bind_eq_ok_iff] at decoded
    obtain ⟨⟨bytes, after⟩, read, inRange⟩ := decoded
    dsimp only at inRange
    split at inRange
    · rename_i longEnough
      cases inRange
      have split := decode_octets_eq_ok_iff.mp read
      have bound := LittleEndian.decode_lt bytes.toList
      have sameBytes := LittleEndian.encode_decode bytes.toList
      rw [bytes.length_toList] at bound sameBytes
      have wordBound : Nat.pow 256 width ≤ 2 ^ 32 :=
        Nat.pow_le_pow_right (by decide) narrow
      have quotientBound : LittleEndian.decode bytes.toList / divisor < 2 ^ 32 :=
        Nat.lt_of_le_of_lt (Nat.div_le_self _ _) (Nat.lt_of_lt_of_le bound wordBound)
      have sameNumber := Nat.div_add_mod (LittleEndian.decode bytes.toList) divisor
      refine
        ⟨LittleEndian.decode bytes.toList % divisor, Nat.mod_lt _ positive, ?_, ?_, ?_⟩
      all_goals rw [UInt32.toNat_ofNat_of_lt' quotientBound]
      · rw [sameNumber]
        exact bound
      · exact longEnough
      · rw [sameNumber, sameBytes]
        exact split
    · cases inRange
  · rintro ⟨remainder, isRemainder, fits, longEnough, rfl⟩
    let bytes : Octets width :=
      ⟨LittleEndian.encode width (divisor * value.toNat + remainder),
        LittleEndian.length_encode _ _⟩
    have read :
        (octets width).decode
            (LittleEndian.encode width (divisor * value.toNat + remainder) ++ rest) =
          .ok (bytes, rest) :=
      decode_octets_eq_ok_iff.mpr rfl
    have quotient : (divisor * value.toNat + remainder) / divisor = value.toNat := by
      rw [Nat.mul_add_div positive, Nat.div_eq_of_lt isRemainder, Nat.add_zero]
    have number : LittleEndian.decode bytes.toList = divisor * value.toNat + remainder :=
      LittleEndian.decode_encode fits
    simp only [decodeCompactForm, read, bind, Except.bind, pure, Except.pure, number, quotient,
      if_pos longEnough, UInt32.ofNat_toNat]

/-- The first byte of a number has its lowest two bits. -/
theorem exists_encode_eq_cons {width : Nat} (nonempty : 0 < width) (number : Nat) :
    ∃ first later,
      LittleEndian.encode width number = first :: later ∧ first.toNat % 4 = number % 4 := by
  obtain ⟨width, rfl⟩ := Nat.exists_eq_add_of_lt nonempty
  rw [Nat.zero_add]
  refine ⟨UInt8.ofNat number, LittleEndian.encode width (number / 256), rfl, ?_⟩
  rw [UInt8.toNat_ofNat']
  omega

/-- The forms that are marked by the lowest two bits alone: the mark, the number of bytes, and the
least number that no shorter form can hold. -/
def shortForms : List (Nat × Nat × Nat) := [(0, 1, 0), (1, 2, 2 ^ 6), (2, 4, 2 ^ 14)]

theorem decodeCompact_cons
    {first : UInt8} {later : Bytes} {mark width least : Nat}
    (isMark : first.toNat % 4 = mark)
    (isForm : (mark, width, least) ∈ shortForms) :
    decodeCompact (first :: later) = decodeCompactForm width 4 least (first :: later) := by
  simp only [shortForms, List.mem_cons, Prod.mk.injEq, List.not_mem_nil, or_false] at isForm
  rcases isForm with ⟨rfl, rfl, rfl⟩ | ⟨rfl, rfl, rfl⟩ | ⟨rfl, rfl, rfl⟩ <;>
    simp only [decodeCompact, isMark]

theorem decodeCompact_encode_append
    {value : UInt32} {mark width least : Nat} {rest : Bytes}
    (isForm : (mark, width, least) ∈ shortForms)
    (fits : 4 * value.toNat + mark < Nat.pow 256 width) (longEnough : least ≤ value.toNat) :
    decodeCompact (LittleEndian.encode width (4 * value.toNat + mark) ++ rest) =
      .ok (value, rest) := by
  have small : mark < 4 ∧ 0 < width ∧ width ≤ 4 := by
    simp only [shortForms, List.mem_cons, Prod.mk.injEq, List.not_mem_nil, or_false] at isForm
    omega
  obtain ⟨isRemainder, nonempty, narrow⟩ := small
  obtain ⟨first, later, spelling, lowestBits⟩ :=
    exists_encode_eq_cons nonempty (4 * value.toNat + mark)
  have isMark : first.toNat % 4 = mark := by omega
  have read :
      decodeCompactForm width 4 least
          (LittleEndian.encode width (4 * value.toNat + mark) ++ rest) =
        .ok (value, rest) :=
    (decodeCompactForm_eq_ok_iff (by decide) narrow).mpr
      ⟨mark, isRemainder, fits, longEnough, rfl⟩
  rw [spelling, List.cons_append] at read ⊢
  rw [decodeCompact_cons isMark isForm, read]

theorem encodeCompact_of_form
    {value : UInt32} {mark width least : Nat}
    (isForm : (mark, width, least) ∈ shortForms)
    (fits : 4 * value.toNat + mark < Nat.pow 256 width) (longEnough : least ≤ value.toNat) :
    encodeCompact value = LittleEndian.encode width (4 * value.toNat + mark) := by
  simp only [shortForms, List.mem_cons, Prod.mk.injEq, List.not_mem_nil, or_false] at isForm
  simp only [encodeCompact]
  rcases isForm with ⟨rfl, rfl, rfl⟩ | ⟨rfl, rfl, rfl⟩ | ⟨rfl, rfl, rfl⟩
  · have below : value.toNat < 2 ^ 6 := by
      simp only [Nat.pow_eq] at fits
      omega
    rw [if_pos below, Nat.add_zero]
  · have below : value.toNat < 2 ^ 14 := by
      simp only [Nat.pow_eq] at fits
      omega
    rw [if_neg (by omega), if_pos below]
  · have below : value.toNat < 2 ^ 30 := by
      simp only [Nat.pow_eq] at fits
      omega
    rw [if_neg (by omega), if_neg (by omega), if_pos below]

theorem encodeCompact_of_large {value : UInt32} (large : 2 ^ 30 ≤ value.toNat) :
    encodeCompact value = 3 :: LittleEndian.encode 4 value.toNat := by
  simp only [encodeCompact]
  rw [if_neg (by omega), if_neg (by omega), if_neg (by omega)]

/-- A number below `2 ^ 30` has a short form. -/
theorem exists_form_of_small {value : UInt32} (small : value.toNat < 2 ^ 30) :
    ∃ mark width least,
      (mark, width, least) ∈ shortForms ∧
        4 * value.toNat + mark < Nat.pow 256 width ∧ least ≤ value.toNat := by
  by_cases below6 : value.toNat < 2 ^ 6
  · refine ⟨0, 1, 0, by decide, ?_, Nat.zero_le _⟩
    simp only [Nat.pow_eq]
    omega
  · by_cases below14 : value.toNat < 2 ^ 14
    · refine ⟨1, 2, 2 ^ 6, by decide, ?_, by omega⟩
      simp only [Nat.pow_eq]
      omega
    · refine ⟨2, 4, 2 ^ 14, by decide, ?_, by omega⟩
      simp only [Nat.pow_eq]
      omega

theorem decodeCompact_encodeCompact (value : UInt32) (rest : Bytes) :
    decodeCompact (encodeCompact value ++ rest) = .ok (value, rest) := by
  by_cases small : value.toNat < 2 ^ 30
  · obtain ⟨mark, width, least, isForm, fits, longEnough⟩ := exists_form_of_small small
    rw [encodeCompact_of_form isForm fits longEnough]
    exact decodeCompact_encode_append isForm fits longEnough
  · have large : 2 ^ 30 ≤ value.toNat := by omega
    have fits : 1 * value.toNat + 0 < Nat.pow 256 4 := by
      have bound := value.toNat_lt
      simp only [Nat.pow_eq]
      omega
    have read :
        decodeCompactForm 4 1 (2 ^ 30) (LittleEndian.encode 4 (1 * value.toNat + 0) ++ rest) =
          .ok (value, rest) :=
      (decodeCompactForm_eq_ok_iff (by decide) (by decide)).mpr ⟨0, by decide, fits, large, rfl⟩
    rw [Nat.one_mul, Nat.add_zero] at read
    rw [encodeCompact_of_large large]
    exact read

theorem exists_form_of_mark {mark : Nat} (isShort : mark < 3) :
    ∃ width least, (mark, width, least) ∈ shortForms ∧ 0 < width ∧ width ≤ 4 := by
  have marks : mark = 0 ∨ mark = 1 ∨ mark = 2 := by omega
  rcases marks with rfl | rfl | rfl
  · exact ⟨1, 0, by decide⟩
  · exact ⟨2, 2 ^ 6, by decide⟩
  · exact ⟨4, 2 ^ 14, by decide⟩

theorem eq_encodeCompact_of_short
    {first : UInt8} {later rest : Bytes} {value : UInt32}
    (isShort : first.toNat % 4 < 3)
    (decoded : decodeCompact (first :: later) = .ok (value, rest)) :
    first :: later = encodeCompact value ++ rest := by
  obtain ⟨width, least, isForm, nonempty, narrow⟩ := exists_form_of_mark isShort
  rw [decodeCompact_cons rfl isForm, decodeCompactForm_eq_ok_iff (by decide) narrow] at decoded
  obtain ⟨remainder, isRemainder, fits, longEnough, split⟩ := decoded
  -- The first byte of the number has its lowest two bits, which are the mark.
  obtain ⟨head, tail, spelling, lowestBits⟩ :=
    exists_encode_eq_cons nonempty (4 * value.toNat + remainder)
  have sameFirst : first = head := by
    rw [spelling, List.cons_append] at split
    exact (List.cons.inj split).1
  have isMark : remainder = first.toNat % 4 := by
    rw [sameFirst]
    omega
  rw [isMark] at fits split
  rw [split, encodeCompact_of_form isForm fits longEnough]

theorem eq_encodeCompact_of_long
    {first : UInt8} {later rest : Bytes} {value : UInt32}
    (isLong : first.toNat % 4 = 3)
    (decoded : decodeCompact (first :: later) = .ok (value, rest)) :
    first :: later = encodeCompact value ++ rest := by
  simp only [decodeCompact, isLong] at decoded
  by_cases isThree : first = 3
  · rw [if_pos isThree, decodeCompactForm_eq_ok_iff (by decide) (by decide)] at decoded
    obtain ⟨remainder, isRemainder, _, large, split⟩ := decoded
    have noRemainder : remainder = 0 := by omega
    rw [noRemainder, Nat.one_mul, Nat.add_zero] at split
    rw [isThree, split, encodeCompact_of_large large, List.cons_append]
  · rw [if_neg isThree] at decoded
    cases decoded

theorem compact_isCanonical : compact.IsCanonical fun _ => True where
  decode_encode := fun value rest _ => decodeCompact_encodeCompact value rest
  eq_encode_of_decode := by
    intro input value rest decoded
    refine ⟨trivial, ?_⟩
    cases input with
    | nil => cases decoded
    | cons first later =>
        by_cases isShort : first.toNat % 4 < 3
        · exact eq_encodeCompact_of_short isShort decoded
        · exact eq_encodeCompact_of_long (by omega) decoded

section Composition

variable {codec : Codec α} {isEncodable : α → Prop}
variable {second : Codec β} {isEncodableSecond : β → Prop}

theorem IsCanonical.inside (canonical : codec.IsCanonical isEncodable) (place : Place) :
    (codec.inside place).IsCanonical isEncodable where
  decode_encode := by
    intro value rest encodable
    have decoded := canonical.decode_encode value rest encodable
    simp only [Codec.inside, decoded]
    rfl
  eq_encode_of_decode := by
    intro input value rest decoded
    cases read : codec.decode input with
    | error failure =>
        simp only [Codec.inside, read] at decoded
        cases decoded
    | ok outcome =>
        simp only [Codec.inside, read] at decoded
        cases decoded
        exact canonical.eq_encode_of_decode input value rest read

theorem IsCanonical.component (canonical : codec.IsCanonical isEncodable) (path : String) :
    (codec.component path).IsCanonical isEncodable :=
  canonical.inside (.component path)

theorem decode_followedBy_eq_ok_iff {input rest : Bytes} {value : α × β} :
    (codec.followedBy second).decode input = .ok (value, rest) ↔
      ∃ afterFirst,
        codec.decode input = .ok (value.1, afterFirst) ∧
          second.decode afterFirst = .ok (value.2, rest) := by
  simp only [Codec.followedBy, bind_eq_ok_iff]
  constructor
  · rintro ⟨⟨left, afterFirst⟩, read, ⟨right, afterSecond⟩, readSecond, same⟩
    cases same
    exact ⟨afterFirst, read, readSecond⟩
  · rintro ⟨afterFirst, read, readSecond⟩
    exact ⟨_, read, _, readSecond, rfl⟩

theorem IsCanonical.followedBy
    (canonical : codec.IsCanonical isEncodable)
    (canonicalSecond : second.IsCanonical isEncodableSecond) :
    (codec.followedBy second).IsCanonical fun value =>
      isEncodable value.1 ∧ isEncodableSecond value.2 where
  decode_encode := by
    rintro value rest ⟨encodable, encodableSecond⟩
    have split :
        (codec.followedBy second).encode value ++ rest =
          codec.encode value.1 ++ (second.encode value.2 ++ rest) :=
      List.append_assoc _ _ _
    rw [split, decode_followedBy_eq_ok_iff]
    exact
      ⟨_, canonical.decode_encode value.1 _ encodable,
        canonicalSecond.decode_encode value.2 rest encodableSecond⟩
  eq_encode_of_decode := by
    intro input value rest decoded
    obtain ⟨afterFirst, read, readSecond⟩ := decode_followedBy_eq_ok_iff.mp decoded
    obtain ⟨encodable, split⟩ := canonical.eq_encode_of_decode _ _ _ read
    obtain ⟨encodableSecond, splitSecond⟩ := canonicalSecond.eq_encode_of_decode _ _ _ readSecond
    refine ⟨⟨encodable, encodableSecond⟩, ?_⟩
    rw [split, splitSecond]
    exact (List.append_assoc _ _ _).symm

theorem decodeTimes_flatMap_append
    (canonical : codec.IsCanonical isEncodable) {values : List α}
    (encodable : ∀ value ∈ values, isEncodable value) (rest : Bytes) :
    decodeTimes codec values.length (values.flatMap codec.encode ++ rest) =
      .ok (values, rest) := by
  induction values with
  | nil => rfl
  | cons value values inductionHypothesis =>
      have first := canonical.decode_encode value (values.flatMap codec.encode ++ rest)
        (encodable value List.mem_cons_self)
      have later := inductionHypothesis fun other member =>
        encodable other (List.mem_cons_of_mem value member)
      simp only [List.length_cons, List.flatMap_cons, List.append_assoc, decodeTimes, first, later,
        bind, Except.bind, pure, Except.pure]

theorem eq_flatMap_of_decodeTimes
    (canonical : codec.IsCanonical isEncodable) {count : Nat} {input rest : Bytes}
    {values : List α} (decoded : decodeTimes codec count input = .ok (values, rest)) :
    values.length = count ∧ (∀ value ∈ values, isEncodable value) ∧
      input = values.flatMap codec.encode ++ rest := by
  induction count generalizing input values with
  | zero =>
      cases decoded
      exact ⟨rfl, by simp, rfl⟩
  | succ count inductionHypothesis =>
      simp only [decodeTimes, bind_eq_ok_iff] at decoded
      obtain ⟨⟨value, afterFirst⟩, read, ⟨later, afterLater⟩, readLater, same⟩ := decoded
      cases same
      dsimp only at readLater ⊢
      obtain ⟨encodable, split⟩ := canonical.eq_encode_of_decode _ _ _ read
      obtain ⟨sameLength, encodableLater, splitLater⟩ := inductionHypothesis readLater
      refine ⟨by rw [List.length_cons, sameLength], ?_, ?_⟩
      · intro other member
        rcases List.mem_cons.mp member with rfl | inLater
        · exact encodable
        · exact encodableLater other inLater
      · rw [split, splitLater, List.flatMap_cons, List.append_assoc]

theorem IsCanonical.vector (canonical : codec.IsCanonical isEncodable) :
    codec.vector.IsCanonical (AllEncodable isEncodable) where
  decode_encode := by
    rintro values rest ⟨fewEnough, encodable⟩
    have count :=
      decodeCompact_encodeCompact (UInt32.ofNat values.length)
        (values.flatMap codec.encode ++ rest)
    have elements := decodeTimes_flatMap_append canonical encodable rest
    have sameLength : (UInt32.ofNat values.length).toNat = values.length :=
      UInt32.toNat_ofNat_of_lt' fewEnough
    simp only [Codec.vector, List.append_assoc, count, bind, Except.bind, sameLength, elements]
  eq_encode_of_decode := by
    intro input values rest decoded
    simp only [Codec.vector, bind_eq_ok_iff] at decoded
    obtain ⟨⟨count, afterCount⟩, read, readValues⟩ := decoded
    obtain ⟨_, split⟩ := compact_isCanonical.eq_encode_of_decode input count afterCount read
    obtain ⟨sameLength, encodable, splitValues⟩ := eq_flatMap_of_decodeTimes canonical readValues
    have fewEnough : values.length < 2 ^ 32 := by
      rw [sameLength]
      exact count.toNat_lt
    refine ⟨⟨fewEnough, encodable⟩, ?_⟩
    dsimp only at splitValues
    simp only [Codec.vector, sameLength, UInt32.ofNat_toNat, List.append_assoc]
    rw [split, splitValues]
    rfl

theorem byteVector_isCanonical : byteVector.IsCanonical fun bytes => bytes.length < 2 ^ 32 where
  decode_encode := by
    intro bytes rest fewEnough
    have count := decodeCompact_encodeCompact (UInt32.ofNat bytes.length) (bytes ++ rest)
    have sameLength : (UInt32.ofNat bytes.length).toNat = bytes.length :=
      UInt32.toNat_ofNat_of_lt' fewEnough
    simp only [byteVector, List.append_assoc, count, bind, Except.bind, sameLength,
      List.take_left, List.drop_left, if_true, pure, Except.pure]
  eq_encode_of_decode := by
    intro input bytes rest decoded
    simp only [byteVector, bind_eq_ok_iff] at decoded
    obtain ⟨⟨count, afterCount⟩, read, readBytes⟩ := decoded
    obtain ⟨_, split⟩ := compact_isCanonical.eq_encode_of_decode input count afterCount read
    dsimp only at readBytes
    split at readBytes
    · rename_i sameLength
      cases readBytes
      refine ⟨?_, ?_⟩
      · rw [sameLength]
        exact count.toNat_lt
      · simp only [byteVector, sameLength, UInt32.ofNat_toNat, List.append_assoc,
          List.take_append_drop]
        exact split
    · cases readBytes

/-- A codec that is canonical, alone and for the elements of a vector: each encodable value and
each list of them has one spelling. -/
structure HasUniqueSpellings (codec : Codec α) (isEncodable : α → Prop) : Prop where
  canonical : codec.IsCanonical isEncodable
  vectorCanonical : codec.vector.IsCanonical (AllEncodable isEncodable)
  existsUnique : ∀ value, isEncodable value → ∃! bytes, codec.decode bytes = .ok (value, [])
  vectorExistsUnique :
    ∀ values, AllEncodable isEncodable values →
      ∃! bytes, codec.vector.decode bytes = .ok (values, [])

theorem IsCanonical.hasUniqueSpellings (canonical : codec.IsCanonical isEncodable) :
    codec.HasUniqueSpellings isEncodable where
  canonical := canonical
  vectorCanonical := canonical.vector
  existsUnique := fun _ encodable => canonical.existsUnique_spelling encodable
  vectorExistsUnique := fun _ encodable => canonical.vector.existsUnique_spelling encodable

end Composition

end FinalitySync.Scale.Codec
