import FinalitySync.Proofs.Chain.Encoding
import FinalitySync.Proofs.Grandpa.Digest

/-!
# Payloads of consensus items

A payload is read as a message exactly if it is the encoding of that message, and each way to refuse
it has a condition on its bytes.  A header has the messages that its GRANDPA items carry, whatever
stands between them.
-/

namespace FinalitySync.Grandpa.Message

open Scale (Codec)

variable {α : Type} {payload input rest : Bytes} {format : UInt8} {message : Message}
variable {refusal : Refusal}

/-- Only so many authorities can be counted. -/
def IsEncodable : Message → Prop
  | .scheduledChange authorities _ => authorities.length < 2 ^ 32
  | .forcedChange _ authorities _ => authorities.length < 2 ^ 32
  | .authorityDisabled _ => True
  | .pause _ => True
  | .resume _ => True

theorem changeCodec_isCanonical :
    changeCodec.IsCanonical fun change => change.1.length < 2 ^ 32 := by
  apply Codec.IsCanonical.of_iff
  · exact Authority.codec_isCanonical.vector.followedBy Codec.word32_isCanonical
  · intro change
    simp [Codec.AllEncodable]

/-- Reads the fields of a format with one codec. -/
def readBy (codec : Codec α) (make : α → Message) (input : Bytes) :
    Except Refusal (Message × Bytes) :=
  match codec.decode input with
  | .ok (fields, rest) => .ok (make fields, rest)
  | .error failure => .error (.malformed failure)

theorem readBy_eq_ok_iff
    {codec : Codec α} {isEncodable : α → Prop} (canonical : codec.IsCanonical isEncodable)
    {make : α → Message} :
    readBy codec make input = .ok (message, rest) ↔
      ∃ fields,
        isEncodable fields ∧ message = make fields ∧ input = codec.encode fields ++ rest := by
  constructor
  · intro read
    cases decoded : codec.decode input with
    | error failure =>
        simp only [readBy, decoded] at read
        cases read
    | ok outcome =>
        simp only [readBy, decoded] at read
        cases read
        obtain ⟨encodable, split⟩ := canonical.eq_encode_of_decode _ _ _ decoded
        exact ⟨outcome.1, encodable, rfl, split⟩
  · rintro ⟨fields, encodable, rfl, rfl⟩
    simp only [readBy, canonical.decode_encode fields rest encodable]

theorem exists_malformed_of_readBy
    {codec : Codec α} {make : α → Message} (refused : readBy codec make input = .error refusal) :
    ∃ failure, refusal = .malformed failure := by
  cases decoded : codec.decode input with
  | error failure =>
      simp only [readBy, decoded] at refused
      cases refused
      exact ⟨failure, rfl⟩
  | ok outcome =>
      simp only [readBy, decoded] at refused
      cases refused

theorem decodeFields_scheduledChange (input : Bytes) :
    decodeFields 1 input =
      readBy changeCodec (fun change => .scheduledChange change.1 change.2) input := by
  cases decoded : changeCodec.decode input <;> simp [decodeFields, readBy, decoded]

theorem decodeFields_forcedChange (input : Bytes) :
    decodeFields 2 input =
      match Codec.word32.decode input with
      | .ok (offset, afterOffset) =>
          readBy changeCodec (fun change => .forcedChange offset change.1 change.2) afterOffset
      | .error _ => .error .missingOffset := by
  cases decodedOffset : Codec.word32.decode input with
  | error failure => simp [decodeFields, decodedOffset]
  | ok outcome =>
      cases decoded : changeCodec.decode outcome.2 <;>
        simp [decodeFields, readBy, decodedOffset, decoded]

theorem decodeFields_authorityDisabled (input : Bytes) :
    decodeFields 3 input = readBy Codec.word64 .authorityDisabled input := by
  cases decoded : Codec.word64.decode input <;> simp [decodeFields, readBy, decoded]

theorem decodeFields_pause (input : Bytes) :
    decodeFields 4 input = readBy Codec.word32 .pause input := by
  cases decoded : Codec.word32.decode input <;> simp [decodeFields, readBy, decoded]

theorem decodeFields_resume (input : Bytes) :
    decodeFields 5 input = readBy Codec.word32 .resume input := by
  cases decoded : Codec.word32.decode input <;> simp [decodeFields, readBy, decoded]

/-- The bytes in front of a payload that name a format. -/
def IsFormat (format : UInt8) : Prop := 1 ≤ format ∧ format ≤ 5

theorem isFormat_iff :
    IsFormat format ↔ format = 1 ∨ format = 2 ∨ format = 3 ∨ format = 4 ∨ format = 5 := by
  simp only [IsFormat, UInt8.le_iff_toNat_le, ← UInt8.toNat_inj, UInt8.reduceToNat]
  omega

theorem decodeFields_of_not_isFormat (unknown : ¬ IsFormat format) (input : Bytes) :
    decodeFields format input = .error (.unknownFormat format) := by
  simp only [isFormat_iff, not_or] at unknown
  obtain ⟨notFirst, notSecond, notThird, notFourth, notFifth⟩ := unknown
  simp only [decodeFields, if_neg notFirst, if_neg notSecond, if_neg notThird, if_neg notFourth,
    if_neg notFifth]

/-- Fields are read off the front of whatever begins with an encoding. -/
theorem decodeFields_eq_ok_iff :
    decodeFields format input = .ok (message, rest) ↔
      message.IsEncodable ∧ format :: input = message.encode ++ rest := by
  constructor
  · intro read
    by_cases known : IsFormat format
    · rcases isFormat_iff.mp known with rfl | rfl | rfl | rfl | rfl
      · rw [decodeFields_scheduledChange, readBy_eq_ok_iff changeCodec_isCanonical] at read
        obtain ⟨change, encodable, rfl, rfl⟩ := read
        exact ⟨encodable, rfl⟩
      · rw [decodeFields_forcedChange] at read
        cases decodedOffset : Codec.word32.decode input with
        | error failure =>
            rw [decodedOffset] at read
            cases read
        | ok outcome =>
            rw [decodedOffset] at read
            obtain ⟨change, encodable, rfl, splitChange⟩ :=
              (readBy_eq_ok_iff changeCodec_isCanonical).mp read
            obtain ⟨_, split⟩ := Codec.word32_isCanonical.eq_encode_of_decode _ _ _ decodedOffset
            refine ⟨encodable, ?_⟩
            rw [split, splitChange, encode, List.append_assoc, List.cons_append]
      · rw [decodeFields_authorityDisabled, readBy_eq_ok_iff Codec.word64_isCanonical] at read
        obtain ⟨index, _, rfl, rfl⟩ := read
        exact ⟨trivial, rfl⟩
      · rw [decodeFields_pause, readBy_eq_ok_iff Codec.word32_isCanonical] at read
        obtain ⟨delay, _, rfl, rfl⟩ := read
        exact ⟨trivial, rfl⟩
      · rw [decodeFields_resume, readBy_eq_ok_iff Codec.word32_isCanonical] at read
        obtain ⟨delay, _, rfl, rfl⟩ := read
        exact ⟨trivial, rfl⟩
    · rw [decodeFields_of_not_isFormat known] at read
      cases read
  · rintro ⟨encodable, split⟩
    cases message with
    | scheduledChange authorities delay =>
        obtain ⟨rfl, rfl⟩ := List.cons.inj split
        rw [decodeFields_scheduledChange, readBy_eq_ok_iff changeCodec_isCanonical]
        exact ⟨(authorities, delay), encodable, rfl, rfl⟩
    | forcedChange offset authorities delay =>
        rw [encode, List.append_assoc, List.cons_append] at split
        obtain ⟨rfl, rfl⟩ := List.cons.inj split
        have read := Codec.word32_isCanonical.decode_encode offset
          (changeCodec.encode (authorities, delay) ++ rest) trivial
        rw [decodeFields_forcedChange, read]
        exact
          (readBy_eq_ok_iff changeCodec_isCanonical).mpr
            ⟨(authorities, delay), encodable, rfl, rfl⟩
    | authorityDisabled index =>
        obtain ⟨rfl, rfl⟩ := List.cons.inj split
        rw [decodeFields_authorityDisabled, readBy_eq_ok_iff Codec.word64_isCanonical]
        exact ⟨index, trivial, rfl, rfl⟩
    | pause delay =>
        obtain ⟨rfl, rfl⟩ := List.cons.inj split
        rw [decodeFields_pause, readBy_eq_ok_iff Codec.word32_isCanonical]
        exact ⟨delay, trivial, rfl, rfl⟩
    | resume delay =>
        obtain ⟨rfl, rfl⟩ := List.cons.inj split
        rw [decodeFields_resume, readBy_eq_ok_iff Codec.word32_isCanonical]
        exact ⟨delay, trivial, rfl, rfl⟩

theorem exists_decode_offset_iff :
    (∃ failure, Codec.word32.decode input = .error failure) ↔ input.length < 4 := by
  rw [← Nat.not_le, ← Codec.exists_decode_word32_iff]
  cases Codec.word32.decode input <;> simp

/-- The format byte is known and an offset behind it is complete, as far as the payload goes. -/
def IsWellStarted (payload : Bytes) : Prop :=
  (∀ format input, payload = format :: input → IsFormat format) ∧
    ∀ input, payload = 2 :: input → 4 ≤ input.length

theorem isWellStarted_cons_iff :
    IsWellStarted (format :: input) ↔ IsFormat format ∧ (format = 2 → 4 ≤ input.length) := by
  constructor
  · rintro ⟨known, hasOffset⟩
    refine ⟨known format input rfl, ?_⟩
    rintro rfl
    exact hasOffset input rfl
  · rintro ⟨known, hasOffset⟩
    constructor
    · rintro _ _ ⟨rfl, rfl⟩
      exact known
    · rintro _ ⟨rfl, rfl⟩
      exact hasOffset rfl

theorem isWellStarted_of_decodeFields
    (read : decodeFields format input = .ok (message, rest)) : IsWellStarted (format :: input) := by
  rw [isWellStarted_cons_iff]
  constructor
  · by_contra unknown
    rw [decodeFields_of_not_isFormat unknown] at read
    cases read
  · rintro rfl
    by_contra tooShort
    obtain ⟨failure, noOffset⟩ := exists_decode_offset_iff.mpr (Nat.not_le.mp tooShort)
    rw [decodeFields_forcedChange, noOffset] at read
    cases read

/-- Why fields are refused: for the format, for the offset, or for something behind them. -/
theorem decodeFields_eq_error_cases (refused : decodeFields format input = .error refusal) :
    (¬ IsFormat format ∧ refusal = .unknownFormat format) ∨
      (format = 2 ∧ input.length < 4 ∧ refusal = .missingOffset) ∨
      (IsWellStarted (format :: input) ∧ ∃ failure, refusal = .malformed failure) := by
  by_cases known : IsFormat format
  · refine Or.inr ?_
    by_cases isForced : format = 2
    · subst isForced
      rw [decodeFields_forcedChange] at refused
      cases decodedOffset : Codec.word32.decode input with
      | error failure =>
          rw [decodedOffset] at refused
          cases refused
          exact Or.inl ⟨rfl, exists_decode_offset_iff.mp ⟨failure, decodedOffset⟩, rfl⟩
      | ok outcome =>
          rw [decodedOffset] at refused
          have hasOffset := Codec.exists_decode_word32_iff.mp ⟨outcome, decodedOffset⟩
          exact
            Or.inr
              ⟨isWellStarted_cons_iff.mpr ⟨known, fun _ => hasOffset⟩,
                exists_malformed_of_readBy refused⟩
    · refine Or.inr ⟨isWellStarted_cons_iff.mpr ⟨known, (absurd · isForced)⟩, ?_⟩
      rcases isFormat_iff.mp known with rfl | rfl | rfl | rfl | rfl
      · exact exists_malformed_of_readBy (decodeFields_scheduledChange input ▸ refused)
      · exact absurd rfl isForced
      · exact exists_malformed_of_readBy (decodeFields_authorityDisabled input ▸ refused)
      · exact exists_malformed_of_readBy (decodeFields_pause input ▸ refused)
      · exact exists_malformed_of_readBy (decodeFields_resume input ▸ refused)
  · rw [decodeFields_of_not_isFormat known] at refused
    cases refused
    exact Or.inl ⟨known, rfl⟩

/-! ## Whole payloads -/

theorem decode_cons_eq_ok_iff :
    decode (format :: input) = .ok message ↔ decodeFields format input = .ok (message, []) := by
  cases read : decodeFields format input with
  | error refusal => simp [decode, read]
  | ok outcome =>
      obtain ⟨other, rest⟩ := outcome
      cases rest <;> simp [decode, read]

theorem decode_eq_ok_iff :
    decode payload = .ok message ↔ message.IsEncodable ∧ payload = message.encode := by
  cases payload with
  | nil =>
      have nonempty : [] ≠ message.encode := by cases message <;> simp [encode]
      simp [decode, nonempty]
  | cons format input =>
      rw [decode_cons_eq_ok_iff, decodeFields_eq_ok_iff, List.append_nil]

theorem decode_eq_error_cases (refused : decode payload = .error refusal) :
    (∃ format input,
        payload = format :: input ∧ ¬ IsFormat format ∧ refusal = .unknownFormat format) ∨
      (∃ input, payload = 2 :: input ∧ input.length < 4 ∧ refusal = .missingOffset) ∨
      (IsWellStarted payload ∧ ∃ failure, refusal = .malformed failure) := by
  cases payload with
  | nil =>
      cases refused
      exact Or.inr (Or.inr ⟨⟨by simp, by simp⟩, _, rfl⟩)
  | cons format input =>
      cases read : decodeFields format input with
      | error cause =>
          simp only [decode, read] at refused
          cases refused
          rcases decodeFields_eq_error_cases read with
            ⟨unknown, isUnknown⟩ | ⟨rfl, tooShort, isMissing⟩ | isMalformed
          · exact Or.inl ⟨format, input, rfl, unknown, isUnknown⟩
          · exact Or.inr (Or.inl ⟨input, rfl, tooShort, isMissing⟩)
          · exact Or.inr (Or.inr isMalformed)
      | ok outcome =>
          obtain ⟨message, rest⟩ := outcome
          cases rest with
          | nil =>
              simp only [decode, read] at refused
              cases refused
          | cons next later =>
              simp only [decode, read] at refused
              cases refused
              exact Or.inr (Or.inr ⟨isWellStarted_of_decodeFields read, _, rfl⟩)

theorem decode_eq_unknownFormat_iff :
    decode payload = .error (.unknownFormat format) ↔
      ∃ input, payload = format :: input ∧ ¬ IsFormat format := by
  constructor
  · intro refused
    rcases decode_eq_error_cases refused with
      ⟨other, input, split, unknown, same⟩ | ⟨_, _, _, isMissing⟩ | ⟨_, _, isMalformed⟩
    · cases same
      exact ⟨input, split, unknown⟩
    · cases isMissing
    · cases isMalformed
  · rintro ⟨input, rfl, unknown⟩
    simp only [decode, decodeFields_of_not_isFormat unknown]

theorem decode_eq_missingOffset_iff :
    decode payload = .error .missingOffset ↔
      ∃ input, payload = 2 :: input ∧ input.length < 4 := by
  constructor
  · intro refused
    rcases decode_eq_error_cases refused with
      ⟨_, _, _, _, isUnknown⟩ | ⟨input, split, tooShort, _⟩ | ⟨_, _, isMalformed⟩
    · cases isUnknown
    · exact ⟨input, split, tooShort⟩
    · cases isMalformed
  · rintro ⟨input, rfl, tooShort⟩
    obtain ⟨failure, noOffset⟩ := exists_decode_offset_iff.mpr tooShort
    simp only [decode, decodeFields_forcedChange, noOffset]

/-- Whatever else is refused is malformed. -/
theorem exists_decode_eq_malformed_iff :
    (∃ failure, decode payload = .error (.malformed failure)) ↔
      IsWellStarted payload ∧
        ∀ message : Message, message.IsEncodable → payload ≠ message.encode := by
  constructor
  · rintro ⟨failure, refused⟩
    refine ⟨?_, ?_⟩
    · rcases decode_eq_error_cases refused with
        ⟨_, _, _, _, isUnknown⟩ | ⟨_, _, _, isMissing⟩ | ⟨isWellStarted, _⟩
      · cases isUnknown
      · cases isMissing
      · exact isWellStarted
    · intro message encodable same
      rw [decode_eq_ok_iff.mpr ⟨encodable, same⟩] at refused
      cases refused
  · rintro ⟨⟨known, hasOffset⟩, notEncoding⟩
    cases read : decode payload with
    | ok message =>
        obtain ⟨encodable, same⟩ := decode_eq_ok_iff.mp read
        exact absurd same (notEncoding message encodable)
    | error refusal =>
        rcases decode_eq_error_cases read with
          ⟨format, input, split, unknown, _⟩ | ⟨input, split, tooShort, _⟩ | ⟨_, failure, rfl⟩
        · exact absurd (known format input split) unknown
        · exact absurd (hasOffset input split) (Nat.not_le.mpr tooShort)
        · exact ⟨failure, rfl⟩

/-- `Carries items messages` means that the items of the engine are the encodings of the messages,
in order, whatever other items there are. -/
inductive Carries : List DigestItem → List Message → Prop
  | nil : Carries [] []
  | message {items messages} (message : Message) :
      message.IsEncodable →
        Carries items messages →
          Carries (.consensus engine message.encode :: items) (message :: messages)
  | other {items messages} (item : DigestItem) :
      (∀ payload, item ≠ .consensus engine payload) →
        Carries items messages → Carries (item :: items) messages

/-- The payload of an item of the engine. -/
def payload? : DigestItem → Option Bytes
  | .consensus itemEngine payload => if itemEngine = engine then some payload else none
  | _ => none

theorem consensusLogs_eq (header : Header) :
    header.consensusLogs engine = header.digest.logs.filterMap payload? := rfl

theorem payload?_eq_some_iff {item : DigestItem} :
    payload? item = some payload ↔ item = .consensus engine payload := by
  cases item <;> simp [payload?]

theorem carries_iff {items : List DigestItem} {messages : List Message} :
    Carries items messages ↔ (items.filterMap payload?).mapM decode = .ok messages := by
  rw [mapM_decode_eq_ok_iff]
  constructor
  · intro carries
    induction carries with
    | nil => exact List.Forall₂.nil
    | message message encodable _ inductionHypothesis =>
        rw [List.filterMap_cons_some (payload?_eq_some_iff.mpr rfl)]
        exact List.Forall₂.cons (decode_eq_ok_iff.mpr ⟨encodable, rfl⟩) inductionHypothesis
    | other item isOther _ inductionHypothesis =>
        have noPayload : payload? item = none := by
          rw [Option.eq_none_iff_forall_ne_some]
          intro payload carried
          exact isOther payload (payload?_eq_some_iff.mp carried)
        rw [List.filterMap_cons_none noPayload]
        exact inductionHypothesis
  · intro related
    induction items generalizing messages with
    | nil =>
        cases related
        exact Carries.nil
    | cons item items inductionHypothesis =>
        cases carried : payload? item with
        | none =>
            rw [List.filterMap_cons_none carried] at related
            refine Carries.other item ?_ (inductionHypothesis related)
            intro payload same
            rw [payload?_eq_some_iff.mpr same] at carried
            cases carried
        | some payload =>
            rw [List.filterMap_cons_some carried] at related
            cases related with
            | cons decoded later =>
                obtain ⟨encodable, rfl⟩ := decode_eq_ok_iff.mp decoded
                rw [payload?_eq_some_iff.mp carried]
                exact Carries.message _ encodable (inductionHypothesis later)

/-- A header is refused for the first payload that is no message. -/
theorem ofHeader_refuses_iff {header : Header} :
    ofHeader header = .error refusal ↔
      ∃ before refused after messages,
        header.digest.logs = before ++ .consensus engine refused :: after ∧
          Carries before messages ∧ decode refused = .error refusal := by
  rw [ofHeader_eq_error_iff, IsUnreadable, consensusLogs_eq]
  constructor
  · rintro ⟨before, refused, after, split, decodable, isRefused⟩
    obtain ⟨front, back, isCut, sameBefore, sameBack⟩ := List.filterMap_eq_append_iff.mp split
    obtain ⟨others, item, later, isCutAgain, areOthers, carried, _⟩ :=
      List.filterMap_eq_cons_iff.mp sameBack
    have noPayload : others.filterMap payload? = [] := List.filterMap_eq_nil_iff.mpr areOthers
    obtain ⟨messages, read⟩ := exists_mapM_decode decodable
    refine ⟨front ++ others, refused, later, messages, ?_, ?_, isRefused⟩
    · rw [isCut, isCutAgain, payload?_eq_some_iff.mp carried, List.append_assoc]
    · rw [carries_iff, List.filterMap_append, sameBefore, noPayload, List.append_nil]
      exact read
  · rintro ⟨before, refused, after, messages, split, carries, isRefused⟩
    refine ⟨before.filterMap payload?, refused, after.filterMap payload?, ?_, ?_, isRefused⟩
    · rw [split, List.filterMap_append, List.filterMap_cons_some (payload?_eq_some_iff.mpr rfl)]
    · intro payload member
      obtain ⟨message, _, decoded⟩ := exists_message_of_mem (carries_iff.mp carries) member
      exact ⟨message, decoded⟩

/-- A payload is read as the message that it is the encoding of.  It is refused for its format if
that is none of the five, for its offset if that is announced and not complete, and otherwise as
malformed.  A header has the messages that its items carry, or is refused for the first payload that
is none. -/
theorem payloads_areDecodedExactly (payload : Bytes) (header : Header) :
    (∀ message : Message,
        decode payload = .ok message ↔ message.IsEncodable ∧ payload = message.encode) ∧
      (∀ format,
        decode payload = .error (.unknownFormat format) ↔
          ∃ input, payload = format :: input ∧ ¬ IsFormat format) ∧
      (decode payload = .error .missingOffset ↔
        ∃ input, payload = 2 :: input ∧ input.length < 4) ∧
      ((∃ failure, decode payload = .error (.malformed failure)) ↔
        IsWellStarted payload ∧
          ∀ message : Message, message.IsEncodable → payload ≠ message.encode) ∧
      (∀ messages,
        ofHeader header = .ok messages ↔ Carries header.digest.logs messages) ∧
      ∀ refusal,
        ofHeader header = .error refusal ↔
          ∃ before refused after messages,
            header.digest.logs = before ++ .consensus engine refused :: after ∧
              Carries before messages ∧ decode refused = .error refusal := by
  refine ⟨?_, ?_, ?_, ?_, ?_, ?_⟩
  · intro message
    exact decode_eq_ok_iff
  · intro format
    exact decode_eq_unknownFormat_iff
  · exact decode_eq_missingOffset_iff
  · exact exists_decode_eq_malformed_iff
  · intro messages
    rw [carries_iff]
    rfl
  · intro refusal
    exact ofHeader_refuses_iff

end FinalitySync.Grandpa.Message
