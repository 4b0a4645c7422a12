import FinalitySync.Grandpa.Message
import Mathlib.Data.List.Forall2

/-!
# Messages of a header

A header's messages are read if every payload is a message, and otherwise the first payload that is
none tells why not.
-/

namespace FinalitySync.Grandpa.Message

/-- Every consensus payload of the header is a message. -/
def IsReadable (header : Header) : Prop :=
  ∀ payload ∈ header.consensusLogs engine, ∃ message, decode payload = .ok message

/-- `IsUnreadable header refusal` means that the first consensus payload that is no message is
refused for this reason. -/
def IsUnreadable (header : Header) (refusal : Refusal) : Prop :=
  ∃ before payload after,
    header.consensusLogs engine = before ++ payload :: after ∧
      (∀ earlier ∈ before, ∃ message, decode earlier = .ok message) ∧
      decode payload = .error refusal

theorem mapM_decode_cons_of_ok
    {payload : Bytes} {message : Message} (decoded : decode payload = .ok message)
    (payloads : List Bytes) :
    (payload :: payloads).mapM decode = (payloads.mapM decode).map (message :: ·) := by
  rw [List.mapM_cons, decoded]
  cases payloads.mapM decode <;> rfl

theorem mapM_decode_cons_of_error
    {payload : Bytes} {refusal : Refusal} (refused : decode payload = .error refusal)
    (payloads : List Bytes) :
    (payload :: payloads).mapM decode = .error refusal := by
  rw [List.mapM_cons, refused]
  rfl

theorem mapM_decode_eq_ok_iff {payloads : List Bytes} {messages : List Message} :
    payloads.mapM decode = .ok messages ↔
      List.Forall₂ (fun payload message => decode payload = .ok message) payloads messages := by
  constructor
  · intro read
    induction payloads generalizing messages with
    | nil =>
        cases read
        exact List.Forall₂.nil
    | cons payload payloads inductionHypothesis =>
        cases decoded : decode payload with
        | error refusal =>
            rw [mapM_decode_cons_of_error decoded] at read
            cases read
        | ok message =>
            rw [mapM_decode_cons_of_ok decoded] at read
            cases later : payloads.mapM decode with
            | error refusal =>
                rw [later] at read
                cases read
            | ok rest =>
                rw [later] at read
                cases read
                exact List.Forall₂.cons decoded (inductionHypothesis later)
  · intro related
    induction related with
    | nil => rfl
    | cons decoded _ inductionHypothesis =>
        rw [mapM_decode_cons_of_ok decoded, inductionHypothesis]
        rfl

theorem length_of_ofHeader
    {header : Header} {messages : List Message} (read : ofHeader header = .ok messages) :
    messages.length = (header.consensusLogs engine).length :=
  (mapM_decode_eq_ok_iff.mp read).length_eq.symm

theorem exists_message_of_mem
    {payloads : List Bytes} {messages : List Message}
    (read : payloads.mapM decode = .ok messages)
    {payload : Bytes} (member : payload ∈ payloads) :
    ∃ message ∈ messages, decode payload = .ok message := by
  have related := mapM_decode_eq_ok_iff.mp read
  clear read
  induction related with
  | nil => cases member
  | @cons _ first _ rest decoded _ inductionHypothesis =>
      rcases List.mem_cons.mp member with rfl | inLater
      · exact ⟨first, List.mem_cons_self, decoded⟩
      · obtain ⟨message, inRest, decodedLater⟩ := inductionHypothesis inLater
        exact ⟨message, List.mem_cons_of_mem first inRest, decodedLater⟩

theorem exists_payload_of_mem
    {payloads : List Bytes} {messages : List Message}
    (read : payloads.mapM decode = .ok messages)
    {message : Message} (member : message ∈ messages) :
    ∃ payload ∈ payloads, decode payload = .ok message := by
  have related := mapM_decode_eq_ok_iff.mp read
  clear read
  induction related with
  | nil => cases member
  | @cons first _ rest _ decoded _ inductionHypothesis =>
      rcases List.mem_cons.mp member with rfl | inLater
      · exact ⟨first, List.mem_cons_self, decoded⟩
      · obtain ⟨payload, inRest, decodedLater⟩ := inductionHypothesis inLater
        exact ⟨payload, List.mem_cons_of_mem first inRest, decodedLater⟩

theorem mapM_decode_append_error
    {before : List Bytes}
    (decodable : ∀ payload ∈ before, ∃ message, decode payload = .ok message)
    {payload : Bytes} {refusal : Refusal} (refused : decode payload = .error refusal)
    (after : List Bytes) :
    (before ++ payload :: after).mapM decode = .error refusal := by
  induction before with
  | nil => exact mapM_decode_cons_of_error refused after
  | cons earlier before inductionHypothesis =>
      obtain ⟨message, decoded⟩ := decodable earlier List.mem_cons_self
      have refusedLater :=
        inductionHypothesis fun later member =>
          decodable later (List.mem_cons_of_mem earlier member)
      rw [List.cons_append, mapM_decode_cons_of_ok decoded, refusedLater]
      rfl

/-- A list of payloads that is refused has a first payload that is refused. -/
theorem exists_refused_of_mapM_decode
    {payloads : List Bytes} {refusal : Refusal}
    (refused : payloads.mapM decode = .error refusal) :
    ∃ before payload after,
      payloads = before ++ payload :: after ∧
        (∀ earlier ∈ before, ∃ message, decode earlier = .ok message) ∧
        decode payload = .error refusal := by
  induction payloads with
  | nil => cases refused
  | cons payload payloads inductionHypothesis =>
      cases decoded : decode payload with
      | error cause =>
          rw [mapM_decode_cons_of_error decoded] at refused
          cases refused
          exact ⟨[], payload, payloads, rfl, by simp, decoded⟩
      | ok message =>
          rw [mapM_decode_cons_of_ok decoded] at refused
          cases later : payloads.mapM decode with
          | ok messages =>
              rw [later] at refused
              cases refused
          | error cause =>
              rw [later] at refused
              cases refused
              obtain ⟨before, first, after, split, decodable, refusedFirst⟩ :=
                inductionHypothesis later
              refine ⟨payload :: before, first, after, ?_, ?_, refusedFirst⟩
              · rw [split, List.cons_append]
              · intro earlier member
                rcases List.mem_cons.mp member with rfl | inBefore
                · exact ⟨message, decoded⟩
                · exact decodable earlier inBefore

theorem exists_mapM_decode
    {payloads : List Bytes}
    (decodable : ∀ payload ∈ payloads, ∃ message, decode payload = .ok message) :
    ∃ messages, payloads.mapM decode = .ok messages := by
  cases read : payloads.mapM decode with
  | ok messages => exact ⟨messages, rfl⟩
  | error refusal =>
      obtain ⟨before, payload, after, split, _, refused⟩ := exists_refused_of_mapM_decode read
      have member : payload ∈ payloads := by
        rw [split]
        exact List.mem_append_right before List.mem_cons_self
      obtain ⟨message, decoded⟩ := decodable payload member
      rw [refused] at decoded
      cases decoded

theorem ofHeader_eq_error_iff {header : Header} {refusal : Refusal} :
    ofHeader header = .error refusal ↔ IsUnreadable header refusal := by
  constructor
  · exact exists_refused_of_mapM_decode
  · rintro ⟨before, payload, after, split, decodable, refused⟩
    rw [ofHeader, split]
    exact mapM_decode_append_error decodable refused after

/-- A header whose payloads are all messages is read, any other is refused. -/
theorem exists_ofHeader_eq_ok_iff {header : Header} :
    (∃ messages, ofHeader header = .ok messages) ↔ IsReadable header := by
  constructor
  · rintro ⟨messages, read⟩ payload member
    obtain ⟨message, _, decoded⟩ := exists_message_of_mem read member
    exact ⟨message, decoded⟩
  · exact exists_mapM_decode

end FinalitySync.Grandpa.Message
