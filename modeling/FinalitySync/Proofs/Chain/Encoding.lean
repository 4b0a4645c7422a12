import FinalitySync.Chain.Authority
import FinalitySync.Chain.Fragment
import FinalitySync.Peer.Neighbour
import FinalitySync.Proofs.Scale.Canonical

/-!
# Encodings of chain data are canonical

Every value whose lists are short enough to be counted has one encoding, and nothing but encodings
is read.  So the hash of a header that was read is the hash of the very bytes it was read from.
-/

namespace FinalitySync

open Scale (Codec)
open Scale.Codec (AllEncodable IsCanonical)

def AuthoritySet.IsEncodable (authoritySet : AuthoritySet) : Prop :=
  authoritySet.authorities.length < 2 ^ 32

def DigestItem.IsEncodable : DigestItem → Prop
  | .preRuntime _ data => data.length < 2 ^ 32
  | .consensus _ data => data.length < 2 ^ 32
  | .seal _ data => data.length < 2 ^ 32
  | .other data => data.length < 2 ^ 32
  | .runtimeEnvironmentUpdated => True

def Digest.IsEncodable (digest : Digest) : Prop :=
  AllEncodable DigestItem.IsEncodable digest.logs

def Header.IsEncodable (header : Header) : Prop := header.digest.IsEncodable

def Justification.IsEncodable (justification : Justification) : Prop :=
  justification.precommits.length < 2 ^ 32 ∧
    AllEncodable Header.IsEncodable justification.votesAncestries

def Fragment.IsEncodable (fragment : Fragment) : Prop :=
  fragment.header.IsEncodable ∧ fragment.justification.IsEncodable

def Page.IsEncodable (page : Page) : Prop := AllEncodable Fragment.IsEncodable page.fragments

theorem Hash.codec_isCanonical : Hash.codec.IsCanonical fun _ => True :=
  (Codec.octets_isCanonical 32).via (fun _ => rfl) (fun _ => rfl)

theorem PublicKey.codec_isCanonical : PublicKey.codec.IsCanonical fun _ => True :=
  ((Codec.octets_isCanonical 32).via (fun _ => rfl) (fun _ => rfl)).component _

theorem Signature.codec_isCanonical : Signature.codec.IsCanonical fun _ => True :=
  ((Codec.octets_isCanonical 64).via (fun _ => rfl) (fun _ => rfl)).component _

theorem EngineId.codec_isCanonical : EngineId.codec.IsCanonical fun _ => True :=
  (Codec.octets_isCanonical 4).via (fun _ => rfl) (fun _ => rfl)

theorem Vote.codec_isCanonical : Vote.codec.IsCanonical fun _ => True := by
  apply IsCanonical.of_iff
  · exact
      ((Hash.codec_isCanonical.component _).followedBy
        (Codec.word32_isCanonical.component _)).via (fun _ => rfl) (fun _ => rfl)
  · intro vote
    simp

theorem SignedVote.codec_isCanonical : SignedVote.codec.IsCanonical fun _ => True := by
  apply IsCanonical.of_iff
  · exact
      ((Vote.codec_isCanonical.component _).followedBy
        ((Signature.codec_isCanonical.component _).followedBy
          (PublicKey.codec_isCanonical.component _))).via (fun _ => rfl) (fun _ => rfl)
  · intro signed
    simp

theorem NeighbourMessage.codec_isCanonical : NeighbourMessage.codec.IsCanonical fun _ => True := by
  apply IsCanonical.of_iff
  · exact
      ((Codec.word8_isCanonical.component _).followedBy
        ((Codec.word64_isCanonical.component _).followedBy
          ((Codec.word64_isCanonical.component _).followedBy
            (Codec.word32_isCanonical.component _)))).via (fun _ => rfl) (fun _ => rfl)
  · intro message
    simp

theorem Authority.codec_isCanonical : Authority.codec.IsCanonical fun _ => True := by
  apply IsCanonical.of_iff
  · exact
      ((PublicKey.codec_isCanonical.component _).followedBy
        (Codec.word64_isCanonical.component _)).via (fun _ => rfl) (fun _ => rfl)
  · intro authority
    simp

theorem AuthoritySet.codec_isCanonical :
    AuthoritySet.codec.IsCanonical AuthoritySet.IsEncodable := by
  apply IsCanonical.of_iff
  · exact
      ((Codec.word64_isCanonical.component _).followedBy
        (Authority.codec_isCanonical.vector.component _)).via (fun _ => rfl) (fun _ => rfl)
  · intro authoritySet
    simp [AuthoritySet.IsEncodable, AllEncodable]

theorem DigestItem.engineCodec_isCanonical (variant : String) :
    (DigestItem.engineCodec variant).IsCanonical fun payload => payload.2.length < 2 ^ 32 := by
  apply IsCanonical.of_iff
  · exact
      (EngineId.codec_isCanonical.component _).followedBy
        (Codec.byteVector_isCanonical.component _)
  · intro payload
    simp

theorem DigestItem.otherCodec_isCanonical :
    DigestItem.otherCodec.IsCanonical fun data => data.length < 2 ^ 32 :=
  Codec.byteVector_isCanonical.component _

theorem decode_variantByte (enumeration : String) (variant : UInt8) (payload : Bytes) :
    (Codec.word8.inside (.variantByte enumeration)).decode (variant :: payload) =
      .ok (variant, payload) := by
  have read :=
    (Codec.word8_isCanonical.inside (.variantByte enumeration)).decode_encode variant payload
      trivial
  have spelling : (Codec.word8.inside (.variantByte enumeration)).encode variant = [variant] :=
    congrArg (fun first => [first]) UInt8.ofNat_toNat
  rw [spelling] at read
  exact read

theorem eq_cons_of_decode_variantByte
    {enumeration : String} {input payload : Bytes} {variant : UInt8}
    (read :
      (Codec.word8.inside (.variantByte enumeration)).decode input = .ok (variant, payload)) :
    input = variant :: payload := by
  have split :=
    ((Codec.word8_isCanonical.inside (.variantByte enumeration)).eq_encode_of_decode _ _ _ read).2
  have spelling : (Codec.word8.inside (.variantByte enumeration)).encode variant = [variant] :=
    congrArg (fun first => [first]) UInt8.ofNat_toNat
  rw [spelling] at split
  exact split

namespace DigestItem

theorem decode_encode_append {item : DigestItem} (encodable : item.IsEncodable) (rest : Bytes) :
    decode (item.encode ++ rest) = .ok (item, rest) := by
  cases item with
  | preRuntime engine data =>
      have read :=
        (engineCodec_isCanonical "PreRuntime").decode_encode (engine, data) rest encodable
      simp [decode, encode, decode_variantByte, read, bind, Except.bind, pure, Except.pure]
  | consensus engine data =>
      have read :=
        (engineCodec_isCanonical "Consensus").decode_encode (engine, data) rest encodable
      simp [decode, encode, decode_variantByte, read, bind, Except.bind, pure, Except.pure]
  | «seal» engine data =>
      have read := (engineCodec_isCanonical "Seal").decode_encode (engine, data) rest encodable
      simp [decode, encode, decode_variantByte, read, bind, Except.bind, pure, Except.pure]
  | other data =>
      have read := otherCodec_isCanonical.decode_encode data rest encodable
      simp [decode, encode, decode_variantByte, read, bind, Except.bind, pure, Except.pure]
  | runtimeEnvironmentUpdated => rfl

theorem exists_payload_of_decode
    {variant : String} {make : EngineId → Bytes → DigestItem} {payload rest : Bytes}
    {item : DigestItem}
    (decoded :
      ((engineCodec variant).decode payload >>= fun
        | ((engine, data), after) => pure (make engine data, after)) =
          (.ok (item, rest) : Except Scale.Failure (DigestItem × Bytes))) :
    ∃ engine data,
      item = make engine data ∧ data.length < 2 ^ 32 ∧
        payload = (engineCodec variant).encode (engine, data) ++ rest := by
  rw [Codec.bind_eq_ok_iff] at decoded
  obtain ⟨⟨⟨engine, data⟩, after⟩, read, same⟩ := decoded
  cases same
  obtain ⟨encodable, split⟩ := (engineCodec_isCanonical variant).eq_encode_of_decode _ _ _ read
  exact ⟨engine, data, rfl, encodable, split⟩

theorem eq_encode_of_decode
    {input rest : Bytes} {item : DigestItem} (decoded : decode input = .ok (item, rest)) :
    item.IsEncodable ∧ input = item.encode ++ rest := by
  simp only [decode, Codec.bind_eq_ok_iff] at decoded
  obtain ⟨⟨variant, payload⟩, readVariant, decoded⟩ := decoded
  rw [eq_cons_of_decode_variantByte readVariant]
  dsimp only at decoded
  by_cases isPreRuntime : variant = 6
  · rw [if_pos isPreRuntime] at decoded
    obtain ⟨engine, data, rfl, encodable, split⟩ := exists_payload_of_decode decoded
    exact ⟨encodable, by rw [split, isPreRuntime]; rfl⟩
  rw [if_neg isPreRuntime] at decoded
  by_cases isConsensus : variant = 4
  · rw [if_pos isConsensus] at decoded
    obtain ⟨engine, data, rfl, encodable, split⟩ := exists_payload_of_decode decoded
    exact ⟨encodable, by rw [split, isConsensus]; rfl⟩
  rw [if_neg isConsensus] at decoded
  by_cases isSeal : variant = 5
  · rw [if_pos isSeal] at decoded
    obtain ⟨engine, data, rfl, encodable, split⟩ := exists_payload_of_decode decoded
    exact ⟨encodable, by rw [split, isSeal]; rfl⟩
  rw [if_neg isSeal] at decoded
  by_cases isOther : variant = 0
  · rw [if_pos isOther, Codec.bind_eq_ok_iff] at decoded
    obtain ⟨⟨data, after⟩, read, same⟩ := decoded
    cases same
    obtain ⟨encodable, split⟩ := otherCodec_isCanonical.eq_encode_of_decode _ _ _ read
    exact ⟨encodable, by rw [split, isOther]; rfl⟩
  rw [if_neg isOther] at decoded
  by_cases isUpdated : variant = 8
  · rw [if_pos isUpdated] at decoded
    cases decoded
    exact ⟨trivial, by rw [isUpdated]; rfl⟩
  · rw [if_neg isUpdated] at decoded
    cases decoded

theorem codec_isCanonical : DigestItem.codec.IsCanonical DigestItem.IsEncodable where
  decode_encode := fun _ rest encodable => decode_encode_append encodable rest
  eq_encode_of_decode := fun _ _ _ decoded => eq_encode_of_decode decoded

end DigestItem

theorem Digest.codec_isCanonical : Digest.codec.IsCanonical Digest.IsEncodable :=
  (DigestItem.codec_isCanonical.vector.component _).via (fun _ => rfl) (fun _ => rfl)

theorem Header.codec_isCanonical : Header.codec.IsCanonical Header.IsEncodable := by
  apply IsCanonical.of_iff
  · exact
      ((Hash.codec_isCanonical.component _).followedBy
        ((Codec.compact_isCanonical.component _).followedBy
          ((Hash.codec_isCanonical.component _).followedBy
            ((Hash.codec_isCanonical.component _).followedBy
              (Digest.codec_isCanonical.component _))))).via (fun _ => rfl) (fun _ => rfl)
  · intro header
    simp [Header.IsEncodable]

theorem Justification.codec_isCanonical :
    Justification.codec.IsCanonical Justification.IsEncodable := by
  apply IsCanonical.of_iff
  · exact
      ((Hash.codec_isCanonical.component _).followedBy
        ((Codec.word32_isCanonical.component _).followedBy
          ((Codec.word64_isCanonical.component _).followedBy
            ((Codec.word64_isCanonical.component _).followedBy
              ((SignedVote.codec_isCanonical.vector.component _).followedBy
                (Header.codec_isCanonical.vector.component _)))))).via
        (fun _ => rfl) (fun _ => rfl)
  · intro justification
    simp [Justification.IsEncodable, AllEncodable]

theorem Fragment.codec_isCanonical : Fragment.codec.IsCanonical Fragment.IsEncodable :=
  ((Header.codec_isCanonical.component _).followedBy
    (Justification.codec_isCanonical.component _)).via (fun _ => rfl) (fun _ => rfl)

theorem Page.codec_isCanonical : Page.codec.IsCanonical Page.IsEncodable := by
  apply IsCanonical.of_iff
  · exact
      ((Fragment.codec_isCanonical.vector.component _).followedBy
        (Codec.boolean_isCanonical.component _)).via (fun _ => rfl) (fun _ => rfl)
  · intro page
    simp [Page.IsEncodable]

/-! ## Spellings -/

/-- A header that was read is known by the hash of the bytes that were read. -/
theorem Header.exists_consumed_of_decode
    {primitives : Primitives} {input rest : Bytes} {header : Header}
    (decoded : Header.codec.decode input = .ok (header, rest)) :
    ∃ consumed, input = consumed ++ rest ∧ header.hash primitives = primitives.hash consumed := by
  obtain ⟨_, split⟩ := Header.codec_isCanonical.eq_encode_of_decode input header rest decoded
  exact ⟨Header.codec.encode header, split, rfl⟩

/-- Chain data has one spelling on the wire, alone and in vectors, and the hash of a header that was
read is that of the bytes that it was read from. -/
theorem wireForms_canonical :
    Authority.codec.HasUniqueSpellings (fun _ => True) ∧
      AuthoritySet.codec.HasUniqueSpellings AuthoritySet.IsEncodable ∧
      Vote.codec.HasUniqueSpellings (fun _ => True) ∧
      SignedVote.codec.HasUniqueSpellings (fun _ => True) ∧
      Justification.codec.HasUniqueSpellings Justification.IsEncodable ∧
      DigestItem.codec.HasUniqueSpellings DigestItem.IsEncodable ∧
      Digest.codec.HasUniqueSpellings Digest.IsEncodable ∧
      Header.codec.HasUniqueSpellings Header.IsEncodable ∧
      Fragment.codec.HasUniqueSpellings Fragment.IsEncodable ∧
      Page.codec.HasUniqueSpellings Page.IsEncodable ∧
      NeighbourMessage.codec.HasUniqueSpellings (fun _ => True) ∧
      ∀ (input rest : Bytes) (header : Header),
        Header.codec.decode input = .ok (header, rest) →
          ∃ consumed,
            input = consumed ++ rest ∧ header.hash .standard = Hash.blake2b consumed := by
  refine ⟨?_, ?_, ?_, ?_, ?_, ?_, ?_, ?_, ?_, ?_, ?_, ?_⟩
  · exact Authority.codec_isCanonical.hasUniqueSpellings
  · exact AuthoritySet.codec_isCanonical.hasUniqueSpellings
  · exact Vote.codec_isCanonical.hasUniqueSpellings
  · exact SignedVote.codec_isCanonical.hasUniqueSpellings
  · exact Justification.codec_isCanonical.hasUniqueSpellings
  · exact DigestItem.codec_isCanonical.hasUniqueSpellings
  · exact Digest.codec_isCanonical.hasUniqueSpellings
  · exact Header.codec_isCanonical.hasUniqueSpellings
  · exact Fragment.codec_isCanonical.hasUniqueSpellings
  · exact Page.codec_isCanonical.hasUniqueSpellings
  · exact NeighbourMessage.codec_isCanonical.hasUniqueSpellings
  · intro input rest header decoded
    exact Header.exists_consumed_of_decode decoded

/-- A header of nothing but zeros takes 98 bytes, and the byte after them is left. -/
theorem wireForms_canonical_zeros :
    Header.codec.decode (List.replicate 98 0 ++ [1]) = .ok (default, [1]) ∧
      ∃ consumed,
        List.replicate 98 0 ++ [1] = consumed ++ [1] ∧
          (default : Header).hash .standard = Hash.blake2b consumed := by
  have decoded : Header.codec.decode (List.replicate 98 0 ++ [1]) = .ok (default, [1]) := by rfl
  obtain ⟨_, _, _, _, _, _, _, _, _, _, _, known⟩ := wireForms_canonical
  exact ⟨decoded, known _ _ _ decoded⟩

end FinalitySync
