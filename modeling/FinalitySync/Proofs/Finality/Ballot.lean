import FinalitySync.Proofs.Chain.Encoding
import FinalitySync.Proofs.Finality.Accountability

/-!
# What a signature is for

The signed message of a vote tells the stage, the block, the round and the set, although nothing
separates them.  So a signature that makes a precommit stand in a justification is for the round and
the set of the justification, and what was signed in any other stage, round or set cannot replace it.
-/

namespace FinalitySync

theorem Subround.index_injective : Function.Injective Subround.index := by
  intro first second same
  cases first <;> cases second <;> simp_all [Subround.index]

theorem Vote.eq_iff {first second : Vote} :
    first = second ↔
      first.targetHash = second.targetHash ∧ first.targetNumber = second.targetNumber := by
  cases first
  cases second
  rw [mk.injEq]

/-- What a voter can sign: a vote, in a stage of a round of a set. -/
@[ext]
structure Ballot where
  subround : Subround
  vote : Vote
  round : RoundNumber
  setId : SetId
deriving DecidableEq

namespace Ballot

variable {first second : Ballot}

/-- The signed message. -/
def payload (ballot : Ballot) : Bytes :=
  ballot.vote.signingPayload ballot.subround ballot.round ballot.setId

theorem payload_eq (ballot : Ballot) :
    ballot.payload =
      ballot.subround.index ::
        (Vote.codec.encode ballot.vote ++
          (Scale.Codec.word64.encode ballot.round ++ Scale.Codec.word64.encode ballot.setId)) := by
  rw [payload, Vote.signingPayload, List.cons_append, List.cons_append, List.append_assoc]

/-- Each field is read off the front of what is left of the message. -/
theorem payload_injective : Function.Injective payload := by
  intro first second same
  rw [payload_eq, payload_eq, List.cons.injEq,
    Vote.codec_isCanonical.encode_append_inj trivial trivial,
    Scale.Codec.word64_isCanonical.encode_append_inj trivial trivial,
    Scale.Codec.word64_isCanonical.encode_inj trivial trivial] at same
  obtain ⟨sameIndex, sameVote, sameRound, sameSet⟩ := same
  have sameSubround : first.subround = second.subround := Subround.index_injective sameIndex
  exact Ballot.ext sameSubround sameVote sameRound sameSet

theorem payload_eq_iff :
    first.payload = second.payload ↔
      first.subround = second.subround ∧ first.vote.targetHash = second.vote.targetHash ∧
        first.vote.targetNumber = second.vote.targetNumber ∧ first.round = second.round ∧
          first.setId = second.setId := by
  rw [payload_injective.eq_iff, Ballot.ext_iff, Vote.eq_iff, and_assoc]

end Ballot

namespace Justification

variable {primitives : Primitives} {authoritySet : AuthoritySet} {justification : Justification}
variable {verifies others : PublicKey → Bytes → Signature → Bool} {precommit : SignedVote}

/-- What a precommit of the justification has to be signed as. -/
def ballot (justification : Justification) (precommit : SignedVote) : Ballot :=
  ⟨.precommit, precommit.vote, justification.round, justification.setId⟩

theorem payload_eq_ballot_iff {ballot : Ballot} :
    ballot.payload = (justification.ballot precommit).payload ↔
      ballot.subround = .precommit ∧ ballot.vote = precommit.vote ∧
        ballot.round = justification.round ∧ ballot.setId = justification.setId := by
  rw [Ballot.payload_injective.eq_iff, Ballot.ext_iff]
  rfl

theorem verifies_of_check_eq_ok
    (accepted : justification.check primitives authoritySet = .ok ())
    (member : precommit ∈ justification.precommits) :
    primitives.verifies precommit.id (justification.ballot precommit).payload
      precommit.signature = true :=
  ((check_eq_ok_iff.mp accepted).2.1 precommit member).isSigned

theorem forM_congr
    {precommits : List SignedVote} {examine examineToo : SignedVote → Except Objection Unit}
    (same : ∀ precommit ∈ precommits, examine precommit = examineToo precommit) :
    precommits.forM examine = precommits.forM examineToo := by
  induction precommits with
  | nil => rfl
  | cons precommit precommits inductionHypothesis =>
      rw [List.forall_mem_cons] at same
      have later := inductionHypothesis same.2
      rw [List.forM_eq_forM] at later ⊢
      rw [List.forM_cons, List.forM_cons, same.1, later]

/-- Two ways to verify signatures lead to one verdict if they agree on the precommits. -/
theorem check_congr
    (same :
      ∀ precommit ∈ justification.precommits,
        verifies precommit.id (justification.ballot precommit).payload precommit.signature =
          primitives.verifies precommit.id (justification.ballot precommit).payload
            precommit.signature) :
    justification.check { primitives with verifies := verifies } authoritySet =
      justification.check primitives authoritySet := by
  have sameExamination :
      justification.precommits.forM
          (justification.checkPrecommit { primitives with verifies := verifies } authoritySet
            (Ancestry.ofHeaders primitives justification.votesAncestries)) =
        justification.precommits.forM
          (justification.checkPrecommit primitives authoritySet
            (Ancestry.ofHeaders primitives justification.votesAncestries)) := by
    apply forM_congr
    intro precommit member
    have sameSignature :
        precommit.isPrecommitOf { primitives with verifies := verifies } justification.round
            justification.setId =
          precommit.isPrecommitOf primitives justification.round justification.setId :=
      same precommit member
    rw [checkPrecommit, checkPrecommit, sameSignature]
  have sameAncestry :
      Ancestry.ofHeaders { primitives with verifies := verifies } justification.votesAncestries =
        Ancestry.ofHeaders primitives justification.votesAncestries :=
    rfl
  simp only [check, sameAncestry, sameExamination]

/-- Two ways to verify signatures differ at most on messages of ballots that no precommit of the
justification has to be signed as: those of another stage, vote, round, set or voter. -/
def DiffersElsewhere
    (justification : Justification) (verifies others : PublicKey → Bytes → Signature → Bool) :
    Prop :=
  ∀ key message signature,
    verifies key message signature ≠ others key message signature →
      ∃ ballot : Ballot,
        ballot.payload = message ∧
          ∀ precommit ∈ justification.precommits,
            precommit.id = key → justification.ballot precommit ≠ ballot

theorem DiffersElsewhere.eq_of_mem
    (elsewhere : justification.DiffersElsewhere verifies others)
    (member : precommit ∈ justification.precommits) :
    verifies precommit.id (justification.ballot precommit).payload precommit.signature =
      others precommit.id (justification.ballot precommit).payload precommit.signature := by
  by_contra differs
  obtain ⟨ballot, sameMessage, isOther⟩ := elsewhere _ _ _ differs
  exact isOther precommit member rfl (Ballot.payload_injective sameMessage).symm

/-- Ballots with one signed message are equal in every field.  So only a precommit of the vote in
the round and the set of a justification has the message that a signature is verified against, all
signatures of an accepted justification hold for such messages, and what is signed as anything else
has no influence on the verdict. -/
theorem ballots_areSeparated
    (primitives : Primitives) (verifies : PublicKey → Bytes → Signature → Bool)
    (authoritySet : AuthoritySet) (justification : Justification) :
    (∀ first second : Ballot,
      first.payload = second.payload ↔
        first.subround = second.subround ∧ first.vote.targetHash = second.vote.targetHash ∧
          first.vote.targetNumber = second.vote.targetNumber ∧ first.round = second.round ∧
            first.setId = second.setId) ∧
      (∀ precommit : SignedVote,
        precommit.isPrecommitOf primitives justification.round justification.setId =
            primitives.verifies precommit.id (justification.ballot precommit).payload
              precommit.signature ∧
          ∀ ballot : Ballot,
            ballot.payload = (justification.ballot precommit).payload ↔
              ballot.subround = .precommit ∧ ballot.vote = precommit.vote ∧
                ballot.round = justification.round ∧ ballot.setId = justification.setId) ∧
      (justification.check primitives authoritySet = .ok () →
        authoritySet.setId = justification.setId ∧
          ∀ precommit ∈ justification.precommits,
            primitives.verifies precommit.id (justification.ballot precommit).payload
              precommit.signature = true) ∧
      (justification.DiffersElsewhere verifies primitives.verifies →
        justification.check { primitives with verifies := verifies } authoritySet =
          justification.check primitives authoritySet) := by
  refine ⟨?_, ?_, ?_, ?_⟩
  · intro first second
    exact Ballot.payload_eq_iff
  · intro precommit
    refine ⟨rfl, ?_⟩
    intro ballot
    exact payload_eq_ballot_iff
  · intro accepted
    refine ⟨(check_eq_ok_iff.mp accepted).1, ?_⟩
    intro precommit member
    exact verifies_of_check_eq_ok accepted member
  · intro elsewhere
    apply check_congr
    intro precommit member
    exact elsewhere.eq_of_mem member

namespace Fork

/-- The vote for the right block in other stages, in another round and for another set, and the same
voter's vote for the left block. -/
def otherBallots : List Ballot :=
  [⟨.prevote, ⟨right, 1⟩, 1, 0⟩, ⟨.primaryPropose, ⟨right, 1⟩, 1, 0⟩,
    ⟨.precommit, ⟨right, 1⟩, 2, 0⟩, ⟨.precommit, ⟨right, 1⟩, 1, 1⟩, ⟨.precommit, ⟨left, 1⟩, 1, 0⟩]

/-- Takes anything for a signature of these ballots. -/
def credulous (key : PublicKey) (message : Bytes) (signature : Signature) : Bool :=
  (otherBallots.map Ballot.payload).contains message ||
    Primitives.standard.verifies key message signature

theorem differsElsewhere_credulous :
    rightJustification.DiffersElsewhere credulous Primitives.standard.verifies := by
  intro key message signature differs
  have isOther : message ∈ otherBallots.map Ballot.payload := by
    by_contra notOther
    apply differs
    rw [credulous, List.contains_eq_mem, decide_eq_false notOther, Bool.false_or]
  have notNeeded :
      ∀ ballot ∈ otherBallots, ∀ precommit ∈ rightJustification.precommits,
        rightJustification.ballot precommit ≠ ballot := by
    decide
  obtain ⟨ballot, member, sameMessage⟩ := List.mem_map.mp isOther
  refine ⟨ballot, sameMessage, ?_⟩
  intro precommit given _
  exact notNeeded ballot member precommit given

end Fork

/-- Whoever takes anything for a prevote or for a precommit of the second round accepts the right
side of the fork in the first round for its signature alone. -/
theorem ballots_areSeparated_credulous :
    Fork.rightJustification.check .standard Fork.voters = .ok () ∧
      Fork.rightJustification.DiffersElsewhere Fork.credulous Primitives.standard.verifies ∧
      Fork.rightJustification.check
          { Primitives.standard with verifies := Fork.credulous } Fork.voters = .ok () ∧
      ({ Fork.rightJustification with round := 2 } : Justification).check
          { Primitives.standard with verifies := Fork.credulous } Fork.voters = .ok () := by
  have separated :=
    ballots_areSeparated .standard Fork.credulous Fork.voters Fork.rightJustification
  have sameVerdict := separated.2.2.2 Fork.differsElsewhere_credulous
  refine ⟨Fork.right_isFinal, Fork.differsElsewhere_credulous, ?_, ?_⟩
  · rw [sameVerdict]
    exact Fork.right_isFinal
  · decide +kernel

end Justification

end FinalitySync
