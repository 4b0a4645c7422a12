import FinalitySync.Proofs.Finality.Descent
import FinalitySync.Proofs.Finality.Verdict
import FinalitySync.Proofs.Finality.Weight

/-!
# Accountability for forks

Two accepted justifications share more than a third of the weight.  A shared signer with one vote
puts both targets on one chain, so a fork shows that the shared signers voted twice in a round.
-/

namespace FinalitySync.Justification

variable {primitives : Primitives} {authoritySet : AuthoritySet} {first second : Justification}

/-- The signers that count in both justifications. -/
def sharedKeys (first second : Justification) : Finset PublicKey :=
  first.countedKeys ∩ second.countedKeys

/-- The headers that either justification brings along. -/
def sharedAncestries (first second : Justification) : List Header :=
  first.votesAncestries ++ second.votesAncestries

/-- A precommit of the justification carries a key's valid signature for a vote. -/
def HasSigned
    (primitives : Primitives) (justification : Justification)
    (round : RoundNumber) (setId : SetId) (key : PublicKey) (vote : Vote) : Prop :=
  ∃ precommit ∈ justification.precommits,
    precommit.id = key ∧ precommit.vote = vote ∧
      precommit.isPrecommitOf primitives round setId = true

/-- A key has signed different votes of one round in the two justifications. -/
def HasEquivocated
    (primitives : Primitives) (first second : Justification)
    (round : RoundNumber) (setId : SetId) (key : PublicKey) : Prop :=
  ∃ firstVote secondVote,
    firstVote ≠ secondVote ∧
      first.HasSigned primitives round setId key firstVote ∧
      second.HasSigned primitives round setId key secondVote

theorem mem_sharedKeys {key : PublicKey} :
    key ∈ sharedKeys first second ↔
      key ∈ first.countedSigners ∧ key ∈ second.countedSigners := by
  rw [sharedKeys, Finset.mem_inter, countedKeys, countedKeys, List.mem_toFinset,
    List.mem_toFinset]

theorem isReached_countedKeys
    {justification : Justification}
    (accepted : justification.check primitives authoritySet = .ok ()) :
    Quorum.isReached (authoritySet.weightOfKeys justification.countedKeys)
      authoritySet.totalWeight = true := by
  rw [← signedWeight_eq_weightOfKeys]
  exact (check_eq_ok_iff.mp accepted).2.2

theorem totalWeight_lt_three_mul_sharedKeys
    (firstAccepted : first.check primitives authoritySet = .ok ())
    (secondAccepted : second.check primitives authoritySet = .ok ()) :
    authoritySet.totalWeight < 3 * authoritySet.weightOfKeys (sharedKeys first second) :=
  AuthoritySet.totalWeight_lt_three_mul_weightOfKeys_inter
    (isReached_countedKeys firstAccepted) (isReached_countedKeys secondAccepted)

theorem descends_of_mem_votesOf
    {justification : Justification}
    (accepted : justification.check primitives authoritySet = .ok ())
    {key : PublicKey} {vote : Vote} (voted : vote ∈ justification.votesOf key) :
    Descends primitives justification.votesAncestries vote.targetHash
      justification.targetHash := by
  obtain ⟨precommit, member, _, rfl⟩ := mem_votesOf.mp voted
  have admitted := (check_eq_ok_iff.mp accepted).2.1 precommit member
  exact Ancestry.descends_of_reaches admitted.reachesTarget

/-- A vote that stands in both justifications puts their targets on one chain. -/
theorem areOnOneChain_of_common_vote
    (firstAccepted : first.check primitives authoritySet = .ok ())
    (secondAccepted : second.check primitives authoritySet = .ok ())
    (unique : HasUniqueParents primitives (sharedAncestries first second))
    {key : PublicKey} {vote : Vote}
    (inFirst : vote ∈ first.votesOf key) (inSecond : vote ∈ second.votesOf key) :
    AreOnOneChain primitives (sharedAncestries first second)
      first.targetHash second.targetHash := by
  have toFirst := descends_of_mem_votesOf firstAccepted inFirst
  have toSecond := descends_of_mem_votesOf secondAccepted inSecond
  exact
    areOnOneChain_of_descends unique
      (toFirst.mono (List.subset_append_left first.votesAncestries second.votesAncestries))
      (toSecond.mono (List.subset_append_right first.votesAncestries second.votesAncestries))

theorem hasSigned_of_mem_votesOf
    {justification : Justification}
    (accepted : justification.check primitives authoritySet = .ok ())
    {key : PublicKey} {vote : Vote} (voted : vote ∈ justification.votesOf key) :
    justification.HasSigned primitives justification.round authoritySet.setId key vote := by
  obtain ⟨precommit, member, sameKey, sameVote⟩ := mem_votesOf.mp voted
  obtain ⟨sameSet, admitted, _⟩ := check_eq_ok_iff.mp accepted
  have isSigned := (admitted precommit member).isSigned
  rw [← sameSet] at isSigned
  exact ⟨precommit, member, sameKey, sameVote, isSigned⟩

/-- Whoever counts for two targets that are not on one chain voted differently for them. -/
theorem hasEquivocated_of_mem_sharedKeys
    (firstAccepted : first.check primitives authoritySet = .ok ())
    (secondAccepted : second.check primitives authoritySet = .ok ())
    (unique : HasUniqueParents primitives (sharedAncestries first second))
    (sameRound : first.round = second.round)
    (forked :
      ¬ AreOnOneChain primitives (sharedAncestries first second)
        first.targetHash second.targetHash)
    {key : PublicKey} (shared : key ∈ sharedKeys first second) :
    HasEquivocated primitives first second first.round authoritySet.setId key := by
  obtain ⟨inFirst, inSecond⟩ := mem_sharedKeys.mp shared
  obtain ⟨firstVote, votedFirst⟩ := exists_vote_of_mem_countedSigners inFirst
  obtain ⟨secondVote, votedSecond⟩ := exists_vote_of_mem_countedSigners inSecond
  refine
    ⟨firstVote, secondVote, ?_, hasSigned_of_mem_votesOf firstAccepted votedFirst, ?_⟩
  · -- One vote for both would put the targets on one chain.
    rintro rfl
    exact
      forked
        (areOnOneChain_of_common_vote firstAccepted secondAccepted unique votedFirst votedSecond)
  · rw [sameRound]
    exact hasSigned_of_mem_votesOf secondAccepted votedSecond

/-- Accepted justifications of one set share more than a third of its weight.  If hashes determine
parents, a common vote of a shared signer puts their targets on one chain, and a fork in one round
convicts signers of more than a third of the weight. -/
theorem accepted_intersect_and_forks_are_accountable
    (primitives : Primitives) (authoritySet : AuthoritySet) (first second : Justification)
    (firstAccepted : first.check primitives authoritySet = .ok ())
    (secondAccepted : second.check primitives authoritySet = .ok ()) :
    authoritySet.totalWeight < 3 * authoritySet.weightOfKeys (sharedKeys first second) ∧
      (HasUniqueParents primitives (sharedAncestries first second) →
        (∀ key ∈ sharedKeys first second, ∀ vote,
          vote ∈ first.votesOf key →
            vote ∈ second.votesOf key →
              AreOnOneChain primitives (sharedAncestries first second)
                first.targetHash second.targetHash) ∧
        (first.round = second.round →
          ¬ AreOnOneChain primitives (sharedAncestries first second)
              first.targetHash second.targetHash →
            ∃ keys : Finset PublicKey,
              authoritySet.totalWeight < 3 * authoritySet.weightOfKeys keys ∧
                ∀ key ∈ keys,
                  HasEquivocated primitives first second first.round authoritySet.setId key)) := by
  have sharedWeight := totalWeight_lt_three_mul_sharedKeys firstAccepted secondAccepted
  refine ⟨sharedWeight, fun unique => ⟨?_, ?_⟩⟩
  · intro key _ vote inFirst inSecond
    exact areOnOneChain_of_common_vote firstAccepted secondAccepted unique inFirst inSecond
  · intro sameRound forked
    refine ⟨sharedKeys first second, sharedWeight, ?_⟩
    intro key shared
    exact
      hasEquivocated_of_mem_sharedKeys firstAccepted secondAccepted unique sameRound forked shared

/-! ## A fork -/

namespace Fork

/-- A key with two entries, the first of which is nearly all the weight. -/
def traitor : PublicKey :=
  ⟨⟨[237, 73, 40, 198, 40, 209, 194, 198, 234, 233, 3, 56, 144, 89, 149, 97, 41, 89, 39, 58,
      92, 99, 249, 54, 54, 193, 70, 20, 172, 135, 55, 209], rfl⟩⟩

def bystander : PublicKey :=
  ⟨⟨[202, 147, 172, 23, 5, 24, 112, 113, 214, 123, 131, 199, 255, 14, 254, 129, 8, 232, 236,
      69, 48, 87, 93, 119, 38, 135, 147, 51, 219, 218, 190, 124], rfl⟩⟩

def voters : AuthoritySet := ⟨0, [⟨traitor, 5⟩, ⟨traitor, 1⟩, ⟨bystander, 1⟩]⟩

def left : Hash := ⟨⟨1 :: List.replicate 31 0, rfl⟩⟩

def right : Hash := ⟨⟨2 :: List.replicate 31 0, rfl⟩⟩

def child : Header where
  parentHash := left
  number := 2
  stateRoot := .zero
  extrinsicsRoot := .zero
  digest := ⟨[]⟩

/-- Final by a vote for a child of the block. -/
def leftJustification : Justification where
  targetHash := left
  targetNumber := 1
  round := 1
  setId := 0
  precommits :=
    [{ vote := child.vote .standard
       signature :=
        ⟨⟨[58, 235, 34, 124, 85, 255, 36, 66, 239, 35, 42, 213, 100, 24, 115, 8, 209, 252,
            16, 237, 91, 177, 115, 87, 183, 82, 146, 229, 17, 117, 196, 14, 102, 94, 55, 212,
            127, 69, 50, 250, 102, 32, 141, 76, 131, 172, 131, 184, 155, 109, 141, 157, 143,
            129, 133, 50, 227, 179, 27, 3, 131, 144, 26, 0], rfl⟩⟩
       id := traitor }]
  votesAncestries := [child]

/-- Final by a vote for the block itself. -/
def rightJustification : Justification where
  targetHash := right
  targetNumber := 1
  round := 1
  setId := 0
  precommits :=
    [{ vote := ⟨right, 1⟩
       signature :=
        ⟨⟨[180, 42, 132, 27, 251, 141, 170, 86, 181, 118, 253, 56, 79, 109, 94, 180, 171,
            244, 113, 129, 201, 108, 15, 216, 144, 253, 120, 168, 51, 163, 238, 89, 255, 93,
            65, 78, 97, 81, 152, 200, 211, 198, 104, 86, 172, 41, 107, 73, 129, 125, 122, 240,
            153, 212, 83, 126, 86, 136, 124, 155, 249, 130, 2, 15], rfl⟩⟩
       id := traitor }]
  votesAncestries := []

theorem left_isFinal : leftJustification.check .standard voters = .ok () := by
  decide +kernel

theorem right_isFinal : rightJustification.check .standard voters = .ok () := by
  decide +kernel

theorem hasUniqueParents :
    HasUniqueParents .standard (sharedAncestries leftJustification rightJustification) := by
  intro header member other otherMember _
  rw [List.mem_singleton.mp member, List.mem_singleton.mp otherMember]

theorem eq_of_descends
    {block ancestor : Hash} (notChild : child.hash .standard ≠ block)
    (descends :
      Descends .standard (sharedAncestries leftJustification rightJustification) block ancestor) :
    block = ancestor := by
  rcases Relation.ReflTransGen.cases_head descends with same | ⟨parent, isLink, _⟩
  · exact same
  · obtain ⟨header, member, sameHash, _⟩ := isLink
    rw [List.mem_singleton.mp member] at sameHash
    exact absurd sameHash notChild

theorem not_areOnOneChain :
    ¬ AreOnOneChain .standard (sharedAncestries leftJustification rightJustification)
        left right := by
  have isNeither : child.hash .standard ≠ left ∧ child.hash .standard ≠ right := by
    decide +kernel
  rintro (leftToRight | rightToLeft)
  · have same := eq_of_descends isNeither.1 leftToRight
    exact absurd same (by decide)
  · have same := eq_of_descends isNeither.2 rightToLeft
    exact absurd same (by decide)

end Fork

/-- Somebody with a third of the weight signed for both sides of the fork. -/
theorem fork_is_accountable :
    Fork.leftJustification.check .standard Fork.voters = .ok () ∧
      Fork.rightJustification.check .standard Fork.voters = .ok () ∧
      ∃ keys : Finset PublicKey,
        Fork.voters.totalWeight < 3 * Fork.voters.weightOfKeys keys ∧
          ∀ key ∈ keys,
            HasEquivocated .standard Fork.leftJustification Fork.rightJustification 1 0 key := by
  have accountable :=
    accepted_intersect_and_forks_are_accountable .standard Fork.voters
      Fork.leftJustification Fork.rightJustification Fork.left_isFinal Fork.right_isFinal
  exact
    ⟨Fork.left_isFinal, Fork.right_isFinal,
      (accountable.2 Fork.hasUniqueParents).2 rfl Fork.not_areOnOneChain⟩

end FinalitySync.Justification
