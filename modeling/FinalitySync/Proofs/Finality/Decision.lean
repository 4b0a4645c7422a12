import FinalitySync.Proofs.Finality.Reachability
import FinalitySync.Proofs.Finality.Verdict
import FinalitySync.Proofs.Finality.Weight
import Mathlib.Algebra.GroupWithZero.Nat

/-!
# When a justification makes its target final

What the verdict decides, in terms of the precommits, the headers and the entries of the set alone.
Who voted for different blocks has no weight, and who repeated a vote has the weight of one.
-/

namespace FinalitySync

namespace AuthoritySet

theorem isSome_weightOf?_iff {authoritySet : AuthoritySet} {key : PublicKey} :
    (authoritySet.weightOf? key).isSome = true ↔
      ∃ authority ∈ authoritySet.authorities, authority.id = key := by
  simp [weightOf?]

theorem totalWeight_eq_sum (authoritySet : AuthoritySet) :
    authoritySet.totalWeight =
      (authoritySet.authorities.map fun authority => authority.weight.toNat).sum := by
  rw [totalWeight, List.sum_eq_foldr]

/-- Weight that the set has makes no quorum of nothing, so the products alone decide. -/
theorem isReached_iff_two_mul_lt
    {authoritySet : AuthoritySet} {signed : Nat} (bounded : signed ≤ authoritySet.totalWeight) :
    Quorum.isReached signed authoritySet.totalWeight = true ↔
      2 * authoritySet.totalWeight < 3 * signed := by
  rw [Quorum.isReached, Bool.and_eq_true, decide_eq_true_eq, decide_eq_true_eq]
  omega

theorem isReached_weightOfKeys_iff {authoritySet : AuthoritySet} {keys : Finset PublicKey} :
    Quorum.isReached (authoritySet.weightOfKeys keys) authoritySet.totalWeight = true ↔
      2 * authoritySet.totalWeight < 3 * authoritySet.weightOfKeys keys :=
  isReached_iff_two_mul_lt (authoritySet.weightOfKeys_le_totalWeight keys)

end AuthoritySet

namespace Justification

variable {primitives : Primitives} {authoritySet : AuthoritySet} {justification : Justification}

/-- The keys among the precommits whose votes are all equal. -/
def unanimousKeys (justification : Justification) : Finset PublicKey :=
  (justification.precommits.map SignedVote.id).toFinset.filter fun key =>
    ∀ first ∈ justification.precommits, ∀ second ∈ justification.precommits,
      first.id = key → second.id = key → first.vote = second.vote

theorem isConsistent_iff {key : PublicKey} :
    justification.isConsistent key = true ↔
      ∀ first ∈ justification.votesOf key, ∀ second ∈ justification.votesOf key,
        first = second := by
  rw [isConsistent]
  cases votes : justification.votesOf key with
  | nil => simp
  | cons vote later =>
      simp only [List.all_eq_true, beq_iff_eq]
      constructor
      · intro sameAsFirst
        have allSame : ∀ other ∈ vote :: later, other = vote :=
          List.forall_mem_cons.mpr ⟨rfl, sameAsFirst⟩
        intro first firstMember second secondMember
        rw [allSame first firstMember, allSame second secondMember]
      · intro allSame other member
        exact allSame other (List.mem_cons_of_mem vote member) vote List.mem_cons_self

theorem countedKeys_eq_unanimousKeys (justification : Justification) :
    justification.countedKeys = justification.unanimousKeys := by
  ext key
  rw [countedKeys, List.mem_toFinset, countedSigners, List.mem_filter, signers,
    List.mem_eraseDups, unanimousKeys, Finset.mem_filter, List.mem_toFinset, isConsistent_iff]
  refine and_congr_right fun _ => ?_
  constructor
  · intro allSame first firstMember second secondMember firstKey secondKey
    exact
      allSame _ (mem_votesOf.mpr ⟨first, firstMember, firstKey, rfl⟩)
        _ (mem_votesOf.mpr ⟨second, secondMember, secondKey, rfl⟩)
  · intro allSame firstVote firstVoted secondVote secondVoted
    obtain ⟨first, firstMember, firstKey, rfl⟩ := mem_votesOf.mp firstVoted
    obtain ⟨second, secondMember, secondKey, rfl⟩ := mem_votesOf.mp secondVoted
    exact allSame first firstMember second secondMember firstKey secondKey

/-- A precommit is a member's valid signature of a vote for the target or a block above it, from
which the last headers of each hash lead to the target. -/
structure Supports
    (primitives : Primitives) (authoritySet : AuthoritySet) (justification : Justification)
    (precommit : SignedVote) : Prop where
  isMember : ∃ authority ∈ authoritySet.authorities, authority.id = precommit.id
  isSigned :
    primitives.verifies precommit.id
      (precommit.vote.signingPayload .precommit justification.round justification.setId)
      precommit.signature = true
  isNotBelow : justification.targetNumber ≤ precommit.vote.targetNumber
  leadsToTarget :
    Relation.ReflTransGen (IsLastParentLink primitives justification.votesAncestries)
      precommit.vote.targetHash justification.targetHash

theorem admits_iff_supports {precommit : SignedVote} :
    justification.Admits primitives authoritySet precommit ↔
      Supports primitives authoritySet justification precommit := by
  constructor
  · rintro ⟨isMember, isSigned, isNotBelow, reachesTarget⟩
    exact
      ⟨AuthoritySet.isSome_weightOf?_iff.mp isMember, isSigned, isNotBelow,
        Ancestry.reaches_ofHeaders_iff.mp reachesTarget⟩
  · rintro ⟨isMember, isSigned, isNotBelow, leadsToTarget⟩
    exact
      ⟨AuthoritySet.isSome_weightOf?_iff.mpr isMember, isSigned, isNotBelow,
        Ancestry.reaches_ofHeaders_iff.mpr leadsToTarget⟩

/-- There is no objection to a justification exactly if it is for the set, every precommit supports
the target, and the keys that vote for one block have more than two thirds of the weight of all
entries. -/
theorem check_decides_finality
    (primitives : Primitives) (authoritySet : AuthoritySet) (justification : Justification) :
    justification.check primitives authoritySet = .ok () ↔
      authoritySet.setId = justification.setId ∧
        (∀ precommit ∈ justification.precommits,
          Supports primitives authoritySet justification precommit) ∧
        2 * (authoritySet.authorities.map fun authority => authority.weight.toNat).sum <
          3 * ∑ key ∈ justification.unanimousKeys, authoritySet.firstWeight key := by
  have quorum :
      Quorum.isReached (justification.signedWeight authoritySet) authoritySet.totalWeight = true ↔
        2 * (authoritySet.authorities.map fun authority => authority.weight.toNat).sum <
          3 * ∑ key ∈ justification.unanimousKeys, authoritySet.firstWeight key := by
    rw [signedWeight_eq_weightOfKeys, AuthoritySet.isReached_weightOfKeys_iff,
      AuthoritySet.totalWeight_eq_sum, countedKeys_eq_unanimousKeys]
    rfl
  rw [check_eq_ok_iff, quorum]
  simp only [admits_iff_supports]

end Justification

end FinalitySync
