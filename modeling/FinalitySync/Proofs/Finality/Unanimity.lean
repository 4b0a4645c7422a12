import FinalitySync.Proofs.Finality.Accountability
import FinalitySync.Proofs.Finality.Decision

/-!
# Unanimous justifications

If every key of a set signs the target once and nobody else signs anything, only the weights are
left to object to.  The first entries of the keys then have to make a quorum against all entries.
They do where no key is repeated; where they do not, no justification is accepted at all.
-/

namespace FinalitySync

namespace AuthoritySet

/-- The keys that have an entry. -/
def keys (authoritySet : AuthoritySet) : Finset PublicKey :=
  (authoritySet.authorities.map Authority.id).toFinset

/-- Each key has one entry. -/
def HasDistinctKeys (authoritySet : AuthoritySet) : Prop :=
  (authoritySet.authorities.map Authority.id).Nodup

/-- All keys together have more than two thirds of the weight of all entries. -/
def CanReachQuorum (authoritySet : AuthoritySet) : Prop :=
  2 * authoritySet.totalWeight < 3 * authoritySet.weightOfKeys authoritySet.keys

theorem mem_keys_iff {authoritySet : AuthoritySet} {key : PublicKey} :
    key ∈ authoritySet.keys ↔ ∃ authority ∈ authoritySet.authorities, authority.id = key := by
  rw [keys, List.mem_toFinset, List.mem_map]

/-- An entry does not change what other keys weigh. -/
theorem weightOfKeys_cons_of_not_mem
    (setId : SetId) (authority : Authority) (authorities : List Authority)
    {keys : Finset PublicKey} (notMember : authority.id ∉ keys) :
    weightOfKeys ⟨setId, authority :: authorities⟩ keys =
      weightOfKeys ⟨setId, authorities⟩ keys := by
  refine Finset.sum_congr rfl fun key member => ?_
  have different : authority.id ≠ key := by
    rintro rfl
    exact notMember member
  rw [firstWeight_cons, if_neg different]

theorem weightOfKeys_keys_of_hasDistinctKeys
    {authoritySet : AuthoritySet} (distinct : authoritySet.HasDistinctKeys) :
    authoritySet.weightOfKeys authoritySet.keys = authoritySet.totalWeight := by
  obtain ⟨setId, authorities⟩ := authoritySet
  induction authorities with
  | nil => rfl
  | cons authority authorities inductionHypothesis =>
      obtain ⟨notLater, distinctLater⟩ := List.nodup_cons.mp distinct
      have notMember : authority.id ∉ keys ⟨setId, authorities⟩ := by
        rwa [keys, List.mem_toFinset]
      calc
        weightOfKeys ⟨setId, authority :: authorities⟩ (keys ⟨setId, authority :: authorities⟩)
        _ = weightOfKeys ⟨setId, authority :: authorities⟩
              (insert authority.id (keys ⟨setId, authorities⟩)) := by
            rw [keys, List.map_cons, List.toFinset_cons, keys]
        _ = authority.weight.toNat +
              weightOfKeys ⟨setId, authority :: authorities⟩ (keys ⟨setId, authorities⟩) := by
            rw [weightOfKeys, Finset.sum_insert notMember, firstWeight_cons, if_pos rfl]
            rfl
        _ = authority.weight.toNat + totalWeight ⟨setId, authorities⟩ := by
            rw [weightOfKeys_cons_of_not_mem _ _ _ notMember, inductionHypothesis distinctLater]
        _ = totalWeight ⟨setId, authority :: authorities⟩ := rfl

theorem HasDistinctKeys.canReachQuorum
    {authoritySet : AuthoritySet} (distinct : authoritySet.HasDistinctKeys)
    (hasWeight : 0 < authoritySet.totalWeight) :
    authoritySet.CanReachQuorum := by
  rw [CanReachQuorum, weightOfKeys_keys_of_hasDistinctKeys distinct]
  omega

end AuthoritySet

namespace Justification

variable {primitives : Primitives} {authoritySet : AuthoritySet} {justification : Justification}

theorem countedKeys_subset_keys
    (admitted :
      ∀ precommit ∈ justification.precommits,
        justification.Admits primitives authoritySet precommit) :
    justification.countedKeys ⊆ authoritySet.keys := by
  intro key counted
  obtain ⟨vote, voted⟩ := exists_vote_of_mem_countedSigners (List.mem_toFinset.mp counted)
  obtain ⟨precommit, member, rfl, _⟩ := mem_votesOf.mp voted
  have isMember := (admitted precommit member).isMember
  exact AuthoritySet.mem_keys_iff.mpr (AuthoritySet.isSome_weightOf?_iff.mp isMember)

theorem canReachQuorum_of_accepted
    (accepted : justification.check primitives authoritySet = .ok ()) :
    authoritySet.CanReachQuorum := by
  have reached := AuthoritySet.isReached_weightOfKeys_iff.mp (isReached_countedKeys accepted)
  have atMost :
      authoritySet.weightOfKeys justification.countedKeys ≤
        authoritySet.weightOfKeys authoritySet.keys :=
    Finset.sum_le_sum_of_subset (countedKeys_subset_keys (check_eq_ok_iff.mp accepted).2.1)
  rw [AuthoritySet.CanReachQuorum]
  omega

/-- Only the weight can be missing once every precommit is admitted. -/
theorem check_eq_noQuorum_of_not_accepted
    (sameSet : authoritySet.setId = justification.setId)
    (admitted :
      ∀ precommit ∈ justification.precommits,
        justification.Admits primitives authoritySet precommit)
    (notAccepted : justification.check primitives authoritySet ≠ .ok ()) :
    justification.check primitives authoritySet = .error .noQuorum := by
  have examined :
      justification.precommits.forM
        (justification.checkPrecommit primitives authoritySet
          (Ancestry.ofHeaders primitives justification.votesAncestries)) = .ok () :=
    forM_eq_ok_iff.mpr fun precommit member =>
      checkPrecommit_eq_ok_iff.mpr (admitted precommit member)
  have notReached :
      Quorum.isReached (justification.signedWeight authoritySet) authoritySet.totalWeight =
        false := by
    rw [← Bool.not_eq_true]
    exact fun reached => notAccepted (check_eq_ok_iff.mpr ⟨sameSet, admitted, reached⟩)
  simp [check, sameSet, examined, notReached, bind, Except.bind, throw, throwThe,
    MonadExceptOf.throw]

/-- Every key of the set has one precommit, there is no other, and each is validly signed and for
the target itself. -/
structure IsUnanimous
    (primitives : Primitives) (authoritySet : AuthoritySet) (justification : Justification) :
    Prop where
  sameSet : authoritySet.setId = justification.setId
  signedOnce :
    ∀ authority ∈ authoritySet.authorities,
      (justification.precommits.map SignedVote.id).count authority.id = 1
  isMember :
    ∀ precommit ∈ justification.precommits,
      ∃ authority ∈ authoritySet.authorities, authority.id = precommit.id
  isForTarget : ∀ precommit ∈ justification.precommits, precommit.vote = justification.target
  isSigned :
    ∀ precommit ∈ justification.precommits,
      primitives.verifies precommit.id
        (precommit.vote.signingPayload .precommit justification.round justification.setId)
        precommit.signature = true

namespace IsUnanimous

theorem admits
    (unanimous : IsUnanimous primitives authoritySet justification)
    {precommit : SignedVote} (member : precommit ∈ justification.precommits) :
    justification.Admits primitives authoritySet precommit where
  isMember := AuthoritySet.isSome_weightOf?_iff.mpr (unanimous.isMember precommit member)
  isSigned := unanimous.isSigned precommit member
  isNotBelow := by
    rw [unanimous.isForTarget precommit member]
    exact UInt32.le_refl _
  reachesTarget := by
    rw [unanimous.isForTarget precommit member, Ancestry.reaches]
    simp [target]

theorem countedKeys_eq (unanimous : IsUnanimous primitives authoritySet justification) :
    justification.countedKeys = authoritySet.keys := by
  refine Finset.Subset.antisymm (countedKeys_subset_keys fun _ => unanimous.admits) ?_
  intro key isKey
  obtain ⟨authority, member, rfl⟩ := AuthoritySet.mem_keys_iff.mp isKey
  have once := unanimous.signedOnce authority member
  rw [countedKeys_eq_unanimousKeys, unanimousKeys, Finset.mem_filter, List.mem_toFinset]
  refine ⟨List.count_pos_iff.mp (by omega), ?_⟩
  -- All votes are for the target, so nobody contradicts himself.
  intro first firstMember second secondMember _ _
  rw [unanimous.isForTarget first firstMember, unanimous.isForTarget second secondMember]

theorem check_eq_ok_iff_canReachQuorum
    (unanimous : IsUnanimous primitives authoritySet justification) :
    justification.check primitives authoritySet = .ok () ↔ authoritySet.CanReachQuorum := by
  rw [check_eq_ok_iff, signedWeight_eq_weightOfKeys, AuthoritySet.isReached_weightOfKeys_iff,
    unanimous.countedKeys_eq]
  exact
    ⟨fun accepted => accepted.2.2, fun reached =>
      ⟨unanimous.sameSet, fun _ => unanimous.admits, reached⟩⟩

end IsUnanimous

/-- A unanimous justification is accepted exactly if the first entries of the keys have more than
two thirds of the weight of all entries, as they have in every set with weight and without repeated
keys.  Otherwise the quorum is the one thing it lacks, and nothing else is accepted either. -/
theorem unanimous_decided_by_firstEntries
    (primitives : Primitives) (authoritySet : AuthoritySet) (justification : Justification)
    (unanimous : IsUnanimous primitives authoritySet justification) :
    (justification.check primitives authoritySet = .ok () ↔ authoritySet.CanReachQuorum) ∧
      (authoritySet.HasDistinctKeys → 0 < authoritySet.totalWeight →
        justification.check primitives authoritySet = .ok ()) ∧
      (¬ authoritySet.CanReachQuorum →
        justification.check primitives authoritySet = .error .noQuorum ∧
          ∀ other : Justification, other.check primitives authoritySet ≠ .ok ()) := by
  have decided := unanimous.check_eq_ok_iff_canReachQuorum
  refine ⟨decided, ?_, ?_⟩
  · intro distinct hasWeight
    exact decided.mpr (distinct.canReachQuorum hasWeight)
  · intro lacksQuorum
    refine ⟨?_, fun _ accepted => lacksQuorum (canReachQuorum_of_accepted accepted)⟩
    have notAccepted := mt decided.mp lacksQuorum
    exact
      check_eq_noQuorum_of_not_accepted unanimous.sameSet (fun _ => unanimous.admits) notAccepted

namespace Fork

/-- A set of two entries of one key. -/
def twofold (firstWeight secondWeight : Weight) : AuthoritySet :=
  ⟨0, [⟨traitor, firstWeight⟩, ⟨traitor, secondWeight⟩]⟩

theorem isUnanimous_rightJustification (firstWeight secondWeight : Weight) :
    IsUnanimous .standard (twofold firstWeight secondWeight) rightJustification where
  sameSet := rfl
  signedOnce := by simp [twofold, rightJustification]
  isMember := by simp [twofold, rightJustification]
  isForTarget := by simp [rightJustification, target]
  isSigned := fun precommit member =>
    ((check_eq_ok_iff.mp right_isFinal).2.1 precommit member).isSigned

theorem weightOfKeys_twofold (firstWeight secondWeight : Weight) :
    (twofold firstWeight secondWeight).weightOfKeys (twofold firstWeight secondWeight).keys =
      firstWeight.toNat := by
  simp [AuthoritySet.weightOfKeys, AuthoritySet.keys, twofold, AuthoritySet.firstWeight_cons]

end Fork

/-- A first entry of five sixths decides alone. -/
theorem unanimous_decided_by_firstEntries_twofold :
    IsUnanimous .standard (Fork.twofold 5 1) Fork.rightJustification ∧
      Fork.rightJustification.check .standard (Fork.twofold 5 1) = .ok () := by
  have unanimous := Fork.isUnanimous_rightJustification 5 1
  have decided :=
    unanimous_decided_by_firstEntries .standard (Fork.twofold 5 1) Fork.rightJustification
      unanimous
  refine ⟨unanimous, decided.1.mpr ?_⟩
  rw [AuthoritySet.CanReachQuorum, Fork.weightOfKeys_twofold]
  decide

/-- Two equal entries of one key have weight, but the key has only half of it, whatever it signs. -/
theorem unanimous_not_accepted_twofold :
    IsUnanimous .standard (Fork.twofold 1 1) Fork.rightJustification ∧
      0 < (Fork.twofold 1 1).totalWeight ∧
      Fork.rightJustification.check .standard (Fork.twofold 1 1) = .error .noQuorum ∧
      ∀ other : Justification, other.check .standard (Fork.twofold 1 1) ≠ .ok () := by
  have unanimous := Fork.isUnanimous_rightJustification 1 1
  have lacksQuorum : ¬ (Fork.twofold 1 1).CanReachQuorum := by
    rw [AuthoritySet.CanReachQuorum, Fork.weightOfKeys_twofold]
    decide
  have notAccepted := mt unanimous.check_eq_ok_iff_canReachQuorum.mp lacksQuorum
  refine ⟨unanimous, by decide, ?_, fun _ accepted => ?_⟩
  · exact
      check_eq_noQuorum_of_not_accepted unanimous.sameSet (fun _ => unanimous.admits) notAccepted
  · exact lacksQuorum (canReachQuorum_of_accepted accepted)

end Justification

end FinalitySync
