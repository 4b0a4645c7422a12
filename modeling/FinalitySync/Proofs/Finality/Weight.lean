import FinalitySync.Finality.Verdict
import Mathlib.Algebra.BigOperators.Group.Finset.Piecewise
import Mathlib.Algebra.Order.BigOperators.Group.Finset

/-!
# Weights of keys

A key weighs what its first entry says.  Different keys weigh no more together than all entries do,
whatever keys are repeated.  Hence two quorums have more than a third of the weight in common.
-/

namespace FinalitySync

namespace AuthoritySet

/-- The weight of the first entry of a key, and zero for a key without an entry. -/
def firstWeight (authoritySet : AuthoritySet) (key : PublicKey) : Nat :=
  ((authoritySet.weightOf? key).map UInt64.toNat).getD 0

/-- What different keys weigh together. -/
def weightOfKeys (authoritySet : AuthoritySet) (keys : Finset PublicKey) : Nat :=
  ∑ key ∈ keys, authoritySet.firstWeight key

theorem firstWeight_cons
    (setId : SetId) (authority : Authority) (authorities : List Authority) (key : PublicKey) :
    firstWeight ⟨setId, authority :: authorities⟩ key =
      if authority.id = key then authority.weight.toNat
      else firstWeight ⟨setId, authorities⟩ key := by
  by_cases isFirst : authority.id = key
  · simp [firstWeight, weightOf?, isFirst]
  · have different : (authority.id == key) = false := beq_eq_false_iff_ne.mpr isFirst
    simp [firstWeight, weightOf?, isFirst, different]

/-- Only one of several keys can be the key of an entry. -/
theorem weightOfKeys_cons_le
    (setId : SetId) (authority : Authority) (authorities : List Authority)
    (keys : Finset PublicKey) :
    weightOfKeys ⟨setId, authority :: authorities⟩ keys ≤
      authority.weight.toNat + weightOfKeys ⟨setId, authorities⟩ keys := by
  have bounded (key : PublicKey) :
      firstWeight ⟨setId, authority :: authorities⟩ key ≤
        (if authority.id = key then authority.weight.toNat else 0) +
          firstWeight ⟨setId, authorities⟩ key := by
    rw [firstWeight_cons]
    split <;> omega
  have onlyOne :
      (∑ key ∈ keys, if authority.id = key then authority.weight.toNat else 0) ≤
        authority.weight.toNat := by
    rw [Finset.sum_ite_eq]
    split
    · exact Nat.le_refl _
    · exact Nat.zero_le _
  calc
    weightOfKeys ⟨setId, authority :: authorities⟩ keys
    _ ≤ ∑ key ∈ keys,
          ((if authority.id = key then authority.weight.toNat else 0) +
            firstWeight ⟨setId, authorities⟩ key) :=
        Finset.sum_le_sum fun key _ => bounded key
    _ = (∑ key ∈ keys, if authority.id = key then authority.weight.toNat else 0) +
          weightOfKeys ⟨setId, authorities⟩ keys :=
        Finset.sum_add_distrib
    _ ≤ authority.weight.toNat + weightOfKeys ⟨setId, authorities⟩ keys :=
        Nat.add_le_add_right onlyOne _

theorem weightOfKeys_le_totalWeight (authoritySet : AuthoritySet) (keys : Finset PublicKey) :
    authoritySet.weightOfKeys keys ≤ authoritySet.totalWeight := by
  obtain ⟨setId, authorities⟩ := authoritySet
  induction authorities with
  | nil => simp [weightOfKeys, firstWeight, weightOf?]
  | cons authority authorities inductionHypothesis =>
      have first := weightOfKeys_cons_le setId authority authorities keys
      have total :
          totalWeight ⟨setId, authority :: authorities⟩ =
            authority.weight.toNat + totalWeight ⟨setId, authorities⟩ := by
        simp [totalWeight]
      omega

/-- Any two quorums have more than a third of the weight in common. -/
theorem totalWeight_lt_three_mul_weightOfKeys_inter
    {authoritySet : AuthoritySet} {first second : Finset PublicKey}
    (firstReached :
      Quorum.isReached (authoritySet.weightOfKeys first) authoritySet.totalWeight = true)
    (secondReached :
      Quorum.isReached (authoritySet.weightOfKeys second) authoritySet.totalWeight = true) :
    authoritySet.totalWeight < 3 * authoritySet.weightOfKeys (first ∩ second) := by
  have together := authoritySet.weightOfKeys_le_totalWeight (first ∪ second)
  have shared :
      authoritySet.weightOfKeys (first ∪ second) + authoritySet.weightOfKeys (first ∩ second) =
        authoritySet.weightOfKeys first + authoritySet.weightOfKeys second :=
    Finset.sum_union_inter
  simp only [Quorum.isReached, Bool.and_eq_true, decide_eq_true_eq] at firstReached secondReached
  omega

end AuthoritySet

namespace Justification

theorem nodup_eraseDups (keys : List PublicKey) : keys.eraseDups.Nodup := by
  match keys with
  | [] => exact List.nodup_nil
  | key :: rest =>
      have notLater : key ∉ (rest.filter fun other => !other == key).eraseDups := by
        rw [List.mem_eraseDups, List.mem_filter]
        simp
      have nodupLater := nodup_eraseDups (rest.filter fun other => !other == key)
      rw [List.eraseDups_cons]
      exact List.nodup_cons.mpr ⟨notLater, nodupLater⟩
termination_by keys.length
decreasing_by
  rw [List.length_cons]
  exact Nat.lt_succ_of_le (List.length_filter_le _ rest)

/-- The signers that count, as a set. -/
def countedKeys (justification : Justification) : Finset PublicKey :=
  justification.countedSigners.toFinset

theorem signedWeight_eq_weightOfKeys
    (justification : Justification) (authoritySet : AuthoritySet) :
    justification.signedWeight authoritySet =
      authoritySet.weightOfKeys justification.countedKeys := by
  have nodup : justification.countedSigners.Nodup :=
    (nodup_eraseDups (justification.precommits.map SignedVote.id)).filter _
  rw [AuthoritySet.weightOfKeys, countedKeys, List.sum_toFinset _ nodup, List.sum_eq_foldr]
  rfl

end Justification

end FinalitySync
