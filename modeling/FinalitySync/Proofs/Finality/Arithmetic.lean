import FinalitySync.Proofs.Finality.Accountability
import FinalitySync.Proofs.Finality.Decision
import Mathlib.Algebra.Group.Action.Defs
import Mathlib.Algebra.Order.BigOperators.Group.List
import Mathlib.Data.Rat.Cast.Order
import Mathlib.Tactic.Linarith

/-!
# Weights in words

Weights are added and compared in words of 128 bits.  The entries of a set of any size that can
occur have room in them, and so has what two or three times their weight is.  Words then say what
numbers say, and the two ways to tell a quorum agree with the two thirds that they stand for.
-/

namespace FinalitySync

namespace Quorum

/-- The sum of two words, which has to fit. -/
def addWords (left right : Nat) : Except Overflow Nat :=
  if left + right < 2 ^ 128 then .ok (left + right) else .error .addition

/-- The product of two words, which has to fit. -/
def multiplyWords (left right : Nat) : Except Overflow Nat :=
  if left * right < 2 ^ 128 then .ok (left * right) else .error .multiplication

/-- Adds words one after the other; every sum on the way has to fit. -/
def sumWords (words : List Nat) : Except Overflow Nat :=
  words.foldlM addWords 0

theorem foldlM_addWords
    {start : Nat} {words : List Nat} (fits : start + words.sum < 2 ^ 128) :
    words.foldlM addWords start = .ok (start + words.sum) := by
  induction words generalizing start with
  | nil => rfl
  | cons word words inductionHypothesis =>
      rw [List.sum_cons, ← Nat.add_assoc] at fits ⊢
      have firstFits : start + word < 2 ^ 128 := by omega
      rw [List.foldlM_cons, addWords, if_pos firstFits]
      exact inductionHypothesis fits

/-- No sum on the way is larger than the last one. -/
theorem sumWords_eq_ok {words : List Nat} (fits : words.sum < 2 ^ 128) :
    sumWords words = .ok words.sum := by
  rw [sumWords, foldlM_addWords (by omega), Nat.zero_add]

end Quorum

namespace AuthoritySet

def totalWeightInWords (authoritySet : AuthoritySet) : Except Overflow Nat :=
  Quorum.sumWords (authoritySet.authorities.map fun authority => authority.weight.toNat)

def thresholdInWords (authoritySet : AuthoritySet) : Except Overflow Nat := do
  let total ← authoritySet.totalWeightInWords
  let twofold ← Quorum.multiplyWords total 2
  Quorum.addWords (twofold / 3) 1

/-- Adds up what signers weigh, one after the other; who has no entry is passed over. -/
def tallyInWords (authoritySet : AuthoritySet) (signers : List PublicKey) : Except Overflow Nat :=
  Quorum.sumWords ((signers.filterMap authoritySet.weightOf?).map UInt64.toNat)

variable {authoritySet : AuthoritySet}

theorem totalWeight_lt (fewEntries : authoritySet.authorities.length < 2 ^ 62) :
    authoritySet.totalWeight < 2 ^ 126 := by
  have bounded :
      ∀ weight ∈ authoritySet.authorities.map fun authority => authority.weight.toNat,
        weight ≤ 2 ^ 64 - 1 := by
    intro weight member
    obtain ⟨authority, _, rfl⟩ := List.mem_map.mp member
    have fits := authority.weight.toNat_lt
    omega
  have atMost := List.sum_le_card_nsmul _ _ bounded
  rw [List.length_map, smul_eq_mul, ← totalWeight_eq_sum] at atMost
  omega

theorem totalWeightInWords_eq_ok (fits : authoritySet.totalWeight < 2 ^ 128) :
    authoritySet.totalWeightInWords = .ok authoritySet.totalWeight := by
  rw [totalWeight_eq_sum] at fits ⊢
  exact Quorum.sumWords_eq_ok fits

theorem thresholdInWords_eq_ok (fits : 2 * authoritySet.totalWeight < 2 ^ 128) :
    authoritySet.thresholdInWords = .ok authoritySet.threshold := by
  have twofoldFits : authoritySet.totalWeight * 2 < 2 ^ 128 := by omega
  have thirdFits : authoritySet.totalWeight * 2 / 3 + 1 < 2 ^ 128 := by omega
  rw [thresholdInWords, totalWeightInWords_eq_ok (by omega)]
  simp only [bind, Except.bind, Quorum.multiplyWords, if_pos twofoldFits]
  rw [Quorum.addWords, if_pos thirdFits, threshold]

/-- Who has no entry weighs nothing. -/
theorem sum_filterMap_weightOf? (authoritySet : AuthoritySet) (signers : List PublicKey) :
    ((signers.filterMap authoritySet.weightOf?).map UInt64.toNat).sum =
      (signers.map authoritySet.firstWeight).sum := by
  induction signers with
  | nil => rfl
  | cons signer signers inductionHypothesis =>
      cases weighs : authoritySet.weightOf? signer <;>
        simp [firstWeight, weighs, inductionHypothesis]

variable {signed : Nat}

theorem isReached_iff_threshold_le (bounded : signed ≤ authoritySet.totalWeight) :
    Quorum.isReached signed authoritySet.totalWeight = true ↔ authoritySet.threshold ≤ signed := by
  rw [isReached_iff_two_mul_lt bounded, threshold]
  omega

theorem isReached_iff_twoThirds_lt (bounded : signed ≤ authoritySet.totalWeight) :
    Quorum.isReached signed authoritySet.totalWeight = true ↔
      (2 / 3 : ℚ) * authoritySet.totalWeight < signed := by
  rw [isReached_iff_two_mul_lt bounded]
  constructor
  · intro more
    have moreRational : 2 * (authoritySet.totalWeight : ℚ) < 3 * signed := by exact_mod_cast more
    linarith
  · intro moreRational
    have more : 2 * (authoritySet.totalWeight : ℚ) < 3 * signed := by linarith
    exact_mod_cast more

end AuthoritySet

namespace Justification

theorem tallyInWords_eq_ok
    {authoritySet : AuthoritySet} {justification : Justification} {signers : List PublicKey}
    (inSomeOrder : signers.Perm justification.countedSigners)
    (fits : justification.signedWeight authoritySet < 2 ^ 128) :
    authoritySet.tallyInWords signers = .ok (justification.signedWeight authoritySet) := by
  have sameSum :
      ((signers.filterMap authoritySet.weightOf?).map UInt64.toNat).sum =
        justification.signedWeight authoritySet := by
    rw [AuthoritySet.sum_filterMap_weightOf?, (inSomeOrder.map _).sum_eq, signedWeight,
      List.sum_eq_foldr]
    rfl
  rw [← sameSum] at fits ⊢
  exact Quorum.sumWords_eq_ok fits

/-- The weights of a set and of who counts in a justification are the same in words as in numbers,
and decide about a quorum as two thirds do. -/
structure IsWeighedExactly (authoritySet : AuthoritySet) (justification : Justification) :
    Prop where
  signedWeight_le : justification.signedWeight authoritySet ≤ authoritySet.totalWeight
  totalWeight_fits : authoritySet.totalWeightInWords = .ok authoritySet.totalWeight
  threshold_fits : authoritySet.thresholdInWords = .ok authoritySet.threshold
  /-- Whoever counts is counted once, in any order. -/
  tally_fits :
    ∀ signers : List PublicKey,
      signers.Perm justification.countedSigners →
        authoritySet.tallyInWords signers = .ok (justification.signedWeight authoritySet)
  quorum_fits :
    ∀ signed ≤ authoritySet.totalWeight,
      Quorum.isReachedInWords signed authoritySet.totalWeight =
        .ok (Quorum.isReached signed authoritySet.totalWeight)
  isReached_iff_threshold :
    ∀ signed ≤ authoritySet.totalWeight,
      (Quorum.isReached signed authoritySet.totalWeight = true ↔
        authoritySet.threshold ≤ signed)
  isReached_iff_twoThirds :
    ∀ signed ≤ authoritySet.totalWeight,
      (Quorum.isReached signed authoritySet.totalWeight = true ↔
        (2 / 3 : ℚ) * authoritySet.totalWeight < signed)
  noQuorum_of_noWeight :
    authoritySet.totalWeight = 0 →
      ∀ signed, Quorum.isReachedInWords signed authoritySet.totalWeight = .ok false

/-- Weights are exact in every set of fewer than 2 ^ 62 entries, whatever the entries weigh and
whoever has several. -/
theorem weights_areExact
    (authoritySet : AuthoritySet) (justification : Justification)
    (fewEntries : authoritySet.authorities.length < 2 ^ 62) :
    IsWeighedExactly authoritySet justification := by
  have bound := AuthoritySet.totalWeight_lt fewEntries
  have atMost : justification.signedWeight authoritySet ≤ authoritySet.totalWeight := by
    rw [signedWeight_eq_weightOfKeys]
    exact authoritySet.weightOfKeys_le_totalWeight justification.countedKeys
  exact
    { signedWeight_le := atMost
      totalWeight_fits := AuthoritySet.totalWeightInWords_eq_ok (by omega)
      threshold_fits := AuthoritySet.thresholdInWords_eq_ok (by omega)
      tally_fits := fun _ inSomeOrder => tallyInWords_eq_ok inSomeOrder (by omega)
      quorum_fits := fun _ _ => Quorum.isReachedInWords_eq_ok (by omega) (by omega)
      isReached_iff_threshold := fun _ => AuthoritySet.isReached_iff_threshold_le
      isReached_iff_twoThirds := fun _ => AuthoritySet.isReached_iff_twoThirds_lt
      noQuorum_of_noWeight := by
        intro noWeight signed
        rw [noWeight, Quorum.isReachedInWords, if_pos rfl] }

namespace Fork

/-- Two of three entries have one key, and none can weigh more. -/
def heaviest : AuthoritySet :=
  ⟨0, [⟨traitor, 18446744073709551615⟩, ⟨traitor, 18446744073709551615⟩,
    ⟨bystander, 18446744073709551615⟩]⟩

end Fork

/-- The largest weights are exact. -/
theorem weights_areExact_heaviest :
    Fork.heaviest.authorities.length < 2 ^ 62 ∧
      IsWeighedExactly Fork.heaviest Fork.leftJustification := by
  have fewEntries : Fork.heaviest.authorities.length < 2 ^ 62 := by decide
  exact ⟨fewEntries, weights_areExact Fork.heaviest Fork.leftJustification fewEntries⟩

end Justification

end FinalitySync
