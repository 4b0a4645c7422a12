import FinalitySync.Chain.Basic

/-!
When signed weight makes a quorum: more than two thirds of a total that is not zero.
-/

namespace FinalitySync.Quorum

def isReached (signed total : Nat) : Bool :=
  0 < total && 2 * total < 3 * signed

/-- The comparison in words of 128 bits. The products are formed only for a total that is not
zero, the signed weight's first, and each has to fit. -/
def isReachedInWords (signed total : Nat) : Except Overflow Bool :=
  if total = 0 then .ok false
  else if 2 ^ 128 ≤ 3 * signed then .error .multiplication
  else if 2 ^ 128 ≤ 2 * total then .error .multiplication
  else .ok (isReached signed total)

/-- Where the products fit, words decide as numbers do. -/
theorem isReachedInWords_eq_ok {signed total : Nat} (signedFits : 3 * signed < 2 ^ 128)
    (totalFits : 2 * total < 2 ^ 128) :
    isReachedInWords signed total = .ok (isReached signed total) := by
  unfold isReachedInWords
  by_cases zeroTotal : total = 0
  · simp [zeroTotal, isReached]
  · rw [if_neg zeroTotal, if_neg (by omega), if_neg (by omega)]

end FinalitySync.Quorum
