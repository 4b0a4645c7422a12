/-!
Numbers that count blocks, authority sets, rounds and votes.
-/

namespace FinalitySync

abbrev BlockNumber := UInt32

/-- Authority sets are numbered in the order in which they come into force. -/
abbrev SetId := UInt64

abbrev RoundNumber := UInt64

abbrev Weight := UInt64

/-- The block so many blocks further on; past the last number it is the last one. -/
def BlockNumber.after (number delay : BlockNumber) : BlockNumber :=
  UInt32.ofNat (min (number.toNat + delay.toNat) (2 ^ 32 - 1))

theorem BlockNumber.toNat_after (number delay : BlockNumber) :
    (number.after delay).toNat = min (number.toNat + delay.toNat) (2 ^ 32 - 1) := by
  have bound : min (number.toNat + delay.toNat) (2 ^ 32 - 1) < 2 ^ 32 := by omega
  rw [BlockNumber.after, UInt32.toNat_ofNat', Nat.mod_eq_of_lt bound]

/-- Arithmetic of a fixed width whose result does not fit. -/
inductive Overflow
  | addition
  | multiplication
deriving DecidableEq, Repr

def Overflow.message : Overflow → String
  | .addition => "attempt to add with overflow"
  | .multiplication => "attempt to multiply with overflow"

end FinalitySync
