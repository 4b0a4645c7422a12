/-!
Byte strings of any length and of a fixed length.
-/

-- Powers of natural numbers are the core library's, also where Mathlib has others to offer.
attribute [default_instance 20000] instPowNat

namespace FinalitySync

/-- A byte string of any length. -/
abbrev Bytes := List UInt8

/-- A byte string whose length is part of its type. -/
@[ext]
structure Octets (size : Nat) where
  toList : Bytes
  length_toList : toList.length = size
deriving DecidableEq

namespace Octets

/-- Refuses a byte string of any other length. -/
def ofList? (size : Nat) (bytes : Bytes) : Option (Octets size) :=
  if length_bytes : bytes.length = size then
    some ⟨bytes, length_bytes⟩
  else
    none

/-- The given bytes followed by zeros; bytes past the end are dropped. -/
def padded (size : Nat) (bytes : Bytes) : Octets size where
  toList := (bytes ++ List.replicate size 0).take size
  length_toList := by simp

/-- The byte string of zeros. -/
def zero (size : Nat) : Octets size where
  toList := List.replicate size 0
  length_toList := by simp

instance (size : Nat) : Inhabited (Octets size) := ⟨zero size⟩

/-- Byte strings are ordered by their first differing byte. -/
instance (size : Nat) : Ord (Octets size) :=
  ⟨fun left right => compare left.toList right.toList⟩

theorem ofList?_toList {size : Nat} (octets : Octets size) :
    ofList? size octets.toList = some octets := by
  simp [ofList?, octets.length_toList]

theorem toList_of_ofList?
    {size : Nat} {bytes : Bytes} {octets : Octets size}
    (read : ofList? size bytes = some octets) :
    octets.toList = bytes := by
  unfold ofList? at read
  split at read
  · cases read
    rfl
  · cases read

end Octets

end FinalitySync
