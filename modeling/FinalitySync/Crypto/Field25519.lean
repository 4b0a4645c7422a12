/-!
The prime field with `2 ^ 255 - 19` elements.
-/

namespace FinalitySync

/-- The modulus is prime. -/
def Field25519.modulus : Nat := 2 ^ 255 - 19

abbrev Field25519 := Fin Field25519.modulus

namespace Field25519

theorem modulus_ne_zero : modulus ≠ 0 := by decide

instance : @NeZero Nat Zero.ofOfNat0 modulus := ⟨modulus_ne_zero⟩

/-- The lowest `width` bits, most significant first. -/
def bits (width value : Nat) : List Bool :=
  (List.range width).reverse.map value.testBit

/-- Square and multiply, for exponents below `2 ^ 255`. -/
def power (base : Field25519) (exponent : Nat) : Field25519 :=
  (bits 255 exponent).foldl
    (fun result bit => if bit then result * result * base else result * result) 1

/-- A square root of minus one. -/
def imaginaryUnit : Field25519 :=
  19681161376707505956807079304988542015446066515923890162744021073123829784752

/-- A square root of a quotient, if there is one. The modulus is five more than a multiple of
eight, so one power gives a root of the quotient or of its negative. -/
def sqrtQuotient? (numerator denominator : Field25519) : Option Field25519 :=
  let cube := denominator * denominator * denominator
  let seventh := cube * cube * denominator
  let candidate := numerator * cube * power (numerator * seventh) ((modulus - 5) / 8)
  let square := denominator * candidate * candidate
  if square = numerator then some candidate
  else if square = 0 - numerator then some (candidate * imaginaryUnit)
  else none

end Field25519

end FinalitySync
