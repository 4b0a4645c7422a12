import FinalitySync.Bytes.LittleEndian
import FinalitySync.Crypto.Field25519

/-!
The curve `- x ^ 2 + y ^ 2 = 1 + d x ^ 2 y ^ 2` over the field with `2 ^ 255 - 19` elements.
-/

namespace FinalitySync

/-- A point in extended coordinates: `x / z` and `y / z` are the coordinates of the point, and
`x y = z t`. -/
structure Edwards25519 where
  x : Field25519
  y : Field25519
  z : Field25519
  t : Field25519

namespace Edwards25519

/-- The coefficient of the curve, `- 121665 / 121666`. -/
def coefficient : Field25519 :=
  37095705934669439343138083508754565189542113879843219016388785533085940283555

def ofAffine (x y : Field25519) : Edwards25519 := ⟨x, y, 1, x * y⟩

def identity : Edwards25519 := ofAffine 0 1

def basePoint : Edwards25519 :=
  ofAffine
    15112221349535400772501151409588531511454012693041857206046113283949847762202
    46316835694926478169428394003475163141307993866256225615783033603165251855960

/-- The order of the base point. -/
def order : Nat := 2 ^ 252 + 27742317777372353535851937790883648493

/-- The coefficient is no square, so this one formula adds any two points. -/
def add (left right : Edwards25519) : Edwards25519 :=
  let a := (left.y - left.x) * (right.y - right.x)
  let b := (left.y + left.x) * (right.y + right.x)
  let c := 2 * coefficient * left.t * right.t
  let d := 2 * left.z * right.z
  let e := b - a
  let f := d - c
  let g := d + c
  let h := b + a
  ⟨e * f, g * h, f * g, e * h⟩

instance : Add Edwards25519 := ⟨add⟩

def negate (point : Edwards25519) : Edwards25519 :=
  { point with x := 0 - point.x, t := 0 - point.t }

/-- Double and add, for factors below `2 ^ 256`. -/
def multiply (factor : Nat) (point : Edwards25519) : Edwards25519 :=
  (Field25519.bits 256 factor).foldl
    (fun result bit => if bit then result + result + point else result + result) identity

def isIdentity (point : Edwards25519) : Bool :=
  point.x == 0 && point.y == point.z

/-- The point that 32 bytes name: the second coordinate, and in the highest bit whether the first
one is odd. Coordinates are reduced, and the bit is ignored where the first coordinate is zero, so
a point may have several names. -/
def ofBytes? (bytes : Bytes) : Option Edwards25519 := do
  let number := LittleEndian.decode bytes
  let y := Fin.ofNat Field25519.modulus (number % 2 ^ 255)
  let isOdd := number.testBit 255
  let root ← Field25519.sqrtQuotient? (y * y - 1) (coefficient * (y * y) + 1)
  let x := if root.val.testBit 0 == isOdd then root else 0 - root
  return ofAffine x y

end Edwards25519

end FinalitySync
