import FinalitySync.Crypto.Edwards25519
import FinalitySync.Crypto.Sha512

/-!
Verification of Ed25519 signatures.
-/

namespace FinalitySync.Ed25519

/-- A signature is a nonce point and a scalar. The key and the nonce may be any names of points,
the scalar has to be below the order of the base point, and the signed equation has to hold up to
a point of small order. -/
def verify (key message signature : Bytes) : Bool :=
  let nonceBytes := signature.take 32
  let scalar := LittleEndian.decode (signature.drop 32)
  match Edwards25519.ofBytes? key, Edwards25519.ofBytes? nonceBytes with
  | some keyPoint, some noncePoint =>
      if scalar < Edwards25519.order then
        let challenge :=
          LittleEndian.decode (Sha512.hash (nonceBytes ++ key ++ message)) % Edwards25519.order
        let difference :=
          Edwards25519.multiply scalar Edwards25519.basePoint +
            Edwards25519.multiply challenge keyPoint.negate + noncePoint.negate
        let doubled := difference + difference
        let fourfold := doubled + doubled
        (fourfold + fourfold).isIdentity
      else false
  | _, _ => false

end FinalitySync.Ed25519
