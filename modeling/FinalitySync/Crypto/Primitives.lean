import FinalitySync.Crypto.Ed25519
import FinalitySync.Crypto.Hash
import FinalitySync.Crypto.PublicKey
import FinalitySync.Crypto.Signature

/-!
The cryptography that the rest of the library is written over: how headers are hashed and when a
signature counts.
-/

namespace FinalitySync

structure Primitives where
  hash : Bytes → Hash
  /-- Whether a key has signed a message. -/
  verifies : PublicKey → Bytes → Signature → Bool

namespace Primitives

/-- BLAKE2b digests and Ed25519 signatures. -/
def standard : Primitives where
  hash := Hash.blake2b
  verifies key message signature := Ed25519.verify key.toList message signature.toList

end Primitives

end FinalitySync
