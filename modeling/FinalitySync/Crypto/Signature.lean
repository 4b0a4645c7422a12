import FinalitySync.Bytes.Hex
import FinalitySync.Document.Form
import FinalitySync.Scale.Codec

/-!
Signatures of 64 bytes.
-/

namespace FinalitySync

@[ext]
structure Signature extends Octets 64
deriving DecidableEq

namespace Signature

instance : Inhabited Signature := ⟨⟨Octets.zero 64⟩⟩

def codec : Scale.Codec Signature :=
  ((Scale.Codec.octets 64).via Signature.mk Signature.toOctets).component "Signature.0"

def hex (signature : Signature) : String := Hex.encode signature.toList

/-- Reads all the digits behind an optional `0x`. -/
def ofText? (text : String) : Option Signature := do
  let bytes ← Hex.decodeChars? (Hex.withoutMarker text.toList)
  return ⟨← Octets.ofList? 64 bytes⟩

def form : Form Signature := Form.spelled hex ofText?

end Signature

end FinalitySync
