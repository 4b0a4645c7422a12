import FinalitySync.Bytes.Hex
import FinalitySync.Crypto.Address
import FinalitySync.Document.Form
import FinalitySync.Scale.Codec

/-!
Public keys of 32 bytes. A key is who an authority is; documents spell it as an address.
-/

namespace FinalitySync

@[ext]
structure PublicKey extends Octets 32
deriving DecidableEq

namespace PublicKey

instance : Inhabited PublicKey := ⟨⟨Octets.zero 32⟩⟩

def codec : Scale.Codec PublicKey :=
  ((Scale.Codec.octets 32).via PublicKey.mk PublicKey.toOctets).component "Public.0"

def hex (key : PublicKey) : String := Hex.encode key.toList

def address (key : PublicKey) : String := Address.encode key.toOctets

/-- All digits and the beginning of the address. -/
def text (key : PublicKey) : String :=
  key.hex ++ " (" ++ String.ofList (key.address.toList.take 8) ++ "...)"

def form : Form PublicKey :=
  Form.spelled address fun text => (Address.decode? text).map PublicKey.mk

end PublicKey

end FinalitySync
