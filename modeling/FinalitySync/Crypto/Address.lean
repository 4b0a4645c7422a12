import FinalitySync.Crypto.Blake2b
import FinalitySync.Text.Base58

/-!
SS58 addresses: base 58 text of a network number, a public key and a checksum.
-/

namespace FinalitySync.Address

/-- The network number of addresses that are written. -/
def defaultNetwork : UInt8 := 42

/-- The numbers that name a network. Two more, 46 and 47, are kept free and no address has
them. -/
def registeredNetworks : List Nat :=
  (List.range 59).filter (fun network => network != 46 && network != 47) ++
    [63, 65, 66, 67, 68, 69, 71, 72, 73, 77, 78, 81, 88, 89, 90, 92, 93, 98, 99, 100, 101,
      105, 110, 113, 117, 126, 128, 129, 131, 136, 137, 172, 252, 255, 268, 420, 440, 666,
      777, 789, 995, 1110, 1221, 1222, 1284, 1285, 1328, 1337, 1516, 1985, 2007, 2009, 2021,
      2024, 2032, 2092, 2106, 2112, 2199, 2206, 2207, 2254, 3333, 4450, 5234, 5845, 6094,
      7007, 7013, 7306, 7391, 8866, 8883, 8886, 8888, 9072, 9807, 9935, 10041, 11330, 11331,
      11486, 11820, 12155, 12191, 12850, 13116, 14697, 14998, 29972]

/-- The first two bytes of a digest of what an address says. -/
def checksum (body : Bytes) : Bytes :=
  (Blake2b.hash 64 ("SS58PRE".toUTF8.toList ++ body)).take 2

def encode (key : Octets 32) : String :=
  let body := defaultNetwork :: key.toList
  Base58.encode (body ++ checksum body)

/-- The network number at the front and the number of bytes it takes. Below 64 a byte is the
number; below 128 it gives six bits of a number whose other bits are in the next byte. -/
def network? : Bytes → Option (Nat × Nat)
  | first :: second :: _ =>
      if first.toNat < 64 then some (first.toNat, 1)
      else if first.toNat < 128 then
        let low := first.toNat * 4 % 256 + second.toNat / 64
        let high := second.toNat % 64
        some (low + 256 * high, 2)
      else none
  | _ => none

/-- Refuses another length, an unknown network and a wrong checksum. -/
def decode? (text : String) : Option (Octets 32) := do
  let bytes ← Base58.decode? text
  let (network, width) ← network? bytes
  let body := bytes.take (width + 32)
  let key ← Octets.ofList? 32 (body.drop width)
  if bytes.length = width + 34 ∧ network ∈ registeredNetworks ∧
      bytes.drop (width + 32) = checksum body then
    return key
  else none

end FinalitySync.Address
