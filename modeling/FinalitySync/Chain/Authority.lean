import FinalitySync.Chain.Basic
import FinalitySync.Crypto.PublicKey

/-!
Authorities and the sets of them that vote during the lifetime of one set number.
-/

namespace FinalitySync

structure Authority where
  id : PublicKey
  weight : Weight
deriving DecidableEq, Inhabited

namespace Authority

def codec : Scale.Codec Authority :=
  ((PublicKey.codec.component "Authority::id").followedBy
    (Scale.Codec.word64.component "Authority::weight")).via
    (fun values => ⟨values.1, values.2⟩)
    (fun authority => (authority.id, authority.weight))

def form : Form Authority :=
  Form.fields ["id", "weight"]
    (fun authority => [PublicKey.form.write authority.id, Form.word64.write authority.weight])
    fun
      | [id, weight] => do
          return ⟨← PublicKey.form.read? id, ← Form.word64.read? weight⟩
      | _ => none

end Authority

structure AuthoritySet where
  setId : SetId
  authorities : List Authority
deriving DecidableEq, Inhabited

namespace AuthoritySet

/-- The weights of all entries together; a key with several entries counts several times. -/
def totalWeight (authoritySet : AuthoritySet) : Nat :=
  (authoritySet.authorities.map fun authority => authority.weight.toNat).foldr (· + ·) 0

/-- The weight of the first entry of a key. -/
def weightOf? (authoritySet : AuthoritySet) (id : PublicKey) : Option Weight :=
  (authoritySet.authorities.find? fun authority => authority.id == id).map Authority.weight

/-- The least weight that is more than two thirds of the total. -/
def threshold (authoritySet : AuthoritySet) : Nat :=
  authoritySet.totalWeight * 2 / 3 + 1

def codec : Scale.Codec AuthoritySet :=
  ((Scale.Codec.word64.component "AuthoritySet::set_id").followedBy
    (Authority.codec.vector.component "AuthoritySet::authorities")).via
    (fun values => ⟨values.1, values.2⟩)
    (fun authoritySet => (authoritySet.setId, authoritySet.authorities))

def form : Form AuthoritySet :=
  Form.fields ["set_id", "authorities"]
    (fun authoritySet =>
      [Form.word64.write authoritySet.setId, Authority.form.list.write authoritySet.authorities])
    fun
      | [setId, authorities] => do
          return ⟨← Form.word64.read? setId, ← Authority.form.list.read? authorities⟩
      | _ => none

end AuthoritySet

end FinalitySync
