import FinalitySync.Chain.Authority
import FinalitySync.Crypto.Hash

/-!
Checkpoints: final blocks that are trusted without a proof, with the authority set in force after
them.
-/

namespace FinalitySync

structure Checkpoint where
  blockHash : Hash
  blockNumber : BlockNumber
  stateRoot : Hash
  setId : SetId
  authorities : List Authority
deriving DecidableEq, Inhabited

namespace Checkpoint

def authoritySet (checkpoint : Checkpoint) : AuthoritySet :=
  ⟨checkpoint.setId, checkpoint.authorities⟩

/-- The form in which hashes have the given form. -/
def formWith (hash : Form Hash) : Form Checkpoint :=
  Form.fields ["block_hash", "block_number", "state_root", "set_id", "authorities"]
    (fun checkpoint =>
      [hash.write checkpoint.blockHash, Form.word32.write checkpoint.blockNumber,
        hash.write checkpoint.stateRoot, Form.word64.write checkpoint.setId,
        Authority.form.list.write checkpoint.authorities])
    fun
      | [blockHash, blockNumber, stateRoot, setId, authorities] => do
          return ⟨← hash.read? blockHash, ← Form.word32.read? blockNumber,
            ← hash.read? stateRoot, ← Form.word64.read? setId,
            ← Authority.form.list.read? authorities⟩
      | _ => none

def form : Form Checkpoint := formWith Hash.form

end Checkpoint

end FinalitySync
