import FinalitySync.Chain.Authority
import FinalitySync.Chain.Vote
import FinalitySync.Text.Decimal

/-!
The records that are kept between runs. Each has a type of values, a document form and a place in
the store.
-/

namespace FinalitySync

inductive Record
  /-- The authorities of one set. -/
  | authorities (setId : SetId)
  | currentSetId
  | latestRound
  /-- The precommits that made a block final, under a round and a set. -/
  | precommits (round : RoundNumber) (setId : SetId)
  | headNumber
  | headHash
  | headStateRoot
  | runtimeCode
  | isSynced
deriving DecidableEq, Repr

namespace Record

/-- What a record holds. -/
abbrev Value : Record → Type
  | .authorities _ => List Authority
  | .currentSetId => SetId
  | .latestRound => RoundNumber
  | .precommits _ _ => List SignedVote
  | .headNumber => BlockNumber
  | .headHash => Hash
  | .headStateRoot => Hash
  | .runtimeCode => Bytes
  | .isSynced => Bool

def form : (record : Record) → Form record.Value
  | .authorities _ => Authority.form.list
  | .currentSetId => Form.word64
  | .latestRound => Form.word64
  | .precommits _ _ => SignedVote.form.list
  | .headNumber => Form.word32
  | .headHash => Hash.form
  | .headStateRoot => Hash.form
  | .runtimeCode => Form.word8.list
  | .isSynced => Form.boolean

/-- The part of the store that a record is in. -/
def space : Record → String
  | .authorities _ | .currentSetId | .latestRound | .precommits _ _ => "grandpa_state_cf"
  | .headNumber | .headHash | .headStateRoot | .runtimeCode | .isSynced => "sync_state_cf"

/-- The name of a record within its space; numbers are written without separators. -/
def name : Record → String
  | .authorities setId => "grandpa_authorities" ++ Decimal.encode setId.toNat
  | .currentSetId => "grandpa_set_id"
  | .latestRound => "grandpa_latest_round"
  | .precommits round setId =>
      "grandpa_precommits" ++ Decimal.encode round.toNat ++ Decimal.encode setId.toNat
  | .headNumber => "last_finalized_block_number"
  | .headHash => "last_finalized_block_hash"
  | .headStateRoot => "state_root"
  | .runtimeCode => "runtime_code"
  | .isSynced => "is_warp_sync_finished"

end Record

end FinalitySync
