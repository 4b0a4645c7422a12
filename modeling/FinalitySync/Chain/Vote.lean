import FinalitySync.Chain.Header

/-!
Votes for blocks, and the bytes that a voter signs.
-/

namespace FinalitySync

/-- The block that is voted for. -/
structure Vote where
  targetHash : Hash
  targetNumber : BlockNumber
deriving DecidableEq, Inhabited

namespace Vote

def codec : Scale.Codec Vote :=
  ((Hash.codec.component "Vote::target_hash").followedBy
    (Scale.Codec.word32.component "Vote::target_number")).via
    (fun values => ⟨values.1, values.2⟩)
    (fun vote => (vote.targetHash, vote.targetNumber))

def form : Form Vote :=
  Form.fields ["target_hash", "target_number"]
    (fun vote => [Hash.form.write vote.targetHash, Form.word32.write vote.targetNumber])
    fun
      | [targetHash, targetNumber] => do
          return ⟨← Hash.form.read? targetHash, ← Form.word32.read? targetNumber⟩
      | _ => none

end Vote

/-- The vote for the block of a header. -/
def Header.vote (primitives : Primitives) (header : Header) : Vote :=
  ⟨header.hash primitives, header.number⟩

/-- The stages of a round in which authorities sign votes. -/
inductive Subround
  | prevote
  | precommit
  | primaryPropose
deriving DecidableEq, Repr

namespace Subround

def name : Subround → String
  | .prevote => "Prevote"
  | .precommit => "Precommit"
  | .primaryPropose => "PrimaryPropose"

/-- The byte in front of a signed vote. -/
def index : Subround → UInt8
  | .prevote => 0
  | .precommit => 1
  | .primaryPropose => 2

end Subround

/-- What a vote is signed as: the stage, the vote, the round and the set, each of a fixed
length. -/
def Vote.signingPayload (vote : Vote) (subround : Subround) (round : RoundNumber)
    (setId : SetId) : Bytes :=
  subround.index :: Vote.codec.encode vote ++ Scale.Codec.word64.encode round ++
    Scale.Codec.word64.encode setId

structure SignedVote where
  vote : Vote
  signature : Signature
  id : PublicKey
deriving DecidableEq, Inhabited

namespace SignedVote

def codec : Scale.Codec SignedVote :=
  ((Vote.codec.component "SignedVote::vote").followedBy
    ((Signature.codec.component "SignedVote::signature").followedBy
      (PublicKey.codec.component "SignedVote::id"))).via
    (fun (vote, signature, id) => ⟨vote, signature, id⟩)
    (fun signed => (signed.vote, signed.signature, signed.id))

def form : Form SignedVote :=
  Form.fields ["vote", "signature", "id"]
    (fun signed =>
      [Vote.form.write signed.vote, Signature.form.write signed.signature,
        PublicKey.form.write signed.id])
    fun
      | [vote, signature, id] => do
          return ⟨← Vote.form.read? vote, ← Signature.form.read? signature,
            ← PublicKey.form.read? id⟩
      | _ => none

/-- Whether the voter has signed the vote as a precommit of the given round and set. -/
def isPrecommitOf (primitives : Primitives) (signed : SignedVote) (round : RoundNumber)
    (setId : SetId) : Bool :=
  primitives.verifies signed.id (signed.vote.signingPayload .precommit round setId)
    signed.signature

end SignedVote

end FinalitySync
