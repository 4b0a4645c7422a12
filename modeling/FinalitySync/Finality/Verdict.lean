import FinalitySync.Chain.Justification
import FinalitySync.Chain.Authority
import FinalitySync.Finality.Ancestry
import FinalitySync.Finality.Quorum
import FinalitySync.Text.Decimal

/-!
Whether a justification makes its target final. Every precommit has to come from a member of the
set, to be signed for the round and the set, and to be for the target or a block that descends
from it; the members that voted without contradicting themselves have to make a quorum.
-/

namespace FinalitySync

/-- Why a justification does not make its target final. -/
inductive Objection
  | wrongSet (justified expected : SetId)
  | unknownSigner (signer : PublicKey) (setId : SetId)
  | badSignature (block : Hash) (signer : PublicKey)
  | offBranch (block target : Hash)
  | noQuorum
deriving DecidableEq

def Objection.message : Objection → String
  | .wrongSet justified expected =>
      "Justification for set " ++ Decimal.encode justified.toNat ++ " checked against set " ++
        Decimal.encode expected.toNat
  | .unknownSigner signer setId =>
      "Precommit signer " ++ signer.text ++ " is not in authority set " ++
        Decimal.encode setId.toNat
  | .badSignature block signer =>
      "Failed signature verification on block " ++ block.text ++ ", validator id: " ++ signer.text
  | .offBranch block target =>
      "Precommit for block " ++ block.text ++ " does not descend from target " ++ target.text
  | .noQuorum => "Not signed by supermajority of authority set!"

namespace Justification

/-- The votes of one signer, in order. -/
def votesOf (justification : Justification) (signer : PublicKey) : List Vote :=
  (justification.precommits.filter fun precommit => precommit.id == signer).map SignedVote.vote

def signers (justification : Justification) : List PublicKey :=
  (justification.precommits.map SignedVote.id).eraseDups

/-- Whether all votes of a signer are for one block. -/
def isConsistent (justification : Justification) (signer : PublicKey) : Bool :=
  match justification.votesOf signer with
  | [] => true
  | first :: later => later.all fun vote => vote == first

/-- The signers that count, each once: those that did not contradict themselves. -/
def countedSigners (justification : Justification) : List PublicKey :=
  justification.signers.filter justification.isConsistent

/-- The weight of the signers that count. -/
def signedWeight (justification : Justification) (authoritySet : AuthoritySet) : Nat :=
  (justification.countedSigners.map fun signer =>
    ((authoritySet.weightOf? signer).map UInt64.toNat).getD 0).foldr (· + ·) 0

/-- Objects to a precommit that cannot stand in a justification. -/
def checkPrecommit (justification : Justification) (primitives : Primitives)
    (authoritySet : AuthoritySet) (ancestry : Ancestry) (precommit : SignedVote) :
    Except Objection Unit :=
  if (authoritySet.weightOf? precommit.id).isNone then
    .error (.unknownSigner precommit.id authoritySet.setId)
  else if !precommit.isPrecommitOf primitives justification.round justification.setId then
    .error (.badSignature precommit.vote.targetHash precommit.id)
  else if justification.targetNumber ≤ precommit.vote.targetNumber &&
      ancestry.reaches precommit.vote.targetHash justification.targetHash then
    .ok ()
  else
    .error (.offBranch precommit.vote.targetHash justification.targetHash)

/-- Names the first objection, if there is one. -/
def check (justification : Justification) (primitives : Primitives)
    (authoritySet : AuthoritySet) : Except Objection Unit := do
  if authoritySet.setId ≠ justification.setId then
    throw (.wrongSet justification.setId authoritySet.setId)
  let ancestry := Ancestry.ofHeaders primitives justification.votesAncestries
  justification.precommits.forM
    (justification.checkPrecommit primitives authoritySet ancestry)
  if !Quorum.isReached (justification.signedWeight authoritySet) authoritySet.totalWeight then
    throw .noQuorum

def isFinal (justification : Justification) (primitives : Primitives)
    (authoritySet : AuthoritySet) : Bool :=
  (justification.check primitives authoritySet).toBool

end Justification

end FinalitySync
