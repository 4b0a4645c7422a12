import FinalitySync.Chain.Vote

/-!
Justifications: the signed precommits that make a block final, with the headers that link their
targets to the block.
-/

namespace FinalitySync

structure Justification where
  targetHash : Hash
  targetNumber : BlockNumber
  round : RoundNumber
  setId : SetId
  precommits : List SignedVote
  votesAncestries : List Header
deriving DecidableEq, Inhabited

namespace Justification

/-- The block that is justified, as a vote for it. -/
def target (justification : Justification) : Vote :=
  ⟨justification.targetHash, justification.targetNumber⟩

def codec : Scale.Codec Justification :=
  ((Hash.codec.component "Justification::target_hash").followedBy
    ((Scale.Codec.word32.component "Justification::target_number").followedBy
      ((Scale.Codec.word64.component "Justification::round").followedBy
        ((Scale.Codec.word64.component "Justification::set_id").followedBy
          ((SignedVote.codec.vector.component "Justification::precommits").followedBy
            (Header.codec.vector.component "Justification::votes_ancestries")))))).via
    (fun (targetHash, targetNumber, round, setId, precommits, votesAncestries) =>
      ⟨targetHash, targetNumber, round, setId, precommits, votesAncestries⟩)
    (fun justification =>
      (justification.targetHash, justification.targetNumber, justification.round,
        justification.setId, justification.precommits, justification.votesAncestries))

def form : Form Justification :=
  Form.fields
    ["target_hash", "target_number", "round", "set_id", "precommits", "votes_ancestries"]
    (fun justification =>
      [Hash.form.write justification.targetHash,
        Form.word32.write justification.targetNumber,
        Form.word64.write justification.round,
        Form.word64.write justification.setId,
        SignedVote.form.list.write justification.precommits,
        Header.form.list.write justification.votesAncestries])
    fun
      | [targetHash, targetNumber, round, setId, precommits, votesAncestries] => do
          return ⟨← Hash.form.read? targetHash, ← Form.word32.read? targetNumber,
            ← Form.word64.read? round, ← Form.word64.read? setId,
            ← SignedVote.form.list.read? precommits,
            ← Header.form.list.read? votesAncestries⟩
      | _ => none

end Justification

end FinalitySync
