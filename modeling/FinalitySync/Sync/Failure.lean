import FinalitySync.Grandpa.Message
import FinalitySync.Peer.Duration
import FinalitySync.Sync.Head

/-!
Why synchronisation does not go on. Failures of what peers and files deliver end it in an orderly
way; a broken invariant or an overflow does not.
-/

namespace FinalitySync.Sync

inductive Failure
  | timeout (limit : Duration)
  | fragmentRequest (reason : String)
  | emptyPage
  | missingFragment
  /-- The justification of a block does not make it final. -/
  | notFinal (block : BlockNumber)
  /-- A justification is for another block than the header that it came with. -/
  | targetMismatch (block target : Vote)
  | stale (cause : Head.Stale)
  | badMessage (refusal : Grandpa.Message.Refusal)
  | runtimeDownload (reason : String)
  /-- A situation that the order of the stages rules out. -/
  | invariant (description : String)
  | overflow (cause : Overflow)
deriving DecidableEq

namespace Failure

/-- Fragments were to be verified when the last page had been verified. -/
def verificationAfterEnd : Failure :=
  .invariant "justification verification entered with all fragments verified"

/-- A request succeeded that was neither the last nor delivered fragments. -/
def pageWithoutFragments : Failure :=
  .invariant "fragment request succeeded without fragments"

def blockText (block : Vote) : String :=
  "#" ++ Decimal.encode block.targetNumber.toNat ++ " (" ++ block.targetHash.text ++ ")"

def message : Failure → String
  | .timeout limit => "Fragment request timed out after " ++ limit.text
  | .fragmentRequest reason => "Fragment request failed: " ++ reason
  | .emptyPage => "Peer returned no fragments before warp sync finished"
  | .missingFragment => "No fragment left to verify"
  | .notFinal block =>
      "Justification of block #" ++ Decimal.encode block.toNat ++ " is not valid"
  | .targetMismatch block target =>
      "Justification targets block " ++ blockText target ++ " instead of " ++ blockText block
  | .stale cause => cause.message
  | .badMessage refusal => refusal.message
  | .runtimeDownload reason => "Runtime download failed: " ++ reason
  | .invariant description => "Invariant violation: " ++ description
  | .overflow cause => cause.message

def isInvariantViolation : Failure → Bool
  | .invariant _ => true
  | _ => false

/-- Whether a failure is passed on instead of ending synchronisation in an orderly way. -/
def isPassedOn : Failure → Bool
  | .invariant _ => true
  | .overflow _ => true
  | _ => false

end Failure

end FinalitySync.Sync
