import FinalitySync.Sync.Session

/-!
The stages of synchronisation: what each does to the session and which one follows it.
-/

namespace FinalitySync.Sync

/-- How synchronisation ended, and at which head. -/
inductive Finish
  | completed (block : BlockNumber)
  | aborted (block : BlockNumber) (reason : String)
deriving DecidableEq, Repr

def Finish.text : Finish → String
  | .completed block => "Warp sync completed at block " ++ Decimal.encode block.toNat
  | .aborted block reason =>
      "Warp sync failed to progress past block " ++ Decimal.encode block.toNat ++ ": " ++ reason

inductive Stage
  /-- Asks for the fragments after a final block. -/
  | requestingFragments (start : Hash)
  /-- Verifies the next fragment of the queue. -/
  | verifyingFragments
  /-- Loads the runtime code of the head. -/
  | downloadingRuntime
  | finished (finish : Finish)
deriving DecidableEq

namespace Stage

def finish? : Stage → Option Finish
  | .finished finish => some finish
  | _ => none

/-- Does what a stage is for. -/
def handle (primitives : Primitives) (session : Session) :
    Stage → Except Failure Unit × Session
  | .requestingFragments start => session.requestFragments start
  | .verifyingFragments => session.verifyNext primitives
  | .downloadingRuntime => session.downloadRuntime
  | .finished _ => (.ok (), session)

/-- The stage after one that failed: synchronisation is aborted, unless the failure is passed
on. -/
def afterFailure (session : Session) (failure : Failure) : Except Failure Stage :=
  if failure.isPassedOn then .error failure
  else .ok (.finished (.aborted session.head.number failure.message))

/-- The stage after one that succeeded. Fragments that wait are verified first; when none waits
the last page leads to the runtime code. -/
def afterSuccess (session : Session) : Stage → Except Failure Stage
  | .requestingFragments _ =>
      if !session.queue.isEmpty then .ok .verifyingFragments
      else if session.pagesEnded then .ok .downloadingRuntime
      else .error .pageWithoutFragments
  | .verifyingFragments =>
      if !session.queue.isEmpty then .ok .verifyingFragments
      else if session.pagesEnded then .ok .downloadingRuntime
      else .ok (.requestingFragments session.head.hash)
  | .downloadingRuntime => .ok (.finished (.completed session.head.number))
  | .finished finish => .ok (.finished finish)

/-- The stage after one that was handled. -/
def next (session : Session) (stage : Stage) : Except Failure Unit → Except Failure Stage
  | .error failure => afterFailure session failure
  | .ok () => afterSuccess session stage

end Stage

end FinalitySync.Sync
