import FinalitySync.Client.Configuration
import FinalitySync.Peer.Stored
import FinalitySync.Sync.Bootstrap

/-!
A run of the client: synchronisation over stored pages, from the configured checkpoint and with a
store of its own.
-/

namespace FinalitySync.Client

/-- Why a run does not complete. -/
inductive RunFailure
  | noAuthorities
  | unreadableFragments (path : String)
  | noPages
  /-- Neighbour messages have nowhere to wait. -/
  | noMailbox (refusal : Mailbox.Refusal)
  | aborted (finish : Sync.Finish)
  | failed (failure : Sync.Failure)
deriving DecidableEq

def RunFailure.message : RunFailure → String
  | .noAuthorities => "Checkpoint authority set is empty"
  | .unreadableFragments path => "Failed to read fragments from " ++ path
  | .noPages => Stored.noPagesMessage
  | .noMailbox refusal => refusal.message
  | .aborted finish => finish.text
  | .failed failure => (Sync.Bootstrap.failureChain failure).headD failure.message

namespace Configuration

/-- The stored pages that a run is over. -/
def pages (configuration : Configuration) (files : Files) : Except RunFailure (List Page) :=
  match (files configuration.fragmentsPath).bytes? with
  | none => .error (.unreadableFragments configuration.fragmentsPath)
  | some content =>
      match Stored.pages? content with
      | none => .error .noPages
      | some pages => .ok pages

/-- The session that a run begins with. -/
def session (configuration : Configuration) (files : Files) (pages : List Page)
    (mailbox : Mailbox) : Sync.Session :=
  Sync.Session.start configuration.settings .empty (Stored.fragmentSource pages)
    (Stored.runtimeSource configuration.runtimePath fun path => (files path).bytes?)
    configuration.checkpoint (some mailbox)

/-- Synchronises to the end and returns the session after it. -/
def run (primitives : Primitives) (configuration : Configuration) (files : Files) :
    Except RunFailure Sync.Session := do
  if configuration.checkpoint.authorities.isEmpty then
    throw .noAuthorities
  let pages ← configuration.pages files
  match Mailbox.ofCapacity configuration.settings.mailboxCapacity with
  | .error refusal => throw (.noMailbox refusal)
  | .ok mailbox =>
      match (Sync.Bootstrap.ofSession
        (configuration.session files pages mailbox)).run primitives with
      | (.ok (.completed _), session) => return session
      | (.ok (.aborted block reason), _) => throw (.aborted (.aborted block reason))
      | (.error failure, _) => throw (.failed failure)

end Configuration

end FinalitySync.Client
