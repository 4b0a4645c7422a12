import FinalitySync.Chain.Basic
import FinalitySync.Scale.Codec
import FinalitySync.Text.Decimal

/-!
Neighbour messages: what a node tells its peers about how far it has come, and the bounded mailbox
that such messages wait in.
-/

namespace FinalitySync

structure NeighbourMessage where
  version : UInt8
  round : RoundNumber
  setId : SetId
  lastFinalized : BlockNumber
deriving DecidableEq, Inhabited

namespace NeighbourMessage

/-- The version of messages that are sent. -/
def currentVersion : UInt8 := 1

def codec : Scale.Codec NeighbourMessage :=
  ((Scale.Codec.word8.component "NeighbourMessage::version").followedBy
    ((Scale.Codec.word64.component "NeighbourMessage::round").followedBy
      ((Scale.Codec.word64.component "NeighbourMessage::set_id").followedBy
        (Scale.Codec.word32.component "NeighbourMessage::last_finalized")))).via
    (fun (version, round, setId, lastFinalized) => ⟨version, round, setId, lastFinalized⟩)
    (fun message => (message.version, message.round, message.setId, message.lastFinalized))

end NeighbourMessage

/-- Messages that wait for a reader. A message that finds the mailbox full or without a reader is
dropped. -/
structure Mailbox where
  capacity : Nat
  capacity_pos : 0 < capacity
  /-- Oldest first. -/
  queued : List NeighbourMessage
  hasReader : Bool
deriving DecidableEq

namespace Mailbox

/-- How many messages a mailbox may hold at most. -/
def largestCapacity : Nat := 2305843009213693951

/-- Why there is no mailbox of a capacity. -/
inductive Refusal
  | noRoom
  | tooMuchRoom
deriving DecidableEq

def Refusal.message : Refusal → String
  | .noRoom => "mpsc bounded channel requires buffer > 0"
  | .tooMuchRoom =>
      "a semaphore may not have more than MAX_PERMITS permits (" ++
        Decimal.encode largestCapacity ++ ")"

/-- An empty mailbox. -/
def ofCapacity (capacity : Nat) : Except Refusal Mailbox :=
  if capacity_pos : 0 < capacity then
    if capacity ≤ largestCapacity then .ok ⟨capacity, capacity_pos, [], true⟩
    else .error .tooMuchRoom
  else .error .noRoom

def accepts (mailbox : Mailbox) : Bool :=
  mailbox.hasReader && mailbox.queued.length < mailbox.capacity

def send (mailbox : Mailbox) (message : NeighbourMessage) : Mailbox :=
  if mailbox.accepts then { mailbox with queued := mailbox.queued ++ [message] } else mailbox

/-- Takes all messages out. -/
def drain (mailbox : Mailbox) : List NeighbourMessage × Mailbox :=
  (mailbox.queued, { mailbox with queued := [] })

/-- The reader goes away with what waited for it. -/
def close (mailbox : Mailbox) : Mailbox :=
  { mailbox with queued := [], hasReader := false }

end Mailbox

end FinalitySync
