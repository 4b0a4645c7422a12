import FinalitySync.Chain.Checkpoint
import FinalitySync.Chain.Header
import FinalitySync.Store.Basic

/-!
The head: the last block that is known to be final.
-/

namespace FinalitySync

structure Head where
  hash : Hash
  number : BlockNumber
  stateRoot : Hash
deriving DecidableEq, Inhabited

namespace Head

def ofCheckpoint (checkpoint : Checkpoint) : Head :=
  ⟨checkpoint.blockHash, checkpoint.blockNumber, checkpoint.stateRoot⟩

def ofHeader (primitives : Primitives) (header : Header) : Head :=
  ⟨header.hash primitives, header.number, header.stateRoot⟩

/-- A block that is not past the head, with the head's number. -/
structure Stale where
  block : BlockNumber
  last : BlockNumber
deriving DecidableEq

def Stale.message (stale : Stale) : String :=
  "Block #" ++ Decimal.encode stale.block.toNat ++ " does not extend last finalized block #" ++
    Decimal.encode stale.last.toNat

/-- Whether a block is past the head. -/
def isExtendedBy (head : Head) (number : BlockNumber) : Bool := head.number < number

/-- Refuses a block that is not past the head. -/
def ensureExtendedBy (head : Head) (number : BlockNumber) : Except Stale Unit :=
  if head.isExtendedBy number then .ok () else .error ⟨number, head.number⟩

/-- The block of a header as the next head. -/
def extend (primitives : Primitives) (head : Head) (header : Header) : Except Stale Head := do
  head.ensureExtendedBy header.number
  return ofHeader primitives header

def persist (head : Head) (store : Store) : Store :=
  ((store.put .headHash head.hash).put .headNumber head.number).put .headStateRoot head.stateRoot

/-- The head of a store that has all its parts. -/
def load? (store : Store) : Option Head := do
  let hash ← store.get? .headHash
  let number ← store.get? .headNumber
  let stateRoot ← store.get? .headStateRoot
  return ⟨hash, number, stateRoot⟩

end Head

end FinalitySync
