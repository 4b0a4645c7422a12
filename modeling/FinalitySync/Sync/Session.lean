import FinalitySync.Peer.Neighbour
import FinalitySync.Peer.Source
import FinalitySync.Sync.Ledger
import FinalitySync.Sync.Settings

/-!
A session: the ledger with the sources that fragments and runtime code come from, the fragments
that wait to be verified, and the mailbox for neighbours. Every operation returns the session after
it, also when it fails.
-/

namespace FinalitySync.Sync

structure Session where
  settings : Settings
  ledger : Ledger
  fragments : FragmentSource
  runtimes : RuntimeSource
  mailbox : Option Mailbox
  /-- Fragments that wait to be verified, in order. -/
  queue : List Fragment
  /-- Whether the last page said that no page follows. -/
  pagesEnded : Bool
  /-- Whether synchronisation was completed, now or in an earlier session. -/
  isSynced : Bool
  /-- The runtime code of the head, once it is loaded. -/
  runtimeCode : Option Bytes

namespace Session

/-- Goes on from a store, or from a checkpoint where the store has nothing. -/
def start (settings : Settings) (store : Store) (fragments : FragmentSource)
    (runtimes : RuntimeSource) (checkpoint : Checkpoint) (mailbox : Option Mailbox) : Session :=
  let ledger := Ledger.ofStore store checkpoint settings.retention
  { settings := settings
    ledger := ledger
    fragments := fragments
    runtimes := runtimes
    mailbox := mailbox
    queue := []
    pagesEnded := false
    isSynced := (ledger.store.get? .isSynced).getD false
    runtimeCode := none }

def head (session : Session) : Head := session.ledger.head

/-- What neighbours are told. -/
def neighbourMessage (session : Session) : NeighbourMessage where
  version := NeighbourMessage.currentVersion
  round := session.ledger.roster.round
  setId := session.ledger.roster.setId
  lastFinalized := session.head.number

/-- Tells neighbours how far the session has come. Returns whether the message was taken. -/
def notify (session : Session) : Bool × Session :=
  match session.mailbox with
  | none => (false, session)
  | some mailbox =>
      (mailbox.accepts, { session with mailbox := some (mailbox.send session.neighbourMessage) })

def enqueue (session : Session) (fragments : List Fragment) : Session :=
  { session with queue := session.queue ++ fragments }

def dequeue (session : Session) : Option (Fragment × Session) :=
  match session.queue with
  | [] => none
  | fragment :: queue => some (fragment, { session with queue := queue })

/-! ## Stages of synchronisation -/

/-- What a reply comes to within a time limit. A reply that arrives at the limit counts. -/
def pageWithin (limit : Duration) : PageReply → Except Failure Page
  | .never => .error (.timeout limit)
  | .arrival delay result =>
      if delay.milliseconds ≤ limit.milliseconds then
        result.mapError .fragmentRequest
      else .error (.timeout limit)

/-- Puts the fragments of a page into the queue. A page without fragments has to be the last. -/
def takePage (session : Session) (page : Page) : Except Failure Unit × Session :=
  let noted := { session with pagesEnded := page.isFinished }
  if page.fragments.isEmpty && !page.isFinished then (.error .emptyPage, noted)
  else (.ok (), noted.enqueue page.fragments)

/-- Asks for the fragments after a block. -/
def requestFragments (session : Session) (start : Hash) : Except Failure Unit × Session :=
  let (reply, fragments) := session.fragments.ask start
  let asked := { session with fragments := fragments }
  match pageWithin session.settings.requestTimeout reply with
  | .error failure => (.error failure, asked)
  | .ok page => asked.takePage page

/-- Finalizes the block of a fragment. Neighbours are told when the authority set changed after
synchronisation. -/
def accept (primitives : Primitives) (session : Session) (fragment : Fragment) :
    Except Failure Session := do
  let (hasChanged, ledger) ← session.ledger.finalize primitives fragment
  let accepted := { session with ledger := ledger }
  if hasChanged && session.isSynced then return accepted.notify.2 else return accepted

/-- Takes the first fragment out of the queue and finalizes its block. -/
def verifyNext (primitives : Primitives) (session : Session) : Except Failure Unit × Session :=
  match session.dequeue with
  | none =>
      if session.pagesEnded then (.error .verificationAfterEnd, session)
      else (.error .missingFragment, session)
  | some (fragment, taken) =>
      match taken.accept primitives fragment with
      | .error failure => (.error failure, taken)
      | .ok accepted => (.ok (), accepted)

/-- The runtime code of the store, or of the runtime source, from which it goes into the store. -/
def loadRuntimeCode (session : Session) : Except Failure Bytes × Session :=
  match session.ledger.store.get? .runtimeCode with
  | some code => (.ok code, session)
  | none =>
      let (reply, runtimes) := session.runtimes.ask (session.head.hash, session.head.stateRoot)
      let asked := { session with runtimes := runtimes }
      match reply with
      | .error reason => (.error (.runtimeDownload reason), asked)
      | .ok code =>
          let ledger := asked.ledger
          (.ok code,
            { asked with ledger := { ledger with store := ledger.store.put .runtimeCode code } })

/-- Loads the runtime code of the head, which completes synchronisation. -/
def downloadRuntime (session : Session) : Except Failure Unit × Session :=
  match session.loadRuntimeCode with
  | (.error failure, asked) => (.error failure, asked)
  | (.ok code, loaded) =>
      let ledger := loaded.ledger
      let completed := { loaded with
        ledger := { ledger with store := ledger.store.put .isSynced true }
        runtimeCode := some code
        isSynced := true }
      (.ok (), completed.notify.2)

/-- Finalizes a block that was announced with its justification. Returns whether it is a new one;
blocks up to the head are passed over. -/
def importCommit (primitives : Primitives) (session : Session) (fragment : Fragment) :
    Except Failure Bool × Session :=
  if session.head.isExtendedBy fragment.header.number then
    match session.accept primitives fragment with
    | .error failure => (.error failure, session)
    | .ok accepted => (.ok true, accepted)
  else (.ok false, session)

theorem head_notify (session : Session) : session.notify.2.head = session.head := by
  unfold notify
  split <;> rfl

theorem head_requestFragments (session : Session) (start : Hash) :
    (session.requestFragments start).2.head = session.head := by
  simp only [requestFragments, takePage]
  split
  · rfl
  · split <;> rfl

theorem head_number_lt_of_accept {primitives : Primitives} {session next : Session}
    {fragment : Fragment} (accepted : session.accept primitives fragment = .ok next) :
    session.head.number < next.head.number := by
  simp only [accept, bind, Except.bind, pure, Except.pure] at accepted
  split at accepted
  · cases accepted
  · rename_i finalized
    have raised := Ledger.number_lt_of_finalize finalized
    split at accepted <;> cases accepted
    · rw [head_notify]
      exact raised
    · exact raised

theorem head_of_dequeue {session taken : Session} {fragment : Fragment}
    (dequeued : session.dequeue = some (fragment, taken)) : taken.head = session.head := by
  unfold dequeue at dequeued
  split at dequeued <;> cases dequeued
  rfl

/-- Verifying a fragment raises the head. -/
theorem head_number_lt_of_verifyNext {primitives : Primitives} {session next : Session}
    (verified : session.verifyNext primitives = (.ok (), next)) :
    session.head.number < next.head.number := by
  simp only [verifyNext] at verified
  split at verified
  · split at verified <;> cases verified
  · rename_i dequeued
    split at verified
    · cases verified
    · rename_i accepted
      cases verified
      rw [← head_of_dequeue dequeued]
      exact head_number_lt_of_accept accepted

theorem head_of_verifyNext_error {primitives : Primitives} {session next : Session}
    {failure : Failure} (failed : session.verifyNext primitives = (.error failure, next)) :
    next.head = session.head := by
  simp only [verifyNext] at failed
  split at failed
  · split at failed <;> cases failed <;> rfl
  · rename_i dequeued
    split at failed <;> cases failed
    exact head_of_dequeue dequeued

end Session

end FinalitySync.Sync
