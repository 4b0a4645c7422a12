import FinalitySync.Proofs.Sync.Progression

/-!
# What neighbours are told is in order

A reader takes messages out of a mailbox while a session goes on and is started again from its
store.  A started session sends to that mailbox, to another one or to none, and a message that
finds the mailbox full is lost.  What the reader has is therefore some of what was offered, in the
order in which it was offered, and as the view only goes forward, so do the messages.
-/

namespace FinalitySync

namespace Mailbox

theorem queued_send_sublist (mailbox : Mailbox) (message : NeighbourMessage) :
    (mailbox.send message).queued.Sublist (mailbox.queued ++ [message]) := by
  rw [send]
  by_cases accepted : mailbox.accepts = true
  · rw [if_pos accepted]
  · rw [if_neg accepted]
    exact List.sublist_append_left _ _

/-- Takes the first messages out. -/
def dropFront (mailbox : Mailbox) (count : Nat) : Mailbox :=
  { mailbox with queued := mailbox.queued.drop count }

end Mailbox

namespace Sync

variable {primitives : Primitives}

theorem Session.neighbourMessage_eq_of_view
    {session other : Session} (sameView : session.view = other.view) :
    session.neighbourMessage = other.neighbourMessage :=
  congrArg
    (fun view : View =>
      NeighbourMessage.mk NeighbourMessage.currentVersion view.round view.authoritySet.setId
        view.head.number)
    sameView

/-! ## A session and a reader -/

/-- A session in its stage, and one reader of what neighbours are told. -/
structure Reception where
  bootstrap : Bootstrap
  /-- The mailbox of the reader. -/
  mailbox : Mailbox
  /-- Whether the session sends to this mailbox. -/
  isLinked : Bool
  received : List NeighbourMessage

/-- Where a session that is started again sends to. -/
inductive Addressee
  | reader
  | other (mailbox : Option Mailbox)

namespace Addressee

def mailbox (own : Mailbox) : Addressee → Option Mailbox
  | .reader => some own
  | .other mailbox => mailbox

def isReader : Addressee → Bool
  | .reader => true
  | .other _ => false

end Addressee

inductive Event
  | operate (operation : Operation)
  | beginSynchronisation
  | step
  /-- A session is started again from the store. -/
  | restart (settings : Settings) (fragments : FragmentSource) (runtimes : RuntimeSource)
      (checkpoint : Checkpoint) (addressee : Addressee)
  /-- The reader takes so many messages out of the mailbox, or all if there are fewer. -/
  | read (count : Nat)
  /-- The reader goes away. -/
  | close

/-- The operation on the session, if the event is one. -/
def Event.operation? (stage : Stage) : Event → Option Operation
  | .operate operation => some operation
  | .step => stage.operation?
  | _ => none

namespace Reception

/-- The session is started from any store, and sends to an empty mailbox. -/
def start (settings : Settings) (store : Store) (fragments : FragmentSource)
    (runtimes : RuntimeSource) (checkpoint : Checkpoint) (mailbox : Mailbox) : Reception where
  bootstrap :=
    .ofSession (.start settings store fragments runtimes checkpoint (some mailbox.drain.2))
  mailbox := mailbox.drain.2
  isLinked := true
  received := []

def session (reception : Reception) : Session := reception.bootstrap.session

/-- What neighbours would be told now. -/
def message (reception : Reception) : NeighbourMessage := reception.session.neighbourMessage

/-- The session moved on, and may have sent something. -/
def withBootstrap (reception : Reception) (bootstrap : Bootstrap) : Reception where
  bootstrap := bootstrap
  mailbox :=
    if reception.isLinked then bootstrap.session.mailbox.getD reception.mailbox
    else reception.mailbox
  isLinked := reception.isLinked
  received := reception.received

/-- The reader did something with the mailbox. -/
def withMailbox (reception : Reception) (mailbox : Mailbox) : Reception where
  bootstrap :=
    { reception.bootstrap with
      session := { reception.session with
        mailbox := if reception.isLinked then some mailbox else reception.session.mailbox } }
  mailbox := mailbox
  isLinked := reception.isLinked
  received := reception.received

def follow (primitives : Primitives) (reception : Reception) : Event → Reception
  | .operate operation =>
      reception.withBootstrap
        { reception.bootstrap with session := operation.perform primitives reception.session }
  | .beginSynchronisation => reception.withBootstrap (.ofSession reception.session)
  | .step => reception.withBootstrap (reception.bootstrap.step primitives).2
  | .restart settings fragments runtimes checkpoint addressee =>
      { reception with
        bootstrap :=
          .ofSession
            (.start settings reception.session.ledger.store fragments runtimes checkpoint
              (addressee.mailbox reception.mailbox))
        isLinked := addressee.isReader }
  | .read count =>
      { reception.withMailbox (reception.mailbox.dropFront count) with
        received := reception.received ++ reception.mailbox.queued.take count }
  | .close => reception.withMailbox reception.mailbox.close

def followAll (primitives : Primitives) (reception : Reception) (events : List Event) :
    Reception :=
  events.foldl (follow primitives) reception

/-- What neighbours are offered by an event. -/
def offer? (primitives : Primitives) (reception : Reception) (event : Event) :
    Option NeighbourMessage :=
  (event.operation? reception.bootstrap.stage).bind fun operation =>
    operation.offer? primitives reception.session

/-- What neighbours are offered in the course of events, in order. -/
def offers (primitives : Primitives) (reception : Reception) :
    List Event → List NeighbourMessage
  | [] => []
  | event :: events =>
      (reception.offer? primitives event).toList ++
        (reception.follow primitives event).offers primitives events

variable {reception : Reception} {event : Event} {operation : Operation}

/-- What an event can do: operate on the session, change nothing but the stage, start the session
again, or let the reader take or drop messages. -/
inductive Moves (primitives : Primitives) (reception : Reception) (event : Event) : Prop
  | operates (operation : Operation) (bootstrap : Bootstrap)
      (isOperation : event.operation? reception.bootstrap.stage = some operation)
      (followed : reception.follow primitives event = reception.withBootstrap bootstrap)
      (performed : bootstrap.session = operation.perform primitives reception.session)
  | rests (bootstrap : Bootstrap)
      (notOperation : event.operation? reception.bootstrap.stage = none)
      (followed : reception.follow primitives event = reception.withBootstrap bootstrap)
      (sameSession : bootstrap.session = reception.session)
  | restarts (settings : Settings) (fragments : FragmentSource) (runtimes : RuntimeSource)
      (checkpoint : Checkpoint) (addressee : Addressee)
      (isRestart : event = .restart settings fragments runtimes checkpoint addressee)
  | reads (mailbox : Mailbox) (taken : List NeighbourMessage)
      (notOperation : event.operation? reception.bootstrap.stage = none)
      (followed :
        reception.follow primitives event =
          { reception.withMailbox mailbox with received := reception.received ++ taken })
      (fewer : (taken ++ mailbox.queued).Sublist reception.mailbox.queued)

theorem moves (primitives : Primitives) (reception : Reception) (event : Event) :
    reception.Moves primitives event := by
  cases event with
  | operate operation => exact .operates operation _ rfl rfl rfl
  | beginSynchronisation => exact .rests (.ofSession reception.session) rfl rfl rfl
  | step =>
      have stepped := Bootstrap.session_step primitives reception.bootstrap
      cases stage : reception.bootstrap.stage.operation? with
      | some operation =>
          rw [stage] at stepped
          exact .operates operation _ stage rfl stepped
      | none =>
          rw [stage] at stepped
          exact .rests _ stage rfl stepped
  | restart settings fragments runtimes checkpoint addressee =>
      exact .restarts settings fragments runtimes checkpoint addressee rfl
  | read count =>
      apply Moves.reads (reception.mailbox.dropFront count) (reception.mailbox.queued.take count)
        rfl rfl
      rw [Mailbox.dropFront, List.take_append_drop]
  | close =>
      apply Moves.reads reception.mailbox.close [] rfl
      · rw [List.append_nil]
        rfl
      · exact List.nil_sublist _

theorem session_follow
    (isOperation : event.operation? reception.bootstrap.stage = some operation) :
    (reception.follow primitives event).session =
      operation.perform primitives reception.session := by
  cases reception.moves primitives event with
  | operates other bootstrap isOther followed performed =>
      cases isOperation.symm.trans isOther
      rw [followed]
      exact performed
  | rests bootstrap notOperation =>
      rw [isOperation] at notOperation
      cases notOperation
  | restarts _ _ _ _ _ isRestart =>
      rw [isRestart] at isOperation
      cases isOperation
  | reads _ _ notOperation =>
      rw [isOperation] at notOperation
      cases notOperation

theorem offer?_of_operation
    (isOperation : event.operation? reception.bootstrap.stage = some operation) :
    reception.offer? primitives event = operation.offer? primitives reception.session := by
  rw [offer?, isOperation]
  rfl

theorem offer?_of_not_operation
    (notOperation : event.operation? reception.bootstrap.stage = none) :
    reception.offer? primitives event = none := by
  rw [offer?, notOperation]
  rfl

theorem isMirrored_follow (mirrored : reception.session.IsMirrored) (event : Event) :
    (reception.follow primitives event).session.IsMirrored := by
  cases reception.moves primitives event with
  | operates operation bootstrap isOperation followed performed =>
      rw [session_follow isOperation]
      exact mirrored.perform operation
  | rests bootstrap notOperation followed sameSession =>
      rw [followed, session, withBootstrap, sameSession]
      exact mirrored
  | restarts settings fragments runtimes checkpoint addressee isRestart =>
      rw [isRestart]
      exact Session.IsMirrored.started settings _ fragments runtimes checkpoint _
  | reads mailbox taken notOperation followed fewer =>
      rw [followed]
      exact ⟨mirrored.ledger, mirrored.isSynced⟩

/-- An event that is no operation leaves the view alone.  For a restart this is because the store
has what the session went by. -/
theorem message_follow_of_not_operation
    (mirrored : reception.session.IsMirrored)
    (notOperation : event.operation? reception.bootstrap.stage = none) :
    (reception.follow primitives event).message = reception.message := by
  cases reception.moves primitives event with
  | operates operation bootstrap isOperation followed performed =>
      rw [notOperation] at isOperation
      cases isOperation
  | rests bootstrap notOperation followed sameSession =>
      rw [followed]
      exact congrArg Session.neighbourMessage sameSession
  | restarts settings fragments runtimes checkpoint addressee isRestart =>
      obtain ⟨sameView, _⟩ :=
        mirrored.view_restart settings fragments runtimes checkpoint
          (addressee.mailbox reception.mailbox)
      rw [isRestart]
      exact Session.neighbourMessage_eq_of_view sameView
  | reads mailbox taken notOperation followed fewer =>
      rw [followed]
      rfl

/-- No event takes the view back. -/
theorem precedes_follow
    (primitives : Primitives) (mirrored : reception.session.IsMirrored) (event : Event) :
    reception.message.Precedes (reception.follow primitives event).message := by
  cases isOperation : event.operation? reception.bootstrap.stage with
  | some operation =>
      rw [message, message, session_follow isOperation]
      exact operation.precedes_perform primitives reception.session
  | none =>
      rw [message_follow_of_not_operation mirrored isOperation]
      exact .refl _

theorem eq_message_of_offer?
    {message : NeighbourMessage} (offered : reception.offer? primitives event = some message) :
    message = (reception.follow primitives event).message := by
  cases isOperation : event.operation? reception.bootstrap.stage with
  | some operation =>
      rw [offer?_of_operation isOperation, Operation.offer?_eq_some_iff] at offered
      rw [Reception.message, session_follow isOperation]
      exact offered.2
  | none =>
      rw [offer?_of_not_operation isOperation] at offered
      cases offered

theorem mailbox_session_follow
    (primitives : Primitives)
    (isOperation : event.operation? reception.bootstrap.stage = some operation) :
    (reception.follow primitives event).session.mailbox =
      reception.session.mailbox.map fun mailbox =>
        (reception.offer? primitives event).elim mailbox mailbox.send := by
  rw [session_follow isOperation, offer?_of_operation isOperation]
  exact Operation.mailbox_perform primitives reception.session operation

/-- A session that is left alone sends nothing. -/
theorem mailbox_of_sameSession
    {bootstrap : Bootstrap} (sameSession : bootstrap.session = reception.session) :
    bootstrap.session.mailbox =
      reception.session.mailbox.map fun mailbox =>
        (none : Option NeighbourMessage).elim mailbox mailbox.send := by
  rw [sameSession]
  simp

section Linked

variable {bootstrap : Bootstrap} {offer : Option NeighbourMessage}
variable {offered : List NeighbourMessage}
variable
  (linked : reception.isLinked = true → reception.session.mailbox = some reception.mailbox)

include linked

section Sent

variable
  (sent :
    bootstrap.session.mailbox =
      reception.session.mailbox.map fun mailbox => offer.elim mailbox mailbox.send)

include sent

/-- A session that sends to the reader sends what it offers. -/
theorem mailbox_withBootstrap :
    (reception.withBootstrap bootstrap).mailbox =
      if reception.isLinked then offer.elim reception.mailbox reception.mailbox.send
      else reception.mailbox := by
  rw [withBootstrap]
  by_cases isLinked : reception.isLinked = true
  · rw [if_pos isLinked, if_pos isLinked, sent, linked isLinked]
    rfl
  · rw [if_neg isLinked, if_neg isLinked]

theorem isLinked_withBootstrap (isLinked : reception.isLinked = true) :
    bootstrap.session.mailbox = some (reception.withBootstrap bootstrap).mailbox := by
  rw [mailbox_withBootstrap linked sent, if_pos isLinked, sent, linked isLinked]
  rfl

theorem delivered_withBootstrap
    (delivered : (reception.received ++ reception.mailbox.queued).Sublist offered) :
    (reception.received ++ (reception.withBootstrap bootstrap).mailbox.queued).Sublist
      (offered ++ offer.toList) := by
  have kept :
      (reception.received ++ reception.mailbox.queued).Sublist (offered ++ offer.toList) :=
    delivered.trans (List.sublist_append_left _ _)
  rw [mailbox_withBootstrap linked sent]
  by_cases isLinked : reception.isLinked = true
  · rw [if_pos isLinked]
    cases offer with
    | none => exact kept
    | some message =>
        have queued := reception.mailbox.queued_send_sublist message
        have appended := (List.Sublist.refl reception.received).append queued
        rw [← List.append_assoc] at appended
        exact appended.trans (delivered.append (List.Sublist.refl [message]))
  · rw [if_neg isLinked]
    exact kept

end Sent

/-- A session that sends to the reader goes on to do so until it is started again. -/
theorem isLinked_follow
    (event : Event) (isLinked : (reception.follow primitives event).isLinked = true) :
    (reception.follow primitives event).session.mailbox =
      some (reception.follow primitives event).mailbox := by
  cases reception.moves primitives event with
  | operates operation bootstrap isOperation followed performed =>
      have sent := mailbox_session_follow primitives isOperation
      rw [followed] at isLinked sent ⊢
      exact isLinked_withBootstrap linked sent isLinked
  | rests bootstrap notOperation followed sameSession =>
      have sent := mailbox_of_sameSession sameSession
      rw [followed] at isLinked ⊢
      exact isLinked_withBootstrap linked sent isLinked
  | restarts settings fragments runtimes checkpoint addressee isRestart =>
      rw [isRestart] at isLinked ⊢
      cases addressee with
      | reader => rfl
      | other mailbox => cases isLinked
  | reads mailbox taken notOperation followed fewer =>
      rw [followed] at isLinked ⊢
      exact if_pos isLinked

/-- The reader has some of what was offered, in order, and more of it may wait. -/
theorem delivered_follow
    (delivered : (reception.received ++ reception.mailbox.queued).Sublist offered)
    (event : Event) :
    ((reception.follow primitives event).received ++
        (reception.follow primitives event).mailbox.queued).Sublist
      (offered ++ (reception.offer? primitives event).toList) := by
  cases reception.moves primitives event with
  | operates operation bootstrap isOperation followed performed =>
      have sent := mailbox_session_follow primitives isOperation
      rw [followed] at sent ⊢
      exact delivered_withBootstrap linked sent delivered
  | rests bootstrap notOperation followed sameSession =>
      have sent := mailbox_of_sameSession sameSession
      rw [followed, offer?_of_not_operation notOperation]
      exact delivered_withBootstrap linked sent delivered
  | restarts settings fragments runtimes checkpoint addressee isRestart =>
      rw [isRestart]
      exact delivered.trans (List.sublist_append_left _ _)
  | reads mailbox taken notOperation followed fewer =>
      have rearranged := (List.Sublist.refl reception.received).append fewer
      rw [← List.append_assoc] at rearranged
      rw [followed]
      exact (rearranged.trans delivered).trans (List.sublist_append_left _ _)

end Linked

/-- What holds of a session in the course of events, after some messages were offered. -/
structure IsInOrder (reception : Reception) (offered : List NeighbourMessage) : Prop where
  isMirrored : reception.session.IsMirrored
  isLinked : reception.isLinked = true → reception.session.mailbox = some reception.mailbox
  delivered : (reception.received ++ reception.mailbox.queued).Sublist offered
  ordered : offered.Pairwise NeighbourMessage.Precedes
  upToDate : ∀ message ∈ offered, message.Precedes reception.message

variable {offered : List NeighbourMessage}

/-- The step: what is offered comes after all that was offered before. -/
theorem IsInOrder.follow (inOrder : reception.IsInOrder offered) (event : Event) :
    (reception.follow primitives event).IsInOrder
      (offered ++ (reception.offer? primitives event).toList) := by
  have forward := precedes_follow primitives inOrder.isMirrored event
  refine
    ⟨isMirrored_follow inOrder.isMirrored event, isLinked_follow inOrder.isLinked event,
      delivered_follow inOrder.isLinked inOrder.delivered event, ?_, ?_⟩
  · cases offering : reception.offer? primitives event with
    | none =>
        rw [Option.toList_none, List.append_nil]
        exact inOrder.ordered
    | some message =>
        have isLast := eq_message_of_offer? offering
        rw [Option.toList_some, List.pairwise_append]
        refine ⟨inOrder.ordered, List.pairwise_singleton _ _, ?_⟩
        intro earlier member later isMessage
        rw [List.mem_singleton.mp isMessage, isLast]
        exact (inOrder.upToDate earlier member).trans forward
  · intro message member
    rcases List.mem_append.mp member with wasOffered | isOffered
    · exact (inOrder.upToDate message wasOffered).trans forward
    · have offering : reception.offer? primitives event = some message :=
        Option.mem_toList.mp isOffered
      rw [eq_message_of_offer? offering]
      exact .refl _

/-- The run: so it is after any events. -/
theorem IsInOrder.followAll (inOrder : reception.IsInOrder offered) (events : List Event) :
    (reception.followAll primitives events).IsInOrder
      (offered ++ reception.offers primitives events) := by
  induction events generalizing reception offered with
  | nil =>
      rw [offers, List.append_nil]
      exact inOrder
  | cons event events inductionHypothesis =>
      rw [offers, ← List.append_assoc]
      exact inductionHypothesis (inOrder.follow event)

theorem precedes_followAll
    (primitives : Primitives) (mirrored : reception.session.IsMirrored) (events : List Event) :
    reception.message.Precedes (reception.followAll primitives events).message := by
  induction events generalizing reception with
  | nil => exact .refl _
  | cons event events inductionHypothesis =>
      exact
        (precedes_follow primitives mirrored event).trans
          (inductionHypothesis (isMirrored_follow mirrored event))

theorem isInOrder_start
    (settings : Settings) (store : Store) (fragments : FragmentSource) (runtimes : RuntimeSource)
    (checkpoint : Checkpoint) (mailbox : Mailbox) :
    (start settings store fragments runtimes checkpoint mailbox).IsInOrder [] where
  isMirrored := Session.IsMirrored.started settings store fragments runtimes checkpoint _
  isLinked := fun _ => rfl
  delivered := List.Sublist.refl []
  ordered := List.Pairwise.nil
  upToDate := fun _ member => absurd member List.not_mem_nil

/-- What one event does to the view, and what neighbours are offered by it. -/
structure GoesForward (primitives : Primitives) (reception : Reception) (event : Event) : Prop where
  /-- An accepted block raises the head.  Its header's messages are received, and the changes that
  are then due come into force in turn. -/
  accepts :
    ∀ operation fragment,
      event.operation? reception.bootstrap.stage = some operation →
        operation.Accepts primitives reception.session fragment →
          reception.message.lastFinalized <
              (reception.follow primitives event).message.lastFinalized ∧
            ∃ messages changes,
              reception.session.ledger.Enacts fragment messages changes
                (reception.follow primitives event).session.ledger.roster
  rests :
    (∀ operation fragment,
      event.operation? reception.bootstrap.stage = some operation →
        ¬ operation.Accepts primitives reception.session fragment) →
      (reception.follow primitives event).message = reception.message
  /-- The view after an event is news if synchronisation is completed, or was before and the set
  changed with an accepted block. -/
  offers_iff :
    ∀ message,
      reception.offer? primitives event = some message ↔
        ∃ operation,
          event.operation? reception.bootstrap.stage = some operation ∧
            (operation = .downloadRuntime ∧ reception.session.downloadRuntime.1 = .ok () ∨
              ∃ fragment,
                operation.Accepts primitives reception.session fragment ∧
                  reception.session.isSynced = true ∧
                    (reception.follow primitives event).message.setId ≠
                      reception.message.setId) ∧
              message = (reception.follow primitives event).message
  /-- A mailbox that the session sends to is sent what is offered and nothing else. -/
  sends :
    ∀ operation,
      event.operation? reception.bootstrap.stage = some operation →
        (reception.follow primitives event).session.mailbox =
          reception.session.mailbox.map fun mailbox =>
            (reception.offer? primitives event).elim mailbox mailbox.send

theorem goesForward (mirrored : reception.session.IsMirrored) (event : Event) :
    reception.GoesForward primitives event where
  accepts := by
    intro operation fragment isOperation accepts
    rw [message, message, session_follow isOperation]
    exact ⟨accepts.head_number_lt, accepts.exists_enacts⟩
  rests := by
    intro noneAccepted
    cases isOperation : event.operation? reception.bootstrap.stage with
    | some operation =>
        rw [message, message, session_follow isOperation]
        apply Operation.neighbourMessage_perform
        exact fun fragment => noneAccepted operation fragment isOperation
    | none => exact message_follow_of_not_operation mirrored isOperation
  offers_iff := by
    intro message
    cases isOperation : event.operation? reception.bootstrap.stage with
    | some operation =>
        rw [offer?_of_operation isOperation, Operation.offer?_eq_some_iff]
        simp only [Option.some.injEq, exists_eq_left']
        rw [Reception.message, Reception.message, session_follow isOperation]
        rfl
    | none =>
        rw [offer?_of_not_operation isOperation]
        simp
  sends := by
    intro operation isOperation
    rw [session_follow isOperation, offer?_of_operation isOperation]
    exact Operation.mailbox_perform primitives reception.session operation

/-- In the course of any events a session goes forward, also when it is started again from its
store.  What a reader receives is some of what was offered, in order, and it goes forward too. -/
theorem goesForward_and_tellsInOrder
    (primitives : Primitives) (settings : Settings) (store : Store) (fragments : FragmentSource)
    (runtimes : RuntimeSource) (checkpoint : Checkpoint) (mailbox : Mailbox)
    (events : List Event) :
    let start := start settings store fragments runtimes checkpoint mailbox
    let reached := start.followAll primitives events
    (∀ event, reached.GoesForward primitives event) ∧
      (∀ later, reached.message.Precedes (reached.followAll primitives later).message) ∧
      (reached.received ++ reached.mailbox.queued).Sublist (start.offers primitives events) ∧
      (start.offers primitives events).Pairwise NeighbourMessage.Precedes ∧
      reached.received.Pairwise NeighbourMessage.Precedes := by
  intro start reached
  have inOrder : reached.IsInOrder (start.offers primitives events) :=
    (isInOrder_start settings store fragments runtimes checkpoint mailbox).followAll events
  have received : reached.received.Sublist (start.offers primitives events) :=
    (List.sublist_append_left _ _).trans inOrder.delivered
  exact
    ⟨goesForward inOrder.isMirrored, precedes_followAll primitives inOrder.isMirrored,
      inOrder.delivered, inOrder.ordered, inOrder.ordered.sublist received⟩

end Reception

end Sync

end FinalitySync
