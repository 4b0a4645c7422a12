import FinalitySync.Proofs.Sync.Agreement

/-!
# The view only goes forward

An accepted block raises the head, and each change that it brings into force takes the next set
number and starts over with round zero.  Nothing else moves the head, the set or the round.
Neighbours are offered the view after a change of the set and after synchronisation is completed.
-/

namespace FinalitySync

namespace NeighbourMessage

/-- The head is no lower later, and neither is the set or, in the same set, the round. -/
structure Precedes (earlier later : NeighbourMessage) : Prop where
  lastFinalized : earlier.lastFinalized ≤ later.lastFinalized
  setAndRound :
    earlier.setId < later.setId ∨ earlier.setId = later.setId ∧ earlier.round ≤ later.round

theorem Precedes.refl (message : NeighbourMessage) : message.Precedes message :=
  ⟨UInt32.le_refl _, Or.inr ⟨rfl, UInt64.le_refl _⟩⟩

theorem Precedes.trans
    {earlier between later : NeighbourMessage}
    (first : earlier.Precedes between) (second : between.Precedes later) :
    earlier.Precedes later := by
  refine ⟨UInt32.le_trans first.lastFinalized second.lastFinalized, ?_⟩
  rcases first.setAndRound with lower | ⟨sameSet, notLower⟩
  · rcases second.setAndRound with lowerLater | ⟨sameLater, _⟩
    · exact Or.inl (UInt64.lt_trans lower lowerLater)
    · rw [← sameLater]
      exact Or.inl lower
  · rw [sameSet]
    rcases second.setAndRound with lowerLater | ⟨sameLater, notLowerLater⟩
    · exact Or.inl lowerLater
    · exact Or.inr ⟨sameLater, UInt64.le_trans notLower notLowerLater⟩

end NeighbourMessage

namespace Grandpa.Roster

variable {block : BlockNumber} {roster last : Roster} {changes : List Change}

/-- The number of the set tells whether any change came into force. -/
theorem EnactsInTurn.setId_eq_iff (inTurn : EnactsInTurn block roster changes last) :
    last.setId = roster.setId ↔ changes = [] := by
  have raised := inTurn.toNat_setId
  constructor
  · intro sameSet
    rw [sameSet] at raised
    exact List.length_eq_zero_iff.mp (by omega)
  · rintro rfl
    exact UInt64.toNat_inj.mp raised

theorem EnactsInTurn.notLower (inTurn : EnactsInTurn block roster changes last) :
    roster.setId < last.setId ∨ roster.setId = last.setId ∧ roster.round ≤ last.round := by
  cases inTurn with
  | nil => exact Or.inr ⟨rfl, UInt64.le_refl _⟩
  | cons _ takesNextNumber _ later =>
      have raised := later.toNat_setId
      left
      rw [UInt64.lt_iff_toNat_lt]
      omega

end Grandpa.Roster

namespace Sync

open Grandpa (Change Message Roster)

variable {primitives : Primitives}

/-- Only a later round of the current set is taken over. -/
def Ledger.roundAfter (ledger : Ledger) (justification : Justification) : RoundNumber :=
  if justification.setId = ledger.roster.setId then max ledger.roster.round justification.round
  else ledger.roster.round

theorem Ledger.round_recordRound (ledger : Ledger) (justification : Justification) :
    (ledger.recordRound justification).roster.round = ledger.roundAfter justification := by
  rw [roster_recordRound, roundAfter]
  by_cases isCurrent : justification.setId = ledger.roster.setId
  · rw [if_pos isCurrent, if_pos isCurrent]
    rfl
  · rw [if_neg isCurrent, if_neg isCurrent]

theorem Ledger.round_le_roundAfter (ledger : Ledger) (justification : Justification) :
    ledger.roster.round ≤ ledger.roundAfter justification := by
  rw [roundAfter]
  by_cases isCurrent : justification.setId = ledger.roster.setId
  · have later :
        max ledger.roster.round justification.round =
          if ledger.roster.round ≤ justification.round then justification.round
          else ledger.roster.round := rfl
    rw [if_pos isCurrent, later]
    by_cases isLater : ledger.roster.round ≤ justification.round
    · rw [if_pos isLater]
      exact isLater
    · rw [if_neg isLater]
      exact UInt64.le_refl _
  · rw [if_neg isCurrent]
    exact UInt64.le_refl _

namespace Ledger

/-- The roster in which the round of a fragment's justification is noted and the messages of its
header are received, before any change comes into force. -/
def received (ledger : Ledger) (fragment : Fragment) (messages : List Message) : Roster :=
  (ledger.recordRound fragment.justification).roster.receiveAll fragment.header.number messages

/-- How an accepted fragment leads from the roster of a ledger to the last one.  Its messages are
received in the set that votes, and then the changes that are due at its block come into force in
turn. -/
structure Enacts
    (ledger : Ledger) (fragment : Fragment) (messages : List Message) (changes : List Change)
    (last : Roster) : Prop where
  read : Message.ofHeader fragment.header = .ok messages
  sameSet : (ledger.received fragment messages).setId = ledger.roster.setId
  roundNoted :
    (ledger.received fragment messages).round = ledger.roundAfter fragment.justification
  drained :
    (ledger.received fragment messages).drain fragment.header.number = .ok (changes, last)
  inTurn : (ledger.received fragment messages).EnactsInTurn fragment.header.number changes last
  /-- The number of the set rises by one for each change. -/
  toNat_setId : last.setId.toNat = ledger.roster.setId.toNat + changes.length
  round :
    last.round = if changes.isEmpty then ledger.roundAfter fragment.justification else 0

theorem enacts_of_drain
    {ledger : Ledger} {fragment : Fragment} {messages : List Message} {changes : List Change}
    {last : Roster} (read : Message.ofHeader fragment.header = .ok messages)
    (drained :
      (ledger.received fragment messages).drain fragment.header.number = .ok (changes, last)) :
    ledger.Enacts fragment messages changes last := by
  have inTurn := Roster.drain_eq_ok_iff.mp drained
  have sameSet : (ledger.received fragment messages).setId = ledger.roster.setId :=
    setId_receiveAll_recordRound _ _ _ _
  have roundNoted :
      (ledger.received fragment messages).round = ledger.roundAfter fragment.justification := by
    rw [received, Roster.round_receiveAll, round_recordRound]
  refine ⟨read, sameSet, roundNoted, drained, inTurn, ?_, ?_⟩
  · rw [← sameSet]
    exact inTurn.toNat_setId
  · cases changes with
    | nil =>
        rw [inTurn.eq_of_nil]
        exact roundNoted
    | cons => exact inTurn.round_eq_zero (List.cons_ne_nil _ _)

end Ledger

namespace Operation

variable {session : Session} {operation : Operation} {fragment : Fragment}

/-- After a fragment was accepted, its messages were received and its changes came into force in
turn. -/
theorem Accepts.exists_enacts (accepts : operation.Accepts primitives session fragment) :
    ∃ messages changes,
      session.ledger.Enacts fragment messages changes
        (operation.perform primitives session).ledger.roster := by
  obtain ⟨messages, changes, read, drained⟩ := accepts.exists_drain
  exact ⟨messages, changes, Ledger.enacts_of_drain read drained⟩

theorem Accepts.head_number_lt (accepts : operation.Accepts primitives session fragment) :
    session.head.number < (operation.perform primitives session).head.number := by
  rw [accepts.head_perform]
  exact accepts.number_lt

theorem Accepts.precedes (accepts : operation.Accepts primitives session fragment) :
    session.neighbourMessage.Precedes
      (operation.perform primitives session).neighbourMessage := by
  obtain ⟨messages, changes, enacts⟩ := accepts.exists_enacts
  refine ⟨UInt32.le_of_lt accepts.head_number_lt, ?_⟩
  have notLower := enacts.inTurn.notLower
  rw [enacts.sameSet, enacts.roundNoted] at notLower
  rcases notLower with raised | ⟨same, later⟩
  · exact Or.inl raised
  · exact Or.inr ⟨same, UInt64.le_trans (Ledger.round_le_roundAfter _ _) later⟩

/-- Without an accepted fragment the view is the same. -/
theorem neighbourMessage_perform
    (noneAccepted : ∀ fragment, ¬ operation.Accepts primitives session fragment) :
    (operation.perform primitives session).neighbourMessage = session.neighbourMessage := by
  rcases perform_cases primitives session operation with
    ⟨fragment, _, accepts, _⟩ | ⟨sameHead, sameRoster⟩
  · exact absurd accepts (noneAccepted fragment)
  · rw [Session.neighbourMessage, sameHead, sameRoster]
    rfl

/-- The step: no operation takes the view back. -/
theorem precedes_perform (primitives : Primitives) (session : Session) (operation : Operation) :
    session.neighbourMessage.Precedes
      (operation.perform primitives session).neighbourMessage := by
  by_cases someAccepted : ∃ fragment, operation.Accepts primitives session fragment
  · obtain ⟨fragment, accepts⟩ := someAccepted
    exact accepts.precedes
  · rw [neighbourMessage_perform (not_exists.mp someAccepted)]
    exact .refl _

/-! ## What an operation offers to neighbours -/

/-- Whether an operation completes synchronisation. -/
def completes (session : Session) : Operation → Bool
  | .downloadRuntime => session.downloadRuntime.1.isOk
  | _ => false

/-- Whether an operation accepts a block, after synchronisation, that changes the set. -/
def changesSet (primitives : Primitives) (session : Session) (operation : Operation) : Bool :=
  (operation.acceptedHeader? primitives session).isSome && session.isSynced &&
    (operation.perform primitives session).ledger.roster.setId != session.ledger.roster.setId

/-- What neighbours are offered: the view after the operation, if it is news to them. -/
def offer? (primitives : Primitives) (session : Session) (operation : Operation) :
    Option NeighbourMessage :=
  if operation.completes session || operation.changesSet primitives session then
    some (operation.perform primitives session).neighbourMessage
  else none

theorem completes_iff :
    operation.completes session = true ↔
      operation = .downloadRuntime ∧ session.downloadRuntime.1 = .ok () := by
  cases operation with
  | downloadRuntime =>
      rw [completes]
      cases session.downloadRuntime.1 with
      | error failure => simp [Except.isOk, Except.toBool]
      | ok => simp [Except.isOk, Except.toBool]
  | enqueue fragments => simp [completes]
  | requestFragments start => simp [completes]
  | verifyNext => simp [completes]
  | importCommit fragment => simp [completes]

theorem isSome_acceptedHeader?_iff :
    (operation.acceptedHeader? primitives session).isSome = true ↔
      ∃ fragment, operation.Accepts primitives session fragment := by
  rw [Option.isSome_iff_exists]
  constructor
  · rintro ⟨header, accepted⟩
    obtain ⟨fragment, accepts, _⟩ := exists_accepts_of_acceptedHeader? accepted
    exact ⟨fragment, accepts⟩
  · rintro ⟨fragment, accepts⟩
    exact ⟨fragment.header, accepts.acceptedHeader?_eq⟩

theorem changesSet_iff :
    operation.changesSet primitives session = true ↔
      ∃ fragment,
        operation.Accepts primitives session fragment ∧ session.isSynced = true ∧
          (operation.perform primitives session).ledger.roster.setId ≠
            session.ledger.roster.setId := by
  rw [changesSet, Bool.and_eq_true, Bool.and_eq_true, isSome_acceptedHeader?_iff, bne_iff_ne]
  constructor
  · rintro ⟨⟨⟨fragment, accepts⟩, isSynced⟩, otherSet⟩
    exact ⟨fragment, accepts, isSynced, otherSet⟩
  · rintro ⟨fragment, accepts, isSynced, otherSet⟩
    exact ⟨⟨⟨fragment, accepts⟩, isSynced⟩, otherSet⟩

theorem offer?_eq_some_iff {message : NeighbourMessage} :
    operation.offer? primitives session = some message ↔
      (operation = .downloadRuntime ∧ session.downloadRuntime.1 = .ok () ∨
        ∃ fragment,
          operation.Accepts primitives session fragment ∧ session.isSynced = true ∧
            (operation.perform primitives session).ledger.roster.setId ≠
              session.ledger.roster.setId) ∧
        message = (operation.perform primitives session).neighbourMessage := by
  rw [offer?, Option.ite_none_right_eq_some, Bool.or_eq_true, completes_iff, changesSet_iff,
    Option.some_inj, eq_comm (a := message)]

end Operation

namespace Ledger

/-- Finalization says that the set changed exactly if it has another number. -/
theorem hasChanged_iff_of_finalize
    {ledger next : Ledger} {fragment : Fragment} {hasChanged : Bool}
    (finalized : ledger.finalize primitives fragment = .ok (hasChanged, next)) :
    hasChanged = true ↔ next.roster.setId ≠ ledger.roster.setId := by
  obtain ⟨messages, _, applied⟩ := finalize_eq_ok_iff.mp finalized
  let recorded := (ledger.advance primitives fragment.header).recordRound fragment.justification
  have sameSet :
      (recorded.roster.receiveAll fragment.header.number messages).setId =
        ledger.roster.setId :=
    setId_receiveAll_recordRound (ledger.advance primitives fragment.header)
      fragment.justification fragment.header.number messages
  rw [applyMessages] at applied
  cases drained :
      (recorded.roster.receiveAll fragment.header.number messages).drain
        fragment.header.number with
  | error overflow =>
      rw [drained] at applied
      cases applied
  | ok outcome =>
      obtain ⟨changes, last⟩ := outcome
      have isNone := (Roster.drain_eq_ok_iff.mp drained).setId_eq_iff
      rw [sameSet] at isNone
      rw [drained] at applied
      cases changes with
      | nil =>
          cases applied
          simp [isNone]
      | cons change changes =>
          cases applied
          simp [isNone]

end Ledger

namespace Session

variable {session : Session} {fragment : Fragment} {hasChanged : Bool} {next : Ledger}

theorem neighbourMessage_notify (session : Session) :
    session.notify.2.neighbourMessage = session.neighbourMessage := by
  obtain ⟨mailbox, notified⟩ := session.exists_mailbox_notify
  rw [notified]
  rfl

theorem mailbox_notify (session : Session) :
    session.notify.2.mailbox =
      session.mailbox.map fun mailbox => mailbox.send session.neighbourMessage := by
  rw [notify]
  cases found : session.mailbox with
  | none => exact found
  | some mailbox => rfl

theorem mailbox_requestFragments (session : Session) (start : Hash) :
    (session.requestFragments start).2.mailbox = session.mailbox := by
  simp only [requestFragments, takePage]
  split
  · rfl
  · split <;> rfl

/-- The session after a block was accepted, with or without a change of the set. -/
def accepting (session : Session) (hasChanged : Bool) (next : Ledger) : Session :=
  let accepted := { session with ledger := next }
  if hasChanged && session.isSynced then accepted.notify.2 else accepted

theorem accept_eq
    (finalized : session.ledger.finalize primitives fragment = .ok (hasChanged, next)) :
    session.accept primitives fragment = .ok (session.accepting hasChanged next) := by
  rw [accept, finalized, accepting]
  simp only [bind, Except.bind, pure, Except.pure]
  split <;> rfl

theorem ledger_accepting (session : Session) (hasChanged : Bool) (next : Ledger) :
    (session.accepting hasChanged next).ledger = next := by
  rw [accepting]
  by_cases isTold : (hasChanged && session.isSynced) = true
  · obtain ⟨mailbox, notified⟩ := Session.exists_mailbox_notify { session with ledger := next }
    rw [if_pos isTold, notified]
  · rw [if_neg isTold]

theorem mailbox_accepting (session : Session) (hasChanged : Bool) (next : Ledger) :
    (session.accepting hasChanged next).mailbox =
      if hasChanged && session.isSynced then
        session.mailbox.map fun mailbox =>
          mailbox.send (session.accepting hasChanged next).neighbourMessage
      else session.mailbox := by
  rw [accepting]
  by_cases isTold : (hasChanged && session.isSynced) = true
  · rw [if_pos isTold, if_pos isTold, mailbox_notify, neighbourMessage_notify]
  · rw [if_neg isTold, if_neg isTold]

/-- What completing synchronisation does to the mailbox. -/
theorem mailbox_downloadRuntime (session : Session) :
    session.downloadRuntime.2.mailbox =
      if session.downloadRuntime.1.isOk then
        session.mailbox.map fun mailbox =>
          mailbox.send session.downloadRuntime.2.neighbourMessage
      else session.mailbox := by
  cases saved : session.ledger.store.get? .runtimeCode with
  | some code =>
      simp only [downloadRuntime, loadRuntimeCode, saved, mailbox_notify, neighbourMessage_notify]
      rfl
  | none =>
      cases fetched : (session.runtimes.ask (session.head.hash, session.head.stateRoot)).1 with
      | error reason =>
          simp only [downloadRuntime, loadRuntimeCode, saved, fetched]
          rfl
      | ok code =>
          simp only [downloadRuntime, loadRuntimeCode, saved, fetched, mailbox_notify,
            neighbourMessage_notify]
          rfl

end Session

namespace Operation

variable {session : Session} {operation : Operation} {fragment : Fragment}

/-- The session after an accepted fragment. -/
theorem Accepts.exists_perform_eq (accepts : operation.Accepts primitives session fragment) :
    ∃ hasChanged next queue,
      session.ledger.finalize primitives fragment = .ok (hasChanged, next) ∧
        operation.perform primitives session =
          { session with queue := queue }.accepting hasChanged next := by
  obtain ⟨⟨hasChanged, next⟩, finalized⟩ := accepts.exists_finalize
  cases accepts with
  | verifyNext queued succeeded =>
      rename_i rest
      refine ⟨hasChanged, next, rest, finalized, ?_⟩
      have accepted :
          Session.accept primitives { session with queue := rest } fragment =
            .ok ({ session with queue := rest }.accepting hasChanged next) :=
        Session.accept_eq finalized
      rw [perform, Session.verifyNext, Session.dequeue, queued]
      simp only [accepted]
  | importCommit succeeded =>
      refine ⟨hasChanged, next, session.queue, finalized, ?_⟩
      have extendsHead : session.head.isExtendedBy fragment.header.number = true := by
        have raised := Ledger.number_lt_of_finalize finalized
        rw [Ledger.head_of_finalize finalized] at raised
        exact decide_eq_true raised
      rw [perform, Session.importCommit, if_pos extendsHead, Session.accept_eq finalized]

/-- Without an accepted fragment or completed synchronisation the mailbox is left alone. -/
theorem mailbox_perform_of_rests
    (notCompleted : operation.completes session = false)
    (noneAccepted : ∀ fragment, ¬ operation.Accepts primitives session fragment) :
    (operation.perform primitives session).mailbox = session.mailbox := by
  cases operation with
  | enqueue fragments => rfl
  | requestFragments start => exact Session.mailbox_requestFragments session start
  | downloadRuntime =>
      rw [completes] at notCompleted
      rw [perform, Session.mailbox_downloadRuntime, notCompleted]
      rfl
  | verifyNext =>
      rw [perform, Session.verifyNext]
      cases queued : session.queue with
      | nil =>
          simp only [Session.dequeue, queued]
          split <;> rfl
      | cons fragment rest =>
          cases finalized : session.ledger.finalize primitives fragment with
          | error failure =>
              rw [← Session.verifyNext, Session.verifyNext_of_finalize_error queued finalized]
          | ok outcome =>
              obtain ⟨hasChanged, next⟩ := outcome
              obtain ⟨mailbox, verified⟩ := Session.verifyNext_of_finalize_ok queued finalized
              have succeeded : (session.verifyNext primitives).1 = .ok () := by
                rw [verified]
              exact absurd (.verifyNext queued succeeded) (noneAccepted fragment)
  | importCommit fragment =>
      by_cases extendsHead : session.head.number < fragment.header.number
      · cases finalized : session.ledger.finalize primitives fragment with
        | error failure =>
            rw [perform, Session.importCommit_of_finalize_error extendsHead finalized]
        | ok outcome =>
            obtain ⟨hasChanged, next⟩ := outcome
            obtain ⟨mailbox, imported⟩ :=
              Session.importCommit_of_finalize_ok extendsHead finalized
            have succeeded : (session.importCommit primitives fragment).1 = .ok true := by
              rw [imported]
            exact absurd (.importCommit succeeded) (noneAccepted fragment)
      · have passedOver : ¬ session.head.isExtendedBy fragment.header.number = true := by
          rw [Head.isExtendedBy, decide_eq_true_iff]
          exact extendsHead
        rw [perform, Session.importCommit, if_neg passedOver]

/-- A reader of the mailbox is sent exactly what is offered. -/
theorem mailbox_perform (primitives : Primitives) (session : Session) (operation : Operation) :
    (operation.perform primitives session).mailbox =
      session.mailbox.map fun mailbox =>
        (operation.offer? primitives session).elim mailbox mailbox.send := by
  cases offered : operation.offer? primitives session with
  | some message =>
      obtain ⟨isNews, rfl⟩ := offer?_eq_some_iff.mp offered
      rcases isNews with ⟨rfl, succeeded⟩ | ⟨fragment, accepts, isSynced, otherSet⟩
      · have isOk : session.downloadRuntime.1.isOk = true := by
          rw [succeeded]
          rfl
        rw [perform, Session.mailbox_downloadRuntime, if_pos isOk]
        rfl
      · obtain ⟨hasChanged, next, queue, finalized, performed⟩ := accepts.exists_perform_eq
        rw [performed, Session.ledger_accepting] at otherSet
        have isTold : (hasChanged && session.isSynced) = true := by
          rw [Bool.and_eq_true]
          exact ⟨(Ledger.hasChanged_iff_of_finalize finalized).mpr otherSet, isSynced⟩
        rw [performed, Session.mailbox_accepting, if_pos isTold]
        rfl
  | none =>
      have noNews :
          ¬ (operation.completes session || operation.changesSet primitives session) = true := by
        intro isNews
        rw [offer?, if_pos isNews] at offered
        cases offered
      rw [Bool.or_eq_true, not_or, Bool.not_eq_true] at noNews
      obtain ⟨notCompleted, keepsSet⟩ := noNews
      have untouched : (operation.perform primitives session).mailbox = session.mailbox := by
        by_cases someAccepted : ∃ fragment, operation.Accepts primitives session fragment
        · obtain ⟨fragment, accepts⟩ := someAccepted
          obtain ⟨hasChanged, next, queue, finalized, performed⟩ := accepts.exists_perform_eq
          have notTold : ¬ (hasChanged && session.isSynced) = true := by
            rw [Bool.and_eq_true]
            rintro ⟨changed, isSynced⟩
            have otherSet := (Ledger.hasChanged_iff_of_finalize finalized).mp changed
            rw [← Session.ledger_accepting { session with queue := queue } hasChanged next,
              ← performed] at otherSet
            exact keepsSet (changesSet_iff.mpr ⟨fragment, accepts, isSynced, otherSet⟩)
          rw [performed, Session.mailbox_accepting, if_neg notTold]
        · exact mailbox_perform_of_rests notCompleted (not_exists.mp someAccepted)
      rw [untouched]
      simp

end Operation

end Sync

end FinalitySync
