import FinalitySync.Proofs.Grandpa.Announcement
import FinalitySync.Proofs.Grandpa.Digest
import FinalitySync.Proofs.Grandpa.Enactment
import FinalitySync.Proofs.Grandpa.Succession
import FinalitySync.Proofs.Store.Records
import FinalitySync.Sync.Session

/-!
# Acceptance is exact and atomic

A fragment is accepted exactly if four conditions hold.  If one fails, the first that does gives
the failure and nothing of the ledger changes, neither in memory nor in the store.
-/

namespace FinalitySync.Sync

open Grandpa (Message)

namespace Ledger

/-- What makes a fragment acceptable, in the order in which it is checked. -/
structure Accepts (primitives : Primitives) (ledger : Ledger) (fragment : Fragment) : Prop where
  extendsHead : ledger.head.number < fragment.header.number
  hitsTarget :
    fragment.justification.targetHash = fragment.header.hash primitives ∧
      fragment.justification.targetNumber = fragment.header.number
  isJustified :
    ∃ authoritySet,
      ledger.roster.Knows fragment.justification.setId authoritySet ∧
        fragment.justification.check primitives authoritySet = .ok ()
  isReadable : Message.IsReadable fragment.header

/-- The failure of the first condition that does not hold. -/
inductive Refuses (primitives : Primitives) (ledger : Ledger) (fragment : Fragment) :
    Failure → Prop
  | stale
      (behind : fragment.header.number ≤ ledger.head.number) :
      Refuses primitives ledger fragment (.stale ⟨fragment.header.number, ledger.head.number⟩)
  | targetMismatch
      (extendsHead : ledger.head.number < fragment.header.number)
      (missesTarget :
        fragment.justification.targetHash ≠ fragment.header.hash primitives ∨
          fragment.justification.targetNumber ≠ fragment.header.number) :
      Refuses primitives ledger fragment
        (.targetMismatch
          ⟨fragment.header.hash primitives, fragment.header.number⟩
          ⟨fragment.justification.targetHash, fragment.justification.targetNumber⟩)
  | unknownSet
      (extendsHead : ledger.head.number < fragment.header.number)
      (hitsTarget :
        fragment.justification.targetHash = fragment.header.hash primitives ∧
          fragment.justification.targetNumber = fragment.header.number)
      (unknown :
        ∀ authoritySet ∈ ledger.roster.known,
          authoritySet.setId ≠ fragment.justification.setId) :
      Refuses primitives ledger fragment (.notFinal fragment.header.number)
  | notFinal
      (extendsHead : ledger.head.number < fragment.header.number)
      (hitsTarget :
        fragment.justification.targetHash = fragment.header.hash primitives ∧
          fragment.justification.targetNumber = fragment.header.number)
      {authoritySet : AuthoritySet}
      (known : ledger.roster.Knows fragment.justification.setId authoritySet)
      {objection : Objection}
      (objected : fragment.justification.check primitives authoritySet = .error objection) :
      Refuses primitives ledger fragment (.notFinal fragment.header.number)
  | badMessage
      (extendsHead : ledger.head.number < fragment.header.number)
      (hitsTarget :
        fragment.justification.targetHash = fragment.header.hash primitives ∧
          fragment.justification.targetNumber = fragment.header.number)
      (isJustified :
        ∃ authoritySet,
          ledger.roster.Knows fragment.justification.setId authoritySet ∧
            fragment.justification.check primitives authoritySet = .ok ())
      {refusal : Message.Refusal}
      (unreadable : Message.IsUnreadable fragment.header refusal) :
      Refuses primitives ledger fragment (.badMessage refusal)

/-- The numbers of sets suffice for the changes that the messages of a header bring into force. -/
def HasRoomFor (ledger : Ledger) (fragment : Fragment) : Prop :=
  ∀ messages,
    Message.ofHeader fragment.header = .ok messages →
      ledger.roster.setId.toNat +
        ((ledger.roster.receiveAll fragment.header.number messages).agenda.enacted
          fragment.header.number).length < 2 ^ 64

/-- Set numbers last as long as they outnumber the changes that were announced. -/
theorem HasRoomFor.of_lt
    {ledger : Ledger} {fragment : Fragment}
    (lasting :
      ledger.roster.setId.toNat + ledger.roster.agenda.size +
        (fragment.header.consensusLogs Message.engine).length < 2 ^ 64) :
    ledger.HasRoomFor fragment := by
  intro messages read
  have sameLength := Message.length_of_ofHeader read
  have received :=
    Grandpa.Roster.size_agenda_receiveAll_le ledger.roster fragment.header.number messages
  have enacted :=
    Grandpa.Agenda.length_enacted_le
      (ledger.roster.receiveAll fragment.header.number messages).agenda fragment.header.number
  omega

variable {primitives : Primitives} {ledger : Ledger} {fragment : Fragment}

theorem isJustified_iff {roster : Grandpa.Roster} {justification : Justification} :
    Ledger.isJustified primitives roster justification = true ↔
      ∃ authoritySet,
        roster.Knows justification.setId authoritySet ∧
          justification.check primitives authoritySet = .ok () := by
  simp only [Ledger.isJustified, ← Grandpa.Roster.setFor?_eq_some_iff_knows]
  cases known : roster.setFor? justification.setId with
  | none => simp
  | some authoritySet =>
      cases checked : justification.check primitives authoritySet <;>
        simp [Justification.isFinal, checked, Except.toBool]

theorem approve_of_stale (behind : fragment.header.number ≤ ledger.head.number) :
    ledger.approve primitives fragment =
      .error (.stale ⟨fragment.header.number, ledger.head.number⟩) := by
  have notExtended : ledger.head.isExtendedBy fragment.header.number = false :=
    decide_eq_false (UInt32.not_lt.mpr behind)
  rw [approve, Head.ensureExtendedBy, notExtended]
  rfl

theorem target_eq_vote_iff :
    fragment.justification.target = fragment.header.vote primitives ↔
      fragment.justification.targetHash = fragment.header.hash primitives ∧
        fragment.justification.targetNumber = fragment.header.number := by
  simp [Justification.target, Header.vote]

theorem approve_of_missesTarget
    (extendsHead : ledger.head.number < fragment.header.number)
    (missesTarget :
      fragment.justification.targetHash ≠ fragment.header.hash primitives ∨
        fragment.justification.targetNumber ≠ fragment.header.number) :
    ledger.approve primitives fragment =
      .error (.targetMismatch
        ⟨fragment.header.hash primitives, fragment.header.number⟩
        ⟨fragment.justification.targetHash, fragment.justification.targetNumber⟩) := by
  have otherTarget : fragment.justification.target ≠ fragment.header.vote primitives := by
    rw [Ne, target_eq_vote_iff, not_and_or]
    exact missesTarget
  have extended : ledger.head.isExtendedBy fragment.header.number = true :=
    decide_eq_true extendsHead
  rw [approve, Head.ensureExtendedBy, extended]
  simp only [if_true, otherTarget, ne_eq, not_false_eq_true]
  rfl

theorem approve_of_hitsTarget
    (extendsHead : ledger.head.number < fragment.header.number)
    (hitsTarget :
      fragment.justification.targetHash = fragment.header.hash primitives ∧
        fragment.justification.targetNumber = fragment.header.number) :
    ledger.approve primitives fragment =
      if Ledger.isJustified primitives ledger.roster fragment.justification then
        (Message.ofHeader fragment.header).mapError .badMessage
      else .error (.notFinal fragment.header.number) := by
  have sameTarget := target_eq_vote_iff.mpr hitsTarget
  have extended : ledger.head.isExtendedBy fragment.header.number = true :=
    decide_eq_true extendsHead
  rw [approve, Head.ensureExtendedBy, extended]
  simp only [if_true, sameTarget, ne_eq, not_true_eq_false, if_false]
  cases Ledger.isJustified primitives ledger.roster fragment.justification <;> rfl

theorem approve_of_not_isJustified
    (extendsHead : ledger.head.number < fragment.header.number)
    (hitsTarget :
      fragment.justification.targetHash = fragment.header.hash primitives ∧
        fragment.justification.targetNumber = fragment.header.number)
    (unjustified :
      ¬ ∃ authoritySet,
        ledger.roster.Knows fragment.justification.setId authoritySet ∧
          fragment.justification.check primitives authoritySet = .ok ()) :
    ledger.approve primitives fragment = .error (.notFinal fragment.header.number) := by
  rw [← isJustified_iff] at unjustified
  rw [approve_of_hitsTarget extendsHead hitsTarget, if_neg unjustified]

/-- An acceptable fragment is approved with the messages of its header. -/
theorem approve_of_accepts (accepts : ledger.Accepts primitives fragment) :
    ∃ messages,
      ledger.approve primitives fragment = .ok messages ∧
        Message.ofHeader fragment.header = .ok messages := by
  obtain ⟨messages, read⟩ := Message.exists_ofHeader_eq_ok_iff.mpr accepts.isReadable
  refine ⟨messages, ?_, read⟩
  rw [approve_of_hitsTarget accepts.extendsHead accepts.hitsTarget,
    if_pos (isJustified_iff.mpr accepts.isJustified), read]
  rfl

theorem approve_of_refuses
    {failure : Failure} (refuses : ledger.Refuses primitives fragment failure) :
    ledger.approve primitives fragment = .error failure := by
  cases refuses with
  | stale behind => exact approve_of_stale behind
  | targetMismatch extendsHead missesTarget =>
      exact approve_of_missesTarget extendsHead missesTarget
  | unknownSet extendsHead hitsTarget unknown =>
      apply approve_of_not_isJustified extendsHead hitsTarget
      rintro ⟨authoritySet, known, _⟩
      exact unknown authoritySet known.isKnown known.sameId
  | notFinal extendsHead hitsTarget known objected =>
      apply approve_of_not_isJustified extendsHead hitsTarget
      rintro ⟨otherSet, knownOther, checked⟩
      rw [known.unique knownOther, checked] at objected
      cases objected
  | badMessage extendsHead hitsTarget isJustified unreadable =>
      rw [approve_of_hitsTarget extendsHead hitsTarget,
        if_pos (isJustified_iff.mpr isJustified), Message.ofHeader_eq_error_iff.mpr unreadable]
      rfl

/-- A fragment is acceptable or refused. -/
theorem accepts_or_refuses (primitives : Primitives) (ledger : Ledger) (fragment : Fragment) :
    ledger.Accepts primitives fragment ∨
      ∃ failure, ledger.Refuses primitives fragment failure := by
  by_cases extendsHead : ledger.head.number < fragment.header.number
  · by_cases hitsTarget :
        fragment.justification.targetHash = fragment.header.hash primitives ∧
          fragment.justification.targetNumber = fragment.header.number
    · cases found : ledger.roster.setFor? fragment.justification.setId with
      | none =>
          have unknown := Grandpa.Roster.setFor?_eq_none_iff.mp found
          exact Or.inr ⟨_, .unknownSet extendsHead hitsTarget unknown⟩
      | some authoritySet =>
          have known := Grandpa.Roster.setFor?_eq_some_iff_knows.mp found
          cases checked : fragment.justification.check primitives authoritySet with
          | error objection => exact Or.inr ⟨_, .notFinal extendsHead hitsTarget known checked⟩
          | ok =>
              have isJustified :
                  ∃ authoritySet,
                    ledger.roster.Knows fragment.justification.setId authoritySet ∧
                      fragment.justification.check primitives authoritySet = .ok () :=
                ⟨authoritySet, known, checked⟩
              cases read : Message.ofHeader fragment.header with
              | error refusal =>
                  have unreadable := Message.ofHeader_eq_error_iff.mp read
                  exact Or.inr ⟨_, .badMessage extendsHead hitsTarget isJustified unreadable⟩
              | ok messages =>
                  have isReadable := Message.exists_ofHeader_eq_ok_iff.mp ⟨messages, read⟩
                  exact Or.inl ⟨extendsHead, hitsTarget, isJustified, isReadable⟩
    · exact Or.inr ⟨_, .targetMismatch extendsHead (not_and_or.mp hitsTarget)⟩
  · exact Or.inr ⟨_, .stale (UInt32.not_lt.mp extendsHead)⟩

/-- Only an acceptable fragment is approved. -/
theorem accepts_of_approve
    {messages : List Message} (approved : ledger.approve primitives fragment = .ok messages) :
    ledger.Accepts primitives fragment ∧ Message.ofHeader fragment.header = .ok messages := by
  rcases accepts_or_refuses primitives ledger fragment with accepts | ⟨failure, refuses⟩
  · obtain ⟨others, approvedOthers, read⟩ := approve_of_accepts accepts
    cases approved.symm.trans approvedOthers
    exact ⟨accepts, read⟩
  · rw [approve_of_refuses refuses] at approved
    cases approved

theorem finalize_of_refuses
    {failure : Failure} (refuses : ledger.Refuses primitives fragment failure) :
    ledger.finalize primitives fragment = .error failure := by
  rw [finalize, approve_of_refuses refuses]
  rfl

theorem roster_recordRound (ledger : Ledger) (justification : Justification) :
    (ledger.recordRound justification).roster =
      if justification.setId = ledger.roster.setId then
        ledger.roster.noteRound justification.round
      else ledger.roster := by
  unfold recordRound
  split <;> rfl

/-- A finalized fragment was approved, and its messages were handed over before due changes came
into force. -/
theorem exists_drain_of_finalize
    {next : Ledger} {hasChanged : Bool}
    (finalized : ledger.finalize primitives fragment = .ok (hasChanged, next)) :
    ∃ messages changes,
      ledger.approve primitives fragment = .ok messages ∧
        ((ledger.recordRound fragment.justification).roster.receiveAll
          fragment.header.number messages).drain fragment.header.number =
            .ok (changes, next.roster) := by
  obtain ⟨messages, approved, applied⟩ := finalize_eq_ok_iff.mp finalized
  have sameRoster :
      ((ledger.advance primitives fragment.header).recordRound fragment.justification).roster =
        (ledger.recordRound fragment.justification).roster := by
    rw [roster_recordRound, roster_recordRound]
    rfl
  rw [applyMessages, sameRoster] at applied
  cases drained : ((ledger.recordRound fragment.justification).roster.receiveAll
      fragment.header.number messages).drain fragment.header.number with
  | error overflow =>
      rw [drained] at applied
      cases applied
  | ok outcome =>
      obtain ⟨changes, last⟩ := outcome
      rw [drained] at applied
      simp only [bind, Except.bind, pure, Except.pure] at applied
      refine ⟨messages, changes, approved, ?_⟩
      split at applied <;>
        · cases applied
          exact drained

/-- Noting a round has no influence on which changes come into force. -/
theorem enacted_recordRound
    (ledger : Ledger) (justification : Justification) (number : BlockNumber)
    (messages : List Message) :
    (((ledger.recordRound justification).roster.receiveAll number messages).agenda.enacted
        number) =
      (ledger.roster.receiveAll number messages).agenda.enacted number := by
  rw [roster_recordRound]
  split
  · rw [Grandpa.Roster.receiveAll_noteRound]
    rfl
  · rfl

theorem current_recordRound (ledger : Ledger) (justification : Justification) :
    (ledger.recordRound justification).roster.current = ledger.roster.current := by
  rw [roster_recordRound]
  split <;> rfl

/-- Messages and rounds leave the number of the current set alone. -/
theorem setId_receiveAll_recordRound
    (ledger : Ledger) (justification : Justification) (number : BlockNumber)
    (messages : List Message) :
    ((ledger.recordRound justification).roster.receiveAll number messages).setId =
      ledger.roster.setId := by
  rw [Grandpa.Roster.setId, Grandpa.Roster.current_receiveAll, current_recordRound]
  rfl

theorem superseded_recordRound (ledger : Ledger) (justification : Justification) :
    (ledger.recordRound justification).roster.superseded = ledger.roster.superseded := by
  rw [roster_recordRound]
  split <;> rfl

theorem agenda_recordRound (ledger : Ledger) (justification : Justification) :
    (ledger.recordRound justification).roster.agenda = ledger.roster.agenda := by
  rw [roster_recordRound]
  split <;> rfl

theorem finalize_of_accepts
    (accepts : ledger.Accepts primitives fragment) (room : ledger.HasRoomFor fragment) :
    ∃ hasChanged next, ledger.finalize primitives fragment = .ok (hasChanged, next) := by
  obtain ⟨messages, approved, read⟩ := approve_of_accepts accepts
  let recorded := (ledger.advance primitives fragment.header).recordRound fragment.justification
  have sameSetId :
      (recorded.roster.receiveAll fragment.header.number messages).setId =
        ledger.roster.setId :=
    setId_receiveAll_recordRound (ledger.advance primitives fragment.header)
      fragment.justification fragment.header.number messages
  have sameEnacted :
      (recorded.roster.receiveAll fragment.header.number messages).agenda.enacted
          fragment.header.number =
        (ledger.roster.receiveAll fragment.header.number messages).agenda.enacted
          fragment.header.number :=
    enacted_recordRound (ledger.advance primitives fragment.header) fragment.justification
      fragment.header.number messages
  have drained :=
    Grandpa.Roster.drain_eq (recorded.roster.receiveAll fragment.header.number messages)
      fragment.header.number
  rw [sameSetId, sameEnacted, if_pos (room messages read)] at drained
  have applied :
      ∃ hasChanged next,
        recorded.applyMessages fragment.header.number messages = .ok (hasChanged, next) := by
    rw [applyMessages, drained]
    simp only [bind, Except.bind, pure, Except.pure]
    split <;> exact ⟨_, _, rfl⟩
  obtain ⟨hasChanged, next, applied⟩ := applied
  exact ⟨hasChanged, next, finalize_eq_ok_iff.mpr ⟨messages, approved, applied⟩⟩

theorem load?_persistRoster (roster : Grandpa.Roster) (store : Store) :
    Head.load? (roster.persist store) = Head.load? store := by
  rw [Grandpa.Roster.persist, Head.load?_put_of_space rfl, Head.load?_put_of_space rfl,
    Head.load?_put_of_space rfl]

theorem load?_persistRound
    (roster : Grandpa.Roster) (store : Store) (precommits : List SignedVote) :
    Head.load? (roster.persistRound store precommits) = Head.load? store := by
  rw [Grandpa.Roster.persistRound, Head.load?_put_of_space rfl, Head.load?_put_of_space rfl]

theorem load?_recordRound (ledger : Ledger) (justification : Justification) :
    Head.load? (ledger.recordRound justification).store = Head.load? ledger.store := by
  unfold recordRound
  split
  · exact load?_persistRound _ _ _
  · rfl

theorem load?_applyMessages
    {next : Ledger} {number : BlockNumber} {messages : List Message} {hasChanged : Bool}
    (applied : ledger.applyMessages number messages = .ok (hasChanged, next)) :
    Head.load? next.store = Head.load? ledger.store := by
  simp only [applyMessages, bind, Except.bind, pure, Except.pure] at applied
  split at applied
  · cases applied
  · split at applied <;> cases applied
    · rfl
    · exact load?_persistRoster _ _

/-- The store has the new head after a fragment is accepted. -/
theorem load?_finalize
    {next : Ledger} {hasChanged : Bool}
    (finalized : ledger.finalize primitives fragment = .ok (hasChanged, next)) :
    Head.load? next.store = some (Head.ofHeader primitives fragment.header) := by
  obtain ⟨messages, _, applied⟩ := finalize_eq_ok_iff.mp finalized
  rw [load?_applyMessages applied, load?_recordRound]
  exact Head.load?_persist _ _

end Ledger

/-! ## Exact and atomic operations -/

/-- An operation on a fragment succeeds exactly if the fragment is acceptable and then moves the
head, in memory and in the store, to the fragment's block.  It fails exactly with the failure of
the first condition that does not hold, and then leaves the session untouched. -/
structure IsExactAndAtomic {Result : Type}
    (primitives : Primitives) (ledger : Ledger) (fragment : Fragment)
    (success : Result) (untouched : Session) (outcome : Except Failure Result × Session) :
    Prop where
  succeeds_iff : outcome.1 = .ok success ↔ ledger.Accepts primitives fragment
  fails_iff : ∀ failure, outcome.1 = .error failure ↔ ledger.Refuses primitives fragment failure
  succeeds_or_fails : outcome.1 = .ok success ∨ ∃ failure, outcome.1 = .error failure
  head_of_success :
    outcome.1 = .ok success →
      outcome.2.ledger.head =
          ⟨fragment.header.hash primitives, fragment.header.number, fragment.header.stateRoot⟩ ∧
        Head.load? outcome.2.ledger.store =
          some ⟨fragment.header.hash primitives, fragment.header.number,
            fragment.header.stateRoot⟩
  untouched_of_failure : ∀ failure, outcome.1 = .error failure → outcome.2 = untouched

/-- What finalization does to the ledger decides whether an operation is exact and atomic. -/
theorem IsExactAndAtomic.of_finalize
    {Result : Type} {primitives : Primitives} {ledger : Ledger} {fragment : Fragment}
    {success : Result} {untouched : Session} {outcome : Except Failure Result × Session}
    (room : ledger.HasRoomFor fragment)
    (succeeds : ∀ hasChanged next,
      ledger.finalize primitives fragment = .ok (hasChanged, next) →
        outcome.1 = .ok success ∧ outcome.2.ledger = next)
    (fails : ∀ failure,
      ledger.finalize primitives fragment = .error failure →
        outcome = (.error failure, untouched)) :
    IsExactAndAtomic primitives ledger fragment success untouched outcome := by
  rcases Ledger.accepts_or_refuses primitives ledger fragment with accepts | ⟨cause, refuses⟩
  · obtain ⟨hasChanged, next, finalized⟩ := Ledger.finalize_of_accepts accepts room
    obtain ⟨succeeded, sameLedger⟩ := succeeds hasChanged next finalized
    have neverFails (failure : Failure) : outcome.1 ≠ .error failure := by
      rw [succeeded]
      exact fun failed => nomatch failed
    have neverRefuses (failure : Failure) : ¬ ledger.Refuses primitives fragment failure := by
      intro refuses
      rw [Ledger.finalize_of_refuses refuses] at finalized
      cases finalized
    exact
      { succeeds_iff := iff_of_true succeeded accepts
        fails_iff := fun failure => iff_of_false (neverFails failure) (neverRefuses failure)
        succeeds_or_fails := Or.inl succeeded
        head_of_success := by
          intro _
          rw [sameLedger]
          exact ⟨Ledger.head_of_finalize finalized, Ledger.load?_finalize finalized⟩
        untouched_of_failure := fun failure failed => absurd failed (neverFails failure) }
  · have failed := fails cause (Ledger.finalize_of_refuses refuses)
    have neverSucceeds : outcome.1 ≠ .ok success := by
      rw [failed]
      exact fun succeeded => nomatch succeeded
    have neverAccepts : ¬ ledger.Accepts primitives fragment := by
      intro accepts
      obtain ⟨hasChanged, next, finalized⟩ := Ledger.finalize_of_accepts accepts room
      exact neverSucceeds (succeeds hasChanged next finalized).1
    exact
      { succeeds_iff := iff_of_false neverSucceeds neverAccepts
        fails_iff := by
          intro failure
          constructor
          · intro failedSo
            rw [failed] at failedSo
            cases failedSo
            exact refuses
          · intro refusesSo
            rw [fails failure (Ledger.finalize_of_refuses refusesSo)]
        succeeds_or_fails := Or.inr ⟨cause, by rw [failed]⟩
        head_of_success := fun succeeded => absurd succeeded neverSucceeds
        untouched_of_failure := fun _ _ => by rw [failed] }

namespace Session

variable {primitives : Primitives} {session : Session} {fragment : Fragment}

/-- Telling neighbours changes nothing but the mailbox. -/
theorem exists_mailbox_notify (session : Session) :
    ∃ mailbox, session.notify.2 = { session with mailbox := mailbox } := by
  unfold notify
  split
  · exact ⟨session.mailbox, rfl⟩
  · exact ⟨_, rfl⟩

theorem accept_of_finalize_ok
    {hasChanged : Bool} {next : Ledger}
    (finalized : session.ledger.finalize primitives fragment = .ok (hasChanged, next)) :
    ∃ mailbox,
      session.accept primitives fragment =
        .ok { session with ledger := next, mailbox := mailbox } := by
  rw [accept, finalized]
  simp only [bind, Except.bind, pure, Except.pure]
  split
  · obtain ⟨mailbox, notified⟩ := exists_mailbox_notify { session with ledger := next }
    exact ⟨mailbox, congrArg Except.ok notified⟩
  · exact ⟨session.mailbox, rfl⟩

theorem accept_of_finalize_error
    {failure : Failure}
    (failed : session.ledger.finalize primitives fragment = .error failure) :
    session.accept primitives fragment = .error failure := by
  rw [accept, failed]
  rfl

theorem verifyNext_of_finalize_ok
    {rest : List Fragment} {hasChanged : Bool} {next : Ledger}
    (queued : session.queue = fragment :: rest)
    (finalized : session.ledger.finalize primitives fragment = .ok (hasChanged, next)) :
    ∃ mailbox,
      session.verifyNext primitives =
        (.ok (), { session with ledger := next, mailbox := mailbox, queue := rest }) := by
  let taken := { session with queue := rest }
  have finalizedTaken : taken.ledger.finalize primitives fragment = .ok (hasChanged, next) :=
    finalized
  obtain ⟨mailbox, accepted⟩ := accept_of_finalize_ok finalizedTaken
  refine ⟨mailbox, ?_⟩
  rw [verifyNext, dequeue, queued]
  simp only [taken] at accepted
  simp only [accepted]

theorem verifyNext_of_finalize_error
    {rest : List Fragment} {failure : Failure}
    (queued : session.queue = fragment :: rest)
    (failed : session.ledger.finalize primitives fragment = .error failure) :
    session.verifyNext primitives = (.error failure, { session with queue := rest }) := by
  let taken := { session with queue := rest }
  have failedTaken : taken.ledger.finalize primitives fragment = .error failure := failed
  have refused := accept_of_finalize_error failedTaken
  rw [verifyNext, dequeue, queued]
  simp only [taken, refused]

theorem importCommit_of_finalize_ok
    {hasChanged : Bool} {next : Ledger}
    (extendsHead : session.head.number < fragment.header.number)
    (finalized : session.ledger.finalize primitives fragment = .ok (hasChanged, next)) :
    ∃ mailbox,
      session.importCommit primitives fragment =
        (.ok true, { session with ledger := next, mailbox := mailbox }) := by
  obtain ⟨mailbox, accepted⟩ := accept_of_finalize_ok finalized
  refine ⟨mailbox, ?_⟩
  rw [importCommit, Head.isExtendedBy, if_pos (decide_eq_true extendsHead), accepted]

theorem importCommit_of_finalize_error
    {failure : Failure}
    (extendsHead : session.head.number < fragment.header.number)
    (failed : session.ledger.finalize primitives fragment = .error failure) :
    session.importCommit primitives fragment = (.error failure, session) := by
  rw [importCommit, Head.isExtendedBy, if_pos (decide_eq_true extendsHead),
    accept_of_finalize_error failed]

/-- A commit of a block that is not past the head is passed over. -/
theorem importCommit_of_le (behind : fragment.header.number ≤ session.head.number) :
    session.importCommit primitives fragment = (.ok false, session) := by
  have notPast : ¬ session.head.isExtendedBy fragment.header.number = true := by
    rw [Head.isExtendedBy, decide_eq_true_iff]
    exact UInt32.not_lt.mpr behind
  rw [importCommit, if_neg notPast]

/-- Verifying the fragment at the front of the queue and importing a commit past the head are
exact and atomic, as long as set numbers last. -/
theorem verifyNext_importCommit_isExactAndAtomic
    (primitives : Primitives) (session : Session) (fragment : Fragment)
    (room : session.ledger.HasRoomFor fragment) :
    (∀ rest,
      session.queue = fragment :: rest →
        IsExactAndAtomic primitives session.ledger fragment () { session with queue := rest }
          (session.verifyNext primitives)) ∧
    (session.head.number < fragment.header.number →
      IsExactAndAtomic primitives session.ledger fragment true session
        (session.importCommit primitives fragment)) := by
  constructor
  · intro rest queued
    apply IsExactAndAtomic.of_finalize room
    · intro hasChanged next finalized
      obtain ⟨mailbox, verified⟩ := verifyNext_of_finalize_ok queued finalized
      rw [verified]
      exact ⟨rfl, rfl⟩
    · intro failure failed
      exact verifyNext_of_finalize_error queued failed
  · intro extendsHead
    apply IsExactAndAtomic.of_finalize room
    · intro hasChanged next finalized
      obtain ⟨mailbox, imported⟩ := importCommit_of_finalize_ok extendsHead finalized
      rw [imported]
      exact ⟨rfl, rfl⟩
    · intro failure failed
      exact importCommit_of_finalize_error extendsHead failed

section EmptyStore

variable (settings : Settings) (fragments : FragmentSource) (runtimes : RuntimeSource)
variable (checkpoint : Checkpoint) (mailbox : Option Mailbox)

theorem roster_start_empty :
    (start settings .empty fragments runtimes checkpoint mailbox).ledger.roster =
      .ofSet checkpoint.authoritySet settings.retention := rfl

theorem head_start_empty :
    (start settings .empty fragments runtimes checkpoint mailbox).head =
      .ofCheckpoint checkpoint := by
  let roster := Grandpa.Roster.ofSet checkpoint.authoritySet settings.retention
  have missing : Head.load? (roster.persist .empty) = none := by
    rw [Ledger.load?_persistRoster, Head.load?_empty]
  have opened :
      Ledger.openHead (roster.persist .empty) checkpoint =
        (.ofCheckpoint checkpoint,
          (Head.ofCheckpoint checkpoint).persist (roster.persist .empty)) := by
    rw [Ledger.openHead, missing]
  exact congrArg Prod.fst opened

end EmptyStore

end Session

/-! ## A handover -/

namespace Handover

def elder : Authority where
  id :=
    ⟨⟨[138, 136, 227, 221, 116, 9, 241, 149, 253, 82, 219, 45, 60, 186, 93, 114, 202, 103, 9,
        191, 29, 148, 18, 27, 243, 116, 136, 1, 180, 15, 111, 92], rfl⟩⟩
  weight := 1

def successor : Authority where
  id :=
    ⟨⟨[129, 57, 119, 14, 168, 125, 23, 95, 86, 163, 84, 102, 195, 76, 126, 204, 203, 141,
        138, 145, 180, 238, 55, 162, 93, 246, 15, 91, 143, 201, 179, 148], rfl⟩⟩
  weight := 1

/-- A block without a past, with one authority. -/
def checkpoint : Checkpoint where
  blockHash := .zero
  blockNumber := 0
  stateRoot := .zero
  setId := 0
  authorities := [elder]

/-- The block after it, which hands over to the successor at once. -/
def header : Header where
  parentHash := .zero
  number := 1
  stateRoot := .zero
  extrinsicsRoot := .zero
  digest := ⟨[.consensus Message.engine (Message.scheduledChange [successor] 0).encode]⟩

def precommit : SignedVote where
  vote := header.vote .standard
  signature :=
    ⟨⟨[53, 217, 20, 182, 0, 15, 119, 100, 204, 59, 157, 235, 147, 181, 4, 19, 7, 113, 18, 95,
        70, 185, 40, 72, 137, 255, 204, 202, 221, 232, 20, 139, 249, 137, 66, 78, 129, 215,
        131, 153, 65, 143, 187, 4, 145, 109, 158, 47, 33, 58, 42, 239, 241, 243, 198, 12, 105,
        4, 16, 98, 116, 242, 224, 12], rfl⟩⟩
  id := elder.id

def fragment : Fragment where
  header := header
  justification :=
    { targetHash := header.hash .standard
      targetNumber := 1
      round := 1
      setId := 0
      precommits := [precommit]
      votesAncestries := [] }

/-- Nobody answers. -/
def fragments : FragmentSource := .ofList [] fun _ => .never

def runtimes : RuntimeSource := .ofList [] fun _ => .error "no runtime source"

def session : Session := .start .standard .empty fragments runtimes checkpoint none

theorem isFinal : fragment.justification.check .standard checkpoint.authoritySet = .ok () := by
  decide +kernel

theorem ofHeader_header :
    Message.ofHeader header = .ok [.scheduledChange [successor] 0] := by
  decide

theorem extendsHead : session.head.number < header.number := by
  rw [session, Session.head_start_empty]
  decide

theorem accepts : session.ledger.Accepts .standard fragment where
  extendsHead := extendsHead
  hitsTarget := ⟨rfl, rfl⟩
  isJustified :=
    ⟨checkpoint.authoritySet, Grandpa.Roster.setFor?_eq_some_iff_knows.mp rfl, isFinal⟩
  isReadable := Message.exists_ofHeader_eq_ok_iff.mp ⟨_, ofHeader_header⟩

end Handover

/-- A block that hands over at once is accepted and imported. -/
theorem Session.importCommit_handover :
    Handover.session.ledger.HasRoomFor Handover.fragment ∧
      (Handover.session.importCommit .standard Handover.fragment).1 = .ok true := by
  have room : Handover.session.ledger.HasRoomFor Handover.fragment :=
    Ledger.HasRoomFor.of_lt (by decide)
  have isExactAndAtomic :=
    verifyNext_importCommit_isExactAndAtomic .standard Handover.session Handover.fragment room
  exact ⟨room, (isExactAndAtomic.2 Handover.extendsHead).succeeds_iff.mpr Handover.accepts⟩

end FinalitySync.Sync
