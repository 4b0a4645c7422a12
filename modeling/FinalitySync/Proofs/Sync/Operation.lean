import FinalitySync.Proofs.Grandpa.Retention
import FinalitySync.Proofs.Sync.Acceptance
import FinalitySync.Sync.Bootstrap

/-!
# Runs of a session

A run is a list of operations in any order, with any fragments.  Only an operation that accepts a
fragment changes the head or the roster, and it changes them as finalization does.
-/

namespace FinalitySync.Sync

open Grandpa (Change Message Roster)

inductive Operation
  | enqueue (fragments : List Fragment)
  | requestFragments (start : Hash)
  | verifyNext
  | downloadRuntime
  | importCommit (fragment : Fragment)

namespace Operation

/-- The session after an operation, whether it succeeded or not. -/
def perform (primitives : Primitives) (session : Session) : Operation → Session
  | .enqueue fragments => session.enqueue fragments
  | .requestFragments start => (session.requestFragments start).2
  | .verifyNext => (session.verifyNext primitives).2
  | .downloadRuntime => session.downloadRuntime.2
  | .importCommit fragment => (session.importCommit primitives fragment).2

/-- The operation succeeds and makes the block of this fragment final. -/
inductive Accepts (primitives : Primitives) (session : Session) : Operation → Fragment → Prop
  | verifyNext {fragment : Fragment} {rest : List Fragment}
      (queued : session.queue = fragment :: rest)
      (succeeded : (session.verifyNext primitives).1 = .ok ()) :
      Accepts primitives session .verifyNext fragment
  | importCommit {fragment : Fragment}
      (succeeded : (session.importCommit primitives fragment).1 = .ok true) :
      Accepts primitives session (.importCommit fragment) fragment

end Operation

/-- The session after a list of operations. -/
def Session.performAll (primitives : Primitives) (session : Session)
    (operations : List Operation) : Session :=
  operations.foldl (Operation.perform primitives) session

theorem Session.performAll_append_singleton
    (primitives : Primitives) (session : Session)
    (operations : List Operation) (operation : Operation) :
    session.performAll primitives (operations ++ [operation]) =
      operation.perform primitives (session.performAll primitives operations) := by
  simp [performAll]

theorem Ledger.exists_finalize_of_drain
    {primitives : Primitives} {ledger : Ledger} {fragment : Fragment} {messages : List Message}
    {changes : List Change} {last : Roster}
    (accepts : ledger.Accepts primitives fragment)
    (read : Message.ofHeader fragment.header = .ok messages)
    (drained :
      ((ledger.recordRound fragment.justification).roster.receiveAll fragment.header.number
        messages).drain fragment.header.number = .ok (changes, last)) :
    ∃ hasChanged next,
      ledger.finalize primitives fragment = .ok (hasChanged, next) ∧ next.roster = last := by
  obtain ⟨readToo, approved, sameRead⟩ := approve_of_accepts accepts
  cases read.symm.trans sameRead
  have sameRoster :
      ((ledger.advance primitives fragment.header).recordRound fragment.justification).roster =
        (ledger.recordRound fragment.justification).roster := by
    rw [roster_recordRound, roster_recordRound]
    rfl
  rw [← sameRoster] at drained
  have applied :
      ∃ hasChanged next,
        ((ledger.advance primitives fragment.header).recordRound
          fragment.justification).applyMessages fragment.header.number messages =
            .ok (hasChanged, next) ∧ next.roster = last := by
    rw [applyMessages, drained]
    cases changes with
    | nil => exact ⟨false, _, rfl, rfl⟩
    | cons change changes => exact ⟨true, _, rfl, rfl⟩
  obtain ⟨hasChanged, next, applied, sameLast⟩ := applied
  exact ⟨hasChanged, next, finalize_eq_ok_iff.mpr ⟨messages, approved, applied⟩, sameLast⟩

namespace Session

variable {primitives : Primitives} {session : Session} {fragment : Fragment}

theorem ledger_requestFragments (session : Session) (start : Hash) :
    (session.requestFragments start).2.ledger = session.ledger ∧
      (session.requestFragments start).2.isSynced = session.isSynced := by
  simp only [requestFragments, takePage]
  split
  · exact ⟨rfl, rfl⟩
  · split <;> exact ⟨rfl, rfl⟩

/-- `session.Completes after` means that the runtime code was loaded, after which the store has it
and says that synchronisation was completed. -/
inductive Completes (session after : Session) : Prop
  | intro (withCode : Store)
      (saved :
        withCode = session.ledger.store ∨
          ∃ code, withCode = session.ledger.store.put .runtimeCode code)
      (sameLedger : after.ledger = { session.ledger with store := withCode.put .isSynced true })
      (marked : after.isSynced = true)

theorem downloadRuntime_cases (session : Session) :
    session.Completes session.downloadRuntime.2 ∨
      (session.downloadRuntime.2.ledger = session.ledger ∧
        session.downloadRuntime.2.isSynced = session.isSynced) := by
  cases saved : session.ledger.store.get? .runtimeCode with
  | some code =>
      left
      simp only [downloadRuntime, loadRuntimeCode, saved]
      obtain ⟨mailbox, notified⟩ := exists_mailbox_notify _
      rw [notified]
      exact ⟨session.ledger.store, Or.inl rfl, rfl, rfl⟩
  | none =>
      cases fetched : (session.runtimes.ask (session.head.hash, session.head.stateRoot)).1 with
      | error reason =>
          right
          simp only [downloadRuntime, loadRuntimeCode, saved, fetched, and_self]
      | ok code =>
          left
          simp only [downloadRuntime, loadRuntimeCode, saved, fetched]
          obtain ⟨mailbox, notified⟩ := exists_mailbox_notify _
          rw [notified]
          exact
            ⟨session.ledger.store.put .runtimeCode code, Or.inr ⟨code, rfl⟩, rfl, rfl⟩

end Session

namespace Operation

variable {primitives : Primitives} {session : Session}

/-- An operation accepts a fragment, whose block is then finalized, or completes synchronisation,
or leaves the ledger alone. -/
inductive HasEffect
    (primitives : Primitives) (session : Session) (operation : Operation) : Prop
  | accepts {fragment : Fragment} {hasChanged : Bool}
      (accepts : operation.Accepts primitives session fragment)
      (finalized :
        session.ledger.finalize primitives fragment =
          .ok (hasChanged, (operation.perform primitives session).ledger))
      (sameMark : (operation.perform primitives session).isSynced = session.isSynced)
  | completes
      (completes : session.Completes (operation.perform primitives session))
  | leaves
      (sameLedger : (operation.perform primitives session).ledger = session.ledger)
      (sameMark : (operation.perform primitives session).isSynced = session.isSynced)

theorem hasEffect
    (primitives : Primitives) (session : Session) (operation : Operation) :
    operation.HasEffect primitives session := by
  cases operation with
  | enqueue fragments => exact .leaves rfl rfl
  | requestFragments start =>
      obtain ⟨sameLedger, sameMark⟩ := Session.ledger_requestFragments session start
      exact .leaves sameLedger sameMark
  | verifyNext =>
      cases queued : session.queue with
      | nil =>
          have unchanged : (session.verifyNext primitives).2 = session := by
            rw [Session.verifyNext, Session.dequeue, queued]
            dsimp only
            split <;> rfl
          apply HasEffect.leaves <;> rw [perform, unchanged]
      | cons fragment rest =>
          cases finalized : session.ledger.finalize primitives fragment with
          | error failure =>
              apply HasEffect.leaves <;>
                rw [perform, Session.verifyNext_of_finalize_error queued finalized]
          | ok outcome =>
              obtain ⟨hasChanged, next⟩ := outcome
              obtain ⟨mailbox, verified⟩ :=
                Session.verifyNext_of_finalize_ok queued finalized
              have succeeded : (session.verifyNext primitives).1 = .ok () := by
                rw [verified]
              have finalizedAfter :
                  session.ledger.finalize primitives fragment =
                    .ok (hasChanged, (verifyNext.perform primitives session).ledger) := by
                rw [perform, verified]
                exact finalized
              apply HasEffect.accepts (.verifyNext queued succeeded) finalizedAfter
              rw [perform, verified]
  | downloadRuntime =>
      rcases Session.downloadRuntime_cases session with completes | ⟨sameLedger, sameMark⟩
      · exact .completes completes
      · exact .leaves sameLedger sameMark
  | importCommit fragment =>
      by_cases extendsHead : session.head.number < fragment.header.number
      · cases finalized : session.ledger.finalize primitives fragment with
        | error failure =>
            apply HasEffect.leaves <;>
              rw [perform, Session.importCommit_of_finalize_error extendsHead finalized]
        | ok outcome =>
            obtain ⟨hasChanged, next⟩ := outcome
            obtain ⟨mailbox, imported⟩ :=
              Session.importCommit_of_finalize_ok extendsHead finalized
            have succeeded : (session.importCommit primitives fragment).1 = .ok true := by
              rw [imported]
            have finalizedAfter :
                session.ledger.finalize primitives fragment =
                  .ok (hasChanged, ((importCommit fragment).perform primitives session).ledger) := by
              rw [perform, imported]
              exact finalized
            apply HasEffect.accepts (.importCommit succeeded) finalizedAfter
            rw [perform, imported]
      · have behind : fragment.header.number ≤ session.head.number :=
          UInt32.not_lt.mp extendsHead
        apply HasEffect.leaves <;> rw [perform, Session.importCommit_of_le behind]

/-- An operation accepts a fragment, whose block is then finalized, or leaves the head and the
roster alone. -/
theorem perform_cases
    (primitives : Primitives) (session : Session) (operation : Operation) :
    (∃ fragment hasChanged,
      operation.Accepts primitives session fragment ∧
        session.ledger.finalize primitives fragment =
          .ok (hasChanged, (operation.perform primitives session).ledger)) ∨
    ((operation.perform primitives session).head = session.head ∧
      (operation.perform primitives session).ledger.roster = session.ledger.roster) := by
  cases operation.hasEffect primitives session with
  | accepts accepts finalized _ => exact Or.inl ⟨_, _, accepts, finalized⟩
  | completes completes =>
      obtain ⟨withCode, _, sameLedger, _⟩ := completes
      rw [Session.head, sameLedger]
      exact Or.inr ⟨rfl, rfl⟩
  | leaves sameLedger _ =>
      rw [Session.head, sameLedger]
      exact Or.inr ⟨rfl, rfl⟩

theorem Accepts.exists_finalize
    {operation : Operation} {fragment : Fragment}
    (accepts : operation.Accepts primitives session fragment) :
    ∃ outcome, session.ledger.finalize primitives fragment = .ok outcome := by
  cases finalized : session.ledger.finalize primitives fragment with
  | ok outcome => exact ⟨outcome, rfl⟩
  | error failure =>
      cases accepts with
      | verifyNext queued succeeded =>
          rw [Session.verifyNext_of_finalize_error queued finalized] at succeeded
          cases succeeded
      | importCommit succeeded =>
          by_cases extendsHead : session.head.number < fragment.header.number
          · rw [Session.importCommit_of_finalize_error extendsHead finalized] at succeeded
            cases succeeded
          · rw [Session.importCommit_of_le (UInt32.not_lt.mp extendsHead)] at succeeded
            cases succeeded

/-- An operation accepts one fragment at most. -/
theorem Accepts.fragment_eq
    {operation : Operation} {fragment other : Fragment}
    (accepts : operation.Accepts primitives session fragment)
    (acceptsOther : operation.Accepts primitives session other) :
    fragment = other := by
  cases accepts with
  | verifyNext queued succeeded =>
      cases acceptsOther with
      | verifyNext queuedOther succeededOther =>
          exact (List.cons.inj (queued.symm.trans queuedOther)).1
  | importCommit succeeded =>
      cases acceptsOther
      rfl

/-- The ledger after a fragment was accepted is the one that finalization leaves. -/
theorem Accepts.finalize
    {operation : Operation} {fragment : Fragment}
    (accepts : operation.Accepts primitives session fragment) :
    ∃ hasChanged,
      session.ledger.finalize primitives fragment =
        .ok (hasChanged, (operation.perform primitives session).ledger) := by
  obtain ⟨⟨hasChanged, next⟩, finalized⟩ := accepts.exists_finalize
  refine ⟨hasChanged, ?_⟩
  cases accepts with
  | verifyNext queued succeeded =>
      obtain ⟨mailbox, verified⟩ := Session.verifyNext_of_finalize_ok queued finalized
      rw [perform, verified]
      exact finalized
  | importCommit succeeded =>
      have extendsHead : session.head.number < fragment.header.number := by
        have raised := Ledger.number_lt_of_finalize finalized
        rw [Ledger.head_of_finalize finalized] at raised
        exact raised
      obtain ⟨mailbox, imported⟩ := Session.importCommit_of_finalize_ok extendsHead finalized
      rw [perform, imported]
      exact finalized

theorem Accepts.exists_drain
    {operation : Operation} {fragment : Fragment}
    (accepts : operation.Accepts primitives session fragment) :
    ∃ messages changes,
      Message.ofHeader fragment.header = .ok messages ∧
        ((session.ledger.recordRound fragment.justification).roster.receiveAll
          fragment.header.number messages).drain fragment.header.number =
            .ok (changes, (operation.perform primitives session).ledger.roster) := by
  obtain ⟨hasChanged, finalized⟩ := accepts.finalize
  obtain ⟨messages, changes, approved, drained⟩ := Ledger.exists_drain_of_finalize finalized
  exact ⟨messages, changes, (Ledger.accepts_of_approve approved).2, drained⟩

theorem Accepts.head_perform
    {operation : Operation} {fragment : Fragment}
    (accepts : operation.Accepts primitives session fragment) :
    (operation.perform primitives session).head = Head.ofHeader primitives fragment.header := by
  obtain ⟨hasChanged, finalized⟩ := accepts.finalize
  exact Ledger.head_of_finalize finalized

theorem Accepts.number_lt
    {operation : Operation} {fragment : Fragment}
    (accepts : operation.Accepts primitives session fragment) :
    session.head.number < fragment.header.number := by
  obtain ⟨hasChanged, finalized⟩ := accepts.finalize
  have raised := Ledger.number_lt_of_finalize finalized
  rw [Ledger.head_of_finalize finalized] at raised
  exact raised

theorem finalize_importCommit_of_drain
    {fragment : Fragment} {messages : List Message}
    {changes : List Change} {last : Roster}
    (accepts : session.ledger.Accepts primitives fragment)
    (read : Message.ofHeader fragment.header = .ok messages)
    (drained :
      ((session.ledger.recordRound fragment.justification).roster.receiveAll
        fragment.header.number messages).drain fragment.header.number = .ok (changes, last)) :
    ∃ hasChanged,
      session.ledger.finalize primitives fragment =
          .ok (hasChanged, ((importCommit fragment).perform primitives session).ledger) ∧
        ((importCommit fragment).perform primitives session).ledger.roster = last := by
  obtain ⟨hasChanged, next, finalized, sameRoster⟩ :=
    Ledger.exists_finalize_of_drain accepts read drained
  obtain ⟨mailbox, imported⟩ :=
    Session.importCommit_of_finalize_ok accepts.extendsHead finalized
  rw [perform, imported]
  exact ⟨hasChanged, finalized, sameRoster⟩

end Operation

section Known

variable {primitives : Primitives}

namespace Ledger

theorem isAscending_ofStore (store : Store) (checkpoint : Checkpoint) (retention : Nat) :
    (ofStore store checkpoint retention).roster.IsAscending := by
  have opened :
      (ofStore store checkpoint retention).roster = (openRoster store checkpoint retention).1 := rfl
  rw [opened, openRoster]
  cases loaded : Roster.load? store retention with
  | some roster => exact Roster.isAscending_of_load? loaded
  | none => exact .ofSet checkpoint.authoritySet retention

theorem isAscending_of_finalize
    {ledger next : Ledger} {fragment : Fragment} {hasChanged : Bool}
    (ascending : ledger.roster.IsAscending)
    (finalized : ledger.finalize primitives fragment = .ok (hasChanged, next)) :
    next.roster.IsAscending := by
  obtain ⟨messages, changes, _, drained⟩ := exists_drain_of_finalize finalized
  have received :
      ((ledger.recordRound fragment.justification).roster.receiveAll fragment.header.number
        messages).IsAscending := by
    apply ascending.congr
    · rw [Roster.current_receiveAll, current_recordRound]
    · rw [Roster.superseded_receiveAll, superseded_recordRound]
  exact received.drain drained

end Ledger

namespace Session

variable {session : Session}

theorem isAscending_perform
    (ascending : session.ledger.roster.IsAscending) (operation : Operation) :
    (operation.perform primitives session).ledger.roster.IsAscending := by
  rcases operation.perform_cases primitives session with
    ⟨fragment, hasChanged, _, finalized⟩ | ⟨_, sameRoster⟩
  · exact Ledger.isAscending_of_finalize ascending finalized
  · rw [sameRoster]
    exact ascending

theorem isAscending_performAll
    (ascending : session.ledger.roster.IsAscending) (operations : List Operation) :
    (session.performAll primitives operations).ledger.roster.IsAscending := by
  induction operations generalizing session with
  | nil => exact ascending
  | cons operation operations inductionHypothesis =>
      exact inductionHypothesis (isAscending_perform ascending operation)

/-- In a run from any store the known sets have numbers of their own, so that a set is known under
its number exactly if it votes now or is kept as a superseded one. -/
theorem knows_performAll_iff
    (primitives : Primitives) (settings : Settings) (store : Store) (fragments : FragmentSource)
    (runtimes : RuntimeSource) (checkpoint : Checkpoint) (mailbox : Option Mailbox)
    (operations : List Operation) (setId : SetId) (authoritySet : AuthoritySet) :
    let started := start settings store fragments runtimes checkpoint mailbox
    let reached := started.performAll primitives operations
    reached.ledger.roster.Knows setId authoritySet ↔
      authoritySet ∈ reached.ledger.roster.known ∧ authoritySet.setId = setId := by
  intro started reached
  have ascending : reached.ledger.roster.IsAscending :=
    isAscending_performAll (Ledger.isAscending_ofStore store checkpoint settings.retention)
      operations
  apply Roster.knows_iff_mem_known
  intro authoritySet member other otherMember sameId
  exact ascending.eq_of_setId_eq member otherMember sameId

end Session

end Known

/-! ## Acceptances -/

/-- A place in a run at which a fragment is accepted. -/
structure Acceptance (primitives : Primitives) (start : Session)
    (operations : List Operation) where
  earlier : List Operation
  operation : Operation
  later : List Operation
  split : operations = earlier ++ operation :: later
  fragment : Fragment
  accepts : operation.Accepts primitives (start.performAll primitives earlier) fragment

namespace Acceptance

variable {primitives : Primitives} {start : Session} {operations : List Operation}

def before (acceptance : Acceptance primitives start operations) : Session :=
  start.performAll primitives acceptance.earlier

def after (acceptance : Acceptance primitives start operations) : Session :=
  acceptance.operation.perform primitives acceptance.before

def header (acceptance : Acceptance primitives start operations) : Header :=
  acceptance.fragment.header

/-- The same acceptance in a longer run. -/
def extend (acceptance : Acceptance primitives start operations) (more : List Operation) :
    Acceptance primitives start (operations ++ more) where
  earlier := acceptance.earlier
  operation := acceptance.operation
  later := acceptance.later ++ more
  split := by
    have split := congrArg (· ++ more) acceptance.split
    simpa using split
  fragment := acceptance.fragment
  accepts := acceptance.accepts

/-- The acceptance by the last operation of a run. -/
def last
    {operation : Operation} {fragment : Fragment}
    (accepts : operation.Accepts primitives (start.performAll primitives operations) fragment) :
    Acceptance primitives start (operations ++ [operation]) where
  earlier := operations
  operation := operation
  later := []
  split := rfl
  fragment := fragment
  accepts := accepts

theorem length_earlier_lt (acceptance : Acceptance primitives start operations) :
    acceptance.earlier.length < operations.length := by
  have lengths := congrArg List.length acceptance.split
  rw [List.length_append, List.length_cons] at lengths
  omega

/-- An acceptance is known by its place in the run. -/
theorem eq_of_length_earlier_eq
    {acceptance other : Acceptance primitives start operations}
    (samePlace : acceptance.earlier.length = other.earlier.length) : acceptance = other := by
  obtain ⟨earlier, operation, later, split, fragment, accepts⟩ := acceptance
  obtain ⟨earlierOther, operationOther, laterOther, splitOther, fragmentOther, acceptsOther⟩ :=
    other
  obtain ⟨sameEarlier, sameRest⟩ := List.append_inj (split.symm.trans splitOther) samePlace
  obtain ⟨sameOperation, sameLater⟩ := List.cons.inj sameRest
  subst sameEarlier sameOperation sameLater
  cases accepts.fragment_eq acceptsOther
  rfl

/-- Between two acceptances there are further operations. -/
theorem exists_before_eq_performAll
    {acceptance other : Acceptance primitives start operations}
    (inOrder : acceptance.earlier.length < other.earlier.length) :
    ∃ between, other.before = acceptance.after.performAll primitives between := by
  have splits := acceptance.split.symm.trans other.split
  obtain ⟨rest, sameEarlier, sameRest⟩ | ⟨rest, sameEarlier, _⟩ :=
    List.append_eq_append_iff.mp splits
  · cases rest with
    | nil =>
        rw [sameEarlier, List.append_nil] at inOrder
        exact absurd inOrder (Nat.lt_irrefl _)
    | cons operation between =>
        obtain ⟨sameOperation, _⟩ := List.cons.inj sameRest
        refine ⟨between, ?_⟩
        rw [before, after, before, sameEarlier, sameOperation, Session.performAll,
          Session.performAll, Session.performAll, List.foldl_append, List.foldl_cons]
  · rw [sameEarlier, List.length_append] at inOrder
    omega

end Acceptance

end FinalitySync.Sync
