import FinalitySync.Proofs.Grandpa.Persistence
import FinalitySync.Proofs.Sync.Operation

/-!
# The store mirrors memory

After every operation the store has the current set with its round, the head and the mark of
completed synchronisation, as they are in memory.  A session that is started from the store
therefore takes them up again, and writes nothing.
-/

namespace FinalitySync.Sync

open Grandpa (Message Roster)

variable {primitives : Primitives}

namespace Ledger

variable {ledger next : Ledger} {number : BlockNumber} {messages : List Message}
variable {fragment : Fragment} {hasChanged : Bool}

/-- Only a new set is written after the messages, and it is the last one of those in force. -/
theorem applyMessages_cases
    (applied : ledger.applyMessages number messages = .ok (hasChanged, next)) :
    ∃ changes,
      (ledger.roster.receiveAll number messages).drain number = .ok (changes, next.roster) ∧
        (changes = [] ∧ next.store = ledger.store ∨
          changes ≠ [] ∧ next.store = next.roster.persist ledger.store) := by
  rw [applyMessages] at applied
  cases drained : (ledger.roster.receiveAll number messages).drain number with
  | error overflow =>
      rw [drained] at applied
      cases applied
  | ok outcome =>
      obtain ⟨changes, last⟩ := outcome
      rw [drained] at applied
      cases changes with
      | nil =>
          cases applied
          exact ⟨[], rfl, Or.inl ⟨rfl, rfl⟩⟩
      | cons change changes =>
          cases applied
          exact ⟨change :: changes, rfl, Or.inr ⟨List.cons_ne_nil _ _, rfl⟩⟩

theorem get?_advance_of_kind
    {record : Record} (beside : record.kind ∉ [.headHash, .headNumber, .headStateRoot])
    (ledger : Ledger) (header : Header) :
    (ledger.advance primitives header).store.get? record = ledger.store.get? record :=
  Head.get?_persist_of_kind beside _ _

theorem get?_recordRound_of_kind
    {record : Record} (beside : record.kind ∉ [.latestRound, .precommits])
    (ledger : Ledger) (justification : Justification) :
    (ledger.recordRound justification).store.get? record = ledger.store.get? record := by
  unfold recordRound
  split
  · exact Roster.get?_persistRound_of_kind beside _ _ _
  · rfl

theorem get?_applyMessages_of_kind
    {record : Record} (beside : record.kind ∉ [.authorities, .currentSetId, .latestRound])
    (applied : ledger.applyMessages number messages = .ok (hasChanged, next)) :
    next.store.get? record = ledger.store.get? record := by
  obtain ⟨changes, _, ⟨_, sameStore⟩ | ⟨_, persisted⟩⟩ := applyMessages_cases applied
  · rw [sameStore]
  · rw [persisted]
    exact Roster.get?_persist_of_kind beside _ _

/-- Finalization leaves the records of the runtime code and of completed synchronisation alone. -/
theorem get?_finalize_of_kind
    {record : Record} (beside : record.kind ∈ [.runtimeCode, .isSynced])
    (finalized : ledger.finalize primitives fragment = .ok (hasChanged, next)) :
    next.store.get? record = ledger.store.get? record := by
  obtain ⟨messages, _, applied⟩ := finalize_eq_ok_iff.mp finalized
  have apart (kinds : List Record.Kind)
      (disjoint : ∀ kind ∈ [Record.Kind.runtimeCode, .isSynced], kind ∉ kinds) :
      record.kind ∉ kinds :=
    disjoint record.kind beside
  rw [get?_applyMessages_of_kind (apart _ (by decide)) applied,
    get?_recordRound_of_kind (apart _ (by decide)), get?_advance_of_kind (apart _ (by decide))]

/-- The store has what the ledger has in memory, but for superseded sets and the agenda.  A round
that was never written is zero. -/
structure IsMirrored (ledger : Ledger) : Prop where
  head : Head.load? ledger.store = some ledger.head
  setId : ledger.store.get? .currentSetId = some ledger.roster.setId
  authorities :
    ledger.store.get? (.authorities ledger.roster.setId) = some ledger.roster.current.authorities
  round : (ledger.store.get? .latestRound).getD 0 = ledger.roster.round

theorem IsMirrored.advance (mirrored : ledger.IsMirrored) (header : Header) :
    (ledger.advance primitives header).IsMirrored where
  head := Head.load?_persist _ _
  setId := (get?_advance_of_kind (by decide) ledger header).trans mirrored.setId
  authorities :=
    (get?_advance_of_kind (by simp) ledger header).trans mirrored.authorities
  round := by
    rw [get?_advance_of_kind (by decide)]
    exact mirrored.round

theorem IsMirrored.recordRound (mirrored : ledger.IsMirrored) (justification : Justification) :
    (ledger.recordRound justification).IsMirrored := by
  have sameCurrent := current_recordRound ledger justification
  refine ⟨?_, ?_, ?_, ?_⟩
  · rw [load?_recordRound, head_recordRound]
    exact mirrored.head
  · rw [get?_recordRound_of_kind (by decide), Roster.setId, sameCurrent]
    exact mirrored.setId
  · rw [get?_recordRound_of_kind (by simp), Roster.setId, sameCurrent]
    exact mirrored.authorities
  · unfold Ledger.recordRound
    split
    · exact congrArg (Option.getD · 0) (Roster.get?_persistRound_latestRound _ _ _)
    · exact mirrored.round

theorem IsMirrored.applyMessages
    (mirrored : ledger.IsMirrored)
    (applied : ledger.applyMessages number messages = .ok (hasChanged, next)) :
    next.IsMirrored := by
  have sameHead : Head.load? next.store = some next.head := by
    rw [load?_applyMessages applied, head_of_applyMessages applied]
    exact mirrored.head
  obtain ⟨changes, drained, ⟨noneEnacted, sameStore⟩ | ⟨_, persisted⟩⟩ :=
    applyMessages_cases applied
  · rw [noneEnacted] at drained
    have sameRoster := Roster.eq_of_drain_nil drained
    have sameCurrent : next.roster.current = ledger.roster.current := by
      rw [sameRoster, Roster.current_receiveAll]
    have sameRound : next.roster.round = ledger.roster.round := by
      rw [sameRoster, Roster.round_receiveAll]
    refine ⟨sameHead, ?_, ?_, ?_⟩
    · rw [sameStore, Roster.setId, sameCurrent]
      exact mirrored.setId
    · rw [sameStore, Roster.setId, sameCurrent]
      exact mirrored.authorities
    · rw [sameStore, sameRound]
      exact mirrored.round
  · refine ⟨sameHead, ?_, ?_, ?_⟩
    · rw [persisted, Roster.get?_persist_currentSetId]
    · rw [persisted, Roster.get?_persist_authorities, if_pos rfl]
    · rw [persisted, Roster.get?_persist_latestRound, Option.getD_some]

theorem IsMirrored.finalize
    (mirrored : ledger.IsMirrored)
    (finalized : ledger.finalize primitives fragment = .ok (hasChanged, next)) :
    next.IsMirrored := by
  obtain ⟨messages, _, applied⟩ := finalize_eq_ok_iff.mp finalized
  have advanced : (ledger.advance primitives fragment.header).IsMirrored :=
    mirrored.advance fragment.header
  exact (advanced.recordRound fragment.justification).applyMessages applied

theorem ofStore_empty (checkpoint : Checkpoint) (retention : Nat) :
    ofStore .empty checkpoint retention =
      ⟨.ofCheckpoint checkpoint, .ofSet checkpoint.authoritySet retention,
        (Head.ofCheckpoint checkpoint).persist
          ((Roster.ofSet checkpoint.authoritySet retention).persist .empty)⟩ := by
  have missing :
      Head.load? ((Roster.ofSet checkpoint.authoritySet retention).persist .empty) = none := by
    rw [load?_persistRoster, Head.load?_empty]
  simp only [ofStore, openRoster, Roster.load?_empty, openHead, missing]

/-- Opening a store writes what it has not. -/
theorem IsMirrored.opened (store : Store) (checkpoint : Checkpoint) (retention : Nat) :
    (Ledger.ofStore store checkpoint retention).IsMirrored := by
  obtain ⟨roster, withRoster, opened, setId, authorities, round⟩ :
      ∃ roster withRoster,
        openRoster store checkpoint retention = (roster, withRoster) ∧
          withRoster.get? .currentSetId = some roster.setId ∧
            withRoster.get? (.authorities roster.setId) = some roster.current.authorities ∧
              (withRoster.get? .latestRound).getD 0 = roster.round := by
    cases loaded : Roster.load? store retention with
    | some roster =>
        refine ⟨roster, store, ?_, Roster.saved_of_load? loaded⟩
        rw [openRoster, loaded]
    | none =>
        let roster := Roster.ofSet checkpoint.authoritySet retention
        refine ⟨roster, roster.persist store, ?_, ?_, ?_, ?_⟩
        · rw [openRoster, loaded]
        · rw [Roster.get?_persist_currentSetId]
        · rw [Roster.get?_persist_authorities, if_pos rfl]
        · rw [Roster.get?_persist_latestRound, Option.getD_some]
  cases loaded : Head.load? withRoster with
  | some head =>
      simp only [Ledger.ofStore, opened, openHead, loaded]
      exact ⟨loaded, setId, authorities, round⟩
  | none =>
      simp only [Ledger.ofStore, opened, openHead, loaded]
      refine ⟨Head.load?_persist _ _, ?_, ?_, ?_⟩
      · rw [Head.get?_persist_of_kind (by decide)]
        exact setId
      · rw [Head.get?_persist_of_kind (by simp)]
        exact authorities
      · rw [Head.get?_persist_of_kind (by decide)]
        exact round

/-- A mirrored ledger is opened again with the superseded sets that its store has and an empty
agenda. -/
theorem IsMirrored.ofStore
    (mirrored : ledger.IsMirrored) (checkpoint : Checkpoint) (retention : Nat) :
    Ledger.ofStore ledger.store checkpoint retention =
      { ledger with
        roster :=
          { Roster.ofSet ledger.roster.current retention with
            round := ledger.roster.round
            superseded := Roster.loadSuperseded ledger.store ledger.roster.setId retention } } := by
  have loaded :=
    Roster.load?_eq_some mirrored.setId mirrored.authorities mirrored.round retention
  simp only [Ledger.ofStore, openRoster, loaded, openHead, mirrored.head]
  rfl

end Ledger

namespace Session

/-- What a session goes by: the current set with its round, the head, and whether synchronisation
was completed. -/
structure View where
  authoritySet : AuthoritySet
  round : RoundNumber
  head : Head
  isSynced : Bool
deriving DecidableEq

def view (session : Session) : View where
  authoritySet := session.ledger.roster.current
  round := session.ledger.roster.round
  head := session.head
  isSynced := session.isSynced

structure IsMirrored (session : Session) : Prop where
  ledger : session.ledger.IsMirrored
  isSynced : (session.ledger.store.get? .isSynced).getD false = session.isSynced

variable {session after : Session}

theorem IsMirrored.started
    (settings : Settings) (store : Store) (fragments : FragmentSource) (runtimes : RuntimeSource)
    (checkpoint : Checkpoint) (mailbox : Option Mailbox) :
    (start settings store fragments runtimes checkpoint mailbox).IsMirrored :=
  ⟨Ledger.IsMirrored.opened store checkpoint settings.retention, rfl⟩

theorem IsMirrored.start_empty
    (settings : Settings) (fragments : FragmentSource) (runtimes : RuntimeSource)
    (checkpoint : Checkpoint) (mailbox : Option Mailbox) :
    (start settings .empty fragments runtimes checkpoint mailbox).IsMirrored :=
  IsMirrored.started settings .empty fragments runtimes checkpoint mailbox

/-- Completing synchronisation writes nothing but the runtime code and the mark. -/
theorem Completes.get?_of_kind
    {record : Record} (beside : record.kind ∉ [.runtimeCode, .isSynced])
    (completes : session.Completes after) :
    after.ledger.store.get? record = session.ledger.store.get? record := by
  obtain ⟨withCode, saved, sameLedger, _⟩ := completes
  simp only [List.mem_cons, List.not_mem_nil, or_false, not_or] at beside
  rw [sameLedger, Store.get?_put_of_kind_ne beside.2]
  rcases saved with rfl | ⟨code, rfl⟩
  · rfl
  · rw [Store.get?_put_of_kind_ne beside.1]

theorem Completes.roster_eq (completes : session.Completes after) :
    after.ledger.roster = session.ledger.roster := by
  obtain ⟨_, _, sameLedger, _⟩ := completes
  rw [sameLedger]

theorem IsMirrored.complete (mirrored : session.IsMirrored) (completes : session.Completes after) :
    after.IsMirrored := by
  have sameHead : Head.load? after.ledger.store = Head.load? session.ledger.store := by
    rw [Head.load?, Head.load?, completes.get?_of_kind (by decide),
      completes.get?_of_kind (by decide), completes.get?_of_kind (by decide)]
  refine ⟨⟨?_, ?_, ?_, ?_⟩, ?_⟩
  · obtain ⟨_, _, sameLedger, _⟩ := completes
    rw [sameHead, mirrored.ledger.head, sameLedger]
  · rw [completes.get?_of_kind (by decide), completes.roster_eq, mirrored.ledger.setId]
  · rw [completes.get?_of_kind (by simp), completes.roster_eq,
      mirrored.ledger.authorities]
  · rw [completes.get?_of_kind (by decide), completes.roster_eq, mirrored.ledger.round]
  · obtain ⟨withCode, _, sameLedger, marked⟩ := completes
    rw [sameLedger, marked]
    exact congrArg (Option.getD · false) (Store.get?_put_self withCode .isSynced true)

/-- The step: one more operation, whether it succeeds or not, keeps the mirror. -/
theorem IsMirrored.perform (mirrored : session.IsMirrored) (operation : Operation) :
    (operation.perform primitives session).IsMirrored := by
  cases operation.hasEffect primitives session with
  | accepts _ finalized sameMark =>
      have sameRecord :
          (operation.perform primitives session).ledger.store.get? .isSynced =
            session.ledger.store.get? .isSynced :=
        Ledger.get?_finalize_of_kind (by decide) finalized
      refine ⟨mirrored.ledger.finalize finalized, ?_⟩
      rw [sameRecord, sameMark]
      exact mirrored.isSynced
  | completes completes => exact mirrored.complete completes
  | leaves sameLedger sameMark =>
      refine ⟨?_, ?_⟩
      · rw [sameLedger]
        exact mirrored.ledger
      · rw [sameLedger, sameMark]
        exact mirrored.isSynced

/-- The run: so does any list of operations. -/
theorem IsMirrored.performAll (mirrored : session.IsMirrored) (operations : List Operation) :
    (session.performAll primitives operations).IsMirrored := by
  induction operations generalizing session with
  | nil => exact mirrored
  | cons operation operations inductionHypothesis =>
      exact inductionHypothesis (mirrored.perform operation)

section Restart

variable (settings : Settings) (fragments : FragmentSource) (runtimes : RuntimeSource)
variable (checkpoint : Checkpoint) (mailbox : Option Mailbox)

/-- A session that is started from the store of a mirrored one has the same view and leaves the
store as it is. -/
theorem IsMirrored.view_restart (mirrored : session.IsMirrored) :
    (start settings session.ledger.store fragments runtimes checkpoint mailbox).view =
        session.view ∧
      (start settings session.ledger.store fragments runtimes checkpoint mailbox).ledger.store =
        session.ledger.store := by
  have opened := mirrored.ledger.ofStore checkpoint settings.retention
  constructor
  · simp only [view, start, head, opened, mirrored.isSynced]
    rfl
  · simp only [start, opened]

end Restart

end Session

/-! ## Steps and restarts -/

/-- What can happen to a session.  A restart keeps the store and nothing else. -/
inductive Turn
  | perform (operation : Operation)
  | beginSynchronisation
  | step
  | restart (fragments : FragmentSource) (runtimes : RuntimeSource) (checkpoint : Checkpoint)
      (mailbox : Option Mailbox)

/-- The stage and the session after a turn, whether it succeeded or not. -/
def Turn.take (primitives : Primitives) (settings : Settings) (bootstrap : Bootstrap) :
    Turn → Bootstrap
  | .perform operation =>
      { bootstrap with session := operation.perform primitives bootstrap.session }
  | .beginSynchronisation => .ofSession bootstrap.session
  | .step => (bootstrap.step primitives).2
  | .restart fragments runtimes checkpoint mailbox =>
      .ofSession
        (.start settings bootstrap.session.ledger.store fragments runtimes checkpoint mailbox)

def Bootstrap.takeAll
    (primitives : Primitives) (settings : Settings) (bootstrap : Bootstrap) (turns : List Turn) :
    Bootstrap :=
  turns.foldl (Turn.take primitives settings) bootstrap

/-- What a stage does to the session is one operation. -/
def Stage.operation? : Stage → Option Operation
  | .requestingFragments start => some (.requestFragments start)
  | .verifyingFragments => some .verifyNext
  | .downloadingRuntime => some .downloadRuntime
  | .finished _ => none

theorem Bootstrap.session_step (primitives : Primitives) (bootstrap : Bootstrap) :
    (bootstrap.step primitives).2.session =
      bootstrap.session.performAll primitives bootstrap.stage.operation?.toList := by
  obtain ⟨stage, session⟩ := bootstrap
  have handled :
      (stage.handle primitives session).2 =
        session.performAll primitives stage.operation?.toList := by
    cases stage <;> rfl
  rw [← handled]
  simp only [step]
  split <;> rfl

/-- Turns of any kind keep the mirror. -/
theorem Bootstrap.isMirrored_takeAll
    (settings : Settings) {bootstrap : Bootstrap} (mirrored : bootstrap.session.IsMirrored)
    (turns : List Turn) :
    (bootstrap.takeAll primitives settings turns).session.IsMirrored := by
  induction turns generalizing bootstrap with
  | nil => exact mirrored
  | cons turn turns inductionHypothesis =>
      apply inductionHypothesis
      cases turn with
      | perform operation => exact mirrored.perform operation
      | beginSynchronisation => exact mirrored
      | step =>
          rw [Turn.take, session_step]
          exact mirrored.performAll _
      | restart fragments runtimes checkpoint mailbox =>
          exact
            Session.IsMirrored.started settings bootstrap.session.ledger.store fragments runtimes
              checkpoint mailbox

/-- Whatever happened since a session was started from an empty store, one that is started from
its store has the same view, and starting it changes no record. -/
theorem Session.view_start_takeAll
    (primitives : Primitives) (settings : Settings)
    (fragments : FragmentSource) (runtimes : RuntimeSource)
    (checkpoint : Checkpoint) (mailbox : Option Mailbox) (turns : List Turn)
    (laterSettings : Settings) (laterFragments : FragmentSource) (laterRuntimes : RuntimeSource)
    (laterCheckpoint : Checkpoint) (laterMailbox : Option Mailbox) :
    let first := Session.start settings .empty fragments runtimes checkpoint mailbox
    let running := ((Bootstrap.ofSession first).takeAll primitives settings turns).session
    let restarted :=
      Session.start laterSettings running.ledger.store laterFragments laterRuntimes
        laterCheckpoint laterMailbox
    restarted.view = running.view ∧ restarted.ledger.store = running.ledger.store := by
  intro first running restarted
  have started : (Bootstrap.ofSession first).session.IsMirrored :=
    IsMirrored.start_empty settings fragments runtimes checkpoint mailbox
  have mirrored : running.IsMirrored := Bootstrap.isMirrored_takeAll settings started turns
  exact
    mirrored.view_restart laterSettings laterFragments laterRuntimes laterCheckpoint laterMailbox

end FinalitySync.Sync
