import FinalitySync.Proofs.Sync.History

/-!
# Sessions agree on what they accepted

Justifications decide which headers are accepted, and nothing else of the authority sets: what a
session is left with follows from the accepted headers alone, but for the round, the precommits that
are kept, and what the sources of runtime code answer.
-/

namespace FinalitySync

open Grandpa (Change Message Roster)

namespace Grandpa.Roster

def withRound (roster : Roster) (round : RoundNumber) : Roster := roster.mapRound fun _ => round

theorem receiveAll_withRound
    (roster : Roster) (round : RoundNumber) (block : BlockNumber) (messages : List Message) :
    (roster.withRound round).receiveAll block messages =
      (roster.receiveAll block messages).withRound round :=
  receiveAll_mapRound roster (fun _ => round) block messages

/-- A new set starts over with its rounds, so the round matters only while there is none. -/
theorem exists_foldl_enact_withRound
    (roster : Roster) (round : RoundNumber) (changes : List Change) :
    ∃ lastRound,
      changes.foldl enact (roster.withRound round) =
        (changes.foldl enact roster).withRound lastRound := by
  cases changes with
  | nil => exact ⟨round, rfl⟩
  | cons change changes => exact ⟨_, rfl⟩

theorem exists_drain_withRound
    {roster last : Roster} {block : BlockNumber} {changes : List Change}
    (drained : roster.drain block = .ok (changes, last)) (round : RoundNumber) :
    ∃ lastRound, (roster.withRound round).drain block = .ok (changes, last.withRound lastRound) := by
  rw [drain_eq] at drained
  split at drained
  · rename_i lasting
    cases drained
    obtain ⟨lastRound, enacted⟩ :=
      exists_foldl_enact_withRound roster round (roster.agenda.enacted block)
    refine ⟨lastRound, ?_⟩
    rw [drain_eq, ← enacted]
    exact if_pos lasting
  · cases drained

theorem get?_persist_withRound
    {store other : Store} {record : Record} (same : store.get? record = other.get? record)
    (beside : record.kind ≠ Record.latestRound.kind) (roster : Roster) (round : RoundNumber) :
    (roster.persist store).get? record = ((roster.withRound round).persist other).get? record := by
  have withSet :
      ((store.put (.authorities roster.setId) roster.current.authorities).put .currentSetId
          roster.setId).get? record =
        ((other.put (.authorities roster.setId) roster.current.authorities).put .currentSetId
          roster.setId).get? record :=
    Store.get?_put_congr (Store.get?_put_congr same _ _) _ _
  have written (base : Store) (latest : RoundNumber) :
      (base.put .latestRound latest).get? record = base.get? record :=
    Store.get?_put_of_kind_ne beside base latest
  exact (written _ _).trans (withSet.trans (written _ _).symm)

end Grandpa.Roster

namespace Sync

variable {primitives : Primitives}

/-- The records that do not follow from headers: rounds with their precommits, and what is kept when
synchronisation is completed. -/
def incidentalKinds : List Record.Kind := [.latestRound, .precommits, .runtimeCode, .isSynced]

namespace Ledger

/-- The ledger after a header, as if no round was noted. -/
def follow (primitives : Primitives) (ledger : Ledger) (header : Header) :
    Except Failure Ledger := do
  let messages ← (Message.ofHeader header).mapError .badMessage
  let (_, next) ←
    ((ledger.advance primitives header).applyMessages header.number messages).mapError .overflow
  return next

def followAll (primitives : Primitives) (ledger : Ledger) : List Header → Except Failure Ledger
  | [] => .ok ledger
  | header :: headers => do (← ledger.follow primitives header).followAll primitives headers

/-- Ledgers that differ in nothing but the round and incidental records. -/
structure Agrees (ledger other : Ledger) : Prop where
  head : ledger.head = other.head
  roster : other.roster = ledger.roster.withRound other.roster.round
  records :
    ∀ record : Record,
      record.kind ∉ incidentalKinds → ledger.store.get? record = other.store.get? record

variable {ledger other next : Ledger} {fragment : Fragment} {hasChanged : Bool}

theorem Agrees.refl (ledger : Ledger) : ledger.Agrees ledger := ⟨rfl, rfl, fun _ _ => rfl⟩

/-- Ledgers that agree with a third one agree with each other. -/
theorem Agrees.of_common
    {followed : Ledger} (agrees : ledger.Agrees followed) (agreesOther : other.Agrees followed) :
    ledger.Agrees other where
  head := agrees.head.trans agreesOther.head.symm
  roster := by
    have sameInRound :
        other.roster.withRound followed.roster.round =
          ledger.roster.withRound followed.roster.round :=
      agreesOther.roster.symm.trans agrees.roster
    have sameAfter := congrArg (Roster.withRound · other.roster.round) sameInRound
    exact sameAfter
  records := by
    intro record beside
    exact (agrees.records record beside).trans (agreesOther.records record beside).symm

theorem Agrees.advance (agrees : ledger.Agrees other) (header : Header) :
    (ledger.advance primitives header).Agrees (other.advance primitives header) where
  head := rfl
  roster := agrees.roster
  records := by
    intro record beside
    have same := agrees.records record beside
    exact Store.get?_put_congr (Store.get?_put_congr (Store.get?_put_congr same _ _) _ _) _ _

theorem Agrees.recordRound (agrees : ledger.Agrees other) (justification : Justification) :
    (ledger.recordRound justification).Agrees other := by
  refine ⟨?_, ?_, ?_⟩
  · rw [head_recordRound]
    exact agrees.head
  · rw [roster_recordRound]
    split
    · exact agrees.roster
    · exact agrees.roster
  · intro record beside
    have besideRound : record.kind ∉ [Record.Kind.latestRound, .precommits] := by
      simp only [incidentalKinds, List.mem_cons, List.not_mem_nil, or_false, not_or] at beside ⊢
      exact ⟨beside.1, beside.2.1⟩
    rw [get?_recordRound_of_kind besideRound]
    exact agrees.records record beside

theorem Agrees.applyMessages
    {number : BlockNumber} {messages : List Message} (agrees : ledger.Agrees other)
    (applied : ledger.applyMessages number messages = .ok (hasChanged, next)) :
    ∃ followed,
      other.applyMessages number messages = .ok (hasChanged, followed) ∧ next.Agrees followed := by
  rw [Ledger.applyMessages] at applied
  cases drained : (ledger.roster.receiveAll number messages).drain number with
  | error overflow =>
      rw [drained] at applied
      cases applied
  | ok outcome =>
      obtain ⟨changes, last⟩ := outcome
      rw [drained] at applied
      obtain ⟨lastRound, drainedOther⟩ :=
        Roster.exists_drain_withRound drained other.roster.round
      rw [← Roster.receiveAll_withRound, ← agrees.roster] at drainedOther
      rw [Ledger.applyMessages, drainedOther]
      cases changes with
      | nil =>
          cases applied
          exact ⟨_, rfl, agrees.head, rfl, agrees.records⟩
      | cons change changes =>
          cases applied
          refine ⟨_, rfl, agrees.head, rfl, ?_⟩
          intro record beside
          have besideRound : record.kind ≠ Record.latestRound.kind := by
            rintro isRound
            exact beside (isRound ▸ List.mem_cons_self)
          exact
            Roster.get?_persist_withRound (agrees.records record beside) besideRound last lastRound

/-- A justification that lets a header be accepted has no more influence. -/
theorem Agrees.finalize
    (agrees : ledger.Agrees other)
    (finalized : ledger.finalize primitives fragment = .ok (hasChanged, next)) :
    ∃ followed,
      other.follow primitives fragment.header = .ok followed ∧ next.Agrees followed := by
  obtain ⟨messages, approved, applied⟩ := finalize_eq_ok_iff.mp finalized
  have read := (accepts_of_approve approved).2
  have advanced :
      (ledger.advance primitives fragment.header).Agrees
        (other.advance primitives fragment.header) :=
    agrees.advance fragment.header
  have recorded := advanced.recordRound fragment.justification
  obtain ⟨followed, appliedToo, agreesNext⟩ := recorded.applyMessages applied
  refine ⟨followed, ?_, agreesNext⟩
  simp only [follow, read, Except.mapError, bind, Except.bind, appliedToo]
  rfl

end Ledger

namespace Operation

/-- The header that an operation accepts. -/
def acceptedHeader? (primitives : Primitives) (session : Session) : Operation → Option Header
  | .verifyNext =>
      match session.queue, (session.verifyNext primitives).1 with
      | fragment :: _, .ok () => some fragment.header
      | _, _ => none
  | .importCommit fragment =>
      match (session.importCommit primitives fragment).1 with
      | .ok true => some fragment.header
      | _ => none
  | _ => none

variable {session : Session} {operation : Operation} {fragment : Fragment}

theorem Accepts.acceptedHeader?_eq (accepts : operation.Accepts primitives session fragment) :
    operation.acceptedHeader? primitives session = some fragment.header := by
  cases accepts with
  | verifyNext queued succeeded => simp only [acceptedHeader?, queued, succeeded]
  | importCommit succeeded => simp only [acceptedHeader?, succeeded]

/-- A block up to the head is passed over. -/
theorem acceptedHeader?_importCommit_of_le
    (behind : fragment.header.number ≤ session.head.number) :
    (importCommit fragment).acceptedHeader? primitives session = none := by
  rw [acceptedHeader?, Session.importCommit_of_le behind]

theorem exists_accepts_of_acceptedHeader?
    {header : Header} (accepted : operation.acceptedHeader? primitives session = some header) :
    ∃ fragment, operation.Accepts primitives session fragment ∧ fragment.header = header := by
  cases operation with
  | verifyNext =>
      simp only [acceptedHeader?] at accepted
      split at accepted
      · rename_i fragment rest queued succeeded
        cases accepted
        exact ⟨fragment, .verifyNext queued succeeded, rfl⟩
      · cases accepted
  | importCommit fragment =>
      simp only [acceptedHeader?] at accepted
      split at accepted
      · rename_i succeeded
        cases accepted
        exact ⟨fragment, .importCommit succeeded, rfl⟩
      · cases accepted
  | enqueue fragments => cases accepted
  | requestFragments start => cases accepted
  | downloadRuntime => cases accepted

end Operation

namespace Session

/-- The headers that a run accepts, in order. -/
def acceptedHeaders (primitives : Primitives) (session : Session) : List Operation → List Header
  | [] => []
  | operation :: operations =>
      (operation.acceptedHeader? primitives session).toList ++
        (operation.perform primitives session).acceptedHeaders primitives operations

variable {session : Session} {ledger : Ledger}

theorem acceptedHeaders_cons_of_none
    {operation : Operation} (accepted : operation.acceptedHeader? primitives session = none)
    (operations : List Operation) :
    session.acceptedHeaders primitives (operation :: operations) =
      (operation.perform primitives session).acceptedHeaders primitives operations := by
  rw [acceptedHeaders, accepted]
  rfl

theorem acceptedHeaders_cons_of_some
    {operation : Operation} {header : Header}
    (accepted : operation.acceptedHeader? primitives session = some header)
    (operations : List Operation) :
    session.acceptedHeaders primitives (operation :: operations) =
      header :: (operation.perform primitives session).acceptedHeaders primitives operations := by
  rw [acceptedHeaders, accepted]
  rfl

theorem Completes.agrees
    {after : Session} (completes : session.Completes after) (agrees : session.ledger.Agrees ledger) :
    after.ledger.Agrees ledger := by
  refine ⟨?_, ?_, ?_⟩
  · obtain ⟨_, _, sameLedger, _⟩ := completes
    rw [sameLedger]
    exact agrees.head
  · rw [completes.roster_eq]
    exact agrees.roster
  · intro record beside
    have besideCode : record.kind ∉ [Record.Kind.runtimeCode, .isSynced] := by
      simp only [incidentalKinds, List.mem_cons, List.not_mem_nil, or_false, not_or] at beside ⊢
      exact beside.2.2
    rw [completes.get?_of_kind besideCode]
    exact agrees.records record beside

/-- An operation that accepts nothing changes nothing that matters. -/
theorem agrees_perform_of_none
    {operation : Operation} (agrees : session.ledger.Agrees ledger)
    (accepted : operation.acceptedHeader? primitives session = none) :
    (operation.perform primitives session).ledger.Agrees ledger := by
  cases operation.hasEffect primitives session with
  | accepts accepts _ _ =>
      rw [accepts.acceptedHeader?_eq] at accepted
      cases accepted
  | completes completes => exact completes.agrees agrees
  | leaves sameLedger _ =>
      rw [sameLedger]
      exact agrees

/-- A run is left with what follows from the headers that it accepted. -/
theorem exists_followAll
    (agrees : session.ledger.Agrees ledger) (operations : List Operation) :
    ∃ followed,
      ledger.followAll primitives (session.acceptedHeaders primitives operations) = .ok followed ∧
        (session.performAll primitives operations).ledger.Agrees followed := by
  -- The ledger that is followed makes a step only where the run accepts a header.
  induction operations generalizing session ledger with
  | nil => exact ⟨ledger, rfl, agrees⟩
  | cons operation operations inductionHypothesis =>
      cases accepted : operation.acceptedHeader? primitives session with
      | none =>
          obtain ⟨followed, reached, agreesLast⟩ :=
            inductionHypothesis (agrees_perform_of_none agrees accepted)
          refine ⟨followed, ?_, agreesLast⟩
          rw [acceptedHeaders_cons_of_none accepted]
          exact reached
      | some header =>
          obtain ⟨fragment, accepts, rfl⟩ :=
            Operation.exists_accepts_of_acceptedHeader? accepted
          obtain ⟨hasChanged, finalized⟩ := accepts.finalize
          obtain ⟨next, followedOne, agreesNext⟩ := agrees.finalize finalized
          obtain ⟨followed, reached, agreesLast⟩ := inductionHypothesis agreesNext
          refine ⟨followed, ?_, agreesLast⟩
          rw [acceptedHeaders_cons_of_some accepted, Ledger.followAll, followedOne]
          exact reached

theorem exists_followAll_start
    (primitives : Primitives) (settings : Settings) (checkpoint : Checkpoint)
    (fragments : FragmentSource) (runtimes : RuntimeSource) (mailbox : Option Mailbox)
    (operations : List Operation) :
    let session := start settings .empty fragments runtimes checkpoint mailbox
    ∃ followed,
      (Ledger.ofStore .empty checkpoint settings.retention).followAll primitives
          (session.acceptedHeaders primitives operations) = .ok followed ∧
        (session.performAll primitives operations).ledger.Agrees followed := by
  intro session
  have agrees : session.ledger.Agrees (.ofStore .empty checkpoint settings.retention) :=
    Ledger.Agrees.refl _
  exact exists_followAll agrees operations

/-- Two runs from one checkpoint that accept the same headers are left with the same head, set
number, authorities, superseded sets, agenda and disabled authority, whatever justifications, rounds
and sources they had and whatever they refused.  Only the round may differ in memory, and only
incidental records in the store. -/
theorem agreement_of_sameHeaders
    (primitives : Primitives) (settings : Settings) (checkpoint : Checkpoint)
    (fragments fragmentsThere : FragmentSource) (runtimes runtimesThere : RuntimeSource)
    (mailbox mailboxThere : Option Mailbox) (operations operationsThere : List Operation)
    (sameHeaders :
      (start settings .empty fragments runtimes checkpoint mailbox).acceptedHeaders primitives
          operations =
        (start settings .empty fragmentsThere runtimesThere checkpoint
          mailboxThere).acceptedHeaders primitives operationsThere) :
    let here :=
      (start settings .empty fragments runtimes checkpoint mailbox).performAll primitives operations
    let there :=
      (start settings .empty fragmentsThere runtimesThere checkpoint mailboxThere).performAll
        primitives operationsThere
    here.head = there.head ∧
      here.ledger.roster.setId = there.ledger.roster.setId ∧
      here.ledger.roster.current.authorities = there.ledger.roster.current.authorities ∧
      here.ledger.roster.superseded = there.ledger.roster.superseded ∧
      here.ledger.roster.agenda = there.ledger.roster.agenda ∧
      here.ledger.roster.disabled = there.ledger.roster.disabled ∧
      there.ledger.roster = { here.ledger.roster with round := there.ledger.roster.round } ∧
      ∀ record : Record,
        record.kind ∉ incidentalKinds →
          here.ledger.store.get? record = there.ledger.store.get? record := by
  intro here there
  obtain ⟨followed, reached, agrees⟩ :=
    exists_followAll_start primitives settings checkpoint fragments runtimes mailbox operations
  obtain ⟨followedThere, reachedThere, agreesThere⟩ :=
    exists_followAll_start primitives settings checkpoint fragmentsThere runtimesThere
      mailboxThere operationsThere
  rw [sameHeaders, reachedThere] at reached
  cases reached
  have agree := agrees.of_common agreesThere
  have fromRoster {Part : Type} (part : Roster → Part) :
      part there.ledger.roster =
        part (here.ledger.roster.withRound there.ledger.roster.round) :=
    congrArg part agree.roster
  refine ⟨agree.head, ?_, ?_, ?_, ?_, ?_, agree.roster, agree.records⟩
  · exact (fromRoster Roster.setId).symm
  · exact (fromRoster fun roster => roster.current.authorities).symm
  · exact (fromRoster Roster.superseded).symm
  · exact (fromRoster Roster.agenda).symm
  · exact (fromRoster Roster.disabled).symm

end Session

/-! ## Two finalities of one block -/

namespace Relay

open Handover (checkpoint session)

/-- The first block, made final in a later round. -/
def firstAgain : Fragment :=
  signed announcing 7
    ⟨⟨[232, 15, 152, 220, 45, 125, 99, 207, 206, 181, 143, 125, 81, 91, 90, 194, 100, 234, 69,
        130, 153, 199, 205, 0, 218, 110, 10, 162, 127, 107, 40, 12, 225, 241, 1, 178, 56, 130,
        79, 65, 88, 148, 126, 62, 225, 37, 52, 237, 77, 10, 248, 26, 235, 94, 180, 170, 205, 211,
        105, 4, 241, 71, 247, 14], rfl⟩⟩

theorem isFinal_firstAgain :
    firstAgain.justification.check .standard checkpoint.authoritySet = .ok () := by
  decide +kernel

theorem accepts_firstAgain : session.ledger.Accepts .standard firstAgain where
  extendsHead := accepts_first.extendsHead
  hitsTarget := ⟨rfl, rfl⟩
  isJustified :=
    ⟨checkpoint.authoritySet, Roster.setFor?_eq_some_iff_knows.mp rfl, isFinal_firstAgain⟩
  isReadable := accepts_first.isReadable

theorem verifies_firstAgain :
    Operation.verifyNext.Accepts .standard (session.enqueue [firstAgain]) firstAgain := by
  have room : session.ledger.HasRoomFor firstAgain := Ledger.HasRoomFor.of_lt (by decide)
  obtain ⟨hasChanged, next, finalized⟩ := Ledger.finalize_of_accepts accepts_firstAgain room
  have queued : (session.enqueue [firstAgain]).queue = [firstAgain] := rfl
  have sameLedger : (session.enqueue [firstAgain]).ledger = session.ledger := rfl
  rw [← sameLedger] at finalized
  obtain ⟨mailbox, verified⟩ := Session.verifyNext_of_finalize_ok queued finalized
  apply Operation.Accepts.verifyNext queued
  rw [verified]

/-- Verifies the first block, and then refuses it as one that is not past the head. -/
def detour : List Operation := [.enqueue [firstAgain], .verifyNext, .importCommit first]

theorem acceptedHeaders_first :
    session.acceptedHeaders .standard [.importCommit first] = [announcing] := by
  rw [Session.acceptedHeaders_cons_of_some imports_first.acceptedHeader?_eq,
    Session.acceptedHeaders]
  rfl

theorem acceptedHeader?_first_of_firstAgain :
    (Operation.importCommit first).acceptedHeader? .standard
        (Operation.verifyNext.perform .standard (session.enqueue [firstAgain])) = none := by
  apply Operation.acceptedHeader?_importCommit_of_le
  rw [verifies_firstAgain.head_perform]
  exact UInt32.le_refl _

theorem acceptedHeaders_detour : session.acceptedHeaders .standard detour = [announcing] := by
  have noneEnqueued :
      (Operation.enqueue [firstAgain]).acceptedHeader? .standard session = none := rfl
  have enqueued :
      (Operation.enqueue [firstAgain]).perform .standard session =
        session.enqueue [firstAgain] := rfl
  rw [detour, Session.acceptedHeaders_cons_of_none noneEnqueued, enqueued,
    Session.acceptedHeaders_cons_of_some verifies_firstAgain.acceptedHeader?_eq,
    Session.acceptedHeaders_cons_of_none acceptedHeader?_first_of_firstAgain,
    Session.acceptedHeaders]
  rfl

end Relay

/-- The round in which the first block was made final leaves no trace but itself. -/
theorem Session.agreement_of_sameHeaders_relay :
    Handover.session.acceptedHeaders .standard [.importCommit Relay.first] =
        Handover.session.acceptedHeaders .standard Relay.detour ∧
      (Handover.session.performAll .standard [.importCommit Relay.first]).head =
        (Handover.session.performAll .standard Relay.detour).head ∧
      (Handover.session.performAll .standard [.importCommit Relay.first]).ledger.roster.agenda =
        (Handover.session.performAll .standard Relay.detour).ledger.roster.agenda := by
  have sameHeaders := Relay.acceptedHeaders_first.trans Relay.acceptedHeaders_detour.symm
  have agreement :=
    agreement_of_sameHeaders .standard .standard Handover.checkpoint Handover.fragments
      Handover.fragments Handover.runtimes Handover.runtimes none none
      [.importCommit Relay.first] Relay.detour
  rw [← Handover.session] at agreement
  obtain ⟨sameHead, _, _, _, sameAgenda, _⟩ := agreement sameHeaders
  exact ⟨sameHeaders, sameHead, sameAgenda⟩

end Sync

end FinalitySync
