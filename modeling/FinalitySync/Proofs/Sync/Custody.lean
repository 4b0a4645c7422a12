import FinalitySync.Proofs.Grandpa.Succession
import FinalitySync.Proofs.Sync.Operation
import Mathlib.Data.List.Induction

/-!
# Chain of custody

Every authority set that a session knows goes back to the checkpoint it started from.  Each link is
a change that an earlier set signed for and that was due when the later set came into force.
-/

namespace FinalitySync.Sync

open Grandpa (Change Message Roster)

variable {primitives : Primitives} {start : Session} {operations : List Operation}

/-- `acceptance.Announces signers change` means that the accepted header announces the change, and
that it was justified by signers whom the session knew. -/
structure Acceptance.Announces
    (acceptance : Acceptance primitives start operations)
    (signers : AuthoritySet) (change : Change) : Prop where
  known :
    acceptance.before.ledger.roster.setFor? acceptance.fragment.justification.setId = some signers
  isJustified : acceptance.fragment.justification.check primitives signers = .ok ()
  isTarget :
    acceptance.fragment.justification.targetHash = acceptance.header.hash primitives ∧
      acceptance.fragment.justification.targetNumber = acceptance.header.number
  isAnnounced :
    ∃ payload ∈ acceptance.header.consensusLogs Message.engine, ∃ message sequence,
      Message.decode payload = .ok message ∧
        message.change? acceptance.header.number sequence = some change

/-- `acceptance.Installs setId change` means that the set of this number was first in force after
the accepted header, when the change was due. -/
structure Acceptance.Installs
    (acceptance : Acceptance primitives start operations)
    (setId : SetId) (change : Change) : Prop where
  setId_before_lt : acceptance.before.ledger.roster.setId < setId
  le_setId_after : setId ≤ acceptance.after.ledger.roster.setId
  isDue : change.applicationBlock ≤ acceptance.header.number

/-- A link from an authority set to the older one that signed for its authorities. -/
inductive Succession
    (primitives : Primitives) (start : Session) (operations : List Operation)
    (signers authoritySet : AuthoritySet) : Prop
  | intro (announcing enacting : Acceptance primitives start operations) (change : Change)
      (announces : announcing.Announces signers change)
      (installs : enacting.Installs authoritySet.setId change)
      (inOrder : announcing.earlier.length ≤ enacting.earlier.length)
      (sameAuthorities : authoritySet.authorities = change.authorities)
      (older : signers.setId < authoritySet.setId)

/-- The sets that a finite chain of links leads to from a first one. -/
inductive Custody
    (primitives : Primitives) (start : Session) (operations : List Operation)
    (root : AuthoritySet) : AuthoritySet → Prop
  | root : Custody primitives start operations root root
  | link {signers authoritySet : AuthoritySet}
      (custody : Custody primitives start operations root signers)
      (succession : Succession primitives start operations signers authoritySet) :
      Custody primitives start operations root authoritySet

theorem Acceptance.Announces.extend
    {acceptance : Acceptance primitives start operations}
    {signers : AuthoritySet} {change : Change}
    (announces : acceptance.Announces signers change) (more : List Operation) :
    (acceptance.extend more).Announces signers change :=
  ⟨announces.known, announces.isJustified, announces.isTarget, announces.isAnnounced⟩

theorem Acceptance.Installs.extend
    {acceptance : Acceptance primitives start operations}
    {setId : SetId} {change : Change}
    (installs : acceptance.Installs setId change) (more : List Operation) :
    (acceptance.extend more).Installs setId change :=
  ⟨installs.setId_before_lt, installs.le_setId_after, installs.isDue⟩

theorem Succession.extend
    {signers authoritySet : AuthoritySet}
    (succession : Succession primitives start operations signers authoritySet)
    (more : List Operation) :
    Succession primitives start (operations ++ more) signers authoritySet := by
  obtain ⟨announcing, enacting, change, announces, installs, inOrder, sameAuthorities, older⟩ :=
    succession
  exact
    ⟨announcing.extend more, enacting.extend more, change, announces.extend more,
      installs.extend more, inOrder, sameAuthorities, older⟩

theorem Custody.extend
    {root authoritySet : AuthoritySet}
    (custody : Custody primitives start operations root authoritySet)
    (more : List Operation) :
    Custody primitives start (operations ++ more) root authoritySet := by
  induction custody with
  | root => exact Custody.root
  | link _ succession inductionHypothesis =>
      exact Custody.link inductionHypothesis (succession.extend more)

/-- A change on the agenda was announced under signers in custody, no newer than a set number. -/
inductive IsVouched
    (primitives : Primitives) (start : Session) (operations : List Operation)
    (root : AuthoritySet) (setId : SetId) (change : Change) : Prop
  | intro (signers : AuthoritySet) (announcing : Acceptance primitives start operations)
      (custody : Custody primitives start operations root signers)
      (announces : announcing.Announces signers change)
      (notNewer : signers.setId ≤ setId)

/-- The invariant: known sets are in custody, and changes on the agenda are vouched for. -/
structure IsInCustody
    (primitives : Primitives) (start : Session) (operations : List Operation)
    (root : AuthoritySet) (roster : Roster) : Prop where
  isBounded : roster.IsBounded
  known : ∀ authoritySet ∈ roster.known, Custody primitives start operations root authoritySet
  agenda :
    ∀ change ∈ roster.agenda.toList,
      IsVouched primitives start operations root roster.setId change

theorem IsVouched.extend
    {root : AuthoritySet} {setId later : SetId} {change : Change}
    (vouched : IsVouched primitives start operations root setId change)
    (more : List Operation) (notLower : setId ≤ later) :
    IsVouched primitives start (operations ++ more) root later change := by
  obtain ⟨signers, announcing, custody, announces, notNewer⟩ := vouched
  exact
    ⟨signers, announcing.extend more, custody.extend more, announces.extend more,
      UInt64.le_trans notNewer notLower⟩

theorem IsInCustody.ofSet (authoritySet : AuthoritySet) (retention : Nat) :
    IsInCustody primitives start operations authoritySet (.ofSet authoritySet retention) where
  isBounded := by
    intro other member
    rw [List.mem_singleton.mp member]
    exact UInt64.le_refl _
  known := by
    intro other member
    rw [List.mem_singleton.mp member]
    exact Custody.root
  agenda := by
    intro change member
    cases member

theorem IsInCustody.received
    {root : AuthoritySet} {operation : Operation} {fragment : Fragment}
    (custody :
      IsInCustody primitives start operations root
        (start.performAll primitives operations).ledger.roster)
    (accepts : operation.Accepts primitives (start.performAll primitives operations) fragment)
    {messages : List Message}
    (approved :
      (start.performAll primitives operations).ledger.approve primitives fragment = .ok messages) :
    IsInCustody primitives start (operations ++ [operation]) root
      (((start.performAll primitives operations).ledger.recordRound
        fragment.justification).roster.receiveAll fragment.header.number messages) := by
  let ledger := (start.performAll primitives operations).ledger
  let received :=
    (ledger.recordRound fragment.justification).roster.receiveAll fragment.header.number messages
  have sameCurrent : received.current = ledger.roster.current := by
    rw [Roster.current_receiveAll, Ledger.current_recordRound]
  have sameKnown : received.known = ledger.roster.known := by
    rw [Roster.known, Roster.known, sameCurrent, Roster.superseded_receiveAll,
      Ledger.superseded_recordRound]
  have sameSetId : received.setId = ledger.roster.setId :=
    Ledger.setId_receiveAll_recordRound ledger fragment.justification fragment.header.number
      messages
  obtain ⟨acceptable, read⟩ := Ledger.accepts_of_approve approved
  obtain ⟨signers, knownSigners, justified⟩ := acceptable.isJustified
  have signersKnown := knownSigners.isKnown
  refine ⟨?_, ?_, ?_⟩
  · intro authoritySet member
    rw [sameKnown] at member
    rw [sameSetId]
    exact custody.isBounded authoritySet member
  · intro authoritySet member
    rw [sameKnown] at member
    exact (custody.known authoritySet member).extend [operation]
  · intro change member
    rw [sameSetId]
    rcases Roster.mem_agenda_of_receiveAll member with
      earlier | ⟨message, inMessages, sequence, announced⟩
    · rw [Ledger.agenda_recordRound] at earlier
      exact (custody.agenda change earlier).extend [operation] (UInt64.le_refl _)
    · -- The header itself announces the change, so whoever signed the header vouches for it.
      obtain ⟨payload, inLogs, decoded⟩ := Message.exists_payload_of_mem read inMessages
      refine
        ⟨signers, Acceptance.last accepts, (custody.known signers signersKnown).extend [operation],
          ?_, custody.isBounded signers signersKnown⟩
      exact
        ⟨Roster.setFor?_eq_some_iff_knows.mpr knownSigners, justified, acceptable.hitsTarget,
          ⟨payload, inLogs, message, sequence, decoded, announced⟩⟩

/-- The step: one more operation keeps the invariant. -/
theorem IsInCustody.perform
    {root : AuthoritySet}
    (custody :
      IsInCustody primitives start operations root
        (start.performAll primitives operations).ledger.roster)
    (operation : Operation) :
    IsInCustody primitives start (operations ++ [operation]) root
      (start.performAll primitives (operations ++ [operation])).ledger.roster := by
  have performed := Session.performAll_append_singleton primitives start operations operation
  rcases operation.perform_cases primitives (start.performAll primitives operations) with
    ⟨fragment, hasChanged, accepts, finalized⟩ | ⟨_, sameRoster⟩
  · obtain ⟨messages, changes, approved, drained⟩ := Ledger.exists_drain_of_finalize finalized
    rw [← performed] at drained
    have received := custody.received accepts approved
    have succeeds := Roster.succeeds_of_drain received.isBounded drained
    refine ⟨succeeds.isBounded, ?_, ?_⟩
    · intro authoritySet member
      rcases succeeds.mem_known authoritySet member with
        earlier | ⟨raised, change, onAgenda, due, sameAuthorities⟩
      · exact received.known authoritySet earlier
      · -- A new set has the authorities of a change on the agenda, whose signers are the link.
        obtain ⟨signers, announcing, signersCustody, announces, notNewer⟩ :=
          received.agenda change onAgenda
        have installs :
            (Acceptance.last accepts).Installs authoritySet.setId change := by
          refine ⟨?_, ?_, due⟩
          · rw [Ledger.setId_receiveAll_recordRound] at raised
            exact raised
          · rw [performed] at member succeeds
            exact succeeds.isBounded authoritySet member
        have inOrder : announcing.earlier.length ≤ operations.length := by
          have shorter := announcing.length_earlier_lt
          rw [List.length_append, List.length_singleton] at shorter
          omega
        exact
          Custody.link signersCustody
            ⟨announcing, Acceptance.last accepts, change, announces, installs, inOrder,
              sameAuthorities, UInt64.lt_of_le_of_lt notNewer raised⟩
    · intro change member
      obtain ⟨signers, announcing, signersCustody, announces, notNewer⟩ :=
        received.agenda change (succeeds.mem_agenda change member)
      exact
        ⟨signers, announcing, signersCustody, announces,
          UInt64.le_trans notNewer succeeds.setId_le⟩
  · rw [performed, sameRoster]
    exact
      { isBounded := custody.isBounded
        known := fun authoritySet member => (custody.known authoritySet member).extend [operation]
        agenda := fun change member =>
          (custody.agenda change member).extend [operation] (UInt64.le_refl _) }

/-- The run: so it is after any list of operations. -/
theorem IsInCustody.performAll
    {root : AuthoritySet}
    (initial : IsInCustody primitives start [] root start.ledger.roster)
    (operations : List Operation) :
    IsInCustody primitives start operations root
      (start.performAll primitives operations).ledger.roster := by
  induction operations using List.reverseRecOn with
  | nil => exact initial
  | append_singleton operations operation inductionHypothesis =>
      exact inductionHypothesis.perform operation

namespace Handover

/-- The change that the header announces, as the first of its session. -/
def change : Change := Change.scheduled [successor] 0 1 0

theorem enacted_change :
    (Grandpa.Agenda.empty.insert change).enacted header.number = [change] := by
  have found : (Grandpa.Agenda.empty.insert change).firstDue? header.number = some change := rfl
  rw [Grandpa.Agenda.enacted_of_firstDue?_eq_some found,
    Grandpa.Agenda.enacted_of_firstDue?_eq_none rfl]

/-- The roster in which the header's change is announced and not in force. -/
def announced : Roster :=
  (session.ledger.recordRound fragment.justification).roster.receiveAll header.number
    [.scheduledChange [successor] 0]

theorem drain_announced :
    announced.drain header.number = .ok ([change], announced.enact change) := by
  have enacted : announced.agenda.enacted header.number = [change] := enacted_change
  have lasting : announced.setId.toNat + [change].length < 2 ^ 64 := by decide
  rw [Roster.drain_eq, enacted, if_pos lasting]
  rfl

end Handover

end FinalitySync.Sync
