import FinalitySync.Proofs.Grandpa.Retention
import FinalitySync.Proofs.Sync.Mirror
import Mathlib.Data.List.Infix

/-!
# What a restart keeps of the superseded sets

A set goes into the store when it is in force after an operation.  Of several sets that one block
brings into force only the last one does, so the others are known in memory and lost by a restart.
-/

namespace FinalitySync.Sync

open Grandpa (Message Roster)

variable {primitives : Primitives}

/-- `ledger.HasHistory first retention settled` says which sets are known, going back to the first
one, and that the store has those whose numbers are settled. -/
structure Ledger.HasHistory
    (first : SetId) (retention : Nat) (settled : SetId → Prop) (ledger : Ledger) : Prop where
  past : ledger.roster.HasPast first
  retention : ledger.roster.retention = retention
  current : settled ledger.roster.setId
  bounds :
    ∀ setId, settled setId →
      first.toNat ≤ setId.toNat ∧ setId.toNat ≤ ledger.roster.setId.toNat
  stored :
    ∀ setId authorities,
      ledger.store.get? (.authorities setId) = some authorities → settled setId
  known :
    ∀ authoritySet ∈ ledger.roster.known, settled authoritySet.setId →
      ledger.store.get? (.authorities authoritySet.setId) = some authoritySet.authorities

namespace Ledger.HasHistory

variable {first : SetId} {retention : Nat} {settled : SetId → Prop} {ledger next : Ledger}

/-- Only the sets, their retention and their records matter. -/
theorem congr
    (history : ledger.HasHistory first retention settled)
    (sameCurrent : next.roster.current = ledger.roster.current)
    (sameSuperseded : next.roster.superseded = ledger.roster.superseded)
    (sameRetention : next.roster.retention = ledger.roster.retention)
    (sameRecords :
      ∀ setId, next.store.get? (.authorities setId) = ledger.store.get? (.authorities setId)) :
    next.HasHistory first retention settled := by
  have sameSetId : next.roster.setId = ledger.roster.setId :=
    congrArg AuthoritySet.setId sameCurrent
  have sameKnown : next.roster.known = ledger.roster.known := by
    rw [Roster.known, Roster.known, sameCurrent, sameSuperseded]
  refine ⟨history.past.congr sameCurrent sameSuperseded sameRetention, ?_, ?_, ?_, ?_, ?_⟩
  · rw [sameRetention]
    exact history.retention
  · rw [sameSetId]
    exact history.current
  · rw [sameSetId]
    exact history.bounds
  · intro setId authorities saved
    rw [sameRecords] at saved
    exact history.stored setId authorities saved
  · intro authoritySet member isSettled
    rw [sameKnown] at member
    rw [sameRecords]
    exact history.known authoritySet member isSettled

/-- The settled numbers may be described in another way. -/
theorem of_settled_iff
    {settledToo : SetId → Prop} (history : ledger.HasHistory first retention settled)
    (same : ∀ setId, settledToo setId ↔ settled setId) :
    ledger.HasHistory first retention settledToo := by
  have samePredicate : settledToo = settled := funext fun setId => propext (same setId)
  rw [samePredicate]
  exact history

theorem of_same_setId
    (history : ledger.HasHistory first retention settled) :
    ledger.HasHistory first retention fun setId =>
      settled setId ∨ setId = ledger.roster.setId := by
  apply history.of_settled_iff
  intro setId
  constructor
  · rintro (isSettled | rfl)
    · exact isSettled
    · exact history.current
  · exact Or.inl

theorem recorded
    (history : ledger.HasHistory first retention settled)
    (header : Header) (justification : Justification) :
    ((ledger.advance primitives header).recordRound justification).HasHistory first retention
      settled := by
  have sameRoster := roster_recordRound (ledger.advance primitives header) justification
  have sameRetention :
      ((ledger.advance primitives header).recordRound justification).roster.retention =
        ledger.roster.retention := by
    rw [sameRoster]
    split <;> rfl
  have sameRecords (setId : SetId) :
      ((ledger.advance primitives header).recordRound justification).store.get?
          (.authorities setId) =
        ledger.store.get? (.authorities setId) := by
    rw [get?_recordRound_of_kind (by simp),
      get?_advance_of_kind (by simp)]
  exact
    history.congr (current_recordRound _ _) (superseded_recordRound _ _) sameRetention sameRecords

/-- A block's messages settle the set that is in force after them. -/
theorem applied
    {number : BlockNumber} {messages : List Message} {hasChanged : Bool}
    (history : ledger.HasHistory first retention settled)
    (applied : ledger.applyMessages number messages = .ok (hasChanged, next)) :
    next.HasHistory first retention fun setId =>
      settled setId ∨ setId = next.roster.setId := by
  let received := ledger.roster.receiveAll number messages
  have sameKnown : received.known = ledger.roster.known := by
    rw [Roster.known, Roster.current_receiveAll, Roster.superseded_receiveAll]
    rfl
  have sameSetId : received.setId = ledger.roster.setId := by
    rw [Roster.setId, Roster.current_receiveAll]
    rfl
  have receivedPast : received.HasPast first :=
    history.past.congr (Roster.current_receiveAll _ _ _) (Roster.superseded_receiveAll _ _ _)
      (Roster.retention_receiveAll _ _ _)
  obtain ⟨changes, drained, ⟨noneEnacted, sameStore⟩ | ⟨someEnacted, persisted⟩⟩ :=
    applyMessages_cases applied
  · rw [noneEnacted] at drained
    have sameRoster : next.roster = received := Roster.eq_of_drain_nil drained
    have unchanged : next.HasHistory first retention settled := by
      apply history.congr
      · rw [sameRoster]
        exact Roster.current_receiveAll _ _ _
      · rw [sameRoster]
        exact Roster.superseded_receiveAll _ _ _
      · rw [sameRoster]
        exact Roster.retention_receiveAll _ _ _
      · intro setId
        rw [sameStore]
    exact unchanged.of_same_setId
  · have raised : ledger.roster.setId.toNat < next.roster.setId.toNat := by
      have counted : next.roster.setId.toNat = received.setId.toNat + changes.length :=
        Roster.toNat_setId_of_drain drained
      have positive := List.length_pos_iff.mpr someEnacted
      rw [← sameSetId]
      omega
    have past := receivedPast.drain drained
    have succeeds := Roster.succeeds_of_drain receivedPast.isBounded drained
    have record (setId : SetId) :
        next.store.get? (.authorities setId) =
          if setId = next.roster.setId then some next.roster.current.authorities
          else ledger.store.get? (.authorities setId) := by
      rw [persisted, Roster.get?_persist_authorities]
    refine ⟨past, ?_, Or.inr rfl, ?_, ?_, ?_⟩
    · rw [Roster.retention_of_drain drained, Roster.retention_receiveAll]
      exact history.retention
    · rintro setId (isSettled | rfl)
      · have bounds := history.bounds setId isSettled
        exact ⟨bounds.1, by omega⟩
      · exact ⟨past.first_le, Nat.le_refl _⟩
    · intro setId authorities saved
      rw [record] at saved
      split at saved
      · rename_i isNew
        exact Or.inr isNew
      · exact Or.inl (history.stored setId authorities saved)
    · intro authoritySet member isSettled
      rw [record]
      by_cases isNew : authoritySet.setId = next.roster.setId
      · have isCurrent : authoritySet = next.roster.current :=
          past.eq_of_setId_eq member (List.mem_append_right _ List.mem_cons_self) isNew
        rw [if_pos isNew, isCurrent]
      · -- A set that was settled before is no newer than the set before, so it was known then.
        have settledBefore : settled authoritySet.setId := isSettled.resolve_right isNew
        have notNewer := (history.bounds _ settledBefore).2
        rw [if_neg isNew]
        rcases succeeds.mem_known authoritySet member with earlier | ⟨newer, _⟩
        · rw [sameKnown] at earlier
          exact history.known authoritySet earlier settledBefore
        · rw [UInt64.lt_iff_toNat_lt, sameSetId] at newer
          omega

theorem finalize
    {fragment : Fragment} {hasChanged : Bool}
    (history : ledger.HasHistory first retention settled)
    (finalized : ledger.finalize primitives fragment = .ok (hasChanged, next)) :
    next.HasHistory first retention fun setId => settled setId ∨ setId = next.roster.setId := by
  obtain ⟨messages, _, handled⟩ := finalize_eq_ok_iff.mp finalized
  exact (history.recorded fragment.header fragment.justification).applied handled

theorem ofStore_empty (checkpoint : Checkpoint) (retention : Nat) :
    (ofStore .empty checkpoint retention).HasHistory checkpoint.setId retention
      fun setId => setId = checkpoint.setId := by
  let roster := Roster.ofSet checkpoint.authoritySet retention
  have opened := Ledger.ofStore_empty checkpoint retention
  have record (setId : SetId) :
      (Ledger.ofStore .empty checkpoint retention).store.get? (.authorities setId) =
        if setId = checkpoint.setId then some checkpoint.authorities else none := by
    rw [opened, Head.get?_persist_of_kind (by simp), Roster.get?_persist_authorities,
      Store.get?_empty]
    rfl
  have sameRoster : (Ledger.ofStore .empty checkpoint retention).roster = roster := by
    rw [opened]
  refine ⟨?_, ?_, ?_, ?_, ?_, ?_⟩
  · rw [sameRoster]
    exact Roster.HasPast.ofSet checkpoint.authoritySet retention
  · rw [sameRoster]
    rfl
  · rw [sameRoster]
    rfl
  · rw [sameRoster]
    rintro setId rfl
    exact ⟨Nat.le_refl _, Nat.le_refl _⟩
  · intro setId authorities saved
    rw [record] at saved
    split at saved
    · assumption
    · cases saved
  · intro authoritySet member isSettled
    rw [sameRoster] at member
    rw [record, if_pos isSettled, List.mem_singleton.mp member]
    rfl

/-- A restart knows the settled ones among the known sets. -/
theorem mem_known_ofStore
    (history : ledger.HasHistory first retention settled) (mirrored : ledger.IsMirrored)
    (checkpoint : Checkpoint) {authoritySet : AuthoritySet} :
    authoritySet ∈ (Ledger.ofStore ledger.store checkpoint retention).roster.known ↔
      authoritySet ∈ ledger.roster.known ∧ settled authoritySet.setId := by
  rw [mirrored.ofStore, Roster.known]
  dsimp only
  rw [List.mem_append, Roster.mem_loadSuperseded, List.mem_singleton]
  have isKnown : ledger.roster.current ∈ ledger.roster.known :=
    List.mem_append_right _ List.mem_cons_self
  have oldest : ledger.roster.oldest first =
      max first.toNat (ledger.roster.setId.toNat - retention) := by
    rw [Roster.oldest, history.retention]
  constructor
  · rintro (⟨notTooOld, older, saved⟩ | rfl)
    · have isSettled := history.stored _ _ saved
      have bounds := history.bounds _ isSettled
      have inWindow :
          ledger.roster.oldest first ≤ authoritySet.setId.toNat ∧
            authoritySet.setId.toNat ≤ ledger.roster.setId.toNat := by
        omega
      obtain ⟨other, member, sameId⟩ := history.past.exists_mem_known inWindow.1 inWindow.2
      have savedOther := history.known other member (sameId ▸ isSettled)
      rw [sameId, saved] at savedOther
      have sameSet : other = authoritySet := by
        cases other
        cases authoritySet
        cases sameId
        cases savedOther
        rfl
      exact ⟨sameSet ▸ member, isSettled⟩
    · exact ⟨isKnown, history.current⟩
  · rintro ⟨member, isSettled⟩
    have saved := history.known authoritySet member isSettled
    have bounds := history.past.bounds member
    by_cases isNewest : authoritySet.setId = ledger.roster.setId
    · exact Or.inr (history.past.eq_of_setId_eq member isKnown isNewest)
    · have differs : authoritySet.setId.toNat ≠ ledger.roster.setId.toNat :=
        fun sameNumber => isNewest (UInt64.toNat_inj.mp sameNumber)
      exact Or.inl ⟨by omega, by omega, saved⟩

/-- The step: an operation settles the set that is in force after it. -/
theorem perform
    {session : Session} (history : session.ledger.HasHistory first retention settled)
    (operation : Operation) :
    (operation.perform primitives session).ledger.HasHistory first retention fun setId =>
      settled setId ∨ setId = (operation.perform primitives session).ledger.roster.setId := by
  cases operation.hasEffect primitives session with
  | accepts _ finalized _ => exact history.finalize finalized
  | completes completes =>
      have sameRoster := completes.roster_eq
      have unchanged :
          (operation.perform primitives session).ledger.HasHistory first retention settled := by
        apply history.congr
        · rw [sameRoster]
        · rw [sameRoster]
        · rw [sameRoster]
        · intro setId
          exact completes.get?_of_kind (by simp)
      exact unchanged.of_same_setId
  | leaves sameLedger _ =>
      rw [sameLedger]
      exact history.of_same_setId

end Ledger.HasHistory

/-- The set of this number was the current one at some time between the operations. -/
def WasCurrent
    (primitives : Primitives) (start : Session) (operations : List Operation) (setId : SetId) :
    Prop :=
  ∃ earlier,
    earlier <+: operations ∧ (start.performAll primitives earlier).ledger.roster.setId = setId

theorem wasCurrent_nil {start : Session} {setId : SetId} :
    WasCurrent primitives start [] setId ↔ setId = start.ledger.roster.setId := by
  constructor
  · rintro ⟨earlier, inFront, rfl⟩
    rw [List.prefix_nil.mp inFront]
    rfl
  · rintro rfl
    exact ⟨[], List.prefix_refl _, rfl⟩

theorem wasCurrent_concat
    {start : Session} {operations : List Operation} {operation : Operation} {setId : SetId} :
    WasCurrent primitives start (operations ++ [operation]) setId ↔
      WasCurrent primitives start operations setId ∨
        setId =
          (start.performAll primitives (operations ++ [operation])).ledger.roster.setId := by
  constructor
  · rintro ⟨earlier, inFront, rfl⟩
    rcases List.prefix_concat_iff.mp inFront with rfl | inFront
    · exact Or.inr rfl
    · exact Or.inl ⟨earlier, inFront, rfl⟩
  · rintro (⟨earlier, inFront, rfl⟩ | rfl)
    · exact ⟨earlier, inFront.trans (List.prefix_append _ _), rfl⟩
    · exact ⟨_, List.prefix_refl _, rfl⟩

/-- No operation brings more than one set into force. -/
def EnactsSingly
    (primitives : Primitives) (start : Session) (operations : List Operation) : Prop :=
  ∀ earlier operation,
    earlier ++ [operation] <+: operations →
      (start.performAll primitives (earlier ++ [operation])).ledger.roster.setId.toNat ≤
        (start.performAll primitives earlier).ledger.roster.setId.toNat + 1

theorem wasCurrent_of_enactsSingly
    {start : Session} {operations : List Operation}
    (singly : EnactsSingly primitives start operations) {setId : SetId}
    (notOlder : start.ledger.roster.setId.toNat ≤ setId.toNat)
    (notNewer :
      setId.toNat ≤ (start.performAll primitives operations).ledger.roster.setId.toNat) :
    WasCurrent primitives start operations setId := by
  induction operations using List.reverseRecOn with
  | nil =>
      exact wasCurrent_nil.mpr (UInt64.toNat_inj.mp (Nat.le_antisymm notNewer notOlder))
  | append_singleton operations operation inductionHypothesis =>
      have singlyBefore : EnactsSingly primitives start operations :=
        fun earlier operation inFront =>
          singly earlier operation (inFront.trans (List.prefix_append _ _))
      have raisedByOne := singly operations operation (List.prefix_refl _)
      rw [wasCurrent_concat]
      by_cases isNew :
          setId =
            (start.performAll primitives (operations ++ [operation])).ledger.roster.setId
      · exact Or.inr isNew
      · have notSame :
            setId.toNat ≠
              (start.performAll primitives
                (operations ++ [operation])).ledger.roster.setId.toNat :=
          fun sameNumber => isNew (UInt64.toNat_inj.mp sameNumber)
        exact Or.inl (inductionHypothesis singlyBefore (by omega))

namespace Session

section EmptyStore

variable (primitives : Primitives) (settings : Settings)
variable (fragments : FragmentSource) (runtimes : RuntimeSource)
variable (checkpoint : Checkpoint) (mailbox : Option Mailbox)

/-- The run: after any operations the settled sets are those that were in force between them. -/
theorem hasHistory_performAll (operations : List Operation) :
    ((start settings .empty fragments runtimes checkpoint mailbox).performAll primitives
      operations).ledger.HasHistory checkpoint.setId settings.retention
        (WasCurrent primitives (start settings .empty fragments runtimes checkpoint mailbox)
          operations) := by
  induction operations using List.reverseRecOn with
  | nil =>
      apply (Ledger.HasHistory.ofStore_empty checkpoint settings.retention).of_settled_iff
      intro setId
      rw [wasCurrent_nil, roster_start_empty]
      rfl
  | append_singleton operations operation inductionHypothesis =>
      rw [performAll_append_singleton]
      apply (inductionHypothesis.perform operation).of_settled_iff
      intro setId
      rw [wasCurrent_concat, performAll_append_singleton]

end EmptyStore

/-- A session restarted from the store of another one checks justifications against the same sets
and comes to the same verdicts. -/
structure KeepsHistory (primitives : Primitives) (running restarted : Session) : Prop where
  sets :
    ∀ setId, restarted.ledger.roster.setFor? setId = running.ledger.roster.setFor? setId
  verdicts :
    ∀ justification,
      Ledger.isJustified primitives restarted.ledger.roster justification =
        Ledger.isJustified primitives running.ledger.roster justification

section Restart

variable {first : SetId} {settings : Settings} {settled : SetId → Prop} {session : Session}
variable (history : session.ledger.HasHistory first settings.retention settled)
variable (mirrored : session.IsMirrored)
variable (fragments : FragmentSource) (runtimes : RuntimeSource)
variable (checkpoint : Checkpoint) (mailbox : Option Mailbox)

include history mirrored

theorem setFor?_restart_eq_some_iff {setId : SetId} {authoritySet : AuthoritySet} :
    (start settings session.ledger.store fragments runtimes checkpoint
        mailbox).ledger.roster.setFor? setId = some authoritySet ↔
      session.ledger.roster.setFor? setId = some authoritySet ∧ settled setId := by
  let restarted := start settings session.ledger.store fragments runtimes checkpoint mailbox
  have mem_known {authoritySet : AuthoritySet} :
      authoritySet ∈ restarted.ledger.roster.known ↔
        authoritySet ∈ session.ledger.roster.known ∧ settled authoritySet.setId :=
    history.mem_known_ofStore mirrored.ledger checkpoint
  rw [Roster.setFor?_eq_some_iff, Roster.setFor?_eq_some_iff, mem_known]
  · constructor
    · rintro ⟨⟨member, isSettled⟩, rfl⟩
      exact ⟨⟨member, rfl⟩, isSettled⟩
    · rintro ⟨⟨member, rfl⟩, isSettled⟩
      exact ⟨⟨member, isSettled⟩, rfl⟩
  · intro authoritySet member other otherMember sameId
    exact history.past.eq_of_setId_eq member otherMember sameId
  · intro authoritySet member other otherMember sameId
    exact
      history.past.eq_of_setId_eq (mem_known.mp member).1 (mem_known.mp otherMember).1 sameId

theorem keepsHistory_iff_settled :
    KeepsHistory primitives session
        (start settings session.ledger.store fragments runtimes checkpoint mailbox) ↔
      ∀ setId authoritySet,
        session.ledger.roster.setFor? setId = some authoritySet → settled setId := by
  constructor
  · intro keeps setId authoritySet known
    rw [← keeps.sets, setFor?_restart_eq_some_iff history mirrored] at known
    exact known.2
  · intro areSettled
    have sets (setId : SetId) :
        (start settings session.ledger.store fragments runtimes checkpoint
            mailbox).ledger.roster.setFor? setId =
          session.ledger.roster.setFor? setId := by
      apply Option.ext
      intro authoritySet
      rw [setFor?_restart_eq_some_iff history mirrored]
      constructor
      · exact fun foundBoth => foundBoth.1
      · exact fun known => ⟨known, areSettled setId authoritySet known⟩
    refine ⟨sets, ?_⟩
    intro justification
    rw [Ledger.isJustified, Ledger.isJustified, sets]

end Restart

section EmptyStore

variable (primitives : Primitives) (settings : Settings)
variable (fragments laterFragments : FragmentSource) (runtimes laterRuntimes : RuntimeSource)
variable (checkpoint laterCheckpoint : Checkpoint) (mailbox laterMailbox : Option Mailbox)

/-- A restart keeps the history exactly if every known set was in force between operations. -/
theorem keepsHistory_restart_iff (operations : List Operation) :
    let first := start settings .empty fragments runtimes checkpoint mailbox
    let running := first.performAll primitives operations
    let restarted :=
      start settings running.ledger.store laterFragments laterRuntimes laterCheckpoint laterMailbox
    KeepsHistory primitives running restarted ↔
      ∀ setId authoritySet,
        running.ledger.roster.setFor? setId = some authoritySet →
          WasCurrent primitives first operations setId := by
  intro first running restarted
  have history : running.ledger.HasHistory _ _ (WasCurrent primitives first operations) :=
    hasHistory_performAll primitives settings fragments runtimes checkpoint mailbox operations
  have mirrored : running.IsMirrored :=
    (IsMirrored.start_empty settings fragments runtimes checkpoint mailbox).performAll operations
  exact
    keepsHistory_iff_settled history mirrored laterFragments laterRuntimes laterCheckpoint
      laterMailbox

/-- So it does as long as no operation brings more than one set into force. -/
theorem keepsHistory_restart_of_enactsSingly
    {operations : List Operation}
    (singly :
      EnactsSingly primitives (start settings .empty fragments runtimes checkpoint mailbox)
        operations) :
    let first := start settings .empty fragments runtimes checkpoint mailbox
    let running := first.performAll primitives operations
    let restarted :=
      start settings running.ledger.store laterFragments laterRuntimes laterCheckpoint laterMailbox
    KeepsHistory primitives running restarted := by
  intro first running restarted
  have history : running.ledger.HasHistory _ _ (WasCurrent primitives first operations) :=
    hasHistory_performAll primitives settings fragments runtimes checkpoint mailbox operations
  have mirrored : running.IsMirrored :=
    (IsMirrored.start_empty settings fragments runtimes checkpoint mailbox).performAll operations
  rw [keepsHistory_iff_settled history mirrored]
  intro setId authoritySet known
  obtain ⟨member, rfl⟩ := Roster.mem_known_of_setFor? known
  have bounds := history.past.bounds member
  have notOlder : checkpoint.setId.toNat ≤ authoritySet.setId.toNat :=
    Nat.le_trans (Nat.le_max_left _ _) bounds.1
  exact wasCurrent_of_enactsSingly singly notOlder bounds.2

end EmptyStore

end Session

/-! ## A relay -/

namespace Relay

open Handover (elder successor checkpoint session)

/-- Announces the successor for the next block and the elder for the one after it. -/
def announcing : Header where
  parentHash := .zero
  number := 1
  stateRoot := .zero
  extrinsicsRoot := .zero
  digest :=
    ⟨[.consensus Message.engine (Message.scheduledChange [successor] 1).encode,
      .consensus Message.engine (Message.scheduledChange [elder] 2).encode]⟩

/-- The block at which both changes are due. -/
def enacting : Header where
  parentHash := .zero
  number := 3
  stateRoot := .zero
  extrinsicsRoot := .zero
  digest := ⟨[]⟩

/-- A header with the precommit of the elder in a round of the first set. -/
def signed (header : Header) (round : RoundNumber) (signature : Signature) : Fragment where
  header := header
  justification :=
    { targetHash := header.hash .standard
      targetNumber := header.number
      round := round
      setId := 0
      precommits := [⟨header.vote .standard, signature, elder.id⟩]
      votesAncestries := [] }

def first : Fragment :=
  signed announcing 5
    ⟨⟨[188, 153, 111, 231, 215, 245, 21, 169, 65, 149, 20, 253, 132, 150, 178, 79, 47, 161,
        210, 31, 143, 96, 157, 216, 216, 120, 207, 206, 204, 249, 20, 106, 220, 170, 227, 90,
        203, 136, 189, 254, 119, 196, 128, 13, 190, 60, 34, 191, 47, 233, 246, 12, 114, 80, 164,
        237, 50, 33, 183, 127, 112, 10, 60, 10], rfl⟩⟩

def second : Fragment :=
  signed enacting 3
    ⟨⟨[157, 14, 68, 25, 62, 48, 13, 151, 234, 113, 234, 202, 224, 218, 99, 92, 157, 109, 94,
        146, 200, 212, 23, 238, 251, 92, 58, 205, 226, 34, 142, 254, 41, 78, 90, 20, 74, 115,
        203, 183, 251, 6, 197, 142, 77, 62, 119, 140, 106, 177, 43, 143, 128, 100, 221, 215,
        160, 186, 108, 213, 113, 214, 37, 13], rfl⟩⟩

theorem isFinal_first :
    first.justification.check .standard checkpoint.authoritySet = .ok () := by
  decide +kernel

theorem isFinal_second :
    second.justification.check .standard checkpoint.authoritySet = .ok () := by
  decide +kernel

def messages : List Message := [.scheduledChange [successor] 1, .scheduledChange [elder] 2]

theorem ofHeader_first : Message.ofHeader first.header = .ok messages := by
  decide

/-- The roster in which both changes are announced. -/
def announced : Roster :=
  (session.ledger.recordRound first.justification).roster.receiveAll first.header.number messages

theorem drain_announced : announced.drain first.header.number = .ok ([], announced) := by
  have noneEnacted : announced.agenda.enacted first.header.number = [] :=
    Grandpa.Agenda.enacted_of_firstDue?_eq_none rfl
  have lasting : announced.setId.toNat + ([] : List Grandpa.Change).length < 2 ^ 64 := by decide
  rw [Roster.drain_eq, noneEnacted, if_pos lasting]
  rfl

def toSuccessor : Grandpa.Change := .scheduled [successor] 1 1 0

def toElder : Grandpa.Change := .scheduled [elder] 2 1 1

/-- The roster after both changes came into force. -/
def handedOver : Roster := ((announced.noteRound 3).enact toSuccessor).enact toElder

theorem drain_noteRound_announced :
    (announced.noteRound 3).drain second.header.number =
      .ok ([toSuccessor, toElder], handedOver) := by
  have firstDue : (announced.noteRound 3).agenda.firstDue? second.header.number =
      some toSuccessor := rfl
  have secondDue :
      ((announced.noteRound 3).agenda.dueAfter toSuccessor.applicationBlock).firstDue?
        second.header.number = some toElder := rfl
  have noneDue :
      (((announced.noteRound 3).agenda.dueAfter toSuccessor.applicationBlock).dueAfter
        toElder.applicationBlock).firstDue? second.header.number = none := rfl
  have bothEnacted :
      (announced.noteRound 3).agenda.enacted second.header.number = [toSuccessor, toElder] := by
    rw [Grandpa.Agenda.enacted_of_firstDue?_eq_some firstDue,
      Grandpa.Agenda.enacted_of_firstDue?_eq_some secondDue,
      Grandpa.Agenda.enacted_of_firstDue?_eq_none noneDue]
  have lasting : (announced.noteRound 3).setId.toNat + [toSuccessor, toElder].length < 2 ^ 64 := by
    decide
  rw [Roster.drain_eq, bothEnacted, if_pos lasting]
  rfl

theorem accepts_first : session.ledger.Accepts .standard first where
  extendsHead := by
    have atCheckpoint : session.ledger.head = .ofCheckpoint checkpoint :=
      Session.head_start_empty _ _ _ _ _
    rw [atCheckpoint]
    decide
  hitsTarget := ⟨rfl, rfl⟩
  isJustified :=
    ⟨checkpoint.authoritySet, Roster.setFor?_eq_some_iff_knows.mp rfl, isFinal_first⟩
  isReadable := Message.exists_ofHeader_eq_ok_iff.mp ⟨messages, ofHeader_first⟩

/-- The session after the first block. -/
def between : Session := (Operation.importCommit first).perform .standard session

theorem finalize_first :
    ∃ hasChanged,
      session.ledger.finalize .standard first = .ok (hasChanged, between.ledger) ∧
        between.ledger.roster = announced := by
  rw [between]
  exact Operation.finalize_importCommit_of_drain accepts_first ofHeader_first drain_announced

theorem imports_first : (Operation.importCommit first).Accepts .standard session first := by
  obtain ⟨hasChanged, finalized, _⟩ := finalize_first
  obtain ⟨mailbox, imported⟩ :=
    Session.importCommit_of_finalize_ok accepts_first.extendsHead finalized
  apply Operation.Accepts.importCommit
  rw [imported]

theorem performAll_first : session.performAll .standard [.importCommit first] = between := by
  rw [Session.performAll, List.foldl_cons, List.foldl_nil, between]

theorem roster_between : between.ledger.roster = announced := by
  obtain ⟨_, _, sameRoster⟩ := finalize_first
  exact sameRoster

theorem accepts_second : between.ledger.Accepts .standard second where
  extendsHead := by
    obtain ⟨_, finalized, _⟩ := finalize_first
    have raised : first.header.number < second.header.number := by decide
    rw [Ledger.head_of_finalize finalized]
    exact raised
  hitsTarget := ⟨rfl, rfl⟩
  isJustified := by
    rw [roster_between]
    exact ⟨checkpoint.authoritySet, Roster.setFor?_eq_some_iff_knows.mp rfl, isFinal_second⟩
  isReadable := Message.exists_ofHeader_eq_ok_iff.mp ⟨[], rfl⟩

/-- The session after both blocks. -/
def running : Session := session.performAll .standard [.importCommit first, .importCommit second]

theorem finalize_second :
    ∃ hasChanged,
      between.ledger.finalize .standard second = .ok (hasChanged, running.ledger) ∧
        running.ledger.roster = handedOver := by
  have noMessages : Message.ofHeader second.header = .ok [] := rfl
  have recorded :
      (between.ledger.recordRound second.justification).roster.receiveAll
        second.header.number [] = announced.noteRound 3 := by
    have sameSet : second.justification.setId = announced.setId := rfl
    rw [Ledger.roster_recordRound, roster_between, if_pos sameSet]
    rfl
  have drained := drain_noteRound_announced
  rw [← recorded] at drained
  have imported := Operation.finalize_importCommit_of_drain accepts_second noMessages drained
  rw [running, Session.performAll, List.foldl_cons, List.foldl_cons, List.foldl_nil, ← between]
  exact imported

theorem imports_second : (Operation.importCommit second).Accepts .standard between second := by
  obtain ⟨hasChanged, finalized, _⟩ := finalize_second
  have extendsHead : between.head.number < second.header.number := by
    rw [Session.head]
    exact accepts_second.extendsHead
  obtain ⟨mailbox, imported⟩ := Session.importCommit_of_finalize_ok extendsHead finalized
  apply Operation.Accepts.importCommit
  rw [imported]

theorem roster_running : running.ledger.roster = handedOver := by
  obtain ⟨_, _, sameRoster⟩ := finalize_second
  exact sameRoster

theorem not_wasCurrent_one :
    ¬ WasCurrent .standard session [.importCommit first, .importCommit second] 1 := by
  have asConcat :
      [Operation.importCommit first, .importCommit second] =
        [] ++ [.importCommit first] ++ [.importCommit second] := rfl
  have atFirst :
      (session.performAll .standard [.importCommit first]).ledger.roster = announced := by
    rw [Session.performAll, List.foldl_cons, List.foldl_nil, ← between, roster_between]
  have notInitial : (1 : SetId) ≠ session.ledger.roster.setId := by decide
  have notAnnounced : (1 : SetId) ≠ announced.setId := by decide
  have notLast : (1 : SetId) ≠ handedOver.setId := by decide
  rw [asConcat, wasCurrent_concat, wasCurrent_concat, wasCurrent_nil, ← asConcat, List.nil_append,
    ← running, roster_running, atFirst]
  rintro ((isInitial | isAnnounced) | isLast)
  · exact notInitial isInitial
  · exact notAnnounced isAnnounced
  · exact notLast isLast

end Relay

/-- The block that brings two sets into force at once: the first of them is known before a restart
and not after it. -/
theorem Session.not_keepsHistory_relay :
    let restarted :=
      start .standard Relay.running.ledger.store Handover.fragments Handover.runtimes
        Handover.checkpoint none
    Relay.running.ledger.roster.setFor? 1 = some ⟨1, [Handover.successor]⟩ ∧
      restarted.ledger.roster.setFor? 1 = none ∧
        ¬ KeepsHistory .standard Relay.running restarted := by
  intro restarted
  have history :
      Relay.running.ledger.HasHistory _ Settings.standard.retention
        (WasCurrent .standard Handover.session
          [.importCommit Relay.first, .importCommit Relay.second]) :=
    hasHistory_performAll .standard .standard Handover.fragments Handover.runtimes
      Handover.checkpoint none _
  have mirrored : Relay.running.IsMirrored :=
    (IsMirrored.start_empty .standard Handover.fragments Handover.runtimes Handover.checkpoint
      none).performAll _
  have known : Relay.running.ledger.roster.setFor? 1 = some ⟨1, [Handover.successor]⟩ := by
    rw [Relay.roster_running]
    rfl
  have lost : restarted.ledger.roster.setFor? 1 = none := by
    rw [Option.eq_none_iff_forall_ne_some]
    intro authoritySet found
    rw [setFor?_restart_eq_some_iff history mirrored] at found
    exact Relay.not_wasCurrent_one found.2
  refine ⟨known, lost, ?_⟩
  intro keeps
  have sameSet := keeps.sets 1
  rw [known, lost] at sameSet
  cases sameSet

end FinalitySync.Sync
