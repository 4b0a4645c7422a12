import FinalitySync.Proofs.Finality.Verdict
import FinalitySync.Proofs.Sync.History

/-!
# Where stored precommits come from

The precommits of an accepted justification of the current set are kept under the round that the
roster is in after it.  That is the round of the justification unless a later one was noted before,
whose precommits are then replaced.
-/

namespace FinalitySync.Sync

open Grandpa (Message Roster)

variable {primitives : Primitives}

/-- `ledger.Files justification round setId` means that finalization keeps the precommits of the
justification under this round and this set. -/
structure Ledger.Files
    (ledger : Ledger) (justification : Justification) (round : RoundNumber) (setId : SetId) :
    Prop where
  isCurrent : setId = ledger.roster.setId
  ofSet : setId = justification.setId
  isLatest : round = max ledger.roster.round justification.round

namespace Ledger

variable {ledger next : Ledger} {fragment : Fragment} {hasChanged : Bool}
variable {round : RoundNumber} {setId : SetId} {precommits : List SignedVote}

theorem get?_recordRound_precommits
    (ledger : Ledger) (justification : Justification) (round : RoundNumber) (setId : SetId) :
    (ledger.recordRound justification).store.get? (.precommits round setId) =
      if justification.setId = ledger.roster.setId ∧
          (Record.precommits round setId).entryName =
            (Record.precommits (max ledger.roster.round justification.round)
              ledger.roster.setId).entryName then
        some justification.precommits
      else ledger.store.get? (.precommits round setId) := by
  by_cases ofCurrentSet : justification.setId = ledger.roster.setId
  · have recorded :
        (ledger.recordRound justification).store =
          (ledger.roster.noteRound justification.round).persistRound ledger.store
            justification.precommits := by
      rw [recordRound, if_pos ofCurrentSet]
    rw [recorded, Roster.persistRound, Store.get?_put_precommits,
      Store.get?_put_of_kind_ne (by simp)]
    simp only [ofCurrentSet, true_and]
    rfl
  · rw [recordRound, if_neg ofCurrentSet, if_neg (fun both => ofCurrentSet both.1)]

theorem get?_finalize_precommits
    (finalized : ledger.finalize primitives fragment = .ok (hasChanged, next))
    (round : RoundNumber) (setId : SetId) :
    next.store.get? (.precommits round setId) =
      if fragment.justification.setId = ledger.roster.setId ∧
          (Record.precommits round setId).entryName =
            (Record.precommits (max ledger.roster.round fragment.justification.round)
              ledger.roster.setId).entryName then
        some fragment.justification.precommits
      else ledger.store.get? (.precommits round setId) := by
  obtain ⟨messages, _, applied⟩ := finalize_eq_ok_iff.mp finalized
  have sameRoster : (ledger.advance primitives fragment.header).roster = ledger.roster := rfl
  rw [get?_applyMessages_of_kind (by simp) applied, get?_recordRound_precommits,
    get?_advance_of_kind (by simp), sameRoster]

/-- The precommits are found where finalization files them. -/
theorem Files.get?_finalize
    (files : ledger.Files fragment.justification round setId)
    (finalized : ledger.finalize primitives fragment = .ok (hasChanged, next)) :
    next.store.get? (.precommits round setId) = some fragment.justification.precommits := by
  obtain ⟨rfl, ofSet, rfl⟩ := files
  rw [get?_finalize_precommits finalized, if_pos ⟨ofSet.symm, rfl⟩]

/-- Stored precommits were stored before or are filed by finalization, perhaps under numbers that
have the same digits. -/
theorem files_of_get?_finalize
    (finalized : ledger.finalize primitives fragment = .ok (hasChanged, next))
    (stored : next.store.get? (.precommits round setId) = some precommits) :
    ledger.store.get? (.precommits round setId) = some precommits ∨
      ∃ filedRound filedSetId,
        ledger.Files fragment.justification filedRound filedSetId ∧
          (Record.precommits round setId).entryName =
            (Record.precommits filedRound filedSetId).entryName ∧
          precommits = fragment.justification.precommits := by
  rw [get?_finalize_precommits finalized] at stored
  split at stored
  · rename_i isFiled
    cases stored
    exact Or.inr ⟨_, _, ⟨rfl, isFiled.1.symm, rfl⟩, isFiled.2, rfl⟩
  · exact Or.inl stored

/-- The round is that of the justification exactly if no later one was noted before. -/
theorem Files.round_eq_iff {justification : Justification}
    (files : ledger.Files justification round setId) :
    round = justification.round ↔ ledger.roster.round ≤ justification.round := by
  have spelledOut :
      max ledger.roster.round justification.round =
        if ledger.roster.round ≤ justification.round then justification.round
        else ledger.roster.round := rfl
  rw [files.isLatest, spelledOut]
  split
  · rename_i notBehind
    exact iff_of_true rfl notBehind
  · rename_i behind
    refine iff_of_false ?_ behind
    intro same
    exact behind (same ▸ UInt64.le_refl _)

end Ledger

namespace Acceptance

variable {start : Session} {operations : List Operation}

def justification (acceptance : Acceptance primitives start operations) : Justification :=
  acceptance.fragment.justification

theorem isPrecommitOf
    (acceptance : Acceptance primitives start operations) {precommit : SignedVote}
    (member : precommit ∈ acceptance.justification.precommits) :
    precommit.isPrecommitOf primitives acceptance.justification.round
      acceptance.justification.setId = true := by
  obtain ⟨⟨hasChanged, next⟩, finalized⟩ := acceptance.accepts.exists_finalize
  obtain ⟨messages, approved, _⟩ := Ledger.finalize_eq_ok_iff.mp finalized
  obtain ⟨authoritySet, _, checked⟩ := (Ledger.accepts_of_approve approved).1.isJustified
  exact ((Justification.check_eq_ok_iff.mp checked).2.1 precommit member).isSigned

end Acceptance

/-- Precommits that an accepted justification of the run has and that were filed in the place of
this round and set. -/
inductive IsFiled
    (primitives : Primitives) (start : Session) (operations : List Operation)
    (round : RoundNumber) (setId : SetId) (precommits : List SignedVote) : Prop
  | intro (acceptance : Acceptance primitives start operations)
      (filedRound : RoundNumber) (filedSetId : SetId)
      (files :
        acceptance.before.ledger.Files acceptance.justification filedRound filedSetId)
      (samePlace :
        (Record.precommits round setId).entryName =
          (Record.precommits filedRound filedSetId).entryName)
      (samePrecommits : precommits = acceptance.justification.precommits)

section Run

variable {start : Session} {operations : List Operation}
variable {round : RoundNumber} {setId : SetId} {precommits : List SignedVote}

theorem IsFiled.extend
    (filed : IsFiled primitives start operations round setId precommits)
    (more : List Operation) :
    IsFiled primitives start (operations ++ more) round setId precommits := by
  obtain ⟨acceptance, filedRound, filedSetId, files, samePlace, samePrecommits⟩ := filed
  exact ⟨acceptance.extend more, filedRound, filedSetId, files, samePlace, samePrecommits⟩

/-- The step: what is stored after an operation was stored before or is filed by it. -/
theorem isFiled_of_perform
    {operation : Operation}
    (stored :
      (operation.perform primitives (start.performAll primitives operations)).ledger.store.get?
        (.precommits round setId) = some precommits) :
    (start.performAll primitives operations).ledger.store.get? (.precommits round setId) =
        some precommits ∨
      IsFiled primitives start (operations ++ [operation]) round setId precommits := by
  cases operation.hasEffect primitives (start.performAll primitives operations) with
  | accepts accepts finalized _ =>
      rcases Ledger.files_of_get?_finalize finalized stored with
        earlier | ⟨filedRound, filedSetId, files, samePlace, samePrecommits⟩
      · exact Or.inl earlier
      · exact
          Or.inr
            ⟨Acceptance.last accepts, filedRound, filedSetId, files, samePlace, samePrecommits⟩
  | completes completes =>
      rw [completes.get?_of_kind (by simp)] at stored
      exact Or.inl stored
  | leaves sameLedger _ =>
      rw [sameLedger] at stored
      exact Or.inl stored

/-- The run: what is stored after any operations was stored at the start or is filed by one. -/
theorem isFiled_of_performAll
    (stored :
      (start.performAll primitives operations).ledger.store.get? (.precommits round setId) =
        some precommits) :
    start.ledger.store.get? (.precommits round setId) = some precommits ∨
      IsFiled primitives start operations round setId precommits := by
  induction operations using List.reverseRecOn with
  | nil => exact Or.inl stored
  | append_singleton operations operation inductionHypothesis =>
      rw [Session.performAll_append_singleton] at stored
      rcases isFiled_of_perform stored with earlier | filed
      · rcases inductionHypothesis earlier with initial | filed
        · exact Or.inl initial
        · exact Or.inr (filed.extend [operation])
      · exact Or.inr filed

end Run

namespace Session

section EmptyStore

variable (primitives : Primitives) (settings : Settings)
variable (fragments : FragmentSource) (runtimes : RuntimeSource)
variable (checkpoint : Checkpoint) (mailbox : Option Mailbox)
variable (operations : List Operation)

theorem isFiled_of_stored
    {round : RoundNumber} {setId : SetId} {precommits : List SignedVote}
    (stored :
      ((start settings .empty fragments runtimes checkpoint mailbox).performAll primitives
        operations).ledger.store.get? (.precommits round setId) = some precommits) :
    IsFiled primitives (start settings .empty fragments runtimes checkpoint mailbox) operations
      round setId precommits := by
  rcases isFiled_of_performAll stored with initial | filed
  · have noneAtFirst :
        (Ledger.ofStore .empty checkpoint settings.retention).store.get?
          (.precommits round setId) = none := by
      rw [Ledger.ofStore_empty, Head.get?_persist_of_kind (by simp),
        Roster.get?_persist_of_kind (by simp), Store.get?_empty]
    have impossible := noneAtFirst.symm.trans initial
    cases impossible
  · exact filed

/-- Stored precommits are those of an accepted justification of the set that was current then, and
they are signed for the round and the set of that justification.  The round they are stored under
is the later one of that round and the one that was noted before.  They are read back under these
numbers, or under others with the same digits. -/
theorem precommits_origin
    {round : RoundNumber} {setId : SetId} {precommits : List SignedVote}
    (stored :
      ((start settings .empty fragments runtimes checkpoint mailbox).performAll primitives
        operations).ledger.store.get? (.precommits round setId) = some precommits) :
    ∃ (acceptance :
        Acceptance primitives (start settings .empty fragments runtimes checkpoint mailbox)
          operations)
      (filedRound : RoundNumber) (filedSetId : SetId),
      acceptance.before.ledger.Files acceptance.justification filedRound filedSetId ∧
        precommits = acceptance.justification.precommits ∧
        (∀ precommit ∈ precommits,
          precommit.isPrecommitOf primitives acceptance.justification.round
            acceptance.justification.setId = true) ∧
        (filedRound = acceptance.justification.round ↔
          acceptance.before.ledger.roster.round ≤ acceptance.justification.round) ∧
        (Record.precommits round setId = .precommits filedRound filedSetId ∨
          Record.SharesDigits (.precommits round setId) (.precommits filedRound filedSetId)) := by
  obtain ⟨acceptance, filedRound, filedSetId, files, samePlace, samePrecommits⟩ :=
    isFiled_of_stored primitives settings fragments runtimes checkpoint mailbox operations stored
  refine
    ⟨acceptance, filedRound, filedSetId, files, samePrecommits, ?_, files.round_eq_iff,
      Record.entryName_eq_iff.mp samePlace⟩
  intro precommit member
  rw [samePrecommits] at member
  exact acceptance.isPrecommitOf member

/-- As long as no round is behind the one that was noted before it, precommits belong to the round
and the set that they are stored under. -/
theorem precommits_belongToKey
    (rising :
      ∀ acceptance :
        Acceptance primitives (start settings .empty fragments runtimes checkpoint mailbox)
          operations,
        acceptance.justification.setId = acceptance.before.ledger.roster.setId →
          acceptance.before.ledger.roster.round ≤ acceptance.justification.round)
    {round : RoundNumber} {setId : SetId} {precommits : List SignedVote}
    (stored :
      ((start settings .empty fragments runtimes checkpoint mailbox).performAll primitives
        operations).ledger.store.get? (.precommits round setId) = some precommits) :
    ∃ acceptance :
        Acceptance primitives (start settings .empty fragments runtimes checkpoint mailbox)
          operations,
      precommits = acceptance.justification.precommits ∧
        (∀ precommit ∈ precommits,
          precommit.isPrecommitOf primitives acceptance.justification.round
            acceptance.justification.setId = true) ∧
        (Record.precommits round setId =
            .precommits acceptance.justification.round acceptance.justification.setId ∨
          Record.SharesDigits (.precommits round setId)
            (.precommits acceptance.justification.round acceptance.justification.setId)) := by
  obtain ⟨acceptance, filedRound, filedSetId, files, samePlace, samePrecommits⟩ :=
    isFiled_of_stored primitives settings fragments runtimes checkpoint mailbox operations stored
  have notBehind := rising acceptance (files.ofSet.symm.trans files.isCurrent)
  have ownRound := files.round_eq_iff.mpr notBehind
  rw [ownRound, files.ofSet] at samePlace
  refine ⟨acceptance, samePrecommits, ?_, Record.entryName_eq_iff.mp samePlace⟩
  intro precommit member
  rw [samePrecommits] at member
  exact acceptance.isPrecommitOf member

end EmptyStore

end Session

/-! ## A round that is behind -/

namespace Relay

/-- The second block was finalized in an earlier round than the first one. -/
theorem files_second : between.ledger.Files second.justification 5 0 := by
  refine ⟨?_, rfl, ?_⟩
  · rw [roster_between]
    rfl
  · rw [roster_between]
    rfl

theorem stored_second :
    running.ledger.store.get? (.precommits 5 0) = some second.justification.precommits := by
  obtain ⟨_, finalized, _⟩ := finalize_second
  exact files_second.get?_finalize finalized

end Relay

/-- The precommits of the second block go back to its acceptance. -/
theorem Session.precommits_origin_relay :
    Relay.running.ledger.store.get? (.precommits 5 0) =
        some Relay.second.justification.precommits ∧
      ∃ acceptance :
        Acceptance .standard Handover.session
          [.importCommit Relay.first, .importCommit Relay.second],
        Relay.second.justification.precommits = acceptance.justification.precommits := by
  refine ⟨Relay.stored_second, ?_⟩
  have stored := Relay.stored_second
  rw [Relay.running, Handover.session] at stored
  obtain ⟨acceptance, _, _, _, samePrecommits, _⟩ :=
    precommits_origin .standard .standard Handover.fragments Handover.runtimes
      Handover.checkpoint none _ stored
  exact ⟨acceptance, samePrecommits⟩

/-- They are stored under a round that they are not signed for. -/
theorem Session.precommits_misfiled_relay :
    Relay.running.ledger.store.get? (.precommits 5 0) =
        some Relay.second.justification.precommits ∧
      Relay.second.justification.round = 3 ∧
      ∀ precommit ∈ Relay.second.justification.precommits,
        precommit.isPrecommitOf .standard 5 0 = false := by
  refine ⟨Relay.stored_second, rfl, ?_⟩
  decide +kernel

end FinalitySync.Sync
