import FinalitySync.Chain.Fragment
import FinalitySync.Finality.Verdict
import FinalitySync.Grandpa.Roster
import FinalitySync.Sync.Failure

/-!
The ledger: what is known to be final, in memory and in the store. A block is accepted as a whole
or not at all.
-/

namespace FinalitySync.Sync

structure Ledger where
  head : Head
  roster : Grandpa.Roster
  store : Store
deriving DecidableEq, Inhabited

namespace Ledger

/-- The roster of a store, or that of a checkpoint, which then goes into the store. -/
def openRoster (store : Store) (checkpoint : Checkpoint) (retention : Nat) :
    Grandpa.Roster × Store :=
  match Grandpa.Roster.load? store retention with
  | some roster => (roster, store)
  | none =>
      let roster := Grandpa.Roster.ofSet checkpoint.authoritySet retention
      (roster, roster.persist store)

/-- The head of a store, or that of a checkpoint, which then goes into the store. -/
def openHead (store : Store) (checkpoint : Checkpoint) : Head × Store :=
  match Head.load? store with
  | some head => (head, store)
  | none =>
      let head := Head.ofCheckpoint checkpoint
      (head, head.persist store)

/-- Goes on from what a store has, and starts from a checkpoint where it has nothing. -/
def ofStore (store : Store) (checkpoint : Checkpoint) (retention : Nat) : Ledger :=
  let (roster, withRoster) := openRoster store checkpoint retention
  let (head, withHead) := openHead withRoster checkpoint
  ⟨head, roster, withHead⟩

/-- Whether a justification is good for a set that votes now or a superseded one still kept. -/
def isJustified (primitives : Primitives) (roster : Grandpa.Roster)
    (justification : Justification) : Bool :=
  match roster.setFor? justification.setId with
  | some authoritySet => justification.isFinal primitives authoritySet
  | none => false

/-- The messages of a fragment's header, if the fragment can be accepted; otherwise the first
reason why it cannot. -/
def approve (primitives : Primitives) (ledger : Ledger) (fragment : Fragment) :
    Except Failure (List Grandpa.Message) := do
  let block := fragment.header.vote primitives
  (ledger.head.ensureExtendedBy fragment.header.number).mapError .stale
  if fragment.justification.target ≠ block then
    throw (.targetMismatch block fragment.justification.target)
  if !isJustified primitives ledger.roster fragment.justification then
    throw (.notFinal fragment.header.number)
  (Grandpa.Message.ofHeader fragment.header).mapError .badMessage

/-- Makes the block of a header the head. -/
def advance (primitives : Primitives) (ledger : Ledger) (header : Header) : Ledger :=
  let head := Head.ofHeader primitives header
  { ledger with head := head, store := head.persist ledger.store }

/-- Notes the round of a justification of the current set, and keeps its precommits under the
round that the roster is in. -/
def recordRound (ledger : Ledger) (justification : Justification) : Ledger :=
  if justification.setId = ledger.roster.setId then
    let roster := ledger.roster.noteRound justification.round
    { ledger with
      roster := roster
      store := roster.persistRound ledger.store justification.precommits }
  else ledger

/-- Hands a header's messages to the roster and brings due changes into force. Returns whether the
current set changed; a new current set goes into the store. -/
def applyMessages (ledger : Ledger) (number : BlockNumber) (messages : List Grandpa.Message) :
    Except Overflow (Bool × Ledger) := do
  let (changes, roster) ← (ledger.roster.receiveAll number messages).drain number
  if changes.isEmpty then
    return (false, { ledger with roster := roster })
  else
    return (true, { ledger with roster := roster, store := roster.persist ledger.store })

/-- Accepts a fragment. Returns whether the current set changed. -/
def finalize (primitives : Primitives) (ledger : Ledger) (fragment : Fragment) :
    Except Failure (Bool × Ledger) := do
  let messages ← ledger.approve primitives fragment
  let recorded := (ledger.advance primitives fragment.header).recordRound fragment.justification
  (recorded.applyMessages fragment.header.number messages).mapError .overflow

/-! ## The head only rises -/

theorem isExtendedBy_of_approve {primitives : Primitives} {ledger : Ledger} {fragment : Fragment}
    {messages : List Grandpa.Message}
    (approved : ledger.approve primitives fragment = .ok messages) :
    ledger.head.isExtendedBy fragment.header.number = true := by
  cases extended : ledger.head.isExtendedBy fragment.header.number with
  | true => rfl
  | false =>
      have refused :
          ledger.approve primitives fragment =
            .error (.stale ⟨fragment.header.number, ledger.head.number⟩) := by
        rw [approve, Head.ensureExtendedBy, extended]
        rfl
      rw [refused] at approved
      cases approved

theorem head_recordRound (ledger : Ledger) (justification : Justification) :
    (ledger.recordRound justification).head = ledger.head := by
  unfold recordRound
  split <;> rfl

theorem head_of_applyMessages {ledger next : Ledger} {number : BlockNumber}
    {messages : List Grandpa.Message} {hasChanged : Bool}
    (applied : ledger.applyMessages number messages = .ok (hasChanged, next)) :
    next.head = ledger.head := by
  simp only [applyMessages, bind, Except.bind, pure, Except.pure] at applied
  split at applied
  · cases applied
  · split at applied <;> cases applied <;> rfl

theorem finalize_of_approve {primitives : Primitives} {ledger : Ledger} {fragment : Fragment}
    {messages : List Grandpa.Message}
    (approved : ledger.approve primitives fragment = .ok messages) :
    ledger.finalize primitives fragment =
      (((ledger.advance primitives fragment.header).recordRound
        fragment.justification).applyMessages fragment.header.number messages).mapError
          .overflow := by
  rw [finalize, approved]
  rfl

theorem finalize_eq_ok_iff {primitives : Primitives} {ledger next : Ledger} {fragment : Fragment}
    {hasChanged : Bool} :
    ledger.finalize primitives fragment = .ok (hasChanged, next) ↔
      ∃ messages, ledger.approve primitives fragment = .ok messages ∧
        ((ledger.advance primitives fragment.header).recordRound
          fragment.justification).applyMessages fragment.header.number messages =
            .ok (hasChanged, next) := by
  cases approved : ledger.approve primitives fragment with
  | error failure => simp [finalize, approved, bind, Except.bind]
  | ok messages =>
      rw [finalize_of_approve approved]
      cases applied : ((ledger.advance primitives fragment.header).recordRound
          fragment.justification).applyMessages fragment.header.number messages with
      | error overflow =>
          constructor
          · intro impossible
            cases impossible
          · rintro ⟨others, sameMessages, appliedSo⟩
            cases sameMessages
            rw [applied] at appliedSo
            cases appliedSo
      | ok outcome =>
          constructor
          · intro finalizedSo
            cases finalizedSo
            exact ⟨messages, rfl, applied⟩
          · rintro ⟨others, sameMessages, appliedSo⟩
            cases sameMessages
            rw [applied] at appliedSo
            cases appliedSo
            rfl

/-- The head after a block is accepted is that block. -/
theorem head_of_finalize {primitives : Primitives} {ledger next : Ledger} {fragment : Fragment}
    {hasChanged : Bool}
    (finalized : ledger.finalize primitives fragment = .ok (hasChanged, next)) :
    next.head = Head.ofHeader primitives fragment.header := by
  obtain ⟨messages, _, applied⟩ := finalize_eq_ok_iff.mp finalized
  rw [head_of_applyMessages applied, head_recordRound]
  rfl

theorem number_lt_of_finalize {primitives : Primitives} {ledger next : Ledger}
    {fragment : Fragment} {hasChanged : Bool}
    (finalized : ledger.finalize primitives fragment = .ok (hasChanged, next)) :
    ledger.head.number < next.head.number := by
  obtain ⟨messages, approved, _⟩ := finalize_eq_ok_iff.mp finalized
  rw [head_of_finalize finalized]
  exact of_decide_eq_true (isExtendedBy_of_approve approved)

end Ledger

end FinalitySync.Sync
