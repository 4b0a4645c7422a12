import FinalitySync.Proofs.Grandpa.Persistence
import FinalitySync.Proofs.Grandpa.Timing
import FinalitySync.Proofs.Sync.History

/-!
# Changes come into force in time

A change that an accepted header announces waits while accepted blocks are below its application
block.  At the first one that is not, it comes into force, or gives way to a change that does and is
due no earlier.
-/

namespace FinalitySync.Sync

open Grandpa (Agenda Change Message Roster)

variable {primitives : Primitives}

namespace Acceptance

variable {start : Session} {operations : List Operation}

/-- The roster in which the messages of the accepted header were received and no change has come
into force at its block. -/
def received
    (acceptance : Acceptance primitives start operations) (messages : List Message) : Roster :=
  (acceptance.before.ledger.recordRound acceptance.fragment.justification).roster.receiveAll
    acceptance.header.number messages

/-- `acceptance.Posts earlier message change` means that the accepted header has this message after
the earlier ones, and that the message puts this change on the agenda, numbered by the announcements
before it. -/
structure Posts
    (acceptance : Acceptance primitives start operations)
    (earlier : List Message) (message : Message) (change : Change) : Prop where
  read : ∃ later, Message.ofHeader acceptance.header = .ok (earlier ++ message :: later)
  announced :
    message.change? acceptance.header.number (acceptance.received earlier).announcements =
      some change

/-- `acceptance.Enacts change` means that the change comes into force with the accepted block. -/
inductive Enacts
    (acceptance : Acceptance primitives start operations) (change : Change) : Prop
  | intro (messages : List Message) (changes : List Change)
      (read : Message.ofHeader acceptance.header = .ok messages)
      (drained :
        (acceptance.received messages).drain acceptance.header.number =
          .ok (changes, acceptance.after.ledger.roster))
      (member : change ∈ changes)

/-- `acceptance.Discards change` means that the change does not come into force with the accepted
block, but another one does, which is due no earlier and no later than the block. -/
structure Discards
    (acceptance : Acceptance primitives start operations) (change : Change) : Prop where
  notEnacted : ¬ acceptance.Enacts change
  givesWay :
    ∃ other,
      acceptance.Enacts other ∧ change.applicationBlock ≤ other.applicationBlock ∧
        other.applicationBlock ≤ acceptance.header.number

end Acceptance

/-- What is on the agenda is due after the head. -/
def Session.IsTimely (session : Session) : Prop :=
  ∀ change ∈ session.ledger.roster.agenda.toList, session.head.number < change.applicationBlock

namespace Operation

variable {session : Session} {operation : Operation} {fragment : Fragment}

/-- What is on the agenda after a block is due after the block. -/
theorem Accepts.mem_agenda_perform
    (accepts : operation.Accepts primitives session fragment) {change : Change}
    (member : change ∈ (operation.perform primitives session).ledger.roster.agenda.toList) :
    fragment.header.number < change.applicationBlock := by
  obtain ⟨messages, changes, read, drained⟩ := accepts.exists_drain
  rw [Roster.agenda_of_drain drained, Agenda.mem_dueAfter] at member
  exact member.2

/-- What was on the agenda before a block stays there while it is not due. -/
theorem Accepts.mem_agenda_perform_of_mem
    (accepts : operation.Accepts primitives session fragment) {change : Change}
    (member : change ∈ session.ledger.roster.agenda.toList)
    (later : fragment.header.number < change.applicationBlock) :
    change ∈ (operation.perform primitives session).ledger.roster.agenda.toList := by
  obtain ⟨messages, changes, read, drained⟩ := accepts.exists_drain
  rw [← Ledger.agenda_recordRound session.ledger fragment.justification] at member
  rw [Roster.agenda_of_drain drained, Agenda.mem_dueAfter]
  exact ⟨Roster.mem_agenda_receiveAll_of_mem member _ _, later⟩

end Operation

namespace Session

variable {session : Session}

theorem IsTimely.perform (timely : session.IsTimely) (operation : Operation) :
    (operation.perform primitives session).IsTimely := by
  rcases operation.perform_cases primitives session with
    ⟨fragment, hasChanged, accepts, _⟩ | ⟨sameHead, sameRoster⟩
  · intro change member
    rw [accepts.head_perform]
    exact accepts.mem_agenda_perform member
  · intro change member
    rw [sameRoster] at member
    rw [sameHead]
    exact timely change member

theorem IsTimely.performAll (timely : session.IsTimely) (operations : List Operation) :
    (session.performAll primitives operations).IsTimely := by
  induction operations generalizing session with
  | nil => exact timely
  | cons operation operations inductionHypothesis =>
      exact inductionHypothesis (timely.perform operation)

/-- `session.Awaits change` means that the change is on the agenda exactly if it is not due. -/
def Awaits (session : Session) (change : Change) : Prop :=
  change ∈ session.ledger.roster.agenda.toList ↔ session.head.number < change.applicationBlock

theorem Awaits.perform
    {change : Change} (awaits : session.Awaits change) (operation : Operation) :
    (operation.perform primitives session).Awaits change := by
  rcases operation.perform_cases primitives session with
    ⟨fragment, hasChanged, accepts, _⟩ | ⟨sameHead, sameRoster⟩
  · rw [Awaits, accepts.head_perform]
    constructor
    · exact accepts.mem_agenda_perform
    · intro later
      have notDue : session.head.number < change.applicationBlock :=
        UInt32.lt_trans accepts.number_lt later
      exact accepts.mem_agenda_perform_of_mem (awaits.mpr notDue) later
  · rw [Awaits, sameHead, sameRoster]
    exact awaits

theorem Awaits.performAll
    {change : Change} (awaits : session.Awaits change) (operations : List Operation) :
    (session.performAll primitives operations).Awaits change := by
  induction operations generalizing session with
  | nil => exact awaits
  | cons operation operations inductionHypothesis =>
      exact inductionHypothesis (awaits.perform operation)

theorem agenda_start
    (settings : Settings) (store : Store) (fragments : FragmentSource) (runtimes : RuntimeSource)
    (checkpoint : Checkpoint) (mailbox : Option Mailbox) :
    (start settings store fragments runtimes checkpoint mailbox).ledger.roster.agenda = .empty := by
  have opened : (Ledger.openRoster store checkpoint settings.retention).1.agenda = .empty := by
    rw [Ledger.openRoster]
    cases loaded : Roster.load? store settings.retention with
    | some roster => exact Roster.agenda_of_load? loaded
    | none => rfl
  exact opened

theorem IsTimely.start
    (settings : Settings) (store : Store) (fragments : FragmentSource) (runtimes : RuntimeSource)
    (checkpoint : Checkpoint) (mailbox : Option Mailbox) :
    (start settings store fragments runtimes checkpoint mailbox).IsTimely := by
  intro change member
  rw [agenda_start] at member
  cases member

end Session

namespace Acceptance

variable {start : Session} {operations : List Operation}
variable {announcing acceptance : Acceptance primitives start operations}
variable {earlier : List Message} {message : Message} {change : Change}

theorem exists_drain (acceptance : Acceptance primitives start operations) :
    ∃ messages changes,
      Message.ofHeader acceptance.header = .ok messages ∧
        (acceptance.received messages).drain acceptance.header.number =
          .ok (changes, acceptance.after.ledger.roster) :=
  acceptance.accepts.exists_drain

theorem isTimely_before (timely : start.IsTimely)
    (acceptance : Acceptance primitives start operations) : acceptance.before.IsTimely :=
  timely.performAll acceptance.earlier

theorem Posts.mem_received
    (posts : acceptance.Posts earlier message change) {messages : List Message}
    (read : Message.ofHeader acceptance.header = .ok messages) :
    change ∈ (acceptance.received messages).agenda.toList := by
  obtain ⟨later, readSo⟩ := posts.read
  cases readSo.symm.trans read
  exact Roster.mem_agenda_receiveAll_of_change? posts.announced

theorem mem_received_of_mem
    (member : change ∈ acceptance.before.ledger.roster.agenda.toList) (messages : List Message) :
    change ∈ (acceptance.received messages).agenda.toList := by
  rw [← Ledger.agenda_recordRound _ acceptance.fragment.justification] at member
  exact Roster.mem_agenda_receiveAll_of_mem member _ _

/-- The posted change waits after the block that announces it, unless it is due at once. -/
theorem Posts.awaits (posts : announcing.Posts earlier message change) :
    announcing.after.Awaits change := by
  obtain ⟨messages, changes, read, drained⟩ := announcing.exists_drain
  have head : announcing.after.head = _ := announcing.accepts.head_perform
  rw [Session.Awaits, head, Roster.agenda_of_drain drained, Agenda.mem_dueAfter]
  constructor
  · rintro ⟨_, later⟩
    exact later
  · intro later
    exact ⟨posts.mem_received read, later⟩

theorem Posts.awaits_before
    (posts : announcing.Posts earlier message change)
    (inOrder : announcing.earlier.length < acceptance.earlier.length) :
    acceptance.before.Awaits change := by
  obtain ⟨between, reached⟩ := exists_before_eq_performAll inOrder
  rw [reached]
  exact posts.awaits.performAll between

theorem Posts.awaits_after
    (posts : announcing.Posts earlier message change)
    (inOrder : announcing.earlier.length ≤ acceptance.earlier.length) :
    acceptance.after.Awaits change := by
  rcases Nat.eq_or_lt_of_le inOrder with samePlace | later
  · -- The announcing block itself: a change without delay is due at once.
    cases eq_of_length_earlier_eq samePlace
    exact posts.awaits
  · exact (posts.awaits_before later).perform acceptance.operation

/-- The posted change is considered at every block up to the first one at which it is due. -/
theorem Posts.mem_received_of_notDue
    (posts : announcing.Posts earlier message change)
    (inOrder : announcing.earlier.length ≤ acceptance.earlier.length)
    (notDue : acceptance.before.head.number < change.applicationBlock) {messages : List Message}
    (read : Message.ofHeader acceptance.header = .ok messages) :
    change ∈ (acceptance.received messages).agenda.toList := by
  rcases Nat.eq_or_lt_of_le inOrder with samePlace | later
  · cases eq_of_length_earlier_eq samePlace
    exact posts.mem_received read
  · exact mem_received_of_mem ((posts.awaits_before later).mpr notDue) messages

/-- At the first block at which it is due, a posted change comes into force or is discarded. -/
theorem Posts.enacts_or_discards
    (posts : announcing.Posts earlier message change)
    (inOrder : announcing.earlier.length ≤ acceptance.earlier.length)
    (notDue : acceptance.before.head.number < change.applicationBlock)
    (due : change.applicationBlock ≤ acceptance.header.number) :
    acceptance.Enacts change ∨ acceptance.Discards change := by
  obtain ⟨messages, changes, read, drained⟩ := acceptance.exists_drain
  have sameChanges := (Roster.enacted_of_drain drained).1
  have onAgenda := posts.mem_received_of_notDue inOrder notDue read
  by_cases enacts : acceptance.Enacts change
  · exact Or.inl enacts
  · right
    refine ⟨enacts, ?_⟩
    rcases Agenda.exists_mem_enacted_of_isDue onAgenda due with
      member | ⟨other, member, notEarlier⟩
    · rw [← sameChanges] at member
      exact absurd ⟨messages, changes, read, drained, member⟩ enacts
    · have dueOther := (Agenda.mem_of_mem_enacted member).2
      rw [← sameChanges] at member
      exact ⟨other, ⟨messages, changes, read, drained, member⟩, notEarlier, dueOther⟩

/-- A change comes into force at the first accepted block at which it is due. -/
theorem Enacts.isFirstDue
    (enacts : acceptance.Enacts change) (timely : acceptance.before.IsTimely) :
    acceptance.before.head.number < change.applicationBlock ∧
      change.applicationBlock ≤ acceptance.header.number := by
  obtain ⟨messages, changes, read, drained, member⟩ := enacts
  rw [(Roster.enacted_of_drain drained).1] at member
  obtain ⟨onAgenda, due⟩ := Agenda.mem_of_mem_enacted member
  refine ⟨?_, due⟩
  rcases Roster.mem_agenda_of_receiveAll onAgenda with
    earlier | ⟨message, _, sequence, announced⟩
  · rw [Ledger.agenda_recordRound] at earlier
    exact timely change earlier
  · have notBefore := Message.le_applicationBlock_of_change? announced
    exact UInt32.lt_of_lt_of_le acceptance.accepts.number_lt notBefore

end Acceptance

/-- In any run from a store, what is on the agenda is due after the head, and a change comes into
force only at the first accepted block at which it is due.  Each message of an accepted header that
announces a change puts it on the agenda until that block, at which it comes into force or is
discarded. -/
theorem Session.changes_inTime
    (primitives : Primitives) (settings : Settings) (store : Store)
    (fragments : FragmentSource) (runtimes : RuntimeSource)
    (checkpoint : Checkpoint) (mailbox : Option Mailbox) (operations : List Operation) :
    let start := Session.start settings store fragments runtimes checkpoint mailbox
    (start.performAll primitives operations).IsTimely ∧
    (∀ (acceptance : Acceptance primitives start operations) (change : Change),
      (change ∈ acceptance.after.ledger.roster.agenda.toList →
        acceptance.header.number < change.applicationBlock) ∧
      (acceptance.Enacts change →
        acceptance.before.head.number < change.applicationBlock ∧
          change.applicationBlock ≤ acceptance.header.number)) ∧
    ∀ (announcing : Acceptance primitives start operations)
      (earlier later : List Message) (message : Message) (number : Nat),
      Message.ofHeader announcing.header = .ok (earlier ++ message :: later) →
      message.applicationNumber? announcing.header.number = some number →
        ∃ change,
          announcing.Posts earlier message change ∧ change.applicationBlock.toNat = number ∧
          ∀ acceptance : Acceptance primitives start operations,
            announcing.earlier.length ≤ acceptance.earlier.length →
              (change ∈ acceptance.after.ledger.roster.agenda.toList ↔
                acceptance.header.number < change.applicationBlock) ∧
              (acceptance.before.head.number < change.applicationBlock →
                change.applicationBlock ≤ acceptance.header.number →
                  acceptance.Enacts change ∨ acceptance.Discards change) := by
  intro start
  have timely : start.IsTimely :=
    IsTimely.start settings store fragments runtimes checkpoint mailbox
  refine ⟨timely.performAll operations, ?_, ?_⟩
  · intro acceptance change
    exact
      ⟨acceptance.accepts.mem_agenda_perform,
        fun enacts => enacts.isFirstDue (acceptance.isTimely_before timely)⟩
  · intro announcing earlier later message number read isDueAt
    obtain ⟨change, announced, sameNumber⟩ :=
      Message.exists_change?_of_applicationNumber? isDueAt
        (announcing.received earlier).announcements
    have posts : announcing.Posts earlier message change := ⟨⟨later, read⟩, announced⟩
    refine ⟨change, posts, sameNumber, ?_⟩
    intro acceptance inOrder
    have head : acceptance.after.head = _ := acceptance.accepts.head_perform
    have awaits := posts.awaits_after inOrder
    rw [Session.Awaits, head] at awaits
    exact ⟨awaits, posts.enacts_or_discards inOrder⟩

/-! ## The changes of a relay -/

namespace Relay

open Handover (elder successor session)

def acceptanceOfFirst :
    Acceptance .standard session [.importCommit first, .importCommit second] where
  earlier := []
  operation := .importCommit first
  later := [.importCommit second]
  split := rfl
  fragment := first
  accepts := imports_first

def acceptanceOfSecond :
    Acceptance .standard session [.importCommit first, .importCommit second] where
  earlier := [.importCommit first]
  operation := .importCommit second
  later := []
  split := rfl
  fragment := second
  accepts := by
    rw [performAll_first]
    exact imports_second

theorem eq_toSuccessor_of_posts
    {change : Grandpa.Change}
    (posts : acceptanceOfFirst.Posts [] (.scheduledChange [successor] 1) change) :
    change = toSuccessor :=
  (Option.some.inj posts.announced).symm

theorem before_acceptanceOfSecond : acceptanceOfSecond.before = between :=
  performAll_first

theorem number_between : between.head.number = 1 := by
  obtain ⟨hasChanged, finalized, _⟩ := finalize_first
  rw [Session.head, Ledger.head_of_finalize finalized]
  rfl

end Relay

/-- The change to the successor waits after the first block and is gone after the second one. -/
theorem Session.changes_inTime_relay :
    Relay.toSuccessor ∈ Relay.acceptanceOfFirst.after.ledger.roster.agenda.toList ∧
      Relay.toSuccessor ∉ Relay.acceptanceOfSecond.after.ledger.roster.agenda.toList ∧
      (Relay.acceptanceOfSecond.Enacts Relay.toSuccessor ∨
        Relay.acceptanceOfSecond.Discards Relay.toSuccessor) := by
  have inTime :=
    changes_inTime .standard .standard .empty Handover.fragments Handover.runtimes
      Handover.checkpoint none [.importCommit Relay.first, .importCommit Relay.second]
  rw [← Handover.session] at inTime
  obtain ⟨_, _, announced⟩ := inTime
  obtain ⟨change, posts, _, followed⟩ :=
    announced Relay.acceptanceOfFirst [] [.scheduledChange [Handover.elder] 2]
      (.scheduledChange [Handover.successor] 1) 2 Relay.ofHeader_first rfl
  cases Relay.eq_toSuccessor_of_posts posts
  obtain ⟨waiting, _⟩ := followed Relay.acceptanceOfFirst (Nat.le_refl _)
  obtain ⟨gone, settled⟩ := followed Relay.acceptanceOfSecond (Nat.zero_le _)
  have notDue : Relay.first.header.number < Relay.toSuccessor.applicationBlock := by decide
  have due : Relay.toSuccessor.applicationBlock ≤ Relay.second.header.number := by decide
  have notDueBefore :
      Relay.acceptanceOfSecond.before.head.number < Relay.toSuccessor.applicationBlock := by
    rw [Relay.before_acceptanceOfSecond, Relay.number_between]
    decide
  refine ⟨waiting.mpr notDue, ?_, settled notDueBefore due⟩
  intro stillThere
  exact UInt32.not_lt.mpr due (gone.mp stillThere)

end FinalitySync.Sync
