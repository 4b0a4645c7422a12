import FinalitySync.Grandpa.Roster

/-!
# Announcements

What the messages of a block add to the agenda, and what they leave alone.
-/

namespace FinalitySync.Grandpa

/-- The change that a message of a block announces, at a place among announcements. -/
def Message.change? (block : BlockNumber) (sequence : Nat) : Message → Option Change
  | .scheduledChange authorities delay =>
      some (Change.scheduled authorities delay block sequence)
  | .forcedChange offset authorities delay =>
      some (Change.forced authorities delay offset block sequence)
  | .authorityDisabled _ => none
  | .pause _ => none
  | .resume _ => none

namespace Agenda

theorem mem_insert {agenda : Agenda} {change member : Change} :
    member ∈ (agenda.insert change).toList ↔ member = change ∨ member ∈ agenda.toList :=
  mem_insertSorted change member agenda.toList

theorem length_insertSorted_le (change : Change) (changes : List Change) :
    (insertSorted change changes).length ≤ changes.length + 1 := by
  induction changes with
  | nil => exact Nat.le_refl _
  | cons first rest inductionHypothesis =>
      unfold insertSorted
      split <;> simp only [List.length_cons] <;> omega

theorem size_insert_le (agenda : Agenda) (change : Change) :
    (agenda.insert change).size ≤ agenda.size + 1 :=
  length_insertSorted_le change agenda.toList

end Agenda

namespace Roster

@[simp]
theorem current_receive (roster : Roster) (block : BlockNumber) (message : Message) :
    (roster.receive block message).current = roster.current := by
  cases message <;> rfl

@[simp]
theorem superseded_receive (roster : Roster) (block : BlockNumber) (message : Message) :
    (roster.receive block message).superseded = roster.superseded := by
  cases message <;> rfl

@[simp]
theorem current_receiveAll (roster : Roster) (block : BlockNumber) (messages : List Message) :
    (roster.receiveAll block messages).current = roster.current := by
  induction messages generalizing roster with
  | nil => rfl
  | cons message messages inductionHypothesis =>
      exact (inductionHypothesis (roster.receive block message)).trans
        (current_receive roster block message)

@[simp]
theorem superseded_receiveAll (roster : Roster) (block : BlockNumber) (messages : List Message) :
    (roster.receiveAll block messages).superseded = roster.superseded := by
  induction messages generalizing roster with
  | nil => rfl
  | cons message messages inductionHypothesis =>
      exact (inductionHypothesis (roster.receive block message)).trans
        (superseded_receive roster block message)

/-- A roster that differs in nothing but the round. -/
def mapRound (roster : Roster) (next : RoundNumber → RoundNumber) : Roster :=
  { roster with round := next roster.round }

theorem receive_mapRound
    (roster : Roster) (next : RoundNumber → RoundNumber) (block : BlockNumber)
    (message : Message) :
    (roster.mapRound next).receive block message =
      (roster.receive block message).mapRound next := by
  cases message <;> rfl

/-- Messages are received the same way whatever the round is. -/
theorem receiveAll_mapRound
    (roster : Roster) (next : RoundNumber → RoundNumber) (block : BlockNumber)
    (messages : List Message) :
    (roster.mapRound next).receiveAll block messages =
      (roster.receiveAll block messages).mapRound next := by
  induction messages generalizing roster with
  | nil => rfl
  | cons message messages inductionHypothesis =>
      have received := inductionHypothesis (roster.receive block message)
      rw [← receive_mapRound] at received
      exact received

theorem receiveAll_noteRound
    (roster : Roster) (round : RoundNumber) (block : BlockNumber) (messages : List Message) :
    (roster.noteRound round).receiveAll block messages =
      (roster.receiveAll block messages).noteRound round :=
  receiveAll_mapRound roster (max · round) block messages

theorem mem_agenda_receive
    {roster : Roster} {block : BlockNumber} {message : Message} {change : Change} :
    change ∈ (roster.receive block message).agenda.toList ↔
      message.change? block roster.announcements = some change ∨ change ∈ roster.agenda.toList := by
  cases message <;>
    simp [receive, announce, Message.change?, Agenda.mem_insert, eq_comm]

/-- A change on the agenda was there before or is announced by one of the messages. -/
theorem mem_agenda_of_receiveAll
    {roster : Roster} {block : BlockNumber} {messages : List Message} {change : Change}
    (member : change ∈ (roster.receiveAll block messages).agenda.toList) :
    change ∈ roster.agenda.toList ∨
      ∃ message ∈ messages, ∃ sequence, message.change? block sequence = some change := by
  induction messages generalizing roster with
  | nil => exact Or.inl member
  | cons message messages inductionHypothesis =>
      rcases inductionHypothesis member with received | ⟨later, inLater, sequence, announced⟩
      · rcases mem_agenda_receive.mp received with announced | earlier
        · exact Or.inr ⟨message, List.mem_cons_self, roster.announcements, announced⟩
        · exact Or.inl earlier
      · exact Or.inr ⟨later, List.mem_cons_of_mem message inLater, sequence, announced⟩

theorem mem_agenda_receiveAll_of_mem
    {roster : Roster} {change : Change} (member : change ∈ roster.agenda.toList)
    (block : BlockNumber) (messages : List Message) :
    change ∈ (roster.receiveAll block messages).agenda.toList := by
  induction messages generalizing roster with
  | nil => exact member
  | cons message messages inductionHypothesis =>
      exact inductionHypothesis (mem_agenda_receive.mpr (Or.inr member))

/-- What a message announces in its turn is on the agenda after all messages. -/
theorem mem_agenda_receiveAll_of_change?
    {roster : Roster} {block : BlockNumber} {earlier later : List Message} {message : Message}
    {change : Change}
    (announced :
      message.change? block (roster.receiveAll block earlier).announcements = some change) :
    change ∈ (roster.receiveAll block (earlier ++ message :: later)).agenda.toList := by
  have received : change ∈ ((roster.receiveAll block earlier).receive block message).agenda.toList :=
    mem_agenda_receive.mpr (Or.inl announced)
  have inOrder :
      roster.receiveAll block (earlier ++ message :: later) =
        ((roster.receiveAll block earlier).receive block message).receiveAll block later := by
    simp [receiveAll]
  rw [inOrder]
  exact mem_agenda_receiveAll_of_mem received block later

theorem size_agenda_receive_le (roster : Roster) (block : BlockNumber) (message : Message) :
    (roster.receive block message).agenda.size ≤ roster.agenda.size + 1 := by
  cases message with
  | scheduledChange authorities delay => exact Agenda.size_insert_le _ _
  | forcedChange offset authorities delay => exact Agenda.size_insert_le _ _
  | authorityDisabled index => exact Nat.le_succ _
  | pause delay => exact Nat.le_succ _
  | resume delay => exact Nat.le_succ _

theorem size_agenda_receiveAll_le
    (roster : Roster) (block : BlockNumber) (messages : List Message) :
    (roster.receiveAll block messages).agenda.size ≤ roster.agenda.size + messages.length := by
  induction messages generalizing roster with
  | nil => exact Nat.le_refl _
  | cons message messages inductionHypothesis =>
      have first := size_agenda_receive_le roster block message
      have later := inductionHypothesis (roster.receive block message)
      rw [receiveAll, List.foldl_cons, ← receiveAll, List.length_cons]
      omega

end Roster

end FinalitySync.Grandpa
