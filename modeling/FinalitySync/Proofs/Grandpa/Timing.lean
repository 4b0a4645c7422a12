import FinalitySync.Proofs.Grandpa.Announcement
import FinalitySync.Proofs.Grandpa.Enactment

/-!
# When changes come into force

Draining at a block leaves on the agenda exactly the changes that are due after it.  A change that
was due came into force, or another one did that was due no earlier.
-/

namespace FinalitySync.Grandpa

namespace Message

/-- The number of the block at which the change of a message is due.  No number passes the last
one, neither that of the block nor the delay of a forced change. -/
def applicationNumber? (announced : BlockNumber) : Message → Option Nat
  | .scheduledChange _ delay => some (min (announced.toNat + delay.toNat) (2 ^ 32 - 1))
  | .forcedChange offset _ delay =>
      some (min (announced.toNat + min (delay.toNat + offset.toNat) (2 ^ 32 - 1)) (2 ^ 32 - 1))
  | .authorityDisabled _ => none
  | .pause _ => none
  | .resume _ => none

variable {message : Message} {announced : BlockNumber} {sequence : Nat} {change : Change}

theorem applicationNumber?_of_change?
    (announces : message.change? announced sequence = some change) :
    message.applicationNumber? announced = some change.applicationBlock.toNat := by
  cases message <;> cases announces
  · simp only [applicationNumber?, Change.scheduled, BlockNumber.toNat_after]
  · simp only [applicationNumber?, Change.forced, BlockNumber.toNat_after]

/-- A message with such a block announces a change, which is due there. -/
theorem exists_change?_of_applicationNumber?
    {number : Nat} (isDueAt : message.applicationNumber? announced = some number)
    (sequence : Nat) :
    ∃ change,
      message.change? announced sequence = some change ∧
        change.applicationBlock.toNat = number := by
  cases announces : message.change? announced sequence with
  | some change =>
      rw [applicationNumber?_of_change? announces] at isDueAt
      exact ⟨change, rfl, Option.some.inj isDueAt⟩
  | none => cases message <;> simp [applicationNumber?, change?] at isDueAt announces

/-- No change is due before the block that announces it. -/
theorem le_applicationBlock_of_change?
    (announces : message.change? announced sequence = some change) :
    announced ≤ change.applicationBlock := by
  have number := applicationNumber?_of_change? announces
  have bound := announced.toNat_lt
  rw [UInt32.le_iff_toNat_le]
  cases message <;> simp only [applicationNumber?, Option.some.injEq, reduceCtorEq] at number <;>
    omega

end Message

namespace Agenda

variable {agenda : Agenda} {block : BlockNumber} {change : Change}

theorem mem_dueAfter :
    change ∈ (agenda.dueAfter block).toList ↔
      change ∈ agenda.toList ∧ block < change.applicationBlock := by
  rw [dueAfter, List.mem_filter, decide_eq_true_iff]

theorem dueAfter_dueAfter {earlier : BlockNumber} (inOrder : earlier ≤ block) :
    (agenda.dueAfter earlier).dueAfter block = agenda.dueAfter block := by
  apply Agenda.ext
  simp only [dueAfter, List.filter_filter]
  apply List.filter_congr
  intro change _
  have afterBoth : block < change.applicationBlock → earlier < change.applicationBlock :=
    fun later => UInt32.lt_of_le_of_lt inOrder later
  by_cases later : block < change.applicationBlock
  · simp [later, afterBoth later]
  · simp [later]

theorem dueAfter_of_firstDue?_eq_none (found : agenda.firstDue? block = none) :
    agenda.dueAfter block = agenda := by
  apply Agenda.ext
  simp only [dueAfter, List.filter_eq_self, decide_eq_true_iff]
  intro change member
  have notDue := List.find?_eq_none.mp found change member
  rw [Change.isDue, decide_eq_true_iff, UInt32.not_le] at notDue
  exact notDue

theorem mem_of_mem_enacted (enacts : change ∈ agenda.enacted block) :
    change ∈ agenda.toList ∧ change.applicationBlock ≤ block := by
  induction size : agenda.size using Nat.strongRecOn generalizing agenda with
  | ind size inductionHypothesis =>
      cases found : agenda.firstDue? block with
      | none =>
          rw [enacted_of_firstDue?_eq_none found] at enacts
          cases enacts
      | some first =>
          rw [enacted_of_firstDue?_eq_some found] at enacts
          rcases List.mem_cons.mp enacts with rfl | inLater
          · exact ⟨mem_of_firstDue? found, isDue_of_firstDue? found⟩
          · have smaller := size_dueAfter_lt (mem_of_firstDue? found)
            rw [size] at smaller
            obtain ⟨member, due⟩ := inductionHypothesis _ smaller inLater rfl
            exact ⟨(mem_dueAfter.mp member).1, due⟩

/-- A due change comes into force, unless one does that is due no earlier. -/
theorem exists_mem_enacted_of_isDue
    (member : change ∈ agenda.toList) (due : change.applicationBlock ≤ block) :
    change ∈ agenda.enacted block ∨
      ∃ other ∈ agenda.enacted block, change.applicationBlock ≤ other.applicationBlock := by
  induction size : agenda.size using Nat.strongRecOn generalizing agenda with
  | ind size inductionHypothesis =>
      cases found : agenda.firstDue? block with
      | none =>
          rw [← dueAfter_of_firstDue?_eq_none found, mem_dueAfter] at member
          exact absurd due (UInt32.not_le.mpr member.2)
      | some first =>
          rw [enacted_of_firstDue?_eq_some found]
          by_cases dropped : change.applicationBlock ≤ first.applicationBlock
          · exact Or.inr ⟨first, List.mem_cons_self, dropped⟩
          · have kept : change ∈ (agenda.dueAfter first.applicationBlock).toList :=
              mem_dueAfter.mpr ⟨member, UInt32.not_le.mp dropped⟩
            have smaller := size_dueAfter_lt (mem_of_firstDue? found)
            rw [size] at smaller
            rcases inductionHypothesis _ smaller kept rfl with
              enacts | ⟨other, enactsOther, notEarlier⟩
            · exact Or.inl (List.mem_cons_of_mem first enacts)
            · exact Or.inr ⟨other, List.mem_cons_of_mem first enactsOther, notEarlier⟩

end Agenda

namespace Roster

variable {roster last : Roster} {block : BlockNumber} {changes : List Change}

theorem agenda_foldl_enact (roster : Roster) (block : BlockNumber) :
    ((roster.agenda.enacted block).foldl enact roster).agenda = roster.agenda.dueAfter block := by
  induction size : roster.agenda.size using Nat.strongRecOn generalizing roster with
  | ind size inductionHypothesis =>
      cases found : roster.agenda.firstDue? block with
      | none =>
          rw [Agenda.enacted_of_firstDue?_eq_none found,
            Agenda.dueAfter_of_firstDue?_eq_none found]
          rfl
      | some change =>
          have smaller := Agenda.size_dueAfter_lt (Agenda.mem_of_firstDue? found)
          rw [size] at smaller
          have later := inductionHypothesis _ smaller (roster.enact change) rfl
          rw [agenda_enact, Agenda.dueAfter_dueAfter (Agenda.isDue_of_firstDue? found)] at later
          rw [Agenda.enacted_of_firstDue?_eq_some found, List.foldl_cons]
          exact later

theorem enacted_of_drain (drained : roster.drain block = .ok (changes, last)) :
    changes = roster.agenda.enacted block ∧
      last = (roster.agenda.enacted block).foldl enact roster := by
  rw [drain_eq] at drained
  split at drained <;> cases drained
  exact ⟨rfl, rfl⟩

/-- Draining leaves exactly the changes that are due later. -/
theorem agenda_of_drain (drained : roster.drain block = .ok (changes, last)) :
    last.agenda = roster.agenda.dueAfter block := by
  rw [(enacted_of_drain drained).2, agenda_foldl_enact]

end Roster

end FinalitySync.Grandpa
