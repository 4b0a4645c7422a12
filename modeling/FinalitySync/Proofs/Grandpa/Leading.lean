import FinalitySync.Proofs.Grandpa.Order
import FinalitySync.Proofs.Grandpa.Retention
import FinalitySync.Proofs.Grandpa.Timing

/-!
# What draining brings into force

Of the changes that are due at a block, those come into force that are due later than every due
change before them on the agenda.  The last of them is the first of the changes that are due latest,
and it leaves its authorities to the roster.
-/

namespace FinalitySync.Grandpa

/-- The changes of a list that are due later than every change before them. -/
def leading : List Change → List Change
  | [] => []
  | first :: later =>
      first :: (leading later).filter fun change => first.applicationBlock < change.applicationBlock

theorem leading_sublist (changes : List Change) : (leading changes).Sublist changes := by
  induction changes with
  | nil => exact List.Sublist.refl []
  | cons first later inductionHypothesis =>
      exact (List.filter_sublist.trans inductionHypothesis).cons_cons first

theorem leading_eq_nil_iff {changes : List Change} : leading changes = [] ↔ changes = [] := by
  cases changes <;> simp [leading]

/-- Changes that lead are due one after the other. -/
theorem pairwise_leading (changes : List Change) :
    (leading changes).Pairwise fun earlier later =>
      earlier.applicationBlock < later.applicationBlock := by
  induction changes with
  | nil => exact List.Pairwise.nil
  | cons first later inductionHypothesis =>
      refine List.pairwise_cons.mpr ⟨?_, inductionHypothesis.filter _⟩
      intro change member
      exact of_decide_eq_true (List.mem_filter.mp member).2

theorem mem_leading_iff
    {before after : List Change} {change : Change} (isFirst : change ∉ before) :
    change ∈ leading (before ++ change :: after) ↔
      ∀ earlier ∈ before, earlier.applicationBlock < change.applicationBlock := by
  induction before with
  | nil => simp [leading]
  | cons first before inductionHypothesis =>
      rw [List.mem_cons, not_or] at isFirst
      obtain ⟨notFirst, notBefore⟩ := isFirst
      rw [List.cons_append, leading, List.mem_cons, List.mem_filter, inductionHypothesis notBefore,
        List.forall_mem_cons, decide_eq_true_iff, and_comm]
      simp [notFirst]

/-- Leaving out what is due by a block leaves out just that among the leading changes. -/
theorem leading_filter_lt (block : BlockNumber) (changes : List Change) :
    leading (changes.filter fun change => block < change.applicationBlock) =
      (leading changes).filter fun change => block < change.applicationBlock := by
  induction changes with
  | nil => rfl
  | cons first later inductionHypothesis =>
      by_cases isLater : block < first.applicationBlock
      · rw [List.filter_cons_of_pos (by simpa using isLater), leading, leading,
          inductionHypothesis, List.filter_cons_of_pos (by simpa using isLater),
          List.filter_filter, List.filter_filter]
        simp only [Bool.and_comm]
      · -- Whatever is due after the block is due after the first change as well.
        have absorbed :
            ∀ change ∈ leading later,
              (decide (block < change.applicationBlock) &&
                  decide (first.applicationBlock < change.applicationBlock)) =
                decide (block < change.applicationBlock) := by
          intro change _
          by_cases after : block < change.applicationBlock
          · have afterFirst : first.applicationBlock < change.applicationBlock :=
              UInt32.lt_of_le_of_lt (UInt32.not_lt.mp isLater) after
            simp [after, afterFirst]
          · simp [after]
        rw [List.filter_cons_of_neg (by simpa using isLater), leading, inductionHypothesis,
          List.filter_cons_of_neg (by simpa using isLater), List.filter_filter,
          List.filter_congr absorbed]

/-- The last of the leading changes is the first among those that are due latest. -/
theorem exists_leading_eq_concat {changes : List Change} (nonempty : changes ≠ []) :
    ∃ before change after earlier,
      changes = before ++ change :: after ∧
        (∀ other ∈ before, other.applicationBlock < change.applicationBlock) ∧
        (∀ other ∈ after, other.applicationBlock ≤ change.applicationBlock) ∧
        leading changes = earlier ++ [change] := by
  induction changes with
  | nil => exact absurd rfl nonempty
  | cons first later inductionHypothesis =>
      by_cases isLast : later = []
      · rw [isLast]
        exact ⟨[], first, [], [], rfl, by simp, by simp, rfl⟩
      · obtain ⟨before, change, after, earlier, split, notBefore, notAfter, leads⟩ :=
          inductionHypothesis isLast
        by_cases isLater : first.applicationBlock < change.applicationBlock
        · refine ⟨first :: before, change, after, first :: earlier.filter fun other =>
            first.applicationBlock < other.applicationBlock, ?_, ?_, notAfter, ?_⟩
          · rw [split, List.cons_append]
          · exact List.forall_mem_cons.mpr ⟨isLater, notBefore⟩
          · rw [leading, leads, List.filter_append,
              List.filter_cons_of_pos (by simpa using isLater), List.filter_nil, List.cons_append]
        · have notLater : change.applicationBlock ≤ first.applicationBlock :=
            UInt32.not_lt.mp isLater
          have bounded : ∀ other ∈ later, other.applicationBlock ≤ first.applicationBlock := by
            intro other member
            rw [split, List.mem_append, List.mem_cons] at member
            rcases member with inBefore | rfl | inAfter
            · exact UInt32.le_trans (UInt32.le_of_lt (notBefore other inBefore)) notLater
            · exact notLater
            · exact UInt32.le_trans (notAfter other inAfter) notLater
          refine ⟨[], first, later, [], rfl, by simp, bounded, ?_⟩
          have noneLeft :
              ((leading later).filter fun other =>
                first.applicationBlock < other.applicationBlock) = [] := by
            rw [List.filter_eq_nil_iff]
            intro other member
            have notAfterFirst := bounded other ((leading_sublist later).mem member)
            simpa using notAfterFirst
          rw [leading, noneLeft, List.nil_append]

namespace Agenda

/-- The changes that are due at a block, in the order of precedence. -/
def due (agenda : Agenda) (block : BlockNumber) : List Change :=
  agenda.toList.filter fun change => change.isDue block

theorem firstDue?_eq_head? (agenda : Agenda) (block : BlockNumber) :
    agenda.firstDue? block = (agenda.due block).head? := by
  rw [firstDue?, due, List.head?_filter]

theorem due_dueAfter (agenda : Agenda) (earlier block : BlockNumber) :
    (agenda.dueAfter earlier).due block =
      (agenda.due block).filter fun change => earlier < change.applicationBlock := by
  rw [due, due, dueAfter, List.filter_filter, List.filter_filter]
  simp only [Bool.and_comm]

/-- Exactly the leading ones among the due changes come into force. -/
theorem enacted_eq_leading (agenda : Agenda) (block : BlockNumber) :
    agenda.enacted block = leading (agenda.due block) := by
  induction size : agenda.size using Nat.strongRecOn generalizing agenda with
  | ind size inductionHypothesis =>
      have found := agenda.firstDue?_eq_head? block
      cases split : agenda.due block with
      | nil =>
          rw [split, List.head?_nil] at found
          rw [enacted_of_firstDue?_eq_none found, leading]
      | cons first later =>
          rw [split, List.head?_cons] at found
          have smaller := size_dueAfter_lt (mem_of_firstDue? found)
          rw [size] at smaller
          have remaining :=
            inductionHypothesis _ smaller (agenda.dueAfter first.applicationBlock) rfl
          rw [due_dueAfter, split, List.filter_cons_of_neg (by simp), leading_filter_lt]
            at remaining
          rw [enacted_of_firstDue?_eq_some found, remaining, leading]

end Agenda

/-- `Leads due changes` means that the changes are those of the due ones, in their order, that are
due later than every one before them. -/
structure Leads (due changes : List Change) : Prop where
  sublist : changes.Sublist due
  mem_iff :
    ∀ before change after,
      due = before ++ change :: after →
        (change ∈ changes ↔
          ∀ earlier ∈ before, earlier.applicationBlock < change.applicationBlock)

theorem Agenda.leads_due (agenda : Agenda) (block : BlockNumber) :
    Leads (agenda.due block) (leading (agenda.due block)) where
  sublist := leading_sublist _
  mem_iff := by
    intro before change after split
    have distinct : (agenda.due block).Nodup := agenda.nodup_toList.filter _
    rw [split, List.nodup_append] at distinct
    have isFirst : change ∉ before := fun member =>
      distinct.2.2 change member change List.mem_cons_self rfl
    rw [split]
    exact mem_leading_iff isFirst

namespace Roster

theorem foldl_enact_concat (roster : Roster) (changes : List Change) (change : Change) :
    (changes ++ [change]).foldl enact roster = (changes.foldl enact roster).enact change := by
  rw [List.foldl_append, List.foldl_cons, List.foldl_nil]

theorem drain_eq_leading (roster : Roster) (block : BlockNumber) :
    roster.drain block =
      if roster.setId.toNat + (leading (roster.agenda.due block)).length < 2 ^ 64 then
        .ok
          (leading (roster.agenda.due block),
            (leading (roster.agenda.due block)).foldl enact roster)
      else .error .addition := by
  rw [drain_eq, Agenda.enacted_eq_leading]

/-- What a roster is left as after the given changes came into force at a block. -/
structure IsDrained
    (roster : Roster) (block : BlockNumber) (changes : List Change) (last : Roster) : Prop where
  agenda :
    last.agenda.toList =
      roster.agenda.toList.filter fun change => block < change.applicationBlock
  setId : last.setId.toNat = roster.setId.toNat + changes.length
  isSettled : last.applyDue block = .ok none
  /-- The first of the changes that are due latest has the last word. -/
  latest :
    roster.agenda.due block ≠ [] →
      ∃ before change after,
        roster.agenda.due block = before ++ change :: after ∧
          (∀ other ∈ before, other.applicationBlock < change.applicationBlock) ∧
          (∀ other ∈ after, other.applicationBlock ≤ change.applicationBlock) ∧
          last.current.authorities = change.authorities ∧ last.round = 0 ∧ last.disabled = none
  unchanged : roster.agenda.due block = [] → last = roster

theorem applyDue_eq_none_of_dueAfter
    {roster : Roster} {agenda : Agenda} {block : BlockNumber}
    (remaining : roster.agenda = agenda.dueAfter block) :
    roster.applyDue block = .ok none := by
  have noneDue : (agenda.dueAfter block).due block = [] := by
    rw [Agenda.due_dueAfter, List.filter_eq_nil_iff]
    intro change member
    have isDue : change.applicationBlock ≤ block := of_decide_eq_true (List.mem_filter.mp member).2
    simpa using isDue
  apply applyDue_of_firstDue?_eq_none
  rw [remaining, Agenda.firstDue?_eq_head?, noneDue, List.head?_nil]

theorem isDrained_of_drain
    {roster last : Roster} {block : BlockNumber} {changes : List Change}
    (drained : roster.drain block = .ok (changes, last)) :
    roster.IsDrained block changes last := by
  have remaining := agenda_of_drain drained
  obtain ⟨isEnacted, isLast⟩ := enacted_of_drain drained
  rw [Agenda.enacted_eq_leading] at isEnacted isLast
  refine ⟨?_, toNat_setId_of_drain drained, applyDue_eq_none_of_dueAfter remaining, ?_, ?_⟩
  · rw [remaining, Agenda.dueAfter]
  · intro someDue
    obtain ⟨before, change, after, earlier, split, notBefore, notAfter, leads⟩ :=
      exists_leading_eq_concat someDue
    rw [leads, foldl_enact_concat] at isLast
    rw [isLast]
    exact ⟨before, change, after, split, notBefore, notAfter, rfl, rfl, rfl⟩
  · intro noneDue
    rw [noneDue] at isLast
    exact isLast

/-- Draining brings into force, in order, the changes that are due at the block and later than every
due one before them, unless there are too many for the numbers of sets.  Just the changes that are
due later stay on the agenda. -/
theorem drain_enacts_leading (roster : Roster) (block : BlockNumber) :
    ∃ changes,
      Leads (roster.agenda.due block) changes ∧
        (roster.setId.toNat + changes.length < 2 ^ 64 →
          ∃ last,
            roster.drain block = .ok (changes, last) ∧ roster.IsDrained block changes last) ∧
        (2 ^ 64 ≤ roster.setId.toNat + changes.length → roster.drain block = .error .addition) := by
  refine ⟨_, roster.agenda.leads_due block, ?_, ?_⟩
  · intro fits
    have drained := roster.drain_eq_leading block
    rw [if_pos fits] at drained
    exact ⟨_, drained, isDrained_of_drain drained⟩
  · intro exhausted
    rw [drain_eq_leading, if_neg (Nat.not_lt.mpr exhausted)]

end Roster

end FinalitySync.Grandpa
