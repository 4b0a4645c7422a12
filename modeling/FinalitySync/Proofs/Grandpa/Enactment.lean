import FinalitySync.Grandpa.Roster

/-!
# Changes that come into force at a block

Which changes come into force depends on the agenda alone.  The roster after them is a fold over
these changes, and the numbers of sets run out exactly if there are too many of them.
-/

namespace FinalitySync.Grandpa

namespace Agenda

/-- The changes that come into force at a block, in order.  Each drops those due no later than
itself. -/
def enacted (agenda : Agenda) (block : BlockNumber) : List Change :=
  match _found : agenda.firstDue? block with
  | none => []
  | some change => change :: (agenda.dueAfter change.applicationBlock).enacted block
termination_by agenda.size
decreasing_by exact size_dueAfter_lt (mem_of_firstDue? _found)

theorem enacted_of_firstDue?_eq_none
    {agenda : Agenda} {block : BlockNumber}
    (found : agenda.firstDue? block = none) :
    agenda.enacted block = [] := by
  rw [enacted]
  split
  · rfl
  · simp_all

theorem enacted_of_firstDue?_eq_some
    {agenda : Agenda} {block : BlockNumber} {change : Change}
    (found : agenda.firstDue? block = some change) :
    agenda.enacted block =
      change :: (agenda.dueAfter change.applicationBlock).enacted block := by
  rw [enacted]
  split
  · simp_all
  · rename_i other foundOther
    cases found.symm.trans foundOther
    rfl

theorem isDue_of_firstDue?
    {agenda : Agenda} {block : BlockNumber} {change : Change}
    (found : agenda.firstDue? block = some change) :
    change.applicationBlock ≤ block := by
  rw [firstDue?] at found
  have isDue := List.find?_some found
  exact of_decide_eq_true isDue

/-- Every change that comes into force was on the agenda before. -/
theorem length_enacted_le (agenda : Agenda) (block : BlockNumber) :
    (agenda.enacted block).length ≤ agenda.size := by
  induction size : agenda.size using Nat.strongRecOn generalizing agenda with
  | ind size inductionHypothesis =>
      cases found : agenda.firstDue? block with
      | none =>
          rw [enacted_of_firstDue?_eq_none found]
          exact Nat.zero_le _
      | some change =>
          have smaller := size_dueAfter_lt (mem_of_firstDue? found)
          rw [size] at smaller
          have later := inductionHypothesis _ smaller (agenda.dueAfter change.applicationBlock) rfl
          rw [enacted_of_firstDue?_eq_some found, List.length_cons]
          omega

end Agenda

namespace Roster

/-- The roster after a change came into force, as long as set numbers last. -/
def enact (roster : Roster) (change : Change) : Roster :=
  { roster with
    current := ⟨roster.current.setId + 1, change.authorities⟩
    agenda := roster.agenda.dueAfter change.applicationBlock
    superseded := retained roster.retention (roster.superseded ++ [roster.current])
    round := 0
    disabled := none }

theorem applyDue_of_firstDue?_eq_none
    {roster : Roster} {block : BlockNumber} (found : roster.agenda.firstDue? block = none) :
    roster.applyDue block = .ok none := by
  simp only [applyDue, found]

theorem applyDue_of_firstDue?_eq_some
    {roster : Roster} {block : BlockNumber} {change : Change}
    (found : roster.agenda.firstDue? block = some change) :
    roster.applyDue block =
      if roster.setId.toNat + 1 < 2 ^ 64 then .ok (some (change, roster.enact change))
      else .error .addition := by
  by_cases fits : roster.setId.toNat + 1 < 2 ^ 64
  · rw [if_pos fits]
    have started :
        { roster with agenda := roster.agenda.dueAfter change.applicationBlock }.startSet
          change.authorities = .ok (roster.enact change) :=
      startSet_eq_ok_iff.mpr ⟨fits, rfl⟩
    simp only [applyDue, found, started]
    rfl
  · rw [if_neg fits]
    have exhausted : nextSetId roster.current.setId = .error .addition := if_neg fits
    simp only [applyDue, found, startSet, exhausted]
    rfl

theorem drain_of_applyDue_eq_none
    {roster : Roster} {block : BlockNumber}
    (settled : roster.applyDue block = .ok none) :
    roster.drain block = .ok ([], roster) := by
  rw [drain]
  split <;> simp_all

theorem drain_of_applyDue_eq_error
    {roster : Roster} {block : BlockNumber} {overflow : Overflow}
    (failed : roster.applyDue block = .error overflow) :
    roster.drain block = .error overflow := by
  rw [drain]
  split <;> simp_all

theorem drain_of_applyDue_eq_some
    {roster next : Roster} {block : BlockNumber} {change : Change}
    (applied : roster.applyDue block = .ok (some (change, next))) :
    roster.drain block =
      (next.drain block).map fun drained => (change :: drained.1, drained.2) := by
  rw [drain]
  split
  · simp_all
  · simp_all
  · rename_i other after appliedOther
    cases applied.symm.trans appliedOther
    cases next.drain block <;> rfl

@[simp]
theorem agenda_enact (roster : Roster) (change : Change) :
    (roster.enact change).agenda = roster.agenda.dueAfter change.applicationBlock := rfl

theorem toNat_setId_enact
    {roster : Roster} (fits : roster.setId.toNat + 1 < 2 ^ 64) (change : Change) :
    (roster.enact change).setId.toNat = roster.setId.toNat + 1 := by
  have added : (roster.enact change).setId = roster.setId + 1 := rfl
  rw [added, UInt64.toNat_add, UInt64.toNat_one, Nat.mod_eq_of_lt fits]

/-- Draining brings into force exactly the changes that the agenda alone determines. -/
theorem drain_eq (roster : Roster) (block : BlockNumber) :
    roster.drain block =
      if roster.setId.toNat + (roster.agenda.enacted block).length < 2 ^ 64 then
        .ok (roster.agenda.enacted block, (roster.agenda.enacted block).foldl enact roster)
      else .error .addition := by
  induction size : roster.agenda.size using Nat.strongRecOn generalizing roster with
  | ind size inductionHypothesis =>
      cases found : roster.agenda.firstDue? block with
      | none =>
          have settled := applyDue_of_firstDue?_eq_none found
          have fits : roster.setId.toNat < 2 ^ 64 := roster.setId.toNat_lt
          rw [drain_of_applyDue_eq_none settled, Agenda.enacted_of_firstDue?_eq_none found]
          exact (if_pos fits).symm
      | some change =>
          have applied := applyDue_of_firstDue?_eq_some found
          rw [Agenda.enacted_of_firstDue?_eq_some found, List.length_cons, List.foldl_cons]
          by_cases fits : roster.setId.toNat + 1 < 2 ^ 64
          · rw [if_pos fits] at applied
            have smaller := size_agenda_lt_of_applyDue applied
            rw [size] at smaller
            have later := inductionHypothesis _ smaller (roster.enact change) rfl
            rw [toNat_setId_enact fits, agenda_enact] at later
            rw [drain_of_applyDue_eq_some applied, later, Nat.add_assoc,
              Nat.add_comm 1]
            split <;> rfl
          · rw [if_neg fits] at applied
            rw [drain_of_applyDue_eq_error applied]
            exact (if_neg (by omega)).symm

theorem applyDue_eq_some_iff
    {roster next : Roster} {block : BlockNumber} {change : Change} :
    roster.applyDue block = .ok (some (change, next)) ↔
      roster.agenda.firstDue? block = some change ∧
        roster.setId.toNat + 1 < 2 ^ 64 ∧ next = roster.enact change := by
  constructor
  · intro applied
    cases found : roster.agenda.firstDue? block with
    | none =>
        rw [applyDue_of_firstDue?_eq_none found] at applied
        cases applied
    | some due =>
        rw [applyDue_of_firstDue?_eq_some found] at applied
        by_cases fits : roster.setId.toNat + 1 < 2 ^ 64
        · rw [if_pos fits] at applied
          cases applied
          exact ⟨rfl, fits, rfl⟩
        · rw [if_neg fits] at applied
          cases applied
  · rintro ⟨found, fits, rfl⟩
    rw [applyDue_of_firstDue?_eq_some found, if_pos fits]

/-- Changes come into force one after another until none is due at the block.  Each is the next one
in the roster that the change before it left; it takes the number after that of the set before it,
and its rounds start over. -/
inductive EnactsInTurn (block : BlockNumber) : Roster → List Change → Roster → Prop
  | nil {roster : Roster} (settled : roster.applyDue block = .ok none) :
      EnactsInTurn block roster [] roster
  | cons {roster next last : Roster} {change : Change} {changes : List Change}
      (applied : roster.applyDue block = .ok (some (change, next)))
      (takesNextNumber : next.setId.toNat = roster.setId.toNat + 1)
      (startsOver : next.round = 0)
      (later : EnactsInTurn block next changes last) :
      EnactsInTurn block roster (change :: changes) last

section InTurn

variable {block : BlockNumber} {roster last : Roster} {changes : List Change}

/-- Draining brings changes into force in turn, and it is the only way in which they can come. -/
theorem drain_eq_ok_iff :
    roster.drain block = .ok (changes, last) ↔ EnactsInTurn block roster changes last := by
  constructor
  · intro drained
    induction roster using drain.induct block generalizing changes with
    | case1 roster overflow failed =>
        rw [drain_of_applyDue_eq_error failed] at drained
        cases drained
    | case2 roster settled =>
        rw [drain_of_applyDue_eq_none settled] at drained
        cases drained
        exact .nil settled
    | case3 roster change next applied overflow failed =>
        rw [drain_of_applyDue_eq_some applied, failed] at drained
        cases drained
    | case4 roster change next applied laterChanges lastRoster drainedLater inductionHypothesis =>
        rw [drain_of_applyDue_eq_some applied, drainedLater] at drained
        cases drained
        have later := inductionHypothesis drainedLater
        obtain ⟨_, fits, rfl⟩ := applyDue_eq_some_iff.mp applied
        exact .cons applied (toNat_setId_enact fits change) rfl later
  · intro inTurn
    induction inTurn with
    | nil settled => exact drain_of_applyDue_eq_none settled
    | cons applied _ _ _ inductionHypothesis =>
        rw [drain_of_applyDue_eq_some applied, inductionHypothesis]
        rfl

theorem EnactsInTurn.toNat_setId (inTurn : EnactsInTurn block roster changes last) :
    last.setId.toNat = roster.setId.toNat + changes.length := by
  induction inTurn with
  | nil => rfl
  | cons _ takesNextNumber _ _ inductionHypothesis =>
      rw [inductionHypothesis, takesNextNumber, List.length_cons]
      omega

theorem EnactsInTurn.eq_of_nil (inTurn : EnactsInTurn block roster [] last) : last = roster := by
  cases inTurn
  rfl

/-- Rounds that started over do so again with every later change. -/
theorem EnactsInTurn.round_eq_zero
    (inTurn : EnactsInTurn block roster changes last) (nonempty : changes ≠ []) :
    last.round = 0 := by
  induction inTurn with
  | nil => exact absurd rfl nonempty
  | @cons _ _ _ _ changes _ _ startsOver later inductionHypothesis =>
      cases changes with
      | nil =>
          rw [later.eq_of_nil]
          exact startsOver
      | cons => exact inductionHypothesis (List.cons_ne_nil _ _)

/-- What holds of a roster and is kept by each change that comes into force holds after draining. -/
theorem drain_induction
    {motive : Roster → Prop}
    (step : ∀ roster change,
      motive roster →
      roster.agenda.firstDue? block = some change →
      roster.setId.toNat + 1 < 2 ^ 64 →
      motive (roster.enact change))
    (drained : roster.drain block = .ok (changes, last))
    (initial : motive roster) :
    motive last := by
  rw [drain_eq_ok_iff] at drained
  induction drained with
  | nil => exact initial
  | cons applied _ _ _ inductionHypothesis =>
      obtain ⟨found, fits, rfl⟩ := applyDue_eq_some_iff.mp applied
      exact inductionHypothesis (step _ _ initial found fits)

end InTurn

end Roster

end FinalitySync.Grandpa
