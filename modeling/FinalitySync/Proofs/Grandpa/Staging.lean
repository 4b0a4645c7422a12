import FinalitySync.Proofs.Grandpa.Leading

/-!
# Draining in stages

A roster that is drained at one block and then at a later one ends with the authorities and the
agenda of a roster that is drained at the later block only.  More changes may come into force on the
way, because a change that is due earlier can stand behind one that is due later and drops it; if
none does, the two rosters are the same.
-/

namespace FinalitySync.Grandpa

/-- No change of the list is due before one in front of it. -/
def IsChronological (changes : List Change) : Prop :=
  changes.Pairwise fun earlier later => earlier.applicationBlock ≤ later.applicationBlock

theorem leading_isChronological (changes : List Change) : IsChronological (leading changes) :=
  (pairwise_leading changes).imp UInt32.le_of_lt

section Cut

variable {first : Change} {later changes : List Change} {block : BlockNumber}

theorem IsChronological.lt_of_lt
    (inTime : IsChronological (first :: later)) (isAfter : block < first.applicationBlock) :
    ∀ change ∈ first :: later, block < change.applicationBlock := by
  have notBefore := (List.pairwise_cons.mp inTime).1
  rw [List.forall_mem_cons]
  exact ⟨isAfter, fun change member => UInt32.lt_of_lt_of_le isAfter (notBefore change member)⟩

theorem filter_isDue_eq_nil_iff :
    (changes.filter fun change => change.isDue block) = [] ↔
      ∀ change ∈ changes, block < change.applicationBlock := by
  simp [List.filter_eq_nil_iff, Change.isDue]

theorem filter_isDue_append_filter (inTime : IsChronological changes) (block : BlockNumber) :
    (changes.filter fun change => change.isDue block) ++
        (changes.filter fun change => block < change.applicationBlock) =
      changes := by
  induction changes with
  | nil => rfl
  | cons first later inductionHypothesis =>
      by_cases isDue : first.applicationBlock ≤ block
      · have remaining := inductionHypothesis (List.pairwise_cons.mp inTime).2
        rw [List.filter_cons_of_pos (by simpa [Change.isDue] using isDue),
          List.filter_cons_of_neg (by simpa using isDue), List.cons_append, remaining]
      · have allAfter := inTime.lt_of_lt (UInt32.not_le.mp isDue)
        rw [filter_isDue_eq_nil_iff.mpr allAfter, List.nil_append, List.filter_eq_self]
        simpa using allAfter

theorem filter_isDue_leading_cons (isDue : first.applicationBlock ≤ block) :
    ((leading (first :: later)).filter fun change => change.isDue block) =
      first :: ((leading later).filter fun change => change.isDue block).filter
        fun change => first.applicationBlock < change.applicationBlock := by
  rw [leading, List.filter_cons_of_pos (by simpa [Change.isDue] using isDue), List.filter_filter,
    List.filter_filter]
  simp only [Bool.and_comm]

theorem filter_isDue_leading_eq_nil (isAfter : block < first.applicationBlock) :
    ((leading (first :: later)).filter fun change => change.isDue block) = [] :=
  filter_isDue_eq_nil_iff.mpr ((leading_isChronological (first :: later)).lt_of_lt isAfter)

/-- What leads among all changes and is due at a block leads among those that are due there. -/
theorem filter_leading_sublist (changes : List Change) (block : BlockNumber) :
    ((leading changes).filter fun change => change.isDue block).Sublist
      (leading (changes.filter fun change => change.isDue block)) := by
  induction changes with
  | nil => exact List.Sublist.refl []
  | cons first later inductionHypothesis =>
      by_cases isDue : first.applicationBlock ≤ block
      · rw [filter_isDue_leading_cons isDue,
          List.filter_cons_of_pos (by simpa [Change.isDue] using isDue), leading]
        exact (inductionHypothesis.filter _).cons_cons first
      · rw [filter_isDue_leading_eq_nil (UInt32.not_le.mp isDue)]
        exact List.nil_sublist _

theorem leading_filter_isDue (inTime : IsChronological changes) (block : BlockNumber) :
    leading (changes.filter fun change => change.isDue block) =
      (leading changes).filter fun change => change.isDue block := by
  induction changes with
  | nil => rfl
  | cons first later inductionHypothesis =>
      by_cases isDue : first.applicationBlock ≤ block
      · have remaining := inductionHypothesis (List.pairwise_cons.mp inTime).2
        rw [filter_isDue_leading_cons isDue,
          List.filter_cons_of_pos (by simpa [Change.isDue] using isDue), leading, remaining]
      · have isAfter : block < first.applicationBlock := UInt32.not_le.mp isDue
        rw [filter_isDue_leading_eq_nil isAfter,
          filter_isDue_eq_nil_iff.mpr (inTime.lt_of_lt isAfter), leading]

end Cut

namespace Agenda

/-- The changes that come into force when due changes are drained at one block and then, from what
is left of the agenda, at another. -/
def inStages (agenda : Agenda) (first second : BlockNumber) : List Change :=
  leading (agenda.due first) ++ leading ((agenda.dueAfter first).due second)

variable (agenda : Agenda) {first second : BlockNumber}

theorem filter_isDue_due (inOrder : first ≤ second) :
    ((agenda.due second).filter fun change => change.isDue first) = agenda.due first := by
  rw [due, due, List.filter_filter]
  apply List.filter_congr
  intro change _
  have dueLater : change.applicationBlock ≤ first → change.applicationBlock ≤ second :=
    fun isDue => UInt32.le_trans isDue inOrder
  simpa [Change.isDue] using dueLater

theorem leading_due_dueAfter (first second : BlockNumber) :
    leading ((agenda.dueAfter first).due second) =
      (leading (agenda.due second)).filter fun change => first < change.applicationBlock := by
  rw [due_dueAfter, leading_filter_lt]

/-- Stages leave out no change that comes into force without them. -/
theorem leading_due_sublist_inStages (inOrder : first ≤ second) :
    (leading (agenda.due second)).Sublist (agenda.inStages first second) := by
  have early := filter_leading_sublist (agenda.due second) first
  rw [agenda.filter_isDue_due inOrder] at early
  have cut := filter_isDue_append_filter (leading_isChronological (agenda.due second)) first
  rw [← cut, inStages, leading_due_dueAfter]
  exact early.append (List.Sublist.refl _)

theorem inStages_of_isChronological
    (inOrder : first ≤ second) (inTime : IsChronological (agenda.due second)) :
    agenda.inStages first second = leading (agenda.due second) := by
  have early := leading_filter_isDue inTime first
  rw [agenda.filter_isDue_due inOrder] at early
  rw [inStages, early, leading_due_dueAfter]
  exact filter_isDue_append_filter (leading_isChronological _) first

/-- The change that comes into force last is the same with and without a stage in between. -/
theorem getLast?_inStages (inOrder : first ≤ second) :
    (agenda.inStages first second).getLast? = (leading (agenda.due second)).getLast? := by
  have cut := filter_isDue_append_filter (leading_isChronological (agenda.due second)) first
  by_cases noneLate : leading ((agenda.dueAfter first).due second) = []
  · -- All that is due at the second block is due at the first.
    have sameDue : agenda.due first = agenda.due second := by
      rw [leading_eq_nil_iff, due_dueAfter, List.filter_eq_nil_iff] at noneLate
      rw [← agenda.filter_isDue_due inOrder, List.filter_eq_self]
      simpa [Change.isDue] using noneLate
    rw [inStages, noneLate, List.append_nil, sameDue]
  · rw [inStages, List.getLast?_append_of_ne_nil _ noneLate, ← cut, ← leading_due_dueAfter,
      List.getLast?_append_of_ne_nil _ noneLate]

end Agenda

namespace Roster

/-- The last change that came into force has the last word on the authorities. -/
theorem authorities_foldl_enact (roster : Roster) (changes : List Change) :
    (changes.foldl enact roster).current.authorities =
      (changes.getLast?.map Change.authorities).getD roster.current.authorities := by
  rcases List.eq_nil_or_concat' changes with rfl | ⟨earlier, change, rfl⟩
  · rfl
  · rw [foldl_enact_concat, List.getLast?_concat]
    rfl

theorem drain_of_fits
    (roster : Roster) (block : BlockNumber)
    (fits : roster.setId.toNat + (leading (roster.agenda.due block)).length < 2 ^ 64) :
    roster.drain block =
      .ok
        (leading (roster.agenda.due block),
          (leading (roster.agenda.due block)).foldl enact roster) := by
  rw [drain_eq_leading, if_pos fits]

/-- The roster of the stages is reached by what comes into force in them. -/
theorem exists_drain_inStages
    {roster : Roster} {first second : BlockNumber}
    (fits : roster.setId.toNat + (roster.agenda.inStages first second).length < 2 ^ 64) :
    ∃ early between late,
      roster.drain first = .ok (early, between) ∧
        between.drain second =
          .ok (late, (roster.agenda.inStages first second).foldl enact roster) ∧
        early ++ late = roster.agenda.inStages first second := by
  rw [Agenda.inStages, List.length_append] at fits
  have drained := roster.drain_of_fits first (by omega)
  have remaining := agenda_of_drain drained
  have nextSetId := toNat_setId_of_drain drained
  have drainedAfter :=
    drain_of_fits ((leading (roster.agenda.due first)).foldl enact roster) second
      (by rw [remaining, nextSetId]; omega)
  rw [remaining, ← List.foldl_append] at drainedAfter
  exact ⟨_, _, _, drained, drainedAfter, rfl⟩

/-- Draining at a block on the way changes neither the agenda nor the authorities that are reached.
It leaves out no change that comes into force without it, and it changes nothing at all if what is
due at the last block is due in the order of the agenda. -/
theorem drain_inStages_agrees
    (roster : Roster) (first second : BlockNumber) (inOrder : first ≤ second)
    (fits : roster.setId.toNat + (roster.agenda.inStages first second).length < 2 ^ 64) :
    ∃ early between late staged changes direct,
      roster.drain first = .ok (early, between) ∧
        between.drain second = .ok (late, staged) ∧
        roster.drain second = .ok (changes, direct) ∧
        staged.agenda = direct.agenda ∧
        staged.current.authorities = direct.current.authorities ∧
        changes.Sublist (early ++ late) ∧
        direct.setId ≤ staged.setId ∧
        (IsChronological (roster.agenda.due second) →
          early ++ late = changes ∧ staged = direct) := by
  have fewer := roster.agenda.leading_due_sublist_inStages inOrder
  have notMore := fewer.length_le
  obtain ⟨early, between, late, drainedFirst, drainedSecond, inStages⟩ :=
    exists_drain_inStages fits
  have drained := roster.drain_of_fits second (by omega)
  refine
    ⟨early, between, late, _, _, _, drainedFirst, drainedSecond, drained, ?_, ?_, ?_, ?_, ?_⟩
  · rw [agenda_of_drain drainedSecond, agenda_of_drain drainedFirst, agenda_of_drain drained,
      Agenda.dueAfter_dueAfter inOrder]
  · rw [authorities_foldl_enact, authorities_foldl_enact,
      roster.agenda.getLast?_inStages inOrder]
  · rw [inStages]
    exact fewer
  · rw [UInt64.le_iff_toNat_le, toNat_setId_foldl_enact fits, toNat_setId_of_drain drained]
    omega
  · intro inTime
    rw [inStages, roster.agenda.inStages_of_isChronological inOrder inTime]
    exact ⟨rfl, rfl⟩

/-! ## A change that is overtaken -/

namespace Overtaking

/-- The forced change is due later and goes first all the same. -/
def forced : Change := Change.forced [⟨default, 2⟩] 1 1 3 1

def scheduled : Change := Change.scheduled [⟨default, 1⟩] 1 3 0

def roster : Roster :=
  { ofSet ⟨0, []⟩ 8 with agenda := Agenda.ofList [scheduled, forced], announcements := 2 }

theorem inStages_eq : roster.agenda.inStages 4 5 = [scheduled, forced] := by decide

theorem enacted_four : roster.agenda.enacted 4 = [scheduled] := by
  rw [Agenda.enacted_eq_leading]
  decide

theorem enacted_five : roster.agenda.enacted 5 = [forced] := by
  rw [Agenda.enacted_eq_leading]
  decide

theorem enacted_dueAfter : (roster.agenda.dueAfter 4).enacted 5 = [forced] := by
  rw [Agenda.enacted_eq_leading]
  decide

end Overtaking

/-- A scheduled change that a forced one drops comes into force if its block is drained first, and
takes a number of sets that it does not get otherwise. -/
theorem drain_inStages_agrees_overtaking :
    (4 : BlockNumber) ≤ 5 ∧
      Overtaking.roster.setId.toNat + (Overtaking.roster.agenda.inStages 4 5).length < 2 ^ 64 ∧
      ∃ between staged direct,
        Overtaking.roster.drain 4 = .ok ([Overtaking.scheduled], between) ∧
          between.drain 5 = .ok ([Overtaking.forced], staged) ∧
          Overtaking.roster.drain 5 = .ok ([Overtaking.forced], direct) ∧
          staged.agenda = direct.agenda ∧
          staged.current.authorities = direct.current.authorities ∧
          direct.setId < staged.setId := by
  have inOrder : (4 : BlockNumber) ≤ 5 := by decide
  have fits :
      Overtaking.roster.setId.toNat + (Overtaking.roster.agenda.inStages 4 5).length < 2 ^ 64 := by
    rw [Overtaking.inStages_eq]
    decide
  obtain ⟨early, between, late, staged, changes, direct, drainedFirst, drainedSecond, drained,
    sameAgenda, sameAuthorities, _, _, _⟩ :=
    drain_inStages_agrees Overtaking.roster 4 5 inOrder fits
  have isEarly := (enacted_of_drain drainedFirst).1.trans Overtaking.enacted_four
  have isDirect := (enacted_of_drain drained).1.trans Overtaking.enacted_five
  have isLate := (enacted_of_drain drainedSecond).1
  rw [agenda_of_drain drainedFirst, Overtaking.enacted_dueAfter] at isLate
  rw [isEarly] at drainedFirst
  rw [isLate] at drainedSecond
  rw [isDirect] at drained
  refine
    ⟨inOrder, fits, between, staged, direct, drainedFirst, drainedSecond, drained, sameAgenda,
      sameAuthorities, ?_⟩
  rw [UInt64.lt_iff_toNat_lt, toNat_setId_of_drain drained, toNat_setId_of_drain drainedSecond,
    toNat_setId_of_drain drainedFirst]
  simp

end Roster

end FinalitySync.Grandpa
