import FinalitySync.Proofs.Grandpa.Announcement
import FinalitySync.Proofs.Grandpa.Enactment

/-!
# Where authority sets come from

Every set that is known after a block was known before it or has the authorities of a change that
was on the agenda and due.
-/

namespace FinalitySync.Grandpa.Roster

/-- The sets that justifications are checked against, oldest first. -/
def known (roster : Roster) : List AuthoritySet :=
  roster.superseded ++ [roster.current]

/-- `roster.Knows setId authoritySet` means that the set votes now or is kept as a superseded one, and
that it has this number. -/
structure Knows (roster : Roster) (setId : SetId) (authoritySet : AuthoritySet) : Prop where
  isKnown : authoritySet ∈ roster.known
  sameId : authoritySet.setId = setId
  /-- Of several sets with this number it is the current one or else the oldest. -/
  isFirst :
    ∃ before after,
      roster.current :: roster.superseded = before ++ authoritySet :: after ∧
        ∀ other ∈ before, other.setId ≠ setId

section Lookup

variable {roster : Roster} {setId : SetId} {authoritySet : AuthoritySet}

theorem mem_known_iff :
    authoritySet ∈ roster.known ↔ authoritySet ∈ roster.current :: roster.superseded := by
  rw [known, List.mem_append, List.mem_singleton, List.mem_cons, or_comm]

theorem setFor?_eq_find? (roster : Roster) (setId : SetId) :
    roster.setFor? setId =
      (roster.current :: roster.superseded).find? fun authoritySet =>
        authoritySet.setId == setId := by
  rw [setFor?]
  by_cases isCurrent : roster.current.setId = setId
  · have found : (roster.current.setId == setId) = true := beq_iff_eq.mpr isCurrent
    rw [if_pos isCurrent, List.find?_cons, found]
  · have passedOver : (roster.current.setId == setId) = false := beq_eq_false_iff_ne.mpr isCurrent
    rw [if_neg isCurrent, List.find?_cons, passedOver]

theorem setFor?_eq_some_iff_knows :
    roster.setFor? setId = some authoritySet ↔ roster.Knows setId authoritySet := by
  rw [setFor?_eq_find?, List.find?_eq_some_iff_append, beq_iff_eq]
  constructor
  · rintro ⟨sameId, before, after, split, otherIds⟩
    have isKnown : authoritySet ∈ roster.known := by
      rw [mem_known_iff, split]
      exact List.mem_append_right _ List.mem_cons_self
    refine ⟨isKnown, sameId, before, after, split, ?_⟩
    intro other member
    simpa using otherIds other member
  · rintro ⟨_, sameId, before, after, split, otherIds⟩
    refine ⟨sameId, before, after, split, ?_⟩
    intro other member
    simpa using otherIds other member

theorem Knows.unique
    {other : AuthoritySet}
    (knows : roster.Knows setId authoritySet) (knowsOther : roster.Knows setId other) :
    authoritySet = other := by
  have found := setFor?_eq_some_iff_knows.mpr knows
  rw [setFor?_eq_some_iff_knows.mpr knowsOther] at found
  exact (Option.some.inj found).symm

theorem setFor?_eq_none_iff :
    roster.setFor? setId = none ↔ ∀ authoritySet ∈ roster.known, authoritySet.setId ≠ setId := by
  simp only [setFor?_eq_find?, List.find?_eq_none, mem_known_iff, beq_iff_eq]

theorem mem_known_of_setFor? (found : roster.setFor? setId = some authoritySet) :
    authoritySet ∈ roster.known ∧ authoritySet.setId = setId := by
  have knows := setFor?_eq_some_iff_knows.mp found
  exact ⟨knows.isKnown, knows.sameId⟩

/-- If the known sets have numbers of their own, there is only one to find. -/
theorem knows_iff_mem_known
    (distinct : ∀ authoritySet ∈ roster.known, ∀ other ∈ roster.known,
      authoritySet.setId = other.setId → authoritySet = other) :
    roster.Knows setId authoritySet ↔
      authoritySet ∈ roster.known ∧ authoritySet.setId = setId := by
  constructor
  · intro knows
    exact ⟨knows.isKnown, knows.sameId⟩
  · rintro ⟨member, sameId⟩
    cases found : roster.setFor? setId with
    | none => exact absurd sameId (setFor?_eq_none_iff.mp found authoritySet member)
    | some other =>
        have knows := setFor?_eq_some_iff_knows.mp found
        rw [distinct authoritySet member other knows.isKnown (sameId.trans knows.sameId.symm)]
        exact knows

end Lookup

theorem mem_known_enact
    {roster : Roster} {change : Change} {authoritySet : AuthoritySet}
    (member : authoritySet ∈ (roster.enact change).known) :
    authoritySet ∈ roster.known ∨
      authoritySet = ⟨roster.setId + 1, change.authorities⟩ := by
  rcases List.mem_append.mp member with superseded | isCurrent
  · exact Or.inl (List.mem_of_mem_drop superseded)
  · exact Or.inr (List.mem_singleton.mp isCurrent)

/-- No known set has a number above the current one. -/
def IsBounded (roster : Roster) : Prop :=
  ∀ authoritySet ∈ roster.known, authoritySet.setId ≤ roster.setId

theorem setId_lt_setId_enact
    {roster : Roster} (fits : roster.setId.toNat + 1 < 2 ^ 64) (change : Change) :
    roster.setId < (roster.enact change).setId := by
  rw [UInt64.lt_iff_toNat_lt, toNat_setId_enact fits]
  exact Nat.lt_succ_self _

theorem IsBounded.enact
    {roster : Roster} (bounded : roster.IsBounded)
    (fits : roster.setId.toNat + 1 < 2 ^ 64) (change : Change) :
    (roster.enact change).IsBounded := by
  intro authoritySet member
  have raised := setId_lt_setId_enact fits change
  rcases mem_known_enact member with earlier | rfl
  · exact UInt64.le_trans (bounded authoritySet earlier) (UInt64.le_of_lt raised)
  · exact UInt64.le_refl _

/-- `Succeeds block earlier later` says how a roster goes back to the one before a block: nothing
was added to the agenda, and each known set was known before or is new, with the authorities of a
change that was on the agenda and due at the block. -/
structure Succeeds (block : BlockNumber) (earlier later : Roster) : Prop where
  setId_le : earlier.setId ≤ later.setId
  isBounded : later.IsBounded
  mem_agenda : ∀ change ∈ later.agenda.toList, change ∈ earlier.agenda.toList
  mem_known :
    ∀ authoritySet ∈ later.known,
      authoritySet ∈ earlier.known ∨
        earlier.setId < authoritySet.setId ∧
          ∃ change ∈ earlier.agenda.toList,
            change.applicationBlock ≤ block ∧ authoritySet.authorities = change.authorities

theorem Succeeds.refl
    {roster : Roster} (bounded : roster.IsBounded) (block : BlockNumber) :
    Succeeds block roster roster where
  setId_le := UInt64.le_refl _
  isBounded := bounded
  mem_agenda := fun _ member => member
  mem_known := fun _ member => Or.inl member

theorem Succeeds.enact
    {block : BlockNumber} {earlier later : Roster} {change : Change}
    (succeeds : Succeeds block earlier later)
    (found : later.agenda.firstDue? block = some change)
    (fits : later.setId.toNat + 1 < 2 ^ 64) :
    Succeeds block earlier (later.enact change) where
  setId_le :=
    UInt64.le_trans succeeds.setId_le (UInt64.le_of_lt (setId_lt_setId_enact fits change))
  isBounded := succeeds.isBounded.enact fits change
  mem_agenda := by
    intro other member
    exact succeeds.mem_agenda other (List.mem_filter.mp member).1
  mem_known := by
    intro authoritySet member
    rcases mem_known_enact member with knownBefore | isNew
    · exact succeeds.mem_known authoritySet knownBefore
    · have raised : earlier.setId < (later.enact change).setId :=
        UInt64.lt_of_le_of_lt succeeds.setId_le (setId_lt_setId_enact fits change)
      have onAgenda := succeeds.mem_agenda change (Agenda.mem_of_firstDue? found)
      have due := Agenda.isDue_of_firstDue? found
      rw [isNew]
      exact Or.inr ⟨raised, change, onAgenda, due, rfl⟩

theorem succeeds_of_drain
    {block : BlockNumber} {roster last : Roster} {changes : List Change}
    (bounded : roster.IsBounded)
    (drained : roster.drain block = .ok (changes, last)) :
    Succeeds block roster last :=
  drain_induction (fun _ _ succeeds found fits => succeeds.enact found fits) drained
    (Succeeds.refl bounded block)

end FinalitySync.Grandpa.Roster
