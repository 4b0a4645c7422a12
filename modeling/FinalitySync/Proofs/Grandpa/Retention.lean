import FinalitySync.Proofs.Grandpa.Persistence
import FinalitySync.Proofs.Grandpa.Succession
import Mathlib.Data.List.Nodup
import Mathlib.Data.List.Range

/-!
# The sets that are kept

The numbers of the known sets are consecutive: they go back from the current one as far as the
retention does, though not past the first set.
-/

namespace FinalitySync.Grandpa.Roster

variable {roster : Roster} {authoritySet : AuthoritySet}

/-- The numbers of the known sets rise up to the current one. -/
def IsAscending (roster : Roster) : Prop :=
  roster.known.Pairwise fun older newer => older.setId < newer.setId

theorem isAscending_iff :
    roster.IsAscending ↔
      roster.superseded.Pairwise (fun older newer => older.setId < newer.setId) ∧
        ∀ authoritySet ∈ roster.superseded, authoritySet.setId < roster.setId := by
  rw [IsAscending, known, List.pairwise_append]
  simp [setId]

theorem IsAscending.congr
    {later : Roster} (ascending : roster.IsAscending)
    (sameCurrent : later.current = roster.current)
    (sameSuperseded : later.superseded = roster.superseded) :
    later.IsAscending := by
  rw [IsAscending, known, sameCurrent, sameSuperseded]
  exact ascending

theorem IsAscending.eq_of_setId_eq
    (ascending : roster.IsAscending) {other : AuthoritySet}
    (member : authoritySet ∈ roster.known) (otherMember : other ∈ roster.known)
    (sameId : authoritySet.setId = other.setId) :
    authoritySet = other := by
  have distinct : (roster.known.map AuthoritySet.setId).Nodup :=
    List.pairwise_map.mpr (ascending.imp UInt64.ne_of_lt)
  exact List.inj_on_of_nodup_map distinct member otherMember sameId

theorem IsAscending.enact
    (ascending : roster.IsAscending) (fits : roster.setId.toNat + 1 < 2 ^ 64) (change : Change) :
    (roster.enact change).IsAscending := by
  have raised := setId_lt_setId_enact fits change
  have superseded : (roster.enact change).superseded = retained roster.retention roster.known := rfl
  rw [isAscending_iff, superseded]
  refine ⟨ascending.drop, ?_⟩
  intro authoritySet member
  rcases List.mem_append.mp (List.mem_of_mem_drop member) with older | isCurrent
  · exact UInt64.lt_trans ((isAscending_iff.mp ascending).2 authoritySet older) raised
  · rw [List.mem_singleton.mp isCurrent]
    exact raised

theorem IsAscending.drain
    {last : Roster} {block : BlockNumber} {changes : List Change}
    (ascending : roster.IsAscending) (drained : roster.drain block = .ok (changes, last)) :
    last.IsAscending :=
  drain_induction (fun _ change ascending _ fits => ascending.enact fits change) drained ascending

theorem IsAscending.ofSet (authoritySet : AuthoritySet) (retention : Nat) :
    (ofSet authoritySet retention).IsAscending :=
  List.pairwise_singleton _ _

/-- The number of the oldest set that is kept. -/
def oldest (first : SetId) (roster : Roster) : Nat :=
  max first.toNat (roster.setId.toNat - roster.retention)

structure HasPast (first : SetId) (roster : Roster) : Prop where
  first_le : first.toNat ≤ roster.setId.toNat
  numbers :
    roster.known.map (fun authoritySet => authoritySet.setId.toNat) =
      List.range' (roster.oldest first) (roster.setId.toNat + 1 - roster.oldest first)

theorem HasPast.ofSet (authoritySet : AuthoritySet) (retention : Nat) :
    HasPast authoritySet.setId (Roster.ofSet authoritySet retention) := by
  have isFirst :
      (Roster.ofSet authoritySet retention).oldest authoritySet.setId =
        authoritySet.setId.toNat :=
    Nat.max_eq_left (Nat.sub_le _ _)
  refine ⟨Nat.le_refl _, ?_⟩
  have alone : authoritySet.setId.toNat + 1 - authoritySet.setId.toNat = 1 := by omega
  rw [isFirst, setId, Roster.ofSet, alone]
  rfl

theorem HasPast.congr
    {first : SetId} {later : Roster} (past : roster.HasPast first)
    (sameCurrent : later.current = roster.current)
    (sameSuperseded : later.superseded = roster.superseded)
    (sameRetention : later.retention = roster.retention) :
    later.HasPast first := by
  have sameSetId : later.setId = roster.setId := congrArg AuthoritySet.setId sameCurrent
  refine ⟨?_, ?_⟩
  · rw [sameSetId]
    exact past.first_le
  · rw [known, oldest, sameCurrent, sameSuperseded, sameSetId, sameRetention]
    exact past.numbers

variable {first : SetId} (past : roster.HasPast first)

include past

theorem HasPast.bounds (member : authoritySet ∈ roster.known) :
    roster.oldest first ≤ authoritySet.setId.toNat ∧
      authoritySet.setId.toNat ≤ roster.setId.toNat := by
  have inWindow := List.mem_map_of_mem (f := fun set : AuthoritySet => set.setId.toNat) member
  rw [past.numbers, List.mem_range'_1] at inWindow
  omega

theorem HasPast.exists_mem_known
    {setId : SetId} (notTooOld : roster.oldest first ≤ setId.toNat)
    (notTooNew : setId.toNat ≤ roster.setId.toNat) :
    ∃ authoritySet ∈ roster.known, authoritySet.setId = setId := by
  have inWindow :
      setId.toNat ∈
        List.range' (roster.oldest first) (roster.setId.toNat + 1 - roster.oldest first) := by
    rw [List.mem_range'_1]
    omega
  rw [← past.numbers] at inWindow
  obtain ⟨authoritySet, member, sameNumber⟩ := List.mem_map.mp inWindow
  exact ⟨authoritySet, member, UInt64.toNat_inj.mp sameNumber⟩

theorem HasPast.isAscending : roster.IsAscending := by
  have inOrder := List.pairwise_lt_range' (s := roster.oldest first)
    (n := roster.setId.toNat + 1 - roster.oldest first) 1
  rw [← past.numbers, List.pairwise_map] at inOrder
  exact inOrder.imp UInt64.lt_iff_toNat_lt.mpr

theorem HasPast.eq_of_setId_eq
    {other : AuthoritySet} (member : authoritySet ∈ roster.known)
    (otherMember : other ∈ roster.known)
    (sameId : authoritySet.setId = other.setId) :
    authoritySet = other :=
  past.isAscending.eq_of_setId_eq member otherMember sameId

theorem HasPast.isBounded : roster.IsBounded := by
  intro authoritySet member
  exact UInt64.le_iff_toNat_le.mpr (past.bounds member).2

theorem HasPast.length_known :
    roster.known.length = roster.setId.toNat + 1 - roster.oldest first := by
  have lengths := congrArg List.length past.numbers
  rwa [List.length_map, List.length_range'] at lengths

/-- The step: a new set comes in front and pushes out the oldest one if there are too many. -/
theorem HasPast.enact
    (fits : roster.setId.toNat + 1 < 2 ^ 64) (change : Change) :
    (roster.enact change).HasPast first := by
  have firstLe := past.first_le
  have nextNumber := toNat_setId_enact fits change
  have count := past.length_known
  let dropped := roster.known.length - roster.retention
  have nextOldest : (roster.enact change).oldest first = roster.oldest first + dropped := by
    have sameRetention : (roster.enact change).retention = roster.retention := rfl
    simp only [dropped]
    rw [count, oldest, oldest, nextNumber, sameRetention]
    omega
  have oldestLe : roster.oldest first ≤ roster.setId.toNat := by
    rw [oldest]
    omega
  refine ⟨by omega, ?_⟩
  have known_enact :
      (roster.enact change).known =
        roster.known.drop dropped ++ [(roster.enact change).current] := rfl
  have newNumber : (roster.enact change).current.setId.toNat = roster.setId.toNat + 1 := nextNumber
  have kept : dropped ≤ roster.known.length := Nat.sub_le _ _
  have nextCount :
      roster.setId.toNat + 1 + 1 - (roster.oldest first + dropped) =
        roster.setId.toNat + 1 - roster.oldest first - dropped + 1 := by
    omega
  have last :
      roster.oldest first + dropped + (roster.setId.toNat + 1 - roster.oldest first - dropped) =
        roster.setId.toNat + 1 := by
    omega
  rw [known_enact, List.map_append, List.map_drop, past.numbers, List.drop_range', Nat.mul_one,
    List.map_singleton, newNumber, nextNumber, nextOldest, nextCount, List.range'_1_concat, last]

omit past

/-- The run: a block's changes slide the window. -/
theorem HasPast.drain
    {last : Roster} {block : BlockNumber} {changes : List Change}
    (past : roster.HasPast first) (drained : roster.drain block = .ok (changes, last)) :
    last.HasPast first :=
  drain_induction (fun _ change past _ fits => past.enact fits change) drained past

theorem retention_of_drain
    {last : Roster} {block : BlockNumber} {changes : List Change}
    (drained : roster.drain block = .ok (changes, last)) :
    last.retention = roster.retention :=
  drain_induction (motive := fun current => current.retention = roster.retention)
    (fun _ _ sameRetention _ _ => sameRetention) drained rfl

theorem toNat_setId_foldl_enact
    {changes : List Change} (fits : roster.setId.toNat + changes.length < 2 ^ 64) :
    (changes.foldl enact roster).setId.toNat = roster.setId.toNat + changes.length := by
  induction changes generalizing roster with
  | nil => rfl
  | cons change changes inductionHypothesis =>
      rw [List.length_cons] at fits
      have fitsOne : roster.setId.toNat + 1 < 2 ^ 64 := by omega
      have raised := toNat_setId_enact fitsOne change
      have fitsLater : (roster.enact change).setId.toNat + changes.length < 2 ^ 64 := by omega
      rw [List.foldl_cons, inductionHypothesis fitsLater, raised, List.length_cons]
      omega

/-- Each change that comes into force takes the next set number. -/
theorem toNat_setId_of_drain
    {last : Roster} {block : BlockNumber} {changes : List Change}
    (drained : roster.drain block = .ok (changes, last)) :
    last.setId.toNat = roster.setId.toNat + changes.length :=
  (drain_eq_ok_iff.mp drained).toNat_setId

@[simp]
theorem retention_receiveAll (roster : Roster) (block : BlockNumber) (messages : List Message) :
    (roster.receiveAll block messages).retention = roster.retention := by
  induction messages generalizing roster with
  | nil => rfl
  | cons message messages inductionHypothesis =>
      have sameRetention : (roster.receive block message).retention = roster.retention := by
        cases message <;> rfl
      exact (inductionHypothesis (roster.receive block message)).trans sameRetention

theorem mem_loadSuperseded {store : Store} {setId : SetId} {retention : Nat} :
    authoritySet ∈ loadSuperseded store setId retention ↔
      setId.toNat - retention ≤ authoritySet.setId.toNat ∧
        authoritySet.setId.toNat < setId.toNat ∧
          store.get? (.authorities authoritySet.setId) = some authoritySet.authorities := by
  have fits := setId.toNat_lt
  simp only [loadSuperseded, List.mem_filterMap, List.mem_range'_1, Option.map_eq_some_iff]
  constructor
  · rintro ⟨number, inWindow, authorities, saved, rfl⟩
    have bounded : number < 2 ^ 64 := by omega
    have sameNumber : (UInt64.ofNat number).toNat = number :=
      UInt64.toNat_ofNat_of_lt' bounded
    dsimp only
    rw [sameNumber]
    exact ⟨by omega, by omega, saved⟩
  · rintro ⟨notTooOld, older, saved⟩
    have sameId : UInt64.ofNat authoritySet.setId.toNat = authoritySet.setId :=
      UInt64.ofNat_toNat
    refine ⟨authoritySet.setId.toNat, by omega, authoritySet.authorities, ?_, ?_⟩
    · rw [sameId]
      exact saved
    · rw [sameId]

/-- A set is found by its number if the known sets have numbers of their own. -/
theorem setFor?_eq_some_iff
    (distinct : ∀ authoritySet ∈ roster.known, ∀ other ∈ roster.known,
      authoritySet.setId = other.setId → authoritySet = other)
    {setId : SetId} :
    roster.setFor? setId = some authoritySet ↔
      authoritySet ∈ roster.known ∧ authoritySet.setId = setId :=
  setFor?_eq_some_iff_knows.trans (knows_iff_mem_known distinct)

theorem pairwise_loadSuperseded (store : Store) (setId : SetId) (retention : Nat) :
    (loadSuperseded store setId retention).Pairwise fun older newer =>
      older.setId < newer.setId := by
  have fits := setId.toNat_lt
  rw [loadSuperseded, List.pairwise_filterMap]
  have inOrder := List.pairwise_lt_range' (s := setId.toNat - retention)
    (n := setId.toNat - (setId.toNat - retention)) 1
  apply inOrder.imp_of_mem
  intro lower higher _ inWindow raised older isOlder newer isNewer
  obtain ⟨_, _, rfl⟩ := Option.map_eq_some_iff.mp isOlder
  obtain ⟨_, _, rfl⟩ := Option.map_eq_some_iff.mp isNewer
  rw [List.mem_range'_1] at inWindow
  have higherBounded : higher < 2 ^ 64 := by omega
  have lowerBounded : lower < 2 ^ 64 := by omega
  have lowerFits : (UInt64.ofNat lower).toNat = lower :=
    UInt64.toNat_ofNat_of_lt' lowerBounded
  have higherFits : (UInt64.ofNat higher).toNat = higher :=
    UInt64.toNat_ofNat_of_lt' higherBounded
  rw [UInt64.lt_iff_toNat_lt, lowerFits, higherFits]
  exact raised

theorem isAscending_of_load?
    {store : Store} {retention : Nat} (loaded : load? store retention = some roster) :
    roster.IsAscending := by
  simp only [load?, Option.bind_eq_bind, Option.bind_eq_some_iff] at loaded
  obtain ⟨setId, _, authorities, _, same⟩ := loaded
  cases same
  refine isAscending_iff.mpr ⟨pairwise_loadSuperseded store setId retention, ?_⟩
  intro authoritySet member
  exact UInt64.lt_iff_toNat_lt.mpr (mem_loadSuperseded.mp member).2.1

end FinalitySync.Grandpa.Roster
