import FinalitySync.Grandpa.Agenda
import Mathlib.Data.List.Perm.Basic
import Mathlib.Tactic.Tauto

/-!
# The order of changes

Two changes are compared by their kinds, places among announcements, application blocks, delays and
members, each of these only if the ones before it are the same.  This is a total order in which only
equal changes tie.  So changes that are put on an agenda are there once each, first the forced ones
and then the scheduled ones, each kind by the places of its announcements.
-/

namespace FinalitySync.Grandpa

theorem compareLex_eq_lt_iff {α : Type} {earlier later : α → α → Ordering} {first second : α} :
    compareLex earlier later first second = .lt ↔
      earlier first second = .lt ∨ earlier first second = .eq ∧ later first second = .lt :=
  Ordering.then_eq_lt

/-- Lists are compared by their first elements that differ; what is only the beginning of another
list comes before it. -/
theorem compare_list_eq_lt_iff
    {α : Type} [Ord α] [Std.LawfulEqOrd α] {precedes : α → α → Prop}
    (decides : ∀ first second : α, compare first second = .lt ↔ precedes first second)
    (left right : List α) :
    compare left right = .lt ↔ List.Lex precedes left right := by
  induction left generalizing right with
  | nil => cases right <;> simp
  | cons first left inductionHypothesis =>
      cases right with
      | nil => simp
      | cons second right =>
          rw [List.compare_cons_cons, Ordering.then_eq_lt, decides, Std.compare_eq_iff_eq,
            inductionHypothesis, List.cons_lex_cons_iff]

namespace ChangeKind

variable {first second : ChangeKind}

theorem compare_rank_eq_lt_iff :
    compare first.rank second.rank = .lt ↔ first = .forced ∧ second = .scheduled := by
  cases first <;> cases second <;> decide

theorem compare_rank_eq_eq_iff : compare first.rank second.rank = .eq ↔ first = second := by
  cases first <;> cases second <;> decide

end ChangeKind

namespace Change

variable {first second : Change}

/-- Members are compared by the bytes of their keys, and by their weights if the keys are equal. -/
def MemberPrecedes : Bytes × UInt64 → Bytes × UInt64 → Prop := Prod.Lex (· < ·) (· < ·)

/-- What decides between changes of one kind and one place. -/
def BreaksTie (first second : Change) : Prop :=
  first.applicationBlock < second.applicationBlock ∨
    first.applicationBlock = second.applicationBlock ∧
      (first.delay < second.delay ∨
        first.delay = second.delay ∧ List.Lex MemberPrecedes first.members second.members)

/-- Forced changes come before scheduled ones, earlier announcements before later ones of the same
kind, and the other fields decide what is left. -/
def Precedes (first second : Change) : Prop :=
  first.kind = .forced ∧ second.kind = .scheduled ∨
    first.kind = second.kind ∧
      (first.sequence < second.sequence ∨
        first.sequence = second.sequence ∧ first.BreaksTie second)

section Members

local instance memberOrd : Ord (Bytes × UInt64) := lexOrd

theorem compare_member_eq_lt_iff (first second : Bytes × UInt64) :
    compare first second = .lt ↔ MemberPrecedes first second := by
  have byKey : compare first.1 second.1 = .lt ↔ first.1 < second.1 :=
    compare_list_eq_lt_iff (fun _ _ => Std.compare_eq_lt) first.1 second.1
  have byWeight : compare first.2 second.2 = .lt ↔ first.2 < second.2 := Std.compare_eq_lt
  have sameKey : compare first.1 second.1 = .eq ↔ first.1 = second.1 := Std.compare_eq_iff_eq
  rw [MemberPrecedes, Prod.lex_def, ← byKey, ← byWeight, ← sameKey]
  exact compareLex_eq_lt_iff

theorem compareOn_members_eq_lt_iff :
    compareOn members first second = .lt ↔
      List.Lex MemberPrecedes first.members second.members :=
  compare_list_eq_lt_iff compare_member_eq_lt_iff first.members second.members

end Members

theorem precedence_eq_lt_iff :
    first.precedence second = .lt ↔
      first.kind = .forced ∧ second.kind = .scheduled ∨
        first.kind = second.kind ∧ first.sequence < second.sequence := by
  rw [precedence, compareLex_eq_lt_iff, compareOn, compareOn, ChangeKind.compare_rank_eq_lt_iff,
    ChangeKind.compare_rank_eq_eq_iff, Std.compare_eq_lt]

theorem precedence_eq_eq_iff :
    first.precedence second = .eq ↔
      first.kind = second.kind ∧ first.sequence = second.sequence := by
  rw [precedence, compareLex_eq_eq, compareOn, compareOn, ChangeKind.compare_rank_eq_eq_iff,
    Std.compare_eq_iff_eq]

theorem order_eq_lt_iff : first.order second = .lt ↔ first.Precedes second := by
  rw [order, compareLex_eq_lt_iff, compareLex_eq_lt_iff, compareLex_eq_lt_iff,
    precedence_eq_lt_iff, precedence_eq_eq_iff, compareOn_members_eq_lt_iff, compareOn, compareOn,
    Std.compare_eq_lt, Std.compare_eq_lt, Std.compare_eq_iff_eq, Std.compare_eq_iff_eq, Precedes,
    BreaksTie]
  tauto

theorem order_eq_precedence (decided : first.precedence second ≠ .eq) :
    first.order second = first.precedence second := by
  rw [order, compareLex]
  cases byPrecedence : first.precedence second with
  | lt => rfl
  | eq => exact absurd byPrecedence decided
  | gt => rfl

theorem order_eq_lt_of_kind
    (isForced : first.kind = .forced) (isScheduled : second.kind = .scheduled) :
    first.order second = .lt :=
  order_eq_lt_iff.mpr (Or.inl ⟨isForced, isScheduled⟩)

/-- What makes a comparison a total order in which only equal changes tie. -/
structure IsTotalOrder (compares : Change → Change → Ordering) : Prop where
  refl : ∀ change, compares change change = .eq
  swap : ∀ first second, compares second first = (compares first second).swap
  antisymm :
    ∀ first second,
      (compares first second).isLE → (compares second first).isLE → first = second
  trans :
    ∀ first second third,
      (compares first second).isLE → (compares second third).isLE → (compares first third).isLE
  total : ∀ first second, (compares first second).isLE ∨ (compares second first).isLE
  eq_iff :
    ∀ first second,
      compares first second = .eq ↔
        first.kind = second.kind ∧ first.authorities = second.authorities ∧
          first.delay = second.delay ∧ first.applicationBlock = second.applicationBlock ∧
            first.sequence = second.sequence

theorem isLE_order_or_isLE_order (first second : Change) :
    (first.order second).isLE ∨ (second.order first).isLE := by
  have swapped : second.order first = (first.order second).swap := Std.OrientedCmp.eq_swap
  rw [swapped]
  cases first.order second <;> simp

theorem order_eq_eq_iff :
    first.order second = .eq ↔
      first.kind = second.kind ∧ first.authorities = second.authorities ∧
        first.delay = second.delay ∧ first.applicationBlock = second.applicationBlock ∧
          first.sequence = second.sequence := by
  rw [Std.LawfulEqCmp.compare_eq_iff_eq]
  cases first
  cases second
  rw [mk.injEq]

theorem order_isTotalOrder : IsTotalOrder order where
  refl := fun _ => Std.ReflCmp.compare_self
  swap := fun _ _ => Std.OrientedCmp.eq_swap
  antisymm := fun _ _ notAfter notBefore =>
    Std.LawfulEqCmp.eq_of_compare (Std.OrientedCmp.isLE_antisymm notAfter notBefore)
  trans := fun _ _ _ => Std.TransCmp.isLE_trans
  total := isLE_order_or_isLE_order
  eq_iff := fun _ _ => order_eq_eq_iff

abbrev IsAscending (changes : List Change) : Prop :=
  changes.Pairwise fun earlier later => earlier.order later = .lt

theorem IsAscending.nodup {changes : List Change} (ascending : IsAscending changes) :
    changes.Nodup := by
  refine List.Pairwise.imp ?_ ascending
  intro earlier later isBefore same
  have isTie : later.order later = .eq := Std.ReflCmp.compare_self
  rw [same, isTie] at isBefore
  cases isBefore

/-- There is only one way to put changes in ascending order. -/
theorem IsAscending.eq_of_mem_iff
    {changes others : List Change} (ascending : IsAscending changes)
    (ascendingToo : IsAscending others)
    (sameMembers : ∀ change, change ∈ changes ↔ change ∈ others) : changes = others := by
  have rearranged : changes.Perm others :=
    (List.perm_ext_iff_of_nodup ascending.nodup ascendingToo.nodup).mpr sameMembers
  apply rearranged.eq_of_pairwise _ ascending ascendingToo
  intro first second _ _ isBefore isAfter
  have isLater : first.order second = .gt := Std.OrientedCmp.gt_iff_lt.mpr isAfter
  rw [isBefore] at isLater
  cases isLater

end Change

/-! ## Agendas -/

namespace Agenda

theorem nodup_toList (agenda : Agenda) : agenda.toList.Nodup :=
  Change.IsAscending.nodup agenda.sorted

/-- `agenda.Collects changes` means that the agenda has each of the changes once, in the right
order, and is the only one that has these changes. -/
structure Collects (agenda : Agenda) (changes : List Change) : Prop where
  mem_iff : ∀ change, change ∈ agenda.toList ↔ change ∈ changes
  nodup : agenda.toList.Nodup
  forcedFirst :
    agenda.toList.Pairwise fun earlier later => later.kind = .forced → earlier.kind = .forced
  bySequence :
    agenda.toList.Pairwise fun earlier later =>
      earlier.kind = later.kind → earlier.sequence ≤ later.sequence
  isOnly :
    ∀ other : Agenda, (∀ change, change ∈ other.toList ↔ change ∈ changes) → other = agenda

theorem collects_of_mem_iff
    {agenda : Agenda} {changes : List Change}
    (sameMembers : ∀ change, change ∈ agenda.toList ↔ change ∈ changes) :
    agenda.Collects changes where
  mem_iff := sameMembers
  nodup := agenda.nodup_toList
  forcedFirst := by
    refine agenda.sorted.imp ?_
    intro earlier later isBefore laterForced
    rcases Change.order_eq_lt_iff.mp isBefore with ⟨earlierForced, _⟩ | ⟨sameKind, _⟩
    · exact earlierForced
    · exact sameKind.trans laterForced
  bySequence := by
    refine agenda.sorted.imp ?_
    intro earlier later isBefore sameKind
    rcases Change.order_eq_lt_iff.mp isBefore with ⟨earlierForced, laterScheduled⟩ | ⟨_, decided⟩
    · rw [earlierForced, laterScheduled] at sameKind
      cases sameKind
    · rcases decided with inOrder | ⟨samePlace, _⟩
      · exact Nat.le_of_lt inOrder
      · exact Nat.le_of_eq samePlace
  isOnly := by
    intro other sameToo
    apply Agenda.ext
    apply Change.IsAscending.eq_of_mem_iff other.sorted agenda.sorted
    intro change
    rw [sameMembers, sameToo]

theorem insert_collects (agenda : Agenda) (change : Change) :
    (agenda.insert change).Collects (change :: agenda.toList) := by
  apply collects_of_mem_iff
  intro member
  rw [List.mem_cons]
  exact mem_insertSorted change member agenda.toList

theorem mem_foldl_insert {agenda : Agenda} {changes : List Change} {change : Change} :
    change ∈ (changes.foldl insert agenda).toList ↔
      change ∈ agenda.toList ∨ change ∈ changes := by
  induction changes generalizing agenda with
  | nil => simp
  | cons first later inductionHypothesis =>
      rw [List.foldl_cons, inductionHypothesis, (agenda.insert_collects first).mem_iff,
        List.mem_cons, List.mem_cons]
      tauto

theorem ofList_collects (changes : List Change) : (ofList changes).Collects changes := by
  apply collects_of_mem_iff
  intro change
  rw [ofList, mem_foldl_insert]
  simp [empty]

/-- A search tree that finds its way by the order alone has the same changes in the same order. -/
theorem toList_ofList_eq_toList_treeSet (changes : List Change) :
    (ofList changes).toList = (Std.TreeSet.ofList changes Change.order).toList := by
  apply Change.IsAscending.eq_of_mem_iff (ofList changes).sorted Std.TreeSet.ordered_toList
  intro change
  rw [(ofList_collects changes).mem_iff, Std.TreeSet.mem_toList, Std.TreeSet.mem_ofList,
    List.contains_iff_mem]

end Agenda

/-- The comparison of changes is a total order that ties only equal changes and that follows the
precedence wherever that decides.  Sorted by it, changes are kept once each, the forced ones first
and each kind by the places of its announcements, in whichever order they are added. -/
theorem Change.order_isTotal_and_agendas_keepEachOnce :
    IsTotalOrder order ∧
      (∀ first second : Change, first.order second = .lt ↔ first.Precedes second) ∧
      (∀ first second : Change,
        first.precedence second ≠ .eq → first.order second = first.precedence second) ∧
      (∀ first second : Change,
        first.kind = .forced → second.kind = .scheduled → first.order second = .lt) ∧
      (∀ (agenda : Agenda) (change : Change),
        (agenda.insert change).Collects (change :: agenda.toList)) ∧
      ∀ changes : List Change,
        (Agenda.ofList changes).Collects changes ∧
          (Agenda.ofList changes).toList = (Std.TreeSet.ofList changes order).toList := by
  refine ⟨order_isTotalOrder, ?_, ?_, ?_, Agenda.insert_collects, ?_⟩
  · intro first second
    exact order_eq_lt_iff
  · intro first second decided
    exact order_eq_precedence decided
  · intro first second isForced isScheduled
    exact order_eq_lt_of_kind isForced isScheduled
  · intro changes
    exact ⟨Agenda.ofList_collects changes, Agenda.toList_ofList_eq_toList_treeSet changes⟩

/-- Scheduled changes of one place that differ in a weight are both kept, behind a forced one. -/
example :
    (Agenda.ofList
        [.scheduled [⟨default, 2⟩] 1 10 0, .scheduled [⟨default, 1⟩] 1 10 0,
          .forced [⟨default, 1⟩] 1 0 20 5, .scheduled [⟨default, 2⟩] 1 10 0]).toList =
      [.forced [⟨default, 1⟩] 1 0 20 5, .scheduled [⟨default, 1⟩] 1 10 0,
        .scheduled [⟨default, 2⟩] 1 10 0] := by
  decide

end FinalitySync.Grandpa
