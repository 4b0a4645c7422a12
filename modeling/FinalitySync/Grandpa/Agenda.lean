import FinalitySync.Grandpa.Change

/-!
The agenda: announced changes that have not come into force, each once and in the order of
precedence.
-/

namespace FinalitySync.Grandpa

@[ext]
structure Agenda where
  toList : List Change
  sorted : toList.Pairwise fun earlier later => earlier.order later = .lt
deriving DecidableEq

namespace Agenda

def empty : Agenda := ⟨[], .nil⟩

instance : Inhabited Agenda := ⟨empty⟩

/-- Puts a change in front of the first one that it precedes, unless it is there already. -/
def insertSorted (change : Change) : List Change → List Change
  | [] => [change]
  | first :: rest =>
      match change.order first with
      | .lt => change :: first :: rest
      | .eq => first :: rest
      | .gt => first :: insertSorted change rest

theorem mem_insertSorted (change member : Change) (changes : List Change) :
    member ∈ insertSorted change changes ↔ member = change ∨ member ∈ changes := by
  induction changes with
  | nil => simp [insertSorted]
  | cons first rest inductionHypothesis =>
      unfold insertSorted
      split
      · simp
      · rename_i equal
        have same : change = first := Std.LawfulEqCmp.eq_of_compare equal
        simp [same]
      · simp only [List.mem_cons, inductionHypothesis]
        exact or_left_comm

theorem pairwise_insertSorted (change : Change) {changes : List Change}
    (sorted : changes.Pairwise fun earlier later => earlier.order later = .lt) :
    (insertSorted change changes).Pairwise fun earlier later => earlier.order later = .lt := by
  induction changes with
  | nil => simp [insertSorted]
  | cons first rest inductionHypothesis =>
      rw [List.pairwise_cons] at sorted
      unfold insertSorted
      split
      · rename_i changeFirst
        refine List.pairwise_cons.mpr ⟨fun member inChanges => ?_, List.pairwise_cons.mpr sorted⟩
        rcases List.mem_cons.mp inChanges with rfl | inRest
        · exact changeFirst
        · exact Std.TransCmp.lt_trans changeFirst (sorted.1 member inRest)
      · exact List.pairwise_cons.mpr sorted
      · rename_i firstBefore
        refine List.pairwise_cons.mpr
          ⟨fun member inInserted => ?_, inductionHypothesis sorted.2⟩
        rcases (mem_insertSorted change member rest).mp inInserted with rfl | inRest
        · exact Std.OrientedCmp.gt_iff_lt.mp firstBefore
        · exact sorted.1 member inRest

/-- Adds a change; one that is there already is not added again. -/
def insert (agenda : Agenda) (change : Change) : Agenda :=
  ⟨insertSorted change agenda.toList, pairwise_insertSorted change agenda.sorted⟩

def ofList (changes : List Change) : Agenda :=
  changes.foldl insert empty

/-- The change of highest precedence that is due at a block. -/
def firstDue? (agenda : Agenda) (block : BlockNumber) : Option Change :=
  agenda.toList.find? fun change => change.isDue block

/-- The changes that are due only after a block. -/
def dueAfter (agenda : Agenda) (block : BlockNumber) : Agenda where
  toList := agenda.toList.filter fun change => block < change.applicationBlock
  sorted := agenda.sorted.filter _

def size (agenda : Agenda) : Nat := agenda.toList.length

theorem mem_of_firstDue? {agenda : Agenda} {block : BlockNumber} {change : Change}
    (found : agenda.firstDue? block = some change) : change ∈ agenda.toList :=
  List.mem_of_find?_eq_some found

/-- A change is not among those that are due after its own application block. -/
theorem size_dueAfter_lt {agenda : Agenda} {change : Change} (member : change ∈ agenda.toList) :
    (agenda.dueAfter change.applicationBlock).size < agenda.size := by
  refine List.length_filter_lt_length_iff_exists.mpr ⟨change, member, ?_⟩
  simp

end Agenda

end FinalitySync.Grandpa
