import FinalitySync.Proofs.Grandpa.Announcement
import FinalitySync.Proofs.Grandpa.Enactment
import Mathlib.Data.List.Basic
import Mathlib.Data.List.Induction

/-!
# The course of a roster

A roster receives messages, notes rounds and brings due changes into force, in any order and as
often as it is told to.  Its course keeps what was announced on the way, what came into force and
what gave way.  A course can be followed to its end unless the numbers of sets run out.
-/

namespace FinalitySync.Grandpa

/-- What a roster can be told. -/
inductive Move
  | receive (block : BlockNumber) (message : Message)
  | noteRound (round : RoundNumber)
  /-- To bring one change that is due at the block into force, if there is any. -/
  | applyDue (block : BlockNumber)

structure Course where
  roster : Roster
  /-- The changes that were announced, in order. -/
  announced : List Change
  /-- The changes that came into force, in order. -/
  enacted : List Change
  /-- The changes that gave way to one that came into force. -/
  discarded : List Change
deriving DecidableEq

namespace Course

/-- The course of a roster that was not told anything yet. -/
def ofRoster (roster : Roster) : Course := ⟨roster, [], [], []⟩

/-- The announced changes that neither came into force nor gave way, in order. -/
def waiting (course : Course) : List Change :=
  course.announced.filter fun change => change ∉ course.enacted ++ course.discarded

/-- The other changes that are due no later than one that comes into force. -/
def givingWay (course : Course) (change : Change) : List Change :=
  course.waiting.filter fun other =>
    other ≠ change ∧ other.applicationBlock ≤ change.applicationBlock

def receive (course : Course) (block : BlockNumber) (message : Message) : Course :=
  { course with
    roster := course.roster.receive block message
    announced :=
      course.announced ++ (message.change? block course.roster.announcements).toList }

def noteRound (course : Course) (round : RoundNumber) : Course :=
  { course with roster := course.roster.noteRound round }

/-- The course with a change that came into force and left this roster. -/
def enactTo (course : Course) (change : Change) (roster : Roster) : Course :=
  { course with
    roster := roster
    enacted := course.enacted ++ [change]
    discarded := course.discarded ++ course.givingWay change }

def follow (course : Course) : Move → Except Overflow Course
  | .receive block message => .ok (course.receive block message)
  | .noteRound round => .ok (course.noteRound round)
  | .applyDue block =>
      match course.roster.applyDue block with
      | .error overflow => .error overflow
      | .ok none => .ok course
      | .ok (some (change, roster)) => .ok (course.enactTo change roster)

def followAll (course : Course) (moves : List Move) : Except Overflow Course :=
  moves.foldlM follow course

/-- What a move can do to a course. -/
inductive Follows (course : Course) : Move → Course → Prop
  | receives (block : BlockNumber) (message : Message) :
      Follows course (.receive block message) (course.receive block message)
  | notes (round : RoundNumber) : Follows course (.noteRound round) (course.noteRound round)
  | rests (block : BlockNumber) (noneDue : course.roster.agenda.firstDue? block = none) :
      Follows course (.applyDue block) course
  | enacts (block : BlockNumber) (change : Change)
      (found : course.roster.agenda.firstDue? block = some change)
      (fits : course.roster.setId.toNat + 1 < 2 ^ 64) :
      Follows course (.applyDue block) (course.enactTo change (course.roster.enact change))

/-- A change is due while the current set has the last of all numbers. -/
def IsExhausted (course : Course) (move : Move) : Prop :=
  ∃ block change,
    move = .applyDue block ∧ course.roster.agenda.firstDue? block = some change ∧
      course.roster.setId.toNat = 2 ^ 64 - 1

theorem follow_cases (course : Course) (move : Move) :
    (∃ next, course.follow move = .ok next ∧ course.Follows move next) ∨
      course.follow move = .error .addition ∧ course.IsExhausted move := by
  cases move with
  | receive block message => exact Or.inl ⟨_, rfl, .receives block message⟩
  | noteRound round => exact Or.inl ⟨_, rfl, .notes round⟩
  | applyDue block =>
      cases found : course.roster.agenda.firstDue? block with
      | none =>
          have settled := Roster.applyDue_of_firstDue?_eq_none found
          left
          refine ⟨course, ?_, .rests block found⟩
          simp only [follow, settled]
      | some change =>
          have applied := Roster.applyDue_of_firstDue?_eq_some found
          by_cases fits : course.roster.setId.toNat + 1 < 2 ^ 64
          · rw [if_pos fits] at applied
            left
            refine ⟨_, ?_, .enacts block change found fits⟩
            simp only [follow, applied]
          · rw [if_neg fits] at applied
            have bound := course.roster.setId.toNat_lt
            right
            refine ⟨?_, block, change, rfl, found, by omega⟩
            simp only [follow, applied]

theorem follows_of_follow
    {course next : Course} {move : Move} (followed : course.follow move = .ok next) :
    course.Follows move next := by
  rcases course.follow_cases move with ⟨other, followedTo, follows⟩ | ⟨failed, _⟩
  · cases followedTo.symm.trans followed
    exact follows
  · cases failed.symm.trans followed

/-- The course is this one before some of the moves or after the last. -/
def Visits (start : Course) (moves : List Move) (course : Course) : Prop :=
  ∃ earlier later, moves = earlier ++ later ∧ start.followAll earlier = .ok course

/-- After some of the moves the numbers of sets do not suffice for the next one. -/
def RunsOut (start : Course) (moves : List Move) : Prop :=
  ∃ earlier move later course,
    moves = earlier ++ move :: later ∧ start.followAll earlier = .ok course ∧
      course.IsExhausted move

variable {start course last : Course} {moves : List Move} {move : Move}

theorem followAll_append (start : Course) (earlier later : List Move) :
    start.followAll (earlier ++ later) =
      (start.followAll earlier).bind fun course => course.followAll later :=
  List.foldlM_append

theorem followAll_concat (followed : start.followAll moves = .ok course) (move : Move) :
    start.followAll (moves ++ [move]) = course.follow move := by
  rw [followAll_append, followed]
  exact bind_pure (course.follow move)

/-- The moves before the last one can be followed if all of them can. -/
theorem exists_followAll_of_concat (followed : start.followAll (moves ++ [move]) = .ok last) :
    ∃ course, start.followAll moves = .ok course ∧ course.Follows move last := by
  cases reached : start.followAll moves with
  | error overflow =>
      rw [followAll_append, reached] at followed
      cases followed
  | ok course =>
      rw [followAll_concat reached] at followed
      exact ⟨course, rfl, follows_of_follow followed⟩

/-- What holds at the start and is kept by each move holds at the end. -/
theorem followAll_induction
    {motive : Course → Prop}
    (step : ∀ course move next, motive course → course.Follows move next → motive next)
    (initial : motive start) (followed : start.followAll moves = .ok last) : motive last := by
  induction moves using List.reverseRecOn generalizing last with
  | nil =>
      cases followed
      exact initial
  | append_singleton moves move inductionHypothesis =>
      obtain ⟨course, reached, follows⟩ := exists_followAll_of_concat followed
      exact step course move last (inductionHypothesis reached) follows

/-- Moves can be followed to the end unless the numbers of sets run out on the way. -/
theorem followAll_cases (start : Course) (moves : List Move) :
    (∃ last, start.followAll moves = .ok last) ∨
      start.followAll moves = .error .addition ∧ start.RunsOut moves := by
  induction moves using List.reverseRecOn with
  | nil => exact Or.inl ⟨start, rfl⟩
  | append_singleton moves move inductionHypothesis =>
      rcases inductionHypothesis with
        ⟨course, reached⟩ | ⟨failed, earlier, exhausting, later, course, rfl, reached, exhausted⟩
      · rw [followAll_concat reached]
        rcases course.follow_cases move with ⟨next, followed, _⟩ | ⟨failed, exhausted⟩
        · exact Or.inl ⟨next, followed⟩
        · exact Or.inr ⟨failed, moves, move, [], course, rfl, reached, exhausted⟩
      · right
        refine ⟨?_, earlier, exhausting, later ++ [move], course, ?_, reached, exhausted⟩
        · rw [followAll_append, failed]
          rfl
        · rw [List.append_assoc, List.cons_append]

theorem visits_self (followed : start.followAll moves = .ok course) : start.Visits moves course :=
  ⟨moves, [], (List.append_nil moves).symm, followed⟩

/-- With one more move one more course is visited. -/
theorem visits_concat_iff (followed : start.followAll (moves ++ [move]) = .ok last) :
    start.Visits (moves ++ [move]) course ↔ start.Visits moves course ∨ course = last := by
  constructor
  · rintro ⟨earlier, later, split, reached⟩
    rcases List.eq_nil_or_concat' later with rfl | ⟨between, final, rfl⟩
    · rw [List.append_nil] at split
      cases split
      cases followed.symm.trans reached
      exact Or.inr rfl
    · rw [← List.append_assoc] at split
      exact Or.inl ⟨earlier, between, (List.append_inj' split rfl).1, reached⟩
  · rintro (⟨earlier, later, rfl, reached⟩ | rfl)
    · exact ⟨earlier, later ++ [move], List.append_assoc earlier later [move], reached⟩
    · exact visits_self followed

end Course

end FinalitySync.Grandpa
