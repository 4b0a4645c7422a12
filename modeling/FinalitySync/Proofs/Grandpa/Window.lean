import FinalitySync.Proofs.Grandpa.Course
import FinalitySync.Proofs.Grandpa.Retention

/-!
# Which sets are known in the course of a roster

Each change that comes into force takes the next number.  The sets that are known are the current
one and those that were current before it, as many as are kept, each under the number that it had
then.
-/

namespace FinalitySync.Grandpa

namespace Roster

variable {roster later : Roster} {first : SetId} {authoritySet : AuthoritySet}

section Past

variable (past : roster.HasPast first)

include past

theorem HasPast.oldest_le : roster.oldest first ≤ roster.setId.toNat := by
  have firstLe := past.first_le
  rw [oldest]
  omega

/-- The superseded sets that are kept have the numbers just below the current one. -/
theorem HasPast.numbers_superseded :
    roster.superseded.map (fun authoritySet => authoritySet.setId.toNat) =
      List.range' (roster.oldest first) (roster.setId.toNat - roster.oldest first) := by
  have oldestLe := past.oldest_le
  have oneMore :
      roster.setId.toNat + 1 - roster.oldest first =
        roster.setId.toNat - roster.oldest first + 1 := by
    omega
  have numbers := past.numbers
  rw [known, List.map_append, oneMore, List.range'_1_concat] at numbers
  exact (List.append_inj' numbers rfl).1

theorem HasPast.length_superseded :
    roster.superseded.length = roster.setId.toNat - roster.oldest first := by
  have lengths := congrArg List.length past.numbers_superseded
  rwa [List.length_map, List.length_range'] at lengths

theorem HasPast.setFor?_eq_some_iff {setId : SetId} :
    roster.setFor? setId = some authoritySet ↔
      authoritySet ∈ roster.known ∧ authoritySet.setId = setId :=
  Roster.setFor?_eq_some_iff fun _ member _ otherMember => past.eq_of_setId_eq member otherMember

theorem HasPast.isSome_setFor?_iff {setId : SetId} :
    (roster.setFor? setId).isSome = true ↔
      roster.oldest first ≤ setId.toNat ∧ setId.toNat ≤ roster.setId.toNat := by
  rw [Option.isSome_iff_exists]
  constructor
  · rintro ⟨authoritySet, found⟩
    obtain ⟨member, rfl⟩ := mem_known_of_setFor? found
    exact past.bounds member
  · rintro ⟨notTooOld, notTooNew⟩
    obtain ⟨authoritySet, isKnown⟩ := past.exists_mem_known notTooOld notTooNew
    exact ⟨authoritySet, past.setFor?_eq_some_iff.mpr isKnown⟩

end Past

/-- `Slides first earlier later` says how the window of known sets moves: no set comes in but the
current one, and a set stays in until its number is too old. -/
structure Slides (first : SetId) (earlier later : Roster) : Prop where
  past : later.HasPast first
  retention : later.retention = earlier.retention
  setId_le : earlier.setId.toNat ≤ later.setId.toNat
  comesIn :
    ∀ authoritySet ∈ later.known, authoritySet ∈ earlier.known ∨ authoritySet = later.current
  staysIn :
    ∀ authoritySet ∈ earlier.known,
      later.oldest first ≤ authoritySet.setId.toNat → authoritySet ∈ later.known

theorem Slides.oldest_le (slides : Slides first roster later) :
    roster.oldest first ≤ later.oldest first := by
  have setIdLe := slides.setId_le
  rw [oldest, oldest, slides.retention]
  omega

theorem Slides.of_sameSets
    (past : roster.HasPast first)
    (sameCurrent : later.current = roster.current)
    (sameSuperseded : later.superseded = roster.superseded)
    (sameRetention : later.retention = roster.retention) :
    Slides first roster later := by
  have sameKnown : later.known = roster.known := by
    rw [known, known, sameCurrent, sameSuperseded]
  refine ⟨past.congr sameCurrent sameSuperseded sameRetention, sameRetention, ?_, ?_, ?_⟩
  · rw [setId, setId, sameCurrent]
  · intro authoritySet member
    rw [sameKnown] at member
    exact Or.inl member
  · intro authoritySet member _
    rw [sameKnown]
    exact member

theorem Slides.enact
    (past : roster.HasPast first) (fits : roster.setId.toNat + 1 < 2 ^ 64) (change : Change) :
    Slides first roster (roster.enact change) := by
  have nextNumber := toNat_setId_enact fits change
  have nextPast := past.enact fits change
  refine ⟨nextPast, rfl, by omega, fun _ member => mem_known_enact member, ?_⟩
  intro authoritySet member notTooOld
  have notTooNew := (past.bounds member).2
  obtain ⟨kept, keptMember, sameId⟩ := nextPast.exists_mem_known notTooOld (by omega)
  rcases mem_known_enact keptMember with earlier | isNew
  · rw [past.eq_of_setId_eq member earlier sameId.symm]
    exact keptMember
  · have newNumber : kept.setId.toNat = roster.setId.toNat + 1 := by
      rw [isNew]
      exact nextNumber
    rw [sameId] at newNumber
    omega

end Roster

namespace Course

def ofSet (authoritySet : AuthoritySet) (retention : Nat) : Course :=
  ofRoster (.ofSet authoritySet retention)

/-- What holds after some moves: the window of known sets has moved by what came into force, and it
shows the sets that were current on the way. -/
structure IsTraced
    (first : AuthoritySet) (retention : Nat) (moves : List Move) (course : Course) : Prop where
  past : course.roster.HasPast first.setId
  sameRetention : course.roster.retention = retention
  setId : course.roster.setId.toNat = first.setId.toNat + course.enacted.length
  wasCurrent :
    ∀ authoritySet ∈ course.roster.known,
      ∃ between, (ofSet first retention).Visits moves between ∧
        between.roster.current = authoritySet
  isKnown :
    ∀ between, (ofSet first retention).Visits moves between →
      course.roster.oldest first.setId ≤ between.roster.setId.toNat →
        between.roster.current ∈ course.roster.known

variable {first : AuthoritySet} {retention : Nat} {moves : List Move} {move : Move}
variable {course next last : Course}

theorem isTraced_nil (first : AuthoritySet) (retention : Nat) :
    (ofSet first retention).IsTraced first retention [] := by
  refine ⟨Roster.HasPast.ofSet first retention, rfl, rfl, ?_, ?_⟩
  · intro authoritySet member
    rw [List.mem_singleton.mp member]
    exact ⟨_, visits_self rfl, rfl⟩
  · rintro between ⟨earlier, later, split, reached⟩ _
    obtain ⟨rfl, _⟩ := List.append_eq_nil_iff.mp split.symm
    cases reached
    exact List.mem_append_right _ List.mem_cons_self

theorem IsTraced.slide
    (followed : (ofSet first retention).followAll (moves ++ [move]) = .ok next)
    (traced : course.IsTraced first retention moves)
    (slides : Roster.Slides first.setId course.roster next.roster)
    (raised : next.roster.setId.toNat + course.enacted.length =
      course.roster.setId.toNat + next.enacted.length) :
    next.IsTraced first retention (moves ++ [move]) := by
  have setId := traced.setId
  refine ⟨slides.past, slides.retention.trans traced.sameRetention, by omega, ?_, ?_⟩
  · intro authoritySet member
    rcases slides.comesIn authoritySet member with earlier | rfl
    · obtain ⟨between, visited, isCurrent⟩ := traced.wasCurrent authoritySet earlier
      exact ⟨between, (visits_concat_iff followed).mpr (Or.inl visited), isCurrent⟩
    · exact ⟨next, visits_self followed, rfl⟩
  · intro between visited notTooOld
    rcases (visits_concat_iff followed).mp visited with earlier | rfl
    · have member := traced.isKnown between earlier (Nat.le_trans slides.oldest_le notTooOld)
      exact slides.staysIn _ member notTooOld
    · exact List.mem_append_right _ List.mem_cons_self

/-- The step: one more move. -/
theorem IsTraced.follow
    (followed : (ofSet first retention).followAll (moves ++ [move]) = .ok next)
    (traced : course.IsTraced first retention moves) (follows : course.Follows move next) :
    next.IsTraced first retention (moves ++ [move]) := by
  cases follows with
  | receives block message =>
      have sameCurrent := Roster.current_receive course.roster block message
      have sameRetention :
          (course.roster.receive block message).retention = course.roster.retention := by
        cases message <;> rfl
      apply traced.slide followed
      · exact
          .of_sameSets traced.past sameCurrent (Roster.superseded_receive _ _ _) sameRetention
      · rw [receive, Roster.setId, sameCurrent]
        rfl
  | notes round => exact traced.slide followed (.of_sameSets traced.past rfl rfl rfl) rfl
  | rests block noneDue => exact traced.slide followed (.of_sameSets traced.past rfl rfl rfl) rfl
  | enacts block change found fits =>
      apply traced.slide followed
      · exact .enact traced.past fits change
      · have nextNumber := Roster.toNat_setId_enact fits change
        rw [enactTo, nextNumber, List.length_append, List.length_singleton]
        omega

/-- The run: any moves. -/
theorem isTraced_of_followAll
    (followed : (ofSet first retention).followAll moves = .ok last) :
    last.IsTraced first retention moves := by
  induction moves using List.reverseRecOn generalizing last with
  | nil =>
      cases followed
      exact isTraced_nil first retention
  | append_singleton moves move inductionHypothesis =>
      obtain ⟨course, reached, follows⟩ := exists_followAll_of_concat followed
      exact (inductionHypothesis reached).follow followed follows

/-- The number of the oldest known set: no lower than that of the first set, and no lower than so
many below the current one. -/
def windowStart (course : Course) (first : AuthoritySet) (retention : Nat) : Nat :=
  max first.setId.toNat (course.roster.setId.toNat - retention)

structure KeepsWindow
    (first : AuthoritySet) (retention : Nat) (moves : List Move) (course : Course) : Prop where
  /-- Each change that came into force took the next number. -/
  setId : course.roster.setId.toNat = first.setId.toNat + course.enacted.length
  isSome_iff :
    ∀ setId,
      (course.roster.setFor? setId).isSome = true ↔
        course.windowStart first retention ≤ setId.toNat ∧
          setId.toNat ≤ course.roster.setId.toNat
  /-- What is found under a number is the set that was current under it. -/
  eq_some_iff :
    ∀ setId authoritySet,
      course.roster.setFor? setId = some authoritySet ↔
        course.windowStart first retention ≤ setId.toNat ∧
          ∃ between, (ofSet first retention).Visits moves between ∧
            between.roster.setId = setId ∧ between.roster.current = authoritySet
  superseded :
    course.roster.superseded.map (fun authoritySet => authoritySet.setId.toNat) =
      List.range' (course.windowStart first retention) course.roster.superseded.length
  length_superseded_le : course.roster.superseded.length ≤ retention

theorem IsTraced.keepsWindow (traced : course.IsTraced first retention moves) :
    course.KeepsWindow first retention moves := by
  have past := traced.past
  have isOldest : course.roster.oldest first.setId = course.windowStart first retention := by
    rw [Roster.oldest, traced.sameRetention, windowStart]
  refine ⟨traced.setId, ?_, ?_, ?_, ?_⟩
  · intro setId
    rw [past.isSome_setFor?_iff, isOldest]
  · intro setId authoritySet
    rw [past.setFor?_eq_some_iff, ← isOldest]
    constructor
    · rintro ⟨member, rfl⟩
      obtain ⟨between, visited, rfl⟩ := traced.wasCurrent authoritySet member
      exact ⟨(past.bounds member).1, between, visited, rfl, rfl⟩
    · rintro ⟨notTooOld, between, visited, rfl, rfl⟩
      exact ⟨traced.isKnown between visited notTooOld, rfl⟩
  · rw [past.numbers_superseded, past.length_superseded, isOldest]
  · rw [past.length_superseded, isOldest, windowStart]
    omega

/-- Whatever a roster is told from a set without a past on, each change that comes into force takes
the next number, and the sets that are known are those that were current under the latest numbers:
the current one and, of those before it, as many as are kept.  So it goes on until the numbers run
out. -/
theorem keepsWindow_or_runsOut (first : AuthoritySet) (retention : Nat) (moves : List Move) :
    (∃ course,
      (ofSet first retention).followAll moves = .ok course ∧
        course.KeepsWindow first retention moves) ∨
      (ofSet first retention).followAll moves = .error .addition ∧
        (ofSet first retention).RunsOut moves := by
  rcases (ofSet first retention).followAll_cases moves with ⟨course, followed⟩ | runsOut
  · exact Or.inl ⟨course, followed, (isTraced_of_followAll followed).keepsWindow⟩
  · exact Or.inr runsOut

end Course

end FinalitySync.Grandpa
