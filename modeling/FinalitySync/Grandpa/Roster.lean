import FinalitySync.Grandpa.Agenda
import FinalitySync.Grandpa.Message
import FinalitySync.Store.Basic

/-!
The roster: the authority set that votes now, the sets that voted before it, and the changes that
are announced. A change comes into force only when its application block is final, one at a time
and in the order of precedence; it then drops every change that was due no later than itself.
-/

namespace FinalitySync.Grandpa

structure Roster where
  current : AuthoritySet
  /-- The latest finalized round of the current set. -/
  round : RoundNumber
  agenda : Agenda
  /-- The number of announcements so far. A message adds one at most, so that a counter of 64 bits
  has this value until `2 ^ 64` messages were received. -/
  announcements : Nat
  /-- Sets that voted before the current one, oldest first. -/
  superseded : List AuthoritySet
  /-- How many superseded sets are kept. -/
  retention : Nat
  /-- The authority that was last reported to have stopped voting in the current set. -/
  disabled : Option UInt64
deriving DecidableEq, Inhabited

namespace Roster

/-- A set without a past. -/
def ofSet (authoritySet : AuthoritySet) (retention : Nat) : Roster where
  current := authoritySet
  round := 0
  agenda := .empty
  announcements := 0
  superseded := []
  retention := retention
  disabled := none

def setId (roster : Roster) : SetId := roster.current.setId

/-- The current set or a superseded one that is still kept, by its number. -/
def setFor? (roster : Roster) (setId : SetId) : Option AuthoritySet :=
  if roster.current.setId = setId then some roster.current
  else roster.superseded.find? fun authoritySet => authoritySet.setId == setId

/-- Keeps the later round. -/
def noteRound (roster : Roster) (round : RoundNumber) : Roster :=
  { roster with round := max roster.round round }

/-- Puts a change that has the next place among announcements on the agenda. -/
def announce (roster : Roster) (change : Nat → Change) : Roster :=
  { roster with
    agenda := roster.agenda.insert (change roster.announcements)
    announcements := roster.announcements + 1 }

/-- What a message in the header of a final block leads to. Changes are put on the agenda, the
reported authority is remembered, and pauses are ignored. -/
def receive (roster : Roster) (block : BlockNumber) : Message → Roster
  | .scheduledChange authorities delay =>
      roster.announce (Change.scheduled authorities delay block)
  | .forcedChange offset authorities delay =>
      roster.announce (Change.forced authorities delay offset block)
  | .authorityDisabled index => { roster with disabled := some index }
  | .pause _ => roster
  | .resume _ => roster

def receiveAll (roster : Roster) (block : BlockNumber) (messages : List Message) : Roster :=
  messages.foldl (fun current message => current.receive block message) roster

/-- The number after a set's number. -/
def nextSetId (setId : SetId) : Except Overflow SetId :=
  if setId.toNat + 1 < 2 ^ 64 then .ok (setId + 1) else .error .addition

/-- The last of the given sets, as many as are kept. -/
def retained (retention : Nat) (sets : List AuthoritySet) : List AuthoritySet :=
  sets.drop (sets.length - retention)

/-- Makes new authorities the current set. Its rounds start over. -/
def startSet (roster : Roster) (authorities : List Authority) : Except Overflow Roster := do
  let setId ← nextSetId roster.current.setId
  return { roster with
    current := ⟨setId, authorities⟩
    superseded := retained roster.retention (roster.superseded ++ [roster.current])
    round := 0
    disabled := none }

/-- Brings the due change of highest precedence into force and drops the changes that were due no
later. Returns the change with the roster after it; `none` if no change is due. -/
def applyDue (roster : Roster) (block : BlockNumber) :
    Except Overflow (Option (Change × Roster)) :=
  match roster.agenda.firstDue? block with
  | none => .ok none
  | some change => do
      let remaining := { roster with agenda := roster.agenda.dueAfter change.applicationBlock }
      return some (change, ← remaining.startSet change.authorities)

theorem startSet_eq_ok_iff {roster next : Roster} {authorities : List Authority} :
    roster.startSet authorities = .ok next ↔
      roster.current.setId.toNat + 1 < 2 ^ 64 ∧
        next = { roster with
          current := ⟨roster.current.setId + 1, authorities⟩
          superseded := retained roster.retention (roster.superseded ++ [roster.current])
          round := 0
          disabled := none } := by
  unfold startSet nextSetId
  by_cases fits : roster.current.setId.toNat + 1 < 2 ^ 64
  · rw [if_pos fits]
    constructor
    · intro started
      cases started
      exact ⟨fits, rfl⟩
    · rintro ⟨_, rfl⟩
      rfl
  · rw [if_neg fits]
    constructor
    · intro started
      cases started
    · intro expected
      exact absurd expected.1 fits

/-- Each change that comes into force leaves fewer on the agenda. -/
theorem size_agenda_lt_of_applyDue {roster next : Roster} {block : BlockNumber} {change : Change}
    (applied : roster.applyDue block = .ok (some (change, next))) :
    next.agenda.size < roster.agenda.size := by
  unfold applyDue at applied
  split at applied
  · simp at applied
  · rename_i due found
    simp only [bind, Except.bind, pure, Except.pure] at applied
    split at applied
    · simp at applied
    · rename_i started startedEquation
      obtain ⟨_, rfl⟩ := startSet_eq_ok_iff.mp startedEquation
      simp only [Except.ok.injEq, Option.some.injEq, Prod.mk.injEq] at applied
      obtain ⟨rfl, rfl⟩ := applied
      exact Agenda.size_dueAfter_lt (Agenda.mem_of_firstDue? found)

/-- Brings due changes into force until none is left. Returns them in order with the roster after
the last one. -/
def drain (roster : Roster) (block : BlockNumber) : Except Overflow (List Change × Roster) :=
  match _applied : roster.applyDue block with
  | .error overflow => .error overflow
  | .ok none => .ok ([], roster)
  | .ok (some (change, next)) =>
      match next.drain block with
      | .error overflow => .error overflow
      | .ok (changes, last) => .ok (change :: changes, last)
termination_by roster.agenda.size
decreasing_by exact size_agenda_lt_of_applyDue _applied

/-! ## Persistence -/

/-- Keeps the current set, its number and its round. -/
def persist (roster : Roster) (store : Store) : Store :=
  ((store.put (.authorities roster.setId) roster.current.authorities).put
    .currentSetId roster.setId).put .latestRound roster.round

/-- Keeps the round and the precommits that made a block final in it. -/
def persistRound (roster : Roster) (store : Store) (precommits : List SignedVote) : Store :=
  (store.put .latestRound roster.round).put (.precommits roster.round roster.setId) precommits

/-- The superseded sets that a store still has, within the last `retention` numbers. -/
def loadSuperseded (store : Store) (setId : SetId) (retention : Nat) : List AuthoritySet :=
  let oldest := setId.toNat - retention
  (List.range' oldest (setId.toNat - oldest)).filterMap fun number =>
    let setId := UInt64.ofNat number
    (store.get? (.authorities setId)).map (AuthoritySet.mk setId)

/-- The roster of a store that has a current set. Announcements are not kept. -/
def load? (store : Store) (retention : Nat) : Option Roster := do
  let setId ← store.get? .currentSetId
  let authorities ← store.get? (.authorities setId)
  return { ofSet ⟨setId, authorities⟩ retention with
    round := (store.get? .latestRound).getD 0
    superseded := loadSuperseded store setId retention }

end Roster

end FinalitySync.Grandpa
