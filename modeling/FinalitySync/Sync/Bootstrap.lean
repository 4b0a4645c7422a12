import FinalitySync.Sync.Stage

/-!
Synchronisation from the head of a session, stage by stage. Whatever sources answer, it ends:
every verified fragment raises the head, and between two of them there is one request at most.
-/

namespace FinalitySync.Sync

structure Bootstrap where
  stage : Stage
  session : Session

namespace Bootstrap

/-- Starts with the fragments after the head. -/
def ofSession (session : Session) : Bootstrap :=
  ⟨.requestingFragments session.head.hash, session⟩

/-- Handles the stage and moves to the next one. After a failure that is passed on the stage is
the same. -/
def step (primitives : Primitives) (bootstrap : Bootstrap) : Except Failure Unit × Bootstrap :=
  let (handled, session) := bootstrap.stage.handle primitives bootstrap.session
  match bootstrap.stage.next session handled with
  | .error failure => (.error failure, { bootstrap with session := session })
  | .ok stage => (.ok (), ⟨stage, session⟩)

/-! ## Termination -/

/-- How far a head is from the last block number. -/
def distance (session : Session) : Nat := 2 ^ 32 - 1 - session.head.number.toNat

def rank : Stage → Nat
  | .requestingFragments _ => 2
  | .verifyingFragments => 1
  | .downloadingRuntime => 1
  | .finished _ => 0

/-- A bound on the number of steps that are left. -/
def remaining (bootstrap : Bootstrap) : Nat :=
  2 * distance bootstrap.session + rank bootstrap.stage

theorem rank_le (stage : Stage) : rank stage ≤ 2 := by
  cases stage <;> simp [rank]

theorem rank_of_afterFailure {session : Session} {failure : Failure} {stage : Stage}
    (next : Stage.afterFailure session failure = .ok stage) : rank stage = 0 := by
  simp only [Stage.afterFailure] at next
  split at next <;> cases next
  rfl

theorem distance_lt_of_number_lt {earlier later : Session}
    (raised : earlier.head.number < later.head.number) : distance later < distance earlier := by
  have bound := later.head.number.toNat_lt
  have raisedNumbers := UInt32.lt_iff_toNat_lt.mp raised
  simp only [distance]
  omega

theorem next_eq_ok_cases {session : Session} {stage next : Stage} {handled : Except Failure Unit}
    (moved : stage.next session handled = .ok next) :
    rank next = 0 ∨ handled = .ok () ∧ Stage.afterSuccess session stage = .ok next := by
  cases handled with
  | error failure => exact .inl (rank_of_afterFailure moved)
  | ok => exact .inr ⟨rfl, moved⟩

/-- A request leads to another stage than a request. -/
theorem rank_afterRequest {session : Session} {start : Hash} {next : Stage}
    {handled : Except Failure Unit}
    (moved : (Stage.requestingFragments start).next session handled = .ok next) :
    rank next ≤ 1 := by
  rcases next_eq_ok_cases moved with zeroRank | ⟨_, succeeded⟩
  · omega
  · simp only [Stage.afterSuccess] at succeeded
    split at succeeded
    · cases succeeded
      simp [rank]
    · split at succeeded <;> cases succeeded
      simp [rank]

/-- Nothing but the end follows the runtime code. -/
theorem rank_afterDownload {session : Session} {next : Stage} {handled : Except Failure Unit}
    (moved : Stage.downloadingRuntime.next session handled = .ok next) : rank next = 0 := by
  rcases next_eq_ok_cases moved with zeroRank | ⟨_, succeeded⟩
  · exact zeroRank
  · cases succeeded
    rfl

theorem head_loadRuntimeCode (session : Session) :
    session.loadRuntimeCode.2.head = session.head := by
  unfold Session.loadRuntimeCode
  split
  · rfl
  · dsimp only
    split <;> rfl

theorem head_downloadRuntime (session : Session) :
    session.downloadRuntime.2.head = session.head := by
  have sameHead := head_loadRuntimeCode session
  unfold Session.downloadRuntime
  split
  · rename_i loaded
    rw [loaded] at sameHead
    exact sameHead
  · rename_i loaded
    rw [loaded] at sameHead
    dsimp only
    rw [Session.head_notify]
    exact sameHead

theorem verifyNext_cases (primitives : Primitives) (session : Session) :
    (∃ failure, (session.verifyNext primitives).1 = .error failure ∧
      (session.verifyNext primitives).2.head = session.head) ∨
    (session.verifyNext primitives).1 = .ok () ∧
      session.head.number < (session.verifyNext primitives).2.head.number := by
  cases verified : session.verifyNext primitives with
  | mk handled next =>
      cases handled with
      | error failure => exact .inl ⟨failure, rfl, Session.head_of_verifyNext_error verified⟩
      | ok => exact .inr ⟨rfl, Session.head_number_lt_of_verifyNext verified⟩

/-- Every step from a stage that is not the last one leaves fewer steps. -/
theorem remaining_lt_of_step {primitives : Primitives} {bootstrap next : Bootstrap}
    (unfinished : bootstrap.stage.finish? = none)
    (stepped : bootstrap.step primitives = (.ok (), next)) :
    next.remaining < bootstrap.remaining := by
  obtain ⟨stage, session⟩ := bootstrap
  simp only [step] at stepped
  split at stepped
  · cases stepped
  · rename_i nextStage moved
    cases stepped
    cases stage with
    | requestingFragments start =>
        have stageRank : rank (.requestingFragments start) = 2 := rfl
        have nextRank := rank_afterRequest moved
        have sameHead := Session.head_requestFragments session start
        simp only [remaining, Stage.handle, distance, sameHead]
        omega
    | verifyingFragments =>
        have stageRank : rank .verifyingFragments = 1 := rfl
        rcases verifyNext_cases primitives session with ⟨failure, failed, sameHead⟩ | ⟨_, raised⟩
        · simp only [Stage.handle, failed] at moved
          have nextRank := rank_of_afterFailure moved
          simp only [remaining, Stage.handle, distance, sameHead]
          omega
        · have nearer := distance_lt_of_number_lt raised
          have nextRank := rank_le nextStage
          simp only [remaining, Stage.handle]
          omega
    | downloadingRuntime =>
        have stageRank : rank .downloadingRuntime = 1 := rfl
        have nextRank := rank_afterDownload moved
        have sameHead := head_downloadRuntime session
        simp only [remaining, Stage.handle, distance, sameHead]
        omega
    | finished finish => cases unfinished

/-- What is said of a failure that was passed on by a run, outermost first. -/
def failureChain (failure : Failure) : List String :=
  ["Warp sync state machine failed", failure.message]

/-- Steps until the last stage. Returns how synchronisation ended and the session after it. -/
def run (primitives : Primitives) (bootstrap : Bootstrap) : Except Failure Finish × Session :=
  match _unfinished : bootstrap.stage.finish? with
  | some finish => (.ok finish, bootstrap.session)
  | none =>
      match _stepped : bootstrap.step primitives with
      | (.error failure, next) => (.error failure, next.session)
      | (.ok (), next) => next.run primitives
termination_by bootstrap.remaining
decreasing_by exact remaining_lt_of_step _unfinished _stepped

end Bootstrap

end FinalitySync.Sync
