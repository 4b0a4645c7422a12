import FinalitySync.Proofs.Sync.Refinement

/-!
# Synchronisation ends whatever sources answer

Fragments are verified only while one waits, so no step fails because of the order of the stages.
Every step leaves fewer steps, twice the distance from the last block number and two at most.  The
only other way out is an accepted fragment that brings more changes into force than there are set
numbers left.
-/

namespace FinalitySync.Sync

variable {primitives : Primitives}

/-- Finalization overflows only when an acceptable fragment has no room. -/
theorem Ledger.accepts_of_finalize_overflow
    {ledger : Ledger} {fragment : Fragment} {cause : Overflow}
    (overflowed : ledger.finalize primitives fragment = .error (.overflow cause)) :
    ledger.Accepts primitives fragment ∧ ¬ ledger.HasRoomFor fragment := by
  rcases accepts_or_refuses primitives ledger fragment with accepts | ⟨failure, refuses⟩
  · refine ⟨accepts, ?_⟩
    intro room
    obtain ⟨hasChanged, next, finalized⟩ := finalize_of_accepts accepts room
    rw [overflowed] at finalized
    cases finalized
  · rw [finalize_of_refuses refuses] at overflowed
    cases overflowed
    cases refuses

namespace Bootstrap

/-- Fragments are verified only while one waits. -/
def IsReady (bootstrap : Bootstrap) : Prop :=
  bootstrap.stage = .verifyingFragments → bootstrap.session.queue ≠ []

/-- The fragment that waits is acceptable, but set numbers do not last for its changes, and the next
step fails with the overflow. -/
inductive IsExhausted (primitives : Primitives) (bootstrap : Bootstrap) : Prop
  | intro (fragment : Fragment) (rest : List Fragment) (cause : Overflow) (after : Bootstrap)
      (queued : bootstrap.session.queue = fragment :: rest)
      (accepts : bootstrap.session.ledger.Accepts primitives fragment)
      (noRoom : ¬ bootstrap.session.ledger.HasRoomFor fragment)
      (fails : bootstrap.step primitives = (.error (.overflow cause), after))

theorem IsReady.ofSession (session : Session) : (ofSession session).IsReady := by
  intro verifying
  cases verifying

theorem step_of_failure
    {bootstrap : Bootstrap} {failure : Failure} {after : Session}
    (kept : failure.isPassedOn = false)
    (handled : bootstrap.stage.handle primitives bootstrap.session = (.error failure, after)) :
    ∃ next, bootstrap.step primitives = (.ok (), next) ∧ next.IsReady := by
  refine ⟨⟨.finished (.aborted after.head.number failure.message), after⟩, ?_, ?_⟩
  · simp only [step, handled, Stage.next, Stage.afterFailure, kept, Bool.false_eq_true, if_false]
  · intro verifying
    cases verifying

theorem step_of_success
    {bootstrap : Bootstrap} {after : Session} {next : Stage}
    (handled : bootstrap.stage.handle primitives bootstrap.session = (.ok (), after))
    (followed : Stage.afterSuccess after bootstrap.stage = .ok next) :
    bootstrap.step primitives = (.ok (), ⟨next, after⟩) := by
  simp only [step, handled, Stage.next, followed]

/-- A page that was taken has fragments or is the last one. -/
theorem queue_or_pagesEnded_of_takePage
    {session after : Session} {page : Page} (taken : session.takePage page = (.ok (), after)) :
    after.queue ≠ [] ∨ after.pagesEnded = true := by
  rw [Session.takePage] at taken
  split at taken
  · cases taken
  · rename_i useful
    cases taken
    cases ended : page.isFinished with
    | true => exact Or.inr rfl
    | false =>
        left
        intro noneWaits
        apply useful
        have noFragments := (List.append_eq_nil_iff.mp noneWaits).2
        simp [ended, noFragments]

theorem step_requestingFragments (session : Session) (start : Hash) :
    ∃ next, step primitives ⟨.requestingFragments start, session⟩ = (.ok (), next) ∧
      next.IsReady := by
  cases arrived :
      Session.pageWithin session.settings.requestTimeout (session.fragments.ask start).1 with
  | error failure =>
      exact
        step_of_failure (Books.isPassedOn_of_pageWithin arrived)
          (handle_requestingFragments_of_no_page arrived)
  | ok page =>
      let asked := { session with fragments := (session.fragments.ask start).2 }
      have handled :
          (Stage.requestingFragments start).handle primitives session = asked.takePage page := by
        simp only [Stage.handle, Session.requestFragments, arrived, asked]
      cases taken : asked.takePage page with
      | mk outcome after =>
          rw [taken] at handled
          cases outcome with
          | error failure =>
              have kept : failure.isPassedOn = false := by
                rw [Session.takePage] at taken
                split at taken <;> cases taken
                rfl
              exact step_of_failure kept handled
          | ok =>
              cases waiting : after.queue with
              | nil =>
                  have ended : after.pagesEnded = true := by
                    rcases queue_or_pagesEnded_of_takePage taken with nonempty | ended
                    · exact absurd waiting nonempty
                    · exact ended
                  have followed :
                      Stage.afterSuccess after (.requestingFragments start) =
                        .ok .downloadingRuntime := by
                    simp [Stage.afterSuccess, waiting, ended]
                  refine ⟨_, step_of_success handled followed, ?_⟩
                  intro verifying
                  cases verifying
              | cons fragment rest =>
                  refine
                    ⟨_, step_of_success handled (afterSuccess_requestingFragments waiting), ?_⟩
                  intro _ noneWaits
                  rw [waiting] at noneWaits
                  cases noneWaits

theorem step_verifyingFragments
    {session : Session} {fragment : Fragment} {rest : List Fragment}
    (queued : session.queue = fragment :: rest) :
    (∃ next, step primitives ⟨.verifyingFragments, session⟩ = (.ok (), next) ∧ next.IsReady) ∨
      IsExhausted primitives ⟨.verifyingFragments, session⟩ := by
  cases finalized : session.ledger.finalize primitives fragment with
  | error failure =>
      have handled :
          Stage.verifyingFragments.handle primitives session =
            (.error failure, { session with queue := rest }) :=
        Session.verifyNext_of_finalize_error queued finalized
      cases passedOn : failure.isPassedOn with
      | false => exact Or.inl (step_of_failure passedOn handled)
      | true =>
          obtain ⟨cause, rfl⟩ := Ledger.overflow_of_finalize finalized passedOn
          obtain ⟨accepts, noRoom⟩ := Ledger.accepts_of_finalize_overflow finalized
          let after : Bootstrap := ⟨.verifyingFragments, { session with queue := rest }⟩
          refine Or.inr ⟨fragment, rest, cause, after, queued, accepts, noRoom, ?_⟩
          simp only [step, handled, Stage.next, Stage.afterFailure, passedOn, if_true, after]
  | ok outcome =>
      obtain ⟨hasChanged, ledger⟩ := outcome
      obtain ⟨mailbox, verified⟩ := Session.verifyNext_of_finalize_ok queued finalized
      let after := { session with ledger := ledger, mailbox := mailbox, queue := rest }
      have handled : Stage.verifyingFragments.handle primitives session = (.ok (), after) :=
        verified
      left
      cases waiting : rest with
      | nil =>
          have noneWaits : after.queue = [] := waiting
          refine ⟨_, step_of_success handled (afterSuccess_last_fragment noneWaits), ?_⟩
          intro verifying
          dsimp only [stageAfterPage] at verifying
          split at verifying <;> cases verifying
      | cons second later =>
          have oneWaits : after.queue = second :: later := waiting
          refine ⟨_, step_of_success handled (afterSuccess_verifyingFragments oneWaits), ?_⟩
          intro _ noneWaits
          rw [oneWaits] at noneWaits
          cases noneWaits

/-- Only the source of runtime code keeps it from being loaded. -/
theorem exists_reason_of_downloadRuntime
    {session after : Session} {failure : Failure}
    (failed : session.downloadRuntime = (.error failure, after)) :
    ∃ reason, failure = .runtimeDownload reason := by
  simp only [Session.downloadRuntime, Session.loadRuntimeCode] at failed
  cases saved : session.ledger.store.get? .runtimeCode with
  | some code =>
      simp only [saved] at failed
      cases failed
  | none =>
      simp only [saved] at failed
      cases fetched : (session.runtimes.ask (session.head.hash, session.head.stateRoot)).1 with
      | ok code =>
          simp only [fetched] at failed
          cases failed
      | error reason =>
          simp only [fetched] at failed
          cases failed
          exact ⟨reason, rfl⟩

theorem step_downloadingRuntime (session : Session) :
    ∃ next, step primitives ⟨.downloadingRuntime, session⟩ = (.ok (), next) ∧ next.IsReady := by
  cases loaded : session.downloadRuntime with
  | mk outcome after =>
      have handled : Stage.downloadingRuntime.handle primitives session = (outcome, after) := loaded
      cases outcome with
      | ok =>
          refine ⟨_, step_of_success handled rfl, ?_⟩
          intro verifying
          cases verifying
      | error failure =>
          obtain ⟨reason, rfl⟩ := exists_reason_of_downloadRuntime loaded
          exact step_of_failure rfl handled

/-- A step succeeds and leaves a fragment where one is needed, unless set numbers run out. -/
theorem IsReady.step
    {bootstrap : Bootstrap} (ready : bootstrap.IsReady)
    (unfinished : bootstrap.stage.finish? = none) :
    (∃ next, bootstrap.step primitives = (.ok (), next) ∧ next.IsReady) ∨
      bootstrap.IsExhausted primitives := by
  obtain ⟨stage, session⟩ := bootstrap
  cases stage with
  | requestingFragments start => exact Or.inl (step_requestingFragments session start)
  | verifyingFragments =>
      cases queued : session.queue with
      | nil => exact absurd queued (ready rfl)
      | cons fragment rest => exact step_verifyingFragments queued
  | downloadingRuntime => exact Or.inl (step_downloadingRuntime session)
  | finished finish => cases unfinished

/-- The stage and the session after so many steps, or the failure of the first step that has
one. -/
def steps (primitives : Primitives) (bootstrap : Bootstrap) : Nat → Except Failure Bootstrap
  | 0 => .ok bootstrap
  | count + 1 =>
      match bootstrap.step primitives with
      | (.error failure, _) => .error failure
      | (.ok (), next) => next.steps primitives count

theorem steps_of_step_ok
    {bootstrap next : Bootstrap} (stepped : bootstrap.step primitives = (.ok (), next))
    (count : Nat) :
    bootstrap.steps primitives (count + 1) = next.steps primitives count := by
  rw [steps, stepped]

theorem rank_pos_of_unfinished {stage : Stage} (unfinished : stage.finish? = none) :
    0 < rank stage := by
  cases stage with
  | requestingFragments start => exact Nat.two_pos
  | verifyingFragments => exact Nat.one_pos
  | downloadingRuntime => exact Nat.one_pos
  | finished finish => cases unfinished

theorem steps_of_finished
    {bootstrap : Bootstrap} {finish : Finish} (ended : bootstrap.stage.finish? = some finish) :
    bootstrap.steps primitives 0 = .ok ⟨.finished finish, bootstrap.session⟩ ∧
      bootstrap.run primitives = (.ok finish, bootstrap.session) := by
  obtain ⟨stage, session⟩ := bootstrap
  cases stage <;> cases ended
  exact ⟨rfl, run_of_finished session finish⟩

/-- From a stage that is ready there are no more steps than the bound says. -/
theorem IsReady.steps
    {bootstrap : Bootstrap} (ready : bootstrap.IsReady)
    {bound : Nat} (bounded : bootstrap.remaining ≤ bound) :
    (∃ count ≤ bound, ∃ finish last,
      bootstrap.steps primitives count = .ok ⟨.finished finish, last⟩ ∧
        bootstrap.run primitives = (.ok finish, last)) ∨
    (∃ count ≤ bound, ∃ stuck,
      bootstrap.steps primitives count = .ok stuck ∧ stuck.IsExhausted primitives) := by
  -- Each step lowers the number of remaining steps, which bounds the induction.
  induction bound generalizing bootstrap with
  | zero =>
      cases ended : bootstrap.stage.finish? with
      | some finish => exact Or.inl ⟨0, Nat.le_refl 0, finish, _, steps_of_finished ended⟩
      | none =>
          have positive := rank_pos_of_unfinished ended
          rw [remaining] at bounded
          omega
  | succ bound inductionHypothesis =>
      cases ended : bootstrap.stage.finish? with
      | some finish => exact Or.inl ⟨0, Nat.zero_le _, finish, _, steps_of_finished ended⟩
      | none =>
          rcases ready.step ended with ⟨next, stepped, nextReady⟩ | exhausted
          · have fewer := remaining_lt_of_step ended stepped
            have nextBounded : next.remaining ≤ bound := by omega
            rcases inductionHypothesis nextReady nextBounded with
              ⟨count, inBound, finish, last, reached, ran⟩ |
                ⟨count, inBound, stuck, reached, exhausted⟩
            · refine Or.inl ⟨count + 1, Nat.succ_le_succ inBound, finish, last, ?_, ?_⟩
              · rw [steps_of_step_ok stepped]
                exact reached
              · rw [run_of_step_ok ended stepped]
                exact ran
            · refine Or.inr ⟨count + 1, Nat.succ_le_succ inBound, stuck, ?_, exhausted⟩
              rw [steps_of_step_ok stepped]
              exact reached
          · exact Or.inr ⟨0, Nat.zero_le _, bootstrap, rfl, exhausted⟩

/-- Synchronisation from any session and with any sources reaches its end within two steps for each
block number above the head and two more, and a run ends there.  Otherwise it has come, within as
many steps, to an acceptable fragment for whose changes the set numbers do not last. -/
theorem steps_ofSession_finish
    (primitives : Primitives) (session : Session) :
    (∃ count ≤ 2 * (2 ^ 32 - 1 - session.head.number.toNat) + 2, ∃ finish last,
      (ofSession session).steps primitives count = .ok ⟨.finished finish, last⟩ ∧
        (ofSession session).run primitives = (.ok finish, last)) ∨
    (∃ count ≤ 2 * (2 ^ 32 - 1 - session.head.number.toNat) + 2, ∃ stuck,
      (ofSession session).steps primitives count = .ok stuck ∧ stuck.IsExhausted primitives) :=
  (IsReady.ofSession session).steps (Nat.le_refl _)

end Bootstrap

end FinalitySync.Sync
