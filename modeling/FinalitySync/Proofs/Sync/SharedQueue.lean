import FinalitySync.Proofs.Sync.Termination

/-!
# The queue is shared with a side that appends to it

Another holder of the queue may append fragments at any moment of a step.  So a step is taken apart
into phases that use the queue once at most, and appending may come between any two of them.  What
the order of the stages makes sure of is kept by every phase and by every append: no step finds the
queue empty, none fails because of the order of the stages, and the end is final.
-/

namespace FinalitySync.Sync

variable {primitives : Primitives}

/-- What is to be done next in a step. -/
inductive Phase
  | resting
  | taking (page : Page)
  | finalizing (fragment : Fragment)
  /-- The stage was handled and the next one is to be chosen. -/
  | choosing (handled : Except Failure Unit)
  /-- A step failed, which ends the run. -/
  | failed (failure : Failure)

structure Progress where
  bootstrap : Bootstrap
  phase : Phase

namespace Progress

def ofSession (session : Session) : Progress := ⟨.ofSession session, .resting⟩

/-- Asks for the fragments after a block. -/
def ask (bootstrap : Bootstrap) (start : Hash) : Progress :=
  let (reply, fragments) := bootstrap.session.fragments.ask start
  let asked := { bootstrap with session := { bootstrap.session with fragments := fragments } }
  match Session.pageWithin bootstrap.session.settings.requestTimeout reply with
  | .error failure => ⟨asked, .choosing (.error failure)⟩
  | .ok page => ⟨asked, .taking page⟩

/-- Takes the first fragment out of the queue. -/
def dequeue (bootstrap : Bootstrap) : Progress :=
  match bootstrap.session.dequeue with
  | none =>
      if bootstrap.session.pagesEnded then
        ⟨bootstrap, .choosing (.error .verificationAfterEnd)⟩
      else ⟨bootstrap, .choosing (.error .missingFragment)⟩
  | some (fragment, taken) => ⟨{ bootstrap with session := taken }, .finalizing fragment⟩

/-- Begins a step. Only requests and verification use the queue. -/
def enter (primitives : Primitives) (bootstrap : Bootstrap) : Progress :=
  match bootstrap.stage with
  | .requestingFragments start => ask bootstrap start
  | .verifyingFragments => dequeue bootstrap
  | stage =>
      let (handled, session) := stage.handle primitives bootstrap.session
      ⟨{ bootstrap with session := session }, .choosing handled⟩

/-- Goes on to the next phase. -/
def proceed (primitives : Primitives) (progress : Progress) : Progress :=
  let bootstrap := progress.bootstrap
  match progress.phase with
  | .resting => enter primitives bootstrap
  | .taking page =>
      -- Nobody else sees whether pages have ended, so noting that is no phase of its own.
      let (handled, session) := bootstrap.session.takePage page
      ⟨{ bootstrap with session := session }, .choosing handled⟩
  | .finalizing fragment =>
      match bootstrap.session.accept primitives fragment with
      | .error failure => ⟨bootstrap, .choosing (.error failure)⟩
      | .ok accepted => ⟨{ bootstrap with session := accepted }, .choosing (.ok ())⟩
  | .choosing handled =>
      match bootstrap.stage.next bootstrap.session handled with
      | .error failure => ⟨bootstrap, .failed failure⟩
      | .ok stage => ⟨{ bootstrap with stage := stage }, .resting⟩
  | .failed _ => progress

/-- Appends to the queue, which the other holder may do in every phase. -/
def enqueue (progress : Progress) (fragments : List Fragment) : Progress :=
  { progress with
    bootstrap :=
      { progress.bootstrap with session := progress.bootstrap.session.enqueue fragments } }

end Progress

/-- What may happen next: a phase of a step or an append by the other holder of the queue. -/
inductive Move
  | proceed
  | enqueue (fragments : List Fragment)

def Move.make (primitives : Primitives) (progress : Progress) : Move → Progress
  | .proceed => progress.proceed primitives
  | .enqueue fragments => progress.enqueue fragments

namespace Progress

def makeAll (primitives : Primitives) (progress : Progress) (moves : List Move) : Progress :=
  moves.foldl (Move.make primitives) progress

def ofStep : Except Failure Unit × Bootstrap → Progress
  | (.error failure, next) => ⟨next, .failed failure⟩
  | (.ok (), next) => ⟨next, .resting⟩

/-- The phases before the choice of the next stage handle the stage. -/
theorem exists_makeAll_proceed_eq_choosing (primitives : Primitives) (bootstrap : Bootstrap) :
    let handled := bootstrap.stage.handle primitives bootstrap.session
    ∃ count,
      makeAll primitives ⟨bootstrap, .resting⟩ (List.replicate count .proceed) =
        ⟨{ bootstrap with session := handled.2 }, .choosing handled.1⟩ := by
  obtain ⟨stage, session⟩ := bootstrap
  cases stage with
  | requestingFragments start =>
      cases arrived :
          Session.pageWithin session.settings.requestTimeout (session.fragments.ask start).1 with
      | error failure =>
          refine ⟨1, ?_⟩
          simp only [makeAll, List.replicate, List.foldl, Move.make, proceed, enter, ask, arrived,
            Stage.handle, Session.requestFragments]
      | ok page =>
          refine ⟨2, ?_⟩
          simp only [makeAll, List.replicate, List.foldl, Move.make, proceed, enter, ask, arrived,
            Stage.handle, Session.requestFragments]
  | verifyingFragments =>
      cases waiting : session.dequeue with
      | none =>
          refine ⟨1, ?_⟩
          simp only [makeAll, List.replicate, List.foldl, Move.make, proceed, enter, dequeue,
            waiting, Stage.handle, Session.verifyNext]
          cases session.pagesEnded <;> rfl
      | some dequeued =>
          obtain ⟨fragment, taken⟩ := dequeued
          refine ⟨2, ?_⟩
          simp only [makeAll, List.replicate, List.foldl, Move.make, proceed, enter, dequeue,
            waiting, Stage.handle, Session.verifyNext]
          cases taken.accept primitives fragment <;> rfl
  | downloadingRuntime => exact ⟨1, rfl⟩
  | finished finish => exact ⟨1, rfl⟩

theorem makeAll_append_singleton
    (primitives : Primitives) (progress : Progress) (moves : List Move) (move : Move) :
    progress.makeAll primitives (moves ++ [move]) =
      move.make primitives (progress.makeAll primitives moves) := by
  simp [makeAll]

/-- Phases with no append between them come to what the step comes to. -/
theorem exists_makeAll_proceed_eq_step (primitives : Primitives) (bootstrap : Bootstrap) :
    ∃ count,
      makeAll primitives ⟨bootstrap, .resting⟩ (List.replicate count .proceed) =
        ofStep (bootstrap.step primitives) := by
  obtain ⟨count, reached⟩ := exists_makeAll_proceed_eq_choosing primitives bootstrap
  refine ⟨count + 1, ?_⟩
  rw [List.replicate_succ', makeAll_append_singleton, reached]
  simp only [Move.make, proceed, Bootstrap.step]
  cases
    bootstrap.stage.next (bootstrap.stage.handle primitives bootstrap.session).2
      (bootstrap.stage.handle primitives bootstrap.session).1 <;> rfl

end Progress

/-! ## What every phase makes sure of -/

/-- A failure that ends synchronisation in an orderly way and is not that of an empty queue. -/
structure Failure.IsOrderly (failure : Failure) : Prop where
  kept : failure.isPassedOn = false
  present : failure ≠ .missingFragment

/-- There is an acceptable fragment for whose changes the set numbers do not last. -/
def Ledger.IsExhausted (primitives : Primitives) (ledger : Ledger) : Prop :=
  ∃ fragment, ledger.Accepts primitives fragment ∧ ¬ ledger.HasRoomFor fragment

/-- A request that succeeded has left a fragment or was the last one. -/
def Stage.HasNext (stage : Stage) (session : Session) : Prop :=
  ∀ start, stage = .requestingFragments start → session.queue ≠ [] ∨ session.pagesEnded = true

theorem isOrderly_of_pageWithin
    {limit : Duration} {reply : PageReply} {failure : Failure}
    (refused : Session.pageWithin limit reply = .error failure) : failure.IsOrderly := by
  refine ⟨Books.isPassedOn_of_pageWithin refused, ?_⟩
  rintro rfl
  cases reply with
  | never => cases refused
  | arrival delay result =>
      rw [Session.pageWithin] at refused
      split at refused
      · cases result <;> cases refused
      · cases refused

theorem isOrderly_of_takePage
    {session after : Session} {page : Page} {failure : Failure}
    (refused : session.takePage page = (.error failure, after)) : failure.IsOrderly := by
  rw [Session.takePage] at refused
  split at refused <;> cases refused
  exact ⟨rfl, by simp⟩

theorem isOrderly_of_downloadRuntime
    {session after : Session} {failure : Failure}
    (failed : session.downloadRuntime = (.error failure, after)) : failure.IsOrderly := by
  obtain ⟨reason, rfl⟩ := Bootstrap.exists_reason_of_downloadRuntime failed
  exact ⟨rfl, by simp⟩

theorem Ledger.isOrderly_or_isExhausted_of_finalize
    {ledger : Ledger} {fragment : Fragment} {failure : Failure}
    (failed : ledger.finalize primitives fragment = .error failure) :
    failure.IsOrderly ∨ ∃ cause, failure = .overflow cause ∧ ledger.IsExhausted primitives := by
  rcases refuses_or_overflow_of_finalize failed with refuses | ⟨cause, rfl⟩
  · left
    constructor
    · cases refuses <;> rfl
    · rintro rfl
      cases refuses
  · exact Or.inr ⟨cause, rfl, fragment, accepts_of_finalize_overflow failed⟩

namespace Progress

/-- What the order of the stages makes sure of in each phase. -/
inductive IsSound (primitives : Primitives) : Progress → Prop
  | resting {bootstrap : Bootstrap} (ready : bootstrap.IsReady) :
      IsSound primitives ⟨bootstrap, .resting⟩
  | taking {start : Hash} {session : Session} {page : Page} :
      IsSound primitives ⟨⟨.requestingFragments start, session⟩, .taking page⟩
  | finalizing {session : Session} {fragment : Fragment} :
      IsSound primitives ⟨⟨.verifyingFragments, session⟩, .finalizing fragment⟩
  | succeeded {stage : Stage} {session : Session} (hasNext : stage.HasNext session) :
      IsSound primitives ⟨⟨stage, session⟩, .choosing (.ok ())⟩
  | aborted {stage : Stage} {session : Session} {failure : Failure}
      (unfinished : stage.finish? = none) (orderly : failure.IsOrderly) :
      IsSound primitives ⟨⟨stage, session⟩, .choosing (.error failure)⟩
  | exhausted {session : Session} {cause : Overflow}
      (exhausted : session.ledger.IsExhausted primitives) :
      IsSound primitives ⟨⟨.verifyingFragments, session⟩, .choosing (.error (.overflow cause))⟩
  | failed {session : Session} {cause : Overflow}
      (exhausted : session.ledger.IsExhausted primitives) :
      IsSound primitives ⟨⟨.verifyingFragments, session⟩, .failed (.overflow cause)⟩

theorem IsSound.resting_of_ne
    {stage : Stage} {session : Session} (different : stage ≠ .verifyingFragments) :
    IsSound primitives ⟨⟨stage, session⟩, .resting⟩ :=
  .resting fun verifying => absurd verifying different

theorem IsSound.resting_of_queue
    {stage : Stage} {session : Session} {fragment : Fragment} {rest : List Fragment}
    (waiting : session.queue = fragment :: rest) :
    IsSound primitives ⟨⟨stage, session⟩, .resting⟩ := by
  apply IsSound.resting
  intro _ noneWaits
  cases waiting.symm.trans noneWaits

theorem IsSound.enqueue
    {progress : Progress} (sound : progress.IsSound primitives) (fragments : List Fragment) :
    (progress.enqueue fragments).IsSound primitives := by
  -- A longer queue is in the way of no phase.
  cases sound with
  | resting ready =>
      apply IsSound.resting
      intro verifying noneWaits
      exact ready verifying (List.append_eq_nil_iff.mp noneWaits).1
  | taking => exact .taking
  | finalizing => exact .finalizing
  | succeeded hasNext =>
      apply IsSound.succeeded
      intro start requesting
      rcases hasNext start requesting with oneWaits | ended
      · left
        intro noneWaits
        exact oneWaits (List.append_eq_nil_iff.mp noneWaits).1
      · exact Or.inr ended
  | aborted unfinished orderly => exact .aborted unfinished orderly
  | exhausted exhausted => exact .exhausted exhausted
  | failed exhausted => exact .failed exhausted

theorem isSound_enter
    {bootstrap : Bootstrap} (ready : bootstrap.IsReady) :
    (enter primitives bootstrap).IsSound primitives := by
  obtain ⟨stage, session⟩ := bootstrap
  cases stage with
  | requestingFragments start =>
      simp only [enter, ask]
      split
      · rename_i refused
        exact .aborted rfl (isOrderly_of_pageWithin refused)
      · exact .taking
  | verifyingFragments =>
      cases queued : session.queue with
      | nil => exact absurd queued (ready rfl)
      | cons fragment rest =>
          simp only [enter, dequeue, Session.dequeue, queued]
          exact .finalizing
  | downloadingRuntime =>
      simp only [enter, Stage.handle]
      cases downloaded : session.downloadRuntime with
      | mk outcome after =>
          cases outcome with
          | error failure => exact .aborted rfl (isOrderly_of_downloadRuntime downloaded)
          | ok => exact .succeeded fun _ requesting => by cases requesting
  | finished finish => exact .succeeded fun _ requesting => by cases requesting

theorem isSound_taken (session : Session) (start : Hash) (page : Page) :
    (proceed primitives ⟨⟨.requestingFragments start, session⟩, .taking page⟩).IsSound
      primitives := by
  simp only [proceed]
  cases taken : session.takePage page with
  | mk outcome after =>
      cases outcome with
      | error failure => exact .aborted rfl (isOrderly_of_takePage taken)
      | ok => exact .succeeded fun _ _ => Bootstrap.queue_or_pagesEnded_of_takePage taken

theorem isSound_finalized (session : Session) (fragment : Fragment) :
    (proceed primitives ⟨⟨.verifyingFragments, session⟩, .finalizing fragment⟩).IsSound
      primitives := by
  cases finalized : session.ledger.finalize primitives fragment with
  | error failure =>
      simp only [proceed, Session.accept_of_finalize_error finalized]
      rcases Ledger.isOrderly_or_isExhausted_of_finalize finalized with
        orderly | ⟨cause, rfl, exhausted⟩
      · exact .aborted rfl orderly
      · exact .exhausted exhausted
  | ok outcome =>
      obtain ⟨hasChanged, ledger⟩ := outcome
      obtain ⟨mailbox, accepted⟩ := Session.accept_of_finalize_ok finalized
      simp only [proceed, accepted]
      exact .succeeded fun _ requesting => by cases requesting

/-- The stage after a success is ready: fragments that wait are verified first. -/
theorem isSound_followed {stage : Stage} {session : Session} (hasNext : stage.HasNext session) :
    (proceed primitives ⟨⟨stage, session⟩, .choosing (.ok ())⟩).IsSound primitives := by
  cases stage with
  | requestingFragments start =>
      cases waiting : session.queue with
      | cons fragment rest =>
          simp only [proceed, Stage.next, afterSuccess_requestingFragments waiting]
          exact .resting_of_queue waiting
      | nil =>
          have ended : session.pagesEnded = true := by
            rcases hasNext start rfl with oneWaits | ended
            · exact absurd waiting oneWaits
            · exact ended
          have followed :
              Stage.afterSuccess session (.requestingFragments start) =
                .ok .downloadingRuntime := by
            simp [Stage.afterSuccess, waiting, ended]
          simp only [proceed, Stage.next, followed]
          exact .resting_of_ne (by simp)
  | verifyingFragments =>
      cases waiting : session.queue with
      | cons fragment rest =>
          simp only [proceed, Stage.next, afterSuccess_verifyingFragments waiting]
          exact .resting_of_queue waiting
      | nil =>
          simp only [proceed, Stage.next, afterSuccess_last_fragment waiting]
          apply IsSound.resting_of_ne
          rw [stageAfterPage]
          split <;> simp
  | downloadingRuntime => exact .resting_of_ne (by simp)
  | finished finish => exact .resting_of_ne (by simp)

theorem isSound_aborted
    {stage : Stage} {session : Session} {failure : Failure} (orderly : failure.IsOrderly) :
    (proceed primitives ⟨⟨stage, session⟩, .choosing (.error failure)⟩).IsSound primitives := by
  simp only [proceed, Stage.next, Stage.afterFailure, orderly.kept, Bool.false_eq_true, if_false]
  exact .resting_of_ne (by simp)

theorem IsSound.proceed
    {progress : Progress} (sound : progress.IsSound primitives) :
    (progress.proceed primitives).IsSound primitives := by
  cases sound with
  | resting ready => exact isSound_enter ready
  | taking => exact isSound_taken _ _ _
  | finalizing => exact isSound_finalized _ _
  | succeeded hasNext => exact isSound_followed hasNext
  | aborted _ orderly => exact isSound_aborted orderly
  | exhausted exhausted => exact .failed exhausted
  | failed exhausted => exact .failed exhausted

theorem IsSound.make
    {progress : Progress} (sound : progress.IsSound primitives) (move : Move) :
    (move.make primitives progress).IsSound primitives := by
  cases move with
  | proceed => exact sound.proceed
  | enqueue fragments => exact sound.enqueue fragments

theorem IsSound.makeAll
    {progress : Progress} (sound : progress.IsSound primitives) (moves : List Move) :
    (progress.makeAll primitives moves).IsSound primitives := by
  induction moves generalizing progress with
  | nil => exact sound
  | cons move moves inductionHypothesis => exact inductionHypothesis (sound.make move)

theorem IsSound.stage_make_of_finished
    {progress : Progress} (sound : progress.IsSound primitives) {finish : Finish}
    (ended : progress.bootstrap.stage = .finished finish) (move : Move) :
    (move.make primitives progress).bootstrap.stage = .finished finish := by
  cases move with
  | enqueue fragments => exact ended
  | proceed =>
      cases sound with
      | resting ready =>
          rename_i bootstrap
          simp only [Move.make, Progress.proceed, enter]
          dsimp only at ended
          rw [ended]
      | succeeded hasNext =>
          dsimp only at ended
          subst ended
          rfl
      | aborted unfinished orderly =>
          dsimp only at ended
          rw [ended] at unfinished
          cases unfinished
      | taking => cases ended
      | finalizing => cases ended
      | exhausted exhausted => cases ended
      | failed exhausted => cases ended

theorem IsSound.stage_makeAll_of_finished
    {progress : Progress} (sound : progress.IsSound primitives) {finish : Finish}
    (ended : progress.bootstrap.stage = .finished finish) (moves : List Move) :
    (progress.makeAll primitives moves).bootstrap.stage = .finished finish := by
  induction moves generalizing progress with
  | nil => exact ended
  | cons move moves inductionHypothesis =>
      exact inductionHypothesis (sound.make move) (sound.stage_make_of_finished ended move)

theorem IsSound.of_failure
    {progress : Progress} (sound : progress.IsSound primitives) {failure : Failure}
    (handled : progress.phase = .choosing (.error failure)) :
    failure ≠ .missingFragment ∧ failure.isInvariantViolation = false := by
  cases sound <;> cases handled
  · rename_i orderly
    refine ⟨orderly.present, ?_⟩
    cases failure with
    | invariant description => exact orderly.kept
    | _ => rfl
  · exact ⟨by simp, rfl⟩

theorem IsSound.of_failed
    {progress : Progress} (sound : progress.IsSound primitives) {failure : Failure}
    (failed : progress.phase = .failed failure) :
    ∃ cause,
      failure = .overflow cause ∧ progress.bootstrap.session.ledger.IsExhausted primitives := by
  cases sound <;> cases failed
  rename_i exhausted
  exact ⟨_, rfl, exhausted⟩

theorem IsSound.step_of_resting
    {progress : Progress} (sound : progress.IsSound primitives)
    (atRest : progress.phase = .resting) :
    (∃ next, progress.bootstrap.step primitives = (.ok (), next)) ∨
      progress.bootstrap.IsExhausted primitives := by
  cases sound <;> cases atRest
  rename_i bootstrap ready
  cases ended : bootstrap.stage.finish? with
  | none =>
      rcases ready.step ended with ⟨next, stepped, _⟩ | exhausted
      · exact Or.inl ⟨next, stepped⟩
      · exact Or.inr exhausted
  | some finish =>
      obtain ⟨stage, session⟩ := bootstrap
      cases stage <;> cases ended
      exact Or.inl ⟨⟨.finished finish, session⟩, rfl⟩

/-- Whatever sources answer and whenever the other holder appends to the queue, no stage fails for
want of a fragment or because of the order of the stages, and a step fails only with an overflow of
the set numbers.  So does a whole step between two appends.  A stage that is the end stays so. -/
theorem makeAll_noWiringFailure
    (primitives : Primitives) (session : Session) (moves : List Move) :
    let progress := (ofSession session).makeAll primitives moves
    (∀ failure,
      progress.phase = .choosing (.error failure) →
        failure ≠ .missingFragment ∧ failure.isInvariantViolation = false) ∧
    (∀ failure,
      progress.phase = .failed failure →
        ∃ cause,
          failure = .overflow cause ∧
            progress.bootstrap.session.ledger.IsExhausted primitives) ∧
    (progress.phase = .resting →
      (∃ next, progress.bootstrap.step primitives = (.ok (), next)) ∨
        progress.bootstrap.IsExhausted primitives) ∧
    ∀ finish,
      progress.bootstrap.stage = .finished finish →
        ∀ more, (progress.makeAll primitives more).bootstrap.stage = .finished finish := by
  intro progress
  have sound : progress.IsSound primitives :=
    (IsSound.resting (Bootstrap.IsReady.ofSession session)).makeAll moves
  refine ⟨?_, ?_, ?_, ?_⟩
  · intro failure handled
    exact sound.of_failure handled
  · intro failure failed
    exact sound.of_failed failed
  · intro atRest
    exact sound.step_of_resting atRest
  · intro finish ended more
    exact sound.stage_makeAll_of_finished ended more

end Progress

end FinalitySync.Sync
