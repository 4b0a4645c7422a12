import FinalitySync.Proofs.Sync.PageFold

/-!
# The stages refine the fold over pages

Running the stages from the head of a session with an empty queue ends as following the pages does.
The queue holds what is left of the current page, and the flag says whether that page is the last.
-/

namespace FinalitySync.Sync

variable {primitives : Primitives}

/-- The session without its queue, the flag, its settings and its mailbox. -/
def Session.books (session : Session) : Books where
  ledger := session.ledger
  fragments := session.fragments
  runtimes := session.runtimes
  isSynced := session.isSynced
  runtimeCode := session.runtimeCode

theorem Session.books_notify (session : Session) : session.notify.2.books = session.books := by
  obtain ⟨mailbox, notified⟩ := session.exists_mailbox_notify
  rw [notified]
  rfl

/-- How a run ended, with the books after it. -/
def observe (ended : Except Failure Finish × Session) : Except Failure Finish × Books :=
  (ended.1, ended.2.books)

namespace Bootstrap

theorem run_of_finished (session : Session) (finish : Finish) :
    (Bootstrap.mk (.finished finish) session).run primitives = (.ok finish, session) := by
  rw [run]
  split
  · rename_i found
    cases found
    rfl
  · rename_i unfinished
    cases unfinished

theorem run_of_step_ok
    {bootstrap next : Bootstrap}
    (unfinished : bootstrap.stage.finish? = none)
    (stepped : bootstrap.step primitives = (.ok (), next)) :
    bootstrap.run primitives = next.run primitives := by
  rw [run]
  split
  · rename_i found
    rw [unfinished] at found
    cases found
  · split
    · rename_i failed
      rw [stepped] at failed
      cases failed
    · rename_i steppedAgain
      cases stepped.symm.trans steppedAgain
      rfl

theorem run_of_step_error
    {bootstrap next : Bootstrap} {failure : Failure}
    (unfinished : bootstrap.stage.finish? = none)
    (failed : bootstrap.step primitives = (.error failure, next)) :
    bootstrap.run primitives = (.error failure, next.session) := by
  rw [run]
  split
  · rename_i found
    rw [unfinished] at found
    cases found
  · split
    · rename_i failedAgain
      cases failed.symm.trans failedAgain
      rfl
    · rename_i stepped
      rw [failed] at stepped
      cases stepped

variable {stage : Stage} {session after : Session}

theorem observe_run_of_failure
    {failure : Failure}
    (unfinished : stage.finish? = none)
    (handled : stage.handle primitives session = (.error failure, after)) :
    observe ((Bootstrap.mk stage session).run primitives) = after.books.abort failure := by
  cases passedOn : failure.isPassedOn with
  | true =>
      have stepped :
          (Bootstrap.mk stage session).step primitives = (.error failure, ⟨stage, after⟩) := by
        simp only [step, handled, Stage.next, Stage.afterFailure, passedOn, if_true]
      rw [run_of_step_error unfinished stepped, observe, Books.abort, passedOn]
      rfl
  | false =>
      let finish := Finish.aborted after.head.number failure.message
      have stepped :
          (Bootstrap.mk stage session).step primitives = (.ok (), ⟨.finished finish, after⟩) := by
        simp only [step, handled, Stage.next, Stage.afterFailure, passedOn, finish,
          Bool.false_eq_true, if_false]
      rw [run_of_step_ok unfinished stepped, run_of_finished, observe, Books.abort, passedOn]
      rfl

theorem run_of_success
    {next : Stage}
    (unfinished : stage.finish? = none)
    (handled : stage.handle primitives session = (.ok (), after))
    (followed : Stage.afterSuccess after stage = .ok next) :
    (Bootstrap.mk stage session).run primitives = (Bootstrap.mk next after).run primitives := by
  apply run_of_step_ok unfinished
  simp only [step, handled, Stage.next, followed]

end Bootstrap

theorem settle_eq (session : Session) :
    session.books.settle =
      match session.loadRuntimeCode with
      | (.error failure, after) => after.books.abort failure
      | (.ok code, after) => after.books.complete code := by
  cases saved : session.ledger.store.get? .runtimeCode with
  | some code =>
      simp only [Books.settle, Session.books, Session.loadRuntimeCode, saved]
  | none =>
      cases fetched : (session.runtimes.ask (session.head.hash, session.head.stateRoot)).1 with
      | error reason =>
          have asked :
              (session.runtimes.ask (session.ledger.head.hash, session.ledger.head.stateRoot)).1 =
                .error reason := fetched
          simp only [Books.settle, Session.books, Session.loadRuntimeCode, saved, fetched, asked]
          rfl
      | ok code =>
          have asked :
              (session.runtimes.ask (session.ledger.head.hash, session.ledger.head.stateRoot)).1 =
                .ok code := fetched
          simp only [Books.settle, Session.books, Session.loadRuntimeCode, saved, fetched, asked]
          rfl

theorem observe_run_downloadingRuntime (session : Session) :
    observe ((Bootstrap.mk .downloadingRuntime session).run primitives) =
      session.books.settle := by
  rw [settle_eq]
  cases loaded : session.loadRuntimeCode with
  | mk outcome after =>
      cases outcome with
      | error failure =>
          have handled :
              Stage.downloadingRuntime.handle primitives session = (.error failure, after) := by
            rw [Stage.handle, Session.downloadRuntime, loaded]
          exact Bootstrap.observe_run_of_failure rfl handled
      | ok code =>
          let completed : Session := { after with
            ledger := { after.ledger with store := after.ledger.store.put .isSynced true }
            runtimeCode := some code
            isSynced := true }
          have handled :
              Stage.downloadingRuntime.handle primitives session =
                (.ok (), completed.notify.2) := by
            rw [Stage.handle, Session.downloadRuntime, loaded]
          rw [Bootstrap.run_of_success rfl handled rfl, Bootstrap.run_of_finished, observe,
            Session.books_notify, Session.head_notify]
          rfl

def stageAfterPage (session : Session) : Stage :=
  if session.pagesEnded then .downloadingRuntime else .requestingFragments session.head.hash

theorem afterSuccess_verifyingFragments
    {session : Session} {fragment : Fragment} {rest : List Fragment}
    (queued : session.queue = fragment :: rest) :
    Stage.afterSuccess session .verifyingFragments = .ok .verifyingFragments := by
  simp [Stage.afterSuccess, queued]

theorem afterSuccess_last_fragment
    {session : Session} (queued : session.queue = []) :
    Stage.afterSuccess session .verifyingFragments = .ok (stageAfterPage session) := by
  cases ended : session.pagesEnded <;> simp [Stage.afterSuccess, stageAfterPage, queued, ended]

/-- A fragment that becomes final leaves the queue, and the run goes on with the rest. -/
theorem run_verifyingFragments_of_finalize
    {session : Session} {fragment : Fragment} {rest : List Fragment}
    {hasChanged : Bool} {ledger : Ledger}
    (queued : session.queue = fragment :: rest)
    (finalized : session.ledger.finalize primitives fragment = .ok (hasChanged, ledger)) :
    ∃ mailbox,
      let after := { session with ledger := ledger, mailbox := mailbox, queue := rest }
      ∀ next,
        Stage.afterSuccess after .verifyingFragments = .ok next →
          (Bootstrap.mk .verifyingFragments session).run primitives =
            (Bootstrap.mk next after).run primitives := by
  obtain ⟨mailbox, verified⟩ := Session.verifyNext_of_finalize_ok queued finalized
  have handled :
      Stage.verifyingFragments.handle primitives session =
        (.ok (), { session with ledger := ledger, mailbox := mailbox, queue := rest }) :=
    verified
  exact ⟨mailbox, fun next followed => Bootstrap.run_of_success rfl handled followed⟩

/-- A fragment that is refused aborts the run with the fragments before it finalized. -/
theorem observe_run_verifyingFragments_of_refused
    {fragments : List Fragment} {session : Session} {failure : Failure} {ledger : Ledger}
    (queued : session.queue = fragments)
    (refused : session.ledger.finalizeAll primitives fragments = (.error failure, ledger)) :
    observe ((Bootstrap.mk .verifyingFragments session).run primitives) =
      { session.books with ledger := ledger }.abort failure := by
  induction fragments generalizing session with
  | nil => cases refused
  | cons fragment rest inductionHypothesis =>
      cases finalized : session.ledger.finalize primitives fragment with
      | error cause =>
          rw [Ledger.finalizeAll_cons_of_error finalized] at refused
          cases refused
          have handled :
              Stage.verifyingFragments.handle primitives session =
                (.error failure, { session with queue := rest }) :=
            Session.verifyNext_of_finalize_error queued finalized
          rw [Bootstrap.observe_run_of_failure rfl handled]
          rfl
      | ok outcome =>
          obtain ⟨hasChanged, next⟩ := outcome
          rw [Ledger.finalizeAll_cons_of_ok finalized] at refused
          obtain ⟨mailbox, goesOn⟩ := run_verifyingFragments_of_finalize queued finalized
          cases rest with
          | nil => cases refused
          | cons second rest =>
              rw [goesOn _ (afterSuccess_verifyingFragments rfl)]
              exact inductionHypothesis rfl refused

/-- Once all fragments of a page are final the page is left behind. -/
theorem run_verifyingFragments_of_finalized
    {fragments : List Fragment} {session : Session} {ledger : Ledger}
    (nonempty : fragments ≠ [])
    (queued : session.queue = fragments)
    (finalizedAll : session.ledger.finalizeAll primitives fragments = (.ok (), ledger)) :
    ∃ mailbox,
      let after := { session with ledger := ledger, mailbox := mailbox, queue := [] }
      (Bootstrap.mk .verifyingFragments session).run primitives =
        (Bootstrap.mk (stageAfterPage after) after).run primitives := by
  induction fragments generalizing session with
  | nil => exact absurd rfl nonempty
  | cons fragment rest inductionHypothesis =>
      cases finalized : session.ledger.finalize primitives fragment with
      | error cause =>
          rw [Ledger.finalizeAll_cons_of_error finalized] at finalizedAll
          cases finalizedAll
      | ok outcome =>
          obtain ⟨hasChanged, next⟩ := outcome
          rw [Ledger.finalizeAll_cons_of_ok finalized] at finalizedAll
          obtain ⟨mailbox, goesOn⟩ := run_verifyingFragments_of_finalize queued finalized
          cases rest with
          | nil =>
              cases finalizedAll
              exact ⟨mailbox, goesOn _ (afterSuccess_last_fragment rfl)⟩
          | cons second rest =>
              rw [goesOn _ (afterSuccess_verifyingFragments rfl)]
              exact inductionHypothesis (List.cons_ne_nil second rest) rfl finalizedAll

section Request

variable {session : Session} {start : Hash}

theorem handle_requestingFragments_of_no_page
    {failure : Failure}
    (refused :
      Session.pageWithin session.settings.requestTimeout (session.fragments.ask start).1 =
        .error failure) :
    (Stage.requestingFragments start).handle primitives session =
      (.error failure, { session with fragments := (session.fragments.ask start).2 }) := by
  simp only [Stage.handle, Session.requestFragments, refused]

theorem afterSuccess_requestingFragments
    {fragment : Fragment} {rest : List Fragment} (waiting : session.queue = fragment :: rest) :
    Stage.afterSuccess session (.requestingFragments start) = .ok .verifyingFragments := by
  simp [Stage.afterSuccess, waiting]

/-- The session that has taken a page into its empty queue. -/
def withPage (session : Session) (start : Hash) (page : Page) : Session :=
  { session with
    fragments := (session.fragments.ask start).2
    pagesEnded := page.isFinished
    queue := page.fragments }

variable {page : Page}
variable
  (arrived :
    Session.pageWithin session.settings.requestTimeout (session.fragments.ask start).1 =
      .ok page)
variable (queued : session.queue = [])

include arrived queued

theorem handle_requestingFragments_of_empty_page
    (isEmpty : page.fragments = []) (isOpen : page.isFinished = false) :
    (Stage.requestingFragments start).handle primitives session =
      (.error .emptyPage, withPage session start page) := by
  simp only [Stage.handle, Session.requestFragments, arrived, Session.takePage, isEmpty, isOpen,
    withPage, queued, List.isEmpty_nil, Bool.not_false, Bool.and_self, if_true]

theorem handle_requestingFragments_of_page
    (useful : page.fragments ≠ [] ∨ page.isFinished = true) :
    (Stage.requestingFragments start).handle primitives session =
      (.ok (), withPage session start page) := by
  have notRefused : (page.fragments.isEmpty && !page.isFinished) = false := by
    rcases useful with nonempty | isFinished
    · simp [nonempty]
    · simp [isFinished]
  simp only [Stage.handle, Session.requestFragments, arrived, Session.takePage, notRefused,
    Session.enqueue, withPage, queued, List.nil_append, Bool.false_eq_true, if_false]

/-- A page with a fragment that is refused aborts the run. -/
theorem observe_run_of_refused_page
    {failure : Failure} {ledger : Ledger}
    (refused :
      session.ledger.finalizeAll primitives page.fragments = (.error failure, ledger)) :
    observe ((Bootstrap.mk (.requestingFragments start) session).run primitives) =
      { session.books.afterAsking start with ledger := ledger }.abort failure := by
  cases fragments : page.fragments with
  | nil =>
      rw [fragments] at refused
      cases refused
  | cons fragment rest =>
      have useful : page.fragments ≠ [] ∨ page.isFinished = true := by
        rw [fragments]
        exact Or.inl (List.cons_ne_nil fragment rest)
      have handled :
          (Stage.requestingFragments start).handle primitives session =
            (.ok (), withPage session start page) :=
        handle_requestingFragments_of_page arrived queued useful
      rw [Bootstrap.run_of_success rfl handled (afterSuccess_requestingFragments fragments),
        observe_run_verifyingFragments_of_refused rfl refused]
      rfl

/-- A page whose fragments all become final is left behind. -/
theorem run_of_finalized_page
    {ledger : Ledger}
    (useful : page.fragments ≠ [] ∨ page.isFinished = true)
    (finalizedAll : session.ledger.finalizeAll primitives page.fragments = (.ok (), ledger)) :
    ∃ mailbox,
      let after :=
        { withPage session start page with ledger := ledger, mailbox := mailbox, queue := [] }
      (Bootstrap.mk (.requestingFragments start) session).run primitives =
        (Bootstrap.mk (stageAfterPage after) after).run primitives := by
  have handled :
      (Stage.requestingFragments start).handle primitives session =
        (.ok (), withPage session start page) :=
    handle_requestingFragments_of_page arrived queued useful
  cases fragments : page.fragments with
  | nil =>
      have isFinished : page.isFinished = true := by
        rcases useful with nonempty | isFinished
        · exact absurd fragments nonempty
        · exact isFinished
      have followed :
          Stage.afterSuccess (withPage session start page) (.requestingFragments start) =
            .ok .downloadingRuntime := by
        simp [Stage.afterSuccess, withPage, fragments, isFinished]
      rw [fragments] at finalizedAll
      cases finalizedAll
      refine ⟨session.mailbox, ?_⟩
      rw [Bootstrap.run_of_success rfl handled followed]
      simp [stageAfterPage, withPage, fragments, isFinished]
  | cons fragment rest =>
      have nonempty : page.fragments ≠ [] := by
        rw [fragments]
        exact List.cons_ne_nil fragment rest
      rw [Bootstrap.run_of_success rfl handled (afterSuccess_requestingFragments fragments)]
      exact run_verifyingFragments_of_finalized nonempty rfl finalizedAll

theorem observe_run_of_last_page
    {ledger : Ledger}
    (isFinished : page.isFinished = true)
    (finalizedAll : session.ledger.finalizeAll primitives page.fragments = (.ok (), ledger)) :
    observe ((Bootstrap.mk (.requestingFragments start) session).run primitives) =
      session.books.follow primitives session.settings.requestTimeout start := by
  obtain ⟨mailbox, left⟩ := run_of_finalized_page arrived queued (Or.inr isFinished) finalizedAll
  let after : Session :=
    { withPage session start page with ledger := ledger, mailbox := mailbox, queue := [] }
  have stage : stageAfterPage after = .downloadingRuntime := if_pos isFinished
  have booked :
      session.books.ledger.finalizeAll primitives page.fragments = (.ok (), ledger) :=
    finalizedAll
  calc
    observe ((Bootstrap.mk (.requestingFragments start) session).run primitives)
    _ = observe ((Bootstrap.mk (stageAfterPage after) after).run primitives) :=
        congrArg observe left
    _ = observe ((Bootstrap.mk .downloadingRuntime after).run primitives) := by
        rw [stage]
    _ = after.books.settle := observe_run_downloadingRuntime after
    _ = session.books.follow primitives session.settings.requestTimeout start :=
        (Books.follow_of_last_page arrived isFinished booked).symm

/-- After a page that is not the last one, both the stages and the fold go on from its last
block. -/
theorem observe_run_of_open_page
    {ledger : Ledger}
    (nonempty : page.fragments ≠ []) (isOpen : page.isFinished = false)
    (finalizedAll : session.ledger.finalizeAll primitives page.fragments = (.ok (), ledger)) :
    ∃ after : Session,
      session.head.number < after.head.number ∧
        after.queue = [] ∧
        observe ((Bootstrap.mk (.requestingFragments start) session).run primitives) =
          observe ((Bootstrap.mk (.requestingFragments after.head.hash) after).run primitives) ∧
        session.books.follow primitives session.settings.requestTimeout start =
          after.books.follow primitives after.settings.requestTimeout after.head.hash := by
  obtain ⟨mailbox, left⟩ := run_of_finalized_page arrived queued (Or.inl nonempty) finalizedAll
  let after : Session :=
    { withPage session start page with ledger := ledger, mailbox := mailbox, queue := [] }
  have stillOpen : ¬ after.pagesEnded = true := by
    rw [Bool.not_eq_true]
    exact isOpen
  have stage : stageAfterPage after = .requestingFragments after.head.hash := if_neg stillOpen
  have booked :
      session.books.ledger.finalizeAll primitives page.fragments = (.ok (), ledger) :=
    finalizedAll
  obtain ⟨raised, followed⟩ := Books.follow_of_open_page arrived isOpen nonempty booked
  refine ⟨after, raised, rfl, ?_, followed⟩
  rw [← stage]
  exact congrArg observe left

end Request

/-! ## Following the pages -/

/-- A run from a request with an empty queue ends as following the pages does. -/
theorem observe_run_requestingFragments
    (session : Session) (queued : session.queue = []) (start : Hash) :
    observe ((Bootstrap.mk (.requestingFragments start) session).run primitives) =
      session.books.follow primitives session.settings.requestTimeout start := by
  -- Between two requests the head rises, so its distance from the last block number decreases.
  induction distance : Bootstrap.distance session using Nat.strongRecOn
    generalizing session start with
  | ind bound inductionHypothesis =>
      cases arrived :
          Session.pageWithin session.settings.requestTimeout (session.fragments.ask start).1 with
      | error failure =>
          rw [Bootstrap.observe_run_of_failure rfl
              (handle_requestingFragments_of_no_page arrived),
            Books.follow_of_no_page arrived]
          rfl
      | ok page =>
          by_cases useful : page.fragments ≠ [] ∨ page.isFinished = true
          · cases finalizedAll : session.ledger.finalizeAll primitives page.fragments with
            | mk outcome ledger =>
                cases outcome with
                | error failure =>
                    rw [observe_run_of_refused_page arrived queued finalizedAll,
                      Books.follow_of_refused_fragment arrived finalizedAll]
                | ok =>
                    cases ended : page.isFinished with
                    | true =>
                        exact observe_run_of_last_page arrived queued ended finalizedAll
                    | false =>
                        have nonempty : page.fragments ≠ [] := by
                          rcases useful with nonempty | isFinished
                          · exact nonempty
                          · rw [ended] at isFinished
                            cases isFinished
                        obtain ⟨after, raised, emptied, left, followed⟩ :=
                          observe_run_of_open_page arrived queued nonempty ended finalizedAll
                        have nearer : Bootstrap.distance after < bound := by
                          rw [← distance]
                          exact Bootstrap.distance_lt_of_number_lt raised
                        have later :=
                          inductionHypothesis _ nearer after emptied after.head.hash rfl
                        rw [left, later, followed]
          · rw [not_or, not_not, Bool.not_eq_true] at useful
            rw [Bootstrap.observe_run_of_failure rfl
                (handle_requestingFragments_of_empty_page arrived queued useful.1 useful.2),
              Books.follow_of_empty_page arrived useful.2 useful.1]
            rfl

/-- Synchronisation from any store and any checkpoint, with any sources, ends as the fold over the
pages from the head does: with the same end, ledger, runtime code and requests.  It names the last
final block, and nothing but an overflow of set numbers is passed on. -/
theorem Bootstrap.run_ofSession_eq_follow
    (primitives : Primitives) (settings : Settings) (store : Store)
    (fragments : FragmentSource) (runtimes : RuntimeSource)
    (checkpoint : Checkpoint) (mailbox : Option Mailbox) :
    let session := Session.start settings store fragments runtimes checkpoint mailbox
    let ended := observe ((Bootstrap.ofSession session).run primitives)
    ended = session.books.follow primitives settings.requestTimeout session.head.hash ∧
      Books.EndsOrderly ended := by
  intro session ended
  have followed :
      ended = session.books.follow primitives settings.requestTimeout session.head.hash :=
    observe_run_requestingFragments session rfl session.head.hash
  refine ⟨followed, ?_⟩
  rw [followed]
  exact Books.EndsOrderly.follow primitives settings.requestTimeout session.books session.head.hash

end FinalitySync.Sync
