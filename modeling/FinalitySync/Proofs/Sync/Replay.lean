import FinalitySync.Proofs.Sync.Neighbours

/-!
# Commits that come again

A commit of a block up to the head is passed over.  Whenever it comes, every other request has the
answer that it has without it, and the session after it is the same.  A block past the head is
imported as it would be verified from an empty queue.
-/

namespace FinalitySync.Sync

namespace Session

variable {primitives : Primitives} {session : Session} {fragment : Fragment}

theorem importCommit_of_lt (pastHead : session.head.number < fragment.header.number) :
    session.importCommit primitives fragment =
      match session.accept primitives fragment with
      | .error failure => (.error failure, session)
      | .ok accepted => (.ok true, accepted) := by
  have isPast : session.head.isExtendedBy fragment.header.number = true := decide_eq_true pastHead
  cases accepted : session.accept primitives fragment with
  | error failure => rw [importCommit, if_pos isPast, accepted]
  | ok next => rw [importCommit, if_pos isPast, accepted]

/-- A fragment that is put into an empty queue is taken out again at once. -/
theorem verifyNext_enqueue (noneWaits : session.queue = []) (fragment : Fragment) :
    (session.enqueue [fragment]).verifyNext primitives =
      match session.accept primitives fragment with
      | .error failure => (.error failure, session)
      | .ok accepted => (.ok (), accepted) := by
  have taken : (session.enqueue [fragment]).dequeue = some (fragment, session) := by
    cases session
    cases noneWaits
    rfl
  cases accepted : session.accept primitives fragment with
  | error failure => simp only [verifyNext, taken, accepted]
  | ok next => simp only [verifyNext, taken, accepted]

theorem accept_of_le (behind : fragment.header.number ≤ session.head.number) :
    session.accept primitives fragment =
      .error (.stale ⟨fragment.header.number, session.head.number⟩) :=
  accept_of_finalize_error (Ledger.finalize_of_refuses (.stale behind))

/-- Verifying a block from an empty queue and importing it come to the same if it is past the head.
If it is not, verification fails, import passes it over, and the session is as it was. -/
structure TreatsAlike (primitives : Primitives) (session : Session) (fragment : Fragment) :
    Prop where
  sameSession :
    session.head.number < fragment.header.number →
      ((session.enqueue [fragment]).verifyNext primitives).2 =
        (session.importCommit primitives fragment).2
  succeeds_iff :
    session.head.number < fragment.header.number →
      (((session.enqueue [fragment]).verifyNext primitives).1 = .ok () ↔
        (session.importCommit primitives fragment).1 = .ok true)
  fails_iff :
    session.head.number < fragment.header.number →
      ∀ failure,
        ((session.enqueue [fragment]).verifyNext primitives).1 = .error failure ↔
          (session.importCommit primitives fragment).1 = .error failure
  notVerified :
    fragment.header.number ≤ session.head.number →
      (session.enqueue [fragment]).verifyNext primitives =
        (.error (.stale ⟨fragment.header.number, session.head.number⟩), session)
  passedOver :
    fragment.header.number ≤ session.head.number →
      session.importCommit primitives fragment = (.ok false, session)

theorem treatsAlike (noneWaits : session.queue = []) (fragment : Fragment) :
    session.TreatsAlike primitives fragment where
  sameSession := by
    intro pastHead
    rw [verifyNext_enqueue noneWaits, importCommit_of_lt pastHead]
    cases session.accept primitives fragment <;> rfl
  succeeds_iff := by
    intro pastHead
    rw [verifyNext_enqueue noneWaits, importCommit_of_lt pastHead]
    cases session.accept primitives fragment <;> simp
  fails_iff := by
    intro pastHead failure
    rw [verifyNext_enqueue noneWaits, importCommit_of_lt pastHead]
    cases session.accept primitives fragment <;> simp
  notVerified := by
    intro behind
    rw [verifyNext_enqueue noneWaits, accept_of_le behind]
  passedOver := importCommit_of_le

/-! ## Requests after synchronisation -/

/-- A reader takes so many messages out of the mailbox, or all if there are fewer. -/
def readMessages (session : Session) (count : Nat) : List NeighbourMessage × Session :=
  match session.mailbox with
  | none => ([], session)
  | some mailbox =>
      (mailbox.queued.take count, { session with mailbox := some (mailbox.dropFront count) })

theorem head_readMessages (session : Session) (count : Nat) :
    (session.readMessages count).2.head = session.head := by
  unfold readMessages
  split <;> rfl

end Session

inductive Request
  | importCommit (fragment : Fragment)
  | readMessages (count : Nat)

inductive Answer
  | imported (result : Except Failure Bool)
  | messages (taken : List NeighbourMessage)

/-- The answer to a request and the session after it. -/
def Request.answer (primitives : Primitives) (session : Session) : Request → Answer × Session
  | .importCommit fragment =>
      let (result, after) := session.importCommit primitives fragment
      (.imported result, after)
  | .readMessages count =>
      let (taken, after) := session.readMessages count
      (.messages taken, after)

namespace Session

/-- The answers to requests that come one after the other, each with the session after it. -/
def answers (primitives : Primitives) (session : Session) : List Request → List (Answer × Session)
  | [] => []
  | request :: requests =>
      let answered := request.answer primitives session
      answered :: answered.2.answers primitives requests

/-- The session after some requests. -/
def afterAll (primitives : Primitives) (session : Session) (requests : List Request) : Session :=
  requests.foldl (fun current request => (request.answer primitives current).2) session

variable {primitives : Primitives} {session : Session}

theorem afterAll_append
    (primitives : Primitives) (session : Session) (earlier later : List Request) :
    session.afterAll primitives (earlier ++ later) =
      (session.afterAll primitives earlier).afterAll primitives later :=
  List.foldl_append

/-- A commit that is passed over has its own answer and no influence on any other. -/
theorem answers_insert_of_le
    {earlier : List Request} {fragment : Fragment}
    (behind : fragment.header.number ≤ (session.afterAll primitives earlier).head.number)
    (later : List Request) :
    session.answers primitives (earlier ++ .importCommit fragment :: later) =
      (session.answers primitives (earlier ++ later)).insertIdx earlier.length
        (.imported (.ok false), session.afterAll primitives earlier) := by
  induction earlier generalizing session with
  | nil =>
      have isBehind : fragment.header.number ≤ session.head.number := behind
      have answered :
          (Request.importCommit fragment).answer primitives session =
            (.imported (.ok false), session) := by
        rw [Request.answer, importCommit_of_le isBehind]
      rw [List.nil_append, List.nil_append, answers, answered]
      rfl
  | cons request earlier inductionHypothesis =>
      rw [List.cons_append, List.cons_append, answers, answers, List.length_cons,
        List.insertIdx_succ_cons]
      exact congrArg _ (inductionHypothesis behind)

/-- The step: no request lowers the head. -/
theorem head_number_le_answer (primitives : Primitives) (session : Session) (request : Request) :
    session.head.number ≤ (request.answer primitives session).2.head.number := by
  cases request with
  | importCommit fragment =>
      exact
        ((Operation.importCommit fragment).precedes_perform primitives session).lastFinalized
  | readMessages count =>
      have sameHead := session.head_readMessages count
      rw [Request.answer, sameHead]
      exact UInt32.le_refl _

/-- The run: no requests do. -/
theorem head_number_le_afterAll
    (primitives : Primitives) (session : Session) (requests : List Request) :
    session.head.number ≤ (session.afterAll primitives requests).head.number := by
  induction requests generalizing session with
  | nil => exact UInt32.le_refl _
  | cons request requests inductionHypothesis =>
      exact
        UInt32.le_trans (head_number_le_answer primitives session request)
          (inductionHypothesis (request.answer primitives session).2)

/-- The head is no lower than a block that was imported before. -/
theorem number_le_of_imported
    {earlier between : List Request} {fragment : Fragment}
    (imported :
      ((session.afterAll primitives earlier).importCommit primitives fragment).1 = .ok true) :
    fragment.header.number ≤
      (session.afterAll primitives
        (earlier ++ .importCommit fragment :: between)).head.number := by
  have accepts :
      (Operation.importCommit fragment).Accepts primitives (session.afterAll primitives earlier)
        fragment := .importCommit imported
  have isHead := congrArg Head.number accepts.head_perform
  have notLower :=
    head_number_le_afterAll primitives
      ((Operation.importCommit fragment).perform primitives (session.afterAll primitives earlier))
      between
  rw [isHead] at notLower
  rw [afterAll_append]
  exact notLower

/-- A commit of a block that is not past the head, as every block is that was imported before,
changes no answer and no session but by its own answer in between.  And a block is verified from an
empty queue as it is imported. -/
theorem replays_arePassedOver_and_pathsAgree (primitives : Primitives) (session : Session) :
    (∀ (earlier later : List Request) (fragment : Fragment),
      fragment.header.number ≤ (session.afterAll primitives earlier).head.number →
        session.answers primitives (earlier ++ .importCommit fragment :: later) =
          (session.answers primitives (earlier ++ later)).insertIdx earlier.length
            (.imported (.ok false), session.afterAll primitives earlier)) ∧
      (∀ (earlier between : List Request) (fragment again : Fragment),
        ((session.afterAll primitives earlier).importCommit primitives fragment).1 = .ok true →
          again.header = fragment.header →
            again.header.number ≤
              (session.afterAll primitives
                (earlier ++ .importCommit fragment :: between)).head.number) ∧
      (session.queue = [] → ∀ fragment, session.TreatsAlike primitives fragment) := by
  refine ⟨?_, ?_, fun noneWaits => treatsAlike noneWaits⟩
  · intro earlier later fragment behind
    exact answers_insert_of_le behind later
  · intro earlier between fragment again imported sameHeader
    rw [sameHeader]
    exact number_le_of_imported imported

/-- The first block comes again with the justification of a later round, before the second. -/
theorem replays_arePassedOver_and_pathsAgree_relay :
    (Handover.session.importCommit .standard Relay.first).1 = .ok true ∧
      Handover.session.answers .standard
          [.importCommit Relay.first, .importCommit Relay.firstAgain,
            .importCommit Relay.second] =
        (Handover.session.answers .standard
          [.importCommit Relay.first, .importCommit Relay.second]).insertIdx 1
            (.imported (.ok false),
              Handover.session.afterAll .standard [.importCommit Relay.first]) ∧
      Handover.session.queue = [] ∧
      ((Handover.session.enqueue [Relay.first]).verifyNext .standard).1 = .ok () := by
  have imported : (Handover.session.importCommit .standard Relay.first).1 = .ok true := by
    cases Relay.imports_first with
    | importCommit succeeded => exact succeeded
  obtain ⟨passesOver, isBehind, agrees⟩ :=
    replays_arePassedOver_and_pathsAgree .standard Handover.session
  have behind := isBehind [] [] Relay.first Relay.firstAgain imported rfl
  rw [List.nil_append] at behind
  have noneWaits : Handover.session.queue = [] := rfl
  have pastHead : Handover.session.head.number < Relay.first.header.number :=
    Relay.accepts_first.extendsHead
  have alike := agrees noneWaits Relay.first
  refine ⟨imported, ?_, noneWaits, (alike.succeeds_iff pastHead).mpr imported⟩
  have passed :=
    passesOver [.importCommit Relay.first] [.importCommit Relay.second] Relay.firstAgain behind
  rw [List.singleton_append, List.singleton_append, List.length_singleton] at passed
  exact passed

end Session

end FinalitySync.Sync
