import FinalitySync.Proofs.Sync.Neighbours
import FinalitySync.Proofs.Sync.Refinement

/-!
# Neighbours have no say

Two sessions that differ in their mailboxes at most are asked for the same.  Whatever becomes of
the mailboxes meanwhile, they answer the same, offer the same and differ in nothing else afterwards.
What is offered while nobody reads goes behind what waits, as long as there is room.
-/

namespace FinalitySync

namespace Mailbox

/-- How many more messages are taken while nobody reads. -/
def room (mailbox : Mailbox) : Nat :=
  if mailbox.hasReader then mailbox.capacity - mailbox.queued.length else 0

def sendAll (mailbox : Mailbox) (messages : List NeighbourMessage) : Mailbox :=
  messages.foldl send mailbox

theorem accepts_iff {mailbox : Mailbox} : mailbox.accepts = true ↔ 0 < mailbox.room := by
  rw [accepts, room, Bool.and_eq_true, decide_eq_true_iff]
  cases mailbox.hasReader with
  | true => simp
  | false => simp

theorem room_send_of_accepts
    {mailbox : Mailbox} (accepted : mailbox.accepts = true) (message : NeighbourMessage) :
    (mailbox.send message).room = mailbox.room - 1 := by
  rw [send, if_pos accepted, room, room, List.length_append, List.length_singleton]
  cases mailbox.hasReader with
  | true => exact Nat.sub_add_eq _ _ _
  | false => rfl

/-- The first messages are taken, as many as there is room for, and those that waited stay. -/
theorem sendAll_eq (mailbox : Mailbox) (messages : List NeighbourMessage) :
    mailbox.sendAll messages =
      { mailbox with queued := mailbox.queued ++ messages.take mailbox.room } := by
  induction messages generalizing mailbox with
  | nil => rw [List.take_nil, List.append_nil, sendAll, List.foldl_nil]
  | cons message messages inductionHypothesis =>
      have sent := inductionHypothesis (mailbox.send message)
      rw [sendAll, List.foldl_cons, ← sendAll, sent]
      by_cases accepted : mailbox.accepts = true
      · obtain ⟨less, room⟩ := Nat.exists_eq_add_one.mpr (accepts_iff.mp accepted)
        rw [room_send_of_accepts accepted, send, if_pos accepted, room, List.take_succ_cons]
        simp
      · have noRoom : mailbox.room = 0 := Nat.eq_zero_of_not_pos (mt accepts_iff.mpr accepted)
        rw [send, if_neg accepted, noRoom, List.take_zero, List.take_zero]

end Mailbox

namespace Sync

variable {primitives : Primitives}

namespace Session

/-- The session without its mailbox. -/
def muted (session : Session) : Session := { session with mailbox := none }

variable {session : Session}

theorem muted_notify (session : Session) : session.notify.2.muted = session.muted := by
  obtain ⟨mailbox, notified⟩ := session.exists_mailbox_notify
  rw [notified]
  rfl

theorem requestFragments_muted (session : Session) (start : Hash) :
    session.muted.requestFragments start = (session.requestFragments start).map id muted := by
  simp only [requestFragments, takePage, muted]
  split
  · rfl
  · split <;> rfl

theorem accepting_muted (session : Session) (hasChanged : Bool) (next : Ledger) :
    session.muted.accepting hasChanged next = (session.accepting hasChanged next).muted := by
  rw [accepting, accepting]
  by_cases isTold : (hasChanged && session.isSynced) = true
  · rw [if_pos isTold, muted_notify]
    exact if_pos isTold
  · rw [if_neg isTold]
    exact if_neg isTold

theorem accept_muted (primitives : Primitives) (session : Session) (fragment : Fragment) :
    session.muted.accept primitives fragment =
      (session.accept primitives fragment).map muted := by
  cases finalized : session.ledger.finalize primitives fragment with
  | error failure =>
      have refusedMuted : session.muted.accept primitives fragment = .error failure :=
        accept_of_finalize_error finalized
      rw [refusedMuted, accept_of_finalize_error finalized]
      rfl
  | ok outcome =>
      obtain ⟨hasChanged, next⟩ := outcome
      have acceptedMuted :
          session.muted.accept primitives fragment =
            .ok (session.muted.accepting hasChanged next) :=
        accept_eq finalized
      rw [acceptedMuted, accept_eq finalized, accepting_muted]
      rfl

theorem verifyNext_muted (primitives : Primitives) (session : Session) :
    session.muted.verifyNext primitives = (session.verifyNext primitives).map id muted := by
  cases queued : session.queue with
  | nil =>
      have queuedMuted : session.muted.queue = [] := queued
      have sameEnd : session.muted.pagesEnded = session.pagesEnded := rfl
      simp only [verifyNext, dequeue, queued, queuedMuted, sameEnd]
      split <;> rfl
  | cons fragment rest =>
      have accepted := accept_muted primitives { session with queue := rest } fragment
      simp only [verifyNext, dequeue, muted, queued] at accepted ⊢
      rw [accepted]
      cases accept primitives { session with queue := rest } fragment <;> rfl

theorem loadRuntimeCode_muted (session : Session) :
    session.muted.loadRuntimeCode = session.loadRuntimeCode.map id muted := by
  simp only [loadRuntimeCode, muted, head]
  split
  · rfl
  · split <;> rfl

theorem downloadRuntime_muted (session : Session) :
    session.muted.downloadRuntime = session.downloadRuntime.map id muted := by
  rw [downloadRuntime, downloadRuntime, loadRuntimeCode_muted]
  rcases session.loadRuntimeCode with ⟨failure | code, loaded⟩
  · rfl
  · simp only [Prod.map, muted_notify]
    rfl

theorem importCommit_muted
    (primitives : Primitives) (session : Session) (fragment : Fragment) :
    session.muted.importCommit primitives fragment =
      (session.importCommit primitives fragment).map id muted := by
  rw [importCommit, importCommit, accept_muted]
  by_cases extendsHead : session.head.isExtendedBy fragment.header.number = true
  · rw [if_pos extendsHead]
    refine (if_pos extendsHead).trans ?_
    cases session.accept primitives fragment <;> rfl
  · rw [if_neg extendsHead]
    exact if_neg extendsHead

end Session

/-- What the caller is told of an operation. -/
inductive Report
  | ended (outcome : Except Failure Unit)
  | imported (outcome : Except Failure Bool)

namespace Operation

/-- An operation that cannot fail tells nothing. -/
def report? (primitives : Primitives) (session : Session) : Operation → Option Report
  | .enqueue _ => none
  | .requestFragments start => some (.ended (session.requestFragments start).1)
  | .verifyNext => some (.ended (session.verifyNext primitives).1)
  | .downloadRuntime => some (.ended session.downloadRuntime.1)
  | .importCommit fragment => some (.imported (session.importCommit primitives fragment).1)

variable (primitives : Primitives) (session : Session) (operation : Operation)

theorem report?_muted :
    operation.report? primitives session.muted = operation.report? primitives session := by
  cases operation with
  | enqueue fragments => rfl
  | requestFragments start =>
      rw [report?, session.requestFragments_muted]
      rfl
  | verifyNext =>
      rw [report?, session.verifyNext_muted]
      rfl
  | downloadRuntime =>
      rw [report?, session.downloadRuntime_muted]
      rfl
  | importCommit fragment =>
      rw [report?, session.importCommit_muted]
      rfl

theorem perform_muted :
    operation.perform primitives session.muted = (operation.perform primitives session).muted := by
  cases operation with
  | enqueue fragments => rfl
  | requestFragments start =>
      rw [perform, session.requestFragments_muted]
      rfl
  | verifyNext =>
      rw [perform, session.verifyNext_muted]
      rfl
  | downloadRuntime =>
      rw [perform, session.downloadRuntime_muted]
      rfl
  | importCommit fragment =>
      rw [perform, session.importCommit_muted]
      rfl

theorem acceptedHeader?_muted :
    operation.acceptedHeader? primitives session.muted =
      operation.acceptedHeader? primitives session := by
  cases operation with
  | verifyNext =>
      rw [acceptedHeader?, session.verifyNext_muted]
      rfl
  | importCommit fragment =>
      rw [acceptedHeader?, session.importCommit_muted]
      rfl
  | enqueue fragments => rfl
  | requestFragments start => rfl
  | downloadRuntime => rfl

theorem completes_muted : operation.completes session.muted = operation.completes session := by
  cases operation with
  | downloadRuntime =>
      rw [completes, session.downloadRuntime_muted]
      rfl
  | enqueue fragments => rfl
  | requestFragments start => rfl
  | verifyNext => rfl
  | importCommit fragment => rfl

theorem changesSet_muted :
    operation.changesSet primitives session.muted = operation.changesSet primitives session := by
  rw [changesSet, acceptedHeader?_muted, perform_muted]
  rfl

theorem offer?_muted :
    operation.offer? primitives session.muted = operation.offer? primitives session := by
  rw [offer?, completes_muted, changesSet_muted, perform_muted]
  rfl

end Operation

namespace Stage

theorem handle_muted (primitives : Primitives) (session : Session) (stage : Stage) :
    stage.handle primitives session.muted =
      (stage.handle primitives session).map id Session.muted := by
  cases stage with
  | requestingFragments start => exact session.requestFragments_muted start
  | verifyingFragments => exact session.verifyNext_muted primitives
  | downloadingRuntime => exact session.downloadRuntime_muted
  | finished finish => rfl

theorem next_muted (session : Session) (stage : Stage) (handled : Except Failure Unit) :
    stage.next session.muted handled = stage.next session handled := by
  cases handled with
  | error failure => rfl
  | ok => cases stage <;> rfl

end Stage

namespace Bootstrap

def muted (bootstrap : Bootstrap) : Bootstrap :=
  { bootstrap with session := bootstrap.session.muted }

theorem step_muted (primitives : Primitives) (bootstrap : Bootstrap) :
    bootstrap.muted.step primitives = (bootstrap.step primitives).map id muted := by
  obtain ⟨stage, session⟩ := bootstrap
  simp only [step, muted, stage.handle_muted, Prod.map, id, stage.next_muted]
  cases stage.next (stage.handle primitives session).2 (stage.handle primitives session).1 <;> rfl

/-- A run to the end. -/
theorem run_muted (primitives : Primitives) (bootstrap : Bootstrap) :
    bootstrap.muted.run primitives = (bootstrap.run primitives).map id Session.muted := by
  induction size : bootstrap.remaining using Nat.strongRecOn generalizing bootstrap with
  | ind size inductionHypothesis =>
      have steppedMuted := bootstrap.step_muted primitives
      cases ended : bootstrap.stage.finish? with
      | some finish =>
          obtain ⟨stage, session⟩ := bootstrap
          cases stage <;> cases ended
          rw [run_of_finished, muted, run_of_finished]
          rfl
      | none =>
          have endedMuted : bootstrap.muted.stage.finish? = none := ended
          cases stepped : bootstrap.step primitives with
          | mk outcome next =>
              rw [stepped] at steppedMuted
              cases outcome with
              | error failure =>
                  rw [run_of_step_error ended stepped, run_of_step_error endedMuted steppedMuted]
                  rfl
              | ok =>
                  have fewer := remaining_lt_of_step ended stepped
                  rw [size] at fewer
                  rw [run_of_step_ok ended stepped, run_of_step_ok endedMuted steppedMuted]
                  exact inductionHypothesis next.remaining fewer next rfl

end Bootstrap

/-! ## Requests and attendance -/

namespace Event

/-- What an event asks of the session.  The reader asks nothing, and where a session that is
started again sends to does not count. -/
def request? : Event → Option Event
  | .operate operation => some (.operate operation)
  | .beginSynchronisation => some .beginSynchronisation
  | .step => some .step
  | .restart settings fragments runtimes checkpoint _ =>
      some (.restart settings fragments runtimes checkpoint (.other none))
  | .read _ => none
  | .close => none

/-- Whether an event leaves the mailbox to the session. -/
def isWork : Event → Bool
  | .operate _ => true
  | .beginSynchronisation => true
  | .step => true
  | _ => false

end Event

namespace Reception

/-- What the caller is told of an event. -/
def report? (primitives : Primitives) (reception : Reception) : Event → Option Report
  | .operate operation => operation.report? primitives reception.session
  | .step => some (.ended (reception.bootstrap.step primitives).1)
  | _ => none

/-- What the caller is told in the course of events, in order. -/
def reports (primitives : Primitives) (reception : Reception) : List Event → List Report
  | [] => []
  | event :: events =>
      (reception.report? primitives event).toList ++
        (reception.follow primitives event).reports primitives events

/-- The stage and the session without its mailbox. -/
def unattended (reception : Reception) : Bootstrap := reception.bootstrap.muted

variable {left right reception : Reception} {event request : Event} {events : List Event}

theorem unattended_eq_iff :
    left.unattended = right.unattended ↔
      left.bootstrap.stage = right.bootstrap.stage ∧ left.session.muted = right.session.muted := by
  rw [unattended, unattended, Bootstrap.muted, Bootstrap.muted, Bootstrap.mk.injEq]
  rfl

theorem unattended_follow_of_request?_eq_none
    (primitives : Primitives) (reception : Reception) (isAttendance : event.request? = none) :
    (reception.follow primitives event).unattended = reception.unattended ∧
      reception.report? primitives event = none ∧ reception.offer? primitives event = none := by
  cases event <;> cases isAttendance <;> exact ⟨rfl, rfl, rfl⟩

/-- The step: what is asked decides what becomes of a session but for the mailbox. -/
theorem unattended_follow
    (primitives : Primitives) (sameRest : left.unattended = right.unattended)
    (isRequest : event.request? = some request) :
    (left.follow primitives event).unattended = (right.follow primitives request).unattended ∧
      left.report? primitives event = right.report? primitives request ∧
      left.offer? primitives event = right.offer? primitives request := by
  obtain ⟨sameStage, sameSession⟩ := unattended_eq_iff.mp sameRest
  have sameOffer (operation : Operation) :
      operation.offer? primitives left.session = operation.offer? primitives right.session := by
    rw [← operation.offer?_muted, sameSession, operation.offer?_muted]
  cases event with
  | operate operation =>
      cases isRequest
      have samePerformed :
          (operation.perform primitives left.session).muted =
            (operation.perform primitives right.session).muted := by
        rw [← operation.perform_muted, sameSession, operation.perform_muted]
      have sameReport :
          operation.report? primitives left.session =
            operation.report? primitives right.session := by
        rw [← operation.report?_muted, sameSession, operation.report?_muted]
      exact
        ⟨unattended_eq_iff.mpr ⟨sameStage, samePerformed⟩, sameReport, sameOffer operation⟩
  | beginSynchronisation =>
      cases isRequest
      exact ⟨congrArg Bootstrap.ofSession sameSession, rfl, rfl⟩
  | step =>
      cases isRequest
      have sameStep :
          (left.bootstrap.step primitives).map id Bootstrap.muted =
            (right.bootstrap.step primitives).map id Bootstrap.muted := by
        rw [← Bootstrap.step_muted, ← Bootstrap.step_muted]
        exact congrArg (Bootstrap.step primitives) sameRest
      obtain ⟨sameOutcome, sameNext⟩ := Prod.mk.inj sameStep
      refine ⟨sameNext, congrArg (some ∘ Report.ended) sameOutcome, ?_⟩
      have sameOperation :
          Event.step.operation? left.bootstrap.stage =
            Event.step.operation? right.bootstrap.stage :=
        congrArg Stage.operation? sameStage
      rw [offer?, offer?, sameOperation]
      exact Option.bind_congr fun operation _ => sameOffer operation
  | restart settings fragments runtimes checkpoint addressee =>
      cases isRequest
      have sameLedger : left.session.muted.ledger = right.session.muted.ledger := by
        rw [sameSession]
      have sameStore : left.session.ledger.store = right.session.ledger.store :=
        congrArg Ledger.store sameLedger
      refine ⟨?_, rfl, rfl⟩
      simp only [follow, sameStore]
      rfl
  | read count => cases isRequest
  | close => cases isRequest

/-- A session that nobody attends to adds to its mailbox what it offers. -/
theorem mailbox_follow_of_isWork (primitives : Primitives) (isWork : event.isWork = true) :
    (reception.follow primitives event).session.mailbox =
      reception.session.mailbox.map
        (Mailbox.sendAll · (reception.offer? primitives event).toList) := by
  have asSent (offer : Option NeighbourMessage) :
      (fun mailbox : Mailbox => offer.elim mailbox mailbox.send) =
        (Mailbox.sendAll · offer.toList) := by
    cases offer <;> rfl
  rw [← asSent]
  cases isOperation : event.operation? reception.bootstrap.stage with
  | some operation => exact mailbox_session_follow primitives isOperation
  | none =>
      rw [offer?_of_not_operation isOperation]
      apply mailbox_of_sameSession
      cases event with
      | operate operation => cases isOperation
      | beginSynchronisation => rfl
      | step =>
          have rests : reception.bootstrap.stage.operation? = none := isOperation
          have stepped := Bootstrap.session_step primitives reception.bootstrap
          rw [rests] at stepped
          exact stepped
      | restart => cases isWork
      | read => cases isWork
      | close => cases isWork

/-- The run: what is asked decides what becomes of a session but for the mailbox. -/
theorem unattended_followAll
    (primitives : Primitives) (sameRest : left.unattended = right.unattended)
    (events : List Event) :
    (left.followAll primitives events).unattended =
        (right.followAll primitives (events.filterMap Event.request?)).unattended ∧
      left.reports primitives events =
        right.reports primitives (events.filterMap Event.request?) ∧
      left.offers primitives events =
        right.offers primitives (events.filterMap Event.request?) := by
  induction events generalizing left right with
  | nil => exact ⟨sameRest, rfl, rfl⟩
  | cons event events inductionHypothesis =>
      cases isRequest : event.request? with
      | none =>
          obtain ⟨sameLeft, noReport, noOffer⟩ :=
            unattended_follow_of_request?_eq_none primitives left isRequest
          rw [List.filterMap_cons_none isRequest, reports, offers, noReport, noOffer]
          exact inductionHypothesis (sameLeft.trans sameRest)
      | some request =>
          obtain ⟨sameNext, sameReport, sameOffer⟩ :=
            unattended_follow primitives sameRest isRequest
          obtain ⟨sameLast, sameReports, sameOffers⟩ := inductionHypothesis sameNext
          rw [List.filterMap_cons_some isRequest, reports, offers, reports, offers, sameReport,
            sameOffer, sameReports, sameOffers]
          exact ⟨sameLast, rfl, rfl⟩

theorem mailbox_followAll_of_isWork
    (primitives : Primitives) (areWork : events.all Event.isWork = true) :
    (reception.followAll primitives events).session.mailbox =
      reception.session.mailbox.map (Mailbox.sendAll · (reception.offers primitives events)) := by
  induction events generalizing reception with
  | nil => exact Option.map_id'.symm
  | cons event events inductionHypothesis =>
      rw [List.all_cons, Bool.and_eq_true] at areWork
      have later := @inductionHypothesis (reception.follow primitives event) areWork.2
      rw [mailbox_follow_of_isWork primitives areWork.1, Option.map_map] at later
      rw [offers, followAll, List.foldl_cons, ← followAll, later]
      congr 1
      funext mailbox
      exact List.foldl_append.symm

/-- If two sessions differ in their mailboxes at most and are asked for the same, then the caller is
told the same, neighbours are offered the same, and afterwards the sessions still differ in their
mailboxes at most, whoever reads or goes away meanwhile.  So it is too if synchronisation is then
run to its end.  While nobody reads, the first messages that are offered go behind those that wait,
as many as there is room for, and the others are lost. -/
theorem sameCourse_of_sameRequests
    (primitives : Primitives) {leftEvents rightEvents : List Event}
    (sameRest : left.unattended = right.unattended)
    (sameRequests :
      leftEvents.filterMap Event.request? = rightEvents.filterMap Event.request?) :
    let leftLast := left.followAll primitives leftEvents
    let rightLast := right.followAll primitives rightEvents
    left.reports primitives leftEvents = right.reports primitives rightEvents ∧
      left.offers primitives leftEvents = right.offers primitives rightEvents ∧
      leftLast.unattended = rightLast.unattended ∧
      (leftLast.bootstrap.run primitives).map id Session.muted =
        (rightLast.bootstrap.run primitives).map id Session.muted ∧
      ∀ work, work.all Event.isWork = true →
        (leftLast.followAll primitives work).session.mailbox =
          leftLast.session.mailbox.map fun mailbox =>
            { mailbox with
              queued :=
                mailbox.queued ++ (leftLast.offers primitives work).take mailbox.room } := by
  intro leftLast rightLast
  obtain ⟨leftSame, leftReports, leftOffers⟩ :=
    unattended_followAll primitives sameRest leftEvents
  obtain ⟨rightSame, rightReports, rightOffers⟩ :=
    unattended_followAll primitives (Eq.refl right.unattended) rightEvents
  rw [sameRequests] at leftSame leftReports leftOffers
  have sameLast : leftLast.unattended = rightLast.unattended := leftSame.trans rightSame.symm
  have sameRun :
      (leftLast.bootstrap.run primitives).map id Session.muted =
        (rightLast.bootstrap.run primitives).map id Session.muted := by
    rw [← Bootstrap.run_muted, ← Bootstrap.run_muted]
    exact congrArg (Bootstrap.run primitives) sameLast
  refine
    ⟨leftReports.trans rightReports.symm, leftOffers.trans rightOffers.symm, sameLast, sameRun, ?_⟩
  intro work areWork
  rw [mailbox_followAll_of_isWork primitives areWork]
  simp only [Mailbox.sendAll_eq]

end Reception

/-! ## A full mailbox -/

namespace FullMailbox

/-- There is nothing to verify. -/
def fragments : FragmentSource := .ofList [.arrival ⟨0⟩ (.ok ⟨[], true⟩)] fun _ => .never

def runtimes : RuntimeSource := .ofList [.ok [0, 97, 115, 109]] fun _ => .error "no runtime"

def mailbox : Mailbox := ⟨1, Nat.one_pos, [⟨1, 7, 0, 0⟩], true⟩

def session (mailbox : Option Mailbox) : Session :=
  .start .standard .empty fragments runtimes Handover.checkpoint mailbox

/-- A session that sends to the full mailbox. -/
def reception : Reception := ⟨.ofSession (session (some mailbox)), mailbox, true, []⟩

/-- The session without a mailbox. -/
def alone : Reception := ⟨.ofSession (session none), mailbox, false, []⟩

end FullMailbox

open FullMailbox (alone reception) in
/-- What a session offers when it is completed is lost to a full mailbox, and the session completes
as it does without one, also if the reader then takes what waited and goes away. -/
theorem Reception.sameCourse_of_fullMailbox :
    alone.unattended = reception.unattended ∧
      [Event.step, .step].filterMap Event.request? =
        [Event.step, .step, .read 1, .close].filterMap Event.request? ∧
      alone.reports .standard [.step, .step] =
        reception.reports .standard [.step, .step, .read 1, .close] ∧
      (reception.followAll .standard [.step, .step, .read 1, .close]).bootstrap.stage =
        .finished (.completed 0) ∧
      (reception.followAll .standard [.step, .step]).session.mailbox =
        some FullMailbox.mailbox := by
  have sameRest : alone.unattended = reception.unattended := rfl
  have sameRequests :
      [Event.step, .step].filterMap Event.request? =
        [Event.step, .step, .read 1, .close].filterMap Event.request? := rfl
  obtain ⟨sameReports, _, sameLast, _, _⟩ :=
    sameCourse_of_sameRequests .standard sameRest sameRequests
  refine ⟨sameRest, sameRequests, sameReports, ?_, rfl⟩
  rw [← (unattended_eq_iff.mp sameLast).1]
  rfl

end Sync

end FinalitySync
