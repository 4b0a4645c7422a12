import FinalitySync.Proofs.Sync.Acceptance
import FinalitySync.Sync.Bootstrap

/-!
# Synchronisation as a fold over pages

Synchronisation without stages and without a queue: the pages are taken in order, and of each page
the fragments are finalized in order.  It ends because every page but the last raises the head.
-/

namespace FinalitySync.Sync

namespace Ledger

/-- Finalizes fragments in order up to the first that is refused. -/
def finalizeAll (primitives : Primitives) (ledger : Ledger) :
    List Fragment → Except Failure Unit × Ledger
  | [] => (.ok (), ledger)
  | fragment :: rest =>
      match ledger.finalize primitives fragment with
      | .error failure => (.error failure, ledger)
      | .ok (_, next) => next.finalizeAll primitives rest

variable {primitives : Primitives} {ledger next : Ledger}

theorem finalizeAll_cons_of_error
    {fragment : Fragment} {failure : Failure}
    (failed : ledger.finalize primitives fragment = .error failure) (rest : List Fragment) :
    ledger.finalizeAll primitives (fragment :: rest) = (.error failure, ledger) := by
  rw [finalizeAll, failed]

theorem finalizeAll_cons_of_ok
    {fragment : Fragment} {hasChanged : Bool}
    (finalized : ledger.finalize primitives fragment = .ok (hasChanged, next))
    (rest : List Fragment) :
    ledger.finalizeAll primitives (fragment :: rest) = next.finalizeAll primitives rest := by
  rw [finalizeAll, finalized]

/-- Finalization fails because the fragment is refused, or with an overflow. -/
theorem refuses_or_overflow_of_finalize
    {fragment : Fragment} {failure : Failure}
    (failed : ledger.finalize primitives fragment = .error failure) :
    ledger.Refuses primitives fragment failure ∨ ∃ cause, failure = .overflow cause := by
  rcases accepts_or_refuses primitives ledger fragment with accepts | ⟨refusal, refuses⟩
  · obtain ⟨messages, approved, _⟩ := approve_of_accepts accepts
    rw [finalize_of_approve approved] at failed
    cases applied :
        ((ledger.advance primitives fragment.header).recordRound
          fragment.justification).applyMessages fragment.header.number messages with
    | error cause =>
        rw [applied] at failed
        cases failed
        exact Or.inr ⟨cause, rfl⟩
    | ok outcome =>
        rw [applied] at failed
        cases failed
  · rw [finalize_of_refuses refuses] at failed
    cases failed
    exact Or.inl refuses

/-- A failure of finalization that is passed on is an overflow. -/
theorem overflow_of_finalize
    {fragment : Fragment} {failure : Failure}
    (failed : ledger.finalize primitives fragment = .error failure)
    (passedOn : failure.isPassedOn = true) :
    ∃ cause, failure = .overflow cause := by
  rcases refuses_or_overflow_of_finalize failed with refuses | overflows
  · cases refuses <;> cases passedOn
  · exact overflows

theorem overflow_of_finalizeAll
    {fragments : List Fragment} {failure : Failure}
    (failed : ledger.finalizeAll primitives fragments = (.error failure, next))
    (passedOn : failure.isPassedOn = true) :
    ∃ cause, failure = .overflow cause := by
  induction fragments generalizing ledger with
  | nil => cases failed
  | cons fragment rest inductionHypothesis =>
      cases accepted : ledger.finalize primitives fragment with
      | error cause =>
          rw [finalizeAll_cons_of_error accepted] at failed
          cases failed
          exact overflow_of_finalize accepted passedOn
      | ok outcome =>
          obtain ⟨hasChanged, middle⟩ := outcome
          rw [finalizeAll_cons_of_ok accepted] at failed
          exact inductionHypothesis failed

/-- The head after a page is the last block of the page. -/
theorem head_of_finalizeAll
    {fragments : List Fragment} {last : Fragment}
    (finalized : ledger.finalizeAll primitives fragments = (.ok (), next))
    (isLast : fragments.getLast? = some last) :
    ledger.head.number < next.head.number ∧
      next.head = Head.ofHeader primitives last.header := by
  induction fragments generalizing ledger with
  | nil => cases isLast
  | cons fragment rest inductionHypothesis =>
      cases accepted : ledger.finalize primitives fragment with
      | error failure =>
          rw [finalizeAll_cons_of_error accepted] at finalized
          cases finalized
      | ok outcome =>
          obtain ⟨hasChanged, middle⟩ := outcome
          rw [finalizeAll_cons_of_ok accepted] at finalized
          have raised := number_lt_of_finalize accepted
          cases rest with
          | nil =>
              cases finalized
              cases isLast
              exact ⟨raised, head_of_finalize accepted⟩
          | cons second rest =>
              rw [List.getLast?_cons_cons] at isLast
              obtain ⟨raisedLater, sameHead⟩ := inductionHypothesis finalized isLast
              exact ⟨UInt32.lt_trans raised raisedLater, sameHead⟩

end Ledger

/-! ## The pages -/

/-- What synchronisation works on: what is final and saved, the sources with the requests that were
made to them, and the runtime code. -/
structure Books where
  ledger : Ledger
  fragments : FragmentSource
  runtimes : RuntimeSource
  isSynced : Bool
  runtimeCode : Option Bytes

namespace Books

/-- Ends at the last final block; a failure that is passed on stays one. -/
def abort (books : Books) (failure : Failure) : Except Failure Finish × Books :=
  (if failure.isPassedOn then .error failure
    else .ok (.aborted books.ledger.head.number failure.message), books)

/-- Ends with the runtime code of the head. -/
def complete (books : Books) (code : Bytes) : Except Failure Finish × Books :=
  (.ok (.completed books.ledger.head.number),
    { books with
      ledger := { books.ledger with store := books.ledger.store.put .isSynced true }
      isSynced := true
      runtimeCode := some code })

/-- Completes with the saved runtime code.  If none is saved, it is asked for once and saved. -/
def settle (books : Books) : Except Failure Finish × Books :=
  match books.ledger.store.get? .runtimeCode with
  | some code => books.complete code
  | none =>
      let head := books.ledger.head
      let (reply, runtimes) := books.runtimes.ask (head.hash, head.stateRoot)
      let asked := { books with runtimes := runtimes }
      match reply with
      | .error reason => asked.abort (.runtimeDownload reason)
      | .ok code =>
          let saved := { books.ledger with store := books.ledger.store.put .runtimeCode code }
          { asked with ledger := saved }.complete code

/-- Takes pages in order, beginning with the one after `start`.  The page after another one is
asked for with the hash of its last header.  A reply that never comes, or only after the time limit,
is a timeout, and one without a page is a failed request. -/
def follow (primitives : Primitives) (limit : Duration) (books : Books) (start : Hash) :
    Except Failure Finish × Books :=
  let (reply, fragments) := books.fragments.ask start
  let asked := { books with fragments := fragments }
  match reply with
  | .never => asked.abort (.timeout limit)
  | .arrival delay result =>
      if limit.milliseconds < delay.milliseconds then asked.abort (.timeout limit)
      else
        match result with
        | .error reason => asked.abort (.fragmentRequest reason)
        | .ok page =>
            if page.isFinished then
              match books.ledger.finalizeAll primitives page.fragments with
              | (.error failure, ledger) => { asked with ledger := ledger }.abort failure
              | (.ok (), ledger) => { asked with ledger := ledger }.settle
            else
              match _isLast : page.fragments.getLast? with
              | none => asked.abort .emptyPage
              | some last =>
                  match _finalized : books.ledger.finalizeAll primitives page.fragments with
                  | (.error failure, ledger) => { asked with ledger := ledger }.abort failure
                  | (.ok (), ledger) =>
                      { asked with ledger := ledger }.follow primitives limit
                        (last.header.hash primitives)
termination_by 2 ^ 32 - 1 - books.ledger.head.number.toNat
decreasing_by
  have raised := (Ledger.head_of_finalizeAll _finalized _isLast).1
  have raisedNumbers := UInt32.lt_iff_toNat_lt.mp raised
  have bound := ledger.head.number.toNat_lt
  omega

variable {primitives : Primitives} {limit : Duration} {books : Books} {start : Hash}

def afterAsking (books : Books) (start : Hash) : Books :=
  { books with fragments := (books.fragments.ask start).2 }

/-- A session takes a page from a reply exactly if the reply has one and comes in time. -/
theorem pageWithin_eq_ok_iff {reply : PageReply} {page : Page} :
    Session.pageWithin limit reply = .ok page ↔
      ∃ delay, reply = .arrival delay (.ok page) ∧ ¬ limit.milliseconds < delay.milliseconds := by
  cases reply with
  | never => simp [Session.pageWithin]
  | arrival delay result =>
      rw [Session.pageWithin]
      by_cases inTime : delay.milliseconds ≤ limit.milliseconds
      · cases result <;> simp [inTime, Except.mapError]
      · simp [inTime]

theorem follow_of_no_page
    {failure : Failure}
    (refused : Session.pageWithin limit (books.fragments.ask start).1 = .error failure) :
    books.follow primitives limit start = (books.afterAsking start).abort failure := by
  cases reply : (books.fragments.ask start).1 with
  | never =>
      rw [reply, Session.pageWithin] at refused
      cases refused
      rw [follow]
      simp only [reply]
      rfl
  | arrival delay result =>
      rw [reply, Session.pageWithin] at refused
      rw [follow]
      simp only [reply]
      by_cases inTime : delay.milliseconds ≤ limit.milliseconds
      · rw [if_pos inTime] at refused
        rw [if_neg (Nat.not_lt.mpr inTime)]
        cases result with
        | error reason =>
            cases refused
            rfl
        | ok page => cases refused
      · rw [if_neg inTime] at refused
        cases refused
        rw [if_pos (Nat.not_le.mp inTime)]
        rfl

section Arrival

variable {page : Page}
variable (arrived : Session.pageWithin limit (books.fragments.ask start).1 = .ok page)

include arrived

theorem follow_of_empty_page
    (isOpen : page.isFinished = false) (isEmpty : page.fragments = []) :
    books.follow primitives limit start = (books.afterAsking start).abort .emptyPage := by
  obtain ⟨delay, replied, notLate⟩ := pageWithin_eq_ok_iff.mp arrived
  rw [follow]
  simp only [replied, if_neg notLate, isOpen, Bool.false_eq_true, if_false]
  split
  · rfl
  · rename_i last isLast
    rw [isEmpty] at isLast
    cases isLast

theorem follow_of_refused_fragment
    {failure : Failure} {ledger : Ledger}
    (refused : books.ledger.finalizeAll primitives page.fragments = (.error failure, ledger)) :
    books.follow primitives limit start =
      { books.afterAsking start with ledger := ledger }.abort failure := by
  have nonempty : page.fragments ≠ [] := by
    intro isEmpty
    rw [isEmpty] at refused
    cases refused
  obtain ⟨delay, replied, notLate⟩ := pageWithin_eq_ok_iff.mp arrived
  rw [follow]
  simp only [replied, if_neg notLate]
  split
  · rw [refused]
    rfl
  · split
    · rename_i noLast
      exact absurd (List.getLast?_eq_none_iff.mp noLast) nonempty
    · split
      · rename_i refusedAgain
        cases refused.symm.trans refusedAgain
        rfl
      · rename_i finalized
        rw [refused] at finalized
        cases finalized

theorem follow_of_last_page
    {ledger : Ledger}
    (isFinished : page.isFinished = true)
    (finalized : books.ledger.finalizeAll primitives page.fragments = (.ok (), ledger)) :
    books.follow primitives limit start =
      { books.afterAsking start with ledger := ledger }.settle := by
  obtain ⟨delay, replied, notLate⟩ := pageWithin_eq_ok_iff.mp arrived
  rw [follow]
  simp only [replied, if_neg notLate, isFinished, if_true, finalized]
  rfl

/-- After a page that is not the last one the head is its last block. -/
theorem follow_of_open_page
    {ledger : Ledger}
    (isOpen : page.isFinished = false) (nonempty : page.fragments ≠ [])
    (finalized : books.ledger.finalizeAll primitives page.fragments = (.ok (), ledger)) :
    books.ledger.head.number < ledger.head.number ∧
      books.follow primitives limit start =
        { books.afterAsking start with ledger := ledger }.follow primitives limit
          ledger.head.hash := by
  have isLast := List.getLast?_eq_some_getLast nonempty
  obtain ⟨raised, sameHead⟩ := Ledger.head_of_finalizeAll finalized isLast
  refine ⟨raised, ?_⟩
  obtain ⟨delay, replied, notLate⟩ := pageWithin_eq_ok_iff.mp arrived
  rw [follow]
  simp only [replied, if_neg notLate, isOpen, Bool.false_eq_true, if_false]
  split
  · rename_i noLast
    exact absurd (List.getLast?_eq_none_iff.mp noLast) nonempty
  · rename_i last isLastAgain
    cases isLast.symm.trans isLastAgain
    split
    · rename_i refused
      rw [finalized] at refused
      cases refused
    · rename_i finalizedAgain
      cases finalized.symm.trans finalizedAgain
      rw [sameHead]
      rfl

end Arrival

/-- An end names the last final block, and only an overflow is passed on. -/
structure EndsOrderly (ended : Except Failure Finish × Books) : Prop where
  names_head :
    ∀ finish,
      ended.1 = .ok finish →
        finish = .completed ended.2.ledger.head.number ∨
          ∃ reason, finish = .aborted ended.2.ledger.head.number reason
  passes_on_overflow :
    ∀ failure, ended.1 = .error failure → ∃ cause, failure = .overflow cause

theorem EndsOrderly.abort
    {failure : Failure}
    (onlyOverflow : failure.isPassedOn = true → ∃ cause, failure = .overflow cause)
    (books : Books) :
    EndsOrderly (books.abort failure) := by
  rw [Books.abort]
  cases passedOn : failure.isPassedOn with
  | true =>
      constructor
      · intro finish ended
        cases ended
      · intro other ended
        cases ended
        exact onlyOverflow passedOn
  | false =>
      constructor
      · intro finish ended
        cases ended
        exact Or.inr ⟨failure.message, rfl⟩
      · intro other ended
        cases ended

theorem EndsOrderly.abort_of_not_passedOn
    {failure : Failure} (kept : failure.isPassedOn = false) (books : Books) :
    EndsOrderly (books.abort failure) := by
  apply EndsOrderly.abort
  intro passedOn
  rw [kept] at passedOn
  cases passedOn

theorem EndsOrderly.complete (books : Books) (code : Bytes) :
    EndsOrderly (books.complete code) where
  names_head := by
    intro finish ended
    cases ended
    exact Or.inl rfl
  passes_on_overflow := by
    intro failure ended
    cases ended

theorem EndsOrderly.settle (books : Books) : EndsOrderly books.settle := by
  unfold Books.settle
  split
  · exact EndsOrderly.complete _ _
  · dsimp only
    split
    · exact EndsOrderly.abort_of_not_passedOn rfl _
    · exact EndsOrderly.complete _ _

theorem isPassedOn_of_pageWithin
    {reply : PageReply} {failure : Failure}
    (refused : Session.pageWithin limit reply = .error failure) :
    failure.isPassedOn = false := by
  cases reply with
  | never =>
      cases refused
      rfl
  | arrival delay result =>
      rw [Session.pageWithin] at refused
      split at refused
      · cases result with
        | error reason =>
            cases refused
            rfl
        | ok page => cases refused
      · cases refused
        rfl

/-- Following the pages ends at the last final block unless the numbers of sets run out. -/
theorem EndsOrderly.follow
    (primitives : Primitives) (limit : Duration) (books : Books) (start : Hash) :
    EndsOrderly (books.follow primitives limit start) := by
  induction distance : 2 ^ 32 - 1 - books.ledger.head.number.toNat using Nat.strongRecOn
    generalizing books start with
  | ind bound inductionHypothesis =>
      cases arrived : Session.pageWithin limit (books.fragments.ask start).1 with
      | error failure =>
          rw [follow_of_no_page arrived]
          exact EndsOrderly.abort_of_not_passedOn (isPassedOn_of_pageWithin arrived) _
      | ok page =>
          cases finalizedAll : books.ledger.finalizeAll primitives page.fragments with
          | mk outcome ledger =>
              cases outcome with
              | error failure =>
                  rw [follow_of_refused_fragment arrived finalizedAll]
                  exact EndsOrderly.abort (Ledger.overflow_of_finalizeAll finalizedAll) _
              | ok =>
                  cases ended : page.isFinished with
                  | true =>
                      rw [follow_of_last_page arrived ended finalizedAll]
                      exact EndsOrderly.settle _
                  | false =>
                      by_cases isEmpty : page.fragments = []
                      · rw [follow_of_empty_page arrived ended isEmpty]
                        exact EndsOrderly.abort_of_not_passedOn rfl _
                      · obtain ⟨raised, followed⟩ :=
                          follow_of_open_page arrived ended isEmpty finalizedAll
                        have raisedNumbers := UInt32.lt_iff_toNat_lt.mp raised
                        have lastNumber := ledger.head.number.toNat_lt
                        have nearer : 2 ^ 32 - 1 - ledger.head.number.toNat < bound := by
                          omega
                        rw [followed]
                        exact
                          inductionHypothesis _ nearer
                            { books.afterAsking start with ledger := ledger }
                            ledger.head.hash rfl

end Books

end FinalitySync.Sync
