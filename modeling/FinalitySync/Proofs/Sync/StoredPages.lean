import FinalitySync.Peer.Stored
import FinalitySync.Proofs.Sync.Mirror
import FinalitySync.Proofs.Sync.PageFold

/-!
# Synchronisation over stored pages

A stored source delivers its pages in order, whatever it is asked for.  Synchronisation takes them
up to the first that is finished, so these pages are the whole proof: it succeeds exactly if they
have an end, no page before the end is empty, and all of their fragments are finalized.
-/

namespace FinalitySync

namespace Stored

/-- The pages up to the first that is finished. -/
def proofPages (pages : List Page) : List Page :=
  pages.takeWhile (fun page => !page.isFinished) ++ (pages.find? Page.isFinished).toList

variable {page : Page}

theorem proofPages_cons_of_finished (isFinished : page.isFinished = true) (later : List Page) :
    proofPages (page :: later) = [page] := by
  simp [proofPages, isFinished]

theorem proofPages_cons_of_open (isOpen : page.isFinished = false) (later : List Page) :
    proofPages (page :: later) = page :: proofPages later := by
  simp [proofPages, isOpen]

/-- Some page is finished, and the pages before the first such page have fragments. -/
structure HasEnd (pages : List Page) : Prop where
  isFinished : ∃ page ∈ pages, page.isFinished = true
  nonempty : ∀ page ∈ pages.takeWhile (fun page => !page.isFinished), page.fragments ≠ []

theorem hasEnd_cons_of_finished (isFinished : page.isFinished = true) (later : List Page) :
    HasEnd (page :: later) := by
  refine ⟨⟨page, List.mem_cons_self, isFinished⟩, ?_⟩
  simp [isFinished]

theorem hasEnd_cons_iff_of_open (isOpen : page.isFinished = false) (later : List Page) :
    HasEnd (page :: later) ↔ page.fragments ≠ [] ∧ HasEnd later := by
  have kept :
      (page :: later).takeWhile (fun page => !page.isFinished) =
        page :: later.takeWhile (fun page => !page.isFinished) := by
    simp [isOpen]
  constructor
  · rintro ⟨⟨last, member, isFinished⟩, nonempty⟩
    rw [kept, List.forall_mem_cons] at nonempty
    rcases List.mem_cons.mp member with same | inLater
    · rw [same, isOpen] at isFinished
      cases isFinished
    · exact ⟨nonempty.1, ⟨last, inLater, isFinished⟩, nonempty.2⟩
  · rintro ⟨nonempty, ⟨last, inLater, isFinished⟩, nonemptyLater⟩
    refine ⟨⟨last, List.mem_cons_of_mem page inLater, isFinished⟩, ?_⟩
    rw [kept, List.forall_mem_cons]
    exact ⟨nonempty, nonemptyLater⟩

/-- A stored source that has these pages left. -/
def HasLeft (source : FragmentSource) (pages : List Page) : Prop :=
  ∃ earlier,
    source.reply = (fragmentSource (earlier ++ pages)).reply ∧
      source.requests.length = earlier.length

theorem hasLeft_fragmentSource (pages : List Page) : HasLeft (fragmentSource pages) pages := by
  refine ⟨[], ?_, rfl⟩
  rw [List.nil_append]

/-- The reason of a source that has no page left. -/
def exhaustedReason (start : Hash) : String :=
  "No stored fragments left after block " ++ start.text

theorem reply_fragmentSource (pages : List Page) (position : Nat) (start : Hash) :
    (fragmentSource pages).reply position start =
      match pages[position]? with
      | some page => .arrival ⟨0⟩ (.ok page)
      | none => .arrival ⟨0⟩ (.error (exhaustedReason start)) := by
  simp only [fragmentSource, Source.ofList, Source.ofReplies, List.getElem?_map]
  cases pages[position]? with
  | none => rfl
  | some page => rfl

theorem HasLeft.ask_nil {source : FragmentSource} (hasLeft : HasLeft source []) (start : Hash) :
    (source.ask start).1 = .arrival ⟨0⟩ (.error (exhaustedReason start)) := by
  obtain ⟨earlier, sameReply, position⟩ := hasLeft
  have atEnd : (earlier ++ [])[earlier.length]? = none := by simp
  rw [Source.ask, sameReply, position, reply_fragmentSource, atEnd]

theorem HasLeft.ask_cons
    {source : FragmentSource} {later : List Page} (hasLeft : HasLeft source (page :: later))
    (start : Hash) :
    (source.ask start).1 = .arrival ⟨0⟩ (.ok page) ∧ HasLeft (source.ask start).2 later := by
  obtain ⟨earlier, sameReply, position⟩ := hasLeft
  constructor
  · have atPage : (earlier ++ page :: later)[earlier.length]? = some page := by simp
    rw [Source.ask, sameReply, position, reply_fragmentSource, atPage]
  · refine ⟨earlier ++ [page], ?_, ?_⟩
    · rw [List.append_assoc]
      exact sameReply
    · simp [Source.ask, position]

end Stored

namespace Sync

variable {primitives : Primitives}

namespace Ledger

variable {ledger next : Ledger}

theorem finalizeAll_append_of_error
    {earlier : List Fragment} {failure : Failure}
    (failed : ledger.finalizeAll primitives earlier = (.error failure, next))
    (later : List Fragment) :
    ledger.finalizeAll primitives (earlier ++ later) = (.error failure, next) := by
  induction earlier generalizing ledger with
  | nil => cases failed
  | cons fragment earlier inductionHypothesis =>
      cases finalized : ledger.finalize primitives fragment with
      | error cause =>
          rw [finalizeAll_cons_of_error finalized] at failed
          cases failed
          exact finalizeAll_cons_of_error finalized (earlier ++ later)
      | ok outcome =>
          rw [finalizeAll_cons_of_ok finalized] at failed
          rw [List.cons_append, finalizeAll_cons_of_ok finalized]
          exact inductionHypothesis failed

theorem finalizeAll_append_of_ok
    {earlier : List Fragment}
    (finalizedAll : ledger.finalizeAll primitives earlier = (.ok (), next))
    (later : List Fragment) :
    ledger.finalizeAll primitives (earlier ++ later) = next.finalizeAll primitives later := by
  induction earlier generalizing ledger with
  | nil =>
      cases finalizedAll
      rfl
  | cons fragment earlier inductionHypothesis =>
      cases finalized : ledger.finalize primitives fragment with
      | error cause =>
          rw [finalizeAll_cons_of_error finalized] at finalizedAll
          cases finalizedAll
      | ok outcome =>
          rw [finalizeAll_cons_of_ok finalized] at finalizedAll
          rw [List.cons_append, finalizeAll_cons_of_ok finalized]
          exact inductionHypothesis finalizedAll

/-- Finalizes the fragments of stored pages up to a finished one. -/
def verifyPages (primitives : Primitives) (ledger : Ledger) :
    List Page → Except Failure Unit × Ledger
  | [] => (.error (.fragmentRequest (Stored.exhaustedReason ledger.head.hash)), ledger)
  | page :: later =>
      match ledger.finalizeAll primitives page.fragments with
      | (.error failure, next) => (.error failure, next)
      | (.ok (), next) =>
          if page.isFinished then (.ok (), next)
          else if page.fragments.isEmpty then (.error .emptyPage, next)
          else next.verifyPages primitives later

variable {page : Page}

theorem verifyPages_of_refused_fragment
    {failure : Failure}
    (refused : ledger.finalizeAll primitives page.fragments = (.error failure, next))
    (later : List Page) :
    ledger.verifyPages primitives (page :: later) = (.error failure, next) := by
  rw [verifyPages, refused]

theorem verifyPages_of_last_page
    (isFinished : page.isFinished = true)
    (finalizedAll : ledger.finalizeAll primitives page.fragments = (.ok (), next))
    (later : List Page) :
    ledger.verifyPages primitives (page :: later) = (.ok (), next) := by
  simp only [verifyPages, finalizedAll, isFinished, if_true]

theorem verifyPages_of_empty_page
    (isOpen : page.isFinished = false) (isEmpty : page.fragments = []) (later : List Page) :
    ledger.verifyPages primitives (page :: later) = (.error .emptyPage, ledger) := by
  simp [verifyPages, finalizeAll, isOpen, isEmpty]

theorem verifyPages_of_open_page
    (isOpen : page.isFinished = false) (nonempty : page.fragments ≠ [])
    (finalizedAll : ledger.finalizeAll primitives page.fragments = (.ok (), next))
    (later : List Page) :
    ledger.verifyPages primitives (page :: later) = next.verifyPages primitives later := by
  simp [verifyPages, finalizedAll, isOpen, nonempty]

/-- Nothing after the first finished page matters. -/
theorem verifyPages_proofPages (pages : List Page) (ledger : Ledger) :
    ledger.verifyPages primitives (Stored.proofPages pages) =
      ledger.verifyPages primitives pages := by
  induction pages generalizing ledger with
  | nil => rfl
  | cons page later inductionHypothesis =>
      cases isFinished : page.isFinished with
      | true =>
          rw [Stored.proofPages_cons_of_finished isFinished]
          simp only [verifyPages, isFinished, if_true]
      | false =>
          rw [Stored.proofPages_cons_of_open isFinished]
          simp only [verifyPages, isFinished, inductionHypothesis]

/-- Verification succeeds exactly if the pages have an end and all fragments up to it are
finalized. -/
theorem verifyPages_eq_ok_iff {pages : List Page} :
    ledger.verifyPages primitives pages = (.ok (), next) ↔
      Stored.HasEnd pages ∧
        ledger.finalizeAll primitives ((Stored.proofPages pages).flatMap Page.fragments) =
          (.ok (), next) := by
  induction pages generalizing ledger with
  | nil =>
      constructor
      · intro verified
        cases verified
      · rintro ⟨⟨⟨page, member, _⟩, _⟩, _⟩
        cases member
  | cons page later inductionHypothesis =>
      cases finalizedAll : ledger.finalizeAll primitives page.fragments with
      | mk outcome middle =>
          cases isFinished : page.isFinished with
          | true =>
              have hasEnd := Stored.hasEnd_cons_of_finished isFinished later
              rw [Stored.proofPages_cons_of_finished isFinished, List.flatMap_singleton,
                finalizedAll]
              cases outcome with
              | error failure =>
                  rw [verifyPages_of_refused_fragment finalizedAll]
                  exact (and_iff_right hasEnd).symm
              | ok =>
                  rw [verifyPages_of_last_page isFinished finalizedAll]
                  exact (and_iff_right hasEnd).symm
          | false =>
              rw [Stored.proofPages_cons_of_open isFinished,
                Stored.hasEnd_cons_iff_of_open isFinished, List.flatMap_cons]
              cases outcome with
              | error failure =>
                  rw [verifyPages_of_refused_fragment finalizedAll,
                    finalizeAll_append_of_error finalizedAll]
                  simp
              | ok =>
                  by_cases isEmpty : page.fragments = []
                  · rw [verifyPages_of_empty_page isFinished isEmpty]
                    simp [isEmpty]
                  · rw [verifyPages_of_open_page isFinished isEmpty finalizedAll,
                      finalizeAll_append_of_ok finalizedAll, inductionHypothesis]
                    simp [isEmpty]

/-- Verification leaves the record of the runtime code alone. -/
theorem get?_finalizeAll_of_kind
    {record : Record} (beside : record.kind ∈ [.runtimeCode, .isSynced])
    (fragments : List Fragment) (ledger : Ledger) :
    (ledger.finalizeAll primitives fragments).2.store.get? record = ledger.store.get? record := by
  induction fragments generalizing ledger with
  | nil => rfl
  | cons fragment fragments inductionHypothesis =>
      cases finalized : ledger.finalize primitives fragment with
      | error failure => rw [finalizeAll_cons_of_error finalized]
      | ok outcome =>
          obtain ⟨hasChanged, next⟩ := outcome
          rw [finalizeAll_cons_of_ok finalized, inductionHypothesis,
            get?_finalize_of_kind beside finalized]

theorem get?_verifyPages_of_kind
    {record : Record} (beside : record.kind ∈ [.runtimeCode, .isSynced])
    (pages : List Page) (ledger : Ledger) :
    (ledger.verifyPages primitives pages).2.store.get? record = ledger.store.get? record := by
  induction pages generalizing ledger with
  | nil => rfl
  | cons page later inductionHypothesis =>
      have kept :
          (ledger.finalizeAll primitives page.fragments).2.store.get? record =
            ledger.store.get? record :=
        get?_finalizeAll_of_kind beside page.fragments ledger
      cases finalizedAll : ledger.finalizeAll primitives page.fragments with
      | mk outcome next =>
          rw [finalizedAll] at kept
          cases outcome with
          | error failure =>
              rw [verifyPages_of_refused_fragment finalizedAll]
              exact kept
          | ok =>
              simp only [verifyPages, finalizedAll]
              split
              · exact kept
              · split
                · exact kept
                · rw [inductionHypothesis]
                  exact kept

end Ledger

/-! ## Following the stored pages -/

namespace Books

variable {books : Books} {limit : Duration}

/-- How synchronisation goes on when there is nothing more to verify. -/
def conclude (books : Books) : Except Failure Unit → Except Failure Finish × Books
  | .error failure => books.abort failure
  | .ok () => books.settle

theorem follow_stored
    {pages : List Page} (hasLeft : Stored.HasLeft books.fragments pages) :
    ∃ source,
      let verified := books.ledger.verifyPages primitives pages
      books.follow primitives limit books.ledger.head.hash =
        { books with fragments := source, ledger := verified.2 }.conclude verified.1 := by
  induction pages generalizing books with
  | nil =>
      have refused :
          Session.pageWithin limit (books.fragments.ask books.ledger.head.hash).1 =
            .error (.fragmentRequest (Stored.exhaustedReason books.ledger.head.hash)) := by
        rw [hasLeft.ask_nil, Session.pageWithin, if_pos (Nat.zero_le _)]
        rfl
      exact ⟨(books.fragments.ask books.ledger.head.hash).2, follow_of_no_page refused⟩
  | cons page later inductionHypothesis =>
      obtain ⟨asked, leftLater⟩ := hasLeft.ask_cons books.ledger.head.hash
      have arrived :
          Session.pageWithin limit (books.fragments.ask books.ledger.head.hash).1 = .ok page := by
        rw [asked, Session.pageWithin, if_pos (Nat.zero_le _)]
        rfl
      cases finalizedAll : books.ledger.finalizeAll primitives page.fragments with
      | mk outcome next =>
          cases outcome with
          | error failure =>
              refine ⟨(books.fragments.ask books.ledger.head.hash).2, ?_⟩
              rw [follow_of_refused_fragment arrived finalizedAll,
                Ledger.verifyPages_of_refused_fragment finalizedAll]
              rfl
          | ok =>
              cases isFinished : page.isFinished with
              | true =>
                  refine ⟨(books.fragments.ask books.ledger.head.hash).2, ?_⟩
                  rw [follow_of_last_page arrived isFinished finalizedAll,
                    Ledger.verifyPages_of_last_page isFinished finalizedAll]
                  rfl
              | false =>
                  by_cases isEmpty : page.fragments = []
                  · refine ⟨(books.fragments.ask books.ledger.head.hash).2, ?_⟩
                    rw [follow_of_empty_page arrived isFinished isEmpty,
                      Ledger.verifyPages_of_empty_page isFinished isEmpty]
                    rfl
                  · obtain ⟨_, followed⟩ :=
                      follow_of_open_page arrived isFinished isEmpty finalizedAll
                    let after : Books :=
                      { books.afterAsking books.ledger.head.hash with ledger := next }
                    obtain ⟨source, followedLater⟩ := @inductionHypothesis after leftLater
                    refine ⟨source, followed.trans (followedLater.trans ?_)⟩
                    rw [Ledger.verifyPages_of_open_page isFinished isEmpty finalizedAll]
                    rfl

end Books

end Sync

end FinalitySync
