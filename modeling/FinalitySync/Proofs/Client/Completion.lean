import FinalitySync.Client.Run
import FinalitySync.Proofs.Chain.Encoding
import FinalitySync.Proofs.Sync.Refinement
import FinalitySync.Proofs.Sync.StoredPages

/-!
# When a run of the client completes

A run decides whether the stored pages prove the blocks after the checkpoint.  It completes exactly
if they do and the runtime code can be read; what follows the proof in its file has no influence.
-/

namespace FinalitySync.Client.Configuration

open Sync (Books Failure Finish Ledger Session)

variable {primitives : Primitives} {configuration : Configuration} {files : Files}

/-- What the runtime source answers to every request. -/
def runtimeReply (configuration : Configuration) (files : Files) : Except String Bytes :=
  (Stored.runtimeSource configuration.runtimePath fun path => (files path).bytes?).reply 0
    (.zero, .zero)

theorem runtimeReply_eq_ok_iff {code : Bytes} :
    configuration.runtimeReply files = .ok code ↔
      ∃ path, configuration.runtimePath = some path ∧ (files path).bytes? = some code := by
  simp only [runtimeReply, Stored.runtimeSource, Source.ofReplies]
  cases configuration.runtimePath with
  | none => simp
  | some path =>
      simp only [Option.some.injEq, exists_eq_left']
      cases (files path).bytes? with
      | none => simp
      | some content => simp

/-- What is final before any page is verified. -/
def trusted (configuration : Configuration) : Ledger :=
  Ledger.ofStore .empty configuration.checkpoint configuration.settings.retention

theorem get?_trusted_runtimeCode (configuration : Configuration) :
    configuration.trusted.store.get? .runtimeCode = none := by
  rw [trusted, Ledger.ofStore_empty, Head.get?_persist_of_kind (by decide),
    Grandpa.Roster.get?_persist_of_kind (by decide), Store.get?_empty]

/-- How the client reports the end of synchronisation. -/
def report : Except Failure Finish → Except RunFailure Unit
  | .ok (.completed _) => .ok ()
  | .ok (.aborted block reason) => .error (.aborted (.aborted block reason))
  | .error failure => .error (.failed failure)

/-- What a failure at a head is reported as. -/
def reportFailure (head : Head) (failure : Failure) : RunFailure :=
  if failure.isPassedOn then .failed failure
  else .aborted (.aborted head.number failure.message)

theorem report_abort (books : Books) (failure : Failure) :
    report (books.abort failure).1 = .error (reportFailure books.ledger.head failure) := by
  rw [Books.abort, reportFailure]
  cases failure.isPassedOn with
  | true => rfl
  | false => rfl

/-- The result of verified pages: the code of the runtime is still to be read. -/
def conclusion (configuration : Configuration) (files : Files) :
    Except Failure Unit × Ledger → Except RunFailure Unit
  | (.error failure, ledger) => .error (reportFailure ledger.head failure)
  | (.ok (), ledger) =>
      match configuration.runtimeReply files with
      | .error reason => .error (reportFailure ledger.head (.runtimeDownload reason))
      | .ok _ => .ok ()

theorem report_settle
    {books : Books}
    (sameSource :
      books.runtimes =
        Stored.runtimeSource configuration.runtimePath fun path => (files path).bytes?)
    (noCode : books.ledger.store.get? .runtimeCode = none) :
    report books.settle.1 = configuration.conclusion files (.ok (), books.ledger) := by
  have replied :
      (books.runtimes.ask (books.ledger.head.hash, books.ledger.head.stateRoot)).1 =
        configuration.runtimeReply files := by
    rw [sameSource]
    rfl
  rw [Books.settle, noCode]
  simp only [replied, conclusion]
  cases configuration.runtimeReply files with
  | error reason => exact report_abort _ _
  | ok code => rfl

/-- Synchronisation over stored pages verifies them from the checkpoint. -/
theorem report_run
    (configuration : Configuration) (files : Files) (pages : List Page) (mailbox : Mailbox) :
    report
        ((Sync.Bootstrap.ofSession (configuration.session files pages mailbox)).run
          primitives).1 =
      configuration.conclusion files (configuration.trusted.verifyPages primitives pages) := by
  let session := configuration.session files pages mailbox
  have refined :
      Sync.observe ((Sync.Bootstrap.ofSession session).run primitives) =
        session.books.follow primitives session.settings.requestTimeout
          session.books.ledger.head.hash :=
    Sync.observe_run_requestingFragments session rfl session.head.hash
  have hasLeft : Stored.HasLeft session.books.fragments pages :=
    Stored.hasLeft_fragmentSource pages
  have noCode :
      (configuration.trusted.verifyPages primitives pages).2.store.get? .runtimeCode = none := by
    rw [Ledger.get?_verifyPages_of_kind (by decide)]
    exact get?_trusted_runtimeCode configuration
  obtain ⟨source, followed⟩ := Books.follow_stored hasLeft
  have ended := congrArg (fun ended => report ended.1) (refined.trans followed)
  refine ended.trans ?_
  change
    report
        ({ session.books with
            fragments := source
            ledger := (configuration.trusted.verifyPages primitives pages).2 }.conclude
          (configuration.trusted.verifyPages primitives pages).1).1 =
      _
  generalize configuration.trusted.verifyPages primitives pages = verified at noCode ⊢
  obtain ⟨outcome, ledger⟩ := verified
  cases outcome with
  | error failure => exact report_abort _ failure
  | ok => exact report_settle rfl noCode

/-- Whether a run completes, and otherwise why not. -/
def outcome (primitives : Primitives) (configuration : Configuration) (files : Files) :
    Except RunFailure Unit :=
  (configuration.run primitives files).map fun _ => ()

theorem exists_run_eq_ok_iff :
    (∃ session, configuration.run primitives files = .ok session) ↔
      configuration.outcome primitives files = .ok () := by
  rw [outcome]
  cases configuration.run primitives files with
  | error failure => simp [Except.map]
  | ok session => simp [Except.map]

theorem outcome_of_noAuthorities (isEmpty : configuration.checkpoint.authorities = []) :
    configuration.outcome primitives files = .error .noAuthorities := by
  rw [outcome, run, isEmpty]
  rfl

theorem outcome_of_noPages
    (nonempty : configuration.checkpoint.authorities ≠ []) {failure : RunFailure}
    (refused : configuration.pages files = .error failure) :
    configuration.outcome primitives files = .error failure := by
  have someAuthority : configuration.checkpoint.authorities.isEmpty = false :=
    List.isEmpty_eq_false_iff.mpr nonempty
  rw [outcome, run, someAuthority, refused]
  rfl

/-- The file of fragments holds these pages, and perhaps something after them. -/
def Holds (configuration : Configuration) (files : Files) (pages : List Page) : Prop :=
  ∃ content rest,
    (files configuration.fragmentsPath).bytes? = some content ∧
      Page.codec.vector.decode content = .ok (pages, rest)

theorem pages_eq_ok_iff {pages : List Page} :
    configuration.pages files = .ok pages ↔ configuration.Holds files pages := by
  rw [Configuration.pages, Holds]
  cases (files configuration.fragmentsPath).bytes? with
  | none => simp
  | some content =>
      simp only [Stored.pages?, Option.some.injEq, exists_and_left, exists_eq_left']
      cases Page.codec.vector.decode content with
      | error failure => simp
      | ok decoded =>
          obtain ⟨found, rest⟩ := decoded
          simp

/-- The files prove the blocks after the checkpoint and have runtime code. -/
structure IsProven
    (primitives : Primitives) (configuration : Configuration) (files : Files) : Prop where
  hasAuthorities : configuration.checkpoint.authorities ≠ []
  hasProof :
    ∃ pages ledger,
      configuration.Holds files pages ∧
        Stored.HasEnd pages ∧
        configuration.trusted.finalizeAll primitives
            ((Stored.proofPages pages).flatMap Page.fragments) = (.ok (), ledger)
  hasRuntime : ∃ path code, configuration.runtimePath = some path ∧ (files path).bytes? = some code

/-- The files differ in nothing but what follows the first finished page. -/
structure DifferAfterProof
    (configuration : Configuration) (files otherFiles : Files) : Prop where
  sameElsewhere : ∀ path, path ≠ configuration.fragmentsPath → otherFiles path = files path
  sameProof :
    ∃ pages otherPages,
      configuration.Holds files pages ∧
        configuration.Holds otherFiles otherPages ∧
        Stored.proofPages otherPages = Stored.proofPages pages

theorem conclusion_eq_ok_iff {verified : Except Failure Unit × Ledger} :
    configuration.conclusion files verified = .ok () ↔
      (∃ ledger, verified = (.ok (), ledger)) ∧
        ∃ code, configuration.runtimeReply files = .ok code := by
  obtain ⟨outcome, ledger⟩ := verified
  cases outcome with
  | error failure => simp [conclusion]
  | ok =>
      simp only [conclusion]
      cases configuration.runtimeReply files with
      | error reason => simp
      | ok code => simp

/-- The code may be in the file of the fragments itself.  Then it depends on what follows the proof,
but whether there is any does not. -/
theorem DifferAfterProof.conclusion_eq
    {otherFiles : Files} (differ : configuration.DifferAfterProof files otherFiles)
    (verified : Except Failure Unit × Ledger) :
    configuration.conclusion otherFiles verified = configuration.conclusion files verified := by
  have sameReply :
      configuration.runtimeReply otherFiles = configuration.runtimeReply files ∨
        ∃ code otherCode,
          configuration.runtimeReply files = .ok code ∧
            configuration.runtimeReply otherFiles = .ok otherCode := by
    cases named : configuration.runtimePath with
    | none =>
        left
        rw [runtimeReply, runtimeReply, named]
        rfl
    | some path =>
        by_cases isShared : path = configuration.fragmentsPath
        · right
          obtain ⟨_, _, ⟨content, _, found, _⟩, ⟨otherContent, _, otherFound, _⟩, _⟩ :=
            differ.sameProof
          rw [← isShared] at found otherFound
          exact
            ⟨content, otherContent, runtimeReply_eq_ok_iff.mpr ⟨path, named, found⟩,
              runtimeReply_eq_ok_iff.mpr ⟨path, named, otherFound⟩⟩
        · left
          simp only [runtimeReply, Stored.runtimeSource, Source.ofReplies, named,
            differ.sameElsewhere path isShared]
  obtain ⟨outcome, ledger⟩ := verified
  cases outcome with
  | error failure => rfl
  | ok =>
      rcases sameReply with same | ⟨code, otherCode, replied, otherReplied⟩
      · rw [conclusion, conclusion, same]
      · rw [conclusion, conclusion, replied, otherReplied]

section Mailbox

variable (hasRoom : 0 < configuration.settings.mailboxCapacity)
variable (fits : configuration.settings.mailboxCapacity ≤ Mailbox.largestCapacity)

include hasRoom fits

theorem outcome_of_pages
    (nonempty : configuration.checkpoint.authorities ≠ []) {pages : List Page}
    (found : configuration.pages files = .ok pages) :
    configuration.outcome primitives files =
      configuration.conclusion files (configuration.trusted.verifyPages primitives pages) := by
  have opened :
      ∃ mailbox, Mailbox.ofCapacity configuration.settings.mailboxCapacity = .ok mailbox := by
    rw [Mailbox.ofCapacity, dif_pos hasRoom, if_pos fits]
    exact ⟨_, rfl⟩
  obtain ⟨mailbox, opened⟩ := opened
  have someAuthority : configuration.checkpoint.authorities.isEmpty = false :=
    List.isEmpty_eq_false_iff.mpr nonempty
  rw [← report_run configuration files pages mailbox, outcome, run, someAuthority, found]
  simp only [opened, bind, Except.bind, pure, Except.pure]
  generalize
    (Sync.Bootstrap.ofSession (configuration.session files pages mailbox)).run primitives = ended
  rcases ended with ⟨failure | finish, session⟩
  · rfl
  · cases finish with
    | completed block => rfl
    | aborted block reason => rfl

theorem outcome_eq_ok_iff :
    configuration.outcome primitives files = .ok () ↔
      configuration.IsProven primitives files := by
  by_cases isEmpty : configuration.checkpoint.authorities = []
  · rw [outcome_of_noAuthorities isEmpty]
    constructor
    · intro completed
      cases completed
    · intro proven
      exact absurd isEmpty proven.hasAuthorities
  · cases found : configuration.pages files with
    | error failure =>
        rw [outcome_of_noPages isEmpty found]
        constructor
        · intro completed
          cases completed
        · intro proven
          obtain ⟨pages, _, holds, _⟩ := proven.hasProof
          rw [pages_eq_ok_iff.mpr holds] at found
          cases found
    | ok pages =>
        rw [outcome_of_pages hasRoom fits isEmpty found, conclusion_eq_ok_iff]
        simp only [Ledger.verifyPages_eq_ok_iff, runtimeReply_eq_ok_iff]
        constructor
        · rintro ⟨⟨ledger, hasEnd, finalizedAll⟩, code, path, named, read⟩
          exact
            ⟨isEmpty, ⟨pages, ledger, pages_eq_ok_iff.mp found, hasEnd, finalizedAll⟩,
              ⟨path, code, named, read⟩⟩
        · rintro ⟨_, ⟨others, ledger, holds, hasEnd, finalizedAll⟩, path, code, named, read⟩
          have same : others = pages :=
            Except.ok.inj ((pages_eq_ok_iff.mpr holds).symm.trans found)
          rw [same] at hasEnd finalizedAll
          exact ⟨⟨ledger, hasEnd, finalizedAll⟩, code, path, named, read⟩

theorem DifferAfterProof.outcome_eq
    {otherFiles : Files} (differ : configuration.DifferAfterProof files otherFiles) :
    configuration.outcome primitives otherFiles = configuration.outcome primitives files := by
  by_cases isEmpty : configuration.checkpoint.authorities = []
  · rw [outcome_of_noAuthorities isEmpty, outcome_of_noAuthorities isEmpty]
  · obtain ⟨pages, otherPages, holds, otherHolds, sameProof⟩ := differ.sameProof
    rw [outcome_of_pages hasRoom fits isEmpty (pages_eq_ok_iff.mpr otherHolds),
      outcome_of_pages hasRoom fits isEmpty (pages_eq_ok_iff.mpr holds),
      differ.conclusion_eq, ← Ledger.verifyPages_proofPages otherPages, sameProof,
      Ledger.verifyPages_proofPages]

/-- A run completes exactly if the files prove the blocks after the checkpoint and have runtime
code.  Neither this nor what else it ends with depends on what follows the proof. -/
theorem run_decides_storedProof (primitives : Primitives) (files : Files) :
    ((∃ session, configuration.run primitives files = .ok session) ↔
        configuration.IsProven primitives files) ∧
      ∀ otherFiles, configuration.DifferAfterProof files otherFiles →
        configuration.outcome primitives otherFiles =
          configuration.outcome primitives files := by
  constructor
  · rw [exists_run_eq_ok_iff]
    exact outcome_eq_ok_iff hasRoom fits
  · intro otherFiles differ
    exact differ.outcome_eq hasRoom fits

end Mailbox

/-! ## A stored handover -/

namespace StoredHandover

def withCapacity (capacity : Nat) : Configuration :=
  { standard with
    settings := { Sync.Settings.standard with mailboxCapacity := capacity }
    checkpoint := Sync.Handover.checkpoint
    fragmentsPath := "fragments"
    runtimePath := some "runtime" }

def pages : List Page := [⟨[Sync.Handover.fragment], true⟩]

/-- One page, with something after it, and runtime code of one byte. -/
def filesWith (rest : Bytes) : Files := fun path =>
  if path = "fragments" then .content (Page.codec.vector.encode pages ++ rest)
  else if path = "runtime" then .content [0]
  else .nothing

theorem isEncodable : Scale.Codec.AllEncodable Page.IsEncodable pages := by
  have header : Sync.Handover.fragment.header.IsEncodable := by
    refine ⟨by decide, ?_⟩
    intro item member
    obtain rfl := List.mem_singleton.mp member
    rw [DigestItem.IsEncodable]
    decide
  have justification : Sync.Handover.fragment.justification.IsEncodable :=
    ⟨by decide, by decide, fun _ member => absurd member List.not_mem_nil⟩
  refine ⟨by decide, ?_⟩
  intro page inPages
  obtain rfl := List.mem_singleton.mp inPages
  refine ⟨by decide, ?_⟩
  intro fragment inPage
  obtain rfl := List.mem_singleton.mp inPage
  exact ⟨header, justification⟩

theorem holds (capacity : Nat) (rest : Bytes) :
    (withCapacity capacity).Holds (filesWith rest) pages :=
  ⟨_, rest, rfl, Page.codec_isCanonical.vector.decode_encode pages rest isEncodable⟩

theorem isProven (capacity : Nat) (rest : Bytes) :
    (withCapacity capacity).IsProven .standard (filesWith rest) where
  hasAuthorities := List.cons_ne_nil _ _
  hasProof := by
    have accepts :
        (withCapacity capacity).trusted.Accepts .standard Sync.Handover.fragment :=
      Sync.Handover.accepts
    have room : Sync.Handover.session.ledger.HasRoomFor Sync.Handover.fragment :=
      Ledger.HasRoomFor.of_lt (by decide)
    obtain ⟨hasChanged, ledger, finalized⟩ := Ledger.finalize_of_accepts accepts room
    refine ⟨pages, ledger, holds capacity rest, Stored.hasEnd_cons_of_finished rfl [], ?_⟩
    exact Ledger.finalizeAll_cons_of_ok finalized []
  hasRuntime := ⟨"runtime", [0], rfl, rfl⟩

theorem differAfterProof (capacity : Nat) (rest otherRest : Bytes) :
    (withCapacity capacity).DifferAfterProof (filesWith rest) (filesWith otherRest) where
  sameElsewhere := by
    intro path elsewhere
    have notFragments : path ≠ "fragments" := elsewhere
    rw [filesWith, filesWith, if_neg notFragments, if_neg notFragments]
  sameProof := ⟨pages, pages, holds capacity rest, holds capacity otherRest, rfl⟩

end StoredHandover

theorem run_storedHandover :
    0 < (StoredHandover.withCapacity 32).settings.mailboxCapacity ∧
      (StoredHandover.withCapacity 32).settings.mailboxCapacity ≤ Mailbox.largestCapacity ∧
      (∃ session,
        (StoredHandover.withCapacity 32).run .standard (StoredHandover.filesWith []) = .ok session) ∧
      (StoredHandover.withCapacity 32).outcome .standard (StoredHandover.filesWith [1, 2]) =
        (StoredHandover.withCapacity 32).outcome .standard (StoredHandover.filesWith []) := by
  have hasRoom : 0 < (StoredHandover.withCapacity 32).settings.mailboxCapacity := by decide
  have fits :
      (StoredHandover.withCapacity 32).settings.mailboxCapacity ≤ Mailbox.largestCapacity := by
    decide
  obtain ⟨decides, independent⟩ :=
    run_decides_storedProof hasRoom fits .standard (StoredHandover.filesWith [])
  exact
    ⟨hasRoom, fits, decides.mpr (StoredHandover.isProven 32 []),
      independent _ (StoredHandover.differAfterProof 32 [] [1, 2])⟩

/-- A mailbox for more messages than there can be is refused, whatever the files prove. -/
theorem not_run_storedHandover_of_largestCapacity_lt :
    0 < (StoredHandover.withCapacity (Mailbox.largestCapacity + 1)).settings.mailboxCapacity ∧
      (StoredHandover.withCapacity (Mailbox.largestCapacity + 1)).IsProven .standard
        (StoredHandover.filesWith []) ∧
      ¬ ∃ session,
        (StoredHandover.withCapacity (Mailbox.largestCapacity + 1)).run .standard
          (StoredHandover.filesWith []) = .ok session := by
  refine ⟨by decide, StoredHandover.isProven _ [], ?_⟩
  rintro ⟨session, completed⟩
  have found := pages_eq_ok_iff.mpr (StoredHandover.holds (Mailbox.largestCapacity + 1) [])
  have refused :
      Mailbox.ofCapacity
          (StoredHandover.withCapacity (Mailbox.largestCapacity + 1)).settings.mailboxCapacity =
        .error .tooMuchRoom := by
    decide
  rw [run, found] at completed
  simp only [refused, bind, Except.bind] at completed
  cases completed

end FinalitySync.Client.Configuration
