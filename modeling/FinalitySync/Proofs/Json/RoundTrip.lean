import FinalitySync.Proofs.Json.Scanning

/-!
# Printed documents are read back

Every document whose numbers are natural and whose texts are whole is the document that its JSON
text spells.  Scanning and parsing are folds, so each is followed through the printed tokens on its
own, by induction on the document.
-/

namespace FinalitySync

/-- Documents without numbers other than natural ones and without halves of surrogate pairs. -/
inductive Document.IsPlain : Document → Prop
  | null : IsPlain .null
  | boolean (value : Bool) : IsPlain (.boolean value)
  | natural (value : Nat) : IsPlain (.natural value)
  | text (content : String) : IsPlain (.text (some content))
  | array {elements : List Document}
      (plainElements : ∀ element ∈ elements, element.IsPlain) :
      IsPlain (.array elements)
  | object {members : List (Option String × Document)}
      (namedMembers : ∀ member ∈ members, member.1.isSome)
      (plainMembers : ∀ member ∈ members, member.2.IsPlain) :
      IsPlain (.object members)

namespace Json

/-- The tokens of a document are scanned wherever a value may begin. -/
def IsScanned (document : Document) : Prop :=
  ∀ found : List Token,
    ∃ scanner,
      ((tokens document).flatMap Token.spelling).foldlM Scanner.step? ⟨found, .between⟩ =
          some scanner ∧
        scanner.Holds ((tokens document).reverse ++ found)

theorem foldlM_scanned_mark
    {document : Document} (scanned : IsScanned document)
    {mark : Token} (isMark : mark.IsMark) (found : List Token) (later : List Char) :
    ((tokens document ++ [mark]).flatMap Token.spelling ++ later).foldlM
        Scanner.step? ⟨found, .between⟩ =
      later.foldlM Scanner.step? ⟨(tokens document ++ [mark]).reverse ++ found, .between⟩ := by
  obtain ⟨scanner, scannedTokens, holds⟩ := scanned found
  rw [List.flatMap_append, List.append_assoc, List.foldlM_append, scannedTokens]
  simp only [Option.bind_eq_bind, Option.bind_some, List.flatMap_singleton,
    List.foldlM_append, holds.foldlM_mark isMark]
  simp

theorem foldlM_elementTokens
    {elements : List Document}
    (scanned : ∀ element ∈ elements, IsScanned element)
    (found : List Token) :
    ((elementTokens elements).flatMap Token.spelling).foldlM Scanner.step? ⟨found, .between⟩ =
      some ⟨(elementTokens elements).reverse ++ found, .between⟩ := by
  have closing : Token.closeArray.IsMark := by simp [Token.IsMark]
  have separating : Token.comma.IsMark := by simp [Token.IsMark]
  induction elements generalizing found with
  | nil => rfl
  | cons element elements inductionHypothesis =>
      have scannedElement := scanned element List.mem_cons_self
      have scannedLater : ∀ later ∈ elements, IsScanned later :=
        fun _ member => scanned _ (List.mem_cons_of_mem element member)
      cases elements with
      | nil =>
          have followed := foldlM_scanned_mark scannedElement closing found []
          simpa [elementTokens] using followed
      | cons next elements =>
          have followed :=
            foldlM_scanned_mark scannedElement separating found
              ((elementTokens (next :: elements)).flatMap Token.spelling)
          rw [inductionHypothesis scannedLater] at followed
          rw [elementTokens]
          · simpa [List.append_assoc] using followed
          · simp

theorem foldlM_name (name : String) (found : List Token) (later : List Char) :
    ([textToken (some name), .colon].flatMap Token.spelling ++ later).foldlM
        Scanner.step? ⟨found, .between⟩ =
      later.foldlM Scanner.step? ⟨.colon :: textToken (some name) :: found, .between⟩ := by
  have separating : Token.colon.IsMark := by simp [Token.IsMark]
  have held := Scanner.Holds.between (textToken (some name) :: found)
  simp only [List.flatMap_cons, List.flatMap_nil, List.append_nil, List.append_assoc,
    List.foldlM_append]
  rw [textToken, Option.map_some, foldlM_text]
  simp only [Option.bind_eq_bind, Option.bind_some]
  rw [textToken, Option.map_some] at held
  rw [held.foldlM_mark separating]
  rfl

theorem foldlM_memberTokens
    {members : List (Name × Document)}
    (named : ∀ member ∈ members, member.1.isSome)
    (scanned : ∀ member ∈ members, IsScanned member.2)
    (found : List Token) :
    ((memberTokens members).flatMap Token.spelling).foldlM Scanner.step? ⟨found, .between⟩ =
      some ⟨(memberTokens members).reverse ++ found, .between⟩ := by
  have closing : Token.closeObject.IsMark := by simp [Token.IsMark]
  have separating : Token.comma.IsMark := by simp [Token.IsMark]
  induction members generalizing found with
  | nil => rfl
  | cons member members inductionHypothesis =>
      obtain ⟨name, value⟩ := member
      have scannedValue : IsScanned value := scanned _ List.mem_cons_self
      have namedLater : ∀ later ∈ members, later.1.isSome :=
        fun _ member => named _ (List.mem_cons_of_mem _ member)
      have scannedLater : ∀ later ∈ members, IsScanned later.2 :=
        fun _ member => scanned _ (List.mem_cons_of_mem _ member)
      obtain ⟨name, rfl⟩ :=
        Option.isSome_iff_exists.mp (named (name, value) List.mem_cons_self)
      cases members with
      | nil =>
          have followed :=
            foldlM_scanned_mark scannedValue closing
              (.colon :: textToken (some name) :: found) []
          rw [← foldlM_name] at followed
          simpa [memberTokens] using followed
      | cons next members =>
          have followed :=
            foldlM_scanned_mark scannedValue separating
              (.colon :: textToken (some name) :: found)
              ((memberTokens (next :: members)).flatMap Token.spelling)
          rw [inductionHypothesis namedLater scannedLater, ← foldlM_name] at followed
          rw [memberTokens]
          · simpa [List.append_assoc] using followed
          · simp

theorem isScanned_of_isPlain {document : Document} (plain : document.IsPlain) :
    IsScanned document := by
  induction plain with
  | null => exact fun found => ⟨_, rfl, .word found rfl⟩
  | boolean value =>
      cases value with
      | false => exact fun found => ⟨_, rfl, .word found rfl⟩
      | true => exact fun found => ⟨_, rfl, .word found rfl⟩
  | natural value =>
      intro found
      simpa [tokens, Token.spelling] using foldlM_digits found value
  | text content =>
      intro found
      refine ⟨_, ?_, .between (.text (some content.toList) :: found)⟩
      simpa [tokens, textToken] using foldlM_text found content.toList
  | array _ inductionHypothesis =>
      intro found
      have scannedElements :=
        foldlM_elementTokens inductionHypothesis (.openArray :: found)
      refine ⟨_, ?_, .between _⟩
      have opened :
          Token.openArray.spelling.foldlM Scanner.step? ⟨found, .between⟩ =
            some ⟨.openArray :: found, .between⟩ := rfl
      rw [tokens, List.flatMap_cons, List.foldlM_append, opened]
      simpa using scannedElements
  | object named _ inductionHypothesis =>
      intro found
      have scannedMembers :=
        foldlM_memberTokens named inductionHypothesis (.openObject :: found)
      refine ⟨_, ?_, .between _⟩
      have opened :
          Token.openObject.spelling.foldlM Scanner.step? ⟨found, .between⟩ =
            some ⟨.openObject :: found, .between⟩ := rfl
      rw [tokens, List.flatMap_cons, List.foldlM_append, opened]
      simpa using scannedMembers

/-- The text of a document is scanned into the tokens it was printed from. -/
theorem scan?_print {document : Document} (plain : document.IsPlain) :
    scan? (print document).toList = some (tokens document) := by
  obtain ⟨scanner, scanned, holds⟩ := isScanned_of_isPlain plain []
  have started : Scanner.start = ⟨[], .between⟩ := rfl
  rw [print, String.toList_ofList, scan?, started, scanned]
  simpa using holds.finish?

/-! ## Parsing -/

/-- The tokens of a document are parsed wherever a value is awaited. -/
def IsParsed (document : Document) : Prop :=
  ∀ frames : List Frame,
    (tokens document).foldlM Parsing.step? (.awaitingValue frames) =
      some (Parsing.complete document frames)

theorem foldlM_elementTokens_parsing
    {elements : List Document} (nonempty : elements ≠ [])
    (parsed : ∀ element ∈ elements, IsParsed element)
    (before : List Document) (frames : List Frame) :
    (elementTokens elements).foldlM Parsing.step? (.awaitingValue (.element before :: frames)) =
      some (Parsing.complete (.array (before.reverse ++ elements)) frames) := by
  induction elements generalizing before with
  | nil => exact absurd rfl nonempty
  | cons element elements inductionHypothesis =>
      have parsedElement := parsed element List.mem_cons_self (.element before :: frames)
      have parsedLater : ∀ later ∈ elements, IsParsed later :=
        fun _ member => parsed _ (List.mem_cons_of_mem element member)
      cases elements with
      | nil =>
          rw [elementTokens, List.foldlM_append, parsedElement]
          simp [Parsing.complete, Parsing.step?]
      | cons next elements =>
          have parsedRest :=
            inductionHypothesis (by simp) parsedLater (element :: before)
          rw [elementTokens, List.foldlM_append, parsedElement]
          · simpa [Parsing.complete, Parsing.step?] using parsedRest
          · simp

theorem foldlM_memberTokens_parsing
    {members : List (Name × Document)} (nonempty : members ≠ [])
    (named : ∀ member ∈ members, member.1.isSome)
    (parsed : ∀ member ∈ members, IsParsed member.2)
    (before : List (Name × Document)) (frames : List Frame) :
    (memberTokens members).foldlM Parsing.step? (.awaitingName before frames) =
      some (Parsing.complete (.object (before.reverse ++ members)) frames) := by
  induction members generalizing before with
  | nil => exact absurd rfl nonempty
  | cons member members inductionHypothesis =>
      obtain ⟨name, value⟩ := member
      obtain ⟨name, rfl⟩ :=
        Option.isSome_iff_exists.mp (named (name, value) List.mem_cons_self)
      have parsedValue : IsParsed value := parsed _ List.mem_cons_self
      have namedLater : ∀ later ∈ members, later.1.isSome :=
        fun _ member => named _ (List.mem_cons_of_mem _ member)
      have parsedLater : ∀ later ∈ members, IsParsed later.2 :=
        fun _ member => parsed _ (List.mem_cons_of_mem _ member)
      have parsedHere := parsedValue (.member before (some name) :: frames)
      cases members with
      | nil =>
          simp [memberTokens, textToken, Parsing.step?, List.foldlM_append, parsedHere,
            Parsing.complete]
      | cons next members =>
          have parsedRest :=
            inductionHypothesis (by simp) namedLater parsedLater ((some name, value) :: before)
          rw [memberTokens]
          · simpa [textToken, Parsing.step?, List.foldlM_append, parsedHere,
              Parsing.complete] using parsedRest
          · simp

/-- The tokens of a value begin with one that does not end an array. -/
theorem exists_first_token (document : Document) :
    ∃ first rest, tokens document = first :: rest ∧ first ≠ .closeArray := by
  cases document <;> simp [tokens, textToken]

/-- Where an array may end, elements are parsed as where one is awaited. -/
theorem foldlM_awaitingValueOrEnd
    (element : Document) (later : List Token) (frames : List Frame) :
    (tokens element ++ later).foldlM Parsing.step? (.awaitingValueOrEnd frames) =
      (tokens element ++ later).foldlM Parsing.step? (.awaitingValue (.element [] :: frames)) := by
  obtain ⟨first, rest, begins, notEnd⟩ := exists_first_token element
  rw [begins, List.cons_append, List.foldlM_cons, List.foldlM_cons]
  simp [Parsing.step?, notEnd]

theorem exists_elementTokens_cons (element : Document) (elements : List Document) :
    ∃ later, elementTokens (element :: elements) = tokens element ++ later := by
  cases elements with
  | nil => exact ⟨_, rfl⟩
  | cons next elements => exact ⟨.comma :: elementTokens (next :: elements), rfl⟩

theorem exists_memberTokens_cons (name : Name) (value : Document)
    (members : List (Name × Document)) :
    ∃ later, memberTokens ((name, value) :: members) = textToken name :: later := by
  cases members with
  | nil => exact ⟨_, rfl⟩
  | cons next members => exact ⟨_, rfl⟩

theorem isParsed_of_isPlain {document : Document} (plain : document.IsPlain) :
    IsParsed document := by
  induction plain with
  | null => exact fun _ => rfl
  | boolean => exact fun _ => rfl
  | natural value =>
      intro frames
      simp [tokens, Parsing.step?, Parsing.start?, Parsing.numberDocument,
        Decimal.value?_digits]
  | text content =>
      intro frames
      simp [tokens, textToken, Parsing.step?, Parsing.start?]
  | @array elements _ inductionHypothesis =>
      intro frames
      cases elements with
      | nil => rfl
      | cons element elements =>
          have parsedElements :=
            foldlM_elementTokens_parsing (List.cons_ne_nil element elements)
              inductionHypothesis [] frames
          obtain ⟨later, begins⟩ := exists_elementTokens_cons element elements
          rw [begins, ← foldlM_awaitingValueOrEnd, ← begins] at parsedElements
          rw [tokens, List.foldlM_cons]
          exact parsedElements
  | @object members named _ inductionHypothesis =>
      intro frames
      cases members with
      | nil => rfl
      | cons member members =>
          have parsedMembers :=
            foldlM_memberTokens_parsing (List.cons_ne_nil member members) named
              inductionHypothesis [] frames
          obtain ⟨later, begins⟩ := exists_memberTokens_cons member.1 member.2 members
          rw [begins, List.foldlM_cons] at parsedMembers
          rw [tokens, List.foldlM_cons, begins]
          exact parsedMembers

/-- A plain document is what its JSON text spells. -/
theorem parse?_print {document : Document} (plain : document.IsPlain) :
    parse? (print document) = some document := by
  have parsed := isParsed_of_isPlain plain []
  rw [parse?, scan?_print plain, Option.bind_some, parseTokens?, parsed]
  rfl

end Json

end FinalitySync
