import FinalitySync.Document.Basic
import FinalitySync.Json.Scanner
import FinalitySync.Text.Decimal

/-!
From tokens to documents. The parser is a fold over the tokens with the open containers held in a
list, so nesting has no limit.
-/

namespace FinalitySync.Json

/-- A member name is `none` where its literal names half of a surrogate pair. -/
abbrev Name := Option String

/-- An open container that waits for a value. Earlier elements and members are newest first. -/
inductive Frame
  | element (before : List Document)
  | member (before : List (Name × Document)) (name : Name)

/-- What may come next. -/
inductive Parsing
  | awaitingValue (frames : List Frame)
  | awaitingValueOrEnd (frames : List Frame)
  | awaitingNameOrEnd (frames : List Frame)
  | afterElement (before : List Document) (frames : List Frame)
  | afterMember (before : List (Name × Document)) (frames : List Frame)
  | awaitingName (before : List (Name × Document)) (frames : List Frame)
  | awaitingColon (before : List (Name × Document)) (name : Name) (frames : List Frame)
  | finished (document : Document)

namespace Parsing

/-- Hands a value to the innermost open container. -/
def complete (document : Document) : List Frame → Parsing
  | [] => .finished document
  | .element before :: frames => .afterElement (document :: before) frames
  | .member before name :: frames => .afterMember ((name, document) :: before) frames

/-- Digits alone are a natural number; any other literal is kept as it is spelled. -/
def numberDocument (literal : List Char) : Document :=
  match Decimal.value? literal with
  | some value => .natural value
  | none => .number (String.ofList literal)

/-- Reads the first token of a value. -/
def start? (frames : List Frame) : Token → Option Parsing
  | .openArray => some (.awaitingValueOrEnd frames)
  | .openObject => some (.awaitingNameOrEnd frames)
  | .null => some (complete .null frames)
  | .boolean value => some (complete (.boolean value) frames)
  | .number literal => some (complete (numberDocument literal) frames)
  | .text content => some (complete (.text (content.map String.ofList)) frames)
  | _ => none

def step? (parsing : Parsing) (token : Token) : Option Parsing :=
  match parsing with
  | .awaitingValue frames => start? frames token
  | .awaitingValueOrEnd frames =>
      if token = .closeArray then some (complete (.array []) frames)
      else start? (.element [] :: frames) token
  | .afterElement before frames =>
      match token with
      | .comma => some (.awaitingValue (.element before :: frames))
      | .closeArray => some (complete (.array before.reverse) frames)
      | _ => none
  | .awaitingNameOrEnd frames =>
      match token with
      | .text content => some (.awaitingColon [] (content.map String.ofList) frames)
      | .closeObject => some (complete (.object []) frames)
      | _ => none
  | .afterMember before frames =>
      match token with
      | .comma => some (.awaitingName before frames)
      | .closeObject => some (complete (.object before.reverse) frames)
      | _ => none
  | .awaitingName before frames =>
      match token with
      | .text content => some (.awaitingColon before (content.map String.ofList) frames)
      | _ => none
  | .awaitingColon before name frames =>
      if token = .colon then some (.awaitingValue (.member before name :: frames)) else none
  | .finished _ => none

def document? : Parsing → Option Document
  | .finished document => some document
  | _ => none

end Parsing

/-- The document that a list of tokens spells, with nothing left over. -/
def parseTokens? (tokens : List Token) : Option Document := do
  let parsing ← tokens.foldlM Parsing.step? (.awaitingValue [])
  parsing.document?

/-- The document that a JSON text spells. -/
def parse? (text : String) : Option Document :=
  (scan? text.toList).bind parseTokens?

end FinalitySync.Json
