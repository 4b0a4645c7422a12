import FinalitySync.Toml.Section

/-!
From TOML text to documents, statement by statement.
-/

namespace FinalitySync.Toml

inductive Statement
  | header (path : List String) (isElement : Bool)
  | assignment (key : List String) (document : Document)

/-- A header from behind its first bracket, and what follows its line. -/
def header? (input : List Char) : Option (Statement × List Char) := do
  let isElement := input.head? == some '['
  let (path, rest) ← key? (if isElement then input.tail else input)
  let rest ← expect? ']' rest
  let rest ← if isElement then expect? ']' rest else some rest
  return (.header path isElement, ← lineEnd? rest)

/-- An assignment and what follows its line. -/
def assignment? (input : List Char) : Option (Statement × List Char) := do
  let (key, rest) ← key? input
  let rest := skipBlanks (← expect? '=' rest)
  let (document, rest) ← value? (2 * rest.length + 2) rest
  return (.assignment key document, ← lineEnd? rest)

def statement? (input : List Char) : Option (Statement × List Char) :=
  match expect? '[' input with
  | some rest => header? rest
  | none => assignment? input

/-- The statements of a text whose line ends are normal. -/
def statements? : Nat → List Char → Option (List Statement)
  | 0, _ => none
  | fuel + 1, input =>
      match skipFiller input with
      | [] => some []
      | character :: rest => do
          let (statement, rest) ← statement? (character :: rest)
          return statement :: (← statements? fuel rest)

/-- The sections that statements make up, given the one that is open. -/
def sections? (current : Section) : List Statement → Option (List Section)
  | [] => some [current]
  | .header path isElement :: statements =>
      (sections? ⟨path, isElement, []⟩ statements).map (current :: ·)
  | .assignment key document :: statements => do
      let entries ← assign? document key current.entries
      sections? { current with entries := entries } statements

/-- The document that a TOML text spells. -/
def parse? (text : String) : Option Document := do
  let input := normalized text.toList
  let statements ← statements? (input.length + 1) input
  let sections ← sections? ⟨[], false, []⟩ statements
  Section.document? sections

end FinalitySync.Toml
