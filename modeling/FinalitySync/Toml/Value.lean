import FinalitySync.Toml.Number
import FinalitySync.Toml.Text

/-!
TOML keys and values. Keys of several parts open tables within tables; what one dotted key opened,
another may extend.
-/

namespace FinalitySync.Toml

/-- A bare or quoted part of a key. -/
def keyPart? (input : List Char) : Option (String × List Char) :=
  match input with
  | [] => none
  | character :: rest =>
      if character = '"' || character = '\'' then
        match quoted? character rest with
        | some (quoted, rest) =>
            if quoted.hasThreeQuotes then none else some (String.ofList quoted.content, rest)
        | none => none
      else (word? input).map fun (word, rest) => (String.ofList word, rest)

def keyParts? : Nat → List Char → Option (List String × List Char)
  | 0, _ => none
  | fuel + 1, input => do
      let (part, rest) ← keyPart? (skipBlanks input)
      let rest := skipBlanks rest
      match expect? '.' rest with
      | none => return ([part], rest)
      | some behindPoint =>
          let (parts, rest) ← keyParts? fuel behindPoint
          return (part :: parts, rest)

/-- A key of one or more parts, and what follows it and the blanks after it. -/
def key? (input : List Char) : Option (List String × List Char) :=
  keyParts? (input.length + 1) input

/-- What a key is given: a value, or a table that dotted keys fill. -/
inductive Entry
  | value (document : Document)
  | opened (entries : List (String × Entry))

mutual

def Entry.document : Entry → Document
  | .value document => document
  | .opened entries => .object (members entries)

/-- The members of a table, in order. -/
def members : List (String × Entry) → List (Option String × Document)
  | [] => []
  | (name, entry) :: entries => (some name, entry.document) :: members entries

end

/-- Applies a change to the first entry of a name, or to an empty table in a new last entry. Only
tables that dotted keys opened can be changed. -/
def extendFirst? (name : String)
    (change? : List (String × Entry) → Option (List (String × Entry))) :
    List (String × Entry) → Option (List (String × Entry))
  | [] => (change? []).map fun entries => [(name, .opened entries)]
  | (entryName, entry) :: entries =>
      if entryName = name then
        match entry with
        | .opened inner => (change? inner).map fun inner => (entryName, .opened inner) :: entries
        | .value _ => none
      else (extendFirst? name change? entries).map ((entryName, entry) :: ·)

/-- Adds a value under a key. A key of one part is added even if it is there already. -/
def assign? (document : Document) : List String → List (String × Entry) →
    Option (List (String × Entry))
  | [], _ => none
  | [name], entries => some (entries ++ [(name, .value document)])
  | name :: parts, entries => extendFirst? name (assign? document parts) entries

/-- Whether a word may begin a number or a date. -/
def startsNumber (word : List Char) : Bool :=
  ["inf", "nan"].contains (String.ofList word) ||
    match word with
    | first :: _ => first == '-' || first.isDigit
    | [] => false

/-- The value that a word begins, and what follows it. -/
def wordValue? (word rest : List Char) : Option (Document × List Char) :=
  if String.ofList word = "true" then some (.boolean true, rest)
  else if String.ofList word = "false" then some (.boolean false, rest)
  else if startsNumber word then numberOrDate? word rest
  else none

mutual

/-- A value and what follows it. -/
def value? : Nat → List Char → Option (Document × List Char)
  | 0, _ => none
  | _, [] => none
  | fuel + 1, character :: rest =>
      if character = '"' || character = '\'' then
        (quoted? character rest).map fun (quoted, rest) =>
          (.ofText (String.ofList quoted.content), rest)
      else if character = '[' then
        (elements? fuel rest).map fun (documents, rest) => (.array documents, rest)
      else if character = '\x7b' then
        match expect? '\x7d' (skipBlanks rest) with
        | some rest => some (.object [], rest)
        | none =>
            (assignments? fuel [] rest).map fun (entries, rest) =>
              (.object (members entries), rest)
      else if character = '+' then do
        let (word, rest) ← word? rest
        number? word rest
      else do
        let (word, rest) ← word? (character :: rest)
        wordValue? word rest

/-- The elements of an array up to its end. Lines may end between them, and a comma may stand
behind the last one. -/
def elements? : Nat → List Char → Option (List Document × List Char)
  | 0, _ => none
  | fuel + 1, input =>
      let input := skipFiller input
      match expect? ']' input with
      | some rest => some ([], rest)
      | none => do
          let (document, rest) ← value? fuel input
          let rest := skipFiller rest
          match expect? ',' rest with
          | some rest =>
              let (documents, rest) ← elements? fuel rest
              return (document :: documents, rest)
          | none => return ([document], ← expect? ']' rest)

/-- The assignments of an inline table up to its end, given the entries before them. -/
def assignments? : Nat → List (String × Entry) → List Char →
    Option (List (String × Entry) × List Char)
  | 0, _, _ => none
  | fuel + 1, entries, input => do
      let (key, rest) ← key? input
      let (document, rest) ← value? fuel (skipBlanks (← expect? '=' rest))
      let entries ← assign? document key entries
      let rest := skipBlanks rest
      match expect? '\x7d' rest with
      | some rest => return (entries, rest)
      | none => assignments? fuel entries (← expect? ',' rest)

end

end FinalitySync.Toml
