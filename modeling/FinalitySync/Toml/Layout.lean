/-!
The layout of TOML text: which characters stand where, and what is skipped between values.
-/

namespace FinalitySync.Toml

def isBlank (character : Char) : Bool := character == ' ' || character == '\t'

/-- Characters of bare keys, and of words that are values. -/
def isWordCharacter (character : Char) : Bool :=
  character.isAlphanum || character == '-' || character == '_'

def isCommentCharacter (character : Char) : Bool :=
  character == '\t' || 32 ≤ character.toNat

/-- Characters that stand for themselves within quotes. -/
def isTextCharacter (character : Char) : Bool :=
  character == '\t' || (32 ≤ character.toNat && character.toNat != 127)

/-- A line ends with a line feed, with or without a carriage return before it; a mark of the byte
order at the beginning is skipped. -/
def normalized (characters : List Char) : List Char :=
  foldLineEnds (if characters.head? = some '\ufeff' then characters.tail else characters)
where
  foldLineEnds : List Char → List Char
    | '\r' :: '\n' :: rest => '\n' :: foldLineEnds rest
    | character :: rest => character :: foldLineEnds rest
    | [] => []

def skipBlanks (input : List Char) : List Char := input.dropWhile isBlank

/-- What follows blanks, line ends and comments. -/
def skipFiller (input : List Char) : List Char := skip false input
where
  skip (inComment : Bool) : List Char → List Char
    | [] => []
    | character :: rest =>
        if character = '\n' then skip false rest
        else if inComment && isCommentCharacter character then skip true rest
        else if inComment then character :: rest
        else if isBlank character then skip false rest
        else if character = '#' then skip true rest
        else character :: rest

/-- What follows the end of a line, which may have blanks and a comment before it. -/
def lineEnd? (input : List Char) : Option (List Char) :=
  let input := skipBlanks input
  match if input.head? = some '#' then input.dropWhile isCommentCharacter else input with
  | [] => some []
  | '\n' :: rest => some rest
  | _ => none

/-- What follows an expected character. -/
def expect? (expected : Char) : List Char → Option (List Char)
  | [] => none
  | character :: rest => if character = expected then some rest else none

/-- A word and what follows it. -/
def word? (input : List Char) : Option (List Char × List Char) :=
  match input.takeWhile isWordCharacter with
  | [] => none
  | word => some (word, input.dropWhile isWordCharacter)

end FinalitySync.Toml
