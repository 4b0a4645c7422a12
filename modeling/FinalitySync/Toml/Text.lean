import FinalitySync.Bytes.Hex
import FinalitySync.Toml.Layout

/-!
Quoted TOML text. Within double quotes a backslash begins an escape, within single quotes every
character stands for itself; three quotes begin text of several lines.
-/

namespace FinalitySync.Toml

/-- A quoted text. -/
structure Quoted where
  content : List Char
  hasThreeQuotes : Bool

/-- The character whose number is given by so many hexadecimal digits. -/
def numbered? (digitCount : Nat) (input : List Char) : Option (Char × List Char) := do
  let digits ← (input.take digitCount).mapM Hex.value?
  let number := digits.foldl (fun number digit => 16 * number + digit) 0
  if digits.length = digitCount ∧ number.isValidChar then
    return (Char.ofNat number, input.drop digitCount)
  else none

/-- The character that an escape stands for, from behind its backslash. -/
def escape? : List Char → Option (Char × List Char)
  | [] => none
  | letter :: rest =>
      match letter with
      | '"' => some ('"', rest)
      | '\\' => some ('\\', rest)
      | 'b' => some ('\x08', rest)
      | 'f' => some ('\x0c', rest)
      | 'n' => some ('\n', rest)
      | 'r' => some ('\r', rest)
      | 't' => some ('\t', rest)
      | 'u' => numbered? 4 rest
      | 'U' => numbered? 8 rest
      | _ => none

def prepend (characters : List Char) (read : List Char × List Char) : List Char × List Char :=
  (characters ++ read.1, read.2)

/-- Text up to the quote that ends it on the same line. -/
def line? (quote : Char) : Nat → List Char → Option (List Char × List Char)
  | 0, _ => none
  | _, [] => none
  | fuel + 1, character :: rest =>
      if character = quote then some ([], rest)
      else if character = '\\' && quote == '"' then do
        let (escaped, rest) ← escape? rest
        return prepend [escaped] (← line? quote fuel rest)
      else if isTextCharacter character then do
        return prepend [character] (← line? quote fuel rest)
      else none

/-- What follows a backslash at the end of a line, the blanks and line ends after it. -/
def continuation? (input : List Char) : Option (List Char) := do
  let rest ← expect? '\n' (skipBlanks input)
  return rest.dropWhile fun character => isBlank character || character == '\n'

/-- Text up to three quotes. One or two more quotes in front of these belong to the text. -/
def lines? (quote : Char) : Nat → List Char → Option (List Char × List Char)
  | 0, _ => none
  | _, [] => none
  | fuel + 1, character :: rest =>
      if character = quote then
        let input := character :: rest
        let quoteCount := (input.takeWhile (· == quote)).length
        if 3 ≤ quoteCount then
          let kept := min (quoteCount - 3) 2
          some (List.replicate kept quote, input.drop (3 + kept))
        else do
          let read ← lines? quote fuel (input.drop quoteCount)
          return prepend (List.replicate quoteCount quote) read
      else if character = '\\' && quote == '"' then
        match continuation? rest with
        | some rest => lines? quote fuel rest
        | none => do
            let (escaped, rest) ← escape? rest
            return prepend [escaped] (← lines? quote fuel rest)
      else if character = '\n' || isTextCharacter character then do
        return prepend [character] (← lines? quote fuel rest)
      else none

/-- The text that begins behind a first quote. A line end right behind three quotes is left
out. -/
def quoted? (quote : Char) (input : List Char) : Option (Quoted × List Char) :=
  let fuel := input.length
  if input.take 2 = [quote, quote] then
    let body := input.drop 2
    (lines? quote fuel (if body.head? = some '\n' then body.tail else body)).map
      fun (content, rest) => (⟨content, true⟩, rest)
  else
    (line? quote fuel input).map fun (content, rest) => (⟨content, false⟩, rest)

end FinalitySync.Toml
