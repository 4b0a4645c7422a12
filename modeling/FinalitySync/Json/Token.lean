import FinalitySync.Bytes.Hex

/-!
The tokens of JSON text and how each is spelled.
-/

namespace FinalitySync.Json

inductive Token
  | openArray
  | closeArray
  | openObject
  | closeObject
  | comma
  | colon
  | null
  | boolean (value : Bool)
  | number (literal : List Char)
  /-- `none` is a string literal that names half of a surrogate pair. -/
  | text (content : Option (List Char))
deriving DecidableEq, Repr

/-- Quotes, backslashes and control characters are escaped, with a letter where there is one. -/
def escaped (character : Char) : List Char :=
  if character = '"' then ['\\', '"']
  else if character = '\\' then ['\\', '\\']
  else if character = '\x08' then ['\\', 'b']
  else if character = '\x0c' then ['\\', 'f']
  else if character = '\n' then ['\\', 'n']
  else if character = '\r' then ['\\', 'r']
  else if character = '\t' then ['\\', 't']
  else if character.toNat < 32 then
    ['\\', 'u', '0', '0', Hex.digit (character.toNat / 16), Hex.digit (character.toNat % 16)]
  else [character]

def Token.spelling : Token → List Char
  | .openArray => ['[']
  | .closeArray => [']']
  | .openObject => ['\x7b']
  | .closeObject => ['\x7d']
  | .comma => [',']
  | .colon => [':']
  | .null => ['n', 'u', 'l', 'l']
  | .boolean true => ['t', 'r', 'u', 'e']
  | .boolean false => ['f', 'a', 'l', 's', 'e']
  | .number literal => literal
  | .text (some content) => '"' :: content.flatMap escaped ++ ['"']
  | .text none => ['"', '\\', 'u', 'd', '8', '0', '0', '"']

end FinalitySync.Json
