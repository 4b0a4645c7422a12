import FinalitySync.Json.Token

/-!
From characters to tokens. The scanner is a fold over the characters of the text; its state says
what the last characters belong to.
-/

namespace FinalitySync.Json

/-- A part of a string literal: a character, or a code unit given by its number. -/
inductive Piece
  | character (value : Char)
  | codeUnit (value : Nat)
deriving DecidableEq, Repr

/-- The text that the pieces spell. Code units of a surrogate pair stand for one character and
have to follow each other. -/
def assemble? : List Piece → Option (List Char)
  | [] => some []
  | .character value :: pieces => (assemble? pieces).map (value :: ·)
  | .codeUnit high :: .codeUnit low :: pieces =>
      if 0xd800 ≤ high ∧ high < 0xdc00 then
        if 0xdc00 ≤ low ∧ low < 0xe000 then
          (assemble? pieces).map
            (Char.ofNat (0x10000 + (high - 0xd800) * 0x400 + (low - 0xdc00)) :: ·)
        else none
      else if 0xdc00 ≤ high ∧ high < 0xe000 then none
      else (assemble? (.codeUnit low :: pieces)).map (Char.ofNat high :: ·)
  | .codeUnit value :: pieces =>
      if 0xd800 ≤ value ∧ value < 0xe000 then none
      else (assemble? pieces).map (Char.ofNat value :: ·)

/-- An optional minus sign, an integer without superfluous zeros, an optional fraction and an
optional exponent. -/
def isNumberLiteral (literal : List Char) : Bool :=
  let magnitude := if literal.head? = some '-' then literal.tail else literal
  let integer := magnitude.takeWhile Char.isDigit
  let afterInteger := magnitude.dropWhile Char.isDigit
  let integerIsGood := !integer.isEmpty && (integer.head? != some '0' || integer.length == 1)
  let fraction := if afterInteger.head? = some '.' then
    afterInteger.tail.takeWhile Char.isDigit else ['0']
  let afterFraction := if afterInteger.head? = some '.' then
    afterInteger.tail.dropWhile Char.isDigit else afterInteger
  let exponentIsGood :=
    match afterFraction with
    | [] => true
    | mark :: exponent =>
        let unsigned := if exponent.head? = some '-' ∨ exponent.head? = some '+' then
          exponent.tail else exponent
        (mark == 'e' || mark == 'E') && !unsigned.isEmpty && unsigned.all Char.isDigit
  integerIsGood && !fraction.isEmpty && exponentIsGood

/-- What the characters read last belong to. Characters and pieces are newest first. -/
inductive Scanning
  | between
  | word (letters : List Char)
  | number (literal : List Char)
  | text (pieces : List Piece)
  | escape (pieces : List Piece)
  | codeUnit (pieces : List Piece) (digitCount value : Nat)

def isBlank (character : Char) : Bool :=
  character == ' ' || character == '\t' || character == '\n' || character == '\r'

def isNumberCharacter (character : Char) : Bool :=
  character.isDigit || character == '-' || character == '+' || character == '.' ||
    character == 'e' || character == 'E'

def startsNumber (character : Char) : Bool :=
  character.isDigit || character == '-'

def word? (letters : List Char) : Option Token :=
  if letters = ['n', 'u', 'l', 'l'] then some .null
  else if letters = ['t', 'r', 'u', 'e'] then some (.boolean true)
  else if letters = ['f', 'a', 'l', 's', 'e'] then some (.boolean false)
  else none

def number? (literal : List Char) : Option Token :=
  if isNumberLiteral literal then some (.number literal) else none

/-- The character that an escape letter stands for. -/
def escapeLetter? (letter : Char) : Option Char :=
  match letter with
  | '"' => some '"'
  | '\\' => some '\\'
  | '/' => some '/'
  | 'b' => some '\x08'
  | 'f' => some '\x0c'
  | 'n' => some '\n'
  | 'r' => some '\r'
  | 't' => some '\t'
  | _ => none

/-- The tokens found so far, newest first, and what the last characters belong to. -/
structure Scanner where
  found : List Token
  scanning : Scanning

namespace Scanner

def start : Scanner := ⟨[], .between⟩

/-- Reads a character that no earlier character claims. -/
def begin? (found : List Token) (character : Char) : Option Scanner :=
  if isBlank character then some ⟨found, .between⟩
  else if startsNumber character then some ⟨found, .number [character]⟩
  else if character.isLower then some ⟨found, .word [character]⟩
  else
    match character with
    | '"' => some ⟨found, .text []⟩
    | '[' => some ⟨.openArray :: found, .between⟩
    | ']' => some ⟨.closeArray :: found, .between⟩
    | '\x7b' => some ⟨.openObject :: found, .between⟩
    | '\x7d' => some ⟨.closeObject :: found, .between⟩
    | ',' => some ⟨.comma :: found, .between⟩
    | ':' => some ⟨.colon :: found, .between⟩
    | _ => none

def step? (scanner : Scanner) (character : Char) : Option Scanner :=
  match scanner.scanning with
  | .between => begin? scanner.found character
  | .word letters =>
      if character.isLower then some { scanner with scanning := .word (character :: letters) }
      else do
        let token ← word? letters.reverse
        begin? (token :: scanner.found) character
  | .number literal =>
      if isNumberCharacter character then
        some { scanner with scanning := .number (character :: literal) }
      else do
        let token ← number? literal.reverse
        begin? (token :: scanner.found) character
  | .text pieces =>
      if character = '"' then
        some ⟨.text (assemble? pieces.reverse) :: scanner.found, .between⟩
      else if character = '\\' then some { scanner with scanning := .escape pieces }
      else if character.toNat < 32 then none
      else some { scanner with scanning := .text (.character character :: pieces) }
  | .escape pieces =>
      if character = 'u' then some { scanner with scanning := .codeUnit pieces 0 0 }
      else do
        let value ← escapeLetter? character
        return { scanner with scanning := .text (.character value :: pieces) }
  | .codeUnit pieces digitCount value => do
      let digit ← Hex.value? character
      let value := 16 * value + digit
      if digitCount = 3 then
        return { scanner with scanning := .text (.codeUnit value :: pieces) }
      else
        return { scanner with scanning := .codeUnit pieces (digitCount + 1) value }

/-- The tokens in order, once the text has ended. -/
def finish? (scanner : Scanner) : Option (List Token) :=
  match scanner.scanning with
  | .between => some scanner.found.reverse
  | .word letters => do
      let token ← word? letters.reverse
      return (token :: scanner.found).reverse
  | .number literal => do
      let token ← number? literal.reverse
      return (token :: scanner.found).reverse
  | _ => none

end Scanner

/-- The tokens of a text, if every one is well formed. -/
def scan? (characters : List Char) : Option (List Token) := do
  let scanner ← characters.foldlM Scanner.step? Scanner.start
  scanner.finish?

end FinalitySync.Json
