import FinalitySync.Bytes.Hex
import FinalitySync.Document.Basic
import FinalitySync.Toml.Layout

/-!
TOML numbers and dates. An integer has to fit 64 bits with a sign, a floating-point number has to
be finite, and of a date only the shape of its text is looked at.
-/

namespace FinalitySync.Toml

def isDigitOf (radix : Nat) (character : Char) : Bool :=
  match Hex.value? character with
  | some value => value < radix
  | none => false

/-- Digits with single underscores between them. -/
def areGroupedDigits (digits : List Char) : Bool :=
  !digits.isEmpty && digits.head? != some '_' && digits.getLast? != some '_' &&
    !(digits.zip digits.tail).contains ('_', '_')

structure Digits where
  isNegative : Bool
  /-- Without the underscores. -/
  digits : List Char

def Digits.value (radix : Nat) (digits : Digits) : Nat :=
  digits.digits.foldl (fun value digit => radix * value + (Hex.value? digit).getD 0) 0

def Digits.signed (radix : Nat) (digits : Digits) : Int :=
  if digits.isNegative then -(digits.value radix) else digits.value radix

/-- The digits at the front of a word, and what follows them. -/
def digits? (radix : Nat) (maySign mayPad : Bool) (word : List Char) :
    Option (Digits × List Char) :=
  let isSigned := maySign && word.head? == some '-'
  let unsigned := if isSigned then word.tail else word
  let isPart (character : Char) : Bool := isDigitOf radix character || character == '_'
  let digits := unsigned.takeWhile isPart
  let isPadded := digits.head? == some '0' && digits.length != 1
  if areGroupedDigits digits && (mayPad || !isPadded) then
    some (⟨isSigned, digits.filter (· != '_')⟩, unsigned.dropWhile isPart)
  else none

/-- Digits that make up a whole word, with a value of 64 bits. -/
def integer? (radix : Nat) (maySign mayPad : Bool) (word : List Char) : Option Document := do
  let (digits, rest) ← digits? radix maySign mayPad word
  let value := digits.signed radix
  if rest.isEmpty && -(2 ^ 63) ≤ value && value < 2 ^ 63 then
    if 0 ≤ value then return .natural value.toNat
    else return .number (String.ofList word)
  else none

/-- Whether a decimal number is nearer to a floating-point number than to the first power of two
that is too large for one. -/
def isFinite (mantissa : Nat) (exponent : Int) : Bool :=
  let limit := 2 ^ 1024 - 2 ^ 970
  let length := (Nat.toDigits 10 mantissa).length
  if mantissa = 0 then true
  else if exponent < 0 then
    if length + exponent ≤ 300 then true else mantissa < limit * Nat.pow 10 exponent.natAbs
  else if length + exponent ≤ 310 then mantissa * Nat.pow 10 exponent.toNat < limit
  else false

/-- The digits of an exponent from behind its mark. A plus sign is no part of a word, so the digits
may be the next one. -/
def exponent? (behindMark rest : List Char) : Option (Digits × List Char) := do
  if behindMark.isEmpty then
    let (word, rest) ← word? (if rest.head? = some '+' then rest.tail else rest)
    let (digits, afterDigits) ← digits? 10 false true word
    if afterDigits.isEmpty then return (digits, rest) else none
  else
    let (digits, afterDigits) ← digits? 10 true true behindMark
    if afterDigits.isEmpty then return (digits, rest) else none

/-- A number with a fraction, an exponent or both, given its first word, the word behind the point
and what follows. -/
def float? (word : List Char) (fraction : Option (List Char)) (rest : List Char) :
    Option (List Char) := do
  let (integral, afterIntegral) ← digits? 10 true false word
  let (fractionDigits, afterFraction) ← match fraction with
    | none => some ([], afterIntegral)
    | some fraction =>
        if afterIntegral.isEmpty then do
          let (digits, afterDigits) ← digits? 10 false true fraction
          some (digits.digits, afterDigits)
        else none
  let mantissa := Digits.value 10 ⟨false, integral.digits ++ fractionDigits⟩
  let finite (exponent : Int) (rest : List Char) : Option (List Char) :=
    if isFinite mantissa (exponent - fractionDigits.length) then some rest else none
  match afterFraction with
  | [] => finite 0 rest
  | mark :: behindMark =>
      if mark = 'e' || mark = 'E' then do
        let (exponent, rest) ← exponent? behindMark rest
        finite (exponent.signed 10) rest
      else none

/-- The number that begins with a word, and what follows it. -/
def number? (word rest : List Char) : Option (Document × List Char) :=
  let whole (document : Option Document) : Option (Document × List Char) :=
    document.map fun document => (document, rest)
  let spelled (rest : List Char) : Document × List Char :=
    (.number (String.ofList word), rest)
  match word with
  | '0' :: 'x' :: digits => whole (integer? 16 false true digits)
  | '0' :: 'o' :: digits => whole (integer? 8 false true digits)
  | '0' :: 'b' :: digits => whole (integer? 2 false true digits)
  | _ =>
      if word.contains 'e' || word.contains 'E' then (float? word none rest).map spelled
      else
        match rest with
        | '.' :: behindPoint => do
            let (fraction, rest) ← word? behindPoint
            return spelled (← float? word (some fraction) rest)
        | _ =>
            if ["inf", "-inf", "nan", "-nan"].contains (String.ofList word) then
              some (spelled rest)
            else whole (integer? 10 true false word)

/-- Whether a word is the beginning of a date. -/
def startsDate (word : List Char) : Bool :=
  let hasExponent := (word.zip word.tail).any fun (first, second) =>
    (first == 'e' || first == 'E') && second == '-'
  word.contains 'T' || word.contains 't' || (word.tail.contains '-' && !hasExponent)

/-- What follows a mark and a word; everything, where the mark is missing. -/
def markedWord? (mark : Char) (input : List Char) : Option (List Char) :=
  match expect? mark input with
  | none => some input
  | some rest => (word? rest).map Prod.snd

/-- What follows a time of day, from behind the colon after the hour. -/
def minutes? (input : List Char) : Option (List Char) := do
  let (_, rest) ← word? input
  let (_, rest) ← word? (← expect? ':' rest)
  let rest ← markedWord? '.' rest
  let rest ← markedWord? '+' rest
  markedWord? ':' rest

/-- What follows a date whose first word is given. One space may stand in front of the hour. -/
def date? (isBehindColon : Bool) (input : List Char) : Option (List Char) :=
  let afterHour :=
    match input with
    | ' ' :: rest => (word? rest).elim input Prod.snd
    | _ => input
  if isBehindColon then minutes? afterHour
  else
    match expect? ':' afterHour with
    | some rest => minutes? rest
    | none => some afterHour

/-- The number or date that begins with a word, and what follows it. -/
def numberOrDate? (word rest : List Char) : Option (Document × List Char) :=
  let dated (rest : List Char) : Document × List Char := (.number (String.ofList word), rest)
  if startsDate word then (date? false rest).map dated
  else
    match expect? ':' rest with
    | some rest => (date? true rest).map dated
    | none => number? word rest

end FinalitySync.Toml
