import FinalitySync.Json.Printer
import Mathlib.Data.List.TakeWhile

/-!
# Scanning printed documents

A printed document is scanned back into the tokens it was printed from.  The scanner leaves words
and numbers open until a character that does not continue them, so the statements are about what a
scanner holds, not about the state it is in.
-/

namespace FinalitySync.Json

/-- `Holds scanner found` means that the scanner would have found these tokens, newest first, if
the text ended here. -/
inductive Scanner.Holds : Scanner → List Token → Prop
  | between (found : List Token) : Holds ⟨found, .between⟩ found
  | word {letters : List Char} {token : Token} (found : List Token)
      (spelled : word? letters.reverse = some token) :
      Holds ⟨found, .word letters⟩ (token :: found)
  | number {literal : List Char} {token : Token} (found : List Token)
      (spelled : number? literal.reverse = some token) :
      Holds ⟨found, .number literal⟩ (token :: found)

theorem Scanner.Holds.finish?
    {scanner : Scanner} {found : List Token}
    (holds : scanner.Holds found) :
    scanner.finish? = some found.reverse := by
  cases holds with
  | between => rfl
  | word _ spelled => simp [Scanner.finish?, spelled]
  | number _ spelled => simp [Scanner.finish?, spelled]

/-- The tokens of one character that end an open word or number. -/
def Token.IsMark (token : Token) : Prop :=
  token ∈ [.openArray, .closeArray, .openObject, .closeObject, .comma, .colon]

/-- A mark is spelled with one character, which goes on no word and no number. -/
theorem Token.IsMark.spelling_eq {mark : Token} (isMark : mark.IsMark) :
    ∃ character,
      mark.spelling = [character] ∧
        character.isLower = false ∧
        isNumberCharacter character = false ∧
        ∀ found, Scanner.begin? found character = some ⟨mark :: found, .between⟩ := by
  simp only [Token.IsMark, List.mem_cons, List.not_mem_nil, or_false] at isMark
  rcases isMark with rfl | rfl | rfl | rfl | rfl | rfl <;>
    exact ⟨_, rfl, rfl, rfl, fun _ => rfl⟩

theorem Scanner.Holds.foldlM_mark
    {scanner : Scanner} {found : List Token} {mark : Token}
    (holds : scanner.Holds found) (isMark : mark.IsMark) :
    mark.spelling.foldlM Scanner.step? scanner =
      some ⟨mark :: found, .between⟩ := by
  obtain ⟨character, spelling, notLower, notNumber, begun⟩ := isMark.spelling_eq
  rw [spelling]
  cases holds with
  | between => simp [Scanner.step?, begun]
  | word found spelled => simp [Scanner.step?, spelled, notLower, begun]
  | number found spelled => simp [Scanner.step?, spelled, notNumber, begun]

theorem isBlank_of_isDigit {character : Char} (isDigit : character.isDigit = true) :
    isBlank character = false := by
  by_contra blank
  simp only [isBlank, Bool.not_eq_false, Bool.or_eq_true, beq_iff_eq] at blank
  rcases blank with ((rfl | rfl) | rfl) | rfl <;> exact absurd isDigit (by decide)

/-- Only the digits of zero begin with a zero. -/
theorem head?_digits_ne_zero {value : Nat} (positive : 0 < value) :
    (Decimal.digits value).head? ≠ some '0' := by
  induction value using Nat.strongRecOn with
  | ind value inductionHypothesis =>
      rw [Decimal.digits, Nat.toDigits_eq_if (by decide)]
      split
      · rename_i single
        have nonzero : ∀ digit < 10, 0 < digit → Nat.digitChar digit ≠ '0' := by
          decide
        simpa using nonzero value single positive
      · have quotientHead :=
          inductionHypothesis (value / 10) (by omega) (by omega)
        obtain ⟨first, rest, quotientDigits⟩ :=
          List.exists_cons_of_ne_nil (Decimal.digits_ne_nil (value / 10))
        rw [quotientDigits] at quotientHead
        rw [← Decimal.digits, quotientDigits]
        exact quotientHead

theorem isNumberLiteral_digits (value : Nat) :
    isNumberLiteral (Decimal.digits value) = true := by
  have allDigits : ∀ character ∈ Decimal.digits value, character.isDigit = true :=
    fun _ member => Decimal.isDigit_of_mem_digits member
  have noSign : (Decimal.digits value).head? ≠ some '-' := by
    intro sign
    have isDigit := allDigits '-' (List.mem_of_head? sign)
    exact absurd isDigit (by decide)
  have taken : (Decimal.digits value).takeWhile Char.isDigit = Decimal.digits value :=
    List.takeWhile_eq_self_iff.mpr allDigits
  have dropped : (Decimal.digits value).dropWhile Char.isDigit = [] :=
    List.dropWhile_eq_nil_iff.mpr allDigits
  have noLeadingZero :
      (Decimal.digits value).head? ≠ some '0' ∨ (Decimal.digits value).length = 1 := by
    rcases Nat.eq_zero_or_pos value with rfl | positive
    · exact Or.inr rfl
    · exact Or.inl (head?_digits_ne_zero positive)
  simp only [isNumberLiteral, noSign, if_false, taken, dropped]
  rcases noLeadingZero with nonzero | single
  · simp [Decimal.digits_ne_nil, nonzero]
  · simp [Decimal.digits_ne_nil, single]

theorem foldlM_continueNumber
    (found : List Token) {digits : List Char}
    (allDigits : ∀ character ∈ digits, character.isDigit = true)
    (literal : List Char) :
    digits.foldlM Scanner.step? ⟨found, .number literal⟩ =
      some ⟨found, .number (digits.reverse ++ literal)⟩ := by
  induction digits generalizing literal with
  | nil => rfl
  | cons digit digits inductionHypothesis =>
      have isDigit := allDigits digit (List.mem_cons_self)
      have laterDigits : ∀ character ∈ digits, character.isDigit = true :=
        fun _ member => allDigits _ (List.mem_cons_of_mem digit member)
      have continued :
          Scanner.step? ⟨found, .number literal⟩ digit =
            some ⟨found, .number (digit :: literal)⟩ := by
        simp [Scanner.step?, isNumberCharacter, isDigit]
      rw [List.foldlM_cons, continued]
      simpa using inductionHypothesis laterDigits (digit :: literal)

theorem foldlM_digits (found : List Token) (value : Nat) :
    ∃ scanner,
      (Decimal.digits value).foldlM Scanner.step? ⟨found, .between⟩ = some scanner ∧
        scanner.Holds (.number (Decimal.digits value) :: found) := by
  have allDigits : ∀ character ∈ Decimal.digits value, character.isDigit = true :=
    fun _ member => Decimal.isDigit_of_mem_digits member
  cases spelling : Decimal.digits value with
  | nil => exact absurd spelling (Decimal.digits_ne_nil value)
  | cons digit digits =>
      rw [spelling] at allDigits
      have isDigit := allDigits digit (List.mem_cons_self)
      have laterDigits : ∀ character ∈ digits, character.isDigit = true :=
        fun _ member => allDigits _ (List.mem_cons_of_mem digit member)
      have begun :
          Scanner.step? ⟨found, .between⟩ digit = some ⟨found, .number [digit]⟩ := by
        simp [Scanner.step?, Scanner.begin?, isBlank_of_isDigit isDigit, startsNumber, isDigit]
      refine ⟨⟨found, .number (digits.reverse ++ [digit])⟩, ?_, ?_⟩
      · rw [List.foldlM_cons, begun]
        exact foldlM_continueNumber found laterDigits [digit]
      · apply Scanner.Holds.number
        have wellFormed := isNumberLiteral_digits value
        rw [spelling] at wellFormed
        simp [number?, wellFormed]

/-- The part of a string literal that the spelling of a character is scanned as. -/
def pieceOf (character : Char) : Piece :=
  if character.toNat < 32 ∧ character ∉ ['\x08', '\x0c', '\n', '\r', '\t'] then
    .codeUnit character.toNat
  else .character character

theorem foldlM_escaped
    (found : List Token) (pieces : List Piece) (character : Char) :
    (escaped character).foldlM Scanner.step? ⟨found, .text pieces⟩ =
      some ⟨found, .text (pieceOf character :: pieces)⟩ := by
  have digitValue : ∀ value < 16, Hex.value? (Hex.digit value) = some value := by
    decide
  by_cases lettered : character ∈ ['"', '\\', '\x08', '\x0c', '\n', '\r', '\t']
  · simp only [List.mem_cons, List.not_mem_nil, or_false] at lettered
    rcases lettered with rfl | rfl | rfl | rfl | rfl | rfl | rfl <;> rfl
  · simp only [List.mem_cons, List.not_mem_nil, or_false, not_or] at lettered
    by_cases control : character.toNat < 32
    · have high := digitValue (character.toNat / 16) (by omega)
      have low := digitValue (character.toNat % 16) (by omega)
      have zero : Hex.value? '0' = some 0 := rfl
      have whole :
          16 * (character.toNat / 16) + character.toNat % 16 = character.toNat := by
        omega
      simp [escaped, Scanner.step?, pieceOf, lettered, control, high, low, zero, whole]
    · simp [escaped, Scanner.step?, pieceOf, lettered, control]

theorem foldlM_flatMap_escaped
    (found : List Token) (pieces : List Piece) (content : List Char) :
    (content.flatMap escaped).foldlM Scanner.step? ⟨found, .text pieces⟩ =
      some ⟨found, .text ((content.map pieceOf).reverse ++ pieces)⟩ := by
  induction content generalizing pieces with
  | nil => rfl
  | cons character content inductionHypothesis =>
      rw [List.flatMap_cons, List.foldlM_append, foldlM_escaped]
      simpa using inductionHypothesis (pieceOf character :: pieces)

/-- Code units below the surrogates stand for themselves. -/
theorem assemble?_codeUnit_cons
    {value : Nat} (notSurrogate : value < 0xd800) (pieces : List Piece) :
    assemble? (.codeUnit value :: pieces) =
      (assemble? pieces).map (Char.ofNat value :: ·) := by
  have notHigh : ¬ 0xd800 ≤ value := by omega
  have notLow : ¬ 0xdc00 ≤ value := by omega
  cases pieces with
  | nil => simp [assemble?, notHigh]
  | cons piece pieces =>
      cases piece with
      | character next => simp [assemble?, notHigh]
      | codeUnit next => simp [assemble?, notHigh, notLow]

theorem assemble?_map_pieceOf (content : List Char) :
    assemble? (content.map pieceOf) = some content := by
  induction content with
  | nil => rfl
  | cons character content inductionHypothesis =>
      rw [List.map_cons, pieceOf]
      split
      · rename_i control
        rw [assemble?_codeUnit_cons (by omega), inductionHypothesis, Char.ofNat_toNat]
        rfl
      · rw [assemble?, inductionHypothesis]
        rfl

theorem foldlM_text (found : List Token) (content : List Char) :
    (Token.spelling (.text (some content))).foldlM Scanner.step? ⟨found, .between⟩ =
      some ⟨.text (some content) :: found, .between⟩ := by
  have opened : Scanner.step? ⟨found, .between⟩ '"' = some ⟨found, .text []⟩ := rfl
  have closed (pieces : List Piece) :
      Scanner.step? ⟨found, .text pieces⟩ '"' =
        some ⟨.text (assemble? pieces.reverse) :: found, .between⟩ := rfl
  rw [Token.spelling, List.cons_append, List.foldlM_cons, opened]
  simp only [Option.bind_eq_bind, Option.bind_some, List.foldlM_append, foldlM_flatMap_escaped,
    List.append_nil, List.foldlM_cons, List.foldlM_nil, closed, List.reverse_reverse,
    assemble?_map_pieceOf]
  rfl

end FinalitySync.Json
