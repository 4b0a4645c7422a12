import FinalitySync.Proofs.Document.Faithful
import FinalitySync.Text.Base58
import Mathlib.Data.Nat.Digits.Lemmas

/-!
# Base 58 text is read back

Zeros in front of a number are kept apart from its digits, so converting to another base and back
gives the digits again, however many zeros they begin with.
-/

namespace FinalitySync.Base58

theorem value_eq_ofDigits (base : Nat) (digits : List Nat) :
    value base digits = Nat.ofDigits base digits := by
  rw [Nat.ofDigits_eq_foldr]
  rfl

theorem numerals_eq_digits {base : Nat} (large : 1 < base) (number : Nat) :
    numerals base large number = Nat.digits base number := by
  induction number using Nat.strongRecOn with
  | ind number inductionHypothesis =>
      rw [numerals]
      by_cases isZero : number = 0
      · rw [if_pos isZero, isZero, Nat.digits_zero]
      · have smaller : number / base < number := Nat.div_lt_self (by omega) large
        rw [if_neg isZero, inductionHypothesis _ smaller,
          Nat.digits_def' large (Nat.pos_of_ne_zero isZero)]

/-- The zeros in front are those of the given digits, and the digits behind them spell the same
number. -/
theorem convert_replicate_append
    {source target : Nat} (large : 1 < target)
    (zeros : Nat) {digits : List Nat} (noZeroInFront : digits.head? ≠ some 0) :
    convert source target large (List.replicate zeros 0 ++ digits) =
      List.replicate zeros 0 ++
        (Nat.digits target (Nat.ofDigits source digits.reverse)).reverse := by
  have zerosInFront :
      ((List.replicate zeros 0 ++ digits).takeWhile (· == 0)).length = zeros := by
    have endsThere : digits.takeWhile (· == 0) = [] := by
      cases digits with
      | nil => rfl
      | cons first rest =>
          have nonzero : first ≠ 0 := fun isZero => noZeroInFront (congrArg some isZero)
          simp [nonzero]
    rw [List.takeWhile_append_of_pos (by simp), endsThere]
    simp
  rw [convert, zerosInFront, numerals_eq_digits, value_eq_ofDigits, List.reverse_append,
    List.reverse_replicate, Nat.ofDigits_append_replicate_zero]

theorem exists_replicate_append (digits : List Nat) :
    ∃ zeros rest, digits = List.replicate zeros 0 ++ rest ∧ rest.head? ≠ some 0 := by
  induction digits with
  | nil => exact ⟨0, [], rfl, by simp⟩
  | cons first digits inductionHypothesis =>
      by_cases isZero : first = 0
      · obtain ⟨zeros, rest, split, noZeroInFront⟩ := inductionHypothesis
        refine ⟨zeros + 1, rest, ?_, noZeroInFront⟩
        rw [isZero, split, List.replicate_succ, List.cons_append]
      · exact ⟨0, first :: digits, rfl, by simpa using isZero⟩

/-- Most significant digits are not zero. -/
theorem head?_reverse_digits_ne_zero (base number : Nat) :
    (Nat.digits base number).reverse.head? ≠ some 0 := by
  rw [List.head?_reverse]
  intro lastIsZero
  by_cases isZero : number = 0
  · rw [isZero, Nat.digits_zero] at lastIsZero
    cases lastIsZero
  · have nonempty : Nat.digits base number ≠ [] := Nat.digits_ne_nil_iff_ne_zero.mpr isZero
    rw [List.getLast?_eq_some_getLast nonempty] at lastIsZero
    exact Nat.getLast_digit_ne_zero base isZero (Option.some.inj lastIsZero)

theorem convert_convert
    {source target : Nat} (largeSource : 1 < source) (largeTarget : 1 < target)
    {digits : List Nat} (bounded : ∀ digit ∈ digits, digit < source) :
    convert target source largeSource (convert source target largeTarget digits) = digits := by
  obtain ⟨zeros, rest, rfl, noZeroInFront⟩ := exists_replicate_append digits
  have boundedRest : ∀ digit ∈ rest.reverse, digit < source := by
    intro digit member
    exact bounded digit (List.mem_append_right _ (List.mem_reverse.mp member))
  have lastNonzero : ∀ nonempty : rest.reverse ≠ [], rest.reverse.getLast nonempty ≠ 0 := by
    intro nonempty isZero
    apply noZeroInFront
    rw [← List.getLast?_reverse, List.getLast?_eq_some_getLast nonempty, isZero]
  rw [convert_replicate_append largeTarget zeros noZeroInFront,
    convert_replicate_append largeSource zeros (head?_reverse_digits_ne_zero target _),
    List.reverse_reverse, Nat.ofDigits_digits,
    Nat.digits_ofDigits source largeSource rest.reverse boundedRest lastNonzero,
    List.reverse_reverse]

theorem lt_of_mem_convert
    {source target : Nat} (large : 1 < target) {digits : List Nat} {digit : Nat}
    (member : digit ∈ convert source target large digits) :
    digit < target := by
  rw [convert, numerals_eq_digits] at member
  rcases List.mem_append.mp member with inFront | spelled
  · rw [(List.mem_replicate.mp inFront).2]
    omega
  · exact Nat.digits_lt_base large (List.mem_reverse.mp spelled)

theorem digit?_getD_alphabet : ∀ digit < 58, digit? (alphabet.getD digit '1') = some digit := by
  decide

theorem mapM_digit?_map_alphabet
    {digits : List Nat} (bounded : ∀ digit ∈ digits, digit < 58) :
    (digits.map fun digit => alphabet.getD digit '1').mapM digit? = some digits := by
  have readEach :
      ∀ digit ∈ digits, (digit? ∘ fun digit => alphabet.getD digit '1') digit = some (id digit) :=
    fun digit member => digit?_getD_alphabet digit (bounded digit member)
  rw [List.mapM_map, mapM_eq_some_map readEach, List.map_id]

/-- Every byte string is read back from its text. -/
theorem decode?_encode (bytes : Bytes) : decode? (encode bytes) = some bytes := by
  have digitsBounded :
      ∀ digit ∈ convert 256 58 (by decide) (bytes.map UInt8.toNat), digit < 58 := by
    intro digit member
    exact lt_of_mem_convert (by decide) member
  have readDigits := mapM_digit?_map_alphabet digitsBounded
  have bytesBounded : ∀ digit ∈ bytes.map UInt8.toNat, digit < 256 := by
    intro digit member
    obtain ⟨byte, _, rfl⟩ := List.mem_map.mp member
    exact byte.toNat_lt
  have convertedBack := convert_convert (by decide) (by decide : 1 < 58) bytesBounded
  have restored : ∀ byte ∈ bytes, (UInt8.ofNat ∘ UInt8.toNat) byte = byte :=
    fun _ _ => UInt8.ofNat_toNat
  rw [decode?, encode, String.toList_ofList, readDigits]
  simp only [Option.bind_eq_bind, Option.bind_some, Option.pure_def, convertedBack, List.map_map]
  rw [List.map_congr_left restored, List.map_id']

end FinalitySync.Base58
