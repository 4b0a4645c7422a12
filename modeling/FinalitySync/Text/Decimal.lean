/-!
Decimal text of natural numbers.
-/

namespace FinalitySync.Decimal

/-- The digits of a number, without leading zeros. -/
def digits (value : Nat) : List Char :=
  Nat.toDigits 10 value

def encode (value : Nat) : String :=
  String.ofList (digits value)

/-- The number that one or more digits spell; leading zeros are allowed. -/
def value? (characters : List Char) : Option Nat :=
  if characters.isEmpty || !characters.all Char.isDigit then none
  else some (Nat.ofDigitChars 10 characters 0)

theorem digits_ne_nil (value : Nat) : digits value ≠ [] :=
  Nat.toDigits_ne_nil

theorem isDigit_of_mem_digits
    {value : Nat} {character : Char}
    (member : character ∈ digits value) :
    character.isDigit = true :=
  Nat.isDigit_of_mem_toDigits (by decide) (by decide) member

/-- Digits read back as the number they spell. -/
theorem value?_digits (value : Nat) : value? (digits value) = some value := by
  have allDigits : (digits value).all Char.isDigit = true := by
    rw [List.all_eq_true]
    exact fun _ member => isDigit_of_mem_digits member
  have nonempty : (digits value).isEmpty = false := by
    simp [digits_ne_nil]
  simp only [value?, allDigits, nonempty, Bool.not_true, Bool.or_self, Bool.false_eq_true,
    if_false]
  exact congrArg some (Nat.ofDigitChars_toDigits (by decide) (by decide))

/-- Different numbers have different digits. -/
theorem digits_injective {left right : Nat} (equality : digits left = digits right) :
    left = right := by
  have readBack := value?_digits left
  rw [equality, value?_digits right] at readBack
  exact (Option.some.inj readBack).symm

end FinalitySync.Decimal
