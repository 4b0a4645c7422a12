import FinalitySync.Text.Decimal

/-!
Durations in milliseconds and how they are written.
-/

namespace FinalitySync

structure Duration where
  milliseconds : Nat
deriving DecidableEq, Inhabited

namespace Duration

def ofSeconds (seconds : Nat) : Duration := ⟨1000 * seconds⟩

/-- Whole seconds. -/
def seconds (duration : Duration) : Nat := duration.milliseconds / 1000

/-- Three digits of a fraction without the zeros at its end. -/
def fractionDigits (thousandths : Nat) : List Char :=
  ((Decimal.digits (1000 + thousandths)).tail.reverse.dropWhile (· == '0')).reverse

/-- Milliseconds below a second, otherwise seconds with as many places as needed. Nothing is
written in the smallest unit. -/
def text (duration : Duration) : String :=
  if duration.milliseconds = 0 then "0ns"
  else if duration.milliseconds < 1000 then Decimal.encode duration.milliseconds ++ "ms"
  else
    match fractionDigits (duration.milliseconds % 1000) with
    | [] => Decimal.encode duration.seconds ++ "s"
    | fraction => Decimal.encode duration.seconds ++ "." ++ String.ofList fraction ++ "s"

end Duration

end FinalitySync
