/-!
Why a SCALE encoding is refused: the innermost cause, and the places that were being read around
it.
-/

namespace FinalitySync.Scale

inductive Cause
  | endOfInput
  | vectorTooLong
  | compactOutOfRange
  | badBoolean
  | unknownVariant (enumeration : String)
  | trailingBytes (after : String)
deriving DecidableEq, Repr

def Cause.text : Cause → String
  | .endOfInput => "Not enough data to fill buffer"
  | .vectorTooLong => "Not enough data to decode vector"
  | .compactOutOfRange => "out of range decoding Compact<u32>"
  | .badBoolean => "Invalid boolean representation"
  | .unknownVariant enumeration =>
      "Could not decode `" ++ enumeration ++ "`, variant doesn't exist"
  | .trailingBytes after => "Trailing bytes after " ++ after

/-- A part of a value whose encoding was being read. -/
inductive Place
  /-- A field of a record, or a payload of a variant, named by its path. -/
  | component (path : String)
  /-- The byte that selects a variant. -/
  | variantByte (enumeration : String)
deriving DecidableEq, Repr

def Place.text : Place → String
  | .component path => "Could not decode `" ++ path ++ "`"
  | .variantByte enumeration =>
      "Could not decode `" ++ enumeration ++ "`, failed to read variant byte"

structure Failure where
  /-- Outermost first. -/
  places : List Place
  cause : Cause
deriving DecidableEq, Repr

namespace Failure

def ofCause (cause : Cause) : Failure := ⟨[], cause⟩

def inside (place : Place) (failure : Failure) : Failure :=
  { failure with places := place :: failure.places }

/-- Each line is one tab deeper than the line before it; all but the last end with a colon. -/
def nested : Nat → List String → String
  | _, [] => ""
  | depth, [innermost] => "".pushn '\t' depth ++ innermost ++ "\n"
  | depth, outer :: inner =>
      "".pushn '\t' depth ++ outer ++ ":\n" ++ nested (depth + 1) inner

/-- A cause alone is its text; a cause within places is one line for each level. -/
def message (failure : Failure) : String :=
  match failure.places with
  | [] => failure.cause.text
  | places => nested 0 (places.map Place.text ++ [failure.cause.text])

end Failure

end FinalitySync.Scale
