/-!
Structured documents: the data that the JSON and TOML notations spell. A document keeps what
readers of it may ask for. A number other than a natural number is kept as it is spelled, and a
text is `none` where its spelling names half of a surrogate pair: it is well formed, but no text
has it.
-/

namespace FinalitySync

inductive Document
  | null
  | boolean (value : Bool)
  | natural (value : Nat)
  | number (literal : String)
  | text (content : Option String)
  | array (elements : List Document)
  /-- Members in the order they are spelled, repeated ones included. -/
  | object (members : List (Option String × Document))
deriving Inhabited

namespace Document

/-- An object whose names are texts. -/
def record (members : List (String × Document)) : Document :=
  .object (members.map fun member => (some member.1, member.2))

def ofText (content : String) : Document :=
  .text (some content)

/-- The value of a name in a list of members; the outer `none` is a name given twice. -/
def member? (members : List (Option String × Document)) (name : String) :
    Option (Option Document) :=
  match members.filter (fun member => member.1 == some name) with
  | [] => some none
  | [member] => some (some member.2)
  | _ => none

/-- The values of the named fields, `none` for one that is missing. An object gives them in any
order among other members; an array gives the first fields in order. -/
def fieldsOrMissing? (names : List String) : Document → Option (List (Option Document))
  | .object members =>
      if members.all (fun member => member.1.isSome) then names.mapM (member? members)
      else none
  | .array elements =>
      if elements.length ≤ names.length then
        some (elements.map some ++ List.replicate (names.length - elements.length) none)
      else none
  | _ => none

/-- The values of the named fields, all of them. -/
def fields? (names : List String) (document : Document) : Option (List Document) :=
  (document.fieldsOrMissing? names).bind fun values => values.mapM id

end Document

end FinalitySync
