import FinalitySync.Document.Form
import FinalitySync.Json.Parser

/-!
From documents to JSON text without blanks.
-/

namespace FinalitySync.Json

def textToken (content : Option String) : Token :=
  .text (content.map String.toList)

mutual

def tokens : Document → List Token
  | .null => [.null]
  | .boolean value => [.boolean value]
  | .natural value => [.number (Decimal.digits value)]
  | .number literal => [.number literal.toList]
  | .text content => [textToken content]
  | .array elements => .openArray :: elementTokens elements
  | .object members => .openObject :: memberTokens members

/-- Elements up to the end of their array. -/
def elementTokens : List Document → List Token
  | [] => [.closeArray]
  | [element] => tokens element ++ [.closeArray]
  | element :: elements => tokens element ++ .comma :: elementTokens elements

/-- Members up to the end of their object. -/
def memberTokens : List (Name × Document) → List Token
  | [] => [.closeObject]
  | [(name, value)] => textToken name :: .colon :: tokens value ++ [.closeObject]
  | (name, value) :: members =>
      textToken name :: .colon :: tokens value ++ .comma :: memberTokens members

end

def print (document : Document) : String :=
  String.ofList ((tokens document).flatMap Token.spelling)

end FinalitySync.Json

namespace FinalitySync.Form

variable {α : Type}

/-- The JSON text of a value. -/
def toJson (form : Form α) (value : α) : String :=
  Json.print (form.write value)

/-- The value that a JSON text spells. -/
def ofJson? (form : Form α) (text : String) : Option α :=
  (Json.parse? text).bind form.read?

end FinalitySync.Form
