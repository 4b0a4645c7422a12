import FinalitySync.Document.Basic

/-!
Document forms: how values of a type are written as documents and read from them.
-/

namespace FinalitySync

structure Form (α : Type) where
  write : α → Document
  read? : Document → Option α

namespace Form

variable {α β : Type}

/-- The value of a document that may be missing. -/
def readOr? (form : Form α) (standard : α) : Option Document → Option α
  | none => some standard
  | some document => form.read? document

def boolean : Form Bool where
  write := .boolean
  read?
    | .boolean value => some value
    | _ => none

/-- Natural numbers below a limit. -/
def below (limit : Nat) : Form Nat where
  write := .natural
  read?
    | .natural value => if value < limit then some value else none
    | _ => none

/-- Reads the same documents as another form, as values of another type. -/
def via (form : Form α) (ofCarrier : α → β) (toCarrier : β → α) : Form β where
  write value := form.write (toCarrier value)
  read? document := (form.read? document).map ofCarrier

def word8 : Form UInt8 := (below (2 ^ 8)).via UInt8.ofNat UInt8.toNat

def word32 : Form UInt32 := (below (2 ^ 32)).via UInt32.ofNat UInt32.toNat

def word64 : Form UInt64 := (below (2 ^ 64)).via UInt64.ofNat UInt64.toNat

def text : Form String where
  write := Document.ofText
  read?
    | .text content => content
    | _ => none

/-- Texts that spell a value. -/
def spelled (spell : α → String) (parse? : String → Option α) : Form α where
  write value := text.write (spell value)
  read? document := (text.read? document).bind parse?

def list (form : Form α) : Form (List α) where
  write values := .array (values.map form.write)
  read?
    | .array elements => elements.mapM form.read?
    | _ => none

/-- Records with the given fields: an object, or the field values in order. -/
def fields (names : List String) (toValues : α → List Document)
    (ofValues? : List Document → Option α) : Form α where
  write value := .record (names.zip (toValues value))
  read? document := (document.fields? names).bind ofValues?

end Form

end FinalitySync
