import FinalitySync.Json.Printer
import FinalitySync.Store.Record

/-!
The store: JSON texts under names. Writing a record replaces what its name held; a text that is no
value of the record reads as nothing.
-/

namespace FinalitySync

/-- The name of an entry: its space, if it has one, and its name within the space. -/
def Store.entryName (space : Option String) (name : String) : String :=
  match space with
  | some space => space ++ "::" ++ name
  | none => name

def Record.entryName (record : Record) : String :=
  Store.entryName (some record.space) record.name

structure Store where
  entries : List (String × String)
deriving DecidableEq, Inhabited

namespace Store

def empty : Store := ⟨[]⟩

def text? (store : Store) (name : String) : Option String :=
  store.entries.lookup name

def erase (store : Store) (name : String) : Store :=
  ⟨store.entries.filter fun entry => entry.1 != name⟩

def insert (store : Store) (name text : String) : Store :=
  ⟨(name, text) :: (store.erase name).entries⟩

/-- A text without the blanks around it. -/
def withoutOuterBlanks (text : String) : String :=
  String.ofList
    ((text.toList.dropWhile Json.isBlank).reverse.dropWhile Json.isBlank).reverse

/-- Keeps the text of a value that no record describes, without the blanks around it. -/
def insertText (store : Store) (name text : String) : Store :=
  store.insert name (withoutOuterBlanks text)

theorem text?_empty (name : String) : empty.text? name = none := rfl

theorem lookup_filter (name other : String) (entries : List (String × String)) :
    (entries.filter fun entry => entry.1 != name).lookup other =
      if other = name then none else entries.lookup other := by
  induction entries with
  | nil => simp
  | cons entry entries inductionHypothesis =>
      obtain ⟨entryName, entryText⟩ := entry
      by_cases removed : entryName = name
      · subst removed
        by_cases same : other = entryName
        · simpa [same] using inductionHypothesis
        · have different : (other == entryName) = false := by simpa using same
          simpa [List.lookup_cons, different, same] using inductionHypothesis
      · by_cases found : other = entryName
        · simp [found, removed]
        · have different : (other == entryName) = false := by simpa using found
          simpa [removed, List.lookup_cons, different] using inductionHypothesis

theorem text?_erase (store : Store) (name other : String) :
    (store.erase name).text? other = if other = name then none else store.text? other :=
  lookup_filter name other store.entries

theorem text?_insert (store : Store) (name text other : String) :
    (store.insert name text).text? other =
      if other = name then some text else store.text? other := by
  by_cases same : other = name
  · simp [insert, text?, same]
  · have different : (other == name) = false := by simpa using same
    have erased := text?_erase store name other
    simpa [insert, text?, List.lookup_cons, different, same] using erased

/-- The value of a record. -/
def get? (store : Store) (record : Record) : Option record.Value :=
  (store.text? record.entryName).bind record.form.ofJson?

def put (store : Store) (record : Record) (value : record.Value) : Store :=
  store.insert record.entryName (record.form.toJson value)

def delete (store : Store) (record : Record) : Store :=
  store.erase record.entryName

end Store

end FinalitySync
