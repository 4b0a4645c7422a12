import FinalitySync.Toml.Value

/-!
The sections of a TOML text: a header that names a table, and the assignments below it. Sections
are put together into one document by the parts of their headers.
-/

namespace FinalitySync.Toml

structure Section where
  /-- The names from the outermost table to the section's own. -/
  path : List String
  /-- Whether the header stands for one more element of an array of tables. -/
  isElement : Bool
  entries : List (String × Entry)

namespace Section

def isBelow (name : String) (part : Section) : Bool := part.path.head? == some name

/-- A section as seen from the table that its path begins with. -/
def inner (part : Section) : Section := { part with path := part.path.tail }

def startsElement (part : Section) : Bool := part.isElement && part.path.isEmpty

/-- The sections of each element of an array of tables. -/
def elementGroups : List Section → List (List Section)
  | [] => []
  | part :: parts =>
      match elementGroups parts with
      | [] => [[part]]
      | group :: groups =>
          if (group.head?.map startsElement).getD false then [part] :: group :: groups
          else (part :: group) :: groups

/-- The members of one element: those of its own section and those that are below it. -/
def elementMembers? (membersBelow? : List Section → Option (List (Option String × Document))) :
    List Section → Option (List (Option String × Document))
  | [] => some []
  | part :: parts => (membersBelow? parts).map (members part.entries ++ ·)

/-- The members that sections give to one table. At most one of them may be the table's own, none
if the table is `given` already, and it may not be an element of an array. -/
def members? : Nat → Bool → List Section → Option (List (Option String × Document))
  | 0, _, _ => none
  | _, _, [] => some []
  | fuel + 1, given, part :: parts =>
      match part.path with
      | [] =>
          if given || part.isElement then none
          else (members? fuel true parts).map (members part.entries ++ ·)
      | name :: _ => do
          let below := ((part :: parts).filter (isBelow name)).map inner
          let document ←
            if part.inner.startsElement then do
              let elements ← (elementGroups below).mapM (elementMembers? (members? fuel true))
              some (Document.array (elements.map Document.object))
            else Document.object <$> members? fuel false below
          let others ← members? fuel given (parts.filter fun other => !isBelow name other)
          return (some name, document) :: others

/-- How many steps putting sections together takes at most. -/
def size (parts : List Section) : Nat :=
  (parts.map fun part => part.path.length + 1).foldr (· + ·) 0 + 1

def document? (parts : List Section) : Option Document :=
  Document.object <$> members? (size parts) false parts

end Section

end FinalitySync.Toml
