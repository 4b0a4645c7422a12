import FinalitySync.Bytes.Octets

/-!
The files that the client reads: what it finds under a path, and trees of files, in which the parts
of a path lead from directory to directory.
-/

namespace FinalitySync.Client

/-- What is found under a path. -/
inductive Found
  | nothing
  | unreadable
  | content (bytes : Bytes)
deriving DecidableEq

def Found.bytes? : Found → Option Bytes
  | .content bytes => some bytes
  | _ => none

/-- The files that the client may read. -/
abbrev Files := String → Found

/-- The names that lead from the root to a file or directory. -/
abbrev Place := List String

structure FileTree where
  /-- Where paths begin that have no slash in front. -/
  workingDirectory : Place
  files : List (Place × Bytes)
deriving DecidableEq

namespace FileTree

/-- Whether a part of a path leads nowhere else. -/
def isStill (part : String) : Bool := part.isEmpty || part == "."

/-- Files by paths from the working directory, and the file that is always empty. -/
def ofContents (workingDirectory : Place) (contents : List (String × Bytes)) : FileTree where
  workingDirectory := workingDirectory
  files := (["dev", "null"], []) :: contents.map fun content =>
    (workingDirectory ++ (content.1.splitOn "/").filter (!isStill ·), content.2)

/-- The working directory is a directory, and so is all that holds a file or a directory. -/
def isDirectory (tree : FileTree) (place : Place) : Bool :=
  place.isPrefixOf tree.workingDirectory ||
    tree.files.any fun file => place.isPrefixOf file.1.dropLast

/-- The place that one part of a path leads to from a directory. -/
def enter? (tree : FileTree) (place : Place) (part : String) : Option Place :=
  if !tree.isDirectory place then none
  else if isStill part then some place
  else if part == ".." then some place.dropLast
  else some (place ++ [part])

/-- The place that a path leads to, whether or not there is something. -/
def place? (tree : FileTree) (path : String) : Option Place :=
  (path.splitOn "/").foldlM tree.enter?
    (if path.toList.head? = some '/' then [] else tree.workingDirectory)

def found (tree : FileTree) (place : Place) : Found :=
  match tree.files.lookup place with
  | some content => .content content
  | none => if tree.isDirectory place then .unreadable else .nothing

/-- How many bytes a path may have. -/
def longestPath : Nat := 4095

/-- What a path leads to. The empty path leads nowhere. -/
def find (tree : FileTree) : Files := fun path =>
  if path.isEmpty || longestPath < path.utf8ByteSize then .nothing
  else (tree.place? path).elim .nothing tree.found

end FileTree

end FinalitySync.Client
