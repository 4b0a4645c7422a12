import FinalitySync.Peer.Source

/-!
Sources that answer at once from what is stored in files.
-/

namespace FinalitySync.Stored

/-- The pages at the front of a file's content; what follows them is not looked at. -/
def pages? (content : Bytes) : Option (List Page) :=
  match Page.codec.vector.decode content with
  | .ok (pages, _) => some pages
  | .error _ => none

/-- What is said of content that has no pages at the front. -/
def noPagesMessage : String := "Failed to decode warp sync responses"

/-- One page for each request, in order. -/
def fragmentSource (pages : List Page) : FragmentSource :=
  Source.ofList (pages.map fun page => .arrival ⟨0⟩ (.ok page)) fun start =>
    .arrival ⟨0⟩ (.error ("No stored fragments left after block " ++ start.text))

/-- The content of one file, whatever block it is asked for. -/
def runtimeSource (path : Option String) (content? : String → Option Bytes) : RuntimeSource :=
  Source.ofReplies fun _ _ =>
    match path with
    | none => .error "Runtime code path is not configured"
    | some path =>
        match content? path with
        | some content => .ok content
        | none => .error ("Failed to read runtime code from " ++ path)

end FinalitySync.Stored
