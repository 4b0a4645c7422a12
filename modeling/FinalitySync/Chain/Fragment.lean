import FinalitySync.Chain.Justification

/-!
Proof fragments and the pages of them that peers answer with.
-/

namespace FinalitySync

/-- A header with the justification that makes it final. -/
structure Fragment where
  header : Header
  justification : Justification
deriving DecidableEq, Inhabited

namespace Fragment

def codec : Scale.Codec Fragment :=
  ((Header.codec.component "WarpSyncFragment::header").followedBy
    (Justification.codec.component "WarpSyncFragment::justification")).via
    (fun values => ⟨values.1, values.2⟩)
    (fun fragment => (fragment.header, fragment.justification))

def form : Form Fragment :=
  Form.fields ["header", "justification"]
    (fun fragment =>
      [Header.form.write fragment.header, Justification.form.write fragment.justification])
    fun
      | [header, justification] => do
          return ⟨← Header.form.read? header, ← Justification.form.read? justification⟩
      | _ => none

end Fragment

structure Page where
  fragments : List Fragment
  /-- Whether no page follows. -/
  isFinished : Bool
deriving DecidableEq, Inhabited

namespace Page

def codec : Scale.Codec Page :=
  ((Fragment.codec.vector.component "WarpSyncResponse::fragments").followedBy
    (Scale.Codec.boolean.component "WarpSyncResponse::is_finished")).via
    (fun values => ⟨values.1, values.2⟩)
    (fun page => (page.fragments, page.isFinished))

def form : Form Page :=
  Form.fields ["fragments", "is_finished"]
    (fun page => [Fragment.form.list.write page.fragments, Form.boolean.write page.isFinished])
    fun
      | [fragments, isFinished] => do
          return ⟨← Fragment.form.list.read? fragments, ← Form.boolean.read? isFinished⟩
      | _ => none

end Page

end FinalitySync
