import FinalitySync.Chain.Header

/-!
Ancestry: links from blocks to their parents, and which blocks they lead to.
-/

namespace FinalitySync

/-- The parent of each block that has one, as pairs of different blocks and their parents. -/
structure Ancestry where
  links : List (Hash × Hash)
deriving DecidableEq, Inhabited

namespace Ancestry

def empty : Ancestry := ⟨[]⟩

def parent? (ancestry : Ancestry) (block : Hash) : Option Hash :=
  ancestry.links.lookup block

/-- Gives a block a parent in place of the one it had. -/
def link (ancestry : Ancestry) (block parent : Hash) : Ancestry :=
  ⟨(block, parent) :: ancestry.links.filter fun entry => entry.1 != block⟩

/-- The links of some headers; of two headers with one hash the later counts. -/
def ofHeaders (primitives : Primitives) (headers : List Header) : Ancestry :=
  headers.foldl (fun ancestry header => ancestry.link (header.hash primitives) header.parentHash)
    empty

/-- Whether at least one link and at most `steps` links lead from a block to another. -/
def reachesWithin (ancestry : Ancestry) (target : Hash) : Nat → Hash → Bool
  | 0, _ => false
  | steps + 1, block =>
      match ancestry.parent? block with
      | none => false
      | some parent => parent == target || ancestry.reachesWithin target steps parent

/-- Whether links lead from a block to another; as many steps as there are links suffice. -/
def reaches (ancestry : Ancestry) (block target : Hash) : Bool :=
  block == target || ancestry.reachesWithin target ancestry.links.length block

end Ancestry

end FinalitySync
