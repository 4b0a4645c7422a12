import FinalitySync.Proofs.Finality.Reachability

/-!
# Descent

Walks along an ancestry follow parent links of headers.  Where the hash of a header determines its
parent, they can follow any such link, whatever the order of the headers, and two walks from one
block stay on one chain, also if they are in different ancestries.
-/

namespace FinalitySync

/-- One of the headers has the hash `child` and names `parent` as its parent. -/
def IsParentLink
    (primitives : Primitives) (headers : List Header) (child parent : Hash) : Prop :=
  ∃ header ∈ headers, header.hash primitives = child ∧ header.parentHash = parent

/-- Parent links of some headers lead from one block to another, which may be the same. -/
def Descends (primitives : Primitives) (headers : List Header) (block ancestor : Hash) : Prop :=
  Relation.ReflTransGen (IsParentLink primitives headers) block ancestor

/-- One of two blocks descends from the other. -/
def AreOnOneChain
    (primitives : Primitives) (headers : List Header) (first second : Hash) : Prop :=
  Descends primitives headers first second ∨ Descends primitives headers second first

/-- Headers with equal hashes have equal parents. -/
def HasUniqueParents (primitives : Primitives) (headers : List Header) : Prop :=
  ∀ header ∈ headers, ∀ other ∈ headers,
    header.hash primitives = other.hash primitives → header.parentHash = other.parentHash

variable {primitives : Primitives} {headers : List Header}

theorem Descends.mono
    {block ancestor : Hash} (descends : Descends primitives headers block ancestor)
    {more : List Header} (included : headers ⊆ more) :
    Descends primitives more block ancestor := by
  refine Relation.ReflTransGen.mono ?_ block ancestor descends
  rintro child parent ⟨header, member, sameHash, sameParent⟩
  exact ⟨header, included member, sameHash, sameParent⟩

theorem areOnOneChain_of_descends
    (unique : HasUniqueParents primitives headers)
    {block first second : Hash}
    (toFirst : Descends primitives headers block first)
    (toSecond : Descends primitives headers block second) :
    AreOnOneChain primitives headers first second := by
  have rightUnique : Relator.RightUnique (IsParentLink primitives headers) := by
    rintro child parent otherParent ⟨header, member, sameHash, rfl⟩
      ⟨other, otherMember, otherHash, rfl⟩
    exact unique header member other otherMember (sameHash.trans otherHash.symm)
  exact Relation.ReflTransGen.total_of_right_unique rightUnique toFirst toSecond

theorem HasUniqueParents.of_subset
    {fewer : List Header} (unique : HasUniqueParents primitives headers)
    (included : fewer ⊆ headers) :
    HasUniqueParents primitives fewer := by
  intro header member other otherMember sameHash
  exact unique header (included member) other (included otherMember) sameHash

theorem isParentLink_of_isLastParentLink
    {child parent : Hash} (isLast : IsLastParentLink primitives headers child parent) :
    IsParentLink primitives headers child parent := by
  obtain ⟨earlier, header, later, rfl, sameHash, sameParent, _⟩ := isLast
  exact ⟨header, List.mem_append_right earlier List.mem_cons_self, sameHash, sameParent⟩

/-- Where parents are unique, the last header of a hash has the parent that any of them has. -/
theorem isLastParentLink_of_isParentLink
    (unique : HasUniqueParents primitives headers)
    {child parent : Hash} (isLink : IsParentLink primitives headers child parent) :
    IsLastParentLink primitives headers child parent := by
  induction headers using List.reverseRecOn with
  | nil =>
      obtain ⟨header, member, _⟩ := isLink
      cases member
  | append_singleton headers last inductionHypothesis =>
      obtain ⟨header, member, sameHash, sameParent⟩ := isLink
      rw [isLastParentLink_concat]
      by_cases isChild : last.hash primitives = child
      · have sameAsLast :=
          unique last (by simp) header member (isChild.trans sameHash.symm)
        exact Or.inl ⟨isChild, sameAsLast.trans sameParent⟩
      · have isEarlier : header ∈ headers := by
          rcases List.mem_append.mp member with earlier | isLast
          · exact earlier
          · rw [List.mem_singleton.mp isLast] at sameHash
            exact absurd sameHash isChild
        have uniqueEarlier := unique.of_subset (List.subset_append_left headers [last])
        exact
          Or.inr
            ⟨isChild, inductionHypothesis uniqueEarlier ⟨header, isEarlier, sameHash, sameParent⟩⟩

namespace Ancestry

/-- A block that reaches another along the ancestry of some headers descends from it. -/
theorem descends_of_reaches
    {block target : Hash}
    (reached : (ofHeaders primitives headers).reaches block target = true) :
    Descends primitives headers block target :=
  Relation.ReflTransGen.mono (fun _ _ isLast => isParentLink_of_isLastParentLink isLast) _ _
    (reaches_ofHeaders_iff.mp reached)

/-- Where parents are unique, a block reaches whatever it descends from. -/
theorem reaches_of_descends
    (unique : HasUniqueParents primitives headers)
    {block target : Hash} (descends : Descends primitives headers block target) :
    (ofHeaders primitives headers).reaches block target = true :=
  reaches_ofHeaders_iff.mpr
    (Relation.ReflTransGen.mono
      (fun _ _ isLink => isLastParentLink_of_isParentLink unique isLink) _ _ descends)

end Ancestry

end FinalitySync
