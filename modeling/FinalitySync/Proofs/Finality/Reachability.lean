import FinalitySync.Finality.Ancestry
import Mathlib.Data.Finset.Card
import Mathlib.Logic.Relation

/-!
# Which blocks an ancestry leads to

A walk along the links of an ancestry need not leave any block twice, so as many steps as there are
links find every block that the links lead to, also where they run in circles.  The ancestry of
some headers has the link of the last header of each hash.
-/

namespace FinalitySync

namespace Ancestry

def HasLink (ancestry : Ancestry) (child parent : Hash) : Prop :=
  ancestry.parent? child = some parent

/-- Links lead from a block to another, which may be the same. -/
def Leads (ancestry : Ancestry) (block target : Hash) : Prop :=
  Relation.ReflTransGen ancestry.HasLink block target

/-- The blocks that have a parent. -/
def children (ancestry : Ancestry) : Finset Hash :=
  (ancestry.links.map Prod.fst).toFinset

variable {ancestry : Ancestry} {block target : Hash}

theorem card_children_le (ancestry : Ancestry) :
    ancestry.children.card ≤ ancestry.links.length := by
  have bounded := List.toFinset_card_le (ancestry.links.map Prod.fst)
  rwa [List.length_map] at bounded

theorem HasLink.mem_children {parent : Hash} (isLink : ancestry.HasLink block parent) :
    block ∈ ancestry.children := by
  obtain ⟨before, after, split, _⟩ := List.lookup_eq_some_iff.mp isLink
  rw [children, List.mem_toFinset, split, List.map_append, List.map_cons]
  exact List.mem_append_right _ List.mem_cons_self

/-- The block that so many links lead to. -/
def ancestor? (ancestry : Ancestry) : Nat → Hash → Option Hash
  | 0, block => some block
  | count + 1, block => (ancestry.parent? block).bind (ancestry.ancestor? count)

theorem ancestor?_succ {parent : Hash} (isLink : ancestry.HasLink block parent) (count : Nat) :
    ancestry.ancestor? (count + 1) block = ancestry.ancestor? count parent := by
  rw [ancestor?, isLink]
  rfl

theorem leads_of_ancestor?
    {count : Nat} (led : ancestry.ancestor? count block = some target) :
    ancestry.Leads block target := by
  induction count generalizing block with
  | zero =>
      cases led
      exact .refl
  | succ count inductionHypothesis =>
      obtain ⟨parent, isLink, later⟩ := Option.bind_eq_some_iff.mp led
      exact .head isLink (inductionHypothesis later)

theorem reachesWithin_succ {parent : Hash} (isLink : ancestry.HasLink block parent) (steps : Nat) :
    ancestry.reachesWithin target (steps + 1) block =
      (parent == target || ancestry.reachesWithin target steps parent) := by
  rw [reachesWithin, isLink]

/-- So many steps see so many ancestors, of which the first is the parent. -/
theorem reachesWithin_iff_exists_ancestor? {steps : Nat} :
    ancestry.reachesWithin target steps block = true ↔
      ∃ count < steps, ancestry.ancestor? (count + 1) block = some target := by
  induction steps generalizing block with
  | zero => simp [reachesWithin]
  | succ steps inductionHypothesis =>
      cases found : ancestry.parent? block with
      | none => simp [reachesWithin, ancestor?, found]
      | some parent =>
          rw [reachesWithin_succ found, Bool.or_eq_true_iff, beq_iff_eq, inductionHypothesis]
          simp only [ancestor?_succ found]
          constructor
          · rintro (arrived | ⟨count, bounded, later⟩)
            · exact ⟨0, Nat.zero_lt_succ steps, congrArg some arrived⟩
            · exact ⟨count + 1, Nat.succ_lt_succ bounded, later⟩
          · rintro ⟨count, bounded, led⟩
            cases count with
            | zero => exact Or.inl (Option.some.inj led)
            | succ count => exact Or.inr ⟨count, Nat.lt_of_succ_lt_succ bounded, led⟩

theorem reachesWithin_mono
    {steps more : Nat} (bounded : steps ≤ more)
    (reached : ancestry.reachesWithin target steps block = true) :
    ancestry.reachesWithin target more block = true := by
  rw [reachesWithin_iff_exists_ancestor?] at reached ⊢
  obtain ⟨count, fewer, led⟩ := reached
  exact ⟨count, Nat.lt_of_lt_of_le fewer bounded, led⟩

theorem leads_of_reachesWithin
    {steps : Nat} (reached : ancestry.reachesWithin target steps block = true) :
    ancestry.Leads block target := by
  obtain ⟨count, _, led⟩ := reachesWithin_iff_exists_ancestor?.mp reached
  exact leads_of_ancestor? led

/-- A link from one of the blocks that a walk may still leave. -/
def HasLinkFrom (ancestry : Ancestry) (remaining : Finset Hash) (child parent : Hash) : Prop :=
  child ∈ remaining ∧ ancestry.HasLink child parent

/-- A walk leaves a given block for the last time or not at all. -/
theorem leads_without
    {remaining : Finset Hash} {avoided start : Hash}
    (walk : Relation.ReflTransGen (ancestry.HasLinkFrom remaining) start target) :
    Relation.ReflTransGen (ancestry.HasLinkFrom (remaining.erase avoided)) start target ∨
      ∃ parent, ancestry.HasLinkFrom remaining avoided parent ∧
        Relation.ReflTransGen (ancestry.HasLinkFrom (remaining.erase avoided)) parent target := by
  induction walk using Relation.ReflTransGen.head_induction_on with
  | refl => exact Or.inl .refl
  | @head child parent isLink _ inductionHypothesis =>
      rcases inductionHypothesis with avoids | leavesLater
      · by_cases isAvoided : child = avoided
        · rw [isAvoided] at isLink
          exact Or.inr ⟨parent, isLink, avoids⟩
        · have kept : child ∈ remaining.erase avoided :=
            Finset.mem_erase.mpr ⟨isAvoided, isLink.1⟩
          exact Or.inl (.head ⟨kept, isLink.2⟩ avoids)
      · exact Or.inr leavesLater

/-- As many steps suffice as there are blocks to leave. -/
theorem reachesWithin_card
    {remaining : Finset Hash}
    (walk : Relation.ReflTransGen (ancestry.HasLinkFrom remaining) block target)
    (different : block ≠ target) :
    ancestry.reachesWithin target remaining.card block = true := by
  induction size : remaining.card generalizing remaining block with
  | zero =>
      rcases Relation.ReflTransGen.cases_head walk with same | ⟨parent, isLink, _⟩
      · exact absurd same different
      · rw [Finset.card_eq_zero] at size
        rw [size] at isLink
        exact absurd isLink.1 (Finset.notMem_empty block)
  | succ steps inductionHypothesis =>
      -- After the last time that the walk leaves `block` one block fewer is left.
      have last :
          ∃ parent, ancestry.HasLinkFrom remaining block parent ∧
            Relation.ReflTransGen
              (ancestry.HasLinkFrom (remaining.erase block)) parent target := by
        rcases leads_without walk with avoids | leaves
        · rcases Relation.ReflTransGen.cases_head avoids with same | ⟨_, isLink, _⟩
          · exact absurd same different
          · exact absurd isLink.1 (Finset.notMem_erase block remaining)
        · exact leaves
      obtain ⟨parent, isLink, later⟩ := last
      have fewer : (remaining.erase block).card = steps := by
        rw [Finset.card_erase_of_mem isLink.1, size]
        rfl
      rw [reachesWithin_succ isLink.2, Bool.or_eq_true_iff]
      by_cases arrived : parent = target
      · exact Or.inl (beq_iff_eq.mpr arrived)
      · exact Or.inr (inductionHypothesis later arrived fewer)

theorem reachesWithin_card_children
    (leads : ancestry.Leads block target) (different : block ≠ target) :
    ancestry.reachesWithin target ancestry.children.card block = true := by
  have walk : Relation.ReflTransGen (ancestry.HasLinkFrom ancestry.children) block target :=
    Relation.ReflTransGen.mono (fun _ _ isLink => ⟨HasLink.mem_children isLink, isLink⟩) _ _ leads
  exact reachesWithin_card walk different

/-- The bound on the number of steps cuts off no walk. -/
theorem reaches_iff_leads : ancestry.reaches block target = true ↔ ancestry.Leads block target := by
  rw [reaches, Bool.or_eq_true_iff]
  constructor
  · rintro (arrived | later)
    · rw [eq_of_beq arrived]
      exact .refl
    · exact leads_of_reachesWithin later
  · intro leads
    by_cases arrived : block = target
    · exact Or.inl (beq_iff_eq.mpr arrived)
    · have reached := reachesWithin_card_children leads arrived
      exact Or.inr (reachesWithin_mono ancestry.card_children_le reached)

/-- Links that lead to a block at all do so by as many steps as there are blocks with a parent. -/
theorem leads_iff_exists_ancestor? :
    ancestry.Leads block target ↔
      ∃ count ≤ ancestry.children.card, ancestry.ancestor? count block = some target := by
  constructor
  · intro leads
    by_cases arrived : block = target
    · exact ⟨0, Nat.zero_le _, congrArg some arrived⟩
    · have reached := reachesWithin_card_children leads arrived
      obtain ⟨count, fewer, led⟩ := reachesWithin_iff_exists_ancestor?.mp reached
      exact ⟨count + 1, fewer, led⟩
  · rintro ⟨count, _, led⟩
    exact leads_of_ancestor? led

/-- Whether a block reaches another is decided by the links alone, also if they run in circles.
A search of so many steps sees so many ancestors, and one step for each block with a parent suffices
to see all that there are. -/
theorem reaches_decides_leads (ancestry : Ancestry) (block target : Hash) :
    (ancestry.reaches block target = true ↔ ancestry.Leads block target) ∧
      (ancestry.Leads block target ↔
        ∃ count ≤ ancestry.children.card, ancestry.ancestor? count block = some target) ∧
      ∀ steps,
        ancestry.reachesWithin target steps block = true ↔
          ∃ count < steps, ancestry.ancestor? (count + 1) block = some target :=
  ⟨reaches_iff_leads, leads_iff_exists_ancestor?, fun _ => reachesWithin_iff_exists_ancestor?⟩

/-! ## Links of headers -/

theorem parent?_link (ancestry : Ancestry) (block parent other : Hash) :
    (ancestry.link block parent).parent? other =
      if other = block then some parent else ancestry.parent? other := by
  by_cases same : other = block
  · simp [link, parent?, same]
  · have different : (other == block) = false := beq_eq_false_iff_ne.mpr same
    have kept :
        (ancestry.links.filter fun entry => entry.1 != block).lookup other =
          ancestry.links.lookup other := by
      induction ancestry.links with
      | nil => rfl
      | cons entry links inductionHypothesis =>
          obtain ⟨child, parent⟩ := entry
          by_cases dropped : child = block
          · simp [dropped, List.lookup_cons, different, inductionHypothesis]
          · simp [dropped, List.lookup_cons, inductionHypothesis]
    simp [link, parent?, List.lookup_cons, different, same, kept]

end Ancestry

/-- The last of the headers with the hash `child` names `parent` as its parent. -/
def IsLastParentLink
    (primitives : Primitives) (headers : List Header) (child parent : Hash) : Prop :=
  ∃ earlier header later,
    headers = earlier ++ header :: later ∧
      header.hash primitives = child ∧ header.parentHash = parent ∧
      ∀ other ∈ later, other.hash primitives ≠ child

theorem isLastParentLink_concat
    {primitives : Primitives} {headers : List Header} {last : Header} {child parent : Hash} :
    IsLastParentLink primitives (headers ++ [last]) child parent ↔
      last.hash primitives = child ∧ last.parentHash = parent ∨
        last.hash primitives ≠ child ∧ IsLastParentLink primitives headers child parent := by
  constructor
  · rintro ⟨earlier, header, later, split, sameHash, sameParent, unseen⟩
    rcases List.eq_nil_or_concat' later with rfl | ⟨before, final, rfl⟩
    · obtain ⟨_, sameLast⟩ := List.append_inj' split rfl
      cases sameLast
      exact Or.inl ⟨sameHash, sameParent⟩
    · rw [← List.cons_append, ← List.append_assoc] at split
      obtain ⟨sameHeaders, sameLast⟩ := List.append_inj' split rfl
      cases sameLast
      refine Or.inr ⟨unseen last (by simp), earlier, header, before, sameHeaders, sameHash,
        sameParent, ?_⟩
      exact fun other member => unseen other (List.mem_append_left _ member)
  · rintro (⟨sameHash, sameParent⟩ | ⟨otherHash, earlier, header, later, rfl, sameHash, sameParent,
      unseen⟩)
    · exact ⟨headers, last, [], rfl, sameHash, sameParent, by simp⟩
    · refine ⟨earlier, header, later ++ [last], by simp, sameHash, sameParent, ?_⟩
      intro other member
      rcases List.mem_append.mp member with inLater | isLast
      · exact unseen other inLater
      · rw [List.mem_singleton.mp isLast]
        exact otherHash

namespace Ancestry

variable {primitives : Primitives}

theorem ofHeaders_concat (headers : List Header) (header : Header) :
    ofHeaders primitives (headers ++ [header]) =
      (ofHeaders primitives headers).link (header.hash primitives) header.parentHash := by
  simp [ofHeaders]

theorem hasLink_ofHeaders_iff {headers : List Header} {child parent : Hash} :
    (ofHeaders primitives headers).HasLink child parent ↔
      IsLastParentLink primitives headers child parent := by
  induction headers using List.reverseRecOn with
  | nil => simp [HasLink, ofHeaders, empty, parent?, IsLastParentLink]
  | append_singleton headers last inductionHypothesis =>
      rw [isLastParentLink_concat, ← inductionHypothesis, HasLink, ofHeaders_concat, parent?_link,
        HasLink]
      by_cases isLast : last.hash primitives = child
      · simp [isLast]
      · simp [isLast, Ne.symm isLast]

/-- A block reaches another along the ancestry of some headers exactly if the last headers of each
hash lead there. -/
theorem reaches_ofHeaders_iff {headers : List Header} {block target : Hash} :
    (ofHeaders primitives headers).reaches block target = true ↔
      Relation.ReflTransGen (IsLastParentLink primitives headers) block target := by
  have sameLinks :
      (ofHeaders primitives headers).HasLink = IsLastParentLink primitives headers := by
    funext child parent
    exact propext hasLink_ofHeaders_iff
  rw [reaches_iff_leads, Leads, sameLinks]

end Ancestry

end FinalitySync
