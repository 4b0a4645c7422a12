import FinalitySync.Proofs.Finality.Accountability
import FinalitySync.Proofs.Finality.Decision

/-!
# Order and repetition do not matter

Which links the headers of a justification give depends on their order only if two of one hash have
different parents.  Who counts depends on which precommits there are, not on where they stand and
how often.  So a verdict outlasts any rearrangement, and more headers do not revoke it.
-/

namespace FinalitySync

namespace Justification

/-- The same block, round and set, with these precommits and headers. -/
def withEvidence (justification : Justification)
    (precommits : List SignedVote) (headers : List Header) : Justification :=
  { justification with precommits := precommits, votesAncestries := headers }

variable {primitives : Primitives} {authoritySet : AuthoritySet} {justification : Justification}
variable {precommits : List SignedVote} {headers : List Header}

/-- Who counts depends on which precommits there are. -/
theorem countedKeys_withEvidence
    (samePrecommits :
      ∀ precommit, precommit ∈ precommits ↔ precommit ∈ justification.precommits) :
    (justification.withEvidence precommits headers).countedKeys = justification.countedKeys := by
  rw [countedKeys_eq_unanimousKeys, countedKeys_eq_unanimousKeys]
  ext key
  simp only [unanimousKeys, withEvidence, Finset.mem_filter, List.mem_toFinset, List.mem_map,
    samePrecommits]

/-- A precommit that is admitted stays so when there are more headers. -/
theorem Admits.withEvidence
    {precommit : SignedVote}
    (admitted : justification.Admits primitives authoritySet precommit)
    (included : justification.votesAncestries ⊆ headers)
    (unique : HasUniqueParents primitives headers) :
    (justification.withEvidence precommits headers).Admits primitives authoritySet precommit where
  isMember := admitted.isMember
  isSigned := admitted.isSigned
  isNotBelow := admitted.isNotBelow
  reachesTarget :=
    Ancestry.reaches_of_descends unique
      ((Ancestry.descends_of_reaches admitted.reachesTarget).mono included)

/-- The same precommits and all the headers suffice for the same verdict. -/
theorem check_withEvidence_eq_ok
    (accepted : justification.check primitives authoritySet = .ok ())
    (samePrecommits :
      ∀ precommit, precommit ∈ precommits ↔ precommit ∈ justification.precommits)
    (included : justification.votesAncestries ⊆ headers)
    (unique : HasUniqueParents primitives headers) :
    (justification.withEvidence precommits headers).check primitives authoritySet = .ok () := by
  obtain ⟨sameSet, admitted, reached⟩ := check_eq_ok_iff.mp accepted
  refine check_eq_ok_iff.mpr ⟨sameSet, ?_, ?_⟩
  · intro precommit member
    have isGiven := (samePrecommits precommit).mp member
    exact (admitted precommit isGiven).withEvidence included unique
  · rw [signedWeight_eq_weightOfKeys] at reached ⊢
    rw [countedKeys_withEvidence samePrecommits]
    exact reached

/-- If hashes determine parents, the same precommits and headers, in any order and any number, are
accepted exactly if the given ones are.  More headers that determine parents as well do not turn an
accepted justification into one that is refused. -/
theorem verdict_outlasts_rearrangement
    (primitives : Primitives) (authoritySet : AuthoritySet) (justification : Justification)
    (unique : HasUniqueParents primitives justification.votesAncestries) :
    (∀ (precommits : List SignedVote) (headers : List Header),
      (∀ precommit, precommit ∈ precommits ↔ precommit ∈ justification.precommits) →
        (∀ header, header ∈ headers ↔ header ∈ justification.votesAncestries) →
          ((justification.withEvidence precommits headers).check primitives authoritySet =
              .ok () ↔
            justification.check primitives authoritySet = .ok ())) ∧
      (∀ headers : List Header,
        justification.votesAncestries ⊆ headers →
          HasUniqueParents primitives headers →
            justification.check primitives authoritySet = .ok () →
              (justification.withEvidence justification.precommits headers).check primitives
                authoritySet = .ok ()) := by
  constructor
  · intro precommits headers samePrecommits sameHeaders
    have headersGiven : headers ⊆ justification.votesAncestries :=
      fun header member => (sameHeaders header).mp member
    have givenInHeaders : justification.votesAncestries ⊆ headers :=
      fun header member => (sameHeaders header).mpr member
    constructor
    · -- The given precommits and headers are a rearrangement of the others, too.
      intro accepted
      have restored :
          ((justification.withEvidence precommits headers).withEvidence justification.precommits
            justification.votesAncestries).check primitives authoritySet = .ok () :=
        check_withEvidence_eq_ok accepted (fun precommit => (samePrecommits precommit).symm)
          headersGiven unique
      exact restored
    · intro accepted
      exact
        check_withEvidence_eq_ok accepted samePrecommits givenInHeaders
          (unique.of_subset headersGiven)
  · intro headers included uniqueToo accepted
    exact check_withEvidence_eq_ok accepted (fun _ => Iff.rfl) included uniqueToo

namespace Fork

/-- Another child of the same block. -/
def sibling : Header := { child with number := 3 }

theorem hasUniqueParents_siblings : HasUniqueParents .standard [sibling, child, child] := by
  intro header member other otherMember _
  simp only [List.mem_cons, List.not_mem_nil, or_false] at member otherMember
  rcases member with rfl | rfl | rfl <;> rcases otherMember with rfl | rfl | rfl <;> rfl

end Fork

/-- A precommit and a header that are given twice, and a header that nobody voted for. -/
theorem verdict_outlasts_rearrangement_siblings :
    HasUniqueParents .standard Fork.leftJustification.votesAncestries ∧
      (Fork.leftJustification.withEvidence
          (Fork.leftJustification.precommits ++ Fork.leftJustification.precommits)
          [Fork.child, Fork.child]).check .standard Fork.voters = .ok () ∧
      HasUniqueParents .standard [Fork.sibling, Fork.child, Fork.child] ∧
      (Fork.leftJustification.withEvidence Fork.leftJustification.precommits
          [Fork.sibling, Fork.child, Fork.child]).check .standard Fork.voters = .ok () := by
  have unique : HasUniqueParents .standard Fork.leftJustification.votesAncestries :=
    Fork.hasUniqueParents_siblings.of_subset (by simp [Fork.leftJustification])
  have outlasts :=
    verdict_outlasts_rearrangement .standard Fork.voters Fork.leftJustification unique
  refine ⟨unique, ?_, Fork.hasUniqueParents_siblings, ?_⟩
  · have repeated :=
      outlasts.1 (Fork.leftJustification.precommits ++ Fork.leftJustification.precommits)
        [Fork.child, Fork.child] (by simp) (by simp [Fork.leftJustification])
    exact repeated.mpr Fork.left_isFinal
  · have included :
        Fork.leftJustification.votesAncestries ⊆ [Fork.sibling, Fork.child, Fork.child] := by
      simp [Fork.leftJustification]
    exact outlasts.2 _ included Fork.hasUniqueParents_siblings Fork.left_isFinal

end Justification

end FinalitySync
