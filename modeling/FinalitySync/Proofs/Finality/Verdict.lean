import FinalitySync.Finality.Verdict

/-!
# What a verdict says

There is no objection to a justification exactly if its set is the given one, every precommit may
stand in it, and the signers that count make a quorum.
-/

namespace FinalitySync.Justification

variable {primitives : Primitives} {authoritySet : AuthoritySet} {justification : Justification}

/-- What a precommit needs to stand in a justification. -/
structure Admits
    (justification : Justification) (primitives : Primitives) (authoritySet : AuthoritySet)
    (precommit : SignedVote) : Prop where
  isMember : (authoritySet.weightOf? precommit.id).isSome = true
  isSigned :
    precommit.isPrecommitOf primitives justification.round justification.setId = true
  isNotBelow : justification.targetNumber ≤ precommit.vote.targetNumber
  reachesTarget :
    (Ancestry.ofHeaders primitives justification.votesAncestries).reaches
      precommit.vote.targetHash justification.targetHash = true

theorem checkPrecommit_eq_ok_iff {precommit : SignedVote} :
    justification.checkPrecommit primitives authoritySet
        (Ancestry.ofHeaders primitives justification.votesAncestries) precommit = .ok () ↔
      justification.Admits primitives authoritySet precommit := by
  unfold checkPrecommit
  constructor
  · intro checked
    split at checked
    · cases checked
    · rename_i isMember
      split at checked
      · cases checked
      · rename_i isSigned
        split at checked
        · rename_i onBranch
          rw [Bool.and_eq_true, decide_eq_true_eq] at onBranch
          exact
            ⟨by simpa [Option.isSome_iff_ne_none] using isMember, by simpa using isSigned,
              onBranch.1, onBranch.2⟩
        · cases checked
  · rintro ⟨isMember, isSigned, isNotBelow, reachesTarget⟩
    simp [Option.isNone_iff_eq_none, Option.ne_none_iff_isSome.mpr isMember, isSigned,
      isNotBelow, reachesTarget]

theorem forM_eq_ok_iff
    {precommits : List SignedVote} {examine : SignedVote → Except Objection Unit} :
    precommits.forM examine = .ok () ↔
      ∀ precommit ∈ precommits, examine precommit = .ok () := by
  induction precommits with
  | nil => simp [pure, Except.pure]
  | cons precommit precommits inductionHypothesis =>
      have first :
          (precommit :: precommits).forM examine =
            examine precommit >>= fun _ => precommits.forM examine := rfl
      rw [first, List.forall_mem_cons, ← inductionHypothesis]
      cases examine precommit with
      | error objection => simp [bind, Except.bind]
      | ok => simp [bind, Except.bind]

theorem check_eq_ok_iff :
    justification.check primitives authoritySet = .ok () ↔
      authoritySet.setId = justification.setId ∧
        (∀ precommit ∈ justification.precommits,
          justification.Admits primitives authoritySet precommit) ∧
        Quorum.isReached (justification.signedWeight authoritySet) authoritySet.totalWeight =
          true := by
  simp only [← checkPrecommit_eq_ok_iff]
  rw [← forM_eq_ok_iff, check]
  by_cases sameSet : authoritySet.setId = justification.setId
  · cases examined :
        justification.precommits.forM
          (justification.checkPrecommit primitives authoritySet
            (Ancestry.ofHeaders primitives justification.votesAncestries)) with
    | error objection => simp [sameSet, examined, bind, Except.bind]
    | ok =>
        cases
          Quorum.isReached (justification.signedWeight authoritySet) authoritySet.totalWeight with
        | false =>
            simp [sameSet, examined, bind, Except.bind, throw, throwThe, MonadExceptOf.throw]
        | true => simp [sameSet, examined, bind, Except.bind, pure, Except.pure]
  · simp [sameSet, bind, Except.bind, throw, throwThe, MonadExceptOf.throw]

theorem mem_votesOf {signer : PublicKey} {vote : Vote} :
    vote ∈ justification.votesOf signer ↔
      ∃ precommit ∈ justification.precommits, precommit.id = signer ∧ precommit.vote = vote := by
  simp [votesOf, and_assoc]

theorem exists_vote_of_mem_countedSigners
    {signer : PublicKey} (counted : signer ∈ justification.countedSigners) :
    ∃ vote, vote ∈ justification.votesOf signer := by
  have isSigner := (List.mem_filter.mp counted).1
  rw [signers, List.mem_eraseDups] at isSigner
  obtain ⟨precommit, member, sameId⟩ := List.mem_map.mp isSigner
  exact ⟨precommit.vote, mem_votesOf.mpr ⟨precommit, member, sameId, rfl⟩⟩

end FinalitySync.Justification
