import FinalitySync.Proofs.Grandpa.Announcement
import FinalitySync.Proofs.Grandpa.Enactment
import FinalitySync.Proofs.Store.Records

/-!
# What a roster leaves in the store

A new set goes into the store with its number and its round, and a noted round with its precommits.
A roster that is loaded has the set and the round that were written last.
-/

namespace FinalitySync.Grandpa.Roster

theorem get?_persist_of_kind
    {record : Record} (beside : record.kind ∉ [.authorities, .currentSetId, .latestRound])
    (roster : Roster) (store : Store) :
    (roster.persist store).get? record = store.get? record := by
  simp only [List.mem_cons, List.not_mem_nil, or_false, not_or] at beside
  obtain ⟨notAuthorities, notSetId, notRound⟩ := beside
  rw [persist, Store.get?_put_of_kind_ne notRound, Store.get?_put_of_kind_ne notSetId,
    Store.get?_put_of_kind_ne notAuthorities]

theorem get?_persist_authorities (roster : Roster) (store : Store) (setId : SetId) :
    (roster.persist store).get? (.authorities setId) =
      if setId = roster.setId then some roster.current.authorities
      else store.get? (.authorities setId) := by
  rw [persist, Store.get?_put_of_kind_ne (by simp), Store.get?_put_of_kind_ne (by simp),
    Store.get?_put_authorities]

theorem get?_persist_currentSetId (roster : Roster) (store : Store) :
    (roster.persist store).get? .currentSetId = some roster.setId := by
  rw [persist, Store.get?_put_of_kind_ne (by simp)]
  exact Store.get?_put_self _ .currentSetId roster.setId

theorem get?_persist_latestRound (roster : Roster) (store : Store) :
    (roster.persist store).get? .latestRound = some roster.round :=
  Store.get?_put_self _ .latestRound roster.round

theorem get?_persistRound_of_kind
    {record : Record} (beside : record.kind ∉ [.latestRound, .precommits])
    (roster : Roster) (store : Store) (precommits : List SignedVote) :
    (roster.persistRound store precommits).get? record = store.get? record := by
  simp only [List.mem_cons, List.not_mem_nil, or_false, not_or] at beside
  obtain ⟨notRound, notPrecommits⟩ := beside
  rw [persistRound, Store.get?_put_of_kind_ne notPrecommits, Store.get?_put_of_kind_ne notRound]

theorem get?_persistRound_latestRound
    (roster : Roster) (store : Store) (precommits : List SignedVote) :
    (roster.persistRound store precommits).get? .latestRound = some roster.round := by
  rw [persistRound, Store.get?_put_of_kind_ne (by simp)]
  exact Store.get?_put_self _ .latestRound roster.round

@[simp]
theorem round_receiveAll (roster : Roster) (block : BlockNumber) (messages : List Message) :
    (roster.receiveAll block messages).round = roster.round := by
  induction messages generalizing roster with
  | nil => rfl
  | cons message messages inductionHypothesis =>
      have sameRound : (roster.receive block message).round = roster.round := by
        cases message <;> rfl
      exact (inductionHypothesis (roster.receive block message)).trans sameRound

/-- Draining leaves the roster alone if no change is due. -/
theorem eq_of_drain_nil
    {roster last : Roster} {block : BlockNumber} (drained : roster.drain block = .ok ([], last)) :
    last = roster := by
  rw [drain_eq] at drained
  split at drained
  · obtain ⟨noneEnacted, sameLast⟩ := Prod.mk.inj (Except.ok.inj drained)
    rw [noneEnacted] at sameLast
    exact sameLast.symm
  · cases drained

theorem load?_eq_some
    {store : Store} {authoritySet : AuthoritySet} {round : RoundNumber}
    (savedSetId : store.get? .currentSetId = some authoritySet.setId)
    (savedAuthorities :
      store.get? (.authorities authoritySet.setId) = some authoritySet.authorities)
    (savedRound : (store.get? .latestRound).getD 0 = round)
    (retention : Nat) :
    load? store retention =
      some { ofSet authoritySet retention with
        round := round
        superseded := loadSuperseded store authoritySet.setId retention } := by
  simp [load?, savedSetId, savedAuthorities, savedRound]

/-- A roster that is loaded has what the store has; a round that was never written is zero. -/
theorem saved_of_load?
    {store : Store} {retention : Nat} {roster : Roster}
    (loaded : load? store retention = some roster) :
    store.get? .currentSetId = some roster.setId ∧
      store.get? (.authorities roster.setId) = some roster.current.authorities ∧
        (store.get? .latestRound).getD 0 = roster.round := by
  simp only [load?, Option.bind_eq_bind, Option.bind_eq_some_iff] at loaded
  obtain ⟨setId, savedSetId, authorities, savedAuthorities, same⟩ := loaded
  cases same
  exact ⟨savedSetId, savedAuthorities, rfl⟩

/-- A roster that is loaded is that of a set without a past, but for its round and its superseded
sets. -/
theorem exists_eq_of_load?
    {store : Store} {retention : Nat} {roster : Roster}
    (loaded : load? store retention = some roster) :
    ∃ authoritySet round superseded,
      roster = { ofSet authoritySet retention with round := round, superseded := superseded } := by
  simp only [load?, Option.bind_eq_bind, Option.bind_eq_some_iff] at loaded
  obtain ⟨setId, _, authorities, _, same⟩ := loaded
  cases same
  exact ⟨_, _, _, rfl⟩

/-- Announcements are not loaded. -/
theorem agenda_of_load?
    {store : Store} {retention : Nat} {roster : Roster}
    (loaded : load? store retention = some roster) : roster.agenda = .empty := by
  obtain ⟨authoritySet, round, superseded, rfl⟩ := exists_eq_of_load? loaded
  rfl

theorem load?_empty (retention : Nat) : load? .empty retention = none := by
  rw [load?, Store.get?_empty]
  rfl

end FinalitySync.Grandpa.Roster
