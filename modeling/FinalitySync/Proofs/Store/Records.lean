import FinalitySync.Proofs.Store.Forms
import FinalitySync.Proofs.Store.Names
import FinalitySync.Sync.Head

/-!
# Records of the store

What a record holds after another one is written, and the records of the head.
-/

namespace FinalitySync

namespace Store

theorem get?_empty (record : Record) : empty.get? record = none := rfl

@[simp]
theorem get?_put_self (store : Store) (record : Record) (value : record.Value) :
    (store.put record value).get? record = some value := by
  rw [get?, put, text?_insert, if_pos rfl, Option.bind_some]
  exact record.form_isFaithful.ofJson?_toJson value

theorem get?_put_of_ne
    {record other : Record} (different : other.entryName ≠ record.entryName)
    (store : Store) (value : record.Value) :
    (store.put record value).get? other = store.get? other := by
  rw [get?, put, text?_insert, if_neg different, get?]

/-- Records of different kinds do not disturb each other. -/
theorem get?_put_of_kind_ne
    {record other : Record} (different : other.kind ≠ record.kind)
    (store : Store) (value : record.Value) :
    (store.put record value).get? other = store.get? other :=
  get?_put_of_ne (fun sameName => different (Record.kind_eq_of_entryName_eq sameName)) store value

/-- Stores that agree about a record still do after the same is written to both. -/
theorem get?_put_congr
    {store other : Store} {read : Record} (same : store.get? read = other.get? read)
    (record : Record) (value : record.Value) :
    (store.put record value).get? read = (other.put record value).get? read := by
  by_cases sameName : read.entryName = record.entryName
  · rw [get?, get?, put, put, text?_insert, text?_insert, if_pos sameName, if_pos sameName]
  · rw [get?_put_of_ne sameName, get?_put_of_ne sameName, same]

theorem get?_put_authorities
    (store : Store) (written read : SetId) (authorities : List Authority) :
    (store.put (.authorities written) authorities).get? (.authorities read) =
      if read = written then some authorities else store.get? (.authorities read) := by
  by_cases same : read = written
  · rw [if_pos same, same]
    exact get?_put_self store (.authorities written) authorities
  · rw [if_neg same]
    apply get?_put_of_ne
    apply Record.entryName_ne
    · intro sameRecord
      cases sameRecord
      exact same rfl
    · exact fun isPrecommits => nomatch isPrecommits

/-- Precommits whose numbers have the same digits share their place. -/
theorem get?_put_precommits
    (store : Store) (round otherRound : RoundNumber) (setId otherSetId : SetId)
    (precommits : List SignedVote) :
    (store.put (.precommits round setId) precommits).get? (.precommits otherRound otherSetId) =
      if (Record.precommits otherRound otherSetId).entryName =
          (Record.precommits round setId).entryName then some precommits
      else store.get? (.precommits otherRound otherSetId) := by
  by_cases sameName :
      (Record.precommits otherRound otherSetId).entryName =
        (Record.precommits round setId).entryName
  · rw [if_pos sameName, get?, put, text?_insert, if_pos sameName, Option.bind_some]
    exact (Record.precommits round setId).form_isFaithful.ofJson?_toJson precommits
  · rw [if_neg sameName]
    exact get?_put_of_ne sameName store precommits

end Store

namespace Head

theorem load?_empty : load? .empty = none := by
  rw [load?, Store.get?_empty]
  rfl

theorem get?_persist_of_kind
    {record : Record} (beside : record.kind ∉ [.headHash, .headNumber, .headStateRoot])
    (head : Head) (store : Store) :
    (head.persist store).get? record = store.get? record := by
  simp only [List.mem_cons, List.not_mem_nil, or_false, not_or] at beside
  obtain ⟨notHash, notNumber, notRoot⟩ := beside
  rw [persist, Store.get?_put_of_kind_ne notRoot, Store.get?_put_of_kind_ne notNumber,
    Store.get?_put_of_kind_ne notHash]

theorem load?_persist (head : Head) (store : Store) :
    load? (head.persist store) = some head := by
  have hash : (head.persist store).get? .headHash = some head.hash := by
    rw [persist, Store.get?_put_of_kind_ne (by decide), Store.get?_put_of_kind_ne (by decide)]
    exact Store.get?_put_self store .headHash head.hash
  have number : (head.persist store).get? .headNumber = some head.number := by
    rw [persist, Store.get?_put_of_kind_ne (by decide)]
    exact Store.get?_put_self _ .headNumber head.number
  have stateRoot : (head.persist store).get? .headStateRoot = some head.stateRoot :=
    Store.get?_put_self _ .headStateRoot head.stateRoot
  simp [load?, hash, number, stateRoot]

/-- Only the three records of the head matter to it. -/
theorem load?_put_of_kind
    {record : Record} (beside : record.kind ∉ [.headHash, .headNumber, .headStateRoot])
    (store : Store) (value : record.Value) :
    load? (store.put record value) = load? store := by
  simp only [List.mem_cons, List.not_mem_nil, or_false, not_or] at beside
  obtain ⟨notHash, notNumber, notRoot⟩ := beside
  rw [load?, load?, Store.get?_put_of_kind_ne (Ne.symm notHash),
    Store.get?_put_of_kind_ne (Ne.symm notNumber), Store.get?_put_of_kind_ne (Ne.symm notRoot)]

/-- Records about authority sets leave the head as it is. -/
theorem load?_put_of_space
    {record : Record} (beside : record.space = "grandpa_state_cf")
    (store : Store) (value : record.Value) :
    load? (store.put record value) = load? store := by
  apply load?_put_of_kind
  cases record <;> simp_all [Record.kind, Record.space]

end Head

end FinalitySync
