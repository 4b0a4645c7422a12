import FinalitySync.Proofs.Crypto.Spelling
import FinalitySync.Proofs.Document.Compound
import FinalitySync.Store.Record

/-!
# The forms of records are faithful

Whatever a record holds is read back from its JSON text: authorities with their addresses, signed
votes with their signatures, hashes, numbers, bytes and flags.
-/

namespace FinalitySync

@[simp]
theorem Authority.form_isFaithful : Authority.form.IsFaithful := by
  apply Form.IsFaithful.fields
  · decide
  · intro authority
    rfl
  · intro authority
    simp
  · intro authority
    simp

@[simp]
theorem Vote.form_isFaithful : Vote.form.IsFaithful := by
  apply Form.IsFaithful.fields
  · decide
  · intro vote
    rfl
  · intro vote
    simp
  · intro vote
    simp

@[simp]
theorem SignedVote.form_isFaithful : SignedVote.form.IsFaithful := by
  apply Form.IsFaithful.fields
  · decide
  · intro signed
    rfl
  · intro signed
    simp
  · intro signed
    simp

theorem Record.form_isFaithful (record : Record) : record.form.IsFaithful := by
  cases record with
  | authorities setId => exact Authority.form_isFaithful.list
  | currentSetId => exact Form.word64_isFaithful
  | latestRound => exact Form.word64_isFaithful
  | precommits round setId => exact SignedVote.form_isFaithful.list
  | headNumber => exact Form.word32_isFaithful
  | headHash => exact Hash.form_isFaithful
  | headStateRoot => exact Hash.form_isFaithful
  | runtimeCode => exact Form.word8_isFaithful.list
  | isSynced => exact Form.boolean_isFaithful

end FinalitySync
