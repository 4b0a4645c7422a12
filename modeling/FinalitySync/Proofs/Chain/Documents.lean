import FinalitySync.Chain.Checkpoint
import FinalitySync.Chain.Fragment
import FinalitySync.Proofs.Store.Forms
import FinalitySync.Sync.Settings

/-!
# Documents of chain data and settings

Headers, justifications, fragments, pages, checkpoints and settings are read back from the JSON
texts that they are written as.
-/

namespace FinalitySync

@[simp]
theorem AuthoritySet.form_isFaithful : AuthoritySet.form.IsFaithful := by
  apply Form.IsFaithful.fields
  · decide
  · intro authoritySet
    rfl
  · intro authoritySet
    simp
  · intro authoritySet
    simp

@[simp]
theorem EngineId.form_isFaithful : EngineId.form.IsFaithful where
  read?_write engine := by
    simp [EngineId.form, Octets.ofList?_toList]
  isPlain_write engine := by
    simp [EngineId.form]

namespace DigestItem

/-- None of the variants with an engine is the one that has data alone. -/
theorem read?_engineDocument
    (variant : String) (isNotOther : variant ≠ "Other") (engine : EngineId) (data : Bytes) :
    read? (write.engineDocument variant engine data) =
      if variant = "PreRuntime" then some (.preRuntime engine data)
      else if variant = "Consensus" then some (.consensus engine data)
      else if variant = "Seal" then some (.seal engine data)
      else none := by
  simp [write.engineDocument, Document.record, read?]

theorem isPlain_engineDocument (variant : String) (engine : EngineId) (data : Bytes) :
    (write.engineDocument variant engine data).IsPlain := by
  apply Document.IsPlain.record
  intro member inMembers
  obtain rfl := List.mem_singleton.mp inMembers
  apply Document.IsPlain.array
  simp

@[simp]
theorem form_isFaithful : form.IsFaithful where
  read?_write item := by
    cases item with
    | preRuntime engine data => exact read?_engineDocument "PreRuntime" (by decide) engine data
    | consensus engine data => exact read?_engineDocument "Consensus" (by decide) engine data
    | «seal» engine data => exact read?_engineDocument "Seal" (by decide) engine data
    | other data => simp [form, write, Document.record, read?]
    | runtimeEnvironmentUpdated => rfl
  isPlain_write item := by
    cases item with
    | preRuntime engine data => exact isPlain_engineDocument "PreRuntime" engine data
    | consensus engine data => exact isPlain_engineDocument "Consensus" engine data
    | «seal» engine data => exact isPlain_engineDocument "Seal" engine data
    | other data =>
        apply Document.IsPlain.record
        simp
    | runtimeEnvironmentUpdated => exact .text "RuntimeEnvironmentUpdated"

end DigestItem

@[simp]
theorem Digest.form_isFaithful : Digest.form.IsFaithful := by
  apply Form.IsFaithful.fields
  · decide
  · intro digest
    rfl
  · intro digest
    simp
  · intro digest
    simp

@[simp]
theorem Header.form_isFaithful : Header.form.IsFaithful := by
  apply Form.IsFaithful.fields
  · decide
  · intro header
    rfl
  · intro header
    simp
  · intro header
    simp

@[simp]
theorem Justification.form_isFaithful : Justification.form.IsFaithful := by
  apply Form.IsFaithful.fields
  · decide
  · intro justification
    rfl
  · intro justification
    simp
  · intro justification
    simp

@[simp]
theorem Fragment.form_isFaithful : Fragment.form.IsFaithful := by
  apply Form.IsFaithful.fields
  · decide
  · intro fragment
    rfl
  · intro fragment
    simp
  · intro fragment
    simp

@[simp]
theorem Page.form_isFaithful : Page.form.IsFaithful := by
  apply Form.IsFaithful.fields
  · decide
  · intro page
    rfl
  · intro page
    simp
  · intro page
    simp

@[simp]
theorem Checkpoint.form_isFaithful : Checkpoint.form.IsFaithful := by
  apply Form.IsFaithful.fields
  · decide
  · intro checkpoint
    rfl
  · intro checkpoint
    simp
  · intro checkpoint
    simp

namespace Sync.Settings

@[simp]
theorem count_read?_write (value : UInt64) :
    count.read? (count.write value.toNat) = some value.toNat := by
  simp [count, Form.below, value.toNat_lt]

theorem seconds_ofSeconds (seconds : Nat) : (Duration.ofSeconds seconds).seconds = seconds := by
  rw [Duration.ofSeconds, Duration.seconds]
  exact Nat.mul_div_cancel_left seconds (by decide)

@[simp]
theorem timeoutForm_read?_write (seconds : UInt64) :
    timeoutForm.read? (timeoutForm.write (.ofSeconds seconds.toNat)) =
      some (.ofSeconds seconds.toNat) := by
  simp only [timeoutForm, Form.via, seconds_ofSeconds, count_read?_write, Option.map_some]

/-- A timeout is written in whole seconds, so one of whole seconds is read back. -/
theorem ofJson?_toJson (seconds retention capacity : UInt64) :
    form.ofJson? (form.toJson ⟨.ofSeconds seconds.toNat, retention.toNat, capacity.toNat⟩) =
      some ⟨.ofSeconds seconds.toNat, retention.toNat, capacity.toNat⟩ := by
  have isPlain :
      (form.write ⟨.ofSeconds seconds.toNat, retention.toNat, capacity.toNat⟩).IsPlain := by
    apply Document.IsPlain.record
    intro member inMembers
    simp only [names, List.zip_cons_cons, List.zip_nil_right, List.mem_cons, List.not_mem_nil,
      or_false] at inMembers
    rcases inMembers with rfl | rfl | rfl
    · exact .natural _
    · exact .natural _
    · exact .natural _
  rw [Form.ofJson?, Form.toJson, Json.parse?_print isPlain, Option.bind_some]
  simp only [form]
  rw [Document.fieldsOrMissing?_record (by decide) rfl, Option.bind_some]
  simp [ofValues?, Form.readOr?]

end Sync.Settings

/-- Every value is read back from its JSON text. -/
def Form.IsLossless {α : Type} (form : Form α) : Prop :=
  ∀ value, form.ofJson? (form.toJson value) = some value

theorem Form.IsFaithful.isLossless {α : Type} {form : Form α} (faithful : form.IsFaithful) :
    form.IsLossless :=
  fun value => faithful.ofJson?_toJson value

/-- The data that is stored or configured is read back from the JSON texts that it is written as;
of settings this holds if their timeout is in whole seconds. -/
theorem jsonForms_areLossless :
    Authority.form.list.IsLossless ∧ AuthoritySet.form.IsLossless ∧ Vote.form.IsLossless ∧
      SignedVote.form.IsLossless ∧ Justification.form.IsLossless ∧
      DigestItem.form.IsLossless ∧ Digest.form.IsLossless ∧ Header.form.IsLossless ∧
      Fragment.form.IsLossless ∧ Page.form.IsLossless ∧ Checkpoint.form.IsLossless ∧
      (∀ seconds retention capacity : UInt64,
        let settings : Sync.Settings :=
          ⟨.ofSeconds seconds.toNat, retention.toNat, capacity.toNat⟩
        Sync.Settings.form.ofJson? (Sync.Settings.form.toJson settings) = some settings) ∧
      Form.word64.IsLossless ∧ Form.word32.IsLossless ∧ Hash.form.IsLossless ∧
      Form.word8.list.IsLossless ∧ Form.boolean.IsLossless := by
  refine ⟨?_, ?_, ?_, ?_, ?_, ?_, ?_, ?_, ?_, ?_, ?_, Sync.Settings.ofJson?_toJson,
    ?_, ?_, ?_, ?_, ?_⟩
  all_goals
    apply Form.IsFaithful.isLossless
    simp

end FinalitySync
