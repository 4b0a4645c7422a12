import FinalitySync.Store.Basic

/-!
# Names of records

A name is a label, which tells what kind of record it is, and digits.  No label begins with another
one, so records of different kinds never share a name.  Records of one kind share one only if they
are precommits whose numbers, written one behind the other, have the same digits.
-/

namespace FinalitySync.Record

inductive Kind
  | authorities
  | currentSetId
  | latestRound
  | precommits
  | headNumber
  | headHash
  | headStateRoot
  | runtimeCode
  | isSynced
deriving DecidableEq

@[simp]
def kind : Record → Kind
  | .authorities _ => .authorities
  | .currentSetId => .currentSetId
  | .latestRound => .latestRound
  | .precommits _ _ => .precommits
  | .headNumber => .headNumber
  | .headHash => .headHash
  | .headStateRoot => .headStateRoot
  | .runtimeCode => .runtimeCode
  | .isSynced => .isSynced

def Kind.label : Kind → String
  | .authorities => "grandpa_state_cf" ++ "::" ++ "grandpa_authorities"
  | .currentSetId => "grandpa_state_cf" ++ "::" ++ "grandpa_set_id"
  | .latestRound => "grandpa_state_cf" ++ "::" ++ "grandpa_latest_round"
  | .precommits => "grandpa_state_cf" ++ "::" ++ "grandpa_precommits"
  | .headNumber => "sync_state_cf" ++ "::" ++ "last_finalized_block_number"
  | .headHash => "sync_state_cf" ++ "::" ++ "last_finalized_block_hash"
  | .headStateRoot => "sync_state_cf" ++ "::" ++ "state_root"
  | .runtimeCode => "sync_state_cf" ++ "::" ++ "runtime_code"
  | .isSynced => "sync_state_cf" ++ "::" ++ "is_warp_sync_finished"

/-- The digits behind a label. -/
def numerals : Record → List Char
  | .authorities setId => Decimal.digits setId.toNat
  | .precommits round setId => Decimal.digits round.toNat ++ Decimal.digits setId.toNat
  | _ => []

theorem entryName_eq (record : Record) :
    record.entryName = record.kind.label ++ String.ofList record.numerals := by
  have asCharacters (left middle right : String) :
      left ++ "::" ++ (middle ++ right) = left ++ "::" ++ middle ++ right :=
    (String.append_assoc).symm
  cases record with
  | authorities setId => exact asCharacters _ _ _
  | precommits round setId =>
      rw [numerals, String.ofList_append]
      exact (congrArg _ String.append_assoc).trans (asCharacters _ _ _)
  | currentSetId => exact String.append_empty.symm
  | latestRound => exact String.append_empty.symm
  | headNumber => exact String.append_empty.symm
  | headHash => exact String.append_empty.symm
  | headStateRoot => exact String.append_empty.symm
  | runtimeCode => exact String.append_empty.symm
  | isSynced => exact String.append_empty.symm

theorem toList_entryName (record : Record) :
    record.entryName.toList = record.kind.label.toList ++ record.numerals := by
  rw [entryName_eq, String.toList_append, String.toList_ofList]

def Kind.all : List Kind :=
  [.authorities, .currentSetId, .latestRound, .precommits, .headNumber, .headHash, .headStateRoot,
    .runtimeCode, .isSynced]

theorem Kind.mem_all (kind : Kind) : kind ∈ all := by
  cases kind <;> decide

/-- Labels of different kinds differ before either of them ends. -/
theorem Kind.eq_of_label_prefix
    {left right : Kind} (inFront : left.label.toList <+: right.label.toList) : left = right := by
  have prefixFree :
      ∀ left ∈ all, ∀ right ∈ all, left.label.toList <+: right.label.toList → left = right := by
    decide +kernel
  exact prefixFree left left.mem_all right right.mem_all inFront

theorem kind_eq_of_entryName_eq
    {left right : Record} (sameName : left.entryName = right.entryName) :
    left.kind = right.kind := by
  have leftInFront := List.prefix_append left.kind.label.toList left.numerals
  have rightInFront := List.prefix_append right.kind.label.toList right.numerals
  rw [← toList_entryName] at leftInFront rightInFront
  rw [sameName] at leftInFront
  rcases List.prefix_or_prefix_of_prefix leftInFront rightInFront with inFront | inFront
  · exact Kind.eq_of_label_prefix inFront
  · exact (Kind.eq_of_label_prefix inFront).symm

theorem numerals_eq_of_entryName_eq
    {left right : Record} (sameName : left.entryName = right.entryName) :
    left.numerals = right.numerals := by
  have sameKind := kind_eq_of_entryName_eq sameName
  have sameCharacters := congrArg String.toList sameName
  rw [toList_entryName, toList_entryName, sameKind] at sameCharacters
  exact List.append_cancel_left sameCharacters

/-- Precommits whose numbers have the same digits when they are written one behind the other. -/
inductive SharesDigits : Record → Record → Prop
  | intro {round otherRound : RoundNumber} {setId otherSetId : SetId}
      (sameDigits :
        Decimal.digits round.toNat ++ Decimal.digits setId.toNat =
          Decimal.digits otherRound.toNat ++ Decimal.digits otherSetId.toNat) :
      SharesDigits (.precommits round setId) (.precommits otherRound otherSetId)

/-- Which records share a name. -/
theorem entryName_eq_iff {left right : Record} :
    left.entryName = right.entryName ↔ left = right ∨ SharesDigits left right := by
  constructor
  · intro sameName
    have sameKind := kind_eq_of_entryName_eq sameName
    have sameNumerals := numerals_eq_of_entryName_eq sameName
    cases left <;> cases right <;> cases sameKind
    case mp.authorities.authorities.refl setId otherSetId =>
      have sameNumber := Decimal.digits_injective sameNumerals
      exact Or.inl (congrArg authorities (UInt64.toNat_inj.mp sameNumber))
    case mp.precommits.precommits.refl => exact Or.inr (.intro sameNumerals)
    all_goals exact Or.inl rfl
  · intro equivalent
    rcases equivalent with same | shared
    · rw [same]
    · cases shared with
      | intro sameDigits =>
          rw [entryName_eq, entryName_eq]
          exact congrArg _ (congrArg String.ofList sameDigits)

/-- A record that holds no precommits has a name of its own. -/
theorem entryName_ne
    {left right : Record} (different : left ≠ right) (noPrecommits : right.kind ≠ .precommits) :
    left.entryName ≠ right.entryName := by
  intro sameName
  rcases entryName_eq_iff.mp sameName with same | shared
  · exact different same
  · cases shared
    exact noPrecommits rfl

end FinalitySync.Record
