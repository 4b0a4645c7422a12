import FinalitySync.Proofs.Document.Faithful

/-!
# Faithful forms of lists and records

A list of values of a faithful form is read back, and so is a record whose fields are.  The order
of the fields does not matter to a reader, so what it finds under each name is settled first.
-/

namespace FinalitySync

namespace Document

/-- A member whose name no other member has is found. -/
theorem member?_of_mem
    {members : List (String × Document)} (distinct : (members.map Prod.fst).Nodup)
    {name : String} {value : Document} (member : (name, value) ∈ members) :
    member? (members.map fun field => (some field.1, field.2)) name = some (some value) := by
  have onlyOne :
      (members.map fun field => (some field.1, field.2)).filter
          (fun field => field.1 == some name) = [(some name, value)] := by
    induction members with
    | nil => cases member
    | cons first members inductionHypothesis =>
        obtain ⟨absent, distinctLater⟩ := List.nodup_cons.mp distinct
        rcases List.mem_cons.mp member with rfl | later
        · have noneLater :
              (members.map fun field => (some field.1, field.2)).filter
                  (fun field => field.1 == some name) = [] := by
            rw [List.filter_eq_nil_iff]
            intro field inLater sameName
            obtain ⟨original, inMembers, rfl⟩ := List.mem_map.mp inLater
            apply absent
            exact List.mem_map.mpr ⟨original, inMembers, by simpa using sameName⟩
          simp [noneLater]
        · have otherName : first.1 ≠ name := by
            intro sameName
            apply absent
            exact List.mem_map.mpr ⟨(name, value), later, sameName.symm⟩
          simpa [otherName] using inductionHypothesis distinctLater later
  rw [member?, onlyOne]

/-- A record has the fields that it is made of. -/
theorem fieldsOrMissing?_record
    {names : List String} {values : List Document}
    (distinct : names.Nodup) (sameLength : values.length = names.length) :
    (record (names.zip values)).fieldsOrMissing? names = some (values.map some) := by
  have theNames : (names.zip values).map Prod.fst = names :=
    List.map_fst_zip (Nat.le_of_eq sameLength.symm)
  have theValues : (names.zip values).map Prod.snd = values :=
    List.map_snd_zip (Nat.le_of_eq sameLength)
  have distinctZipped : ((names.zip values).map Prod.fst).Nodup := by
    rw [theNames]
    exact distinct
  have named :
      ((names.zip values).map fun field => (some field.1, field.2)).all
        (fun member => member.1.isSome) = true := by
    rw [List.all_eq_true]
    intro member inMembers
    obtain ⟨field, _, rfl⟩ := List.mem_map.mp inMembers
    rfl
  have found :
      names.mapM (member? ((names.zip values).map fun field => (some field.1, field.2))) =
        some (values.map some) := by
    have zipped :=
      mapM_eq_some_map fun field (member : field ∈ names.zip values) =>
        member?_of_mem distinctZipped member
    have mapped :=
      List.mapM_map (f := Prod.fst) (l := names.zip values)
        (g := member? ((names.zip values).map fun field => (some field.1, field.2)))
    rw [theNames] at mapped
    rw [mapped]
    refine zipped.trans ?_
    rw [← theValues, List.map_map, theValues]
    rfl
  rw [record, fieldsOrMissing?, if_pos named, found]

theorem fields?_record
    {names : List String} {values : List Document}
    (distinct : names.Nodup) (sameLength : values.length = names.length) :
    (record (names.zip values)).fields? names = some values := by
  have allThere : (values.map some).mapM id = some values := by
    rw [List.mapM_map]
    exact (mapM_eq_some_map fun value _ => rfl).trans (congrArg some (List.map_id values))
  rw [fields?, fieldsOrMissing?_record distinct sameLength, Option.bind_some]
  exact allThere

theorem IsPlain.record
    {members : List (String × Document)}
    (plain : ∀ member ∈ members, member.2.IsPlain) :
    (Document.record members).IsPlain := by
  apply IsPlain.object
  · intro member inMembers
    obtain ⟨field, _, rfl⟩ := List.mem_map.mp inMembers
    rfl
  · intro member inMembers
    obtain ⟨field, inFields, rfl⟩ := List.mem_map.mp inMembers
    exact plain field inFields

end Document

namespace Form

variable {α : Type}

@[simp]
theorem word8_isFaithful : word8.IsFaithful :=
  .ofBelow (fun value => value.toNat_lt) (fun _ => UInt8.ofNat_toNat)

@[simp]
theorem word64_isFaithful : word64.IsFaithful :=
  .ofBelow (fun value => value.toNat_lt) (fun _ => UInt64.ofNat_toNat)

@[simp]
theorem boolean_isFaithful : boolean.IsFaithful where
  read?_write _ := rfl
  isPlain_write value := .boolean value

@[simp]
theorem IsFaithful.list {form : Form α} (faithful : form.IsFaithful) : form.list.IsFaithful where
  read?_write values := by
    have readEach : ∀ value ∈ values, (form.read? ∘ form.write) value = some (id value) :=
      fun value _ => faithful.read?_write value
    simp only [Form.list, List.mapM_map]
    rw [mapM_eq_some_map readEach, List.map_id]
  isPlain_write values := by
    apply Document.IsPlain.array
    intro element member
    obtain ⟨value, _, rfl⟩ := List.mem_map.mp member
    exact faithful.isPlain_write value

theorem IsFaithful.fields
    {names : List String} {toValues : α → List Document} {ofValues? : List Document → Option α}
    (distinct : names.Nodup)
    (complete : ∀ value, (toValues value).length = names.length)
    (restored : ∀ value, ofValues? (toValues value) = some value)
    (plain : ∀ value, ∀ field ∈ toValues value, field.IsPlain) :
    (Form.fields names toValues ofValues?).IsFaithful where
  read?_write value := by
    simp only [Form.fields, Document.fields?_record distinct (complete value), Option.bind_some,
      restored value]
  isPlain_write value := by
    apply Document.IsPlain.record
    intro member inMembers
    exact plain value member.2 (List.of_mem_zip inMembers).2

end Form

end FinalitySync
