import FinalitySync.Proofs.Store.Records

/-!
# Writes to the store

A record holds what the last write under its name left there.  Only precommits share names, so what
is written to a record of another kind, or to the authorities of another set, makes no difference
to it.
-/

namespace FinalitySync

namespace Record

/-- Records with one name hold values of one type. -/
theorem value_eq_of_entryName_eq
    {left right : Record} (sameName : left.entryName = right.entryName) :
    left.Value = right.Value := by
  rcases entryName_eq_iff.mp sameName with same | shared
  · rw [same]
  · cases shared
    rfl

/-- A record of another kind, or the authorities of another set. -/
def isApartFrom (record other : Record) : Bool :=
  record.kind != other.kind || record.kind == .authorities && record != other

theorem entryName_ne_of_isApartFrom
    {record other : Record} (apart : record.isApartFrom other = true) :
    record.entryName ≠ other.entryName := by
  intro sameName
  have sameKind := kind_eq_of_entryName_eq sameName
  simp only [isApartFrom, sameKind, bne_self_eq_false, Bool.false_or, Bool.and_eq_true,
    beq_iff_eq, bne_iff_ne] at apart
  obtain ⟨ofAuthorities, different⟩ := apart
  have noPrecommits : other.kind ≠ .precommits := by
    rw [ofAuthorities]
    decide
  exact entryName_ne different noPrecommits sameName

end Record

inductive Write
  | put (record : Record) (value : record.Value)
  | delete (record : Record)

namespace Write

def record : Write → Record
  | .put record _ => record
  | .delete record => record

def perform (store : Store) : Write → Store
  | .put record value => store.put record value
  | .delete record => store.delete record

/-- Whether a write is under the name of a record. -/
def isUnder (record : Record) (write : Write) : Bool :=
  write.record.entryName == record.entryName

/-- What a write under the name of a record leaves there. -/
def value? (record : Record) : Write → Option record.Value
  | .put written value =>
      if sameName : written.entryName = record.entryName then
        some (cast (Record.value_eq_of_entryName_eq sameName) value)
      else none
  | .delete _ => none

end Write

namespace Store

theorem get?_put_of_entryName_eq
    {written record : Record} (sameName : written.entryName = record.entryName)
    (store : Store) (value : written.Value) :
    (store.put written value).get? record =
      some (cast (Record.value_eq_of_entryName_eq sameName) value) := by
  rcases Record.entryName_eq_iff.mp sameName with same | shared
  · cases same
    exact get?_put_self store written value
  · cases shared with
    | @intro round otherRound setId otherSetId =>
        rw [get?_put_precommits, if_pos sameName.symm]
        rfl

theorem get?_delete (store : Store) (deleted record : Record) :
    (store.delete deleted).get? record =
      if deleted.entryName = record.entryName then none else store.get? record := by
  rw [get?, delete, text?_erase]
  by_cases sameName : deleted.entryName = record.entryName
  · rw [if_pos sameName.symm, if_pos sameName, Option.bind_none]
  · rw [if_neg (Ne.symm sameName), if_neg sameName, get?]

/-- A write decides what is read under its name, and nothing else. -/
theorem get?_perform (store : Store) (write : Write) (record : Record) :
    (write.perform store).get? record =
      if write.isUnder record then write.value? record else store.get? record := by
  cases write with
  | put written value =>
      by_cases sameName : written.entryName = record.entryName
      · simp [Write.perform, Write.isUnder, Write.record, Write.value?, sameName,
          get?_put_of_entryName_eq sameName]
      · simp [Write.perform, Write.isUnder, Write.record, sameName,
          get?_put_of_ne (Ne.symm sameName)]
  | delete deleted =>
      simp [Write.perform, Write.isUnder, Write.record, Write.value?, get?_delete]

def writeAll (store : Store) (writes : List Write) : Store :=
  writes.foldl Write.perform store

end Store

/-- The last of some writes under the name of a record. -/
def Write.lastUnder? (record : Record) (writes : List Write) : Option Write :=
  (writes.filter (Write.isUnder record)).getLast?

theorem Write.lastUnder?_concat (record : Record) (writes : List Write) (last : Write) :
    lastUnder? record (writes ++ [last]) =
      if last.isUnder record then some last else lastUnder? record writes := by
  rw [lastUnder?, List.filter_append]
  by_cases under : last.isUnder record = true
  · simp [under]
  · simp [under, lastUnder?]

/-- Writes under other names can be left out. -/
theorem Write.lastUnder?_filter
    {record : Record} {kept : Write → Bool}
    (keeps : ∀ write : Write, write.isUnder record = true → kept write = true)
    (writes : List Write) :
    lastUnder? record (writes.filter kept) = lastUnder? record writes := by
  rw [lastUnder?, List.filter_filter, lastUnder?]
  congr 1
  refine List.filter_congr fun write _ => ?_
  by_cases under : write.isUnder record = true
  · rw [under, keeps write under, Bool.and_self]
  · simp [under]

namespace Store

/-- The last write under its name decides about a record; without one it is as it was. -/
theorem get?_writeAll (store : Store) (writes : List Write) (record : Record) :
    (store.writeAll writes).get? record =
      match Write.lastUnder? record writes with
      | some last => last.value? record
      | none => store.get? record := by
  induction writes using List.reverseRecOn with
  | nil => rfl
  | append_singleton writes last inductionHypothesis =>
      have performed :
          store.writeAll (writes ++ [last]) = last.perform (store.writeAll writes) := by
        simp [writeAll]
      rw [performed, get?_perform, Write.lastUnder?_concat, inductionHypothesis]
      by_cases under : last.isUnder record = true
      · rw [if_pos under, if_pos under]
      · rw [if_neg under, if_neg under]

/-- After any writes a record holds what the last write under its name left there.  Records share
a name only if they are precommits whose numbers have the same digits.  Writes to records of other
kinds, and to the authorities of other sets, can be left out. -/
theorem records_keepLastWrites :
    (∀ (writes : List Write) (record : Record),
      (empty.writeAll writes).get? record =
        (Write.lastUnder? record writes).bind fun last => last.value? record) ∧
      (∀ left right : Record,
        left.entryName = right.entryName ↔ left = right ∨ Record.SharesDigits left right) ∧
      (∀ (store : Store) (writes : List Write) (record : Record),
        (store.writeAll (writes.filter fun write => !write.record.isApartFrom record)).get? record =
          (store.writeAll writes).get? record) := by
  refine ⟨?_, fun _ _ => Record.entryName_eq_iff, ?_⟩
  · intro writes record
    rw [get?_writeAll]
    cases Write.lastUnder? record writes with
    | none => exact get?_empty record
    | some last => rfl
  · intro store writes record
    have keeps :
        ∀ write : Write,
          write.isUnder record = true → (!write.record.isApartFrom record) = true := by
      intro write under
      rw [Bool.not_eq_true', ← Bool.not_eq_true]
      intro apart
      exact Record.entryName_ne_of_isApartFrom apart (eq_of_beq under)
    rw [get?_writeAll, get?_writeAll, Write.lastUnder?_filter keeps]

/-- The numbers of precommits are written without anything between them. -/
example : (Record.precommits 1 23).entryName = (Record.precommits 12 3).entryName := by
  decide

end Store

end FinalitySync
