import FinalitySync.Chain.Authority

/-!
Announced changes of the authority set. Changes are ordered by precedence: every forced change
comes before every scheduled one, and among changes of one kind the earlier announcement comes
first. The order is total and tells different changes apart.
-/

namespace FinalitySync.Grandpa

inductive ChangeKind
  | forced
  | scheduled
deriving DecidableEq, Repr, Inhabited

namespace ChangeKind

def name : ChangeKind → String
  | .forced => "Forced"
  | .scheduled => "Scheduled"

/-- Forced changes come first. -/
def rank : ChangeKind → Nat
  | .forced => 0
  | .scheduled => 1

theorem rank_injective {left right : ChangeKind} (equality : left.rank = right.rank) :
    left = right := by
  cases left <;> cases right <;> simp_all [rank]

end ChangeKind

structure Change where
  kind : ChangeKind
  authorities : List Authority
  delay : BlockNumber
  /-- The first block whose finality lets the change come into force. -/
  applicationBlock : BlockNumber
  /-- The place of the announcement among all announcements. Places up to `2 ^ 64` fit into 64 bits
  and are ordered there as they are here. -/
  sequence : Nat
deriving DecidableEq, Inhabited

namespace Change

/-- A change that is due so many blocks after its announcement. -/
def scheduled (authorities : List Authority) (delay announced : BlockNumber) (sequence : Nat) :
    Change where
  kind := .scheduled
  authorities := authorities
  delay := delay
  applicationBlock := announced.after delay
  sequence := sequence

/-- A change whose delay is longer by an offset. -/
def forced (authorities : List Authority) (delay offset announced : BlockNumber)
    (sequence : Nat) : Change where
  kind := .forced
  authorities := authorities
  delay := delay.after offset
  applicationBlock := announced.after (delay.after offset)
  sequence := sequence

def isForced (change : Change) : Bool := change.kind == .forced

def isDue (change : Change) (block : BlockNumber) : Bool := change.applicationBlock ≤ block

/-- Forced before scheduled, then in the order of announcement. -/
def precedence : Change → Change → Ordering :=
  compareLex (compareOn fun change => change.kind.rank) (compareOn Change.sequence)

/-- The members of the new set as they are compared when nothing else tells changes apart. -/
def members (change : Change) : List (Bytes × UInt64) :=
  change.authorities.map fun authority => (authority.id.toList, authority.weight)

local instance : Ord (Bytes × UInt64) := lexOrd

/-- By precedence; the other fields only break its ties. -/
def order : Change → Change → Ordering :=
  compareLex precedence <|
    compareLex (compareOn Change.applicationBlock) <|
      compareLex (compareOn Change.delay) (compareOn members)

instance : Std.TransCmp precedence :=
  inferInstanceAs (Std.TransCmp (compareLex _ _))

instance : Std.TransCmp order :=
  inferInstanceAs (Std.TransCmp (compareLex _ _))

/-- Changes with the same members have the same authorities. -/
theorem authorities_eq_of_members_eq {left right : Change}
    (equality : left.members = right.members) : left.authorities = right.authorities := by
  refine (List.map_inj_right ?_).mp equality
  rintro ⟨leftId, leftWeight⟩ ⟨rightId, rightWeight⟩ pairEquality
  simp only [Prod.mk.injEq] at pairEquality
  obtain ⟨idEquality, rfl⟩ := pairEquality
  exact congrArg (Authority.mk · _) (PublicKey.ext idEquality)

/-- Only a change itself compares equal to it. -/
instance : Std.LawfulEqCmp order where
  eq_of_compare {left right} equality := by
    simp only [order, precedence, compareLex_eq_eq, compareOn, Std.compare_eq_iff_eq] at equality
    obtain ⟨⟨kinds, sequences⟩, applicationBlocks, delays, memberships⟩ := equality
    have sameAuthorities := authorities_eq_of_members_eq memberships
    have sameKind := ChangeKind.rank_injective kinds
    cases left
    cases right
    simp_all

end Change

end FinalitySync.Grandpa
