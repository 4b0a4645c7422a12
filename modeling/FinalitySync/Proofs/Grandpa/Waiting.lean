import FinalitySync.Proofs.Grandpa.Course
import FinalitySync.Proofs.Grandpa.Order
import FinalitySync.Proofs.Grandpa.Persistence
import FinalitySync.Proofs.Grandpa.Timing
import Mathlib.Data.List.Nodup
import Mathlib.Data.List.Perm.Basic

/-!
# Announced changes that wait

No announcement is lost or merged with another one, also if the same change is announced again.
The agenda has the announced changes that neither came into force nor gave way: first the forced
ones and then the scheduled ones, each in the order of their announcements, whenever they are due.
-/

namespace FinalitySync.Grandpa
namespace Change

variable {change other : Change}

theorem isForced_eq_true_iff : change.isForced = true ↔ change.kind = .forced := beq_iff_eq

theorem isForced_eq_false_iff : change.isForced = false ↔ change.kind = .scheduled := by
  rw [isForced]
  cases change.kind <;> decide

/-- A scheduled change comes after any forced one. -/
theorem order_eq_gt_of_isForced
    (isScheduled : change.isForced = false) (isForced : other.isForced = true) :
    change.order other = .gt := by
  apply Std.OrientedCmp.gt_iff_lt.mpr
  exact
    order_eq_lt_of_kind (isForced_eq_true_iff.mp isForced) (isForced_eq_false_iff.mp isScheduled)

theorem order_eq_gt_of_sequence_lt
    (sameKind : change.kind = other.kind) (later : other.sequence < change.sequence) :
    change.order other = .gt := by
  apply Std.OrientedCmp.gt_iff_lt.mpr
  exact order_eq_lt_iff.mpr (Or.inr ⟨sameKind.symm, Or.inl later⟩)

end Change

namespace Agenda

theorem insertSorted_append
    {change : Change} {before after : List Change}
    (isLater : ∀ other ∈ before, change.order other = .gt)
    (isEarlier : ∀ other ∈ after, change.order other = .lt) :
    insertSorted change (before ++ after) = before ++ change :: after := by
  induction before with
  | nil =>
      cases after with
      | nil => rfl
      | cons first rest =>
          rw [List.nil_append, List.nil_append, insertSorted, isEarlier first List.mem_cons_self]
  | cons first before inductionHypothesis =>
      rw [List.forall_mem_cons] at isLater
      rw [List.cons_append, List.cons_append, insertSorted, isLater.1]
      exact congrArg (first :: ·) (inductionHypothesis isLater.2)

theorem toList_insert (agenda : Agenda) (change : Change) :
    (agenda.insert change).toList = insertSorted change agenda.toList := rfl

end Agenda

/-- The forced ones of some changes and then the scheduled ones, otherwise in the same order. -/
def forcedFirst (changes : List Change) : List Change :=
  changes.filter Change.isForced ++ changes.filter fun change => !change.isForced

theorem forcedFirst_perm (changes : List Change) : (forcedFirst changes).Perm changes :=
  List.filter_append_perm Change.isForced changes

theorem filter_forcedFirst (keeps : Change → Bool) (changes : List Change) :
    (forcedFirst changes).filter keeps = forcedFirst (changes.filter keeps) := by
  rw [forcedFirst, forcedFirst, List.filter_append, List.filter_filter, List.filter_filter,
    List.filter_filter, List.filter_filter]
  simp only [Bool.and_comm]

/-- A change that is announced after all others goes behind those that precede it. -/
theorem exists_split_forcedFirst_concat
    {changes : List Change} {change : Change}
    (isLast : ∀ other ∈ changes, other.sequence < change.sequence) :
    ∃ before after,
      forcedFirst changes = before ++ after ∧
        forcedFirst (changes ++ [change]) = before ++ change :: after ∧
        (∀ other ∈ before, change.order other = .gt) ∧
        ∀ other ∈ after, change.order other = .lt := by
  cases isForced : change.isForced with
  | true =>
      refine
        ⟨changes.filter Change.isForced, changes.filter fun change => !change.isForced, rfl, ?_, ?_,
          ?_⟩
      · simp [forcedFirst, isForced]
      · intro other member
        obtain ⟨inChanges, otherForced⟩ := List.mem_filter.mp member
        have sameKind : change.kind = other.kind :=
          (Change.isForced_eq_true_iff.mp isForced).trans
            (Change.isForced_eq_true_iff.mp otherForced).symm
        exact Change.order_eq_gt_of_sequence_lt sameKind (isLast other inChanges)
      · intro other member
        have isScheduled : other.isForced = false :=
          Bool.not_eq_true' _ |>.mp (List.mem_filter.mp member).2
        exact Std.OrientedCmp.gt_iff_lt.mp (Change.order_eq_gt_of_isForced isScheduled isForced)
  | false =>
      refine ⟨forcedFirst changes, [], (List.append_nil _).symm, ?_, ?_, by simp⟩
      · simp [forcedFirst, isForced]
      · intro other member
        have inChanges := (forcedFirst_perm changes).mem_iff.mp member
        cases otherForced : other.isForced with
        | true => exact Change.order_eq_gt_of_isForced isForced otherForced
        | false =>
            have sameKind : change.kind = other.kind :=
              (Change.isForced_eq_false_iff.mp isForced).trans
                (Change.isForced_eq_false_iff.mp otherForced).symm
            exact Change.order_eq_gt_of_sequence_lt sameKind (isLast other inChanges)

theorem Message.sequence_of_change?
    {message : Message} {block : BlockNumber} {sequence : Nat} {change : Change}
    (announces : message.change? block sequence = some change) : change.sequence = sequence := by
  cases message <;> cases announces <;> rfl

namespace Roster

variable {roster : Roster} {block : BlockNumber} {message : Message} {change : Change}

theorem receive_of_change?_eq_some
    (announces : message.change? block roster.announcements = some change) :
    (roster.receive block message).agenda = roster.agenda.insert change ∧
      (roster.receive block message).announcements = roster.announcements + 1 := by
  cases message <;> cases announces <;> exact ⟨rfl, rfl⟩

theorem receive_of_change?_eq_none
    (announces : message.change? block roster.announcements = none) :
    (roster.receive block message).agenda = roster.agenda ∧
      (roster.receive block message).announcements = roster.announcements := by
  cases message <;> cases announces <;> exact ⟨rfl, rfl⟩

end Roster

/-! ## What became of announcements -/

/-- A roster in which nothing was announced yet: that of a set without a past, or of a store. -/
inductive Roster.Begins : Roster → Prop
  | ofSet (authoritySet : AuthoritySet) (retention : Nat) :
      Roster.Begins (.ofSet authoritySet retention)
  | load {store : Store} {retention : Nat} {roster : Roster}
      (loaded : Roster.load? store retention = some roster) : Roster.Begins roster

theorem Roster.Begins.nothing_announced {roster : Roster} (begins : roster.Begins) :
    roster.agenda = .empty ∧ roster.announcements = 0 := by
  cases begins with
  | ofSet authoritySet retention => exact ⟨rfl, rfl⟩
  | load loaded =>
      obtain ⟨authoritySet, round, superseded, rfl⟩ := exists_eq_of_load? loaded
      exact ⟨rfl, rfl⟩

namespace Course

/-- The changes that came into force or gave way. -/
def settled (course : Course) : List Change := course.enacted ++ course.discarded

/-- What holds in any course that begins before the first announcement. -/
structure IsAccounted (course : Course) : Prop where
  announcements : course.roster.announcements = course.announced.length
  sequences : course.announced.map Change.sequence = List.range course.announced.length
  settled_subset : course.settled ⊆ course.announced
  nodup_settled : course.settled.Nodup
  agenda : course.roster.agenda.toList = forcedFirst course.waiting

variable {course next last : Course} {change other : Change}

theorem mem_waiting_iff :
    change ∈ course.waiting ↔ change ∈ course.announced ∧ change ∉ course.settled := by
  rw [waiting, List.mem_filter, decide_eq_true_iff, settled]

theorem isAccounted_ofRoster {roster : Roster} (begins : roster.Begins) :
    (ofRoster roster).IsAccounted := by
  obtain ⟨emptyAgenda, noAnnouncements⟩ := begins.nothing_announced
  refine ⟨noAnnouncements, rfl, List.nil_subset [], List.nodup_nil, ?_⟩
  rw [ofRoster, emptyAgenda]
  rfl

section Accounted

variable (accounted : course.IsAccounted)

include accounted

theorem IsAccounted.sequence_lt (announced : change ∈ course.announced) :
    change.sequence < course.announced.length := by
  have inRange := List.mem_map_of_mem (f := Change.sequence) announced
  rwa [accounted.sequences, List.mem_range] at inRange

theorem IsAccounted.nodup_announced_sequences :
    (course.announced.map Change.sequence).Nodup := by
  rw [accounted.sequences]
  exact List.nodup_range

theorem IsAccounted.nodup_announced : course.announced.Nodup :=
  accounted.nodup_announced_sequences.of_map Change.sequence

theorem IsAccounted.mem_agenda_iff :
    change ∈ course.roster.agenda.toList ↔ change ∈ course.waiting := by
  rw [accounted.agenda, (forcedFirst_perm course.waiting).mem_iff]

section Receive

variable {block : BlockNumber} {message : Message}

theorem IsAccounted.receive_silent
    (announces : message.change? block course.roster.announcements = none) :
    (course.receive block message).IsAccounted := by
  obtain ⟨sameAgenda, sameCount⟩ := Roster.receive_of_change?_eq_none announces
  have same :
      course.receive block message =
        { course with roster := course.roster.receive block message } := by
    rw [receive, announces, Option.toList_none, List.append_nil]
  rw [same]
  exact
    ⟨sameCount.trans accounted.announcements, accounted.sequences, accounted.settled_subset,
      accounted.nodup_settled, by rw [sameAgenda]; exact accounted.agenda⟩

theorem IsAccounted.waiting_receive
    (announces : message.change? block course.roster.announcements = some change) :
    (course.receive block message).waiting = course.waiting ++ [change] := by
  have isNew : change ∉ course.settled := by
    intro isSettled
    have earlier := accounted.sequence_lt (accounted.settled_subset isSettled)
    rw [Message.sequence_of_change? announces, accounted.announcements] at earlier
    exact absurd earlier (Nat.lt_irrefl _)
  rw [waiting, receive, announces, Option.toList_some, List.filter_append]
  congr 1
  rw [List.filter_cons_of_pos (by simpa [settled] using isNew), List.filter_nil]

/-- A message that announces a change puts it behind those that precede it on the agenda. -/
theorem IsAccounted.exists_split_agenda_receive
    (announces : message.change? block course.roster.announcements = some change) :
    ∃ before after,
      course.roster.agenda.toList = before ++ after ∧
        (course.roster.receive block message).agenda.toList = before ++ change :: after ∧
        forcedFirst (course.waiting ++ [change]) = before ++ change :: after := by
  have isLast : ∀ other ∈ course.waiting, other.sequence < change.sequence := by
    intro other member
    rw [Message.sequence_of_change? announces, accounted.announcements]
    exact accounted.sequence_lt (mem_waiting_iff.mp member).1
  obtain ⟨before, after, split, splitLater, isLater, isEarlier⟩ :=
    exists_split_forcedFirst_concat isLast
  rw [← accounted.agenda] at split
  refine ⟨before, after, split, ?_, splitLater⟩
  rw [(Roster.receive_of_change?_eq_some announces).1, Agenda.toList_insert, split,
    Agenda.insertSorted_append isLater isEarlier]

theorem IsAccounted.receive (block : BlockNumber) (message : Message) :
    (course.receive block message).IsAccounted := by
  cases announces : message.change? block course.roster.announcements with
  | none => exact accounted.receive_silent announces
  | some change =>
      have isNext := Message.sequence_of_change? announces
      have withChange :
          (course.receive block message).announced = course.announced ++ [change] := by
        rw [Course.receive, announces, Option.toList_some]
      obtain ⟨_, _, _, received, expected⟩ := accounted.exists_split_agenda_receive announces
      refine ⟨?_, ?_, ?_, accounted.nodup_settled, ?_⟩
      · rw [withChange, List.length_append, List.length_singleton, ← accounted.announcements]
        exact (Roster.receive_of_change?_eq_some announces).2
      · rw [withChange, List.map_append, accounted.sequences, List.length_append,
          List.length_singleton, List.range_succ, List.map_singleton, isNext,
          accounted.announcements]
      · rw [withChange]
        exact List.subset_append_of_subset_left [change] accounted.settled_subset
      · rw [accounted.waiting_receive announces, expected]
        exact received

end Receive

end Accounted

theorem mem_givingWay_iff :
    other ∈ course.givingWay change ↔
      other ∈ course.waiting ∧ other ≠ change ∧
        other.applicationBlock ≤ change.applicationBlock := by
  rw [givingWay, List.mem_filter, decide_eq_true_iff]

/-- The change itself is settled and what gives way to it. -/
theorem mem_settled_enactTo_iff {roster : Roster} :
    other ∈ (course.enactTo change roster).settled ↔
      other ∈ course.settled ∨ other = change ∨ other ∈ course.givingWay change := by
  simp only [settled, enactTo, List.mem_append, List.mem_singleton]
  tauto

/-- Of the changes that wait, those stay that are due later than the one that comes into force. -/
theorem waiting_enactTo (course : Course) (change : Change) (roster : Roster) :
    (course.enactTo change roster).waiting =
      course.waiting.filter fun other => change.applicationBlock < other.applicationBlock := by
  rw [waiting, waiting, List.filter_filter]
  apply List.filter_congr
  intro other isAnnounced
  have announced : other ∈ course.announced := isAnnounced
  rw [← Bool.decide_and, decide_eq_decide, ← settled, ← settled, mem_settled_enactTo_iff,
    mem_givingWay_iff, mem_waiting_iff, ← UInt32.not_le]
  by_cases same : other = change
  · simp [same]
  · tauto

namespace IsAccounted

variable (accounted : course.IsAccounted) (waits : change ∈ course.waiting)

include accounted waits

theorem settled_subset_enactTo (roster : Roster) :
    (course.enactTo change roster).settled ⊆ course.announced := by
  intro other isSettled
  rcases mem_settled_enactTo_iff.mp isSettled with earlier | rfl | givesWay
  · exact accounted.settled_subset earlier
  · exact (mem_waiting_iff.mp waits).1
  · exact (mem_waiting_iff.mp (mem_givingWay_iff.mp givesWay).1).1

theorem nodup_settled_enactTo (roster : Roster) :
    (course.enactTo change roster).settled.Nodup := by
  have regrouped :
      (course.enactTo change roster).settled.Perm
        (course.settled ++ change :: course.givingWay change) := by
    simp only [settled, enactTo, List.append_assoc, List.singleton_append]
    apply List.Perm.append_left
    exact List.perm_middle.symm
  rw [regrouped.nodup_iff, List.nodup_append]
  have nodupWaiting : course.waiting.Nodup := accounted.nodup_announced.filter _
  refine ⟨accounted.nodup_settled, ?_, ?_⟩
  · have notItself : change ∉ course.givingWay change := fun member =>
      (mem_givingWay_iff.mp member).2.1 rfl
    exact List.nodup_cons.mpr ⟨notItself, nodupWaiting.filter _⟩
  · rintro other isSettled _ member rfl
    rcases List.mem_cons.mp member with rfl | givesWay
    · exact (mem_waiting_iff.mp waits).2 isSettled
    · exact (mem_waiting_iff.mp (mem_givingWay_iff.mp givesWay).1).2 isSettled

theorem enactTo :
    (course.enactTo change (course.roster.enact change)).IsAccounted := by
  refine
    ⟨accounted.announcements, accounted.sequences, accounted.settled_subset_enactTo waits _,
      accounted.nodup_settled_enactTo waits _, ?_⟩
  have stays :
      (course.roster.enact change).agenda.toList =
        course.roster.agenda.toList.filter fun other =>
          change.applicationBlock < other.applicationBlock := rfl
  rw [waiting_enactTo, ← filter_forcedFirst, ← accounted.agenda]
  exact stays

end IsAccounted

/-- The step: one more move. -/
theorem IsAccounted.follow
    {move : Move} (accounted : course.IsAccounted) (follows : course.Follows move next) :
    next.IsAccounted := by
  cases follows with
  | receives block message => exact accounted.receive block message
  | notes round =>
      exact
        ⟨accounted.announcements, accounted.sequences, accounted.settled_subset,
          accounted.nodup_settled, accounted.agenda⟩
  | rests block noneDue => exact accounted
  | enacts block change found fits =>
      have isWaiting := accounted.mem_agenda_iff.mp (Agenda.mem_of_firstDue? found)
      exact accounted.enactTo isWaiting

/-- The run: any moves. -/
theorem isAccounted_of_followAll
    {roster : Roster} {moves : List Move} (begins : roster.Begins)
    (followed : (ofRoster roster).followAll moves = .ok last) : last.IsAccounted :=
  followAll_induction (fun _ _ _ accounted follows => accounted.follow follows)
    (isAccounted_ofRoster begins) followed

/-- A move announces one change at most. -/
theorem Follows.length_announced_le {move : Move} (follows : course.Follows move next) :
    next.announced.length ≤ course.announced.length + 1 := by
  cases follows with
  | receives block message =>
      cases announces : message.change? block course.roster.announcements <;>
        simp [receive, announces]
  | notes round => exact Nat.le_succ _
  | rests block noneDue => exact Nat.le_succ _
  | enacts block change found fits => exact Nat.le_succ _

theorem length_announced_le
    {roster : Roster} {moves : List Move}
    (followed : (ofRoster roster).followAll moves = .ok last) :
    last.announced.length ≤ moves.length := by
  induction moves using List.reverseRecOn generalizing last with
  | nil =>
      cases followed
      exact Nat.le_refl _
  | append_singleton moves move inductionHypothesis =>
      obtain ⟨course, reached, follows⟩ := exists_followAll_of_concat followed
      have earlier := inductionHypothesis reached
      have oneMore := follows.length_announced_le
      rw [List.length_append, List.length_singleton]
      omega

/-- The numbers of announcements fit into 64 bits, and the count of them does, unless there are at
least `2 ^ 64` moves. -/
theorem announcements_fit
    {roster : Roster} {moves : List Move} (begins : roster.Begins)
    (followed : (ofRoster roster).followAll moves = .ok last) (fits : moves.length < 2 ^ 64) :
    (UInt64.ofNat last.roster.announcements).toNat = last.roster.announcements ∧
      ∀ change ∈ last.announced, (UInt64.ofNat change.sequence).toNat = change.sequence := by
  have accounted := isAccounted_of_followAll begins followed
  have few := Nat.lt_of_le_of_lt (length_announced_le followed) fits
  constructor
  · rw [accounted.announcements]
    exact UInt64.toNat_ofNat_of_lt' few
  · intro change announced
    exact UInt64.toNat_ofNat_of_lt' (Nat.lt_trans (accounted.sequence_lt announced) few)

structure KeepsAnnouncements (course : Course) : Prop where
  /-- Announcements are numbered one after the other. -/
  sequences : course.announced.map Change.sequence = List.range course.roster.announcements
  sequence_lt :
    ∀ change ∈ course.roster.agenda.toList, change.sequence < course.roster.announcements
  nodup_sequences : (course.roster.agenda.toList.map Change.sequence).Nodup
  /-- Each announced change came into force, gave way or is on the agenda, and it did so once. -/
  conserved :
    course.announced.Perm (course.enacted ++ course.discarded ++ course.roster.agenda.toList)
  /-- The agenda has what waits, forced changes first, each kind in the order of announcement. -/
  agenda :
    course.roster.agenda.toList =
      course.waiting.filter Change.isForced ++
        course.waiting.filter fun change => !change.isForced
  /-- A message that announces a change adds it to the agenda, also if one like it waits. -/
  adds :
    ∀ block message change,
      message.change? block course.roster.announcements = some change →
        ∃ before after,
          course.roster.agenda.toList = before ++ after ∧
            (course.roster.receive block message).agenda.toList = before ++ change :: after
  rests :
    ∀ block message,
      message.change? block course.roster.announcements = none →
        (course.roster.receive block message).agenda = course.roster.agenda

theorem IsAccounted.conserved (accounted : course.IsAccounted) :
    course.announced.Perm (course.settled ++ course.roster.agenda.toList) := by
  have nodupAnnounced := accounted.nodup_announced
  have agendaPerm : course.roster.agenda.toList.Perm course.waiting := by
    rw [accounted.agenda]
    exact forcedFirst_perm course.waiting
  refine List.Perm.trans ?_ (agendaPerm.symm.append_left course.settled)
  rw [List.perm_ext_iff_of_nodup nodupAnnounced]
  · intro other
    rw [List.mem_append, mem_waiting_iff]
    have announced := @accounted.settled_subset other
    tauto
  · rw [List.nodup_append]
    refine ⟨accounted.nodup_settled, nodupAnnounced.filter _, ?_⟩
    rintro other isSettled _ isWaiting rfl
    exact (mem_waiting_iff.mp isWaiting).2 isSettled

theorem IsAccounted.nodup_sequences (accounted : course.IsAccounted) :
    (course.roster.agenda.toList.map Change.sequence).Nodup := by
  have distinct := accounted.nodup_announced_sequences
  rw [(accounted.conserved.map Change.sequence).nodup_iff, List.map_append] at distinct
  exact distinct.of_append_right

theorem IsAccounted.keepsAnnouncements (accounted : course.IsAccounted) :
    course.KeepsAnnouncements := by
  refine
    ⟨?_, ?_, accounted.nodup_sequences, accounted.conserved, accounted.agenda, ?_, ?_⟩
  · rw [accounted.sequences, accounted.announcements]
  · intro change member
    rw [accounted.announcements]
    exact accounted.sequence_lt (mem_waiting_iff.mp (accounted.mem_agenda_iff.mp member)).1
  · intro block message change announces
    obtain ⟨before, after, split, received, _⟩ := accounted.exists_split_agenda_receive announces
    exact ⟨before, after, split, received⟩
  · intro block message announces
    exact (Roster.receive_of_change?_eq_none announces).1

/-- Whatever a roster is told from its beginning on, no announcement is lost, merged with another
one or put out of order, until the numbers of sets run out. -/
theorem keepsAnnouncements_or_runsOut
    {start : Roster} (begins : start.Begins) (moves : List Move) :
    (∃ course, (ofRoster start).followAll moves = .ok course ∧ course.KeepsAnnouncements) ∨
      (ofRoster start).followAll moves = .error .addition ∧ (ofRoster start).RunsOut moves := by
  rcases (ofRoster start).followAll_cases moves with ⟨course, followed⟩ | runsOut
  · exact Or.inl ⟨course, followed, (isAccounted_of_followAll begins followed).keepsAnnouncements⟩
  · exact Or.inr runsOut

/-- Two changes that only differ in their numbers wait behind a forced one, which is announced after
them and due after them.  Of two later changes, one came into force and one gave way. -/
theorem keepsAnnouncements_of_five_announcements :
    (Roster.ofSet ⟨0, []⟩ 1).Begins ∧
      ∃ course,
        (ofRoster (.ofSet ⟨0, []⟩ 1)).followAll
            [.receive 1 (.scheduledChange [] 5), .receive 1 (.scheduledChange [] 5),
              .receive 2 (.scheduledChange [] 1), .receive 1 (.forcedChange 1 [] 8),
              .receive 1 (.scheduledChange [] 1), .noteRound 7, .applyDue 3] = .ok course ∧
          course.KeepsAnnouncements ∧ course.roster.announcements = 5 ∧
          course.roster.agenda.toList.map Change.sequence = [3, 0, 1] ∧
          course.enacted.map Change.sequence = [2] ∧
          course.discarded.map Change.sequence = [4] := by
  have begins : (Roster.ofSet ⟨0, []⟩ 1).Begins := .ofSet ⟨0, []⟩ 1
  refine ⟨begins, ?_⟩
  rcases keepsAnnouncements_or_runsOut begins
      [.receive 1 (.scheduledChange [] 5), .receive 1 (.scheduledChange [] 5),
        .receive 2 (.scheduledChange [] 1), .receive 1 (.forcedChange 1 [] 8),
        .receive 1 (.scheduledChange [] 1), .noteRound 7, .applyDue 3] with
    ⟨course, followed, keeps⟩ | ⟨failed, _⟩
  · refine ⟨course, followed, keeps, ?_⟩
    cases followed
    decide
  · cases failed

end Course

end FinalitySync.Grandpa
