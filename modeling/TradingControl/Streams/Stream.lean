import Mathlib.Algebra.Group.Nat.Defs
import Mathlib.Data.List.Basic
import Mathlib.Data.List.Nodup
import Mathlib.Logic.Function.Basic
import Mathlib.Order.Nat

/-!
# Consumer groups

A consumer group holds the last id it has delivered and the entries that were delivered and not
acknowledged, in the order of their ids.
-/

namespace Streams

/-- An entry of a stream. -/
structure Entry (Data : Type) where
  id : ℕ
  data : Data
deriving DecidableEq

/-- An entry that was delivered to a consumer and is not acknowledged. -/
structure PendingEntry (Name : Type) where
  id : ℕ
  consumer : Name
  deliveredAt : ℕ
deriving DecidableEq

section Ascending

variable {α : Type} {key : α → ℕ}

theorem le_getLast {items : List α} (ascending : items.Pairwise fun first second =>
    key first < key second) {item last : α} (member : item ∈ items)
    (atEnd : items.getLast? = some last) : key item ≤ key last := by
  obtain ⟨before, rfl⟩ := List.getLast?_eq_some_iff.mp atEnd
  rcases List.mem_append.mp member with earlier | isLast
  · exact ((List.pairwise_append.mp ascending).2.2 item earlier last (by simp)).le
  · rw [List.mem_singleton.mp isLast]

end Ascending

/-! ## Ids -/

/-- Text of an id: milliseconds and a sequence number of sixty-four bits. -/
def idText (id : ℕ) : String :=
  String.ofList (Nat.toDigits 10 (id / 2 ^ 64) ++ '-' :: Nat.toDigits 10 (id % 2 ^ 64))

theorem toDigits_injective {first second : ℕ}
    (same : Nat.toDigits 10 first = Nat.toDigits 10 second) : first = second := by
  have digits := congrArg (Nat.ofDigitChars 10 · 0) same
  simpa [Nat.ofDigitChars_toDigits] using digits

theorem dash_notMem_toDigits (number : ℕ) : '-' ∉ Nat.toDigits 10 number := by
  intro member
  exact absurd (Nat.isDigit_of_mem_toDigits (by decide) (by decide) member) (by decide)

theorem idText_injective : Function.Injective idText := by
  intro first second same
  have chars := String.ofList_injective same
  rw [List.append_cons_inj_of_notMem (dash_notMem_toDigits _) (dash_notMem_toDigits _)] at chars
  have high := toDigits_injective chars.1
  have low := toDigits_injective chars.2.2
  rw [← Nat.div_add_mod first (2 ^ 64), high, low, Nat.div_add_mod]

/-! ## Groups -/

/-- A consumer group. -/
structure Group (Name : Type) where
  lastDelivered : ℕ
  pending : List (PendingEntry Name)
  ascending : pending.Pairwise fun first second => first.id < second.id
  bounded : ∀ entry ∈ pending, entry.id ≤ lastDelivered

namespace Group

variable {Data Name : Type}

def startAt (position : ℕ) : Group Name where
  lastDelivered := position
  pending := []
  ascending := List.Pairwise.nil
  bounded := by simp

/-- Entries that a group may deliver next. -/
structure Following (group : Group Name) (entries : List (Entry Data)) : Prop where
  ascending : entries.Pairwise fun first second => first.id < second.id
  after : ∀ entry ∈ entries, group.lastDelivered < entry.id

def positionAfter (group : Group Name) (entries : List (Entry Data)) : ℕ :=
  (entries.getLast?.map Entry.id).getD group.lastDelivered

theorem le_positionAfter (group : Group Name) {entries : List (Entry Data)}
    (following : group.Following entries) : group.lastDelivered ≤ group.positionAfter entries := by
  rw [positionAfter]
  cases atEnd : entries.getLast? with
  | none => exact le_rfl
  | some last => exact (following.after last (List.mem_of_getLast? atEnd)).le

theorem mem_le_positionAfter (group : Group Name) {entries : List (Entry Data)}
    (following : group.Following entries) {entry : Entry Data} (member : entry ∈ entries) :
    entry.id ≤ group.positionAfter entries := by
  rw [positionAfter]
  cases atEnd : entries.getLast? with
  | none => simp [List.getLast?_eq_none_iff.mp atEnd] at member
  | some last => exact le_getLast following.ascending member atEnd

def deliver (group : Group Name) (consumer : Name) (now : ℕ) (entries : List (Entry Data))
    (following : group.Following entries) : Group Name where
  lastDelivered := group.positionAfter entries
  pending := group.pending ++ entries.map fun entry => ⟨entry.id, consumer, now⟩
  ascending := by
    refine List.pairwise_append.mpr ⟨group.ascending, ?_, ?_⟩
    · exact List.pairwise_map.mpr following.ascending
    · rintro old isOld _ isNew
      obtain ⟨entry, member, rfl⟩ := List.mem_map.mp isNew
      exact (group.bounded old isOld).trans_lt (following.after entry member)
  bounded := by
    intro held member
    rcases List.mem_append.mp member with isOld | isNew
    · exact (group.bounded held isOld).trans (group.le_positionAfter following)
    · obtain ⟨entry, isEntry, rfl⟩ := List.mem_map.mp isNew
      exact group.mem_le_positionAfter following isEntry

/-- Forget a pending entry. -/
def acknowledge (group : Group Name) (id : ℕ) : Group Name where
  lastDelivered := group.lastDelivered
  pending := group.pending.filter fun entry => entry.id ≠ id
  ascending := group.ascending.sublist List.filter_sublist
  bounded := fun entry member => group.bounded entry (List.mem_of_mem_filter member)

def moveTo (group : Group Name) (position : ℕ) (later : group.lastDelivered ≤ position) :
    Group Name where
  lastDelivered := position
  pending := group.pending
  ascending := group.ascending
  bounded := fun entry member => (group.bounded entry member).trans later

/-! ### Claiming -/

section Claim

variable (present stale : PendingEntry Name → Bool) (consumer : Name) (now : ℕ)

/-- Look through pending entries from the first, at most `attempts` of them, until `count` of them
were claimed or found deleted: the claimed ones, and what stays pending. -/
def scan : ℕ → ℕ → List (PendingEntry Name) → List (PendingEntry Name) × List (PendingEntry Name)
  | attempts + 1, count + 1, entry :: rest =>
      if present entry then
        if stale entry then
          let (claimed, left) := scan attempts count rest
          (entry :: claimed, { entry with consumer := consumer, deliveredAt := now } :: left)
        else
          let (claimed, left) := scan attempts (count + 1) rest
          (claimed, entry :: left)
      else scan attempts count rest
  | _, _, pending => ([], pending)

/-- What is claimed is some of what was pending, and what is left keeps the ids in their order. -/
theorem scan_sublists (attempts count : ℕ) (pending : List (PendingEntry Name)) :
    (scan present stale consumer now attempts count pending).1.Sublist pending ∧
      ((scan present stale consumer now attempts count pending).2.map PendingEntry.id).Sublist
        (pending.map PendingEntry.id) := by
  induction pending generalizing attempts count with
  | nil => cases attempts <;> cases count <;> simp [scan]
  | cons entry rest induction =>
      cases attempts with
      | zero => simp [scan]
      | succ attempts =>
          cases count with
          | zero => simp [scan]
          | succ count =>
              by_cases isPresent : present entry
              · by_cases isStale : stale entry
                · simpa [scan, isPresent, isStale] using induction attempts count
                · obtain ⟨claimed, left⟩ := induction attempts (count + 1)
                  simpa [scan, isPresent, isStale, left] using claimed.cons entry
              · obtain ⟨claimed, left⟩ := induction attempts count
                simpa [scan, isPresent] using ⟨claimed.cons entry, left.cons entry.id⟩

theorem scan_sublist (attempts count : ℕ) (pending : List (PendingEntry Name)) :
    ((scan present stale consumer now attempts count pending).2.map PendingEntry.id).Sublist
      (pending.map PendingEntry.id) :=
  (scan_sublists present stale consumer now attempts count pending).2

theorem scan_claimed_sublist (attempts count : ℕ) (pending : List (PendingEntry Name)) :
    (scan present stale consumer now attempts count pending).1.Sublist pending :=
  (scan_sublists present stale consumer now attempts count pending).1

/-- A claimed entry is present and stale, and the scan gets as far as to it: few enough entries come
before it, and few enough of these are claimed or found deleted. -/
theorem mem_scan_iff {attempts count : ℕ} {pending : List (PendingEntry Name)}
    (ascending : pending.Pairwise fun first second => first.id < second.id)
    {entry : PendingEntry Name} (member : entry ∈ pending) :
    entry ∈ (scan present stale consumer now attempts count pending).1 ↔
      present entry ∧ stale entry ∧
        pending.countP (fun other => decide (other.id < entry.id)) < attempts ∧
        pending.countP (fun other =>
          (!present other || stale other) && decide (other.id < entry.id)) < count := by
  induction pending generalizing attempts count with
  | nil => simp at member
  | cons first rest induction =>
      obtain ⟨above, restAscending⟩ := List.pairwise_cons.mp ascending
      rcases List.mem_cons.mp member with rfl | inRest
      · -- nothing comes before the first entry
        have notLater : ∀ attempts count,
            entry ∉ (scan present stale consumer now attempts count rest).1 := by
          intro attempts count claimed
          have later := above entry ((scan_claimed_sublist present stale consumer now attempts count
            rest).subset claimed)
          omega
        have none : ∀ counted : PendingEntry Name → Bool, (entry :: rest).countP
            (fun other => counted other && decide (other.id < entry.id)) = 0 := by
          intro counted
          refine List.countP_eq_zero.mpr fun other isOther => ?_
          rcases List.mem_cons.mp isOther with rfl | inRest
          · simp
          · have later := above other inRest
            simp [later.le]
        rw [none, show (entry :: rest).countP (fun other => decide (other.id < entry.id)) = 0 by
          simpa using none fun _ => true]
        cases attempts with
        | zero => simp [scan]
        | succ attempts =>
            cases count with
            | zero => simp [scan]
            | succ count =>
                by_cases isPresent : present entry
                · by_cases isStale : stale entry
                  · simp [scan, isPresent, isStale]
                  · simp [scan, isPresent, isStale, notLater]
                · simp [scan, isPresent, notLater]
      · have later := above entry inRest
        have different : entry ≠ first := by
          rintro rfl
          omega
        rw [List.countP_cons, List.countP_cons]
        cases attempts with
        | zero => simp [scan]
        | succ attempts =>
            cases count with
            | zero => simp [scan]
            | succ count =>
                by_cases isPresent : present first
                · by_cases isStale : stale first
                  · simp [scan, isPresent, isStale, different, later,
                      induction restAscending inRest]
                  · simp [scan, isPresent, isStale, later, induction restAscending inRest]
                · simp [scan, isPresent, later, induction restAscending inRest]

end Claim

/-- `XAUTOCLAIM` from the first id on: the claimed entries, and the group after it.  It looks at ten
times as many entries as it may claim. -/
def claim (group : Group Name) (present stale : PendingEntry Name → Bool) (consumer : Name)
    (now count : ℕ) : List (PendingEntry Name) × Group Name :=
  let scanned := scan present stale consumer now (10 * count) count group.pending
  (scanned.1,
    { lastDelivered := group.lastDelivered
      pending := scanned.2
      ascending := by
        have sublist := scan_sublist present stale consumer now (10 * count) count group.pending
        exact List.pairwise_map.mp ((List.pairwise_map.mpr group.ascending).sublist sublist)
      bounded := by
        intro entry member
        have sublist := scan_sublist present stale consumer now (10 * count) count group.pending
        obtain ⟨old, isOld, same⟩ := List.mem_map.mp
          (sublist.subset (List.mem_map_of_mem member))
        exact same ▸ group.bounded old isOld })

end Group

end Streams

/-!
# Append-only streams

A stream appends entries under growing ids and keeps its consumer groups.  No group is ahead of the
last id.
-/

namespace Streams

/-- A stream and its groups. -/
structure Stream (Data Name : Type) where
  entries : List (Entry Data)
  lastGenerated : ℕ
  groups : Name → Option (Group Name)
  ascending : entries.Pairwise fun first second => first.id < second.id
  bounded : ∀ entry ∈ entries, entry.id ≤ lastGenerated
  positions : ∀ name group, groups name = some group → group.lastDelivered ≤ lastGenerated

namespace Stream

variable {Data Name : Type}

/-- A stream that nothing was appended to. -/
def empty : Stream Data Name where
  entries := []
  lastGenerated := 0
  groups := fun _ => none
  ascending := List.Pairwise.nil
  bounded := by simp
  positions := by simp

/-- `XADD`: the new id is above all earlier ones. -/
def append (stream : Stream Data Name) (gap : ℕ) (data : Data) : Stream Data Name where
  entries := stream.entries ++ [⟨stream.lastGenerated + 1 + gap, data⟩]
  lastGenerated := stream.lastGenerated + 1 + gap
  groups := stream.groups
  ascending := by
    refine List.pairwise_append.mpr ⟨stream.ascending, List.pairwise_singleton _ _, ?_⟩
    intro entry member last isLast
    have before := stream.bounded entry member
    rw [List.mem_singleton.mp isLast]
    change entry.id < stream.lastGenerated + 1 + gap
    omega
  bounded := by
    intro entry member
    rcases List.mem_append.mp member with old | isLast
    · have before := stream.bounded entry old
      omega
    · rw [List.mem_singleton.mp isLast]
  positions := by
    intro name group isGroup
    have before := stream.positions name group isGroup
    omega

/-- Drop the oldest entries. -/
def trim (stream : Stream Data Name) (dropped : ℕ) : Stream Data Name where
  entries := stream.entries.drop dropped
  lastGenerated := stream.lastGenerated
  groups := stream.groups
  ascending := stream.ascending.sublist (List.drop_sublist _ _)
  bounded := fun entry member => stream.bounded entry (List.mem_of_mem_drop member)
  positions := stream.positions

def after (stream : Stream Data Name) (position : ℕ) : List (Entry Data) :=
  stream.entries.filter fun entry => position < entry.id

theorem mem_after {stream : Stream Data Name} {position : ℕ} {entry : Entry Data} :
    entry ∈ stream.after position ↔ entry ∈ stream.entries ∧ position < entry.id := by
  simp [after]

theorem following_take (stream : Stream Data Name) (group : Group Name) (count : ℕ) :
    group.Following ((stream.after group.lastDelivered).take count) where
  ascending := stream.ascending.sublist
    ((List.take_sublist _ _).trans List.filter_sublist)
  after := fun _ member => (mem_after.mp (List.mem_of_mem_take member)).2

/-- No entry between a group's position and the position after a read is left out of the read. -/
theorem mem_take_of_le_positionAfter {stream : Stream Data Name} {group : Group Name} {count : ℕ}
    {entry : Entry Data} (member : entry ∈ stream.entries) (later : group.lastDelivered < entry.id)
    (within : entry.id ≤ group.positionAfter ((stream.after group.lastDelivered).take count)) :
    entry ∈ (stream.after group.lastDelivered).take count := by
  have undelivered : entry ∈ (stream.after group.lastDelivered).take count ++
      (stream.after group.lastDelivered).drop count := by
    rw [List.take_append_drop]
    exact mem_after.mpr ⟨member, later⟩
  rcases List.mem_append.mp undelivered with taken | left
  · exact taken
  · have ascending : (stream.after group.lastDelivered).Pairwise
        fun first second => first.id < second.id := stream.ascending.sublist List.filter_sublist
    rw [← List.take_append_drop count (stream.after group.lastDelivered)] at ascending
    have before := (List.pairwise_append.mp ascending).2.2
    rw [Group.positionAfter] at within
    cases atEnd : ((stream.after group.lastDelivered).take count).getLast? with
    | none =>
        rw [atEnd] at within
        exact absurd (later.trans_le within) (lt_irrefl _)
    | some last =>
        rw [atEnd] at within
        have earlier := before last (List.mem_of_getLast? atEnd) entry left
        exact absurd (earlier.trans_le within) (lt_irrefl _)

section Groups

variable [DecidableEq Name]

def setGroup (stream : Stream Data Name) (name : Name) (group : Group Name)
    (within : group.lastDelivered ≤ stream.lastGenerated) : Stream Data Name where
  entries := stream.entries
  lastGenerated := stream.lastGenerated
  groups := Function.update stream.groups name (some group)
  ascending := stream.ascending
  bounded := stream.bounded
  positions := by
    intro other held isHeld
    by_cases same : other = name
    · rw [same, Function.update_self, Option.some.injEq] at isHeld
      exact isHeld ▸ within
    · rw [Function.update_of_ne same] at isHeld
      exact stream.positions other held isHeld

@[simp] theorem setGroup_groups (stream : Stream Data Name) (name : Name) (group : Group Name)
    (within : group.lastDelivered ≤ stream.lastGenerated) :
    (stream.setGroup name group within).groups =
      Function.update stream.groups name (some group) := rfl

def removeGroup (stream : Stream Data Name) (name : Name) : Stream Data Name where
  entries := stream.entries
  lastGenerated := stream.lastGenerated
  groups := Function.update stream.groups name none
  ascending := stream.ascending
  bounded := stream.bounded
  positions := by
    intro other held isHeld
    by_cases same : other = name
    · rw [same, Function.update_self] at isHeld
      cases isHeld
    · rw [Function.update_of_ne same] at isHeld
      exact stream.positions other held isHeld

/-- `XGROUP CREATE` at the end of the stream, for a group that is not there. -/
def createGroup (stream : Stream Data Name) (name : Name) : Stream Data Name :=
  stream.setGroup name (Group.startAt stream.lastGenerated) le_rfl

omit [DecidableEq Name] in
theorem positionAfter_le (stream : Stream Data Name) {group : Group Name} {name : Name}
    (isGroup : stream.groups name = some group) (count : ℕ) :
    group.positionAfter ((stream.after group.lastDelivered).take count) ≤
      stream.lastGenerated := by
  rw [Group.positionAfter]
  cases atEnd : ((stream.after group.lastDelivered).take count).getLast? with
  | none => exact stream.positions name group isGroup
  | some last =>
      exact stream.bounded last
        (mem_after.mp (List.mem_of_mem_take (List.mem_of_getLast? atEnd))).1

/-- `XREADGROUP` of new entries: the entries delivered, or nothing where there is no such group. -/
def read (stream : Stream Data Name) (name consumer : Name) (count now : ℕ) :
    Option (List (Entry Data) × Stream Data Name) :=
  match isGroup : stream.groups name with
  | none => none
  | some group =>
      some ((stream.after group.lastDelivered).take count,
        stream.setGroup name
          (group.deliver consumer now _ (stream.following_take group count))
          (stream.positionAfter_le isGroup count))

/-- `XACK`. -/
def acknowledge (stream : Stream Data Name) (name : Name) (id : ℕ) : Stream Data Name :=
  match isGroup : stream.groups name with
  | none => stream
  | some group => stream.setGroup name (group.acknowledge id) (stream.positions name group isGroup)

/-- `XGROUP SETID` to the end of the stream. -/
def moveToEnd (stream : Stream Data Name) (name : Name) : Stream Data Name :=
  match isGroup : stream.groups name with
  | none => stream
  | some group =>
      stream.setGroup name
        (group.moveTo stream.lastGenerated (stream.positions name group isGroup)) le_rfl

end Groups

/-- The entry with an id, unless it was dropped. -/
def find (stream : Stream Data Name) (id : ℕ) : Option (Entry Data) :=
  stream.entries.find? fun entry => entry.id = id

/-- `XAUTOCLAIM` of entries that are idle for long enough: the entries claimed, or nothing where
there is no such group. -/
def autoclaim [DecidableEq Name] (stream : Stream Data Name) (name consumer : Name)
    (minIdle count now : ℕ) : Option (List (Entry Data) × Stream Data Name) :=
  match isGroup : stream.groups name with
  | none => none
  | some group =>
      let claimed := group.claim (fun entry => (stream.find entry.id).isSome)
        (fun entry => minIdle ≤ now - entry.deliveredAt) consumer now count
      some (claimed.1.filterMap fun entry => stream.find entry.id,
        stream.setGroup name claimed.2 (stream.positions name group isGroup))

/-! ### What the commands answer -/

theorem mem_of_find {stream : Stream Data Name} {id : ℕ} {entry : Entry Data}
    (found : stream.find id = some entry) : entry ∈ stream.entries ∧ entry.id = id :=
  ⟨List.mem_of_find?_eq_some found, by simpa using List.find?_some found⟩

theorem read_eq_some [DecidableEq Name] {stream later : Stream Data Name} {name consumer : Name}
    {count now : ℕ} {entries : List (Entry Data)}
    (answered : stream.read name consumer count now = some (entries, later)) :
    ∃ group, ∃ isGroup : stream.groups name = some group,
      entries = (stream.after group.lastDelivered).take count ∧
        later = stream.setGroup name
          (group.deliver consumer now _ (stream.following_take group count))
          (stream.positionAfter_le isGroup count) := by
  rw [read] at answered
  split at answered
  · cases answered
  · next group isGroup =>
      rw [Option.some.injEq, Prod.mk.injEq] at answered
      exact ⟨group, isGroup, answered.1.symm, answered.2.symm⟩

theorem autoclaim_of_group [DecidableEq Name] {stream : Stream Data Name} {name : Name}
    {group : Group Name} (isGroup : stream.groups name = some group) (consumer : Name)
    (minIdle count now : ℕ) :
    stream.autoclaim name consumer minIdle count now =
      some ((group.claim (fun entry => (stream.find entry.id).isSome)
          (fun entry => minIdle ≤ now - entry.deliveredAt) consumer now count).1.filterMap
            fun entry => stream.find entry.id,
        stream.setGroup name
          (group.claim (fun entry => (stream.find entry.id).isSome)
            (fun entry => minIdle ≤ now - entry.deliveredAt) consumer now count).2
          (stream.positions name group isGroup)) := by
  rw [autoclaim]
  split
  · next noGroup => simp [isGroup] at noGroup
  · next held isHeld =>
      obtain rfl : group = held := Option.some.inj (isGroup.symm.trans isHeld)
      rfl

theorem autoclaim_eq_some [DecidableEq Name] {stream later : Stream Data Name}
    {name consumer : Name} {minIdle count now : ℕ} {entries : List (Entry Data)}
    (answered : stream.autoclaim name consumer minIdle count now = some (entries, later)) :
    ∃ group, ∃ isGroup : stream.groups name = some group,
      entries = (group.claim (fun entry => (stream.find entry.id).isSome)
          (fun entry => minIdle ≤ now - entry.deliveredAt) consumer now count).1.filterMap
            (fun entry => stream.find entry.id) ∧
        later = stream.setGroup name
          (group.claim (fun entry => (stream.find entry.id).isSome)
            (fun entry => minIdle ≤ now - entry.deliveredAt) consumer now count).2
          (stream.positions name group isGroup) := by
  rw [autoclaim] at answered
  split at answered
  · cases answered
  · next group isGroup =>
      rw [Option.some.injEq, Prod.mk.injEq] at answered
      exact ⟨group, isGroup, answered.1.symm, answered.2.symm⟩

/-- `XAUTOCLAIM` gets as far as to a pending entry: the entry is still in the stream and idle for
long enough, fewer than ten times `count` entries are pending before it, and fewer than `count` of
these are idle for long enough or dropped from the stream. -/
def Claims (stream : Stream Data Name) (group : Group Name) (minIdle count now : ℕ)
    (entry : PendingEntry Name) : Prop :=
  (stream.find entry.id).isSome ∧ minIdle ≤ now - entry.deliveredAt ∧
    group.pending.countP (fun other => decide (other.id < entry.id)) < 10 * count ∧
    group.pending.countP (fun other =>
      (!(stream.find other.id).isSome || decide (minIdle ≤ now - other.deliveredAt)) &&
        decide (other.id < entry.id)) < count

/-- A pending list that fits the page is claimed as far as its entries are idle and present. -/
theorem claims_of_length_le {stream : Stream Data Name} {group : Group Name}
    {minIdle count now : ℕ} (few : group.pending.length ≤ count) {entry : PendingEntry Name}
    (member : entry ∈ group.pending) (present : (stream.find entry.id).isSome)
    (idle : minIdle ≤ now - entry.deliveredAt) : stream.Claims group minIdle count now entry := by
  have fewer : ∀ counted : PendingEntry Name → Bool, group.pending.countP
      (fun other => counted other && decide (other.id < entry.id)) < group.pending.length := by
    intro counted
    refine lt_of_le_of_ne List.countP_le_length fun all => ?_
    have own := List.countP_eq_length.mp all entry member
    simp at own
  have before := fewer fun _ => true
  simp only [Bool.true_and] at before
  exact ⟨present, idle, by omega, (fewer _).trans_le few⟩

/-- What `XAUTOCLAIM` returns, by the ids. -/
theorem mem_autoclaim_iff [DecidableEq Name] {stream : Stream Data Name} {name : Name}
    {group : Group Name} (isGroup : stream.groups name = some group) (consumer : Name)
    {minIdle count now : ℕ} {claimed : List (Entry Data)} {later : Stream Data Name}
    (answered : stream.autoclaim name consumer minIdle count now = some (claimed, later))
    {entry : PendingEntry Name} (member : entry ∈ group.pending) :
    (∃ message ∈ claimed, message.id = entry.id) ↔
      stream.Claims group minIdle count now entry := by
  rw [autoclaim_of_group isGroup, Option.some.injEq, Prod.mk.injEq] at answered
  have spec := @Group.mem_scan_iff _ (fun entry => (stream.find entry.id).isSome)
    (fun entry => decide (minIdle ≤ now - entry.deliveredAt)) consumer now (10 * count) count _
    group.ascending _ member
  rw [decide_eq_true_eq] at spec
  rw [Claims, ← spec, ← answered.1]
  constructor
  · rintro ⟨message, isClaimed, same⟩
    obtain ⟨held, isHeld, found⟩ := List.mem_filterMap.mp isClaimed
    have sameId : held.id = entry.id := (mem_of_find found).2.symm.trans same
    have isPending := (Group.scan_claimed_sublist _ _ consumer now _ _ _).subset isHeld
    have distinct : (group.pending.map PendingEntry.id).Nodup :=
      List.pairwise_map.mpr (group.ascending.imp fun before => before.ne)
    have unique := List.inj_on_of_nodup_map distinct isPending member sameId
    exact unique ▸ isHeld
  · intro isClaimed
    have isPresent := (spec.mp isClaimed).1
    obtain ⟨message, found⟩ := Option.isSome_iff_exists.mp isPresent
    exact ⟨message, List.mem_filterMap.mpr ⟨entry, isClaimed, found⟩, (mem_of_find found).2⟩

/-- `XAUTOCLAIM` returns pending entries only. -/
theorem pending_of_mem_autoclaim [DecidableEq Name] {stream : Stream Data Name} {name : Name}
    {group : Group Name} (isGroup : stream.groups name = some group) (consumer : Name)
    {minIdle count now : ℕ} {claimed : List (Entry Data)} {later : Stream Data Name}
    (answered : stream.autoclaim name consumer minIdle count now = some (claimed, later))
    {message : Entry Data} (member : message ∈ claimed) :
    ∃ entry ∈ group.pending, entry.id = message.id := by
  rw [autoclaim_of_group isGroup, Option.some.injEq, Prod.mk.injEq] at answered
  rw [← answered.1] at member
  obtain ⟨entry, isClaimed, found⟩ := List.mem_filterMap.mp member
  exact ⟨entry, (Group.scan_claimed_sublist _ _ consumer now _ _ _).subset isClaimed,
    (mem_of_find found).2.symm⟩

/-! ### Positions -/

/-- Neither the stream nor a group of the name is behind a position. -/
structure Beyond (stream : Stream Data Name) (name : Name) (position : ℕ) : Prop where
  generated : position ≤ stream.lastGenerated
  delivered : ∀ group, stream.groups name = some group → position ≤ group.lastDelivered

section Beyond

variable {stream : Stream Data Name} {name : Name} {position : ℕ}

theorem beyond_of_group {group : Group Name} (isGroup : stream.groups name = some group) :
    stream.Beyond name group.lastDelivered where
  generated := stream.positions name group isGroup
  delivered := by
    intro held isHeld
    rw [Option.some.inj (isGroup.symm.trans isHeld)]

variable [DecidableEq Name]

theorem Beyond.setGroup (beyond : stream.Beyond name position) {other : Name} {group : Group Name}
    (within : group.lastDelivered ≤ stream.lastGenerated)
    (moved : other = name → position ≤ group.lastDelivered) :
    (stream.setGroup other group within).Beyond name position where
  generated := beyond.generated
  delivered := by
    intro held isHeld
    by_cases same : name = other
    · subst same
      rw [setGroup_groups, Function.update_self, Option.some.injEq] at isHeld
      exact isHeld ▸ moved rfl
    · rw [setGroup_groups, Function.update_of_ne same] at isHeld
      exact beyond.delivered held isHeld

theorem Beyond.createGroup (beyond : stream.Beyond name position) (other : Name) :
    (stream.createGroup other).Beyond name position :=
  beyond.setGroup le_rfl fun _ => beyond.generated

/-- What `XREADGROUP` delivers to a group comes after every position the group has passed. -/
theorem Beyond.read (beyond : stream.Beyond name position) {other consumer : Name} {count now : ℕ}
    {entries : List (Entry Data)} {later : Stream Data Name}
    (answered : stream.read other consumer count now = some (entries, later)) :
    later.Beyond name position ∧
      (other = name → ∀ entry ∈ entries, position < entry.id) := by
  obtain ⟨group, isGroup, rfl, rfl⟩ := read_eq_some answered
  have following := stream.following_take group count
  refine ⟨beyond.setGroup _ ?_, ?_⟩
  · rintro rfl
    exact (beyond.delivered group isGroup).trans (group.le_positionAfter following)
  · rintro rfl entry member
    exact (beyond.delivered group isGroup).trans_lt (following.after entry member)

theorem Beyond.acknowledge (beyond : stream.Beyond name position) (other : Name) (id : ℕ) :
    (stream.acknowledge other id).Beyond name position := by
  rw [Stream.acknowledge]
  split
  · exact beyond
  · next group isGroup =>
      exact beyond.setGroup _ fun same => beyond.delivered group (same ▸ isGroup)

theorem Beyond.autoclaim (beyond : stream.Beyond name position) {other consumer : Name}
    {minIdle count now : ℕ} {entries : List (Entry Data)} {later : Stream Data Name}
    (answered : stream.autoclaim other consumer minIdle count now = some (entries, later)) :
    later.Beyond name position := by
  obtain ⟨group, isGroup, -, rfl⟩ := autoclaim_eq_some answered
  exact beyond.setGroup _ fun same => beyond.delivered group (same ▸ isGroup)

end Beyond

/-! ### Settled entries -/

/-- A group is past an id and has nothing pending under it. -/
structure Settled (stream : Stream Data Name) (name : Name) (id : ℕ) : Prop
    extends stream.Beyond name id where
  idle : ∀ group, stream.groups name = some group → ∀ entry ∈ group.pending, entry.id ≠ id

section Settled

variable {stream : Stream Data Name} {name : Name} {id : ℕ}

theorem Settled.of_groups {later : Stream Data Name} (settled : stream.Settled name id)
    (groups : later.groups = stream.groups)
    (generated : stream.lastGenerated ≤ later.lastGenerated) : later.Settled name id where
  generated := settled.generated.trans generated
  delivered group isGroup := settled.delivered group (groups ▸ isGroup)
  idle group isGroup := settled.idle group (groups ▸ isGroup)

variable [DecidableEq Name]

theorem Settled.setGroup (settled : stream.Settled name id) {other : Name} {group : Group Name}
    (within : group.lastDelivered ≤ stream.lastGenerated)
    (moved : other = name → id ≤ group.lastDelivered ∧ ∀ entry ∈ group.pending, entry.id ≠ id) :
    (stream.setGroup other group within).Settled name id where
  toBeyond := settled.toBeyond.setGroup within fun same => (moved same).1
  idle := by
    intro held isHeld
    by_cases same : name = other
    · subst same
      rw [setGroup_groups, Function.update_self, Option.some.injEq] at isHeld
      exact isHeld ▸ (moved rfl).2
    · rw [setGroup_groups, Function.update_of_ne same] at isHeld
      exact settled.idle held isHeld

theorem Settled.createGroup (settled : stream.Settled name id) (other : Name) :
    (stream.createGroup other).Settled name id :=
  settled.setGroup le_rfl fun _ => ⟨settled.generated, by simp [Group.startAt]⟩

theorem Settled.removeGroup (settled : stream.Settled name id) (other : Name) :
    (stream.removeGroup other).Settled name id := by
  have kept : ∀ group, (stream.removeGroup other).groups name = some group →
      stream.groups name = some group := by
    intro group isGroup
    by_cases same : name = other
    · simp [Stream.removeGroup, same] at isGroup
    · simpa [Stream.removeGroup, same] using isGroup
  exact ⟨⟨settled.generated, fun group isGroup => settled.delivered group (kept group isGroup)⟩,
    fun group isGroup => settled.idle group (kept group isGroup)⟩

theorem Settled.moveToEnd (settled : stream.Settled name id) (other : Name) :
    (stream.moveToEnd other).Settled name id := by
  rw [Stream.moveToEnd]
  split
  · exact settled
  · next group isGroup =>
      refine settled.setGroup _ ?_
      rintro rfl
      exact ⟨settled.generated, settled.idle group isGroup⟩

theorem Settled.read (settled : stream.Settled name id) {other consumer : Name} {count now : ℕ}
    {entries : List (Entry Data)} {later : Stream Data Name}
    (answered : stream.read other consumer count now = some (entries, later)) :
    later.Settled name id ∧ (other = name → ∀ entry ∈ entries, entry.id ≠ id) := by
  obtain ⟨group, isGroup, rfl, rfl⟩ := read_eq_some answered
  have following := stream.following_take group count
  have ahead : other = name → ∀ entry ∈ (stream.after group.lastDelivered).take count,
      entry.id ≠ id := by
    rintro rfl entry member
    exact ((settled.delivered group isGroup).trans_lt (following.after entry member)).ne'
  refine ⟨settled.setGroup _ ?_, ahead⟩
  rintro rfl
  refine ⟨(settled.delivered group isGroup).trans (group.le_positionAfter following), ?_⟩
  intro entry member
  rcases List.mem_append.mp member with old | new
  · exact settled.idle group isGroup entry old
  · obtain ⟨delivered, isDelivered, rfl⟩ := List.mem_map.mp new
    exact ahead rfl delivered isDelivered

/-- Nor does a claim. -/
theorem Settled.autoclaim (settled : stream.Settled name id) {other consumer : Name}
    {minIdle count now : ℕ} {entries : List (Entry Data)} {later : Stream Data Name}
    (answered : stream.autoclaim other consumer minIdle count now = some (entries, later)) :
    later.Settled name id ∧ (other = name → ∀ entry ∈ entries, entry.id ≠ id) := by
  obtain ⟨group, isGroup, rfl, rfl⟩ := autoclaim_eq_some answered
  refine ⟨settled.setGroup _ ?_, ?_⟩
  · rintro rfl
    refine ⟨settled.delivered group isGroup, fun entry member => ?_⟩
    have sublist := Group.scan_sublist (fun entry => (stream.find entry.id).isSome)
      (fun entry => decide (minIdle ≤ now - entry.deliveredAt)) consumer now (10 * count) count
      group.pending
    obtain ⟨old, isOld, same⟩ := List.mem_map.mp (sublist.subset (List.mem_map_of_mem member))
    exact same ▸ settled.idle group isGroup old isOld
  · rintro rfl entry member
    obtain ⟨old, isOld, same⟩ := pending_of_mem_autoclaim isGroup consumer answered member
    exact same ▸ settled.idle group isGroup old isOld

theorem Settled.acknowledge (settled : stream.Settled name id) (other : Name) (acked : ℕ) :
    (stream.acknowledge other acked).Settled name id := by
  rw [Stream.acknowledge]
  split
  · exact settled
  · next group isGroup =>
      refine settled.setGroup _ ?_
      rintro rfl
      exact ⟨settled.delivered group isGroup,
        fun entry member => settled.idle group isGroup entry (List.mem_of_mem_filter member)⟩

theorem settled_acknowledge {group : Group Name} (isGroup : stream.groups name = some group)
    {entry : PendingEntry Name} (member : entry ∈ group.pending) :
    (stream.acknowledge name entry.id).Settled name entry.id := by
  rw [Stream.acknowledge]
  split
  · next absent => simp [isGroup] at absent
  · next held isHeld =>
      obtain rfl : group = held := Option.some.inj (isGroup.symm.trans isHeld)
      have passed := group.bounded entry member
      have unique : ∀ other, Function.update stream.groups name
          (some (group.acknowledge entry.id)) name = some other →
            group.acknowledge entry.id = other := by
        intro other isOther
        rwa [Function.update_self, Option.some.injEq] at isOther
      refine ⟨⟨passed.trans (stream.positions name group isGroup), fun other isOther => ?_⟩,
        fun other isOther => ?_⟩
      · exact unique other isOther ▸ passed
      · obtain rfl := unique other isOther
        intro pending isPending
        simpa using List.of_mem_filter isPending

end Settled

end Stream

end Streams
