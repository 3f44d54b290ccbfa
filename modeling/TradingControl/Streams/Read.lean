import TradingControl.Streams.Stream

/-!
# Reads of several streams

`XREAD` takes a position for each stream, the last id of the stream at the time of the call among
them, and answers what comes after.
-/

namespace Streams

/-- Where a read of a stream starts: at `"$"`, or after an id. -/
inductive Offset where
  | latest
  | after (id : ℕ)
deriving DecidableEq

variable {Data Name Key : Type}

namespace Stream

/-- The position that an offset means when the read is called. -/
def resolve (stream : Stream Data Name) : Offset → ℕ
  | .latest => stream.lastGenerated
  | .after id => id

@[simp] theorem append_lastGenerated (stream : Stream Data Name) (gap : ℕ) (data : Data) :
    (stream.append gap data).lastGenerated = stream.lastGenerated + 1 + gap := rfl

/-- Nothing comes after the last id. -/
@[simp] theorem after_lastGenerated (stream : Stream Data Name) :
    stream.after stream.lastGenerated = [] := by
  rw [after, List.filter_eq_nil_iff]
  intro entry member
  simpa using stream.bounded entry member

/-- An appended entry comes after every position that the stream has reached. -/
theorem after_append {stream : Stream Data Name} {position : ℕ}
    (reached : position ≤ stream.lastGenerated) (gap : ℕ) (data : Data) :
    (stream.append gap data).after position =
      stream.after position ++ [⟨stream.lastGenerated + 1 + gap, data⟩] := by
  have later : position < stream.lastGenerated + 1 + gap := by omega
  simp [after, append, later]

end Stream

/-! ## Positions -/

def lastId (position : ℕ) (entries : List (Entry Data)) : ℕ :=
  match entries.getLast? with
  | some last => last.id
  | none => position

theorem lastId_le {stream : Stream Data Name} {position : ℕ}
    (reached : position ≤ stream.lastGenerated) (count : ℕ) :
    lastId position ((stream.after position).take count) ≤ stream.lastGenerated := by
  rw [lastId]
  cases atEnd : ((stream.after position).take count).getLast? with
  | none => exact reached
  | some last =>
      have isTaken := List.mem_of_getLast? atEnd
      exact stream.bounded last (Stream.mem_after.mp (List.mem_of_mem_take isTaken)).1

/-- A read and what comes after its last id are all that came after the position. -/
theorem take_append_after (stream : Stream Data Name) (position count : ℕ) :
    (stream.after position).take count ++
        stream.after (lastId position ((stream.after position).take count)) =
      stream.after position := by
  obtain ⟨taken, isTaken⟩ : ∃ taken, taken = (stream.after position).take count := ⟨_, rfl⟩
  have split : stream.after position = taken ++ (stream.after position).drop count := by
    rw [isTaken, List.take_append_drop]
  have ascending : (stream.after position).Pairwise fun first second => first.id < second.id :=
    stream.ascending.sublist List.filter_sublist
  rw [← isTaken, lastId]
  cases atEnd : taken.getLast? with
  | none =>
      rw [List.getLast?_eq_none_iff.mp atEnd, List.nil_append]
  | some last =>
      have isLast := List.mem_of_getLast? atEnd
      rw [split] at ascending
      have before := (List.pairwise_append.mp ascending).2.2 last isLast
      have upTo := fun entry member =>
        @le_getLast _ Entry.id _ (List.pairwise_append.mp ascending).1 entry last member atEnd
      have beyond : position < last.id := by
        refine (Stream.mem_after.mp (?_ : last ∈ stream.after position)).2
        exact split ▸ List.mem_append_left _ isLast
      -- the entries after the last one taken are the ones that were left
      have narrowed : stream.after last.id =
          (stream.after position).filter fun entry => last.id < entry.id := by
        rw [Stream.after, Stream.after, List.filter_filter]
        refine List.filter_congr fun entry _ => ?_
        have both : last.id < entry.id → position < entry.id := beyond.trans
        by_cases late : last.id < entry.id <;> simp [late, both]
      have none : taken.filter (fun entry => last.id < entry.id) = [] :=
        List.filter_eq_nil_iff.mpr fun entry member => by simpa using upTo entry member
      have all : ((stream.after position).drop count).filter (fun entry => last.id < entry.id) =
          (stream.after position).drop count :=
        List.filter_eq_self.mpr fun entry member => decide_eq_true (before entry member)
      have rest : stream.after last.id = (stream.after position).drop count := by
        rw [narrowed]
        conv_lhs => rw [split]
        rw [List.filter_append, none, all, List.nil_append]
      rw [rest, ← split]

/-! ## Reads -/

/-- `XREAD`: every stream with entries after its position, and the first of these. -/
def xread (streams : Key → Stream Data Name) (count : ℕ) :
    List (Key × ℕ) → List (Key × List (Entry Data))
  | [] => []
  | (key, position) :: rest =>
      match ((streams key).after position).take count with
      | [] => xread streams count rest
      | first :: others => (key, first :: others) :: xread streams count rest

variable {streams : Key → Stream Data Name} {count : ℕ} {positions : List (Key × ℕ)}

theorem mem_of_mem_xread {key : Key} {entries : List (Entry Data)}
    (member : (key, entries) ∈ xread streams count positions) :
    ∃ position, (key, position) ∈ positions ∧
      entries = ((streams key).after position).take count ∧ entries ≠ [] := by
  induction positions with
  | nil => cases member
  | cons request rest induction =>
      obtain ⟨held, position⟩ := request
      rw [xread] at member
      split at member
      · obtain ⟨position, isMember, isRead⟩ := induction member
        exact ⟨position, List.mem_cons_of_mem _ isMember, isRead⟩
      · next first others isRead =>
          rcases List.mem_cons.mp member with same | later
          · obtain ⟨rfl, rfl⟩ := Prod.mk.inj same
            exact ⟨position, List.mem_cons_self, isRead.symm, by simp⟩
          · obtain ⟨position, isMember, isRead⟩ := induction later
            exact ⟨position, List.mem_cons_of_mem _ isMember, isRead⟩

/-- A read that answers nothing has nothing after any of its positions. -/
theorem xread_eq_nil_iff (positive : 0 < count) :
    xread streams count positions = [] ↔
      ∀ request ∈ positions, (streams request.1).after request.2 = [] := by
  have empty : ∀ entries : List (Entry Data), entries.take count = [] ↔ entries = [] := by
    intro entries
    rw [List.take_eq_nil_iff]
    exact ⟨fun either => either.resolve_left (by omega), .inr⟩
  induction positions with
  | nil => simp [xread]
  | cons request rest induction =>
      obtain ⟨key, position⟩ := request
      rw [xread, List.forall_mem_cons]
      split
      · next isEmpty =>
          exact induction.trans (and_iff_right ((empty _).mp isEmpty)).symm
      · next first others isRead =>
          refine iff_of_false (by simp) fun none => ?_
          rw [none.1, List.take_nil] at isRead
          cases isRead

end Streams
