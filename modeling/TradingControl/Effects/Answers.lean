import TradingControl.Effects.Execution

/-!
# Programs that only look

A program that reads the world and leaves it alone is known by the values it may return.  Such
programs compose by what each part returns, and no world in between has to be named.
-/

namespace Effects

variable {S : Signature} {ε α β C W : Type}

/-- Under every allowed choice the program leaves the world alone and returns a value with the
property. -/
def Answers (handler : Handler S ε C W) (allowed : C → Prop) (world : W)
    (program : Program S ε α) (property : α → Prop) : Prop :=
  program.wp (handler.demonic allowed)
    (fun outcome after => ∃ value, outcome = .ok value ∧ property value ∧ after = world) world

namespace Answers

variable {handler : Handler S ε C W} {allowed : C → Prop} {world : W} {program : Program S ε α}
  {property : α → Prop}

theorem ret {value : α} (holds : property value) :
    Answers handler allowed world (.ret value) property :=
  ⟨value, rfl, holds, rfl⟩

theorem mono {weaker : α → Prop} (answers : Answers handler allowed world program property)
    (weaken : ∀ value, property value → weaker value) :
    Answers handler allowed world program weaker := by
  refine Program.wp_mono (Handler.demonic_monotone handler allowed) ?_ answers
  rintro outcome after ⟨value, returned, holds, same⟩
  exact ⟨value, returned, weaken value holds, same⟩

theorem wp_bind {rest : α → Program S ε β} {post : Except ε β → W → Prop}
    (first : Answers handler allowed world program property)
    (next : ∀ value, property value → (rest value).wp (handler.demonic allowed) post world) :
    (program.bind rest).wp (handler.demonic allowed) post world := by
  rw [Program.wp_bind]
  refine Program.wp_mono (Handler.demonic_monotone handler allowed) ?_ first
  rintro outcome later ⟨value, rfl, holds, rfl⟩
  exact next value holds

/-- Sequential composition of programs that look. -/
theorem bind {rest : α → Program S ε β} {after : β → Prop}
    (first : Answers handler allowed world program property)
    (next : ∀ value, property value → Answers handler allowed world (rest value) after) :
    Answers handler allowed world (program.bind rest) after :=
  first.wp_bind next

/-- One operation that answers and changes nothing. -/
theorem perform {op : S.Op} {property : S.Answer op → Prop}
    (looks : ∀ choice, allowed choice →
      ∃ value, handler op choice world = (.ok value, world) ∧ property value) :
    Answers handler allowed world (Program.perform op) property := by
  rw [Answers, Program.wp_perform]
  intro choice permitted
  obtain ⟨value, answered, holds⟩ := looks choice permitted
  rw [answered]
  exact ⟨value, rfl, holds, rfl⟩

/-- One operation that changes nothing, whether it answers or raises. -/
theorem attempt {op : S.Op} {property : Except ε (S.Answer op) → Prop}
    (looks : ∀ choice, allowed choice →
      property (handler op choice world).1 ∧ (handler op choice world).2 = world) :
    Answers handler allowed world (Program.perform op : Program S ε _).attempt property := by
  rw [Answers, Program.wp_attempt, Program.wp_perform]
  intro choice permitted
  obtain ⟨holds, same⟩ := looks choice permitted
  exact ⟨_, rfl, holds, same⟩

/-- Every run returns such a value. -/
theorem exec (answers : Answers handler allowed world program property) {choices : Nat → C}
    (permitted : ∀ n, allowed (choices n)) :
    ∃ value, program.exec handler choices world = (.ok value, world) ∧ property value := by
  obtain ⟨value, returned, holds, same⟩ := Handler.exec_of_wp answers choices permitted
  exact ⟨value, Prod.ext returned same, holds⟩

end Answers

end Effects
