import Mathlib.Logic.Function.Basic
import TradingControl.Effects.Execution

/-!
# Parties that share a world

Every party runs a program over operations of its own; a schedule says whose operation comes next.
A guarantee is what every operation of every party keeps: an invariant of the world, and a way in
which the world grows.  A party may rely on it between two operations of its own.
-/

namespace Effects

variable {S : Signature} {ε α C W ι : Type}

/-! ## Systems -/

/-- A program over operations of its own, and what these do to the world. -/
structure Party (C W : Type) where
  signature : Signature
  Failure : Type
  Result : Type
  handler : Handler signature Failure C W
  program : Program signature Failure Result

/-- Issue one operation; a finished program does nothing. -/
def Program.resume (handler : Handler S ε C W) (choice : C) (world : W) :
    Program S ε α → Program S ε α × W
  | .ret value => (.ret value, world)
  | .raise error => (.raise error, world)
  | .call op next => (next (handler op choice world).1, (handler op choice world).2)

/-- Parties and their world. -/
structure System (C W ι : Type) where
  world : W
  party : ι → Party C W

namespace System

variable [DecidableEq ι]

/-- One operation of one party. -/
def advance (system : System C W ι) (i : ι) (choice : C) : System C W ι :=
  let moved := (system.party i).program.resume (system.party i).handler choice system.world
  { world := moved.2
    party := Function.update system.party i { system.party i with program := moved.1 } }

/-- Follow a schedule. -/
def run (system : System C W ι) (schedule : List (ι × C)) : System C W ι :=
  schedule.foldl (fun system entry => system.advance entry.1 entry.2) system

@[simp] theorem run_nil (system : System C W ι) : system.run [] = system := rfl

@[simp] theorem run_cons (system : System C W ι) (entry : ι × C) (schedule : List (ι × C)) :
    system.run (entry :: schedule) = (system.advance entry.1 entry.2).run schedule := rfl

end System

/-! ## Guarantees -/

/-- An invariant of the world, and facts about it that last. -/
structure Guarantee (W : Type) where
  invariant : W → Prop
  grows : W → W → Prop
  refl : ∀ world, grows world world
  trans : ∀ {first second third}, grows first second → grows second third → grows first third

namespace Guarantee

variable (guarantee : Guarantee W) {handler : Handler S ε C W}

/-- Whatever the others have done since the world was last seen, the operation keeps the guarantee
and leads on to the continuation. -/
def relying (handler : Handler S ε C W) : Transformer S ε W := fun op post known =>
  ∀ choice world, guarantee.invariant world → guarantee.grows known world →
    guarantee.invariant (handler op choice world).2 ∧
      guarantee.grows world (handler op choice world).2 ∧
        post (handler op choice world).1 (handler op choice world).2

theorem relying_monotone (handler : Handler S ε C W) :
    Program.Monotone (guarantee.relying handler) := by
  intro op weak strong known weaken holds choice world invariant grown
  obtain ⟨kept, grows, post⟩ := holds choice world invariant grown
  exact ⟨kept, grows, weaken _ _ post⟩

/-- The operation keeps the guarantee, whatever its party knows. -/
def Keeps (handler : Handler S ε C W) (op : S.Op) : Prop :=
  ∀ choice world, guarantee.invariant world →
    guarantee.invariant (handler op choice world).2 ∧
      guarantee.grows world (handler op choice world).2

variable {guarantee}

theorem Keeps.relying {op : S.Op} (keeps : guarantee.Keeps handler op) {known : W}
    {post : Except ε (S.Answer op) → W → Prop}
    (finish : ∀ answer world, guarantee.grows known world → post answer world) :
    guarantee.relying handler op post known := by
  intro choice world invariant grown
  obtain ⟨kept, grows⟩ := keeps choice world invariant
  exact ⟨kept, grows, finish _ _ (guarantee.trans grown grows)⟩

theorem wp_of_keeps {program : Program S ε α} (calls : program.Calls (guarantee.Keeps handler))
    {known : W} {post : Except ε α → W → Prop}
    (finish : ∀ outcome world, guarantee.grows known world → post outcome world) :
    program.wp (guarantee.relying handler) post known := by
  have kept : ∀ op, guarantee.Keeps handler op →
      ∀ (next : Except ε (S.Answer op) → W → Prop) seen, guarantee.grows known seen →
        (∀ answer world, guarantee.grows known world → next answer world) →
        guarantee.relying handler op next seen := by
    intro op keeps next seen grown continues
    exact keeps.relying fun answer world later => continues _ _ (guarantee.trans grown later)
  exact Program.wp_of_calls kept calls (guarantee.refl known) finish

/-- A program that keeps the guarantee from what its party knows. -/
def SoundFrom (guarantee : Guarantee W) (handler : Handler S ε C W) (known : W)
    (program : Program S ε α) : Prop :=
  program.wp (guarantee.relying handler) (fun _ world => guarantee.grows known world) known

theorem SoundFrom.mono {known : W} {program : Program S ε α} {post : Except ε α → W → Prop}
    (sound : guarantee.SoundFrom handler known program)
    (finish : ∀ outcome world, guarantee.grows known world → post outcome world) :
    program.wp (guarantee.relying handler) post known :=
  Program.wp_mono (guarantee.relying_monotone handler) finish sound

theorem soundFrom_ret (known : W) (value : α) :
    guarantee.SoundFrom handler known (.ret value : Program S ε α) := guarantee.refl known

theorem soundFrom_raise (known : W) (error : ε) :
    guarantee.SoundFrom handler known (.raise error : Program S ε α) := guarantee.refl known

theorem soundFrom_of_keeps {program : Program S ε α}
    (calls : program.Calls (guarantee.Keeps handler)) (known : W) :
    guarantee.SoundFrom handler known program :=
  wp_of_keeps calls fun _ _ grown => grown

theorem soundFrom_of_forall (keeps : ∀ op, guarantee.Keeps handler op) (program : Program S ε α)
    (known : W) : guarantee.SoundFrom handler known program := by
  refine soundFrom_of_keeps ?_ known
  induction program with
  | ret value => trivial
  | raise error => trivial
  | call op next induction => exact ⟨keeps op, induction⟩

theorem SoundFrom.bind {β : Type} {known : W} {program : Program S ε α}
    {rest : α → Program S ε β} (first : guarantee.SoundFrom handler known program)
    (then_ : ∀ value later, guarantee.grows known later →
      guarantee.SoundFrom handler later (rest value)) :
    guarantee.SoundFrom handler known (program.bind rest) := by
  rw [SoundFrom, Program.wp_bind]
  refine first.mono fun outcome later grown => ?_
  cases outcome with
  | error error => exact grown
  | ok value =>
      exact (then_ value later grown).mono fun _ _ further => guarantee.trans grown further

theorem SoundFrom.attempt {known : W} {program : Program S ε α}
    (sound : guarantee.SoundFrom handler known program) :
    guarantee.SoundFrom handler known program.attempt := by
  rw [SoundFrom, Program.wp_attempt]
  exact sound

/-! ## Runs of a system -/

/-- Every party keeps the guarantee from what it knows. -/
structure Holds (guarantee : Guarantee W) (system : System C W ι) (known : ι → W) : Prop where
  invariant : guarantee.invariant system.world
  knows : ∀ i, guarantee.grows (known i) system.world
  programs : ∀ i, (system.party i).program.wp (guarantee.relying (system.party i).handler)
    (fun _ _ => True) (known i)

variable [DecidableEq ι]

/-- One operation of one party. -/
theorem Holds.advance {system : System C W ι} {known : ι → W}
    (holds : guarantee.Holds system known) (i : ι) (choice : C) :
    guarantee.grows system.world (system.advance i choice).world ∧
      ∃ known', guarantee.Holds (system.advance i choice) known' := by
  have own := holds.programs i
  have stays : ∀ finished, (system.party i).program.resume (system.party i).handler choice
      system.world = (finished, system.world) → finished = (system.party i).program →
      guarantee.grows system.world (system.advance i choice).world ∧
        ∃ known', guarantee.Holds (system.advance i choice) known' := by
    rintro finished isFinished rfl
    have unchanged : system.advance i choice = system := by
      simp [System.advance, isFinished]
    rw [unchanged]
    exact ⟨guarantee.refl _, known, holds⟩
  cases program : (system.party i).program with
  | ret value => exact stays _ (by rw [program]; rfl) program.symm
  | raise error => exact stays _ (by rw [program]; rfl) program.symm
  | call op next =>
      rw [program] at own
      obtain ⟨invariant, grows, rest⟩ := own choice system.world holds.invariant (holds.knows i)
      have world : (system.advance i choice).world =
          ((system.party i).handler op choice system.world).2 := by
        simp [System.advance, program, Program.resume]
      have mover : (system.advance i choice).party i =
          { system.party i with
            program := next ((system.party i).handler op choice system.world).1 } := by
        simp [System.advance, program, Program.resume]
      refine ⟨world ▸ grows, Function.update known i (system.advance i choice).world,
        world ▸ invariant, fun j => ?_, fun j => ?_⟩
      · by_cases same : j = i
        · subst same
          rw [Function.update_self]
          exact guarantee.refl _
        · rw [Function.update_of_ne same, world]
          exact guarantee.trans (holds.knows j) grows
      · by_cases same : j = i
        · subst same
          rw [Function.update_self, mover, world]
          exact rest
        · have other : (system.advance i choice).party j = system.party j :=
            Function.update_of_ne same _ _
          rw [Function.update_of_ne same, other]
          exact holds.programs j

theorem Holds.run {system : System C W ι} {known : ι → W} (holds : guarantee.Holds system known)
    (schedule : List (ι × C)) : guarantee.invariant (system.run schedule).world := by
  induction schedule generalizing system known with
  | nil => exact holds.invariant
  | cons entry schedule induction =>
      obtain ⟨-, known', advanced⟩ := holds.advance entry.1 entry.2
      exact induction advanced

/-- Parties that all keep the guarantee keep its invariant together. -/
theorem invariant_run {system : System C W ι} (invariant : guarantee.invariant system.world)
    (sound : ∀ i, guarantee.SoundFrom (system.party i).handler system.world
      (system.party i).program) (schedule : List (ι × C)) :
    guarantee.invariant (system.run schedule).world :=
  Holds.run ⟨invariant, fun _ => guarantee.refl _,
    fun i => (sound i).mono fun _ _ _ => trivial⟩ schedule

end Guarantee

end Effects
