import TradingControl.Effects.Interleaving

/-!
# Watched pools

A watcher keeps a record of what every program of a pool has done.  Between two operations the
world may also change by itself.  Where the programs issue operations only that their records
allow, an invariant of the world and the records that these operations and the world keep holds
throughout a run.
-/

namespace Effects

variable {S : Signature} {ε α C W ι G E : Type}

/-- How the record of a program moves with an operation that is issued in a world. -/
abbrev Watcher (S : Signature) (C W G : Type) := G → S.Op → C → W → G

/-- One program moves, or the world does by itself. -/
inductive Move (ι C E : Type) where
  | step (i : ι) (choice : C)
  | happen (event : E)

/-- A pool with a record of every program. -/
structure Watched (S : Signature) (ε α W ι G : Type) where
  pool : Pool S ε α W ι
  record : ι → G

namespace Watched

variable [DecidableEq ι]

/-- Operation a program is about to issue. -/
def pending (watched : Watched S ε α W ι G) (i : ι) : Option S.Op := watched.pool.pending i

def move (handler : Handler S ε C W) (watcher : Watcher S C W G) (events : E → W → W)
    (watched : Watched S ε α W ι G) : Move ι C E → Watched S ε α W ι G
  | .step i choice =>
      { pool := watched.pool.advance handler i choice
        record :=
          match watched.pending i with
          | none => watched.record
          | some op =>
              Function.update watched.record i
                (watcher (watched.record i) op choice watched.pool.world) }
  | .happen event =>
      { watched with pool := { watched.pool with world := events event watched.pool.world } }

/-- Follow a schedule. -/
def run (handler : Handler S ε C W) (watcher : Watcher S C W G) (events : E → W → W)
    (watched : Watched S ε α W ι G) (schedule : List (Move ι C E)) : Watched S ε α W ι G :=
  schedule.foldl (move handler watcher events) watched

/-- Terms on a step: the world, the records, who moves, and the operation with its choice. -/
abbrev Terms (S : Signature) (C W ι G : Type) := W → (ι → G) → ι → S.Op → C → Prop

/-- A move is on the terms; what the world does by itself always is. -/
def OnTerms (terms : Terms S C W ι G) (watched : Watched S ε α W ι G) : Move ι C E → Prop
  | .step i choice =>
      ∀ op, watched.pending i = some op → terms watched.pool.world watched.record i op choice
  | .happen _ => True

/-- Every move of the schedule is on the terms in the state it is made in. -/
def Obeys (handler : Handler S ε C W) (watcher : Watcher S C W G) (events : E → W → W)
    (terms : Terms S C W ι G) : Watched S ε α W ι G → List (Move ι C E) → Prop
  | _, [] => True
  | watched, move :: schedule =>
      watched.OnTerms terms move ∧
        Obeys handler watcher events terms (watched.move handler watcher events move) schedule

end Watched

/-- What a record allows its program to do next, and to end with. -/
structure Discipline (S : Signature) (C G : Type) where
  /-- The operation may be issued. -/
  sound : G → S.Op → Prop
  /-- Choices the program relies on. -/
  relies : G → S.Op → C → Prop
  /-- The program may end. -/
  finished : G → Prop

namespace Discipline

variable {handler : Handler S ε C W} {watcher : Watcher S C W G}

/-- The record allows the operation, and the program goes on with the record moved along. -/
def transformer (discipline : Discipline S C G) (handler : Handler S ε C W)
    (watcher : Watcher S C W G) : Transformer S ε G :=
  fun op post record => discipline.sound record op ∧ ∀ choice world,
    discipline.relies record op choice →
      post (handler op choice world).1 (watcher record op choice world)

/-- A program that keeps to its record until it ends. -/
def Follows (discipline : Discipline S C G) (handler : Handler S ε C W) (watcher : Watcher S C W G)
    (program : Program S ε α) (record : G) : Prop :=
  program.wp (discipline.transformer handler watcher) (fun _ after => discipline.finished after)
    record

variable {discipline : Discipline S C G}

theorem Follows.sound {program : Program S ε α} {record : G} {op : S.Op}
    (follows : discipline.Follows handler watcher program record)
    (pending : program.pending = some op) : discipline.sound record op := by
  cases program with
  | ret value => cases pending
  | raise error => cases pending
  | call issued next =>
      obtain rfl := Option.some.inj pending
      exact follows.1

theorem Follows.finished {program : Program S ε α} {record : G}
    (follows : discipline.Follows handler watcher program record)
    (ended : program.pending = none) : discipline.finished record := by
  cases program with
  | ret value => exact follows
  | raise error => exact follows
  | call issued next => cases ended

/-! ## Unrecorded operations -/

/-- The operation may be issued and leaves the record as it is. -/
structure Unrecorded (discipline : Discipline S C G) (watcher : Watcher S C W G) (record : G)
    (op : S.Op) : Prop where
  sound : discipline.sound record op
  same : ∀ choice world, watcher record op choice world = record

theorem wp_of_unrecorded {record : G} {program : Program S ε α}
    (calls : program.Calls (discipline.Unrecorded watcher record)) {post : Except ε α → G → Prop}
    (finish : ∀ outcome, post outcome record) :
    program.wp (discipline.transformer handler watcher) post record := by
  have kept : ∀ op, discipline.Unrecorded watcher record op →
      ∀ (next : Except ε (S.Answer op) → G → Prop) state, state = record →
        (∀ answer state, state = record → next answer state) →
        discipline.transformer handler watcher op next state := by
    rintro op unrecorded next _ rfl continues
    exact ⟨unrecorded.sound, fun choice world _ => continues _ _ (unrecorded.same choice world)⟩
  refine Program.wp_of_calls kept calls rfl ?_
  rintro outcome _ rfl
  exact finish outcome

/-- Step over a program of such operations. -/
theorem wp_bind_unrecorded {β : Type} {record : G} {program : Program S ε α}
    {rest : α → Program S ε β} {post : Except ε β → G → Prop}
    (calls : program.Calls (discipline.Unrecorded watcher record))
    (raised : ∀ error, post (.error error) record)
    (continues : ∀ value, (rest value).wp (discipline.transformer handler watcher) post record) :
    (program.bind rest).wp (discipline.transformer handler watcher) post record := by
  rw [Program.wp_bind]
  refine wp_of_unrecorded calls fun outcome => ?_
  cases outcome with
  | ok value => exact continues value
  | error error => exact raised error

/-- Step over a program of such operations that returns values of one kind only. -/
theorem wp_bind_unrecorded_returns {β : Type} {record : G} {property : α → Prop}
    {program : Program S ε α} {rest : α → Program S ε β} {post : Except ε β → G → Prop}
    (calls : program.Calls (discipline.Unrecorded watcher record))
    (returns : program.Returns property) (raised : ∀ error, post (.error error) record)
    (continues : ∀ value, property value →
      (rest value).wp (discipline.transformer handler watcher) post record) :
    (program.bind rest).wp (discipline.transformer handler watcher) post record := by
  induction program with
  | ret value => exact continues value returns
  | raise error => exact raised error
  | call op next induction =>
      refine ⟨calls.1.sound, fun choice world _ => ?_⟩
      rw [calls.1.same]
      exact induction _ (calls.2 _) (returns _)

/-! ## Runs -/

/-- What every allowed operation and the world by itself keep. -/
structure Kept (discipline : Discipline S C G) (handler : Handler S ε C W)
    (watcher : Watcher S C W G) (events : E → W → W) [DecidableEq ι]
    (terms : Watched.Terms S C W ι G) (invariant : W → (ι → G) → Prop) : Prop where
  relied : ∀ world records i op choice, terms world records i op choice →
    discipline.relies (records i) op choice
  step : ∀ world records i op choice, invariant world records → discipline.sound (records i) op →
    terms world records i op choice →
    invariant (handler op choice world).2
      (Function.update records i (watcher (records i) op choice world))
  happen : ∀ world records event, invariant world records → invariant (events event world) records

/-- All programs follow the discipline, and the invariant holds. -/
structure Holds (discipline : Discipline S C G) (handler : Handler S ε C W)
    (watcher : Watcher S C W G) (invariant : W → (ι → G) → Prop)
    (watched : Watched S ε α W ι G) : Prop where
  programs : ∀ i, discipline.Follows handler watcher (watched.pool.program i) (watched.record i)
  invariant : invariant watched.pool.world watched.record

variable [DecidableEq ι] {events : E → W → W} {terms : Watched.Terms S C W ι G}
  {invariant : W → (ι → G) → Prop} {watched : Watched S ε α W ι G}

theorem Holds.move (kept : discipline.Kept handler watcher events terms invariant)
    (holds : discipline.Holds handler watcher invariant watched) (move : Move ι C E)
    (onTerms : watched.OnTerms terms move) :
    discipline.Holds handler watcher invariant (watched.move handler watcher events move) := by
  cases move with
  | happen event => exact ⟨holds.programs, kept.happen _ _ event holds.invariant⟩
  | step i choice =>
      cases equality : watched.pool.program i with
      | ret value =>
          simpa [Watched.move, Watched.pending, Pool.pending, Program.pending, Pool.advance,
            equality] using holds
      | raise error =>
          simpa [Watched.move, Watched.pending, Pool.pending, Program.pending, Pool.advance,
            equality] using holds
      | call op next =>
          have isPending : watched.pending i = some op := by
            simp [Watched.pending, Pool.pending, equality, Program.pending]
          have met := onTerms op isPending
          have own := holds.programs i
          rw [equality] at own
          constructor
          · intro j
            simp only [Watched.move, isPending, Pool.advance, equality]
            by_cases same : j = i
            · subst same
              rw [Function.update_self, Function.update_self]
              exact own.2 choice watched.pool.world (kept.relied _ _ _ _ _ met)
            · rw [Function.update_of_ne same, Function.update_of_ne same]
              exact holds.programs j
          · simp only [Watched.move, isPending, Pool.advance, equality]
            exact kept.step _ _ _ _ _ holds.invariant own.1 met

theorem Holds.run (kept : discipline.Kept handler watcher events terms invariant)
    (holds : discipline.Holds handler watcher invariant watched) (schedule : List (Move ι C E))
    (obeys : watched.Obeys handler watcher events terms schedule) :
    discipline.Holds handler watcher invariant
      (watched.run handler watcher events schedule) := by
  induction schedule generalizing watched with
  | nil => exact holds
  | cons move schedule induction => exact induction (holds.move kept move obeys.1) obeys.2

end Discipline

end Effects
