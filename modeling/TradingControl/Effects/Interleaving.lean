import Mathlib.Algebra.BigOperators.Group.Finset.Piecewise
import Mathlib.Logic.Function.Basic
import TradingControl.Effects.Execution

/-!
# Interleaved programs

A pool of programs shares one world; a schedule says which program issues its pending operation
next and with which choice of the environment.  A protocol attaches a ghost state to every program
and an invariant to the world and the ghost states.  A program that moves its ghost state along
with each of its operations keeps the invariant whatever the other programs do in between.
-/

namespace Effects

variable {S : Signature} {ε α C W ι G : Type}

/-- Programs that share a world. -/
structure Pool (S : Signature) (ε α W ι : Type) where
  /-- State shared by the programs. -/
  world : W
  /-- What is left to run of each program. -/
  program : ι → Program S ε α

namespace Pool

variable [DecidableEq ι]

/-- Operation each program is about to issue. -/
def pending (pool : Pool S ε α W ι) (i : ι) : Option S.Op := (pool.program i).pending

/-- Let one program issue its pending operation; a finished program does nothing. -/
def advance (handler : Handler S ε C W) (pool : Pool S ε α W ι) (i : ι) (choice : C) :
    Pool S ε α W ι :=
  match pool.program i with
  | .ret _ => pool
  | .raise _ => pool
  | .call op next =>
      { world := (handler op choice pool.world).2
        program := Function.update pool.program i (next (handler op choice pool.world).1) }

/-- Follow a schedule. -/
def run (handler : Handler S ε C W) (pool : Pool S ε α W ι) (schedule : List (ι × C)) :
    Pool S ε α W ι :=
  schedule.foldl (fun pool entry => pool.advance handler entry.1 entry.2) pool

@[simp] theorem run_nil (handler : Handler S ε C W) (pool : Pool S ε α W ι) :
    pool.run handler [] = pool := rfl

@[simp] theorem run_cons (handler : Handler S ε C W) (pool : Pool S ε α W ι) (entry : ι × C)
    (schedule : List (ι × C)) :
    pool.run handler (entry :: schedule) =
      (pool.advance handler entry.1 entry.2).run handler schedule := rfl

/-- Condition on one step: the world, the pending operations, who moves and with which choice. -/
abbrev Condition (S : Signature) (C W ι : Type) := W → (ι → Option S.Op) → ι → C → Prop

/-- Every step of the schedule meets the condition in the state it is taken in. -/
def Obeys (handler : Handler S ε C W) (condition : Condition S C W ι) :
    Pool S ε α W ι → List (ι × C) → Prop
  | _, [] => True
  | pool, entry :: schedule =>
      condition pool.world pool.pending entry.1 entry.2 ∧
        Obeys handler condition (pool.advance handler entry.1 entry.2) schedule

theorem Obeys.of_append {handler : Handler S ε C W} {condition : Condition S C W ι}
    {pool : Pool S ε α W ι} {schedule later : List (ι × C)}
    (obeys : pool.Obeys handler condition (schedule ++ later)) :
    pool.Obeys handler condition schedule := by
  induction schedule generalizing pool with
  | nil => trivial
  | cons entry schedule induction => exact ⟨obeys.1, induction obeys.2⟩

instance decidableObeys (handler : Handler S ε C W) (condition : Condition S C W ι)
    [∀ world pending i choice, Decidable (condition world pending i choice)] :
    (pool : Pool S ε α W ι) → (schedule : List (ι × C)) →
      Decidable (pool.Obeys handler condition schedule)
  | _, [] => .isTrue trivial
  | pool, entry :: schedule =>
      have := decidableObeys handler condition (pool.advance handler entry.1 entry.2) schedule
      inferInstanceAs (Decidable (_ ∧ _))

end Pool

/-- Ghost states for the programs of a pool, an invariant, and what a ghost state says about the
operation its program is about to issue. -/
structure Protocol (S : Signature) (W ι G : Type) where
  /-- Relation between the world and everybody's ghost state. -/
  invariant : W → (ι → G) → Prop
  /-- Ghost states a program may have in front of an operation, or when it has finished. -/
  matches_ : G → Option S.Op → Prop

namespace Protocol

variable [DecidableEq ι]

/-- Guarantee of one operation of program `i`: from any invariant state that the condition lets it
move in, it reaches an invariant state by changing its own ghost state only. -/
def transformer (protocol : Protocol S W ι G) (handler : Handler S ε C W)
    (condition : Pool.Condition S C W ι) (i : ι) : Transformer S ε G :=
  fun op post ghost => protocol.matches_ ghost (some op) ∧
    ∀ world ghosts pending choice, protocol.invariant world ghosts → ghosts i = ghost →
      pending i = some op → (∀ j, protocol.matches_ (ghosts j) (pending j)) →
      condition world pending i choice →
      ∃ ghost', protocol.invariant (handler op choice world).2 (Function.update ghosts i ghost') ∧
        post (handler op choice world).1 ghost'

theorem transformer_monotone (protocol : Protocol S W ι G) (handler : Handler S ε C W)
    (condition : Pool.Condition S C W ι) (i : ι) :
    Program.Monotone (protocol.transformer handler condition i) := by
  rintro op weak strong ghost weaken ⟨matched, step⟩
  refine ⟨matched, fun world ghosts pending choice inv own isPending others permitted => ?_⟩
  obtain ⟨ghost', inv', holds⟩ :=
    step world ghosts pending choice inv own isPending others permitted
  exact ⟨ghost', inv', weaken _ _ holds⟩

/-- The pool keeps the protocol with the given ghost states. -/
structure Holds (protocol : Protocol S W ι G) (handler : Handler S ε C W)
    (condition : Pool.Condition S C W ι) (post : ι → Except ε α → G → Prop)
    (pool : Pool S ε α W ι) (ghosts : ι → G) : Prop where
  invariant : protocol.invariant pool.world ghosts
  programs : ∀ i, (pool.program i).wp (protocol.transformer handler condition i) (post i) (ghosts i)

variable {protocol : Protocol S W ι G} {handler : Handler S ε C W}
  {condition : Pool.Condition S C W ι} {post : ι → Except ε α → G → Prop}

theorem Holds.matches_pending {pool : Pool S ε α W ι} {ghosts : ι → G}
    (finished : ∀ i outcome ghost, post i outcome ghost → protocol.matches_ ghost none)
    (holds : protocol.Holds handler condition post pool ghosts) (i : ι) :
    protocol.matches_ (ghosts i) (pool.pending i) := by
  have own := holds.programs i
  rw [Pool.pending]
  cases equality : pool.program i with
  | ret value => exact finished i _ _ (by simpa [equality] using own)
  | raise error => exact finished i _ _ (by simpa [equality] using own)
  | call op next =>
      rw [equality] at own
      exact own.1

theorem Holds.advance {pool : Pool S ε α W ι} {ghosts : ι → G}
    (finished : ∀ i outcome ghost, post i outcome ghost → protocol.matches_ ghost none)
    (holds : protocol.Holds handler condition post pool ghosts) (i : ι) (choice : C)
    (permitted : condition pool.world pool.pending i choice) :
    ∃ ghosts', protocol.Holds handler condition post (pool.advance handler i choice) ghosts' := by
  have others := holds.matches_pending finished
  cases equality : pool.program i with
  | ret value => exact ⟨ghosts, by simpa [Pool.advance, equality] using holds⟩
  | raise error => exact ⟨ghosts, by simpa [Pool.advance, equality] using holds⟩
  | call op next =>
      have own := holds.programs i
      rw [equality] at own
      have isPending : pool.pending i = some op := by simp [Pool.pending, equality, Program.pending]
      obtain ⟨ghost', invariant, rest⟩ :=
        own.2 pool.world ghosts pool.pending choice holds.invariant rfl isPending others permitted
      refine ⟨Function.update ghosts i ghost', ?_, fun j => ?_⟩
      · simpa only [Pool.advance, equality] using invariant
      · by_cases same : j = i
        · subst same
          simpa only [Pool.advance, equality, Function.update_self] using rest
        · simpa only [Pool.advance, equality, Function.update_of_ne same] using holds.programs j

/-- A schedule whose steps all meet the condition keeps the protocol. -/
theorem Holds.run {pool : Pool S ε α W ι} {ghosts : ι → G}
    (finished : ∀ i outcome ghost, post i outcome ghost → protocol.matches_ ghost none)
    (holds : protocol.Holds handler condition post pool ghosts) (schedule : List (ι × C))
    (obeys : pool.Obeys handler condition schedule) :
    ∃ ghosts', protocol.Holds handler condition post (pool.run handler schedule) ghosts' := by
  induction schedule generalizing pool ghosts with
  | nil => exact ⟨ghosts, holds⟩
  | cons entry schedule induction =>
      obtain ⟨ghosts', advanced⟩ := holds.advance finished entry.1 entry.2 obeys.1
      exact induction advanced obeys.2

/-- A finished program of the pool satisfies its postcondition. -/
theorem Holds.outcome {pool : Pool S ε α W ι} {ghosts : ι → G}
    (holds : protocol.Holds handler condition post pool ghosts) {i : ι} {value : α}
    (done : pool.program i = .ret value) : post i (.ok value) (ghosts i) := by
  simpa [done] using holds.programs i

/-- A sum over the ghost states moves by what the state of one program moves. -/
theorem sum_update_add {M : Type} [AddCommMonoid M] [Fintype ι] (value : G → M) (ghosts : ι → G)
    (i : ι) (ghost : G) :
    ∑ j, value (Function.update ghosts i ghost j) + value (ghosts i) =
      ∑ j, value (ghosts j) + value ghost := by
  have moved : ∀ j, value (Function.update ghosts i ghost j) =
      Function.update (fun j => value (ghosts j)) i (value ghost) j := by
    intro j
    by_cases same : j = i
    · subst same
      simp
    · simp [same]
  simp only [moved]
  rw [Finset.sum_update_of_mem (Finset.mem_univ i),
    ← Finset.add_sum_erase _ (fun j => value (ghosts j)) (Finset.mem_univ i),
    Finset.sdiff_singleton_eq_erase]
  ac_rfl

/-! ## Stable operations -/

/-- An operation that, under its program's ghost state, always keeps the invariant. -/
structure Stable (protocol : Protocol S W ι G) (handler : Handler S ε C W) (i : ι) (ghost : G)
    (op : S.Op) : Prop where
  matched : protocol.matches_ ghost (some op)
  kept : ∀ world ghosts choice, protocol.invariant world ghosts → ghosts i = ghost →
    protocol.invariant (handler op choice world).2 ghosts

theorem Stable.transformer {i : ι} {op : S.Op} {ghost : G}
    {next : Except ε (S.Answer op) → G → Prop} (stable : protocol.Stable handler i ghost op)
    (continues : ∀ answer, next answer ghost) :
    protocol.transformer handler condition i op next ghost := by
  refine ⟨stable.matched, fun world ghosts _ choice inv own _ _ _ => ⟨ghost, ?_, continues _⟩⟩
  have unchanged : Function.update ghosts i ghost = ghosts := by rw [← own, Function.update_eq_self]
  rw [unchanged]
  exact stable.kept world ghosts choice inv own

/-- A program of stable operations keeps its ghost state. -/
theorem wp_of_stable {i : ι} {ghost : G} {program : Program S ε α}
    {finish : Except ε α → G → Prop} (calls : program.Calls (protocol.Stable handler i ghost))
    (finished : ∀ outcome, finish outcome ghost) :
    program.wp (protocol.transformer handler condition i) finish ghost := by
  have kept : ∀ op, protocol.Stable handler i ghost op →
      ∀ (next : Except ε (S.Answer op) → G → Prop) state, state = ghost →
        (∀ answer state, state = ghost → next answer state) →
        protocol.transformer handler condition i op next state := by
    rintro op stable next _ rfl continues
    exact stable.transformer fun answer => continues answer _ rfl
  refine Program.wp_of_calls kept calls rfl ?_
  rintro outcome _ rfl
  exact finished outcome

/-- Step over a program of stable operations that returns values of one kind only. -/
theorem wp_bind_stable_returns {β : Type} {i : ι} {ghost : G} {property : α → Prop}
    {program : Program S ε α} {rest : α → Program S ε β} {finish : Except ε β → G → Prop}
    (calls : program.Calls (protocol.Stable handler i ghost)) (returns : program.Returns property)
    (raised : ∀ error, finish (.error error) ghost)
    (continues : ∀ value, property value →
      (rest value).wp (protocol.transformer handler condition i) finish ghost) :
    (program.bind rest).wp (protocol.transformer handler condition i) finish ghost := by
  induction program with
  | ret value => exact continues value returns
  | raise error => exact raised error
  | call op next induction =>
      exact calls.1.transformer fun answer => induction answer (calls.2 answer) (returns answer)

theorem wp_bind_stable {β : Type} {i : ι} {ghost : G} {program : Program S ε α}
    {rest : α → Program S ε β} {finish : Except ε β → G → Prop}
    (calls : program.Calls (protocol.Stable handler i ghost))
    (raised : ∀ error, finish (.error error) ghost)
    (continues : ∀ value,
      (rest value).wp (protocol.transformer handler condition i) finish ghost) :
    (program.bind rest).wp (protocol.transformer handler condition i) finish ghost := by
  rw [Program.wp_bind]
  refine wp_of_stable calls fun outcome => ?_
  cases outcome with
  | ok value => exact continues value
  | error error => exact raised error

/-! ## Answered operations -/

/-- A stable operation that the condition keeps from failing. -/
structure Answered (protocol : Protocol S W ι G) (handler : Handler S ε C W)
    (condition : Pool.Condition S C W ι) (i : ι) (ghost : G) (op : S.Op) : Prop
    extends protocol.Stable handler i ghost op where
  answered : ∀ world ghosts pending choice, protocol.invariant world ghosts → ghosts i = ghost →
    pending i = some op → condition world pending i choice →
    ∃ answer, (handler op choice world).1 = .ok answer

/-- Step over a program that succeeds on answered operations. -/
theorem wp_bind_succeeds {β : Type} {i : ι} {ghost : G} {property : α → Prop}
    {program : Program S ε α} {rest : α → Program S ε β} {finish : Except ε β → G → Prop}
    (succeeds : program.Succeeds (protocol.Answered handler condition i ghost) property)
    (continues : ∀ value, property value →
      (rest value).wp (protocol.transformer handler condition i) finish ghost) :
    (program.bind rest).wp (protocol.transformer handler condition i) finish ghost := by
  induction program with
  | ret value => exact continues value succeeds
  | raise error => exact succeeds.elim
  | call op next induction =>
      obtain ⟨answered, rest⟩ := succeeds
      refine ⟨answered.matched, fun world ghosts pending choice inv own isPending _ permitted =>
        ⟨ghost, ?_, ?_⟩⟩
      · rw [← own, Function.update_eq_self]
        exact answered.kept world ghosts choice inv own
      · obtain ⟨answer, equality⟩ :=
          answered.answered world ghosts pending choice inv own isPending permitted
        rw [equality]
        exact induction _ (rest answer)

end Protocol

end Effects
