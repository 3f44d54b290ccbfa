import Mathlib.Logic.Basic

/-!
# Programs over effectful operations

A program issues operations one at a time and continues with the answer, or with the exception the
operation raised.  Nothing here fixes what an operation does: a handler, a fault model or a
scheduler gives the meaning later, and one program text serves all of them.
-/

namespace Effects

/-- Operations offered to a program, with the type of the normal answer to each. -/
structure Signature where
  /-- Operations a program may issue. -/
  Op : Type
  /-- Normal answer to an operation. -/
  Answer : Op → Type

/-- A terminating program over the operations of `S` that may raise exceptions of type `ε`. -/
inductive Program (S : Signature) (ε α : Type) where
  | ret (value : α)
  | raise (error : ε)
  | call (op : S.Op) (next : Except ε (S.Answer op) → Program S ε α)

namespace Program

variable {S : Signature} {ε α β : Type}

/-- Sequential composition; an exception skips the rest. -/
def bind : Program S ε α → (α → Program S ε β) → Program S ε β
  | .ret value, rest => rest value
  | .raise error, _ => .raise error
  | .call op next, rest => .call op fun answer => (next answer).bind rest

instance : Monad (Program S ε) where
  pure := .ret
  bind := bind

/-- Issue one operation and propagate its exception. -/
def perform (op : S.Op) : Program S ε (S.Answer op) :=
  .call op fun
    | .ok answer => .ret answer
    | .error error => .raise error

/-- Turn the outcome of a program, normal or exceptional, into a value. -/
def attempt : Program S ε α → Program S ε (Except ε α)
  | .ret value => .ret (.ok value)
  | .raise error => .ret (.error error)
  | .call op next => .call op fun answer => (next answer).attempt

/-- Leave a reified outcome: return the value or raise the exception again. -/
def ofExcept : Except ε α → Program S ε α
  | .ok value => .ret value
  | .error error => .raise error

/-- Run `recover` on the exception of `body`. -/
def tryCatch (body : Program S ε α) (recover : ε → Program S ε α) : Program S ε α :=
  body.attempt.bind fun
    | .ok value => .ret value
    | .error error => recover error

/-- Run `cleanup` whether or not `body` raises; an exception of `cleanup` replaces the outcome. -/
def tryFinally (body : Program S ε α) (cleanup : Program S ε Unit) : Program S ε α :=
  body.attempt.bind fun outcome => cleanup.bind fun _ => ofExcept outcome

/-- The operation a program is about to issue, if it has not finished. -/
def pending : Program S ε α → Option S.Op
  | .ret _ => none
  | .raise _ => none
  | .call op _ => some op

/-- Value of a program that has finished normally. -/
def result : Program S ε α → Option α
  | .ret value => some value
  | .raise _ => none
  | .call _ _ => none

theorem eq_ret_of_result {program : Program S ε α} {value : α}
    (finished : program.result = some value) : program = .ret value := by
  cases program with
  | ret held =>
      obtain rfl := Option.some.inj finished
      rfl
  | raise error => cases finished
  | call op next => cases finished

@[simp] theorem pure_eq_ret (value : α) : (pure value : Program S ε α) = .ret value := rfl

@[simp] theorem bind_eq_bind (program : Program S ε α) (rest : α → Program S ε β) :
    program >>= rest = program.bind rest := rfl

@[simp] theorem ret_bind (value : α) (rest : α → Program S ε β) :
    (ret value : Program S ε α).bind rest = rest value := rfl

@[simp] theorem raise_bind (error : ε) (rest : α → Program S ε β) :
    (raise error : Program S ε α).bind rest = .raise error := rfl

theorem bind_assoc {γ : Type} (program : Program S ε α) (middle : α → Program S ε β)
    (rest : β → Program S ε γ) :
    (program.bind middle).bind rest = program.bind fun value => (middle value).bind rest := by
  induction program with
  | ret value => rfl
  | raise error => rfl
  | call op next induction => simp only [bind, induction]

/-! ## Operations a program can reach -/

/-- Every operation the program may ever issue, whatever it is answered, is allowed. -/
def Calls (allowed : S.Op → Prop) : Program S ε α → Prop
  | .ret _ => True
  | .raise _ => True
  | .call op next => allowed op ∧ ∀ answer, (next answer).Calls allowed

variable {allowed : S.Op → Prop}

@[simp] theorem calls_ret (value : α) : (ret value : Program S ε α).Calls allowed := trivial

@[simp] theorem calls_raise (error : ε) : (raise error : Program S ε α).Calls allowed := trivial

theorem calls_bind {program : Program S ε α} {rest : α → Program S ε β}
    (first : program.Calls allowed) (then_ : ∀ value, (rest value).Calls allowed) :
    (program.bind rest).Calls allowed := by
  induction program with
  | ret value => exact then_ value
  | raise error => trivial
  | call op next induction => exact ⟨first.1, fun answer => induction answer (first.2 answer)⟩

theorem calls_perform {op : S.Op} (member : allowed op) :
    (perform op : Program S ε _).Calls allowed :=
  ⟨member, fun answer => by cases answer <;> trivial⟩

theorem calls_attempt {program : Program S ε α} (calls : program.Calls allowed) :
    program.attempt.Calls allowed := by
  induction program with
  | ret value => trivial
  | raise error => trivial
  | call op next induction => exact ⟨calls.1, fun answer => induction answer (calls.2 answer)⟩

theorem calls_ofExcept (outcome : Except ε α) :
    (ofExcept outcome : Program S ε α).Calls allowed := by
  cases outcome <;> trivial

theorem calls_tryFinally {body : Program S ε α} {cleanup : Program S ε Unit}
    (bodyCalls : body.Calls allowed) (cleanupCalls : cleanup.Calls allowed) :
    (body.tryFinally cleanup).Calls allowed :=
  calls_bind (calls_attempt bodyCalls) fun outcome =>
    calls_bind cleanupCalls fun _ => calls_ofExcept outcome

/-! ## Values a program can return -/

/-- Every value the program may return, whatever it is answered, has the property. -/
def Returns (property : α → Prop) : Program S ε α → Prop
  | .ret value => property value
  | .raise _ => True
  | .call _ next => ∀ answer, (next answer).Returns property

theorem returns_bind {property : α → Prop} {result : β → Prop} {program : Program S ε α}
    {rest : α → Program S ε β} (first : program.Returns property)
    (then_ : ∀ value, property value → (rest value).Returns result) :
    (program.bind rest).Returns result := by
  induction program with
  | ret value => exact then_ value first
  | raise error => trivial
  | call op next induction => exact fun answer => induction answer (first answer)

/-- The first part may return anything. -/
theorem returns_bind_any {result : β → Prop} {program : Program S ε α}
    {rest : α → Program S ε β} (then_ : ∀ value, (rest value).Returns result) :
    (program.bind rest).Returns result := by
  induction program with
  | ret value => exact then_ value
  | raise error => trivial
  | call op next induction => exact fun answer => induction answer

theorem Calls.mono {larger : S.Op → Prop} {program : Program S ε α}
    (calls : program.Calls allowed) (weaken : ∀ op, allowed op → larger op) :
    program.Calls larger := by
  induction program with
  | ret value => trivial
  | raise error => trivial
  | call op next induction =>
      exact ⟨weaken op calls.1, fun answer => induction answer (calls.2 answer)⟩

/-! ## Programs that succeed while they are answered -/

/-- While every operation is answered normally, only allowed ones are issued, nothing is raised, and
the value returned has the property. -/
def Succeeds (allowed : S.Op → Prop) (property : α → Prop) : Program S ε α → Prop
  | .ret value => property value
  | .raise _ => False
  | .call op next => allowed op ∧ ∀ answer, (next (.ok answer)).Succeeds allowed property

theorem succeeds_perform {op : S.Op} (member : allowed op) :
    (perform op : Program S ε _).Succeeds allowed fun _ => True :=
  ⟨member, fun _ => trivial⟩

theorem succeeds_bind {property : α → Prop} {result : β → Prop} {program : Program S ε α}
    {rest : α → Program S ε β} (first : program.Succeeds allowed property)
    (then_ : ∀ value, property value → (rest value).Succeeds allowed result) :
    (program.bind rest).Succeeds allowed result := by
  induction program with
  | ret value => exact then_ value first
  | raise error => exact first.elim
  | call op next induction => exact ⟨first.1, fun answer => induction _ (first.2 answer)⟩

end Program

end Effects

/-!
# Handlers, runs and weakest preconditions

A handler answers one operation from the world and from a choice made by the environment, which
covers everything the world does not determine: faults, random draws, clocks.  A run feeds a
program one choice per operation.  The weakest precondition of a program is taken over any
per-operation predicate transformer, so the sequential reading below and the interleaved reading
share one set of rules.
-/

namespace Effects

/-- Answer one operation in a world under a choice of the environment. -/
abbrev Handler (S : Signature) (ε C W : Type) :=
  (op : S.Op) → C → W → Except ε (S.Answer op) × W

/-- What one operation guarantees about its answer and the state after it. -/
abbrev Transformer (S : Signature) (ε L : Type) :=
  (op : S.Op) → (Except ε (S.Answer op) → L → Prop) → L → Prop

namespace Program

variable {S : Signature} {ε α β C W L : Type}

/-- Run a program to its end, one choice of the environment for each operation. -/
def exec (handler : Handler S ε C W) : Program S ε α → (Nat → C) → W → Except ε α × W
  | .ret value, _, world => (.ok value, world)
  | .raise error, _, world => (.error error, world)
  | .call op next, choices, world =>
      (next (handler op (choices 0) world).1).exec handler (fun n => choices (n + 1))
        (handler op (choices 0) world).2

/-- Number of operations a run issues. -/
def steps (handler : Handler S ε C W) : Program S ε α → (Nat → C) → W → Nat
  | .ret _, _, _ => 0
  | .raise _, _, _ => 0
  | .call op next, choices, world =>
      (next (handler op (choices 0) world).1).steps handler (fun n => choices (n + 1))
        (handler op (choices 0) world).2 + 1

/-- A run of a composition continues with the choices its first part has left over. -/
theorem exec_bind (handler : Handler S ε C W) (program : Program S ε α)
    (rest : α → Program S ε β) (choices : Nat → C) (world : W) :
    (program.bind rest).exec handler choices world =
      match program.exec handler choices world with
      | (.ok value, after) =>
          (rest value).exec handler (fun n => choices (n + program.steps handler choices world)) after
      | (.error error, after) => (.error error, after) := by
  induction program generalizing choices world with
  | ret value => rfl
  | raise error => rfl
  | call op next induction => exact induction _ _ _

/-- A run of a composition whose first part returns. -/
theorem exec_bind_of_ok {handler : Handler S ε C W} {program : Program S ε α} {choices : Nat → C}
    {world after : W} {value : α} (returned : program.exec handler choices world = (.ok value, after))
    (rest : α → Program S ε β) :
    (program.bind rest).exec handler choices world =
      (rest value).exec handler (fun n => choices (n + program.steps handler choices world))
        after := by
  rw [exec_bind, returned]

/-- A run of a composition returns exactly when both of its parts do. -/
theorem exec_bind_eq_ok {handler : Handler S ε C W} {program : Program S ε α}
    {rest : α → Program S ε β} {choices : Nat → C} {world : W} {result : β} :
    ((program.bind rest).exec handler choices world).1 = .ok result ↔
      ∃ value, (program.exec handler choices world).1 = .ok value ∧
        ((rest value).exec handler (fun n => choices (n + program.steps handler choices world))
          (program.exec handler choices world).2).1 = .ok result := by
  rw [exec_bind]
  rcases program.exec handler choices world with ⟨outcome, after⟩
  cases outcome with
  | ok value => simp
  | error error => simp

theorem exec_perform (handler : Handler S ε C W) (op : S.Op) (choices : Nat → C) (world : W) :
    (perform op : Program S ε _).exec handler choices world = handler op (choices 0) world := by
  simp only [perform, exec]
  rcases handler op (choices 0) world with ⟨answer, after⟩
  cases answer with
  | ok value => rfl
  | error error => rfl

/-- A run that starts with one operation. -/
theorem exec_perform_bind (handler : Handler S ε C W) (op : S.Op) (rest : S.Answer op → Program S ε α)
    (choices : Nat → C) (world : W) :
    ((perform op).bind rest).exec handler choices world =
      match (handler op (choices 0) world).1 with
      | .ok answer =>
          (rest answer).exec handler (fun n => choices (n + 1)) (handler op (choices 0) world).2
      | .error error => (.error error, (handler op (choices 0) world).2) := by
  simp only [perform, bind, exec]
  cases (handler op (choices 0) world).1 with
  | ok answer => rfl
  | error error => rfl

@[simp] theorem steps_perform (handler : Handler S ε C W) (op : S.Op) (choices : Nat → C)
    (world : W) : (perform op : Program S ε _).steps handler choices world = 1 := by
  simp only [perform, steps]
  rcases handler op (choices 0) world with ⟨answer, after⟩
  cases answer with
  | ok value => rfl
  | error error => rfl

theorem exec_attempt (handler : Handler S ε C W) (program : Program S ε α) (choices : Nat → C)
    (world : W) : program.attempt.exec handler choices world =
      (.ok (program.exec handler choices world).1, (program.exec handler choices world).2) := by
  induction program generalizing choices world with
  | ret value => rfl
  | raise error => rfl
  | call op next induction => exact induction _ _ _

theorem steps_attempt (handler : Handler S ε C W) (program : Program S ε α) (choices : Nat → C)
    (world : W) :
    program.attempt.steps handler choices world = program.steps handler choices world := by
  induction program generalizing choices world with
  | ret value => rfl
  | raise error => rfl
  | call op next induction => exact congrArg (· + 1) (induction _ _ _)

theorem steps_bind (handler : Handler S ε C W) (program : Program S ε α)
    (rest : α → Program S ε β) (choices : Nat → C) (world : W) :
    (program.bind rest).steps handler choices world =
      program.steps handler choices world +
        match program.exec handler choices world with
        | (.ok value, after) =>
            (rest value).steps handler
              (fun n => choices (n + program.steps handler choices world)) after
        | (.error _, _) => 0 := by
  induction program generalizing choices world with
  | ret value => exact (Nat.zero_add _).symm
  | raise error => rfl
  | call op next induction =>
      simp only [bind, steps, exec, induction]
      rw [Nat.add_right_comm]
      rfl

/-! ## Weakest preconditions -/

/-- Fold the operations' guarantees over a program. -/
def wp (T : Transformer S ε L) : Program S ε α → (Except ε α → L → Prop) → L → Prop
  | .ret value, post => post (.ok value)
  | .raise error, post => post (.error error)
  | .call op next, post => T op fun answer => (next answer).wp T post

variable (T : Transformer S ε L)

@[simp] theorem wp_ret (value : α) (post : Except ε α → L → Prop) (state : L) :
    (ret value : Program S ε α).wp T post state ↔ post (.ok value) state := Iff.rfl

@[simp] theorem wp_raise (error : ε) (post : Except ε α → L → Prop) (state : L) :
    (raise error : Program S ε α).wp T post state ↔ post (.error error) state := Iff.rfl

/-- Postcondition that continues normally with `next` and passes exceptions on to `post`. -/
def andThen (next : α → L → Prop) (post : ε → L → Prop) : Except ε α → L → Prop
  | .ok value => next value
  | .error error => post error

@[simp] theorem andThen_ok (next : α → L → Prop) (post : ε → L → Prop) (value : α) (state : L) :
    andThen next post (.ok value) state ↔ next value state := Iff.rfl

@[simp] theorem andThen_error (next : α → L → Prop) (post : ε → L → Prop) (error : ε)
    (state : L) : andThen next post (.error error) state ↔ post error state := Iff.rfl

theorem wp_bind (program : Program S ε α) (rest : α → Program S ε β)
    (post : Except ε β → L → Prop) :
    (program.bind rest).wp T post =
      program.wp T
        (andThen (fun value => (rest value).wp T post) fun error => post (.error error)) := by
  induction program with
  | ret value => rfl
  | raise error => rfl
  | call op next induction =>
      simp only [bind, wp]
      exact congrArg (T op) (funext induction)

theorem wp_attempt (program : Program S ε α) (post : Except ε (Except ε α) → L → Prop) :
    program.attempt.wp T post = program.wp T fun outcome => post (.ok outcome) := by
  induction program with
  | ret value => rfl
  | raise error => rfl
  | call op next induction =>
      simp only [attempt, wp]
      exact congrArg (T op) (funext induction)

theorem wp_perform (op : S.Op) (post : Except ε (S.Answer op) → L → Prop) :
    (perform op : Program S ε _).wp T post = T op post := by
  simp only [perform, wp]
  congr 1
  funext answer
  cases answer <;> rfl

@[simp] theorem wp_ofExcept (outcome : Except ε α) (post : Except ε α → L → Prop) :
    (ofExcept outcome : Program S ε α).wp T post = post outcome := by
  cases outcome <;> rfl

theorem wp_tryCatch (body : Program S ε α) (recover : ε → Program S ε α)
    (post : Except ε α → L → Prop) :
    (body.tryCatch recover).wp T post =
      body.wp T (andThen (fun value => post (.ok value)) fun error => (recover error).wp T post) := by
  rw [tryCatch, wp_bind, wp_attempt]
  congr 1
  funext outcome
  cases outcome <;> rfl

theorem wp_tryFinally (body : Program S ε α) (cleanup : Program S ε Unit)
    (post : Except ε α → L → Prop) :
    (body.tryFinally cleanup).wp T post =
      body.wp T fun outcome =>
        cleanup.wp T (andThen (fun _ => post outcome) fun error => post (.error error)) := by
  rw [tryFinally, wp_bind, wp_attempt]
  congr 1
  funext outcome
  simp only [andThen, wp_bind, wp_ofExcept]

/-- The guarantee of every operation is monotone in the continuation. -/
def Monotone : Prop :=
  ∀ op (weak strong : Except ε (S.Answer op) → L → Prop) (state : L),
    (∀ answer state, strong answer state → weak answer state) →
      T op strong state → T op weak state

variable {T}

theorem wp_mono (monotone : Monotone T) {program : Program S ε α}
    {strong weak : Except ε α → L → Prop} {state : L}
    (weaken : ∀ outcome state, strong outcome state → weak outcome state)
    (holds : program.wp T strong state) : program.wp T weak state := by
  induction program generalizing state with
  | ret value => exact weaken _ _ holds
  | raise error => exact weaken _ _ holds
  | call op next induction =>
      exact monotone op _ _ state (fun answer state inner => induction answer inner) holds

/-- Frame rule: a program whose operations all keep `frame` keeps it. -/
theorem wp_of_calls {allowed : S.Op → Prop} {frame : L → Prop}
    (kept : ∀ op, allowed op → ∀ (post : Except ε (S.Answer op) → L → Prop) state, frame state →
      (∀ answer state, frame state → post answer state) → T op post state)
    {program : Program S ε α} (calls : program.Calls allowed) {post : Except ε α → L → Prop}
    {state : L} (start : frame state) (finish : ∀ outcome state, frame state → post outcome state) :
    program.wp T post state := by
  induction program generalizing state with
  | ret value => exact finish _ _ start
  | raise error => exact finish _ _ start
  | call op next induction =>
      exact kept op calls.1 _ state start fun answer state framed =>
        induction answer (calls.2 answer) framed

end Program

/-! ## The sequential reading -/

namespace Handler

variable {S : Signature} {ε α C W : Type}

/-- Every choice the environment is allowed to make leads on to the continuation. -/
def demonic (handler : Handler S ε C W) (allowed : C → Prop) : Transformer S ε W :=
  fun op post world => ∀ choice, allowed choice →
    post (handler op choice world).1 (handler op choice world).2

theorem demonic_monotone (handler : Handler S ε C W) (allowed : C → Prop) :
    Program.Monotone (handler.demonic allowed) :=
  fun _ _ _ _ weaken holds choice permitted => weaken _ _ (holds choice permitted)

/-- A weakest precondition speaks about every run with allowed choices. -/
theorem exec_of_wp {handler : Handler S ε C W} {allowed : C → Prop} {program : Program S ε α}
    {post : Except ε α → W → Prop} {world : W}
    (holds : program.wp (handler.demonic allowed) post world)
    (choices : Nat → C) (permitted : ∀ n, allowed (choices n)) :
    post (program.exec handler choices world).1 (program.exec handler choices world).2 := by
  induction program generalizing choices world with
  | ret value => exact holds
  | raise error => exact holds
  | call op next induction =>
      exact induction _ (holds (choices 0) (permitted 0)) _ fun n => permitted (n + 1)

/-- Frame rule for runs: operations that all keep `frame` keep it together. -/
theorem exec_of_calls {handler : Handler S ε C W} {allowed : S.Op → Prop} {frame : W → Prop}
    (kept : ∀ op, allowed op → ∀ choice world, frame world → frame (handler op choice world).2)
    {program : Program S ε α} (calls : program.Calls allowed) (choices : Nat → C) {world : W}
    (start : frame world) : frame (program.exec handler choices world).2 := by
  induction program generalizing choices world with
  | ret value => exact start
  | raise error => exact start
  | call op next induction =>
      exact induction _ (calls.2 _) _ (kept op calls.1 (choices 0) world start)

/-- A frame that every operation keeps is kept by every program. -/
theorem wp_of_kept {handler : Handler S ε C W} {allowed : C → Prop} {frame : W → Prop}
    (kept : ∀ op choice world, frame world → frame (handler op choice world).2)
    (program : Program S ε α) {world : W} (start : frame world) :
    program.wp (handler.demonic allowed) (fun _ world => frame world) world := by
  induction program generalizing world with
  | ret value => exact start
  | raise error => exact start
  | call op next induction =>
      exact fun choice _ => induction _ (kept op choice world start)

theorem wp_of_returns {handler : Handler S ε C W} {allowed : C → Prop} {property : α → Prop}
    {program : Program S ε α} (returns : program.Returns property) (world : W) :
    program.wp (handler.demonic allowed)
      (fun outcome _ => ∀ value, outcome = .ok value → property value) world := by
  induction program generalizing world with
  | ret value =>
      rintro _ ⟨⟩
      exact returns
  | raise error =>
      rintro _ ⟨⟩
  | call op next induction => exact fun choice _ => induction _ (returns _) _

/-- What the first operation brings about and every operation keeps holds in the end. -/
theorem wp_of_first {handler : Handler S ε C W} {allowed : C → Prop} {before frame : W → Prop}
    (kept : ∀ op choice world, frame world → frame (handler op choice world).2)
    {program : Program S ε α} {op : S.Op} (first : program.pending = some op)
    (reached : ∀ choice world, before world → frame (handler op choice world).2) {world : W}
    (start : before world) :
    program.wp (handler.demonic allowed) (fun _ world => frame world) world := by
  cases program with
  | ret value => cases first
  | raise error => cases first
  | call issued next =>
      obtain rfl := Option.some.inj first
      exact fun choice _ => wp_of_kept kept _ (reached choice world start)

end Handler

end Effects
