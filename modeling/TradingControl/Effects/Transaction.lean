import TradingControl.Effects.Execution

/-!
# Transactions

A transaction works on a copy of the tables and publishes it when it commits.  A statement that
fails aborts it: it takes no more statements, and it cannot commit.  A commit may fail after it has
been applied.
-/

namespace Effects

/-! ## Worlds of a run -/

namespace Program

variable {S : Signature} {ε α β C W : Type}

/-- The worlds after each operation of a run. -/
def visits (handler : Handler S ε C W) : Program S ε α → (Nat → C) → W → List W
  | .ret _, _, _ => []
  | .raise _, _, _ => []
  | .call op next, choices, world =>
      (handler op (choices 0) world).2 ::
        (next (handler op (choices 0) world).1).visits handler (fun n => choices (n + 1))
          (handler op (choices 0) world).2

theorem visits_bind (handler : Handler S ε C W) (program : Program S ε α)
    (rest : α → Program S ε β) (choices : Nat → C) (world : W) :
    (program.bind rest).visits handler choices world =
      program.visits handler choices world ++
        match program.exec handler choices world with
        | (.ok value, after) =>
            (rest value).visits handler
              (fun n => choices (n + program.steps handler choices world)) after
        | (.error _, _) => [] := by
  induction program generalizing choices world with
  | ret value => rfl
  | raise error => rfl
  | call op next induction => exact congrArg (_ :: ·) (induction _ _ _)

theorem visits_attempt (handler : Handler S ε C W) (program : Program S ε α)
    (choices : Nat → C) (world : W) :
    program.attempt.visits handler choices world = program.visits handler choices world := by
  induction program generalizing choices world with
  | ret value => rfl
  | raise error => rfl
  | call op next induction => exact congrArg (_ :: ·) (induction _ _ _)

theorem visits_perform (handler : Handler S ε C W) (op : S.Op) (choices : Nat → C) (world : W) :
    (perform op : Program S ε _).visits handler choices world =
      [(handler op (choices 0) world).2] := by
  simp only [perform, visits]
  cases (handler op (choices 0) world).1 <;> rfl

end Program

/-! ## Transactions over any statements -/

/-- Statements with the types of their answers, and what they do to a copy of the tables. -/
structure Dialect (Q : Type) (A : Q → Type) (ε C T : Type) where
  run : (query : Q) → C → T → Except ε (A query × T)
  /-- The error of a statement in an aborted transaction. -/
  aborted : ε
  /-- How a commit fails, if it does, and whether it has been applied. -/
  commitFailure : C → Option (ε × Bool)

inductive TransactionOp (Q : Type) where
  | begin
  | statement (query : Q)
  | commit
  | rollback

abbrev TransactionOp.Answer {Q : Type} (A : Q → Type) : TransactionOp Q → Type
  | .statement query => A query
  | _ => Unit

abbrev transactionSignature {Q : Type} (A : Q → Type) : Signature where
  Op := TransactionOp Q
  Answer := TransactionOp.Answer A

/-- The tables, and the copy of an open transaction that is not aborted. -/
structure Transacted (T : Type) where
  durable : T
  working : Option T := none

variable {Q : Type} {A : Q → Type} {ε C T α β : Type}

def statement (query : Q) : Program (transactionSignature A) ε (A query) :=
  Program.perform (S := transactionSignature A) (.statement query)

/-- A transaction ends with a commit if its body has returned, and is rolled back otherwise. -/
def conclude : Except ε α → Program (transactionSignature A) ε α
  | .ok value => (Program.perform (S := transactionSignature A) .commit).bind fun _ => .ret value
  | .error error =>
      (Program.perform (S := transactionSignature A) .rollback).bind fun _ => .raise error

/-- `async with session.begin()`. -/
def transaction (body : Program (transactionSignature A) ε α) :
    Program (transactionSignature A) ε α :=
  (Program.perform (S := transactionSignature A) .begin).bind fun _ =>
    body.attempt.bind conclude

/-- The program issues statements only, whatever it is answered. -/
abbrev StatementsOnly (body : Program (transactionSignature A) ε α) : Prop :=
  body.Calls fun op => ∃ query, op = TransactionOp.statement query

theorem statementsOnly_statement (query : Q) :
    StatementsOnly (statement query : Program (transactionSignature A) ε (A query)) :=
  Program.calls_perform ⟨query, rfl⟩

namespace Dialect

variable (dialect : Dialect Q A ε C T)

/-- A statement on the copy of a transaction. -/
def execute (query : Q) (choice : C) : Option T → Except ε (A query) × Option T
  | none => (.error dialect.aborted, none)
  | some tables =>
      match dialect.run query choice tables with
      | .ok (answer, after) => (.ok answer, some after)
      | .error error => (.error error, none)

def handler : Handler (transactionSignature A) ε C (Transacted T)
  | .begin, _, world => (.ok (), { world with working := some world.durable })
  | .statement query, choice, world =>
      ((dialect.execute query choice world.working).1,
        { world with working := (dialect.execute query choice world.working).2 })
  | .commit, choice, world =>
      match world.working with
      | none => (.error dialect.aborted, world)
      | some tables =>
          match dialect.commitFailure choice with
          | none => (.ok (), { durable := tables })
          | some (error, applied) =>
              (.error error, { durable := if applied then tables else world.durable })
  | .rollback, _, world => (.ok (), { world with working := none })

/-- A body keeps the durable tables, and an aborted transaction stays aborted. -/
theorem exec_of_statementsOnly {body : Program (transactionSignature A) ε α}
    (only : StatementsOnly body) (choices : Nat → C) (world : Transacted T) :
    (body.exec dialect.handler choices world).2.durable = world.durable ∧
      (world.working = none → (body.exec dialect.handler choices world).2.working = none) := by
  induction body generalizing choices world with
  | ret value => exact ⟨rfl, id⟩
  | raise error => exact ⟨rfl, id⟩
  | call op next induction =>
      obtain ⟨⟨query, rfl⟩, rest⟩ := only
      obtain ⟨kept, aborted⟩ := induction _ (rest _) (fun n => choices (n + 1))
        (dialect.handler (.statement query) (choices 0) world).2
      refine ⟨kept, fun isNone => aborted ?_⟩
      simp [handler, execute, isNone]

theorem visits_of_statementsOnly {body : Program (transactionSignature A) ε α}
    (only : StatementsOnly body) {choices : Nat → C} {world visited : Transacted T}
    (member : visited ∈ body.visits dialect.handler choices world) :
    visited.durable = world.durable := by
  induction body generalizing choices world with
  | ret value => cases member
  | raise error => cases member
  | call op next induction =>
      obtain ⟨⟨query, rfl⟩, rest⟩ := only
      rcases List.mem_cons.mp member with rfl | later
      · rfl
      · have kept := induction _ (rest _) later
        exact kept

variable {dialect} in
theorem working_of_aborted {body : Program (transactionSignature A) ε α}
    (only : StatementsOnly body) {choices : Nat → C} {durable : T} {outcome : Except ε α}
    {after : Transacted T}
    (result : body.exec dialect.handler choices ⟨durable, none⟩ = (outcome, after)) :
    after.working = none := by
  have isNone := (dialect.exec_of_statementsOnly only choices ⟨durable, none⟩).2 rfl
  rwa [result] at isNone

/-! ## What a body yields -/

/-- Whatever the environment chooses, a value that the body returns in a transaction that is not
aborted goes with the copy as `post` says. -/
def Yields (body : Program (transactionSignature A) ε α) (tables : T) (post : α → T → Prop) :
    Prop :=
  ∀ (choices : Nat → C) durable value after,
    body.exec dialect.handler choices ⟨durable, some tables⟩ = (.ok value, after) →
      ∀ copy, after.working = some copy → post value copy

variable {dialect} {tables : T}

theorem yields_ret {post : α → T → Prop} {value : α} (holds : post value tables) :
    dialect.Yields (.ret value) tables post := by
  intro choices durable returned after result copy isCopy
  obtain ⟨isValue, rfl⟩ := Prod.mk.inj result
  obtain rfl := Except.ok.inj isValue
  obtain rfl := Option.some.inj isCopy
  exact holds

theorem yields_raise {post : α → T → Prop} (error : ε) :
    dialect.Yields (.raise error) tables post := by
  intro choices durable value after result
  cases (Prod.mk.inj result).1

theorem yields_ofExcept_bind {post : β → T → Prop} {decided : Except ε α}
    {rest : α → Program (transactionSignature A) ε β}
    (next : ∀ value, decided = .ok value → dialect.Yields (rest value) tables post) :
    dialect.Yields ((Program.ofExcept decided).bind rest) tables post := by
  cases decided with
  | error error => exact yields_raise error
  | ok value => exact next value rfl

/-- A statement, whose error may be caught; the transaction is aborted then all the same. -/
theorem yields_tryCatch {query : Q} {post : A query → T → Prop}
    {recover : ε → Program (transactionSignature A) ε (A query)}
    (recovers : ∀ error, StatementsOnly (recover error))
    (holds : ∀ choice answer after,
      dialect.run query choice tables = .ok (answer, after) → post answer after) :
    dialect.Yields ((statement query).tryCatch recover) tables post := by
  intro choices durable value after result copy isCopy
  rw [Program.tryCatch, Program.exec_bind, Program.exec_attempt, statement,
    Program.exec_perform] at result
  simp only [handler, execute] at result
  cases ran : dialect.run query (choices 0) tables with
  | ok pair =>
      obtain ⟨answer, middle⟩ := pair
      rw [ran] at result
      obtain ⟨isValue, rfl⟩ := Prod.mk.inj result
      obtain rfl := Except.ok.inj isValue
      obtain rfl := Option.some.inj isCopy
      exact holds _ _ _ ran
  | error error =>
      rw [ran] at result
      cases (working_of_aborted (recovers error) result).symm.trans isCopy

theorem yields_statement_bind {query : Q} {post : β → T → Prop}
    {rest : A query → Program (transactionSignature A) ε β}
    (next : ∀ choice answer after, dialect.run query choice tables = .ok (answer, after) →
      dialect.Yields (rest answer) after post) :
    dialect.Yields ((statement query).bind rest) tables post := by
  intro choices durable value after result
  rw [statement, Program.exec_perform_bind] at result
  simp only [handler, execute] at result
  cases ran : dialect.run query (choices 0) tables with
  | ok pair =>
      obtain ⟨answer, middle⟩ := pair
      rw [ran] at result
      exact next (choices 0) answer middle ran _ durable value after result
  | error error =>
      rw [ran] at result
      cases (Prod.mk.inj result).1

/-- One part of a body after another. -/
theorem yields_bind {body : Program (transactionSignature A) ε α}
    {rest : α → Program (transactionSignature A) ε β} {middle : α → T → Prop} {post : β → T → Prop}
    (only : ∀ value, StatementsOnly (rest value)) (first : dialect.Yields body tables middle)
    (next : ∀ value copy, middle value copy → dialect.Yields (rest value) copy post) :
    dialect.Yields (body.bind rest) tables post := by
  intro choices durable value after result copy isCopy
  rw [Program.exec_bind] at result
  cases ran : body.exec dialect.handler choices ⟨durable, some tables⟩ with
  | mk outcome between =>
      rw [ran] at result
      cases outcome with
      | error error => cases (Prod.mk.inj result).1
      | ok answer =>
          obtain ⟨durable', working⟩ := between
          cases working with
          | none =>
              cases (working_of_aborted (only answer) result).symm.trans isCopy
          | some held =>
              exact next answer held (first choices durable answer _ ran held rfl) _ durable' value
                after result copy isCopy

/-! ## Whole transactions -/

variable (dialect)

theorem exec_transaction_eq (body : Program (transactionSignature A) ε α) (choices : Nat → C)
    (world : Transacted T) :
    (transaction body).exec dialect.handler choices world =
      (conclude (body.exec dialect.handler (fun n => choices (n + 1))
        ⟨world.durable, some world.durable⟩).1).exec dialect.handler
          (fun n => choices (n + body.steps dialect.handler (fun n => choices (n + 1))
            ⟨world.durable, some world.durable⟩ + 1))
          (body.exec dialect.handler (fun n => choices (n + 1))
            ⟨world.durable, some world.durable⟩).2 := by
  rw [transaction, Program.exec_perform_bind]
  simp only [handler]
  rw [Program.exec_bind, Program.exec_attempt, Program.steps_attempt]

theorem visits_transaction_eq (body : Program (transactionSignature A) ε α) (choices : Nat → C)
    (world : Transacted T) :
    (transaction body).visits dialect.handler choices world =
      ⟨world.durable, some world.durable⟩ ::
        (body.visits dialect.handler (fun n => choices (n + 1))
            ⟨world.durable, some world.durable⟩ ++
          (conclude (body.exec dialect.handler (fun n => choices (n + 1))
            ⟨world.durable, some world.durable⟩).1).visits dialect.handler
              (fun n => choices (n + body.steps dialect.handler (fun n => choices (n + 1))
                ⟨world.durable, some world.durable⟩ + 1))
              (body.exec dialect.handler (fun n => choices (n + 1))
                ⟨world.durable, some world.durable⟩).2) := by
  rw [transaction, Program.visits_bind, Program.visits_perform, Program.exec_perform,
    Program.steps_perform]
  simp only [handler]
  rw [Program.visits_bind, Program.visits_attempt, Program.exec_attempt, Program.steps_attempt]
  rfl

theorem visits_conclude (outcome : Except ε α) (choices : Nat → C) (world : Transacted T) :
    (conclude outcome : Program (transactionSignature A) ε α).visits dialect.handler choices world =
      [((conclude outcome : Program (transactionSignature A) ε α).exec dialect.handler choices
        world).2] := by
  have ends : ∀ (op : TransactionOp Q) (finish : Program (transactionSignature A) ε α),
      (∀ choices world, finish.visits dialect.handler choices world = []) →
      (∀ choices world, (finish.exec dialect.handler choices world).2 = world) →
      ((Program.perform (S := transactionSignature A) op).bind fun _ => finish).visits
          dialect.handler choices world =
        [(((Program.perform (S := transactionSignature A) op).bind fun _ => finish).exec
          dialect.handler choices world).2] := by
    intro op finish noVisits stays
    rw [Program.visits_bind, Program.visits_perform, Program.exec_perform,
      Program.exec_perform_bind]
    rcases dialect.handler op (choices 0) world with ⟨answer, after⟩
    cases answer with
    | ok value => simp [noVisits, stays]
    | error error => rfl
  cases outcome with
  | ok value => exact ends .commit (.ret value) (fun _ _ => rfl) fun _ _ => rfl
  | error error => exact ends .rollback (.raise error) (fun _ _ => rfl) fun _ _ => rfl

variable {dialect}

/-- While a transaction runs, the tables are as they were before it or as it leaves them. -/
theorem visits_transaction {body : Program (transactionSignature A) ε α}
    (only : StatementsOnly body) {choices : Nat → C} {world visited : Transacted T}
    (member : visited ∈ (transaction body).visits dialect.handler choices world) :
    visited.durable = world.durable ∨ visited.durable =
      ((transaction body).exec dialect.handler choices world).2.durable := by
  rw [visits_transaction_eq] at member
  rcases List.mem_cons.mp member with rfl | later
  · exact .inl rfl
  · rcases List.mem_append.mp later with inside | last
    · have kept := visits_of_statementsOnly dialect only inside
      exact .inl kept
    · rw [visits_conclude, ← exec_transaction_eq] at last
      exact .inr (congrArg Transacted.durable (List.mem_singleton.mp last))

/-- What a transaction leaves: the tables as they were where it raises, or what its body yields
where it returns; where the commit raises, either. -/
theorem exec_transaction {body : Program (transactionSignature A) ε α} {post : α → T → Prop}
    (only : StatementsOnly body) {world : Transacted T}
    (yields : dialect.Yields body world.durable post) (choices : Nat → C) :
    let result := (transaction body).exec dialect.handler choices world
    (∃ error, result.1 = .error error ∧ result.2.durable = world.durable) ∨
      ∃ value, post value result.2.durable ∧ (result.1 = .ok value ∨
        ∃ choice error, dialect.commitFailure choice = some (error, true) ∧
          result.1 = .error error) := by
  intro result
  have ran : result = _ := dialect.exec_transaction_eq body choices world
  obtain ⟨kept, -⟩ := dialect.exec_of_statementsOnly only (fun n => choices (n + 1))
    ⟨world.durable, some world.durable⟩
  cases inside : body.exec dialect.handler (fun n => choices (n + 1))
      ⟨world.durable, some world.durable⟩ with
  | mk outcome between =>
      rw [inside] at ran kept
      obtain ⟨held, copy⟩ := between
      obtain rfl : held = world.durable := kept
      generalize (fun n => choices (n + _ + 1)) = later at ran
      cases outcome with
      | error error =>
          rw [ran, conclude, Program.exec_perform_bind]
          exact .inl ⟨error, rfl, rfl⟩
      | ok value =>
          rw [conclude, Program.exec_perform_bind] at ran
          rw [ran]
          cases copy with
          | none => exact .inl ⟨_, rfl, rfl⟩
          | some tables =>
              have holds := yields _ world.durable value _ inside tables rfl
              simp only [handler]
              cases fails : dialect.commitFailure (later 0) with
              | none => exact .inr ⟨value, holds, .inl rfl⟩
              | some failure =>
                  obtain ⟨error, applied⟩ := failure
                  cases applied with
                  | false => exact .inl ⟨error, rfl, rfl⟩
                  | true => exact .inr ⟨value, holds, .inr ⟨_, error, fails, rfl⟩⟩

end Dialect

end Effects
