import TradingControl.Effects.Transaction

/-!
# Transactions that commit

Rules for what a transaction comes to when no commit fails: it returns what its body returns, unless
a statement has aborted it, and raises what its body raises.
-/

namespace Effects

/-! ## Runs of a finer handler -/

/-- A handler that answers as another one does under some choice has runs of the other one only. -/
theorem Handler.exec_of_refines {S : Signature} {ε α C W : Type} {fine coarse : Handler S ε C W}
    (refines : ∀ op choice world, ∃ other, fine op choice world = coarse op other world)
    (program : Program S ε α) (choices : Nat → C) (world : W) :
    ∃ others, program.exec fine choices world = program.exec coarse others world := by
  induction program generalizing choices world with
  | ret value => exact ⟨choices, rfl⟩
  | raise error => exact ⟨choices, rfl⟩
  | call op next induction =>
      obtain ⟨other, same⟩ := refines op (choices 0) world
      obtain ⟨others, rest⟩ := induction (fine op (choices 0) world).1 (fun n => choices (n + 1))
        (fine op (choices 0) world).2
      refine ⟨fun n => Nat.casesOn n other others, ?_⟩
      rw [Program.exec, rest, same]
      rfl

/-! ## Bodies and transactions -/

variable {Q : Type} {A : Q → Type} {ε C T α β : Type}

/-- The body has returned in a transaction that is not aborted, or has raised. -/
def Concluded (post : Except ε α → Prop) : Except ε α → Transacted T → Prop
  | .ok value, world => world.working.isSome ∧ post (.ok value)
  | .error error, _ => post (.error error)

namespace Dialect

variable (dialect : Dialect Q A ε C T)

/-- Runs under any choices of the environment. -/
abbrev anyway : Transformer (transactionSignature A) ε (Transacted T) :=
  dialect.handler.demonic fun _ => True

variable {dialect} {tables : T} {durable : T} {post : Except ε β → Transacted T → Prop}

theorem wp_ofExcept_bind {decided : Except ε α}
    {rest : α → Program (transactionSignature A) ε β} {world : Transacted T}
    (raises : ∀ error, decided = .error error → post (.error error) world)
    (next : ∀ value, decided = .ok value → (rest value).wp dialect.anyway post world) :
    ((Program.ofExcept decided).bind rest).wp dialect.anyway post world := by
  cases decided with
  | error error => exact raises error rfl
  | ok value => exact next value rfl

/-- A statement after which the body goes on, or which fails and aborts the transaction. -/
theorem wp_statement_bind {query : Q} {rest : A query → Program (transactionSignature A) ε β}
    (next : ∀ choice answer after, dialect.run query choice tables = .ok (answer, after) →
      (rest answer).wp dialect.anyway post ⟨durable, some after⟩)
    (raises : ∀ choice error, dialect.run query choice tables = .error error →
      post (.error error) ⟨durable, none⟩) :
    ((statement query).bind rest).wp dialect.anyway post ⟨durable, some tables⟩ := by
  rw [Program.wp_bind, statement, Program.wp_perform]
  intro choice _
  simp only [handler, execute]
  cases ran : dialect.run query choice tables with
  | ok pair => exact next choice pair.1 pair.2 ran
  | error error => exact raises choice error ran

theorem wp_statement_tryCatch {query : Q}
    {recover : ε → Program (transactionSignature A) ε (A query)}
    {post : Except ε (A query) → Transacted T → Prop}
    (returns : ∀ choice answer after, dialect.run query choice tables = .ok (answer, after) →
      post (.ok answer) ⟨durable, some after⟩)
    (recovers : ∀ choice error, dialect.run query choice tables = .error error →
      (recover error).wp dialect.anyway post ⟨durable, none⟩) :
    ((statement query).tryCatch recover).wp dialect.anyway post ⟨durable, some tables⟩ := by
  rw [Program.wp_tryCatch, statement, Program.wp_perform]
  intro choice _
  simp only [handler, execute]
  cases ran : dialect.run query choice tables with
  | ok pair => exact returns choice pair.1 pair.2 ran
  | error error => exact recovers choice error ran

theorem wp_aborted_bind {query : Q} {rest : A query → Program (transactionSignature A) ε β}
    (raises : post (.error dialect.aborted) ⟨durable, none⟩) :
    ((statement query).bind rest).wp dialect.anyway post ⟨durable, none⟩ := by
  rw [Program.wp_bind, statement, Program.wp_perform]
  exact fun _ _ => raises

theorem wp_transaction (commits : ∀ choice, dialect.commitFailure choice = none)
    {body : Program (transactionSignature A) ε α} {post : Except ε α → Prop}
    (world : Transacted T)
    (holds : body.wp dialect.anyway (Concluded post) ⟨world.durable, some world.durable⟩) :
    (transaction body).wp dialect.anyway (fun outcome _ => post outcome) world := by
  have monotone := dialect.handler.demonic_monotone fun _ => True
  rw [transaction, Program.wp_bind, Program.wp_perform]
  intro choice _
  change Program.wp _ (body.attempt.bind conclude) _ _
  rw [Program.wp_bind, Program.wp_attempt]
  refine Program.wp_mono monotone (fun outcome after concluded => ?_) holds
  cases outcome with
  | error error =>
      rw [Program.andThen_ok, conclude, Program.wp_bind, Program.wp_perform]
      exact fun _ _ => concluded
  | ok value =>
      obtain ⟨durable, working⟩ := after
      obtain ⟨open_, returned⟩ := concluded
      obtain ⟨copy, rfl⟩ := Option.isSome_iff_exists.mp open_
      rw [Program.andThen_ok, conclude, Program.wp_bind, Program.wp_perform]
      intro choice _
      simp only [handler, commits]
      exact returned

end Dialect

end Effects
