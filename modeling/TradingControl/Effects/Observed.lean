import TradingControl.Effects.Execution

/-!
# Observed runs

An observer reads the operations of a run and the choices made for them, and keeps a ghost state.
The program does not see it; statements about a run may.
-/

namespace Effects

variable {S : Signature} {ε α C W G : Type}

/-- How an observer's state moves with an operation and the choice made for it. -/
abbrev Observer (S : Signature) (C G : Type) := G → S.Op → C → G

namespace Program

/-- What an observer has seen at the end of a run. -/
def observe (handler : Handler S ε C W) (observer : Observer S C G) :
    Program S ε α → (Nat → C) → W → G → G
  | .ret _, _, _, ghost => ghost
  | .raise _, _, _, ghost => ghost
  | .call op next, choices, world, ghost =>
      (next (handler op (choices 0) world).1).observe handler observer (fun n => choices (n + 1))
        (handler op (choices 0) world).2 (observer ghost op (choices 0))

/-- Every choice of a run is permitted for the operation it answers. -/
def Permits (handler : Handler S ε C W) (permitted : S.Op → C → Prop) :
    Program S ε α → (Nat → C) → W → Prop
  | .ret _, _, _ => True
  | .raise _, _, _ => True
  | .call op next, choices, world =>
      permitted op (choices 0) ∧
        (next (handler op (choices 0) world).1).Permits handler permitted
          (fun n => choices (n + 1)) (handler op (choices 0) world).2

/-- Choices that are permitted for every operation are permitted in every run. -/
theorem permits_of_forall {handler : Handler S ε C W} {permitted : S.Op → C → Prop}
    (program : Program S ε α) {choices : Nat → C} (world : W)
    (always : ∀ n op, permitted op (choices n)) :
    program.Permits handler permitted choices world := by
  induction program generalizing choices world with
  | ret value => trivial
  | raise error => trivial
  | call op next induction =>
      exact ⟨always 0 op, induction _ _ fun n op => always (n + 1) op⟩

end Program

namespace Handler

/-- Every permitted choice leads on to the continuation, with the observer's state moved along. -/
def observed (handler : Handler S ε C W) (observer : Observer S C G)
    (permitted : S.Op → C → Prop) : Transformer S ε (W × G) :=
  fun op post state => ∀ choice, permitted op choice →
    post (handler op choice state.1).1
      ((handler op choice state.1).2, observer state.2 op choice)

theorem observed_monotone (handler : Handler S ε C W) (observer : Observer S C G)
    (permitted : S.Op → C → Prop) : Program.Monotone (handler.observed observer permitted) :=
  fun _ _ _ _ weaken holds choice allowed => weaken _ _ (holds choice allowed)

/-- A weakest precondition speaks about every observed run with permitted choices. -/
theorem exec_of_observed {handler : Handler S ε C W} {observer : Observer S C G}
    {permitted : S.Op → C → Prop} {program : Program S ε α}
    {post : Except ε α → W × G → Prop} {world : W} {ghost : G}
    (holds : program.wp (handler.observed observer permitted) post (world, ghost))
    {choices : Nat → C} (permits : program.Permits handler permitted choices world) :
    post (program.exec handler choices world).1
      ((program.exec handler choices world).2,
        program.observe handler observer choices world ghost) := by
  induction program generalizing choices world ghost with
  | ret value => exact holds
  | raise error => exact holds
  | call op next induction => exact induction _ (holds (choices 0) permits.1) permits.2

end Handler

end Effects
