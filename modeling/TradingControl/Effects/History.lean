import TradingControl.Effects.Party

/-!
# Histories

A history is justified when every event in it is, by what came before.  What a step of a run needs
to keep an invariant may depend on the state in front of it, so it is asked along the run.
-/

namespace Effects

variable {E : Type}

theorem split_append {history events before after : List E} {event : E}
    (split : history ++ events = before ++ event :: after) :
    (∃ between, history = before ++ event :: between ∧ after = between ++ events) ∨
      ∃ between, before = history ++ between ∧ events = between ++ event :: after := by
  rcases List.append_eq_append_iff.mp split with ⟨between, isBefore, isEvents⟩ |
    ⟨between, isHistory, isAfter⟩
  · exact .inr ⟨between, isBefore, isEvents⟩
  · cases between with
    | nil => exact .inr ⟨[], by simpa using isHistory.symm, by simpa using isAfter.symm⟩
    | cons first between =>
        rw [List.cons_append, List.cons.injEq] at isAfter
        obtain ⟨rfl, rfl⟩ := isAfter
        exact .inl ⟨between, isHistory, rfl⟩

theorem split_concat {history before after : List E} {event last : E}
    (split : history ++ [last] = before ++ event :: after) :
    (∃ between, history = before ++ event :: between ∧ after = between ++ [last]) ∨
      before = history ∧ event = last ∧ after = [] := by
  rcases split_append split with earlier | ⟨between, isBefore, isLast⟩
  · exact .inl earlier
  · cases between with
    | nil =>
        rw [List.nil_append, List.cons.injEq] at isLast
        exact .inr ⟨by simpa using isBefore, isLast.1.symm, isLast.2.symm⟩
    | cons first between => simp at isLast

/-- Every event is justified by the events before it. -/
def Justified (justifies : List E → E → Prop) (history : List E) : Prop :=
  ∀ before event after, history = before ++ event :: after → justifies before event

variable {justifies : List E → E → Prop} {history : List E}

theorem justified_nil : Justified justifies [] := by
  intro before event after split
  simp at split

theorem Justified.concat (justified : Justified justifies history) {event : E}
    (last : justifies history event) : Justified justifies (history ++ [event]) := by
  intro before other after split
  rcases split_concat split with ⟨between, isHistory, -⟩ | ⟨rfl, rfl, -⟩
  · exact justified before other between isHistory
  · exact last

theorem Justified.append (justified : Justified justifies history) {events : List E}
    (new : ∀ event ∈ events, ∀ between, between ⊆ events → justifies (history ++ between) event) :
    Justified justifies (history ++ events) := by
  intro before event after split
  rcases split_append split with ⟨between, isHistory, -⟩ | ⟨between, rfl, isEvents⟩
  · exact justified before event between isHistory
  · rw [isEvents] at new
    exact new event (by simp) between (List.subset_append_left _ _)

/-! ## Growing histories -/

/-- The world's history is justified and only grows. -/
def keepingHistory {W : Type} (history : W → List E) (justifies : List E → E → Prop)
    (invariant : W → Prop) : Guarantee W where
  invariant world := invariant world ∧ Justified justifies (history world)
  grows earlier later := history earlier <+: history later
  refl _ := List.prefix_refl _
  trans first second := first.trans second

/-! ## Conditions along a run -/

variable {S A : Type}

/-- Every step of a run meets a condition on the state in front of it. -/
def Along (step : S → A → S) (condition : S → A → Prop) : S → List A → Prop
  | _, [] => True
  | state, act :: acts => condition state act ∧ Along step condition (step state act) acts

variable {step : S → A → S} {condition : S → A → Prop} {state : S} {acts : List A}

theorem along_append {more : List A} :
    Along step condition state (acts ++ more) ↔
      Along step condition state acts ∧ Along step condition (acts.foldl step state) more := by
  induction acts generalizing state with
  | nil => exact (and_iff_right trivial).symm
  | cons act acts induction =>
      rw [List.cons_append, Along, Along, induction, and_assoc]
      rfl

theorem Along.split (along : Along step condition state acts) {earlier later : List A} {act : A}
    (split : acts = earlier ++ act :: later) :
    Along step condition state earlier ∧ condition (earlier.foldl step state) act := by
  rw [split, along_append] at along
  exact ⟨along.1, along.2.1⟩

/-- A condition that holds everywhere holds along every run. -/
theorem along_of_forall (always : ∀ state, ∀ act ∈ acts, condition state act) :
    Along step condition state acts := by
  induction acts generalizing state with
  | nil => trivial
  | cons act acts induction =>
      exact ⟨always state act List.mem_cons_self,
        induction fun state act member => always state act (List.mem_cons_of_mem _ member)⟩

theorem Along.weaken {weaker : S → A → Prop} (along : Along step condition state acts)
    (weakens : ∀ state act, condition state act → weaker state act) :
    Along step weaker state acts := by
  induction acts generalizing state with
  | nil => trivial
  | cons act acts induction => exact ⟨weakens _ _ along.1, induction along.2⟩

/-- An invariant that the condition carries over a step holds at the end of the run. -/
theorem Along.foldl (along : Along step condition state acts) (invariant : S → Prop)
    (start : invariant state)
    (keeps : ∀ state act, condition state act → invariant state → invariant (step state act)) :
    invariant (acts.foldl step state) := by
  induction acts generalizing state with
  | nil => exact start
  | cons act acts induction => exact induction along.2 (keeps state act along.1 start)

/-- Along a run the condition is decided step by step. -/
instance decidableAlong [∀ state act, Decidable (condition state act)] :
    (state : S) → (acts : List A) → Decidable (Along step condition state acts)
  | _, [] => .isTrue trivial
  | state, act :: acts => @instDecidableAnd _ _ _ (decidableAlong (step state act) acts)

end Effects
