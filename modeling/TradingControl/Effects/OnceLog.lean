import Mathlib.Data.List.Basic

/-!
# Logs of calls that had their effect once

A service answers calls one after another, and each call has its effect or none.  The state is at
any time what the log of the effective calls makes of the first one.
-/

namespace Effects

variable {Γ ρ κ T : Type}

/-! ## Logs -/

/-- What calls make of a state, each of which has its effect once, in their order. -/
inductive Recorded (effect : Γ → T → T → Prop) (start : T) : List Γ → T → Prop
  | start : Recorded effect start [] start
  | call {log : List Γ} {before after : T} {call : Γ} :
      Recorded effect start log before → effect call before after →
        Recorded effect start (log ++ [call]) after

variable {effect : Γ → T → T → Prop} {start state : T} {log : List Γ}

theorem Recorded.keys_eq (recorded : Recorded effect start log state) {keys : T → List κ}
    {key : Γ → κ} (adds : ∀ call before after, effect call before after →
      keys after = keys before ++ [key call]) :
    keys state = keys start ++ log.map key := by
  induction recorded with
  | start => simp
  | call earlier holds induction => simp [adds _ _ _ holds, induction]

theorem Recorded.keeps (recorded : Recorded effect start log state) {invariant : T → Prop}
    (first : invariant start) (step : ∀ call ∈ log, ∀ before after, effect call before after →
      invariant before → invariant after) : invariant state := by
  induction recorded with
  | start => exact first
  | call earlier holds induction =>
      have before := induction fun call member => step call (List.mem_append_left _ member)
      exact step _ (List.mem_append_right _ (List.mem_singleton_self _)) _ _ holds before

theorem Recorded.trans {middle : T} {later : List Γ} (first : Recorded effect start log middle)
    (second : Recorded effect middle later state) : Recorded effect start (log ++ later) state := by
  induction second with
  | start => simpa using first
  | call earlier holds induction =>
      rw [← List.append_assoc]
      exact .call induction holds

theorem recorded_singleton {call : Γ} (holds : effect call start state) :
    Recorded effect start [call] state :=
  .call .start holds

/-! ## Services -/

/-- A service: the answer to a call with the state after it, and the states while it is served. -/
structure Service (Γ ρ T : Type) where
  serve : Γ → T → ρ × T
  during : Γ → T → List T

namespace Service

variable (service : Service Γ ρ T)

def answered (kind : ρ → Bool) : List Γ → T → List Γ
  | [], _ => []
  | call :: calls, state =>
      (if kind (service.serve call state).1 then [call] else []) ++
        answered kind calls (service.serve call state).2

theorem answered_sublist (kind : ρ → Bool) (calls : List Γ) (state : T) :
    (service.answered kind calls state).Sublist calls := by
  induction calls generalizing state with
  | nil => exact List.Sublist.refl _
  | cons call calls induction =>
      rw [answered]
      split
      · exact (induction _).cons_cons call
      · exact (induction _).cons call

def after (calls : List Γ) (state : T) : T :=
  calls.foldl (fun state call => (service.serve call state).2) state

def moments : List Γ → T → List T
  | [], state => [state]
  | call :: calls, state =>
      state :: (service.during call state ++ moments calls (service.serve call state).2)

/-- A call has its effect and is answered as one that succeeded or may have, or it has none and is
answered as one that failed. -/
structure Once (effect : Γ → T → T → Prop) (succeeded uncertain : ρ → Bool) : Prop where
  serve : ∀ call state,
    succeeded (service.serve call state).1 = false ∧ (service.serve call state).2 = state ∨
      effect call state (service.serve call state).2 ∧
        (succeeded (service.serve call state).1 || uncertain (service.serve call state).1) = true
  during : ∀ call state, ∀ visited ∈ service.during call state,
    visited = state ∨ visited = (service.serve call state).2

variable {service} {succeeded uncertain : ρ → Bool}

theorem Once.call (once : service.Once effect succeeded uncertain) (call : Γ) (state : T) :
    ∃ log, Recorded effect state log (service.serve call state).2 ∧
      List.Sublist (if succeeded (service.serve call state).1 then [call] else []) log ∧
        log.Sublist (if succeeded (service.serve call state).1 ||
          uncertain (service.serve call state).1 then [call] else []) := by
  rcases once.serve call state with ⟨failed, same⟩ | ⟨holds, counted⟩
  · rw [same, failed]
    exact ⟨[], .start, List.Sublist.refl _, List.nil_sublist _⟩
  · rw [counted]
    refine ⟨[call], recorded_singleton holds, ?_, List.Sublist.refl _⟩
    split
    · exact List.Sublist.refl _
    · exact List.nil_sublist _

/-- After calls, the log holds all that succeeded, and others only of those that may have. -/
theorem Once.after (once : service.Once effect succeeded uncertain) (calls : List Γ) (start : T) :
    ∃ log, Recorded effect start log (service.after calls start) ∧
      (service.answered succeeded calls start).Sublist log ∧
        log.Sublist (service.answered (fun answer => succeeded answer || uncertain answer) calls
          start) := by
  induction calls generalizing start with
  | nil => exact ⟨[], .start, List.Sublist.refl _, List.Sublist.refl _⟩
  | cons call calls induction =>
      obtain ⟨first, recorded, firstAll, firstOnly⟩ := once.call call start
      obtain ⟨later, rest, laterAll, laterOnly⟩ := induction (service.serve call start).2
      exact ⟨first ++ later, recorded.trans rest, firstAll.append laterAll,
        firstOnly.append laterOnly⟩

/-- At any time, the log holds some of the calls that succeeded or may have. -/
theorem Once.moments (once : service.Once effect succeeded uncertain) (calls : List Γ)
    (start : T) : ∀ moment ∈ service.moments calls start,
      ∃ log, Recorded effect start log moment ∧
        log.Sublist (service.answered (fun answer => succeeded answer || uncertain answer) calls
          start) := by
  induction calls generalizing start with
  | nil =>
      intro moment member
      obtain rfl := List.mem_singleton.mp member
      exact ⟨[], .start, List.Sublist.refl _⟩
  | cons call calls induction =>
      obtain ⟨first, recorded, -, firstOnly⟩ := once.call call start
      have atStart : ∃ log, Recorded effect start log start ∧
          log.Sublist (service.answered (fun answer => succeeded answer || uncertain answer)
            (call :: calls) start) :=
        ⟨[], .start, List.nil_sublist _⟩
      intro moment member
      rcases List.mem_cons.mp member with rfl | later
      · exact atStart
      · rcases List.mem_append.mp later with inside | rest
        · rcases once.during call start moment inside with rfl | rfl
          · exact atStart
          · exact ⟨first, recorded, firstOnly.trans (List.sublist_append_left _ _)⟩
        · obtain ⟨log, recordedLater, laterOnly⟩ := induction _ moment rest
          exact ⟨first ++ log, recorded.trans recordedLater, firstOnly.append laterOnly⟩

end Service

end Effects
