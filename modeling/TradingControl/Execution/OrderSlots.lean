import Mathlib.Logic.Function.Basic
import Mathlib.Tactic.Common

/-!
# One order, two stores and a lock

What the deliveries of one decision share, reduced to four facts: the decision is marked in Redis,
the symbol's lock is taken, an order row is committed, and how often the broker has been called.
Deliveries claim the mark, take and release the lock, insert the row, call the broker and commit.
As long as none of them goes ahead on one store while the other one holds the decision, the broker
is called once at most.
-/

namespace TradingControl

variable {ι : Type}

/-- What the deliveries of one decision share. -/
structure OrderSlots where
  /-- The decision is marked as seen. -/
  marked : Bool
  /-- The lock of its symbol is taken. -/
  locked : Bool
  /-- An order row with its key is committed. -/
  committed : Bool
  /-- Calls of the broker. -/
  fills : ℕ

/-- How far a delivery has come. -/
inductive DeliveryPhase where
  | idle
  /-- It has marked the decision. -/
  | claimed
  /-- It has marked the decision and holds the lock. -/
  | claimedLocked
  /-- It holds the lock. -/
  | locked
  /-- It holds the lock and has inserted the order row in its transaction. -/
  | inserted
  /-- It holds the lock and has called the broker; the row is not committed. -/
  | filled

namespace DeliveryPhase

def HoldsLock (phase : DeliveryPhase) : Prop := phase ≠ .idle ∧ phase ≠ .claimed

/-- The delivery has marked the decision and not called the broker. -/
def Claims (phase : DeliveryPhase) : Prop := phase = .claimed ∨ phase = .claimedLocked

/-- Nothing but the broker call is left to do. -/
def Ready (phase : DeliveryPhase) : Prop := phase = .claimedLocked ∨ phase = .inserted

theorem Ready.holdsLock {phase : DeliveryPhase} (ready : phase.Ready) : phase.HoldsLock := by
  rcases ready with rfl | rfl
  · simp [HoldsLock]
  · simp [HoldsLock]

end DeliveryPhase

open DeliveryPhase

/-- A second call of the broker is out of reach. -/
def Spent (slots : OrderSlots) (phases : ι → DeliveryPhase) : Prop :=
  slots.committed = true ∨ (∃ i, phases i = .filled) ∨
    slots.marked = true ∧ ∀ i, phases i ≠ .claimed

/-- Moving a delivery that has not called the broker leaves the second call out of reach. -/
theorem Spent.update [DecidableEq ι] {slots : OrderSlots} {phases : ι → DeliveryPhase} {i : ι}
    (spent : Spent slots phases) {phase : DeliveryPhase}
    (unfilled : phases i ≠ .filled) (unclaimed : phase ≠ .claimed) :
    Spent slots (Function.update phases i phase) := by
  rcases spent with committed | ⟨j, filled⟩ | ⟨marked, nobody⟩
  · exact Or.inl committed
  · refine Or.inr (Or.inl ⟨j, ?_⟩)
    have different : j ≠ i := by
      rintro rfl
      exact unfilled filled
    rw [Function.update_of_ne different, filled]
  · refine Or.inr (Or.inr ⟨marked, fun j => ?_⟩)
    grind

/-- The broker has been called once at most, and not at all while a delivery is ready to call it. -/
structure AtMostOnce (before : ℕ) (slots : OrderSlots) (phases : ι → DeliveryPhase) : Prop where
  locked : ∀ i, (phases i).HoldsLock → slots.locked = true
  exclusive : ∀ i j, (phases i).HoldsLock → (phases j).HoldsLock → i = j
  marked : ∀ i, (phases i).Claims → slots.marked = true
  single : ∀ i j, (phases i).Claims → (phases j).Claims → i = j
  ready : ∀ i, (phases i).Ready → slots.fills = before
  account : slots.fills = before ∨ slots.fills = before + 1 ∧ Spent slots phases

namespace AtMostOnce

variable {before : ℕ} {slots : OrderSlots} {phases : ι → DeliveryPhase} {i : ι}

theorem start (slots : OrderSlots) : AtMostOnce slots.fills slots fun _ : ι => .idle where
  locked _ holds := absurd rfl holds.1
  exclusive _ _ holds := absurd rfl holds.1
  marked _ claims := by rcases claims with claims | claims <;> cases claims
  single _ _ claims := by rcases claims with claims | claims <;> cases claims
  ready _ ready := by rcases ready with ready | ready <;> cases ready
  account := Or.inl rfl

theorem bound (once : AtMostOnce before slots phases) : slots.fills ≤ before + 1 := by
  rcases once.account with none_ | ⟨one, -⟩
  · omega
  · omega

theorem nobody (once : AtMostOnce before slots phases) (free : slots.locked = false) (j : ι) :
    ¬(phases j).HoldsLock := by
  intro holds
  have taken := once.locked j holds
  rw [free] at taken
  cases taken

theorem commitRow (once : AtMostOnce before slots phases) (row : Bool)
    (kept : slots.committed = true → row = true) :
    AtMostOnce before { slots with committed := row } phases where
  locked := once.locked
  exclusive := once.exclusive
  marked := once.marked
  single := once.single
  ready := once.ready
  account := by
    rcases once.account with none_ | ⟨one, committed | spent⟩
    · exact Or.inl none_
    · exact Or.inr ⟨one, Or.inl (kept committed)⟩
    · exact Or.inr ⟨one, Or.inr spent⟩

theorem unlockFree (once : AtMostOnce before slots phases)
    (free : ∀ j, ¬(phases j).HoldsLock) :
    AtMostOnce before { slots with locked := false } phases :=
  { once with locked := fun j holds => absurd holds (free j) }

variable [DecidableEq ι]

/-- A delivery that has not called the broker steps back. -/
theorem retreat (once : AtMostOnce before slots phases) (phase : DeliveryPhase)
    (unfilled : phases i ≠ .filled) (holds : phase.HoldsLock → (phases i).HoldsLock)
    (unclaimed : ¬phase.Claims) (unready : ¬phase.Ready) :
    AtMostOnce before slots (Function.update phases i phase) where
  locked j := by grind [once.locked i, once.locked j]
  exclusive j k := by grind [once.exclusive j k]
  marked j := by grind [once.marked j]
  single j k := by grind [once.single j k]
  ready j := by grind [once.ready j]
  account := once.account.imp_right (And.imp_right fun spent =>
    Spent.update spent unfilled fun claimed => unclaimed (Or.inl claimed))

/-- A delivery that has not called the broker releases the lock. -/
theorem unlock (once : AtMostOnce before slots phases) (own : (phases i).HoldsLock)
    (unfilled : phases i ≠ .filled) :
    AtMostOnce before { slots with locked := false } (Function.update phases i .idle) := by
  have stepped := once.retreat .idle unfilled (by simp [HoldsLock]) (by simp [Claims])
    (by simp [Ready])
  refine stepped.unlockFree fun j holds => ?_
  by_cases same : j = i
  · subst same
    simp [HoldsLock] at holds
  · rw [Function.update_of_ne same] at holds
    exact same (once.exclusive j i holds own)

/-- A delivery marks the decision while no row is committed. -/
theorem claim (once : AtMostOnce before slots phases) (own : phases i = .idle)
    (unmarked : slots.marked = false) (uncommitted : slots.committed = false) :
    AtMostOnce before { slots with marked := true } (Function.update phases i .claimed) := by
  have unclaimed : ∀ j, ¬(phases j).Claims := by
    intro j claims
    have marked := once.marked j claims
    rw [unmarked] at marked
    cases marked
  have locks : ∀ j, (Function.update phases i DeliveryPhase.claimed j).HoldsLock →
      (phases j).HoldsLock := by
    intro j holds
    grind [HoldsLock]
  constructor
  case locked => exact fun j holds => once.locked j (locks j holds)
  case exclusive => exact fun j k holds holdsToo => once.exclusive j k (locks j holds) (locks k holdsToo)
  case marked => exact fun _ _ => rfl
  case single => intro j k; grind
  case ready => intro j; grind [once.ready j, Ready]
  case account =>
    rcases once.account with none_ | ⟨one, committed | ⟨j, filled⟩ | ⟨marked, -⟩⟩
    · exact Or.inl none_
    · simp [uncommitted] at committed
    · refine Or.inr ⟨one, Or.inr (Or.inl ⟨j, ?_⟩)⟩
      grind
    · simp [unmarked] at marked

/-- A delivery that has marked nothing takes the free lock. -/
theorem lock (once : AtMostOnce before slots phases) (own : phases i = .idle)
    (free : slots.locked = false) :
    AtMostOnce before { slots with locked := true } (Function.update phases i .locked) := by
  have alone := once.nobody free
  constructor
  case locked => exact fun _ _ => rfl
  case exclusive => intro j k; grind
  case marked => intro j; grind [once.marked j, Claims]
  case single => intro j k; grind [once.single j k, Claims]
  case ready => intro j; grind [once.ready j, Ready]
  case account =>
    refine once.account.imp_right (And.imp_right fun spent => ?_)
    have moved : Spent slots (Function.update phases i .locked) :=
      spent.update (by simp [own]) (by simp)
    exact moved

/-- The delivery that has marked the decision takes the free lock while no row is committed. -/
theorem lockClaimed (once : AtMostOnce before slots phases) (own : phases i = .claimed)
    (free : slots.locked = false)
    (apart : slots.marked = true → slots.committed = false) :
    AtMostOnce before { slots with locked := true } (Function.update phases i .claimedLocked) := by
  have alone := once.nobody free
  have claims : (phases i).Claims := Or.inl own
  have unfilled : slots.fills = before := by
    rcases once.account with none_ | ⟨-, committed | ⟨j, filled⟩ | ⟨-, unclaimed⟩⟩
    · exact none_
    · simp [apart (once.marked i claims)] at committed
    · exact absurd (by simp [filled, HoldsLock]) (alone j)
    · exact absurd own (unclaimed i)
  constructor
  case locked => exact fun _ _ => rfl
  case exclusive => intro j k; grind
  case marked => exact fun _ _ => once.marked i claims
  case single => intro j k; grind [once.single j k]
  case ready => exact fun _ _ => unfilled
  case account => exact Or.inl unfilled

/-- A delivery that holds the lock inserts the order row while neither store has the decision. -/
theorem insert (once : AtMostOnce before slots phases) (own : phases i = .locked)
    (unmarked : slots.marked = false) (uncommitted : slots.committed = false) :
    AtMostOnce before slots (Function.update phases i .inserted) := by
  have holds : (phases i).HoldsLock := by simp [own, HoldsLock]
  have unfilled : slots.fills = before := by
    rcases once.account with none_ | ⟨-, committed | ⟨j, filled⟩ | ⟨marked, -⟩⟩
    · exact none_
    · simp [uncommitted] at committed
    · have same := once.exclusive j i (by simp [filled, HoldsLock]) holds
      rw [same, own] at filled
      cases filled
    · simp [unmarked] at marked
  constructor
  case locked => exact fun _ _ => once.locked i holds
  case exclusive => intro j k; grind [once.exclusive j k]
  case marked => intro j; grind [once.marked j, Claims]
  case single => intro j k; grind [once.single j k, Claims]
  case ready => exact fun _ _ => unfilled
  case account => exact Or.inl unfilled

/-- The ready delivery calls the broker. -/
theorem submit (once : AtMostOnce before slots phases) {phase : DeliveryPhase}
    (next : phases i = .claimedLocked ∧ phase = .locked ∨
      phases i = .inserted ∧ phase = .filled) :
    AtMostOnce before { slots with fills := slots.fills + 1 }
      (Function.update phases i phase) := by
  have own : (phases i).Ready := next.imp And.left And.left
  have holds := own.holdsLock
  have others : ∀ j, j ≠ i → ¬(phases j).HoldsLock :=
    fun j different holdsToo => different (once.exclusive j i holdsToo holds)
  constructor
  case locked => exact fun _ _ => once.locked i holds
  case exclusive => intro j k; grind
  case marked => intro j; grind [once.marked j, Claims]
  case single => intro j k; grind [once.single j k, Claims]
  case ready =>
    intro j ready
    have holdsToo := ready.holdsLock
    grind [Ready]
  case account =>
    refine Or.inr ⟨by rw [once.ready i own], ?_⟩
    rcases next with ⟨claimed, rfl⟩ | ⟨-, rfl⟩
    · refine Or.inr (Or.inr ⟨once.marked i (Or.inr claimed), fun j => ?_⟩)
      intro claimedToo
      by_cases same : j = i
      · subst same
        simp at claimedToo
      · rw [Function.update_of_ne same] at claimedToo
        exact same (once.single j i (Or.inl claimedToo) (Or.inr claimed))
    · exact Or.inr (Or.inl ⟨i, Function.update_self ..⟩)

/-- The delivery that has called the broker commits its row. -/
theorem commit (once : AtMostOnce before slots phases) (own : phases i = .filled) :
    AtMostOnce before { slots with committed := true } (Function.update phases i .locked) := by
  have holds : (phases i).HoldsLock := by simp [own, HoldsLock]
  constructor
  case locked => exact fun _ _ => once.locked i holds
  case exclusive => intro j k; grind [once.exclusive j k]
  case marked => intro j; grind [once.marked j, Claims]
  case single => intro j k; grind [once.single j k, Claims]
  case ready => intro j; grind [once.ready j, Ready]
  case account => exact once.account.imp_right (And.imp_right fun _ => Or.inl rfl)

end AtMostOnce

end TradingControl
