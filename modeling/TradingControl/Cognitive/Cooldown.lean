import TradingControl.Cognitive.GovernorQuota

/-!
# How long a target is benched

A rejection benches the target of its proposal.  The bench is counted in calls for admissions, those
for other targets too, and it has ended at the call with which the count is full.
-/

namespace TradingControl.Cognitive

open Python Effects

namespace ProposalGovernor

/-! ## What is promised -/

def Asked.refused (call : Asked) : Bool :=
  match call.answer with
  | .ok (admitted, _) => !admitted
  | .error _ => false

def callsFor (target : String) (history : List Event) : List Asked :=
  (askedCalls history).filter (·.proposal.target = target)

def Event.rejects (target : String) : Event → Prop
  | .asked _ => False
  | .recorded proposal approved => approved = false ∧ proposal.target = target

/-- The next calls for a rejected target are refused, as many as the cooldown has, and the one after
them is not on this bench any more. -/
def BenchedInFull (cooldown : ℤ) (history : List Event) : Prop :=
  ∀ earlier rejected later call after,
    history = earlier ++ .recorded rejected false :: later ++ .asked call :: after →
    call.proposal.target = rejected.target →
      ((callsFor rejected.target later).length < cooldown → call.refused) ∧
        ((callsFor rejected.target later).length = cooldown →
          (∀ event ∈ later, ¬event.rejects rejected.target) →
            call.answer ≠ .ok (false, "cooldown"))

/-! ## When it is kept -/

/-- The target was rejected fewer calls ago than the cooldown has, the next call included. -/
def Benched (cooldown : ℤ) (before : List Event) (target : String) : Prop :=
  ∃ earlier rejected later, before = earlier ++ .recorded rejected false :: later ∧
    rejected.target = target ∧ ((askedCalls later).length + 1 : ℤ) < cooldown

/-- The proposal repeats an admission in the window, or the window is full. -/
def OtherBrake (runtime : Runtime) (quota window : ℤ) (before : List Event)
    (proposal : Proposal) : Prop :=
  ∃ key, proposalKey runtime proposal = .ok key ∧
    (key ∈ (windowBefore window before).filterMap (Asked.key runtime) ∨
      quota ≤ ((windowBefore window before).filter Asked.admitted).length)

/-- One of the next calls for a rejected target comes while a brake is on. -/
def Covered (runtime : Runtime) (quota window cooldown : ℤ) (before : List Event) : Event → Prop
  | .recorded _ _ => True
  | .asked call =>
      (∃ earlier rejected later, before = earlier ++ .recorded rejected false :: later ∧
        rejected.target = call.proposal.target ∧
          (callsFor call.proposal.target later).length < cooldown) →
        Benched cooldown before call.proposal.target ∨
          OtherBrake runtime quota window before call.proposal

/-! ## Benches of a run -/

variable {runtime : Runtime} {quota window cooldown : ℤ} {governed : Governed}

/-- The bench of a target ends no earlier than its rejections ask for. -/
def KeepsBenches (cooldown : ℤ) (governed : Governed) : Prop :=
  ∀ earlier rejected later, governed.history = earlier ++ .recorded rejected false :: later →
    ∃ ends, governed.governor.cooldowns.lookup rejected.target = some ends ∧
      (askedCalls earlier).length + cooldown ≤ ends

theorem Tracks.benched_iff (tracks : Tracks runtime quota window cooldown governed)
    (keeps : KeepsBenches cooldown governed) (target : String) :
    Benched cooldown governed.history target ↔
      ∃ ends, governed.governor.cooldowns.lookup target = some ends ∧
        governed.governor.cycle + 1 < ends := by
  constructor
  · rintro ⟨earlier, rejected, later, split, rfl, recent⟩
    obtain ⟨ends, found, late⟩ := keeps earlier rejected later split
    refine ⟨ends, found, ?_⟩
    rw [tracks.counted, split, askedCalls_append, List.length_append, Nat.cast_add]
    change ((askedCalls earlier).length + (askedCalls later).length : ℤ) + 1 < ends
    omega
  · rintro ⟨ends, found, early⟩
    obtain ⟨earlier, rejected, later, split, same, isEnd⟩ := tracks.benched target ends found
    refine ⟨earlier, rejected, later, split, same, ?_⟩
    rw [tracks.counted, split, askedCalls_append, List.length_append, Nat.cast_add, isEnd] at early
    change ((askedCalls earlier).length + (askedCalls later).length : ℤ) + 1 < _ at early
    omega

theorem cooldowns_admitProposal (runtime : Runtime) (governor : ProposalGovernor)
    (proposal : Proposal) :
    (governor.admitProposal runtime proposal).2.cooldowns = governor.cooldowns := by
  have ruling := ruled runtime governor proposal
  revert ruling
  generalize governor.admitProposal runtime proposal = answered
  obtain ⟨answer, next⟩ := answered
  rintro (_ | _ | _ | _ | _) <;> rfl

theorem KeepsBenches.call (keeps : KeepsBenches cooldown governed)
    (tracks : Tracks runtime quota window cooldown governed) (call : Call) :
    KeepsBenches cooldown (governed.call runtime call) := by
  cases call with
  | admission proposal =>
      intro earlier rejected later split
      rcases split_concat split with ⟨between, isHistory, -⟩ | ⟨-, isLast, -⟩
      · rw [Governed.call]
        dsimp only
        rw [cooldowns_admitProposal]
        exact keeps earlier rejected between isHistory
      · cases isLast
  | outcome proposal approved =>
      intro earlier rejected later split
      change ∃ ends, (governed.governor.recordOutcome proposal approved).cooldowns.lookup
        rejected.target = some ends ∧ _
      rcases split_concat split with ⟨between, isHistory, -⟩ | ⟨rfl, isLast, -⟩
      · obtain ⟨ends, found, late⟩ := keeps earlier rejected between isHistory
        cases approved with
        | true => exact ⟨ends, found, late⟩
        | false =>
            change ∃ ends, (Dict.set _ _ _).lookup rejected.target = some ends ∧ _
            rw [Dict.lookup_set]
            by_cases same : rejected.target = proposal.target
            · refine ⟨_, if_pos same, ?_⟩
              have counted := tracks.counted
              rw [isHistory, askedCalls_append, List.length_append, Nat.cast_add] at counted
              rw [tracks.cooldownKept]
              omega
            · exact ⟨ends, by rw [if_neg same]; exact found, late⟩
      · obtain ⟨rfl, rfl⟩ := Event.recorded.inj isLast
        refine ⟨_, (Dict.lookup_set _ _ _ _).trans (if_pos rfl), ?_⟩
        rw [tracks.counted, tracks.cooldownKept]

/-! ## Answers of a run -/

def Answered (runtime : Runtime) (quota window cooldown : ℤ) (before : List Event) :
    Event → Prop
  | .recorded _ _ => True
  | .asked call =>
      (call.refused ↔ Benched cooldown before call.proposal.target ∨
        OtherBrake runtime quota window before call.proposal) ∧
      (call.answer = .ok (false, "cooldown") → Benched cooldown before call.proposal.target)

theorem admitProposal_benched {governor : ProposalGovernor} {proposal : Proposal} {ends : ℤ}
    (found : governor.cooldowns.lookup proposal.target = some ends)
    (early : governor.cycle + 1 < ends) :
    (governor.admitProposal runtime proposal).1 = .ok (false, "cooldown") := by
  have held : governor.advance.cooldowns = governor.cooldowns := rfl
  have benched : governor.admitProposal runtime proposal =
      (.ok (false, "cooldown"), governor.advance.block "cooldown") := by
    simp only [admitProposal, held, found]
    exact if_pos (decide_eq_true early)
  rw [benched]

/-- The answer for a target that is not benched. -/
def windowAnswer (runtime : Runtime) (governor : ProposalGovernor) (proposal : Proposal) :
    Except Raised (Bool × String) :=
  (proposalKey runtime proposal).map fun key =>
    if key ∈ governor.advance.admitted.map Admit.key then (false, "duplicate")
    else if governor.quota ≤ governor.advance.admitted.length then (false, "quota_exceeded")
    else (true, "admitted")

theorem admitProposal_free {governor : ProposalGovernor} {proposal : Proposal}
    (free : ¬∃ ends, governor.cooldowns.lookup proposal.target = some ends ∧
      governor.cycle + 1 < ends) :
    (governor.admitProposal runtime proposal).1 = windowAnswer runtime governor proposal := by
  rw [admitProposal, windowAnswer]
  dsimp only
  rw [if_neg]
  · rcases proposalKey runtime proposal with error | key
    · rfl
    · have held : governor.advance.quota = governor.quota := rfl
      simp only [any_key_iff, ge_iff_le, held, Except.map]
      split_ifs <;> rfl
  · intro benched
    split at benched
    case h_1 => exact Bool.false_ne_true benched
    case h_2 ends found => exact free ⟨ends, found, of_decide_eq_true benched⟩

theorem Tracks.answered (tracks : Tracks runtime quota window cooldown governed)
    (keeps : KeepsBenches cooldown governed) (proposal : Proposal) :
    Answered runtime quota window cooldown governed.history
      (.asked ⟨proposal, (governed.governor.admitProposal runtime proposal).1⟩) := by
  have benches := tracks.benched_iff keeps proposal.target
  by_cases benched : Benched cooldown governed.history proposal.target
  · obtain ⟨ends, found, early⟩ := benches.mp benched
    rw [Answered, Asked.refused, admitProposal_benched found early]
    exact ⟨iff_of_true rfl (.inl benched), fun _ => benched⟩
  rw [Answered, Asked.refused, admitProposal_free (fun free => benched (benches.mpr free)),
    windowAnswer, tracks.advance_keys, tracks.advance_length, tracks.quotaKept, OtherBrake,
    or_iff_right benched]
  rcases proposalKey runtime proposal with error | key
  · exact ⟨iff_of_false Bool.false_ne_true (fun ⟨_, keyed, _⟩ => nomatch keyed),
      fun answer => nomatch answer⟩
  · dsimp only [Except.map]
    split_ifs with repeated full
    · exact ⟨iff_of_true rfl ⟨key, rfl, .inl repeated⟩, fun answer => by simp at answer⟩
    · exact ⟨iff_of_true rfl ⟨key, rfl, .inr full⟩, fun answer => by simp at answer⟩
    · refine ⟨iff_of_false Bool.false_ne_true ?_, fun answer => by simp at answer⟩
      rintro ⟨other, keyed, braked⟩
      cases Except.ok.inj keyed
      exact braked.elim repeated full

theorem answered_run (runtime : Runtime) (quota window cooldown : ℤ) (calls : List Call) :
    Justified (Answered runtime quota window cooldown)
      (run runtime quota window cooldown calls).history := by
  suffices all : ∀ governed, Tracks runtime quota window cooldown governed →
      KeepsBenches cooldown governed →
      Justified (Answered runtime quota window cooldown) governed.history →
      Justified (Answered runtime quota window cooldown)
        (calls.foldl (Governed.call runtime) governed).history from
    all _ tracks_new (fun _ _ _ split => by simp at split) justified_nil
  induction calls with
  | nil => exact fun _ _ _ justified => justified
  | cons call calls induction =>
      intro governed tracks keeps justified
      refine induction _ (tracks.call call) (keeps.call tracks call) ?_
      cases call with
      | outcome proposal approved => exact justified.concat trivial
      | admission proposal => exact justified.concat (tracks.answered keeps proposal)

/-! ## The promise -/

/-- A bench that has lasted for as many calls as the cooldown has is over, unless the target is
rejected again. -/
theorem not_benched_of_full {earlier later : List Event} {rejected : Proposal}
    (full : cooldown ≤ (callsFor rejected.target later).length)
    (last : ∀ event ∈ later, ¬event.rejects rejected.target) :
    ¬Benched cooldown (earlier ++ .recorded rejected false :: later) rejected.target := by
  rintro ⟨before, other, after, split, same, recent⟩
  have few : (callsFor rejected.target later).length ≤ (askedCalls later).length :=
    List.length_filter_le _ _
  rw [List.append_cons] at split
  rcases split_append split with ⟨between, -, rfl⟩ | ⟨between, -, rfl⟩
  · rw [askedCalls_append, List.length_append] at recent
    omega
  · exact last (.recorded other false) (by simp) ⟨rfl, same⟩

/-- The bench lasts for the whole cooldown exactly when all of the calls that it should refuse come
while a brake is on. -/
theorem benchedInFull_iff (runtime : Runtime) (quota window cooldown : ℤ) (calls : List Call) :
    BenchedInFull cooldown (run runtime quota window cooldown calls).history ↔
      Justified (Covered runtime quota window cooldown)
        (run runtime quota window cooldown calls).history := by
  have answered := answered_run runtime quota window cooldown calls
  revert answered
  generalize (run runtime quota window cooldown calls).history = history
  intro answered
  constructor
  · intro full before event after split
    cases event with
    | recorded => trivial
    | asked call =>
        rintro ⟨earlier, rejected, later, rfl, same, few⟩
        rw [← same] at few
        exact (answered _ _ _ split).1.mp
          ((full earlier rejected later call after (by simpa using split) same.symm).1 few)
  · intro covered earlier rejected later call after split same
    have answer := answered _ _ _ split
    refine ⟨fun few => ?_, fun full last cooled => ?_⟩
    · rw [← same] at few
      exact answer.1.mpr (covered _ _ _ split ⟨earlier, rejected, later, rfl, same.symm, few⟩)
    · have benched := answer.2 cooled
      rw [same] at benched
      exact not_benched_of_full full.ge last benched

/-! ## The call that ends the bench -/

/-- A rejected change of a weight. -/
def lowerNews : Proposal := .weightChange Reference.runtime "news" (34 / 100) (29 / 100) "" ""

/-- Another change of the same weight. -/
def raiseNews : Proposal := .weightChange Reference.runtime "news" (34 / 100) (39 / 100) "" ""

/-- The change is let through and rejected, and the other one is put forward five times. -/
def fiveAttempts : List Call :=
  [.admission lowerNews, .outcome lowerNews false] ++ List.replicate 5 (.admission raiseNews)

/-- With the default cooldown of five, the fifth call after the rejection is let through. -/
theorem not_benchedInFull_fiveAttempts :
    ¬BenchedInFull 5 (run Reference.runtime 3 10 5 fiveAttempts).history := by
  intro full
  have fifth := (full [.asked ⟨lowerNews, .ok (true, "admitted")⟩] lowerNews
    (List.replicate 4 (.asked ⟨raiseNews, .ok (false, "cooldown")⟩))
    ⟨raiseNews, .ok (true, "admitted")⟩ [] (by with_unfolding_all rfl) rfl).1 (by decide)
  exact Bool.false_ne_true fifth

end ProposalGovernor

end TradingControl.Cognitive
