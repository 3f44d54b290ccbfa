import Mathlib.Data.List.TakeWhile
import TradingControl.Cognitive.Proposal
import TradingControl.Effects.History
import TradingControl.Python.Window

/-!
# What the governor lets through

Admissions and recorded outcomes come in any order.  Every call for an admission counts towards the
window, the refused ones too, and the admissions that have left the window leave the governor at the
next call.
-/

namespace TradingControl.Cognitive

open Python Effects

namespace ProposalGovernor

/-! ## Runs -/

/-- A call of the governor. -/
inductive Call where
  | admission (proposal : Proposal)
  | outcome (proposal : Proposal) (approved : Bool)

/-- A call for an admission, with its answer. -/
structure Asked where
  proposal : Proposal
  answer : Except Raised (Bool × String)

/-- What happened to a governor. -/
inductive Event where
  | asked (call : Asked)
  | recorded (proposal : Proposal) (approved : Bool)

/-- The governor with all that has happened to it. -/
structure Governed where
  governor : ProposalGovernor
  history : List Event := []

def Governed.call (runtime : Runtime) (governed : Governed) : Call → Governed
  | .admission proposal =>
      let (answer, next) := governed.governor.admitProposal runtime proposal
      { governor := next, history := governed.history ++ [.asked { proposal, answer }] }
  | .outcome proposal approved =>
      { governor := governed.governor.recordOutcome proposal approved
        history := governed.history ++ [.recorded proposal approved] }

def run (runtime : Runtime) (quota window cooldown : ℤ) (calls : List Call) : Governed :=
  calls.foldl (Governed.call runtime) { governor := { quota, window, cooldown } }

/-- The calls for admissions. -/
def askedCalls (history : List Event) : List Asked :=
  history.filterMap fun event => match event with
    | .asked call => some call
    | .recorded _ _ => none

/-- The call was let through. -/
def Asked.admitted (call : Asked) : Bool :=
  match call.answer with
  | .ok (admitted, _) => admitted
  | .error _ => false

/-- The key of a call that was let through. -/
def Asked.key (runtime : Runtime) (call : Asked) : Option String :=
  if call.admitted then (proposalKey runtime call.proposal).toOption else none

/-- The calls that the window of the next one reaches back to. -/
def windowBefore (window : ℤ) (history : List Event) : List Asked :=
  lastItems (window - 1).toNat (askedCalls history)

/-! ## What is promised -/

/-- Among consecutive calls for admissions, as many as the window has, few are let through and no
two of them with the same key. -/
def Limited (runtime : Runtime) (quota window : ℤ) (history : List Event) : Prop :=
  ∀ slice, slice <:+: askedCalls history → slice.length ≤ window.toNat →
    (slice.filter Asked.admitted).length ≤ quota.toNat ∧
      (slice.filter Asked.admitted).Pairwise fun first second =>
        proposalKey runtime first.proposal ≠ proposalKey runtime second.proposal

/-- A refusal names one of the three brakes, and that brake was on. -/
def Braked (runtime : Runtime) (quota window cooldown : ℤ) (before : List Event)
    (proposal : Proposal) (reason : String) : Prop :=
  (reason = "cooldown" ∧ ∃ earlier rejected later,
    before = earlier ++ .recorded rejected false :: later ∧ rejected.target = proposal.target ∧
      ((askedCalls later).length + 1 : ℤ) < cooldown) ∨
  (reason = "duplicate" ∧ ∃ call ∈ windowBefore window before, call.admitted ∧
    proposalKey runtime call.proposal = proposalKey runtime proposal) ∨
  (reason = "quota_exceeded" ∧
    quota ≤ ((windowBefore window before).filter Asked.admitted).length)

def Refused (runtime : Runtime) (quota window cooldown : ℤ) : List Event → Event → Prop
  | before, .asked ⟨proposal, .ok (false, reason)⟩ =>
      Braked runtime quota window cooldown before proposal reason
  | _, _ => True

/-! ## One admission -/

/-- The ways an admission can end. -/
inductive Ruled (runtime : Runtime) (governor : ProposalGovernor) (proposal : Proposal) :
    Except Raised (Bool × String) → ProposalGovernor → Prop where
  | benched (ends : ℤ) (found : governor.cooldowns.lookup proposal.target = some ends)
      (early : governor.cycle + 1 < ends) :
      Ruled runtime governor proposal (.ok (false, "cooldown")) (governor.advance.block "cooldown")
  | unkeyed (error : Raised) (raised : proposalKey runtime proposal = .error error) :
      Ruled runtime governor proposal (.error error) governor.advance
  | repeated (key : String) (keyed : proposalKey runtime proposal = .ok key)
      (held : key ∈ governor.advance.admitted.map Admit.key) :
      Ruled runtime governor proposal (.ok (false, "duplicate"))
        (governor.advance.block "duplicate")
  | full (reached : governor.quota ≤ governor.advance.admitted.length) :
      Ruled runtime governor proposal (.ok (false, "quota_exceeded"))
        (governor.advance.block "quota_exceeded")
  | passed (key : String) (keyed : proposalKey runtime proposal = .ok key)
      (new : key ∉ governor.advance.admitted.map Admit.key)
      (room : (governor.advance.admitted.length : ℤ) < governor.quota) :
      Ruled runtime governor proposal (.ok (true, "admitted"))
        { governor.advance with
          admitted := governor.advance.admitted ++ [⟨governor.advance.cycle, key⟩] }

theorem any_key_iff (key : String) (entries : List Admit) :
    entries.any (·.key = key) = true ↔ key ∈ entries.map Admit.key := by
  simp

/-- A target that is not benched goes on to the window. -/
theorem ruled_window (runtime : Runtime) (governor : ProposalGovernor) (proposal : Proposal)
    {ruling : Except Raised (Bool × String) × ProposalGovernor}
    (isRuling : ruling = match proposalKey runtime proposal with
      | .error error => (.error error, governor.advance)
      | .ok key =>
          if governor.advance.admitted.any (·.key = key) then
            (.ok (false, "duplicate"), governor.advance.block "duplicate")
          else if (governor.advance.admitted.length : ℤ) ≥ governor.advance.quota then
            (.ok (false, "quota_exceeded"), governor.advance.block "quota_exceeded")
          else
            (.ok (true, "admitted"),
              { governor.advance with
                admitted := governor.advance.admitted ++ [⟨governor.advance.cycle, key⟩] })) :
    Ruled runtime governor proposal ruling.1 ruling.2 := by
  subst isRuling
  rcases keyed : proposalKey runtime proposal with error | key
  · exact .unkeyed error keyed
  · dsimp only
    by_cases held : governor.advance.admitted.any (·.key = key) = true
    · rw [if_pos held]
      exact .repeated key keyed ((any_key_iff key _).mp held)
    · rw [if_neg held]
      by_cases reached : (governor.advance.admitted.length : ℤ) ≥ governor.advance.quota
      · rw [if_pos reached]
        exact .full reached
      · rw [if_neg reached]
        exact .passed key keyed (fun new => held ((any_key_iff key _).mpr new)) (not_le.mp reached)

theorem ruled (runtime : Runtime) (governor : ProposalGovernor) (proposal : Proposal) :
    Ruled runtime governor proposal (governor.admitProposal runtime proposal).1
      (governor.admitProposal runtime proposal).2 := by
  have held : governor.advance.cooldowns = governor.cooldowns := rfl
  rcases found : governor.cooldowns.lookup proposal.target with _ | ends
  · refine ruled_window runtime governor proposal ?_
    simp only [admitProposal, held, found]
    exact if_neg Bool.false_ne_true
  · by_cases early : governor.cycle + 1 < ends
    · have benched : governor.admitProposal runtime proposal =
          (.ok (false, "cooldown"), governor.advance.block "cooldown") := by
        simp only [admitProposal, held, found]
        exact if_pos (decide_eq_true early)
      rw [benched]
      exact .benched ends found early
    · refine ruled_window runtime governor proposal ?_
      simp only [admitProposal, held, found]
      exact if_neg fun benched => early (of_decide_eq_true benched)

/-! ## Admissions by cycle -/

/-- The admissions of some calls that come after a number of others. -/
def admissions (runtime : Runtime) (earlier : ℕ) (calls : List Asked) : List Admit :=
  (calls.zipIdx (earlier + 1)).filterMap fun (call, cycle) => (call.key runtime).map (⟨cycle, ·⟩)

theorem admissions_append (runtime : Runtime) (earlier : ℕ) (before recent : List Asked) :
    admissions runtime earlier (before ++ recent) =
      admissions runtime earlier before ++ admissions runtime (earlier + before.length) recent := by
  rw [admissions, List.zipIdx_append, List.filterMap_append, Nat.add_right_comm]
  rfl

theorem admissions_singleton (runtime : Runtime) (earlier : ℕ) (call : Asked) :
    admissions runtime earlier [call] =
      ((call.key runtime).map fun key => Admit.mk (earlier + 1 : ℕ) key).toList := by
  rcases found : call.key runtime with _ | key <;> simp [admissions, found]

theorem map_key_admissions (runtime : Runtime) (earlier : ℕ) (calls : List Asked) :
    (admissions runtime earlier calls).map Admit.key = calls.filterMap (Asked.key runtime) := by
  induction calls generalizing earlier with
  | nil => rfl
  | cons call calls induction =>
      rw [← List.singleton_append, admissions_append, List.map_append, induction,
        List.filterMap_append, admissions_singleton]
      rcases found : call.key runtime with _ | key <;> simp [found]

theorem cycle_of_mem_admissions {runtime : Runtime} {earlier : ℕ} {calls : List Asked}
    {entry : Admit} (member : entry ∈ admissions runtime earlier calls) :
    (earlier : ℤ) < entry.cycle ∧ entry.cycle ≤ earlier + calls.length := by
  rw [admissions, List.mem_filterMap] at member
  obtain ⟨⟨call, cycle⟩, place, made⟩ := member
  obtain ⟨key, -, rfl⟩ := Option.map_eq_some_iff.mp made
  have range := List.mem_zipIdx place
  dsimp only
  omega

/-- The admissions that are later than a bound are those of the calls that come after it. -/
theorem dropWhile_admissions (runtime : Runtime) {window : ℤ} (calls : List Asked) :
    (admissions runtime 0 calls).dropWhile
        (fun entry => decide (entry.cycle ≤ calls.length + 1 - window)) =
      admissions runtime (calls.length - (window - 1).toNat)
        (lastItems (window - 1).toNat calls) := by
  have parts : calls.take (calls.length - (window - 1).toNat) ++
      lastItems (window - 1).toNat calls = calls := List.take_append_drop _ _
  have size : (calls.take (calls.length - (window - 1).toNat)).length =
      calls.length - (window - 1).toNat := List.length_take_of_le (Nat.sub_le _ _)
  conv_lhs => rw [← parts]
  rw [admissions_append, size, Nat.zero_add, parts, List.dropWhile_append_of_pos]
  · rw [List.dropWhile_eq_self_iff]
    intro nonempty
    have late := cycle_of_mem_admissions (List.getElem_mem nonempty)
    have few : (lastItems (window - 1).toNat calls).length ≤ (window - 1).toNat := by
      rw [lastItems, List.length_drop]
      omega
    simp only [decide_eq_true_eq, not_le]
    by_cases short : window < 1
    · omega
    · omega
  · intro entry member
    have early := cycle_of_mem_admissions member
    rw [size] at early
    exact decide_eq_true (by omega)

/-! ## What a run keeps -/

/-- What the governor remembers of its history. -/
structure Tracks (runtime : Runtime) (quota window cooldown : ℤ) (governed : Governed) : Prop where
  quotaKept : governed.governor.quota = quota
  windowKept : governed.governor.window = window
  cooldownKept : governed.governor.cooldown = cooldown
  counted : governed.governor.cycle = (askedCalls governed.history).length
  /-- Only admissions that have left the window are gone. -/
  remembered : ∃ gone, admissions runtime 0 (askedCalls governed.history) =
    gone ++ governed.governor.admitted ∧
      ∀ entry ∈ gone, entry.cycle ≤ governed.governor.cycle - window
  /-- A bench goes back to a rejection. -/
  benched : ∀ target ends, governed.governor.cooldowns.lookup target = some ends →
    ∃ earlier rejected later, governed.history = earlier ++ .recorded rejected false :: later ∧
      rejected.target = target ∧ ends = (askedCalls earlier).length + cooldown
  keyed : ∀ call ∈ askedCalls governed.history, call.admitted →
    ∃ key, proposalKey runtime call.proposal = .ok key

variable {runtime : Runtime} {quota window cooldown : ℤ} {governed : Governed}

theorem tracks_new : Tracks runtime quota window cooldown
    { governor := { quota, window, cooldown } } where
  quotaKept := rfl
  windowKept := rfl
  cooldownKept := rfl
  counted := rfl
  remembered := ⟨[], rfl, by simp⟩
  benched := by simp
  keyed := by simp [askedCalls]

theorem Tracks.advance_admitted (tracks : Tracks runtime quota window cooldown governed) :
    governed.governor.advance.admitted =
      admissions runtime ((askedCalls governed.history).length - (window - 1).toNat)
        (windowBefore window governed.history) := by
  obtain ⟨gone, parts, left⟩ := tracks.remembered
  rw [windowBefore, ← dropWhile_admissions, parts, List.dropWhile_append_of_pos]
  · rw [advance, tracks.windowKept, tracks.counted]
  · intro entry member
    have old := left entry member
    rw [tracks.counted] at old
    exact decide_eq_true (by omega)

/-- The keys that the next call is compared with. -/
theorem Tracks.advance_keys (tracks : Tracks runtime quota window cooldown governed) :
    governed.governor.advance.admitted.map Admit.key =
      (windowBefore window governed.history).filterMap (Asked.key runtime) := by
  rw [tracks.advance_admitted, map_key_admissions]

theorem length_filterMap_key {calls : List Asked}
    (keyed : ∀ call ∈ calls, call.admitted → ∃ key, proposalKey runtime call.proposal = .ok key) :
    (calls.filterMap (Asked.key runtime)).length = (calls.filter Asked.admitted).length := by
  induction calls with
  | nil => rfl
  | cons call calls induction =>
      rw [List.forall_mem_cons] at keyed
      by_cases admitted : call.admitted = true
      · obtain ⟨key, isKey⟩ := keyed.1 admitted
        have found : call.key runtime = some key := by
          rw [Asked.key, if_pos admitted, isKey]
          rfl
        rw [List.filterMap_cons_some found, List.filter_cons_of_pos admitted, List.length_cons,
          List.length_cons, induction keyed.2]
      · have found : call.key runtime = none := if_neg admitted
        rw [List.filterMap_cons_none found, List.filter_cons_of_neg admitted, induction keyed.2]

theorem mem_windowBefore {call : Asked} {history : List Event}
    (member : call ∈ windowBefore window history) : call ∈ askedCalls history :=
  List.mem_of_mem_drop member

/-- How many admissions the next call is counted with. -/
theorem Tracks.advance_length (tracks : Tracks runtime quota window cooldown governed) :
    governed.governor.advance.admitted.length =
      ((windowBefore window governed.history).filter Asked.admitted).length := by
  rw [← List.length_map Admit.key, tracks.advance_keys,
    length_filterMap_key fun call member => tracks.keyed call (mem_windowBefore member)]

theorem askedCalls_append (first second : List Event) :
    askedCalls (first ++ second) = askedCalls first ++ askedCalls second :=
  List.filterMap_append

theorem askedCalls_concat_asked (history : List Event) (call : Asked) :
    askedCalls (history ++ [.asked call]) = askedCalls history ++ [call] :=
  askedCalls_append _ _

theorem askedCalls_concat_recorded (history : List Event) (proposal : Proposal) (approved : Bool) :
    askedCalls (history ++ [.recorded proposal approved]) = askedCalls history := by
  rw [askedCalls_append]
  exact List.append_nil _

theorem Tracks.benched_append (tracks : Tracks runtime quota window cooldown governed)
    (later : List Event) {target : String} {ends : ℤ}
    (found : governed.governor.cooldowns.lookup target = some ends) :
    ∃ earlier rejected after, governed.history ++ later =
      earlier ++ .recorded rejected false :: after ∧
        rejected.target = target ∧ ends = (askedCalls earlier).length + cooldown := by
  obtain ⟨earlier, rejected, after, split, same, isEnd⟩ := tracks.benched target ends found
  refine ⟨earlier, rejected, after ++ later, ?_, same, isEnd⟩
  rw [split, List.append_assoc, List.cons_append]

theorem Tracks.recorded (tracks : Tracks runtime quota window cooldown governed)
    (proposal : Proposal) (approved : Bool) :
    Tracks runtime quota window cooldown
      (governed.call runtime (.outcome proposal approved)) := by
  have calls := askedCalls_concat_recorded governed.history proposal approved
  have same : askedCalls (governed.call runtime (.outcome proposal approved)).history =
      askedCalls governed.history := calls
  cases approved with
  | true =>
      exact
        { quotaKept := tracks.quotaKept
          windowKept := tracks.windowKept
          cooldownKept := tracks.cooldownKept
          counted := by rw [same]; exact tracks.counted
          remembered := by rw [same]; exact tracks.remembered
          benched := fun target ends found => tracks.benched_append _ found
          keyed := by rw [same]; exact tracks.keyed }
  | false =>
      exact
        { quotaKept := tracks.quotaKept
          windowKept := tracks.windowKept
          cooldownKept := tracks.cooldownKept
          counted := by rw [same]; exact tracks.counted
          remembered := by rw [same]; exact tracks.remembered
          keyed := by rw [same]; exact tracks.keyed
          benched := by
            intro target ends found
            change (Dict.set proposal.target (governed.governor.cycle + governed.governor.cooldown)
              governed.governor.cooldowns).lookup target = some ends at found
            rw [Dict.lookup_set] at found
            split at found
            case isTrue same =>
              refine ⟨governed.history, proposal, [], rfl, same.symm, ?_⟩
              rw [← Option.some.inj found, tracks.counted, tracks.cooldownKept]
            case isFalse => exact tracks.benched_append _ found }

theorem Tracks.advance_remembered (tracks : Tracks runtime quota window cooldown governed) :
    ∃ gone, admissions runtime 0 (askedCalls governed.history) =
      gone ++ governed.governor.advance.admitted ∧
        ∀ entry ∈ gone, entry.cycle ≤ governed.governor.cycle + 1 - window := by
  obtain ⟨gone, parts, left⟩ := tracks.remembered
  let old (entry : Admit) : Bool :=
    decide (entry.cycle ≤ governed.governor.cycle + 1 - governed.governor.window)
  refine ⟨gone ++ governed.governor.admitted.takeWhile old, ?_, ?_⟩
  · rw [parts, List.append_assoc]
    exact congrArg (gone ++ ·) List.takeWhile_append_dropWhile.symm
  · intro entry member
    rcases List.mem_append.mp member with earlier | now
    · have left := left entry earlier
      omega
    · have within : old entry = true := List.mem_takeWhile_imp now
      rw [← tracks.windowKept]
      exact of_decide_eq_true within

/-- What every answer leaves: the next cycle, and the admissions in the window with the new one. -/
theorem Tracks.asked (tracks : Tracks runtime quota window cooldown governed) {call : Asked}
    (keyed : call.admitted → ∃ key, proposalKey runtime call.proposal = .ok key)
    {next : ProposalGovernor}
    (isNext : ∃ blocked, next =
      { governed.governor.advance with
        admitted := governed.governor.advance.admitted ++
          admissions runtime (askedCalls governed.history).length [call]
        blocked := blocked }) :
    Tracks runtime quota window cooldown
      { governor := next, history := governed.history ++ [.asked call] } := by
  obtain ⟨blocked, rfl⟩ := isNext
  have calls := askedCalls_concat_asked governed.history call
  exact
    { quotaKept := tracks.quotaKept
      windowKept := tracks.windowKept
      cooldownKept := tracks.cooldownKept
      counted := by
        rw [calls, List.length_append, List.length_singleton, Nat.cast_add, ← tracks.counted]
        rfl
      remembered := by
        obtain ⟨gone, parts, left⟩ := tracks.advance_remembered
        refine ⟨gone, ?_, left⟩
        rw [calls, admissions_append, parts, Nat.zero_add, List.append_assoc]
      benched := fun target ends found => tracks.benched_append _ found
      keyed := by
        rw [calls]
        intro other member admitted
        rcases List.mem_append.mp member with earlier | last
        · exact tracks.keyed other earlier admitted
        · rw [List.mem_singleton.mp last] at admitted ⊢
          exact keyed admitted }

/-- A refusal or an exception lets nothing through. -/
theorem Tracks.refused (tracks : Tracks runtime quota window cooldown governed) {call : Asked}
    (refused : call.admitted = false) {next : ProposalGovernor}
    (isNext : ∃ blocked, next = { governed.governor.advance with blocked := blocked }) :
    Tracks runtime quota window cooldown
      { governor := next, history := governed.history ++ [.asked call] } := by
  have none : call.key runtime = none := if_neg (by rw [refused]; exact Bool.false_ne_true)
  obtain ⟨blocked, rfl⟩ := isNext
  refine tracks.asked (fun admitted => ?_) ⟨blocked, ?_⟩
  · rw [refused] at admitted
    exact absurd admitted Bool.false_ne_true
  · rw [admissions_singleton, none, Option.map_none, Option.toList_none, List.append_nil]

theorem Tracks.admission (tracks : Tracks runtime quota window cooldown governed)
    (proposal : Proposal) :
    Tracks runtime quota window cooldown (governed.call runtime (.admission proposal)) := by
  have ruling := ruled runtime governed.governor proposal
  rw [Governed.call]
  dsimp only
  revert ruling
  generalize governed.governor.admitProposal runtime proposal = answered
  obtain ⟨answer, next⟩ := answered
  rintro (⟨ends, found, early⟩ | ⟨error, raised⟩ | ⟨key, keyed, held⟩ | ⟨reached⟩ |
    ⟨key, keyed, new, room⟩)
  · exact tracks.refused rfl ⟨_, rfl⟩
  · exact tracks.refused rfl ⟨_, rfl⟩
  · exact tracks.refused rfl ⟨_, rfl⟩
  · exact tracks.refused rfl ⟨_, rfl⟩
  · refine tracks.asked (fun _ => ⟨key, keyed⟩) ⟨governed.governor.blocked, ?_⟩
    have found : (Asked.mk proposal (.ok (true, "admitted"))).key runtime = some key := by
      rw [Asked.key, if_pos (by rfl), keyed]
      rfl
    rw [admissions_singleton, found, Option.map_some, Option.toList_some, Nat.cast_add,
      ← tracks.counted]
    rfl

theorem Tracks.call (tracks : Tracks runtime quota window cooldown governed) (call : Call) :
    Tracks runtime quota window cooldown (governed.call runtime call) := by
  cases call with
  | admission proposal => exact tracks.admission proposal
  | outcome proposal approved => exact tracks.recorded proposal approved

/-! ## The promise -/

theorem limited_nil : Limited runtime quota window [] := by
  intro slice consecutive _
  have empty : slice = [] := List.infix_nil.mp consecutive
  subst empty
  exact ⟨Nat.zero_le _, .nil⟩

/-- A call that is not let through. -/
theorem Limited.refused {history : List Event} (limited : Limited runtime quota window history)
    {call : Asked} (refused : call.admitted = false) :
    Limited runtime quota window (history ++ [.asked call]) := by
  intro slice consecutive size
  rw [askedCalls_concat_asked, List.infix_concat_iff] at consecutive
  rcases consecutive with last | earlier
  · rcases List.suffix_concat_iff.mp last with rfl | ⟨before, rfl, suffix⟩
    · exact ⟨Nat.zero_le _, .nil⟩
    · rw [List.length_append] at size
      have earlier := limited before suffix.isInfix (by omega)
      rw [List.filter_append, List.filter_singleton, refused]
      simpa using earlier
  · exact limited slice earlier size

/-- A call that is let through is a new one, while there is room. -/
theorem Limited.passed (limited : Limited runtime quota window governed.history)
    (tracks : Tracks runtime quota window cooldown governed) {call : Asked} {key : String}
    (keyed : proposalKey runtime call.proposal = .ok key)
    (new : key ∉ governed.governor.advance.admitted.map Admit.key)
    (room : (governed.governor.advance.admitted.length : ℤ) < quota) :
    Limited runtime quota window (governed.history ++ [.asked call]) := by
  intro slice consecutive size
  rw [askedCalls_concat_asked, List.infix_concat_iff] at consecutive
  rcases consecutive with last | earlier
  case inr => exact limited slice earlier size
  rcases List.suffix_concat_iff.mp last with rfl | ⟨before, rfl, suffix⟩
  · exact ⟨Nat.zero_le _, .nil⟩
  rw [List.length_append, List.length_singleton] at size
  have distinct := (limited before suffix.isInfix (by omega)).2
  -- the slice before the call lies in the window that the call is compared with
  have inWindow : before <:+ windowBefore window governed.history := by
    refine List.suffix_of_suffix_length_le suffix (List.drop_suffix _ _) ?_
    have shorter := suffix.length_le
    rw [windowBefore, lastItems, List.length_drop]
    omega
  have few : (before.filter Asked.admitted).length ≤
      governed.governor.advance.admitted.length := by
    rw [tracks.advance_length]
    exact (inWindow.sublist.filter _).length_le
  rw [List.filter_append, List.length_append]
  have one : ([call].filter Asked.admitted).length ≤ 1 := List.length_filter_le _ _
  refine ⟨by omega, List.pairwise_append.mpr ⟨distinct, ?_, ?_⟩⟩
  · exact (List.pairwise_singleton _ call).sublist List.filter_sublist
  · intro first isFirst second isSecond same
    rw [List.mem_filter] at isFirst isSecond
    rw [List.mem_singleton.mp isSecond.1, keyed] at same
    refine new ?_
    rw [tracks.advance_keys, List.mem_filterMap]
    refine ⟨first, inWindow.subset isFirst.1, ?_⟩
    rw [Asked.key, if_pos isFirst.2, same]
    rfl

theorem Limited.call (limited : Limited runtime quota window governed.history)
    (tracks : Tracks runtime quota window cooldown governed) (call : Call) :
    Limited runtime quota window (governed.call runtime call).history := by
  cases call with
  | outcome proposal approved =>
      intro slice consecutive
      rw [Governed.call, askedCalls_concat_recorded] at consecutive
      exact limited slice consecutive
  | admission proposal =>
      have ruling := ruled runtime governed.governor proposal
      rw [Governed.call]
      dsimp only
      revert ruling
      generalize governed.governor.admitProposal runtime proposal = answered
      obtain ⟨answer, next⟩ := answered
      rintro (⟨ends, found, early⟩ | ⟨error, raised⟩ | ⟨key, keyed, held⟩ | ⟨reached⟩ |
        ⟨key, keyed, new, room⟩)
      · exact limited.refused rfl
      · exact limited.refused rfl
      · exact limited.refused rfl
      · exact limited.refused rfl
      · rw [tracks.quotaKept] at room
        exact limited.passed tracks keyed new room

theorem Tracks.refusal (tracks : Tracks runtime quota window cooldown governed)
    (proposal : Proposal) :
    Refused runtime quota window cooldown governed.history
      (.asked ⟨proposal, (governed.governor.admitProposal runtime proposal).1⟩) := by
  have ruling := ruled runtime governed.governor proposal
  revert ruling
  generalize governed.governor.admitProposal runtime proposal = answered
  obtain ⟨answer, next⟩ := answered
  rintro (⟨ends, found, early⟩ | ⟨error, raised⟩ | ⟨key, keyed, held⟩ | ⟨reached⟩ |
    ⟨key, keyed, new, room⟩)
  · obtain ⟨earlier, rejected, later, split, same, isEnd⟩ := tracks.benched _ ends found
    refine .inl ⟨rfl, earlier, rejected, later, split, same, ?_⟩
    rw [tracks.counted, split, askedCalls_append, List.length_append, isEnd] at early
    change ((askedCalls earlier).length + (askedCalls later).length : ℕ) + (1 : ℤ) < _ at early
    omega
  · trivial
  · rw [tracks.advance_keys, List.mem_filterMap] at held
    obtain ⟨call, member, isKey⟩ := held
    by_cases admitted : call.admitted = true
    · rw [Asked.key, if_pos admitted] at isKey
      refine .inr (.inl ⟨rfl, call, member, admitted, ?_⟩)
      obtain ⟨other, isOther⟩ := tracks.keyed call (mem_windowBefore member) admitted
      rw [isOther, Except.toOption, Option.some.injEq] at isKey
      rw [isOther, isKey, keyed]
    · rw [Asked.key, if_neg admitted] at isKey
      exact absurd isKey (Option.some_ne_none _).symm
  · rw [tracks.quotaKept, tracks.advance_length] at reached
    exact .inr (.inr ⟨rfl, reached⟩)
  · trivial

theorem Tracks.warranted (tracks : Tracks runtime quota window cooldown governed)
    (justified : Justified (Refused runtime quota window cooldown) governed.history)
    (call : Call) :
    Justified (Refused runtime quota window cooldown) (governed.call runtime call).history := by
  cases call with
  | outcome proposal approved => exact justified.concat trivial
  | admission proposal => exact justified.concat (tracks.refusal proposal)

/-- Whatever is called in whatever order, the window holds no more than the quota and no key twice,
and a call is refused only by a brake that is on. -/
theorem governed_throughout (runtime : Runtime) (quota window cooldown : ℤ) (calls : List Call) :
    Limited runtime quota window (run runtime quota window cooldown calls).history ∧
      Justified (Refused runtime quota window cooldown)
        (run runtime quota window cooldown calls).history := by
  suffices all : ∀ governed, Tracks runtime quota window cooldown governed →
      Limited runtime quota window governed.history →
      Justified (Refused runtime quota window cooldown) governed.history →
      Limited runtime quota window (calls.foldl (Governed.call runtime) governed).history ∧
        Justified (Refused runtime quota window cooldown)
          (calls.foldl (Governed.call runtime) governed).history from
    all _ tracks_new limited_nil justified_nil
  induction calls with
  | nil => exact fun _ _ limited justified => ⟨limited, justified⟩
  | cons call calls induction =>
      intro governed tracks limited justified
      exact induction _ (tracks.call call) (limited.call tracks call)
        (tracks.warranted justified call)

end ProposalGovernor

end TradingControl.Cognitive
