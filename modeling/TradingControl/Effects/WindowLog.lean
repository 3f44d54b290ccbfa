import Mathlib.Algebra.Order.Group.Defs
import Mathlib.Algebra.Order.Sub.Basic
import Mathlib.Data.List.Basic

/-!
# Logs of a sliding window

A limiter writes its events down, forgets what is older than a window, and lets an event happen only
while few are written down.  As long as every event is written down no earlier than it happens, no
window holds more events than the limiter allows.  Where the log follows the events exactly, so many
successive events are a window apart.
-/

namespace WindowLog

variable {τ : Type} [AddCommGroup τ] [LinearOrder τ]

/-! ## Limit -/

section Limit

/-- Entries older than the window leave the log at its old end. -/
def prune (window now : τ) (log : List τ) : List τ := log.dropWhile (· < now - window)

/-- How many times are no earlier than another. -/
def since (start : τ) (times : List τ) : ℕ := times.countP (start ≤ ·)

/-- As far back as the window goes, the log has an entry for every event. -/
def Covers (window now : τ) (log events : List τ) : Prop :=
  ∀ start, now - window ≤ start → since start events ≤ since start log

/-- No window holds more events than the limit. -/
def Limited (window : τ) (limit : ℕ) (events : List τ) : Prop :=
  ∀ start, events.countP (fun event => start ≤ event ∧ event ≤ start + window) ≤ limit

variable {window now start : τ} {log events : List τ}

theorem since_prune (recent : now - window ≤ start) :
    since start (prune window now log) = since start log := by
  induction log with
  | nil => rfl
  | cons entry log induction =>
      rw [prune, List.dropWhile_cons]
      split
      case isTrue old =>
        have older : ¬start ≤ entry := not_le.mpr ((of_decide_eq_true old).trans_le recent)
        rw [since, since, List.countP_cons_of_neg (by simpa using older)]
        exact induction
      case isFalse => rfl

theorem covers_nil (window now : τ) (log : List τ) : Covers window now log [] :=
  fun _ _ => Nat.zero_le _

theorem Covers.prune (covers : Covers window now log events) :
    Covers window now (prune window now log) events := by
  intro start recent
  rw [since_prune recent]
  exact covers start recent

theorem Covers.record (covers : Covers window now log events) {event entry : τ}
    (written : event ≤ entry) : Covers window now (log ++ [entry]) (events ++ [event]) := by
  intro start recent
  have earlier := covers start recent
  simp only [since, List.countP_append, List.countP_singleton, decide_eq_true_eq] at earlier ⊢
  by_cases after : start ≤ event
  · rw [if_pos after, if_pos (after.trans written)]
    omega
  · rw [if_neg after]
    omega

variable [IsOrderedAddMonoid τ]

theorem Covers.wait {later : τ} (covers : Covers window now log events) (passes : now ≤ later) :
    Covers window later log events :=
  fun start recent => covers start ((sub_le_sub_right passes window).trans recent)

/-- An event that happens while the log has room keeps the limit. -/
theorem Limited.record {limit : ℕ} (limited : Limited window limit events)
    (covers : Covers window now log events) (room : log.length < limit) :
    Limited window limit (events ++ [now]) := by
  intro start
  rw [List.countP_append, List.countP_singleton]
  by_cases within : start ≤ now ∧ now ≤ start + window
  · rw [if_pos (decide_eq_true within)]
    have recent : now - window ≤ start := sub_le_iff_le_add.mpr within.2
    have inWindow : events.countP (fun event => start ≤ event ∧ event ≤ start + window) ≤
        since start events := by
      refine List.countP_mono_left fun event _ holds => ?_
      exact decide_eq_true (of_decide_eq_true holds).1
    have logged := covers start recent
    have bounded : since start log ≤ log.length := List.countP_le_length
    omega
  · rw [if_neg (by simpa using within)]
    exact limited start

end Limit

/-! ## Spacing -/

/-- The entries that are younger than the window. -/
def recent (window now : τ) (log : List τ) : List τ := log.filter (now - window < ·)

/-- How many events lie in the window that ends now. -/
def inWindow (window now : τ) (events : List τ) : ℕ :=
  events.countP fun event => now - window < event ∧ event ≤ now

/-- One more successive event than the limit spans the window. -/
def Spaced (window : τ) (limit : ℕ) (events : List τ) : Prop :=
  ∀ (i : ℕ) (early late : τ), events[i]? = some early → events[i + limit]? = some late →
    early + window ≤ late

/-- The log lacks only events that the window has left behind. -/
structure Follows (window now : τ) (log events : List τ) : Prop where
  ordered : events.Pairwise (· ≤ ·)
  past : ∀ event ∈ events, event ≤ now
  kept : ∃ gone, events = gone ++ log ∧ ∀ event ∈ gone, event ≤ now - window

variable {window now : τ} {log events : List τ} {limit : ℕ}

theorem follows_nil : Follows window now [] [] :=
  ⟨.nil, by simp, [], rfl, by simp⟩

/-- Of an ordered log, the window leaves a part at its end. -/
theorem exists_append_recent (ordered : log.Pairwise (· ≤ ·)) :
    ∃ gone, log = gone ++ recent window now log ∧ ∀ entry ∈ gone, entry ≤ now - window := by
  induction log with
  | nil => exact ⟨[], rfl, by simp⟩
  | cons entry log induction =>
      obtain ⟨least, ordered⟩ := List.pairwise_cons.mp ordered
      by_cases young : now - window < entry
      · have all : recent window now (entry :: log) = entry :: log := by
          refine List.filter_eq_self.mpr fun other member => decide_eq_true ?_
          rcases List.mem_cons.mp member with rfl | later
          · exact young
          · exact young.trans_le (least other later)
        exact ⟨[], all.symm, by simp⟩
      · obtain ⟨gone, split, old⟩ := induction ordered
        refine ⟨entry :: gone, ?_, List.forall_mem_cons.mpr ⟨not_lt.mp young, old⟩⟩
        rw [recent, List.filter_cons_of_neg (by simpa using young), List.cons_append]
        exact congrArg (entry :: ·) split

namespace Follows

theorem log_ordered (follows : Follows window now log events) : log.Pairwise (· ≤ ·) := by
  obtain ⟨gone, rfl, -⟩ := follows.kept
  exact (List.pairwise_append.mp follows.ordered).2.1

theorem recent (follows : Follows window now log events) :
    Follows window now (recent window now log) events := by
  obtain ⟨gone, split, old⟩ := follows.kept
  obtain ⟨more, logSplit, older⟩ : ∃ gone, log = gone ++ WindowLog.recent window now log ∧
      ∀ entry ∈ gone, entry ≤ now - window := exists_append_recent follows.log_ordered
  refine ⟨follows.ordered, follows.past, gone ++ more, ?_, ?_⟩
  · rw [List.append_assoc, ← logSplit]
    exact split
  · simpa only [List.forall_mem_append] using ⟨old, older⟩

/-- A log that holds only what the window has left can be emptied. -/
theorem rest (follows : Follows window now log events)
    (rested : ∀ entry ∈ log, entry ≤ now - window) : Follows window now [] events := by
  obtain ⟨gone, split, old⟩ := follows.kept
  refine ⟨follows.ordered, follows.past, events, (List.append_nil events).symm, ?_⟩
  rw [split]
  exact List.forall_mem_append.mpr ⟨old, rested⟩

theorem record (follows : Follows window now log events) :
    Follows window now (log ++ [now]) (events ++ [now]) := by
  obtain ⟨gone, split, old⟩ := follows.kept
  refine ⟨?_, ?_, gone, by rw [split, List.append_assoc], old⟩
  · refine List.pairwise_append.mpr ⟨follows.ordered, List.pairwise_singleton _ _, ?_⟩
    intro event member last isLast
    rw [List.mem_singleton.mp isLast]
    exact follows.past event member
  · simpa only [List.forall_mem_append, List.forall_mem_singleton] using
      ⟨follows.past, le_refl now⟩

/-- An event that finds fewer entries than the limit is far enough from the one so many before. -/
theorem spaced_record [IsOrderedAddMonoid τ] (follows : Follows window now log events)
    (spaced : Spaced window limit events) (room : log.length < limit) :
    Spaced window limit (events ++ [now]) := by
  obtain ⟨gone, split, old⟩ := follows.kept
  intro i early late atEarly atLate
  rcases Nat.lt_trichotomy (i + limit) events.length with within | last | beyond
  · rw [List.getElem?_append_left within] at atLate
    rw [List.getElem?_append_left (by omega)] at atEarly
    exact spaced i early late atEarly atLate
  · rw [List.getElem?_append_right last.ge, last, Nat.sub_self] at atLate
    obtain rfl : now = late := Option.some.inj atLate
    have counted : events.length = gone.length + log.length := by rw [split, List.length_append]
    have before : i < gone.length := by omega
    rw [split, List.append_assoc, List.getElem?_append_left before] at atEarly
    exact le_sub_iff_add_le.mp (old early (List.mem_of_getElem? atEarly))
  · have outside : (events ++ [now]).length ≤ i + limit := by
      rw [List.length_append, List.length_singleton]
      exact beyond
    rw [List.getElem?_eq_none outside] at atLate
    cases atLate

theorem length_le_inWindow (follows : Follows window now log events)
    (young : ∀ entry ∈ log, now - window < entry) : log.length ≤ inWindow window now events := by
  obtain ⟨gone, split, -⟩ := follows.kept
  have all : inWindow window now log = log.length := by
    refine List.countP_eq_length.mpr fun entry member => decide_eq_true ⟨young entry member, ?_⟩
    exact follows.past entry (split ▸ List.mem_append_right _ member)
  rw [inWindow, split, List.countP_append]
  exact all.ge.trans (Nat.le_add_left _ _)

theorem wait [IsOrderedAddMonoid τ] {later : τ} (follows : Follows window now log events)
    (passes : now ≤ later) : Follows window later log events := by
  obtain ⟨gone, split, old⟩ := follows.kept
  exact ⟨follows.ordered, fun event member => (follows.past event member).trans passes, gone,
    split, fun event member => (old event member).trans (sub_le_sub_right passes window)⟩

end Follows

end WindowLog
