import Mathlib.Algebra.BigOperators.Ring.Finset
import Mathlib.Algebra.Order.BigOperators.Group.Finset
import TradingControl.Effects.Interleaving
import TradingControl.Python.Reference

/-!
# Proposal guardrails

Before a proposal is created it is registered: it is skipped if a proposal of the same fingerprint
was registered today, or if today's count has reached the cap.  The count and the fingerprints are
kept in Redis, and every worker registers its proposals there.
-/

namespace TradingControl.ProposalGuardrails

open Effects Python

/-! ## Redis -/

/-- Redis commands of the guardrail. -/
inductive RedisOp where
  | get (key : String)
  | sadd (key : String) (member : String)
  | incr (key : String)
  | expire (key : String) (seconds : ℕ)
deriving DecidableEq

/-- What Redis answers; `sadd` answers how many members are new. -/
abbrev RedisOp.Answer : RedisOp → Type
  | .get _ => Option ℤ
  | .sadd _ _ => ℕ
  | .incr _ => ℤ
  | .expire _ _ => Bool

/-- Counters and sets of Redis.  Within the day no key expires. -/
structure Redis where
  count : String → Option ℤ := fun _ => none
  members : String → List String := fun _ => []

/-- Whether Redis answers. -/
inductive Health where
  | healthy
  | failing
deriving DecidableEq

/-- What leaves a registration as an exception. -/
inductive Failure where
  | redisError
  | raised (error : Raised)
deriving DecidableEq

abbrev redisSignature : Signature := ⟨RedisOp, RedisOp.Answer⟩

/-- A counter that has no value yet is read as zero. -/
def Redis.counter (redis : Redis) (key : String) : ℤ := (redis.count key).getD 0

def Redis.increment (redis : Redis) (key : String) : Redis :=
  { redis with count := Function.update redis.count key (some (redis.counter key + 1)) }

def Redis.insert (redis : Redis) (key member : String) : Redis :=
  { redis with members := Function.update redis.members key (member :: redis.members key) }

def redisHandler : Handler redisSignature Failure Health Redis
  | _, .failing, redis => (.error .redisError, redis)
  | .get key, .healthy, redis => (.ok (redis.count key), redis)
  | .sadd key member, .healthy, redis =>
      if member ∈ redis.members key then (.ok (0 : ℕ), redis)
      else (.ok (1 : ℕ), redis.insert key member)
  | .incr key, .healthy, redis => (.ok (redis.counter key + 1), redis.increment key)
  | .expire _ _, .healthy, redis => (.ok true, redis)

/-! ## Fingerprints -/

/-- What a registration depends on besides Redis: `settings.MAX_PROPOSALS_PER_DAY`, the date, and
the library functions behind a fingerprint. -/
structure Environment where
  maxProposalsPerDay : ℤ := 20
  today : String
  runtime : Runtime
  interpreter : Json.Interpreter
  /-- `hashlib.sha256(text.encode()).hexdigest()`. -/
  sha256 : String → String

abbrev Proposal := Dict String Value

variable (environment : Environment)

/-- Text of a proposal's content. -/
def contentRepr (content : Value) : Except Raised String :=
  match Json.dumps environment.runtime environment.interpreter.depth ⟨none, true⟩ content with
  | .ok text => .ok text
  | .error .typeError => .ok (environment.runtime.str content)
  | .error .valueError => .ok (environment.runtime.str content)
  | .error error => .error error

/-- `proposal_dedup_key`. -/
def proposalDedupKey (proposal : Proposal) : Except Raised String := do
  let proposalType := environment.runtime.str ((proposal.lookup "proposal_type").getD (.str ""))
  let content ← contentRepr environment ((proposal.lookup "content").getD (.dict []))
  let digest := environment.sha256 (proposalType ++ "|" ++ content)
  return String.ofList (digest.toList.take 32)

/-! ## Registration -/

/-- `REDIS_KEY_PROPOSALS_DAILY_COUNT`. -/
def countKey : String := "proposals:count:" ++ environment.today

/-- `REDIS_KEY_PROPOSALS_DEDUP`. -/
def dedupKey : String := "proposals:dedup:" ++ environment.today

/-- `PROPOSAL_GUARDRAIL_TTL_SECONDS`. -/
def guardrailTtlSeconds : ℕ := 172800

abbrev Registering := Program redisSignature Failure

def ask (op : RedisOp) : Registering op.Answer := Program.perform (S := redisSignature) op

/-- The commands of a registration. -/
def checkAndRecord (fingerprint : String) : Registering Bool := do
  let current ← ask (.get (countKey environment))
  if environment.maxProposalsPerDay ≤ current.getD 0 then
    return false
  let added ← ask (.sadd (dedupKey environment) fingerprint)
  if added = 0 then
    return false
  let _ ← ask (.incr (countKey environment))
  let _ ← ask (.expire (countKey environment) guardrailTtlSeconds)
  let _ ← ask (.expire (dedupKey environment) guardrailTtlSeconds)
  return true

/-- `register_proposal_creation`; it lets the proposal through without Redis or without a cap, and
when Redis fails. -/
def registerProposalCreation (connected : Bool) (proposal : Proposal) : Registering Bool :=
  if connected = false then return true
  else if environment.maxProposalsPerDay ≤ 0 then return true
  else
    match proposalDedupKey environment proposal with
    | .error error => .raise (.raised error)
    | .ok fingerprint => (checkAndRecord environment fingerprint).tryCatch fun _ => .ret true

end TradingControl.ProposalGuardrails

/-!
# The daily cap

A fingerprint is added to the day's set by one command, and the command says whether it is new, so
no two registrations take the same one.  The count is read by one command and incremented by
another: the cap holds as long as no registration finds the count filled by the time it increments
it.
-/

namespace TradingControl.ProposalGuardrails

open Effects Python

variable {ι : Type} [DecidableEq ι] {environment : Environment} {proposals : ι → Proposal}

/-! ## Registrations side by side -/

/-- Registrations that are about to be made on a day on which none has been made. -/
def registrations (environment : Environment) (proposals : ι → Proposal) :
    Pool redisSignature Failure Bool Redis ι where
  world := {}
  program i := registerProposalCreation environment true (proposals i)

/-- State after registrations have taken turns with a Redis that answers. -/
def reached (environment : Environment) (proposals : ι → Proposal) (turns : List ι) :
    Pool redisSignature Failure Bool Redis ι :=
  (registrations environment proposals).run redisHandler (turns.map (·, .healthy))

/-- The registration has returned `True`. -/
def Allowed (pool : Pool redisSignature Failure Bool Redis ι) (i : ι) : Prop :=
  (pool.program i).result = some true

instance (pool : Pool redisSignature Failure Bool Redis ι) : DecidablePred (Allowed pool) :=
  fun _ => inferInstanceAs (Decidable (_ = _))

/-- At most the cap of registrations are allowed, and at most one for each fingerprint. -/
structure WithinLimits [Fintype ι] (environment : Environment) (proposals : ι → Proposal)
    (pool : Pool redisSignature Failure Bool Redis ι) : Prop where
  capped : (Finset.card {i | Allowed pool i} : ℤ) ≤ environment.maxProposalsPerDay
  unrepeated : ∀ fingerprint, Finset.card {i | Allowed pool i ∧
    proposalDedupKey environment (proposals i) = .ok fingerprint} ≤ 1

/-- A registration that increments the count finds it below the cap. -/
def CountsBelowCap (environment : Environment) : Pool.Condition redisSignature Health Redis ι :=
  fun redis pending i _ => pending i = some (.incr (countKey environment)) →
    redis.counter (countKey environment) < environment.maxProposalsPerDay

instance (redis : Redis) (pending : ι → Option RedisOp) (i : ι) (health : Health) :
    Decidable (CountsBelowCap environment redis pending i health) :=
  inferInstanceAs (Decidable (_ → _))

/-! ## The count -/

theorem counter_redisHandler {key : String} {op : RedisOp} (other : op ≠ .incr key)
    (health : Health) (redis : Redis) :
    (redisHandler op health redis).2.counter key = redis.counter key := by
  cases health with
  | failing => rfl
  | healthy =>
      cases op with
      | get | expire => rfl
      | sadd key member =>
          simp only [redisHandler]
          split <;> rfl
      | incr incremented =>
          have different : key ≠ incremented := fun same => other (congrArg RedisOp.incr same.symm)
          exact congrArg (Option.getD · 0) (Function.update_of_ne different _ _)

theorem counter_increment (redis : Redis) (key : String) :
    (redis.increment key).counter key = redis.counter key + 1 := by
  simp [Redis.increment, Redis.counter]

/-- A turn keeps the count within the cap exactly if it does not increment a full one. -/
theorem counter_advance_le_iff (pool : Pool redisSignature Failure Bool Redis ι) (i : ι) :
    (pool.advance redisHandler i .healthy).world.counter (countKey environment) ≤
        environment.maxProposalsPerDay ↔
      pool.world.counter (countKey environment) ≤ environment.maxProposalsPerDay ∧
        CountsBelowCap environment pool.world pool.pending i .healthy := by
  rw [CountsBelowCap, Pool.pending, Pool.advance]
  cases pool.program i with
  | ret value => simp [Program.pending]
  | raise error => simp [Program.pending]
  | call op next =>
      by_cases increments : op = .incr (countKey environment)
      · subst increments
        have counts : (redisHandler (.incr (countKey environment)) .healthy pool.world).2.counter
            (countKey environment) = pool.world.counter (countKey environment) + 1 :=
          counter_increment pool.world (countKey environment)
        simp only [Program.pending, forall_const, counts]
        omega
      · rw [counter_redisHandler increments]
        refine (and_iff_left fun isIncrement => ?_).symm
        exact absurd (Option.some.inj isIncrement) increments

theorem counter_run_le_iff (pool : Pool redisSignature Failure Bool Redis ι) (turns : List ι) :
    (pool.run redisHandler (turns.map (·, .healthy))).world.counter (countKey environment) ≤
        environment.maxProposalsPerDay ↔
      pool.world.counter (countKey environment) ≤ environment.maxProposalsPerDay ∧
        pool.Obeys redisHandler (CountsBelowCap environment) (turns.map (·, .healthy)) := by
  induction turns generalizing pool with
  | nil => exact (and_iff_left trivial).symm
  | cons i turns induction =>
      rw [List.map_cons, Pool.run_cons, induction, counter_advance_le_iff, Pool.Obeys, and_assoc]

/-! ## One registration -/

/-- How far a registration has come. -/
inductive Phase where
  /-- It has recorded nothing. -/
  | idle
  /-- It has added its fingerprint. -/
  | added
  /-- It has incremented the count. -/
  | counted
deriving DecidableEq

/-- What a registration adds to the count. -/
def Phase.count : Phase → ℤ
  | .counted => 1
  | _ => 0

/-- The count is the number of registrations that have incremented it, and a fingerprint of the
set is that of one registration. -/
structure Recorded [Fintype ι] (environment : Environment) (proposals : ι → Proposal)
    (redis : Redis) (phases : ι → Phase) : Prop where
  counter : redis.counter (countKey environment) = ∑ i, (phases i).count
  added : ∀ i fingerprint, phases i ≠ .idle →
    proposalDedupKey environment (proposals i) = .ok fingerprint →
      fingerprint ∈ redis.members (dedupKey environment)
  distinct : ∀ i j fingerprint, phases i ≠ .idle → phases j ≠ .idle →
    proposalDedupKey environment (proposals i) = .ok fingerprint →
      proposalDedupKey environment (proposals j) = .ok fingerprint → i = j

variable [Fintype ι]

def guardrailProtocol (environment : Environment) (proposals : ι → Proposal) :
    Protocol redisSignature Redis ι Phase where
  invariant := Recorded environment proposals
  matches_ _ _ := True

def Answers : Pool.Condition redisSignature Health Redis ι := fun _ _ _ health => health = .healthy

/-- What a registration has recorded when it is over. -/
def Outcome : Except Failure Bool → Phase → Prop
  | .ok allowed, phase => phase = .counted ↔ allowed = true
  | .error _, phase => phase = .idle

/-- A command that a registration issues while Redis answers. -/
theorem transformer_answers {i : ι} {op : RedisOp} {phase : Phase}
    {post : Except Failure (redisSignature.Answer op) → Phase → Prop}
    (step : ∀ redis phases, Recorded environment proposals redis phases → phases i = phase →
      ∃ next, Recorded environment proposals (redisHandler op .healthy redis).2
        (Function.update phases i next) ∧ post (redisHandler op .healthy redis).1 next) :
    (guardrailProtocol environment proposals).transformer redisHandler Answers i op post phase := by
  refine ⟨trivial, fun redis phases pending health recorded own _ _ answers => ?_⟩
  subst answers
  exact step redis phases recorded own

/-- A command that records nothing. -/
theorem transformer_quiet {i : ι} {op : RedisOp} {phase : Phase}
    {post : Except Failure (redisSignature.Answer op) → Phase → Prop}
    (quiet : ∀ redis, (redisHandler op .healthy redis).2 = redis)
    (next : ∀ redis, post (redisHandler op .healthy redis).1 phase) :
    (guardrailProtocol environment proposals).transformer redisHandler Answers i op post phase := by
  refine transformer_answers fun redis phases recorded own => ⟨phase, ?_, next redis⟩
  rw [quiet, ← own, Function.update_eq_self]
  exact recorded

theorem Recorded.add {redis : Redis} {phases : ι → Phase} {i : ι} {fingerprint : String}
    (recorded : Recorded environment proposals redis phases) (own : phases i = .idle)
    (known : proposalDedupKey environment (proposals i) = .ok fingerprint)
    (fresh : fingerprint ∉ redis.members (dedupKey environment)) :
    Recorded environment proposals (redis.insert (dedupKey environment) fingerprint)
      (Function.update phases i .added) := by
  have moved := Protocol.sum_update_add Phase.count phases i .added
  rw [own] at moved
  have members : (redis.insert (dedupKey environment) fingerprint).members (dedupKey environment) =
      fingerprint :: redis.members (dedupKey environment) := Function.update_self _ _ _
  -- whoever has added its fingerprint has not added this one
  have apart : ∀ j, j ≠ i → Function.update phases i .added j ≠ .idle →
      proposalDedupKey environment (proposals j) ≠ .ok fingerprint := by
    intro j other adds same
    rw [Function.update_of_ne other] at adds
    exact fresh (recorded.added j fingerprint adds same)
  constructor
  · exact recorded.counter.trans (by simpa [Phase.count] using moved.symm)
  · intro j held adds same
    rw [members]
    by_cases other : j = i
    · subst other
      rw [known] at same
      cases same
      exact List.mem_cons_self
    · rw [Function.update_of_ne other] at adds
      exact List.mem_cons_of_mem _ (recorded.added j held adds same)
  · intro j k held first second sameFirst sameSecond
    by_cases isFirst : j = i
    · by_cases isSecond : k = i
      · rw [isFirst, isSecond]
      · rw [isFirst, known] at sameFirst
        exact absurd (sameSecond.trans sameFirst.symm) (apart k isSecond second)
    · by_cases isSecond : k = i
      · rw [isSecond, known] at sameSecond
        exact absurd (sameFirst.trans sameSecond.symm) (apart j isFirst first)
      · rw [Function.update_of_ne isFirst] at first
        rw [Function.update_of_ne isSecond] at second
        exact recorded.distinct j k held first second sameFirst sameSecond

/-- A registration that has added its fingerprint increments the count. -/
theorem Recorded.increment {redis : Redis} {phases : ι → Phase} {i : ι}
    (recorded : Recorded environment proposals redis phases) (own : phases i = .added) :
    Recorded environment proposals (redis.increment (countKey environment))
      (Function.update phases i .counted) := by
  have moved := Protocol.sum_update_add Phase.count phases i .counted
  rw [own] at moved
  change _ + 0 = _ + 1 at moved
  rw [add_zero] at moved
  have kept : ∀ j, Function.update phases i .counted j ≠ .idle → phases j ≠ .idle := by
    intro j adds
    by_cases same : j = i
    · rw [same, own]
      exact Phase.noConfusion
    · rwa [Function.update_of_ne same] at adds
  constructor
  · rw [counter_increment, recorded.counter, moved]
  · exact fun j fingerprint adds => recorded.added j fingerprint (kept j adds)
  · exact fun j k fingerprint first second =>
      recorded.distinct j k fingerprint (kept j first) (kept k second)

omit [DecidableEq ι] [Fintype ι] in
theorem wp_ask {α L : Type} (T : Transformer redisSignature Failure L) (op : RedisOp)
    (rest : op.Answer → Registering α) (post : Except Failure α → L → Prop) :
    (ask op >>= rest).wp T post =
      T op (Program.andThen (fun answer => (rest answer).wp T post)
        fun error => post (.error error)) := by
  rw [ask, Program.bind_eq_bind, Program.wp_bind, Program.wp_perform]

/-- A registration whose fingerprint is known follows the protocol. -/
theorem wp_checkAndRecord {i : ι} {fingerprint : String} {post : Except Failure Bool → Phase → Prop}
    (known : proposalDedupKey environment (proposals i) = .ok fingerprint)
    (refused : ∀ phase, phase ≠ .counted → post (.ok false) phase)
    (allowed : post (.ok true) .counted) :
    (checkAndRecord environment fingerprint).wp
      ((guardrailProtocol environment proposals).transformer redisHandler Answers i)
      post .idle := by
  rw [checkAndRecord, wp_ask]
  refine transformer_quiet (fun _ => rfl) fun redis => ?_
  change Program.wp _ _ post Phase.idle
  split
  · exact refused _ Phase.noConfusion
  rw [wp_ask]
  refine transformer_answers fun redis phases recorded own => ?_
  by_cases taken : fingerprint ∈ redis.members (dedupKey environment)
  · refine ⟨.idle, ?_, ?_⟩
    · rw [← own, Function.update_eq_self]
      simpa [redisHandler, taken] using recorded
    · simpa [redisHandler, taken] using refused _ Phase.noConfusion
  refine ⟨.added, ?_, ?_⟩
  · simpa [redisHandler, taken] using recorded.add own known taken
  have isNew : (redisHandler (.sadd (dedupKey environment) fingerprint) .healthy redis).1 =
      .ok (1 : ℕ) := by simp [redisHandler, taken]
  rw [isNew, Program.andThen_ok, if_neg one_ne_zero]
  rw [wp_ask]
  refine transformer_answers fun redis phases recorded own => ⟨.counted, recorded.increment own, ?_⟩
  -- the keys are given their time to live
  change Program.wp _ _ post Phase.counted
  rw [wp_ask]
  refine transformer_quiet (fun _ => rfl) fun redis => ?_
  change Program.wp _ _ post Phase.counted
  rw [wp_ask]
  exact transformer_quiet (fun _ => rfl) fun redis => allowed

theorem wp_registerProposalCreation (enabled : 0 < environment.maxProposalsPerDay) (i : ι) :
    (registerProposalCreation environment true (proposals i)).wp
      ((guardrailProtocol environment proposals).transformer redisHandler Answers i) Outcome
      .idle := by
  rw [registerProposalCreation, if_neg (by decide), if_neg (not_le.mpr enabled)]
  cases known : proposalDedupKey environment (proposals i) with
  | error error => exact rfl
  | ok fingerprint =>
      rw [Program.wp_tryCatch]
      refine wp_checkAndRecord known (fun phase uncounted => ?_) ?_
      · exact ⟨fun counted => absurd counted uncounted, fun impossible => by cases impossible⟩
      · exact iff_of_true rfl rfl

/-! ## All registrations -/

omit [Fintype ι] in
theorem obeys_answers (pool : Pool redisSignature Failure Bool Redis ι) (turns : List ι) :
    pool.Obeys redisHandler Answers (turns.map (·, .healthy)) := by
  induction turns generalizing pool with
  | nil => trivial
  | cons i turns induction => exact ⟨rfl, induction _⟩

/-- However the registrations take turns, what they have recorded adds up. -/
theorem holds_reached (enabled : 0 < environment.maxProposalsPerDay) (proposals : ι → Proposal)
    (turns : List ι) :
    ∃ phases, (guardrailProtocol environment proposals).Holds redisHandler Answers
      (fun _ => Outcome) (reached environment proposals turns) phases := by
  have start : (guardrailProtocol environment proposals).Holds redisHandler Answers
      (fun _ => Outcome) (registrations environment proposals) fun _ => .idle := by
    refine ⟨⟨?_, fun i _ adds => absurd rfl adds, fun i _ _ adds => absurd rfl adds⟩,
      fun i => wp_registerProposalCreation enabled i⟩
    exact (Finset.sum_const_zero).symm
  exact start.run (fun _ _ _ _ => trivial) _ (obeys_answers _ turns)

theorem allowed_le_counter (enabled : 0 < environment.maxProposalsPerDay)
    (proposals : ι → Proposal) (turns : List ι) :
    (Finset.card {i | Allowed (reached environment proposals turns) i} : ℤ) ≤
      (reached environment proposals turns).world.counter (countKey environment) := by
  obtain ⟨phases, holds⟩ := holds_reached enabled proposals turns
  rw [holds.invariant.counter, Finset.card_filter, Nat.cast_sum]
  refine Finset.sum_le_sum fun i _ => ?_
  split
  case isTrue allowed =>
    have outcome : Outcome (.ok true) (phases i) :=
      holds.outcome (Program.eq_ret_of_result allowed)
    rw [outcome.mpr rfl]
    exact le_refl _
  case isFalse => cases phases i <;> simp [Phase.count]

/-- Once all registrations have returned, the allowed ones are those that the count counts. -/
theorem allowed_eq_counter (enabled : 0 < environment.maxProposalsPerDay)
    (proposals : ι → Proposal) {turns : List ι}
    (finished : ∀ i, (reached environment proposals turns).pending i = none) :
    (Finset.card {i | Allowed (reached environment proposals turns) i} : ℤ) =
      (reached environment proposals turns).world.counter (countKey environment) := by
  obtain ⟨phases, holds⟩ := holds_reached enabled proposals turns
  have same : ∀ i, Allowed (reached environment proposals turns) i ↔ phases i = .counted := by
    intro i
    have outcome := holds.programs i
    have ended := finished i
    rw [Pool.pending] at ended
    rw [Allowed]
    cases stands : (reached environment proposals turns).program i with
    | call op next =>
        rw [stands] at ended
        cases ended
    | raise error =>
        rw [stands] at outcome
        have idle : phases i = .idle := outcome
        rw [idle]
        exact iff_of_false (by rintro ⟨⟩) Phase.noConfusion
    | ret allowed =>
        rw [stands] at outcome
        have counted : phases i = .counted ↔ allowed = true := outcome
        rw [counted]
        exact Option.some_inj
  rw [holds.invariant.counter, Finset.card_filter, Nat.cast_sum]
  refine Finset.sum_congr rfl fun i _ => ?_
  rw [if_congr (same i) rfl rfl]
  cases phases i <;> rfl

theorem unrepeated_reached (enabled : 0 < environment.maxProposalsPerDay)
    (proposals : ι → Proposal) (turns : List ι) (fingerprint : String) :
    Finset.card {i | Allowed (reached environment proposals turns) i ∧
      proposalDedupKey environment (proposals i) = .ok fingerprint} ≤ 1 := by
  obtain ⟨phases, holds⟩ := holds_reached enabled proposals turns
  have counted : ∀ i, Allowed (reached environment proposals turns) i → phases i ≠ .idle := by
    intro i allowed
    have outcome : Outcome (.ok true) (phases i) :=
      holds.outcome (Program.eq_ret_of_result allowed)
    rw [outcome.mpr rfl]
    exact Phase.noConfusion
  refine Finset.card_le_one.mpr fun i first j second => ?_
  obtain ⟨allowed, same⟩ := (Finset.mem_filter.mp first).2
  obtain ⟨allowedToo, sameToo⟩ := (Finset.mem_filter.mp second).2
  exact holds.invariant.distinct i j fingerprint (counted i allowed) (counted j allowedToo)
    same sameToo

/-- Registrations that are allowed stay within the limits in every state of a day on which no
increment finds the count filled, and once all have returned on no other day. -/
theorem withinLimits_throughout (enabled : 0 < environment.maxProposalsPerDay)
    (proposals : ι → Proposal) (turns : List ι) :
    ((registrations environment proposals).Obeys redisHandler (CountsBelowCap environment)
        (turns.map (·, .healthy)) →
      ∀ earlier, earlier <+: turns →
        WithinLimits environment proposals (reached environment proposals earlier)) ∧
    ((∀ i, (reached environment proposals turns).pending i = none) →
      WithinLimits environment proposals (reached environment proposals turns) →
        (registrations environment proposals).Obeys redisHandler (CountsBelowCap environment)
          (turns.map (·, .healthy))) := by
  have counts : ∀ turns, _ ↔ _ :=
    @counter_run_le_iff ι _ environment (registrations environment proposals)
  have start : (registrations environment proposals).world.counter (countKey environment) ≤
      environment.maxProposalsPerDay := enabled.le
  constructor
  · rintro obeys earlier ⟨later, rfl⟩
    rw [List.map_append] at obeys
    have filled := (counts earlier).mpr ⟨start, obeys.of_append⟩
    exact ⟨(allowed_le_counter enabled proposals earlier).trans filled,
      unrepeated_reached enabled proposals earlier⟩
  · intro finished limits
    refine ((counts turns).mp ?_).2
    have capped := limits.capped
    rw [allowed_eq_counter enabled proposals finished] at capped
    exact capped

/-- A day with room for one proposal. -/
def oneADay : Environment where
  maxProposalsPerDay := 1
  today := "2026-01-05"
  runtime := Reference.runtime
  interpreter := Reference.interpreter
  sha256 text :=
    if text = "new_agent|\x7b\x7d" then
      "891c98f24c8e5f78c176ff3d14d2b022b7bb3ccd96a2667b4b489e06e15895d5"
    else "60263a512e76ea974b311acb61b156fe71055e25c976df874645be518fde4df2"

def twoProposals (newAgent : Bool) : Proposal :=
  [("proposal_type", .str (if newAgent then "new_agent" else "parameter_change"))]

/-- The second worker asks after the first has returned. -/
theorem withinLimits_one_after_the_other :
    WithinLimits oneADay twoProposals
      (reached oneADay twoProposals (List.replicate 5 false ++ List.replicate 5 true)) :=
  (withinLimits_throughout (by decide) twoProposals _).1 (by decide +kernel) _ (List.prefix_refl _)

/-- Two workers that read the count before either increments it are both allowed. -/
theorem cap_exceeded :
    ¬WithinLimits oneADay twoProposals (reached oneADay twoProposals
      ([false, true] ++ List.replicate 4 false ++ List.replicate 4 true)) := by
  intro limits
  have capped := limits.capped
  revert capped
  decide +kernel

end TradingControl.ProposalGuardrails
