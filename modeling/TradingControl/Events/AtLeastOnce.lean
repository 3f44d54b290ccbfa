import TradingControl.Events.Consumer

/-!
# At-least-once handling with bounded retries

Any number of consumers handle messages side by side, the same message perhaps more than once and by
several of them.  Whatever fails, a message is acknowledged only once it has been processed or its
record is in the dead-letter queue.  While Redis answers and the failure counters are left alone,
the record is there as soon as the message has failed often enough.
-/

namespace TradingControl.Events

open Effects Python

variable {ι : Type}

/-! ## What is kept -/

/-- The record of a message has been written to the dead-letter queue. -/
def GroupMessage.Recorded (message : GroupMessage) (world : ConsumerWorld) : Prop :=
  ∃ entry ∈ world.dlqWrites, entry.1.stream = message.stream ∧ entry.1.eventId = message.eventId

/-- The message may be acknowledged. -/
def GroupMessage.Handled (message : GroupMessage) (world : ConsumerWorld) : Prop :=
  message ∈ world.processed ∨ message.Recorded world

/-- What a consumer is about to do with a message. -/
inductive Phase where
  | idle
  /-- The message may be acknowledged. -/
  | handled (message : GroupMessage)
  /-- Its processing has failed, and the failure is not counted yet. -/
  | failed (message : GroupMessage)
  /-- Its retries are exhausted, and its record is not written yet. -/
  | exhausted (message : GroupMessage)
deriving DecidableEq

/-- No failure is waiting to be dealt with. -/
def Phase.Resting : Phase → Prop
  | .idle => True
  | .handled _ => True
  | _ => False

/-- Failures of a message that are not counted yet. -/
def waiting [Fintype ι] (phases : ι → Phase) (message : GroupMessage) : ℕ :=
  ∑ i, if phases i = .failed message then 1 else 0

/-- Acknowledged messages are handled, and while Redis is healthy every counted failure shows in the
counter and the last one permitted leads to the record. -/
structure Accounted [Fintype ι] (healthy : Prop) (world : ConsumerWorld) (phases : ι → Phase) :
    Prop where
  acked : ∀ message ∈ world.acked, message.Handled world
  handled : ∀ i message, phases i = .handled message → message.Handled world
  counted : healthy → ∀ message, world.failed.count message ≤
    (world.retries message.eventId).getD 0 + waiting phases message
  exhausted : healthy → ∀ message,
    dlqMaxRetries + waiting phases message ≤ world.failed.count message →
      message.Recorded world ∨ ∃ i, phases i = .exhausted message

/-- Operations that lead from a failure of a message to its record. -/
def ConsumerOp.Settles (message : GroupMessage) : ConsumerOp → Prop
  | .incr eventId => eventId = message.eventId
  | .expire eventId => eventId = message.eventId
  | .getRetries eventId => eventId = message.eventId
  | .hset record => record.stream = message.stream ∧ record.eventId = message.eventId
  | _ => False

/-- Operations that change nothing. -/
def ConsumerOp.Reading : ConsumerOp → Prop
  | .process _ _ => False
  | .incr _ => False
  | .hset _ => False
  | .xack _ => False
  | _ => True

theorem ConsumerOp.Reading.still {op : ConsumerOp} (reading : op.Reading) (choice : ConsumerChoice)
    (world : ConsumerWorld) : (consumerHandler op choice world).2 = world := by
  cases op with
  | isRunning => rfl
  | backoffAndCheckShutdown => rfl
  | process message data => exact reading.elim
  | incr eventId => exact reading.elim
  | hset record => exact reading.elim
  | xack message => exact reading.elim
  | _ =>
      simp only [consumerHandler]
      split
      · rfl
      · rfl

theorem ConsumerOp.Reading.answers {op : ConsumerOp} (reading : op.Reading)
    {choice : ConsumerChoice} (answered : choice.redisFails = false) (world : ConsumerWorld) :
    ∃ answer, (consumerHandler op choice world).1 = .ok answer := by
  cases op with
  | isRunning => exact ⟨_, rfl⟩
  | backoffAndCheckShutdown => exact ⟨_, rfl⟩
  | process message data => exact reading.elim
  | incr eventId => exact reading.elim
  | hset record => exact reading.elim
  | xack message => exact reading.elim
  | _ =>
      simp only [consumerHandler, answered]
      exact ⟨_, rfl⟩

def consumerProtocol (ι : Type) [Fintype ι] (healthy : Prop) :
    Protocol consumerSignature ConsumerWorld ι Phase where
  invariant := Accounted healthy
  matches_ phase op :=
    match phase with
    | .failed message => ∃ failing, op = some failing ∧ failing.Settles message
    | .exhausted message => ∃ failing, op = some failing ∧ failing.Settles message
    | _ => True

@[simp] theorem consumerProtocol_invariant [Fintype ι] (healthy : Prop) :
    (consumerProtocol ι healthy).invariant = Accounted healthy := rfl

/-- Where Redis is assumed healthy, every choice is. -/
def Careful (healthy : Prop) : Pool.Condition consumerSignature ConsumerChoice ConsumerWorld ι :=
  fun _ _ _ choice => healthy → choice.healthy

/-! ## Steps -/

section Steps

variable [Fintype ι] [DecidableEq ι] {healthy : Prop} {world : ConsumerWorld} {phases : ι → Phase}
  {i : ι} {message : GroupMessage}

theorem waiting_update (phases : ι → Phase) (i : ι) (phase : Phase) (message : GroupMessage) :
    waiting (Function.update phases i phase) message +
        (if phases i = .failed message then 1 else 0) =
      waiting phases message + if phase = .failed message then 1 else 0 :=
  Protocol.sum_update_add (fun phase => if phase = .failed message then 1 else 0) phases i phase

/-- Changing between phases that wait for no count changes no number of waiting failures. -/
theorem waiting_update_of_free {phase : Phase} (before : ∀ message, phases i ≠ .failed message)
    (after : ∀ message, phase ≠ .failed message) (message : GroupMessage) :
    waiting (Function.update phases i phase) message = waiting phases message := by
  simpa [before message, after message] using waiting_update phases i phase message

theorem Phase.Resting.ne_failed {phase : Phase} (resting : phase.Resting) (message : GroupMessage) :
    phase ≠ .failed message := by
  rintro rfl
  exact resting

theorem Phase.Resting.ne_exhausted {phase : Phase} (resting : phase.Resting)
    (message : GroupMessage) : phase ≠ .exhausted message := by
  rintro rfl
  exact resting

/-- A step that counts no failure: the logs grow, and an exhausted message is recorded or stays
exhausted. -/
theorem Accounted.move (accounted : Accounted healthy world phases) {after : ConsumerWorld}
    {phase : Phase} (handledGrows : ∀ message : GroupMessage,
      message.Handled world → message.Handled after)
    (recordedGrows : ∀ message : GroupMessage, message.Recorded world → message.Recorded after)
    (acked : ∀ message ∈ after.acked, message ∈ world.acked ∨ message.Handled after)
    (retries : after.retries = world.retries) (failed : after.failed = world.failed)
    (handled : ∀ message, phase = .handled message → message.Handled after)
    (counted : ∀ message, phase ≠ .failed message)
    (kept : healthy → (∀ message, phases i ≠ .failed message) ∧
      ∀ message, phases i = .exhausted message →
        phase = .exhausted message ∨ message.Recorded after) :
    Accounted healthy after (Function.update phases i phase) where
  acked message member := by
    rcases acked message member with earlier | handled
    · exact handledGrows message (accounted.acked message earlier)
    · exact handled
  handled j message held := by
    by_cases same : j = i
    · subst same
      exact handled message (by simpa using held)
    · rw [Function.update_of_ne same] at held
      exact handledGrows message (accounted.handled j message held)
  counted well message := by
    rw [waiting_update_of_free (kept well).1 counted, failed, retries]
    exact accounted.counted well message
  exhausted well message enough := by
    rw [waiting_update_of_free (kept well).1 counted, failed] at enough
    rcases accounted.exhausted well message enough with recorded | ⟨j, exhausted⟩
    · exact Or.inl (recordedGrows message recorded)
    · by_cases same : j = i
      · subst same
        rcases (kept well).2 message exhausted with still | recorded
        · exact Or.inr ⟨j, by rw [Function.update_self, still]⟩
        · exact Or.inl recorded
      · exact Or.inr ⟨j, by rw [Function.update_of_ne same, exhausted]⟩

/-- Where Redis is not assumed healthy, a consumer may give up on a failure. -/
theorem Accounted.forget (accounted : Accounted healthy world phases) (unwell : ¬healthy) :
    Accounted healthy world (Function.update phases i .idle) :=
  accounted.move (fun _ => id) (fun _ => id) (fun _ => Or.inl) rfl rfl (by simp) (by simp)
    fun well => absurd well unwell

theorem Accounted.fail (accounted : Accounted healthy world phases)
    (resting : (phases i).Resting) (message : GroupMessage) :
    Accounted healthy { world with failed := world.failed ++ [message] }
      (Function.update phases i (.failed message)) where
  acked := accounted.acked
  handled j other held := by
    by_cases same : j = i
    · subst same
      simp at held
    · rw [Function.update_of_ne same] at held
      exact accounted.handled j other held
  counted well other := by
    have moved := waiting_update phases i (.failed message) other
    have counted := accounted.counted well other
    simp only [resting.ne_failed, if_false, Phase.failed.injEq] at moved
    simp only [List.count_append, List.count_singleton, beq_iff_eq]
    omega
  exhausted well other enough := by
    have moved := waiting_update phases i (.failed message) other
    simp only [resting.ne_failed, if_false, Phase.failed.injEq] at moved
    simp only [List.count_append, List.count_singleton, beq_iff_eq] at enough
    rcases accounted.exhausted well other (by omega) with recorded | ⟨j, exhausted⟩
    · exact Or.inl recorded
    · have different : j ≠ i := by
        rintro rfl
        exact resting.ne_exhausted other exhausted
      exact Or.inr ⟨j, by rw [Function.update_of_ne different, exhausted]⟩

def Phase.afterCount (message : GroupMessage) (retries : ℕ) : Phase :=
  if dlqMaxRetries ≤ retries then .exhausted message else .idle

theorem Phase.afterCount_ne (message : GroupMessage) (retries : ℕ) (other : GroupMessage) :
    Phase.afterCount message retries ≠ .failed other ∧
      Phase.afterCount message retries ≠ .handled other := by
  rw [Phase.afterCount]
  split
  · exact ⟨by simp, by simp⟩
  · exact ⟨by simp, by simp⟩

theorem Accounted.count (accounted : Accounted healthy world phases)
    (own : phases i = .failed message) {retries : ℕ}
    (counter : healthy → retries = (world.retries message.eventId).getD 0 + 1) :
    Accounted healthy
      { world with retries := Function.update world.retries message.eventId (some retries) }
      (Function.update phases i (.afterCount message retries)) where
  acked := accounted.acked
  handled j other held := by
    by_cases same : j = i
    · subst same
      simp [Phase.afterCount_ne] at held
    · rw [Function.update_of_ne same] at held
      exact accounted.handled j other held
  counted well other := by
    have moved := waiting_update phases i (.afterCount message retries) other
    have counted := accounted.counted well other
    have increased := counter well
    simp only [own, Phase.afterCount_ne, if_false, Phase.failed.injEq] at moved
    by_cases same : other.eventId = message.eventId
    · simp only [same, Function.update_self, Option.getD_some] at counted ⊢
      split at moved
      · omega
      · omega
    · have different : message ≠ other := by
        rintro rfl
        exact same rfl
      simp only [different, if_false, Function.update_of_ne same] at moved ⊢
      omega
  exhausted well other enough := by
    have moved := waiting_update phases i (.afterCount message retries) other
    have counted := accounted.counted well message
    have increased := counter well
    dsimp only at enough
    simp only [own, Phase.afterCount_ne, if_false, Phase.failed.injEq] at moved
    by_cases same : message = other
    · subst same
      -- the counter has seen every failure that is not waiting
      rw [if_pos rfl] at moved
      have exhausted : dlqMaxRetries ≤ retries := by omega
      exact Or.inr ⟨i, by rw [Function.update_self, Phase.afterCount, if_pos exhausted]⟩
    · rw [if_neg same] at moved
      rcases accounted.exhausted well other (by omega) with recorded | ⟨j, exhausted⟩
      · exact Or.inl recorded
      · have different : j ≠ i := by
          rintro rfl
          simp [own] at exhausted
        exact Or.inr ⟨j, by rw [Function.update_of_ne different, exhausted]⟩

end Steps

/-! ## Operations under the protocol -/

section Rules

variable [Fintype ι] [DecidableEq ι] {healthy : Prop} {i : ι} {message : GroupMessage} {phase : Phase}

omit [DecidableEq ι] in
theorem matches_of_resting (resting : phase.Resting) (op : Option ConsumerOp) :
    (consumerProtocol ι healthy).matches_ phase op := by
  cases phase with
  | idle => trivial
  | handled message => trivial
  | failed message => exact resting.elim
  | exhausted message => exact resting.elim

omit [DecidableEq ι] in
/-- Operations that change nothing are stable for a consumer at rest. -/
theorem stable_of_resting (resting : phase.Resting) {op : ConsumerOp}
    (reading : op.Reading) : (consumerProtocol ι healthy).Stable consumerHandler i phase op where
  matched := matches_of_resting resting _
  kept world phases choice accounted _ := by
    rw [reading.still]
    exact accounted

theorem stable_xack : (consumerProtocol ι healthy).Stable consumerHandler i (.handled message)
    (.xack message) where
  matched := trivial
  kept world phases choice accounted own := by
    by_cases fails : choice.redisFails = true
    · simpa [consumerHandler, fails] using accounted
    · have handled : message.Handled world := accounted.handled i message own
      have effect : (consumerHandler (.xack message) choice world).2 =
          { world with acked := world.acked ++ [message] } := by
        simp [consumerHandler, fails]
      rw [effect, ← Function.update_eq_self i phases]
      refine accounted.move (fun _ => id) (fun _ => id) (fun other member => ?_) rfl rfl
        (fun other => accounted.handled i other) (by simp [own]) (by simp [own])
      rcases List.mem_append.mp member with earlier | last
      · exact Or.inl earlier
      · obtain rfl := List.mem_singleton.mp last
        exact Or.inr handled

theorem wp_acknowledge {post : Except ConsumerFailure ℕ → Phase → Prop}
    (acknowledged : ∀ count, post (.ok count) (.handled message)) :
    (acknowledge message).wp
      ((consumerProtocol ι healthy).transformer consumerHandler (Careful healthy) i) post
      (.handled message) := by
  rw [acknowledge]
  rw [Program.bind_eq_bind, Program.wp_bind, Program.wp_attempt]
  refine Protocol.wp_of_stable (Program.calls_perform stable_xack) fun outcome => ?_
  rw [Program.andThen_ok]
  cases outcome with
  | ok count => exact acknowledged count
  | error error => exact acknowledged 0

theorem wp_process (resting : phase.Resting) (data : List (String × Value))
    {post : Except ConsumerFailure Unit → Phase → Prop}
    (returned : post (.ok ()) (.handled message))
    (failed : ∀ error, post (.error error) (.failed message)) :
    (await (.process message data)).wp
      ((consumerProtocol ι healthy).transformer consumerHandler (Careful healthy) i) post phase := by
  rw [await, Program.wp_perform]
  refine ⟨matches_of_resting resting _, fun world phases _ choice accounted own _ _ _ => ?_⟩
  rw [← own] at resting
  cases ended : choice.outcome with
  | returned =>
      refine ⟨.handled message, ?_, by simpa [consumerHandler, ended] using returned⟩
      have processed : message ∈ world.processed ++ [message] := by simp
      have grows : ∀ other : GroupMessage, other.Handled world →
          other.Handled { world with processed := world.processed ++ [message] } :=
        fun other => Or.imp_left (List.mem_append_left _)
      simp only [consumerHandler, ended]
      refine accounted.move grows (fun _ => id) (fun other => Or.inl) rfl rfl ?_ (by simp)
        fun _ => ⟨resting.ne_failed, fun other held => absurd held (resting.ne_exhausted other)⟩
      rintro other same
      obtain rfl := Phase.handled.inj same
      exact Or.inl processed
  | raised error =>
      refine ⟨.failed message, ?_, by simpa [consumerHandler, ended] using failed _⟩
      simpa [consumerHandler, ended] using accounted.fail resting message
  | timedOut =>
      refine ⟨.failed message, ?_, by simpa [consumerHandler, ended] using failed _⟩
      simpa [consumerHandler, ended] using accounted.fail resting message

theorem wp_incr {post : Except ConsumerFailure ℕ → Phase → Prop}
    (failed : post (.error .redisError) .idle)
    (counted : ∀ retries, post (.ok retries) (.afterCount message retries)) :
    (await (.incr message.eventId)).wp
      ((consumerProtocol ι healthy).transformer consumerHandler (Careful healthy) i) post
      (.failed message) := by
  rw [await, Program.wp_perform]
  refine ⟨⟨_, rfl, rfl⟩, fun world phases _ choice accounted own _ _ careful => ?_⟩
  by_cases fails : choice.redisFails = true
  · have unwell : ¬healthy := fun well => by simp [(careful well).1] at fails
    refine ⟨.idle, ?_, by simpa [consumerHandler, fails] using failed⟩
    simpa [consumerHandler, fails] using accounted.forget unwell
  · refine ⟨.afterCount message ((world.counter choice message.eventId).getD 0 + 1), ?_,
      by simpa [consumerHandler, fails] using counted _⟩
    have counter : healthy → (world.counter choice message.eventId).getD 0 + 1 =
        (world.retries message.eventId).getD 0 + 1 := by
      intro well
      simp [ConsumerWorld.counter, (careful well).2]
    simpa [consumerHandler, fails] using accounted.count own counter

/-- Commands between the count and the record change nothing. -/
theorem wp_exhausted {op : ConsumerOp} (settles : op.Settles message)
    (reading : op.Reading) {post : Except ConsumerFailure op.Answer → Phase → Prop}
    (failed : ∀ error, post (.error error) .idle)
    (answered : ∀ answer, post (.ok answer) (.exhausted message)) :
    (await op).wp
      ((consumerProtocol ι healthy).transformer consumerHandler (Careful healthy) i) post
      (.exhausted message) := by
  rw [await, Program.wp_perform]
  refine ⟨⟨_, rfl, settles⟩, fun world phases _ choice accounted own _ _ careful => ?_⟩
  rw [reading.still]
  cases outcome : (consumerHandler op choice world).1 with
  | ok answer =>
      refine ⟨.exhausted message, ?_, answered answer⟩
      rwa [← own, Function.update_eq_self]
  | error error =>
      have unwell : ¬healthy := by
        intro well
        obtain ⟨answer, succeeded⟩ := reading.answers (careful well).1 world
        rw [succeeded] at outcome
        cases outcome
      exact ⟨.idle, accounted.forget unwell, failed error⟩

/-- Writing the record of a message. -/
theorem wp_push (message : GroupMessage) (start : phase.Resting ∨ phase = .exhausted message)
    (payload : List (String × Value)) (error : DlqError) (retries : ℕ)
    {post : Except ConsumerFailure Unit → Phase → Prop}
    (failed : post (.error .redisError) .idle) (pushed : post (.ok ()) (.handled message)) :
    (push message.stream message.eventId payload error retries).wp
      ((consumerProtocol ι healthy).transformer consumerHandler (Careful healthy) i) post
      phase := by
  rw [push, await, Program.wp_perform]
  refine ⟨?_, fun world phases _ choice accounted own _ _ careful => ?_⟩
  · rcases start with resting | rfl
    · exact matches_of_resting resting _
    · exact ⟨_, rfl, rfl, rfl⟩
  have unfailed : ∀ other, phases i ≠ .failed other := by
    rw [own]
    rcases start with resting | rfl
    · exact resting.ne_failed
    · simp
  have exhausted : ∀ other, phases i = .exhausted other → other = message := by
    rw [own]
    rcases start with resting | rfl
    · exact fun other held => absurd held (resting.ne_exhausted other)
    · exact fun other held => (Phase.exhausted.inj held).symm
  by_cases fails : choice.redisFails = true
  · have unwell : ¬healthy := fun well => by simp [(careful well).1] at fails
    refine ⟨.idle, ?_, by simpa [consumerHandler, fails] using failed⟩
    simpa [consumerHandler, fails] using accounted.forget unwell
  · refine ⟨.handled message, ?_, by simpa [consumerHandler, fails] using pushed⟩
    have recordedGrows : ∀ (other : GroupMessage) (entry : DlqRecord × String),
        other.Recorded world →
          other.Recorded { world with dlqWrites := world.dlqWrites ++ [entry] } := by
      rintro other entry ⟨earlier, member, same⟩
      exact ⟨earlier, List.mem_append_left _ member, same⟩
    have recorded : ∀ (record : DlqRecord) (now : String), record.stream = message.stream →
        record.eventId = message.eventId →
          message.Recorded { world with dlqWrites := world.dlqWrites ++ [(record, now)] } :=
      fun record now stream eventId =>
        ⟨(record, now), List.mem_append_right _ List.mem_cons_self, stream, eventId⟩
    simp only [consumerHandler, fails, consumerProtocol_invariant]
    refine accounted.move (fun other => Or.imp_right (recordedGrows other _))
      (fun other => recordedGrows other _) (fun _ => Or.inl) rfl rfl ?_ (by simp) fun _ =>
        ⟨unfailed, fun other held => Or.inr ?_⟩
    · rintro other same
      obtain rfl := Phase.handled.inj same
      exact Or.inr (recorded _ _ rfl rfl)
    · rw [exhausted other held]
      exact recorded _ _ rfl rfl

theorem wp_handleFailure (data : List (String × Value)) (error : ConsumerFailure)
    {post : Except ConsumerFailure Unit → Phase → Prop}
    (rested : ∀ outcome phase, phase.Resting → post outcome phase) :
    (handleFailure message data error).wp
      ((consumerProtocol ι healthy).transformer consumerHandler (Careful healthy) i) post
      (.failed message) := by
  rw [handleFailure, shouldDlq]
  rw [Program.bind_eq_bind, Program.bind_eq_bind, Program.bind_assoc, Program.wp_bind]
  apply wp_incr
  · exact rested _ _ trivial
  intro retries
  rw [Program.andThen_ok, Program.bind_eq_bind, Program.bind_assoc, Program.pure_eq_ret]
  by_cases enough : dlqMaxRetries ≤ retries
  · rw [Phase.afterCount, if_pos enough, Program.wp_bind]
    refine wp_exhausted ?_ ?_ (fun error => rested _ _ trivial) fun _ => ?_
    · exact rfl
    · trivial
    rw [Program.andThen_ok, Program.ret_bind, if_pos (by simpa using enough), Program.bind_eq_bind,
      Program.wp_bind]
    refine wp_exhausted ?_ ?_ (fun error => rested _ _ trivial) fun count => ?_
    · exact rfl
    · trivial
    rw [Program.andThen_ok, Program.bind_eq_bind, Program.wp_bind]
    apply wp_push message (Or.inr rfl)
    · exact rested _ _ trivial
    rw [Program.andThen_ok, Program.bind_eq_bind, Program.wp_bind]
    apply wp_acknowledge
    exact fun count => rested _ _ trivial
  · rw [Phase.afterCount, if_neg enough]
    have resting : Phase.idle.Resting := trivial
    refine Protocol.wp_bind_stable (Program.calls_perform (stable_of_resting resting trivial))
      (fun error => rested _ _ trivial) fun _ => ?_
    rw [Program.ret_bind, if_neg (by simpa using enough)]
    exact rested _ _ trivial

/-- Handling a message ends at rest, however it ends. -/
theorem wp_handleMessage (resting : phase.Resting) (consumer : Consumer) (received : Message)
    {post : Except ConsumerFailure Unit → Phase → Prop}
    (rested : ∀ outcome phase, phase.Resting → post outcome phase) :
    (handleMessage consumer received).wp
      ((consumerProtocol ι healthy).transformer consumerHandler (Careful healthy) i) post
      phase := by
  unfold handleMessage
  dsimp only
  split
  case h_1 => exact rested _ _ resting
  case h_2 =>
    rw [Program.bind_eq_bind, Program.wp_bind]
    apply wp_push (consumer.message received.id) (Or.inl resting)
    · exact rested _ _ trivial
    rw [Program.andThen_ok, Program.bind_eq_bind, Program.wp_bind]
    apply wp_acknowledge
    exact fun count => rested _ _ trivial
  case h_3 =>
    rw [Program.bind_eq_bind, Program.wp_bind, Program.wp_attempt, Program.bind_eq_bind,
      Program.wp_bind]
    unfold processWithTimeout
    rw [Program.wp_tryCatch]
    apply wp_process resting
    · -- the acknowledgement cannot fail
      rw [Program.andThen_ok, Program.andThen_ok]
      apply wp_acknowledge
      exact fun count => rested _ _ trivial
    · intro error
      have failed : ∀ reported : ConsumerFailure,
          ((handleFailure (consumer.message received.id) received.backfilled reported).attempt >>=
            fun _ => pure ()).wp
            ((consumerProtocol ι healthy).transformer consumerHandler (Careful healthy) i) post
            (.failed (consumer.message received.id)) := by
        intro reported
        rw [Program.bind_eq_bind, Program.wp_bind, Program.wp_attempt]
        apply wp_handleFailure
        exact fun outcome phase resting => rested _ _ resting
      rw [Program.andThen_error]
      split
      · exact failed _
      · exact failed _

theorem wp_handleMessages (consumer : Consumer) (messages : List Message) {phase : Phase}
    (resting : phase.Resting) {post : Except ConsumerFailure Unit → Phase → Prop}
    (rested : ∀ outcome phase, phase.Resting → post outcome phase) :
    (handleMessages consumer messages).wp
      ((consumerProtocol ι healthy).transformer consumerHandler (Careful healthy) i) post
      phase := by
  induction messages generalizing phase with
  | nil => exact rested _ _ resting
  | cons received rest induction =>
      refine Protocol.wp_bind_stable (Program.calls_perform (stable_of_resting resting trivial))
        (fun error => rested _ _ resting) fun running => ?_
      split
      case isFalse => exact rested _ _ resting
      rw [Program.bind_eq_bind, Program.wp_bind]
      apply wp_handleMessage resting
      intro outcome after restingAfter
      cases outcome with
      | ok _ => exact induction restingAfter
      | error error => exact rested _ _ restingAfter

/-- A poll goes on after its messages, or waits for Redis, or raises. -/
theorem wp_polled {post : Except ConsumerFailure Bool → Phase → Prop}
    (rested : ∀ outcome phase, phase.Resting → post outcome phase) (resting : phase.Resting)
    (outcome : Except ConsumerFailure Unit) :
    Program.wp ((consumerProtocol ι healthy).transformer consumerHandler (Careful healthy) i)
      (match outcome with
        | .ok () => pure true
        | .error .redisError => await .backoffAndCheckShutdown
        | .error error => .raise error) post phase := by
  split
  · exact rested _ _ resting
  · exact Protocol.wp_of_stable (Program.calls_perform (stable_of_resting resting trivial))
      fun outcome => rested _ _ resting
  · exact rested _ _ resting

theorem wp_pollOnce (consumer : Consumer) (resting : phase.Resting)
    {post : Except ConsumerFailure Bool → Phase → Prop}
    (rested : ∀ outcome phase, phase.Resting → post outcome phase) :
    (pollOnce consumer).wp
      ((consumerProtocol ι healthy).transformer consumerHandler (Careful healthy) i) post
      phase := by
  rw [pollOnce]
  rw [Program.bind_eq_bind, Program.wp_bind, Program.wp_attempt]
  refine Protocol.wp_bind_stable (Program.calls_perform (stable_of_resting resting trivial))
    (fun error => wp_polled rested resting _) fun messages => ?_
  exact wp_handleMessages consumer messages resting fun outcome _ restingAfter =>
    wp_polled rested restingAfter outcome

theorem wp_poll (consumer : Consumer) (polls : ℕ) {phase : Phase} (resting : phase.Resting) :
    (poll consumer polls).wp
      ((consumerProtocol ι healthy).transformer consumerHandler (Careful healthy) i)
      (fun _ after => after.Resting) phase := by
  induction polls generalizing phase with
  | zero => exact resting
  | succ polls induction =>
      refine Protocol.wp_bind_stable (Program.calls_perform (stable_of_resting resting trivial))
        (fun error => resting) fun running => ?_
      split
      case isFalse => exact resting
      rw [Program.bind_eq_bind, Program.wp_bind]
      apply wp_pollOnce consumer resting
      intro outcome after restingAfter
      cases outcome with
      | error error => exact restingAfter
      | ok goesOn =>
          rw [Program.andThen_ok]
          split
          · exact induction restingAfter
          · exact restingAfter

/-- A consumer follows the protocol from start to end. -/
theorem wp_runConsumer (consumer : Consumer) (polls : ℕ) :
    (runConsumer consumer polls).wp
      ((consumerProtocol ι healthy).transformer consumerHandler (Careful healthy) i)
      (fun _ after => after.Resting) .idle := by
  have resting : Phase.idle.Resting := trivial
  rw [runConsumer]
  rw [Program.bind_eq_bind, Program.wp_bind, Program.wp_attempt]
  refine Protocol.wp_of_stable (Program.calls_perform (stable_of_resting resting trivial))
    fun outcome => ?_
  rw [Program.andThen_ok]
  cases outcome with
  | error error => exact wp_poll consumer polls resting
  | ok reclaimed =>
      dsimp only
      rw [Program.bind_eq_bind, Program.wp_bind]
      apply wp_handleMessages consumer reclaimed resting
      intro handled after restingAfter
      cases handled with
      | ok _ => exact wp_poll consumer polls restingAfter
      | error error => exact restingAfter

end Rules

/-! ## Consumers side by side -/

/-- Consumers that are about to start, over given failure counters and nothing handled yet. -/
def consumersPool (consumers : ι → Consumer) (polls : ι → ℕ) (retries : String → Option ℕ) :
    Pool consumerSignature ConsumerFailure Unit ConsumerWorld ι where
  world := { retries := retries }
  program i := runConsumer (consumers i) (polls i)

variable [Fintype ι] [DecidableEq ι]

omit [Fintype ι] in
theorem obeys_of_healthy {healthy : Prop}
    {pool : Pool consumerSignature ConsumerFailure Unit ConsumerWorld ι} {schedule : List (ι × ConsumerChoice)}
    (well : healthy → ∀ entry ∈ schedule, entry.2.healthy) :
    pool.Obeys consumerHandler (Careful healthy) schedule := by
  induction schedule generalizing pool with
  | nil => trivial
  | cons entry schedule induction =>
      exact ⟨fun holds => well holds entry List.mem_cons_self,
        induction fun holds later member => well holds later (List.mem_cons_of_mem _ member)⟩

theorem holds_run (healthy : Prop) (consumers : ι → Consumer) (polls : ι → ℕ)
    (retries : String → Option ℕ) {schedule : List (ι × ConsumerChoice)}
    (well : healthy → ∀ entry ∈ schedule, entry.2.healthy) :
    ∃ phases, (consumerProtocol ι healthy).Holds consumerHandler (Careful healthy)
      (fun _ _ phase => phase.Resting)
      ((consumersPool consumers polls retries).run consumerHandler schedule) phases := by
  have start : (consumerProtocol ι healthy).Holds consumerHandler (Careful healthy)
      (fun _ _ phase => phase.Resting) (consumersPool consumers polls retries)
      fun _ => Phase.idle := by
    refine ⟨⟨?_, ?_, ?_, ?_⟩, fun i => wp_runConsumer _ _⟩
    · simp [consumersPool]
    · simp
    · simp [consumersPool]
    · intro _ message enough
      simp [consumersPool, dlqMaxRetries] at enough
  exact start.run (fun i outcome phase resting => matches_of_resting resting none) schedule
    (obeys_of_healthy well)

/-- Whatever fails and however the consumers interleave, a message is acknowledged only once it has
been processed or its record written.  Under a healthy Redis, the record is written as soon as the
message has failed `DLQ_MAX_RETRIES` times and no consumer is still dealing with a failure. -/
theorem acknowledged_and_bounded (consumers : ι → Consumer) (polls : ι → ℕ)
    (retries : String → Option ℕ) (schedule : List (ι × ConsumerChoice)) :
    let pool := (consumersPool consumers polls retries).run consumerHandler schedule
    (∀ message ∈ pool.world.acked, message ∈ pool.world.processed ∨
        message.Recorded pool.world) ∧
      ((∀ entry ∈ schedule, entry.2.healthy) →
        ∀ message, dlqMaxRetries ≤ pool.world.failed.count message →
          (∀ i op, pool.pending i = some op → ¬op.Settles message) →
          message.Recorded pool.world) := by
  intro pool
  constructor
  · obtain ⟨phases, holds⟩ := holds_run False consumers polls retries fun impossible =>
      (impossible.elim : ∀ entry ∈ schedule, entry.2.healthy)
    exact holds.invariant.acked
  · intro well message enough settled
    obtain ⟨phases, holds⟩ := holds_run True consumers polls retries fun _ => well
    have matched := holds.matches_pending fun i outcome phase resting =>
      matches_of_resting resting none
    have none_ : ∀ i, phases i ≠ .failed message ∧ phases i ≠ .exhausted message := by
      intro i
      have own := matched i
      constructor
      · intro failed
        rw [failed] at own
        obtain ⟨op, pending, settles⟩ := own
        exact settled i op pending settles
      · intro exhausted
        rw [exhausted] at own
        obtain ⟨op, pending, settles⟩ := own
        exact settled i op pending settles
    have nothing : waiting phases message = 0 := by simp [waiting, none_]
    rcases holds.invariant.exhausted trivial message (by rw [nothing]; exact enough) with
      recorded | ⟨i, exhausted⟩
    · exact recorded
    · exact absurd exhausted (none_ i).2

end TradingControl.Events
