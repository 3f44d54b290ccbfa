import TradingControl.Effects.History
import TradingControl.Effects.Observed
import TradingControl.Events.EventPipeline
import TradingControl.Python.Reference

/-!
# At-least-once handling by the broadcast pipeline

Whatever fails, an acknowledged message has been broadcast before, or its id has, or it is in the
dead-letter queue, or it is in its stream again with one more retry.  The one way out is an append
that Redis drops: the pipeline acknowledges without looking at the answer.
-/

namespace TradingControl.Events

open Effects Python

/-! ## Handled messages -/

/-- What may have become of a message before it is acknowledged. -/
inductive EventPipeline.Handled (pipeline : EventPipeline) (before : List Happening)
    (stream : String) (message : Message) : Prop where
  | broadcast (eventType ts : String)
      (sent : .broadcast (.event stream (pipeline.msgId message) eventType message.data ts) ∈
        before)
  | duplicate (other eventType ts : String) (payload : Dict String Value)
      (sent : .broadcast (.event other (pipeline.msgId message) eventType payload ts) ∈ before)
  | deadLettered (error : String) (retries : ℤ)
      (written : .deadLettered ⟨stream, pipeline.msgId message, message.data, error, retries⟩ ∈
        before)
  | republished (retryCount : ℤ) (now : String)
      (counted : EventPipeline.retryCount pipeline message.data = .ok retryCount)
      (appended : .appended ⟨stream, eventFields pipeline.formatter
        (EventPipeline.retried message.data retryCount) now⟩ ∈ before)

/-- The acknowledgement of a message that was delivered and handled before. -/
def EventPipeline.Justified (pipeline : EventPipeline) (before : List Happening)
    (stream redisId : String) : Prop :=
  ∃ message, message.id = redisId ∧ .delivered stream message ∈ before ∧
    pipeline.Handled before stream message

/-- Every acknowledgement comes after what justifies it. -/
def EventPipeline.AtLeastOnce (pipeline : EventPipeline) (history : List Happening) : Prop :=
  ∀ before stream redisId after, history = before ++ .acknowledged stream redisId :: after →
    pipeline.Justified before stream redisId

variable {pipeline : EventPipeline}

theorem EventPipeline.atLeastOnce_concat {history : List Happening} {happening : Happening}
    (atLeastOnce : pipeline.AtLeastOnce history)
    (justified : ∀ stream redisId, happening = .acknowledged stream redisId →
      pipeline.Justified history stream redisId) :
    pipeline.AtLeastOnce (history ++ [happening]) := by
  intro before stream redisId after split
  rcases split_concat split with ⟨between, isHistory, -⟩ | ⟨rfl, same, -⟩
  · exact atLeastOnce before stream redisId between isHistory
  · exact justified stream redisId same.symm

/-! ## Dropped appends -/

/-- What became of the appends of retried events. -/
structure Appends where
  /-- Redis has dropped the last one, and no acknowledgement was tried since. -/
  dropped : Bool := false
  /-- An acknowledgement took effect right after a dropped append. -/
  acknowledgedDrop : Bool := false

def watchAppends : Observer pipelineSignature PipelineChoice Appends
  | appends, .xadd _ _, choice => { appends with dropped := decide (choice.reply = .lost) }
  | appends, .xack _ _, choice =>
      { dropped := false
        acknowledgedDrop :=
          appends.acknowledgedDrop || (appends.dropped && decide (choice.reply ≠ .lost)) }
  | appends, _, _ => appends

/-- Runs of the pipeline with any choices, watched. -/
abbrev watched : Transformer pipelineSignature PipelineFailure (PipelineWorld × Appends) :=
  pipelineHandler.observed watchAppends fun _ _ => True

/-! ## What the pipeline keeps -/

/-- Unless an acknowledgement followed a dropped append, every acknowledgement is justified; the
remembered ids have been broadcast. -/
structure Sound (pipeline : EventPipeline) (state : PipelineWorld × Appends) : Prop where
  settled : state.2.dropped = false
  atLeastOnce : state.2.acknowledgedDrop = false → pipeline.AtLeastOnce state.1.history
  remembered : ∀ msgId ∈ state.1.processedMsgIds, ∃ stream eventType payload ts,
    .broadcast (.event stream msgId eventType payload ts) ∈ state.1.history

structure AtWork (pipeline : EventPipeline) (stream : String) (messages : List Message)
    (state : PipelineWorld × Appends) : Prop extends Sound pipeline state where
  delivered : ∀ message ∈ messages, .delivered stream message ∈ state.1.history

theorem Sound.record {world : PipelineWorld} {appends : Appends}
    (sound : Sound pipeline (world, appends)) {happening : Happening}
    (other : ∀ stream redisId, happening ≠ .acknowledged stream redisId) :
    Sound pipeline (world.record happening, appends) where
  settled := sound.settled
  atLeastOnce unacknowledged := EventPipeline.atLeastOnce_concat (sound.atLeastOnce unacknowledged)
    fun stream redisId same => absurd same (other stream redisId)
  remembered msgId member := by
    obtain ⟨stream, eventType, payload, ts, sent⟩ := sound.remembered msgId member
    exact ⟨stream, eventType, payload, ts, List.mem_append_left _ sent⟩

section AtWork

variable {stream : String} {messages : List Message} {state : PipelineWorld × Appends}

theorem AtWork.record {world : PipelineWorld} {appends : Appends}
    (atWork : AtWork pipeline stream messages (world, appends)) {happening : Happening}
    (other : ∀ stream redisId, happening ≠ .acknowledged stream redisId) :
    AtWork pipeline stream messages (world.record happening, appends) where
  toSound := atWork.toSound.record other
  delivered message member := List.mem_append_left _ (atWork.delivered message member)

/-- Operations that change neither the streams, nor the dead-letter queue, nor what is
remembered. -/
def PipelineOp.Quiet : PipelineOp → Prop
  | .xack _ _ => False
  | .xadd _ _ => False
  | .remember _ => False
  | .consume _ => False
  | .hset _ => False
  | _ => True

theorem AtWork.quiet {op : PipelineOp} (quiet : op.Quiet) {choice : PipelineChoice}
    (atWork : AtWork pipeline stream messages state) :
    AtWork pipeline stream messages
      ((pipelineHandler op choice state.1).2, watchAppends state.2 op choice) := by
  cases op with
  | xack stream redisId => exact quiet.elim
  | xadd stream fields => exact quiet.elim
  | remember msgId => exact quiet.elim
  | consume stream => exact quiet.elim
  | hset letter => exact quiet.elim
  | broadcast data =>
      simp only [pipelineHandler]
      cases choice.raises with
      | none => exact atWork.record (by simp)
      | some text => exact atWork
  | persistEvent stream msgId event =>
      simp only [pipelineHandler]
      cases choice.raises <;> exact atWork
  | updateAgent name status health lastTask =>
      simp only [pipelineHandler]
      cases choice.raises <;> exact atWork
  | _ => exact atWork

theorem AtWork.wp_quiet {α : Type} {program : Piping α} (calls : program.Calls PipelineOp.Quiet)
    (atWork : AtWork pipeline stream messages state)
    {post : Except PipelineFailure α → PipelineWorld × Appends → Prop}
    (finish : ∀ outcome state, AtWork pipeline stream messages state → post outcome state) :
    program.wp watched post state :=
  Program.wp_of_calls
    (fun _ quiet _ _ atWork continues _ _ => continues _ _ (atWork.quiet quiet)) calls atWork finish

theorem calls_pipe {op : PipelineOp} (quiet : op.Quiet) : (pipe op).Calls PipelineOp.Quiet :=
  Program.calls_perform quiet

theorem calls_trackAgent (event : Dict String Value) (eventType msgId : String) :
    (pipeline.trackAgent event eventType msgId).Calls PipelineOp.Quiet := by
  simp only [EventPipeline.trackAgent]
  split
  · exact Program.calls_bind (calls_pipe (by trivial)) fun _ =>
      Program.calls_bind (calls_pipe (by trivial)) fun _ => calls_pipe (by trivial)
  · trivial

theorem calls_prepare (stream : String) (message : Message) (eventType msgId ts : String) :
    (pipeline.prepare stream message eventType msgId ts).Calls PipelineOp.Quiet := by
  have tracked : (if pipeline.tracksAgents then
      pipeline.trackAgent message.data eventType msgId else .ret () : Piping Unit).Calls
        PipelineOp.Quiet := by
    split
    · exact calls_trackAgent message.data eventType msgId
    · trivial
  have persisted : (EventPipeline.persistBestEffort stream msgId message.data).Calls
      PipelineOp.Quiet :=
    Program.calls_bind (Program.calls_attempt (calls_pipe (by trivial))) fun outcome => by
      cases outcome <;> trivial
  refine Program.calls_bind persisted fun wrote => Program.calls_bind (calls_pipe (by trivial))
    fun available => ?_
  dsimp only
  split
  · exact Program.calls_bind (calls_pipe (by trivial)) fun _ => tracked
  · exact tracked

theorem AtWork.remember {world : PipelineWorld} {appends : Appends}
    (atWork : AtWork pipeline stream messages (world, appends)) {msgId other eventType ts : String}
    {payload : Dict String Value}
    (sent : .broadcast (.event other msgId eventType payload ts) ∈ world.history) :
    AtWork pipeline stream messages
      ({ world with processedMsgIds := rememberProcessedMsgId world.processedMsgIds msgId },
        appends) where
  settled := atWork.settled
  atLeastOnce := atWork.atLeastOnce
  remembered held member := by
    rcases mem_of_mem_rememberProcessedMsgId member with old | rfl
    · exact atWork.remembered held old
    · exact ⟨other, eventType, payload, ts, sent⟩
  delivered := atWork.delivered

/-! ## Acknowledgements -/

/-- A message that may be acknowledged now: it is handled, or its append was dropped. -/
structure MayAcknowledge (pipeline : EventPipeline) (stream : String) (messages : List Message)
    (redisId : String) (state : PipelineWorld × Appends) : Prop where
  atLeastOnce : state.2.acknowledgedDrop = false → pipeline.AtLeastOnce state.1.history
  remembered : ∀ msgId ∈ state.1.processedMsgIds, ∃ stream eventType payload ts,
    .broadcast (.event stream msgId eventType payload ts) ∈ state.1.history
  delivered : ∀ message ∈ messages, .delivered stream message ∈ state.1.history
  justified : state.2.dropped = false → pipeline.Justified state.1.history stream redisId

theorem AtWork.mayAcknowledge (atWork : AtWork pipeline stream messages state) {message : Message}
    (member : message ∈ messages) (handled : pipeline.Handled state.1.history stream message) :
    MayAcknowledge pipeline stream messages message.id state where
  atLeastOnce := atWork.atLeastOnce
  remembered := atWork.remembered
  delivered := atWork.delivered
  justified _ := ⟨message, rfl, atWork.delivered message member, handled⟩

theorem MayAcknowledge.wp_acknowledge {redisId : String}
    (may : MayAcknowledge pipeline stream messages redisId state)
    {post : Except PipelineFailure Unit → PipelineWorld × Appends → Prop}
    (finish : ∀ after, AtWork pipeline stream messages after →
      state.1.history ⊆ after.1.history → post (.ok ()) after) :
    (EventPipeline.acknowledge stream redisId).wp watched post state := by
  rw [EventPipeline.acknowledge, Program.bind_eq_bind, Program.wp_bind, Program.wp_attempt, pipe,
    Program.wp_perform]
  intro choice _
  obtain ⟨world, appends⟩ := state
  -- the acknowledgement takes effect, or Redis drops it
  have effective : choice.reply ≠ .lost → AtWork pipeline stream messages
      (world.record (.acknowledged stream redisId),
        watchAppends appends (.xack stream redisId) choice) := by
    intro effective
    refine ⟨⟨rfl, fun unacknowledged => ?_, fun msgId member => ?_⟩, fun message member => ?_⟩
    · simp only [watchAppends, effective, ne_eq, not_false_eq_true, decide_true, Bool.and_true,
        Bool.or_eq_false_iff] at unacknowledged
      refine EventPipeline.atLeastOnce_concat (may.atLeastOnce unacknowledged.1) ?_
      rintro _ _ ⟨⟩
      exact may.justified unacknowledged.2
    · obtain ⟨stream, eventType, payload, ts, sent⟩ := may.remembered msgId member
      exact ⟨stream, eventType, payload, ts, List.mem_append_left _ sent⟩
    · exact List.mem_append_left _ (may.delivered message member)
  have dropped : choice.reply = .lost → AtWork pipeline stream messages
      (world, watchAppends appends (.xack stream redisId) choice) := by
    intro lost
    refine ⟨⟨rfl, fun unacknowledged => ?_, may.remembered⟩, may.delivered⟩
    simp only [watchAppends, lost, ne_eq, not_true_eq_false, decide_false, Bool.and_false,
      Bool.or_false] at unacknowledged
    exact may.atLeastOnce unacknowledged
  simp only [pipelineHandler, redisReply]
  cases reply : choice.reply with
  | answered => exact finish _ (effective (by simp [reply])) (List.subset_append_left _ _)
  | lost => exact finish _ (dropped reply) (List.Subset.refl _)
  | unacknowledged => exact finish _ (effective (by simp [reply])) (List.subset_append_left _ _)

theorem wp_utcNow {post : Except PipelineFailure String → PipelineWorld × Appends → Prop}
    (finish : ∀ now, post (.ok now) state) : (pipe .utcNow).wp watched post state := by
  rw [pipe, Program.wp_perform]
  exact fun choice _ => finish choice.now

/-- After a retry is published, the message may be acknowledged: the entry is there, or Redis has
dropped it. -/
theorem AtWork.wp_publish (atWork : AtWork pipeline stream messages state) {message : Message}
    (member : message ∈ messages) {retryCount : ℤ}
    (counted : pipeline.retryCount message.data = .ok retryCount)
    {post : Except PipelineFailure (Option String) → PipelineWorld × Appends → Prop}
    (finish : ∀ published after, MayAcknowledge pipeline stream messages message.id after →
      post (.ok published) after) :
    (pipeline.publish stream (EventPipeline.retried message.data retryCount)).wp watched post
      state := by
  rw [EventPipeline.publish, Program.bind_eq_bind, Program.wp_bind]
  refine wp_utcNow fun now => ?_
  rw [Program.andThen_ok, Program.bind_eq_bind, Program.wp_bind, Program.wp_attempt, pipe,
    Program.wp_perform]
  intro choice _
  obtain ⟨world, appends⟩ := state
  obtain ⟨fields, isFields⟩ : ∃ fields, fields = eventFields pipeline.formatter
    (EventPipeline.retried message.data retryCount) now := ⟨_, rfl⟩
  rw [← isFields]
  have effective : choice.reply ≠ .lost → MayAcknowledge pipeline stream messages message.id
      (world.record (.appended ⟨stream, fields⟩),
        watchAppends appends (.xadd stream fields) choice) := by
    intro effective
    have appended := @AtWork.record _ _ _ _ _ atWork (.appended ⟨stream, fields⟩) (by simp)
    have handled := appended.mayAcknowledge member (.republished retryCount now counted
      (isFields ▸ List.mem_append_right _ (List.mem_singleton_self _)))
    exact ⟨handled.atLeastOnce, handled.remembered, handled.delivered,
      fun _ => handled.justified atWork.settled⟩
  have dropped : choice.reply = .lost → MayAcknowledge pipeline stream messages message.id
      (world, watchAppends appends (.xadd stream fields) choice) := by
    intro lost
    refine ⟨atWork.atLeastOnce, atWork.remembered, atWork.delivered, fun kept => ?_⟩
    simp [watchAppends, lost] at kept
  simp only [pipelineHandler, redisReply]
  cases reply : choice.reply with
  | answered => exact finish _ _ (effective (by simp [reply]))
  | lost => exact finish _ _ (dropped reply)
  | unacknowledged => exact finish _ _ (effective (by simp [reply]))

/-- `_process_message` leaves the message unacknowledged where it raises. -/
theorem AtWork.wp_processMessage (atWork : AtWork pipeline stream messages state)
    {message : Message} (member : message ∈ messages) (eventType ts : String) :
    (pipeline.processMessage stream message eventType (pipeline.msgId message) ts).wp watched
      (fun _ after => AtWork pipeline stream messages after) state := by
  rw [EventPipeline.processMessage, Program.bind_eq_bind, Program.wp_bind, pipe,
    Program.wp_perform]
  intro choice _
  obtain ⟨world, appends⟩ := state
  change Program.wp _ (if decide (pipeline.msgId message ∈ world.processedMsgIds) then _ else _) _ _
  by_cases processed : pipeline.msgId message ∈ world.processedMsgIds
  · rw [if_pos (decide_eq_true processed)]
    obtain ⟨other, eventType, payload, ts, sent⟩ := atWork.remembered _ processed
    exact (atWork.mayAcknowledge member (.duplicate other eventType ts payload sent)).wp_acknowledge
      fun _ after _ => after
  · rw [if_neg (by simpa using processed), Program.bind_eq_bind, Program.wp_bind]
    refine atWork.wp_quiet (calls_prepare stream message eventType _ ts) fun outcome state
      atWork => ?_
    rcases outcome with failure | _
    · exact atWork
    · rw [Program.andThen_ok, Program.bind_eq_bind, Program.wp_bind, pipe, Program.wp_perform]
      intro choice _
      obtain ⟨world, appends⟩ := state
      simp only [pipelineHandler]
      cases choice.raises with
      | some text => exact atWork
      | none =>
          have sent := @AtWork.record _ _ _ _ _ atWork (.broadcast (.event stream
            (pipeline.msgId message) eventType message.data ts)) (by simp)
          rw [Program.andThen_ok, Program.bind_eq_bind, Program.wp_bind]
          have isLast : .broadcast (.event stream (pipeline.msgId message) eventType message.data
              ts) ∈ (world.record (.broadcast (.event stream (pipeline.msgId message) eventType
                message.data ts))).history := List.mem_append_right _ (List.mem_singleton_self _)
          refine (sent.mayAcknowledge member (.broadcast eventType ts isLast)).wp_acknowledge
            fun after acked kept => ?_
          rw [Program.andThen_ok, pipe, Program.wp_perform]
          exact fun choice _ => acked.remember (kept isLast)

/-- What `_process_with_retry` does about a failure leaves nothing unjustified. -/
theorem AtWork.wp_handleFailure (atWork : AtWork pipeline stream messages state)
    {message : Message} (member : message ∈ messages) {retryCount : ℤ}
    (counted : pipeline.retryCount message.data = .ok retryCount) (failure : PipelineFailure) :
    (pipeline.handleFailure stream message (pipeline.msgId message) retryCount failure).wp watched
      (fun _ after => AtWork pipeline stream messages after) state := by
  simp only [EventPipeline.handleFailure]
  split
  · rw [Program.bind_eq_bind, Program.wp_bind]
    refine atWork.wp_publish member counted fun published after may => ?_
    exact may.wp_acknowledge fun _ acked _ => acked
  · rw [Program.bind_eq_bind, Program.wp_bind, pipe, Program.wp_perform]
    intro choice _
    obtain ⟨world, appends⟩ := state
    have written := @AtWork.record _ _ _ _ _ atWork (.deadLettered ⟨stream,
      pipeline.msgId message, message.data, pipeline.errorText failure, retryCount + 1⟩) (by simp)
    simp only [pipelineHandler, redisReply]
    cases choice.reply with
    | lost => exact atWork
    | unacknowledged => exact written
    | answered =>
        rw [Program.andThen_ok, Program.bind_eq_bind, Program.wp_bind]
        refine (written.mayAcknowledge member (.deadLettered _ _ (List.mem_append_right _
          (List.mem_singleton_self _)))).wp_acknowledge fun after acked _ => ?_
        rw [Program.andThen_ok]
        refine acked.wp_quiet ?_ fun _ _ acked => acked
        exact Program.calls_bind (calls_pipe (by trivial)) fun _ => calls_pipe (by trivial)

theorem AtWork.wp_processWithRetry (atWork : AtWork pipeline stream messages state)
    {message : Message} (member : message ∈ messages) :
    (pipeline.processWithRetry stream message).wp watched
      (fun _ after => AtWork pipeline stream messages after) state := by
  have retrying : ∀ ts, (pipeline.processCounted stream message ts).wp watched
      (fun _ after => AtWork pipeline stream messages after) state := by
    intro ts
    rw [EventPipeline.processCounted]
    cases counted : pipeline.retryCount message.data with
    | error error => exact atWork
    | ok retryCount =>
        rw [Program.wp_bind, Program.wp_attempt]
        refine Program.wp_mono (Handler.observed_monotone _ _ _) (fun outcome after atWork => ?_)
          (atWork.wp_processMessage member _ ts)
        cases outcome with
        | ok _ => exact atWork
        | error failure => exact atWork.wp_handleFailure member counted failure
  rw [EventPipeline.processWithRetry_eq]
  split
  · exact retrying _
  · rw [Program.wp_bind]
    exact wp_utcNow fun now => retrying now

theorem AtWork.wp_processAll (atWork : AtWork pipeline stream messages state)
    {some : List Message} (within : some ⊆ messages) :
    (pipeline.processAll stream some).wp watched
      (fun _ after => AtWork pipeline stream messages after) state := by
  induction some generalizing state with
  | nil => exact atWork
  | cons message rest induction =>
      rw [EventPipeline.processAll, Program.bind_eq_bind, Program.wp_bind]
      refine Program.wp_mono (Handler.observed_monotone _ _ _) (fun outcome after atWork => ?_)
        (atWork.wp_processWithRetry (within List.mem_cons_self))
      cases outcome with
      | error failure => exact atWork
      | ok _ => exact induction atWork fun held member => within (List.mem_cons_of_mem _ member)

end AtWork

/-! ## Runs -/

section Runs

variable {state : PipelineWorld × Appends}

theorem Sound.deliver {world : PipelineWorld} {appends : Appends}
    (sound : Sound pipeline (world, appends)) (stream : String) (messages : List Message) :
    AtWork pipeline stream messages
      ({ world with history := world.history ++ messages.map (.delivered stream) }, appends) := by
  refine ⟨?_, fun message member => List.mem_append_right _ (List.mem_map_of_mem member)⟩
  induction messages using List.reverseRecOn with
  | nil => simpa using sound
  | append_singleton messages message induction =>
      have recorded := @Sound.record _ _ _ induction (.delivered stream message) (by simp)
      simpa [PipelineWorld.record] using recorded

theorem Sound.wp_pollStreams (sound : Sound pipeline state) (streams : List String) :
    (pipeline.pollStreams streams).wp watched (fun _ after => Sound pipeline after) state := by
  induction streams generalizing state with
  | nil => exact sound
  | cons stream rest induction =>
      rw [EventPipeline.pollStreams, Program.bind_eq_bind, Program.wp_bind, pipe,
        Program.wp_perform]
      intro choice _
      change Program.wp _ (if choice.running then _ else _) _ _
      split
      · rw [Program.bind_eq_bind, Program.wp_bind, pipe, Program.wp_perform]
        intro choice _
        change Program.wp _ (_ >>= _) _ _
        rw [Program.bind_eq_bind, Program.wp_bind]
        have atWork := sound.deliver stream choice.messages
        refine Program.wp_mono (Handler.observed_monotone _ _ _) (fun outcome after atWork => ?_)
          (atWork.wp_processAll (List.Subset.refl _))
        cases outcome with
        | error failure => exact atWork.toSound
        | ok _ => exact induction atWork.toSound
      · exact sound

theorem Sound.wp_run (sound : Sound pipeline state) (rounds : ℕ) :
    (pipeline.run rounds).wp watched (fun _ after => Sound pipeline after) state := by
  induction rounds generalizing state with
  | zero => exact sound
  | succ rounds induction =>
      rw [EventPipeline.run, Program.bind_eq_bind, Program.wp_bind, pipe, Program.wp_perform]
      intro choice _
      change Program.wp _ (if choice.running then _ else _) _ _
      split
      · rw [Program.bind_eq_bind, Program.wp_bind]
        refine Program.wp_mono (Handler.observed_monotone _ _ _) (fun outcome after sound => ?_)
          (sound.wp_pollStreams streams)
        cases outcome with
        | error failure => exact sound
        | ok _ => exact induction sound
      · exact sound

/-- In every run in which no acknowledgement follows an append that Redis dropped, a message is
acknowledged only after it was handled. -/
theorem EventPipeline.handled_at_least_once (pipeline : EventPipeline) (rounds : ℕ)
    (choices : ℕ → PipelineChoice)
    (kept : ((pipeline.run rounds).observe pipelineHandler watchAppends choices {}
      {}).acknowledgedDrop = false) :
    pipeline.AtLeastOnce ((pipeline.run rounds).exec pipelineHandler choices {}).2.history := by
  have start : Sound pipeline ({}, {}) :=
    ⟨rfl, fun _ => by simp [EventPipeline.AtLeastOnce], by simp⟩
  have permits := @Program.permits_of_forall _ _ _ _ _ pipelineHandler (fun _ _ => True)
    (pipeline.run rounds) choices {} fun _ _ => trivial
  exact (Handler.exec_of_observed (start.wp_run rounds) permits).atLeastOnce kept

end Runs

/-! ## A dropped append -/

def plainPipeline : EventPipeline where
  runtime := Reference.decimalRuntime
  formatter := { float := fun _ => "", dumps := fun _ => "" }
  errorText
    | .broadcastFailed text => text
    | _ => ""
  tracksAgents := false

def tick : Message := ⟨"1-0", [("msg_id", .str "tick-1")]⟩

/-- One message, whose broadcast fails; Redis drops the append of the retry, or does not. -/
def failedBroadcast (append : Reply) : ℕ → PipelineChoice
  | 2 => { messages := [tick] }
  | 7 => { raises := some "closed" }
  | 9 => { reply := append }
  | 11 => { running := false }
  | _ => {}

/-- The append is dropped, the message is acknowledged, and nothing else has happened to it. -/
theorem dropped_append_acknowledged :
    ¬plainPipeline.AtLeastOnce
      ((plainPipeline.run 1).exec pipelineHandler (failedBroadcast .lost) {}).2.history := by
  have history : ((plainPipeline.run 1).exec pipelineHandler (failedBroadcast .lost) {}).2.history =
      [.delivered "market_events" tick, .acknowledged "market_events" "1-0"] := by
    rfl
  intro atLeastOnce
  obtain ⟨message, -, -, handled⟩ :=
    atLeastOnce [.delivered "market_events" tick] "market_events" "1-0" [] history
  cases handled with
  | broadcast eventType ts sent => simp at sent
  | duplicate other eventType ts payload sent => simp at sent
  | deadLettered error retries written => simp at written
  | republished retryCount now counted appended => simp at appended

theorem appended_retry_handled :
    plainPipeline.AtLeastOnce
      ((plainPipeline.run 1).exec pipelineHandler (failedBroadcast .answered) {}).2.history :=
  plainPipeline.handled_at_least_once 1 (failedBroadcast .answered) (by decide +kernel)

end TradingControl.Events
