import TradingControl.Dashboard.MergedRows

/-!
# Proposals of the dashboard

While the database is down, proposals are events of the runtime store.  The list shows the newest of
them, each under an id, and an operator votes on an id.  An approved proposal of a gated type is
published again, so that the applier acts on it.
-/

namespace TradingControl.Dashboard

open Effects Events Python

-- the window lemmas say all there is to know, and two hundred is too far to unfold
attribute [local irreducible] lastItems

/-! ## Store -/

/-- An event or a log line. -/
abbrev Entry := Dict String Value

/-- The collections of the runtime store that hold proposals. -/
structure ProposalStore where
  eventHistory : List Entry := []
  agentLogs : List Entry := []

/-- `record.get(LOG_TYPE) == LogType.PROPOSAL`. -/
def isProposal (record : Entry) : Bool := (field record "log_type").isText "proposal"

/-- The interpreter, as far as the dashboard depends on it. -/
structure ProposalBoard where
  interpreter : Interpreter
  formatter : Formatter
  /-- `datetime.fromtimestamp(ts, tz=timezone.utc).isoformat()`. -/
  fromTimestamp : Number → Except Raised String

namespace ProposalBoard

variable (board : ProposalBoard)

/-- The codec of the bus. -/
def codec : Codec where
  runtime := board.interpreter.toRuntime
  formatter := board.formatter
  depth := board.interpreter.depth

/-- `str(value)`. -/
def str (value : Value) : String := board.interpreter.toRuntime.str value

/-- `_as_dict`. -/
def asDict : Value → Except Raised (Dict String Value)
  | .dict entries => .ok entries
  | .str text =>
      match Json.loads board.interpreter.toRuntime board.interpreter.depth text with
      | .ok (.dict entries) => .ok entries
      | .ok _ => .ok []
      | .error .jsonDecodeError => .ok []
      | .error error => .error error
  | _ => .ok []

/-- `_timestamp_to_iso`. -/
def timestampToIso (value : Value) : Except Raised Value :=
  if !isGiven value || value.isText "" then .ok .none
  else
    match board.interpreter.float value with
    | .ok timestamp => (board.fromTimestamp timestamp).map .str
    | .error .typeError => .ok (.str (board.str value))
    | .error .valueError => .ok (.str (board.str value))
    | .error error => .error error

/-! ## List -/

/-- `payload.get(name) or _as_dict(payload.get(CONTENT)).get(name)`. -/
def orContent (payload : Dict String Value) (name : String) : Except Raised Value :=
  if (field payload name).truthy then .ok (field payload name)
  else (board.asDict (field payload "content")).map fun content => field content name

/-- The trace of a proposal. -/
def traceOf (event payload : Dict String Value) : Value :=
  Value.orElse (event.lookup "trace_id") (Value.orElse (payload.lookup "trace_id")
    (Value.orElse (payload.lookup "reflection_trace_id") (field payload "msg_id")))

def proposalId (event payload : Dict String Value) : String :=
  board.str (Value.orElse (payload.lookup "msg_id")
    (Value.orElse (some (traceOf event payload)) (.str "")))

/-- The status that a proposal is shown with. -/
def statusOf (payload : Dict String Value) : Value :=
  Value.orElse (payload.lookup "status")
    (.str (if (field payload "applied").truthy then "applied" else "pending"))

/-- `_normalize_proposal_event`. -/
def normalizeProposalEvent (event : Entry) : Except Raised Entry := do
  let payload ← board.asDict (field event "payload")
  let timestamp ← board.timestampToIso (Value.orElse (event.lookup "created_at")
    (Value.orElse (event.lookup "timestamp") (field payload "timestamp")))
  let message ← board.orContent payload "message"
  let prUrl ← board.orContent payload "pr_url"
  let kept name := (name, field payload name)
  let orDefault name default := (name, (payload.lookup name).getD default)
  return [("id", .str (board.proposalId event payload)), kept "symbol", kept "action",
    kept "grade_score", kept "bias", kept "buys", kept "sells", kept "strategy_name",
    ("trace_id", traceOf event payload), ("created_at", timestamp), ("source", .str "in_memory"),
    ("status", statusOf payload), orDefault "proposal_type" (.str "parameter_change"),
    orDefault "content" (.dict []), orDefault "requires_approval" (.bool true), kept "confidence",
    kept "reflection_trace_id", ("applied", .bool (field payload "applied").truthy),
    kept "applied_at", kept "applied_by", ("message", message), ("pr_url", prUrl),
    ("timestamp", timestamp)]

/-- `max(1, min(limit, 200))`. -/
def safeLimit (limit : ℤ) : ℕ := (max 1 (min limit 200)).toNat

/-- `normalized_proposals`. -/
def normalizedProposals (limit : ℤ) (store : ProposalStore) : Except Raised (List Entry) :=
  (((lastItems 200 store.eventHistory).reverse.filter isProposal).take (safeLimit limit)).mapM
    board.normalizeProposalEvent

/-! ## Votes -/

def isHashable : Value → Bool
  | .list _ | .dict _ => false
  | _ => true

/-- A set of values, each in the form it came in first. -/
def setOf (values : List Value) : Except Raised (List Value) :=
  if values.all isHashable then
    .ok (values.foldl (fun held value =>
      if held.any (Value.equal value) then held else held ++ [value]) [])
  else .error .typeError

/-- The ids that a proposal goes by. -/
def candidates (record payload : Dict String Value) : List Value :=
  [field record "id", field record "trace_id", field record "msg_id", field payload "trace_id",
    field payload "reflection_trace_id", field payload "msg_id"]

/-- `_proposal_matches`. -/
def proposalMatches (record : Entry) (proposalId : String) : Except Raised Bool := do
  let payload ← board.asDict (field record "payload")
  let held ← setOf (candidates record payload)
  return ((held.filter isGiven).map board.str).contains proposalId

/-- `_set_payload_status`. -/
def setPayloadStatus (record : Entry) (status : String) : Except Raised Entry := do
  let payload ← board.asDict (field record "payload")
  return Dict.set "payload" (.dict (Dict.set "status" (.str status) payload)) record

def vote (proposalId status : String) (record : Entry) : Except Raised (Option Entry) := do
  if isProposal record then
    if ← board.proposalMatches record proposalId then
      return some (← board.setPayloadStatus record status)
  return none

/-- One collection after a vote, and whether there was a proposal to vote on; an exception leaves
what was voted on before it. -/
def updateStatuses (proposalId status : String) : List Entry → Except Raised Bool × List Entry
  | [] => (.ok false, [])
  | record :: rest =>
      match board.vote proposalId status record with
      | .error error => (.error error, record :: rest)
      | .ok voted =>
          let (updated, after) := updateStatuses proposalId status rest
          (updated.map (voted.isSome || ·), voted.getD record :: after)

/-- `_update_in_memory_proposal_status`. -/
def updateInMemoryProposalStatus (proposalId status : String) (store : ProposalStore) :
    Except Raised Bool × ProposalStore :=
  match board.updateStatuses proposalId status store.eventHistory with
  | (.error error, events) => (.error error, { store with eventHistory := events })
  | (.ok first, events) =>
      let (second, logs) := board.updateStatuses proposalId status store.agentLogs
      (second.map (first || ·), ⟨events, logs⟩)

def firstPayload (proposalId : String) : List Entry → Except Raised (Option (Dict String Value))
  | [] => .ok none
  | record :: rest => do
      if isProposal record then
        if ← board.proposalMatches record proposalId then
          return some (← board.asDict (field record "payload"))
      firstPayload proposalId rest

/-- `_get_in_memory_proposal_payload`. -/
def getInMemoryProposalPayload (proposalId : String) (store : ProposalStore) :
    Except Raised (Option (Dict String Value)) :=
  board.firstPayload proposalId (store.eventHistory ++ store.agentLogs)

/-! ## Approval -/

/-- The event that an approved proposal is published as, if its type is gated. -/
def approvedEvent (payload : Option (Dict String Value)) :
    Except Raised (Option (Dict String Value)) :=
  match payload with
  | none => .ok none
  | some [] => .ok none
  | some payload =>
      if !isHashable (field payload "proposal_type") then .error .typeError
      else if !(field payload "proposal_type").isText "challenger_promotion" then .ok none
      else do
        let republished := Dict.set "approved" (.bool true) payload
        let content ← board.asDict (field republished "content")
        let content :=
          if (field content "challenger_config").truthy then content
          else Dict.set "challenger_config"
            (Value.orElse (republished.lookup "config") (.dict [])) content
        return some (Dict.set "content" (.dict content) republished)

/-- `republish_approved_proposal`; `connected` says that there is a Redis client. -/
def republishApprovedProposal (connected : Bool) (payload : Option (Dict String Value)) :
    Bus Bool :=
  match board.approvedEvent payload with
  | .error error => .raise (.raised error)
  | .ok none => .ret false
  | .ok (some republished) =>
      if connected then do
        match ← (EventBus.publish board.codec "proposals" republished none).attempt with
        | .ok _ => return true
        | .error _ => return false
      else .ret false

/-- What a vote comes to when it is refused. -/
inductive VoteFailure where
  | http (statusCode : ℕ) (detail : String)
  | raised (error : Raised)

/-- What a vote answers. -/
structure VoteReply where
  traceId : String
  status : String
  source : String

/-- `update_proposal_status_payload` while the database is down: the store, and what is left. -/
def updateProposalStatusPayload (connected : Bool) (traceId status : String)
    (store : ProposalStore) : ProposalStore × Bus (Except VoteFailure VoteReply) :=
  if status ∉ ["approved", "rejected"] then
    (store, .ret (.error (.http 400 "status must be 'approved' or 'rejected'")))
  else
    match board.updateInMemoryProposalStatus traceId status store with
    | (.error error, after) => (after, .ret (.error (.raised error)))
    | (.ok false, after) => (after, .ret (.error (.http 404 "Proposal not found")))
    | (.ok true, after) =>
        (after, do
          if status = "approved" then
            match board.getInMemoryProposalPayload traceId after with
            | .error error => return .error (.raised error)
            | .ok payload =>
                let _ ← board.republishApprovedProposal connected payload
                return .ok ⟨traceId, status, "in_memory"⟩
          else return .ok ⟨traceId, status, "in_memory"⟩)

end ProposalBoard

end TradingControl.Dashboard

/-!
# One vote, one proposal

A vote is on every proposal that goes by the id, under any of its names, and the list shows a
proposal under one of them.  It hits the proposal it is meant for, and that one alone, where no
other one goes by the id.
-/

namespace TradingControl.Dashboard

open Effects Events Python

-- the window lemmas say all there is to know, and two hundred is too far to unfold
attribute [local irreducible] lastItems

/-! ## Changes to one place of a list -/

/-- A change of every item is a change in one place exactly where the others stay as they are. -/
theorem map_eq_set_iff {α : Type} {items : List α} {change : α → α} {index : ℕ} {item changed : α}
    (held : items[index]? = some item) :
    items.map change = items.set index changed ↔
      change item = changed ∧
        ∀ place other, items[place]? = some other → place ≠ index → change other = other := by
  have inside : index < items.length := (List.getElem?_eq_some_iff.mp held).1
  constructor
  · intro same
    have at_ (place : ℕ) : (items.map change)[place]? = (items.set index changed)[place]? :=
      congrArg (·[place]?) same
    refine ⟨?_, fun place other isOther elsewhere => ?_⟩
    · have here := at_ index
      rw [List.getElem?_map, held, List.getElem?_set_self inside] at here
      exact Option.some.inj here
    · have there := at_ place
      rw [List.getElem?_map, isOther, List.getElem?_set_ne elsewhere.symm, isOther] at there
      exact Option.some.inj there
  · rintro ⟨here, elsewhere⟩
    apply List.ext_getElem?
    intro place
    rw [List.getElem?_map]
    by_cases same : place = index
    · rw [same, held, List.getElem?_set_self inside, Option.map_some, here]
    · rw [List.getElem?_set_ne (Ne.symm same)]
      cases isOther : items[place]? with
      | none => rfl
      | some other => rw [Option.map_some, elsewhere place other isOther same]

namespace ProposalBoard

variable {board : ProposalBoard} {proposalId status : String} {records : List Entry}
  {store : ProposalStore}

/-! ## Votes -/

variable (board) in
/-- The vote is on the record. -/
def Hits (proposalId : String) (record : Entry) : Prop :=
  isProposal record = true ∧ board.proposalMatches record proposalId = .ok true

variable (board) in
/-- It can be told whether the vote is on the record. -/
def Tells (proposalId : String) (record : Entry) : Prop :=
  isProposal record = true → ∃ hit, board.proposalMatches record proposalId = .ok hit

variable (board) in
def voted (proposalId status : String) (record : Entry) : Entry :=
  match board.vote proposalId status record with
  | .ok (some changed) => changed
  | _ => record

theorem payload_of_matches {record : Entry} {hit : Bool}
    (told : board.proposalMatches record proposalId = .ok hit) :
    ∃ payload, board.asDict (field record "payload") = .ok payload := by
  cases read : board.asDict (field record "payload") with
  | ok payload => exact ⟨payload, rfl⟩
  | error error => rw [proposalMatches, read] at told; cases told

theorem vote_of_hits {record : Entry} (hits : board.Hits proposalId record) :
    ∃ changed, board.setPayloadStatus record status = .ok changed ∧
      board.vote proposalId status record = .ok (some changed) := by
  obtain ⟨payload, read⟩ := payload_of_matches hits.2
  have changes : board.setPayloadStatus record status =
      .ok (Dict.set "payload" (.dict (Dict.set "status" (.str status) payload)) record) := by
    rw [setPayloadStatus, read]
    rfl
  refine ⟨_, changes, ?_⟩
  rw [vote, hits.1, hits.2, changes]
  rfl

theorem vote_of_not_hits {record : Entry} (tells : board.Tells proposalId record)
    (misses : ¬board.Hits proposalId record) :
    board.vote proposalId status record = .ok none := by
  rw [vote]
  by_cases shown : isProposal record = true
  · obtain ⟨hit, told⟩ := tells shown
    cases hit with
    | true => exact absurd ⟨shown, told⟩ misses
    | false => rw [if_pos shown, told]; rfl
  · rw [if_neg shown]
    rfl

/-- Whether a vote is on a record cannot be told where the vote raises. -/
theorem tells_of_vote {record : Entry} {after : Option Entry}
    (returned : board.vote proposalId status record = .ok after) :
    board.Tells proposalId record := by
  intro shown
  cases told : board.proposalMatches record proposalId with
  | ok hit => exact ⟨hit, rfl⟩
  | error error => rw [vote, if_pos shown, told] at returned; cases returned

theorem voted_of_not_hits {record : Entry} (tells : board.Tells proposalId record)
    (misses : ¬board.Hits proposalId record) : board.voted proposalId status record = record := by
  rw [voted, vote_of_not_hits tells misses]

/-- A vote changes a record to what it sets its status to, and leaves the others. -/
theorem voted_eq_iff {record changed : Entry} (tells : board.Tells proposalId record)
    (changes : board.setPayloadStatus record status = .ok changed) :
    board.voted proposalId status record = changed ↔
      board.Hits proposalId record ∨ changed = record := by
  by_cases hits : board.Hits proposalId record
  · obtain ⟨other, isChanged, votes⟩ := @vote_of_hits board proposalId status record hits
    rw [changes] at isChanged
    obtain rfl := Except.ok.inj isChanged
    rw [voted, votes]
    exact ⟨fun _ => .inl hits, fun _ => rfl⟩
  · rw [voted_of_not_hits tells hits]
    exact ⟨fun same => .inr same.symm, fun either => (either.resolve_left hits).symm⟩

/-- A vote leaves a record as it is where it is not on it, or the status is set already. -/
theorem voted_eq_self_iff {record : Entry} (tells : board.Tells proposalId record) :
    board.voted proposalId status record = record ↔
      (board.Hits proposalId record → board.setPayloadStatus record status = .ok record) := by
  by_cases hits : board.Hits proposalId record
  · obtain ⟨changed, changes, votes⟩ := @vote_of_hits board proposalId status record hits
    rw [voted, votes, changes]
    exact ⟨fun same _ => congrArg Except.ok same, fun same => Except.ok.inj (same hits)⟩
  · exact ⟨fun _ isHit => absurd isHit hits, fun _ => voted_of_not_hits tells hits⟩

/-! ## Collections -/

/-- A collection in which every vote can be told is voted on record by record. -/
theorem updateStatuses_of_tells (tells : ∀ record ∈ records, board.Tells proposalId record) :
    ∃ updated, board.updateStatuses proposalId status records =
        (.ok updated, records.map (board.voted proposalId status)) ∧
      (updated = true ↔ ∃ record ∈ records, board.Hits proposalId record) := by
  induction records with
  | nil => exact ⟨false, rfl, by simp⟩
  | cons record rest induction =>
      obtain ⟨updated, isRest, found⟩ :=
        induction fun record member => tells record (List.mem_cons_of_mem _ member)
      have told := tells record List.mem_cons_self
      by_cases hits : board.Hits proposalId record
      · obtain ⟨changed, -, votes⟩ := @vote_of_hits board proposalId status record hits
        refine ⟨true, ?_, by simp [hits]⟩
        rw [updateStatuses, votes, isRest, List.map_cons, voted, votes]
        rfl
      · have votes := @vote_of_not_hits board proposalId status record told hits
        refine ⟨updated, ?_, by simp [hits, found]⟩
        rw [updateStatuses, votes, isRest, List.map_cons, voted, votes]
        rfl

/-- Where no exception is raised, every vote can be told. -/
theorem tells_of_updateStatuses {updated : Bool}
    (returned : (board.updateStatuses proposalId status records).1 = .ok updated) :
    ∀ record ∈ records, board.Tells proposalId record := by
  induction records generalizing updated with
  | nil => nofun
  | cons record rest induction =>
      rw [updateStatuses] at returned
      cases votes : board.vote proposalId status record with
      | error error => rw [votes] at returned; cases returned
      | ok after =>
          rw [votes] at returned
          cases others : (board.updateStatuses proposalId status rest).1 with
          | error error =>
              dsimp only at returned
              rw [others] at returned
              cases returned
          | ok found =>
              intro other member
              rcases List.mem_cons.mp member with rfl | inside
              · exact tells_of_vote votes
              · exact induction others other inside

/-! ## The store -/

variable (board) in
/-- Every vote on the store can be told. -/
def AllTold (proposalId : String) (store : ProposalStore) : Prop :=
  ∀ record ∈ store.eventHistory ++ store.agentLogs, board.Tells proposalId record

theorem updateInMemoryProposalStatus_of_told (told : board.AllTold proposalId store) :
    ∃ updated, board.updateInMemoryProposalStatus proposalId status store =
        (.ok updated, ⟨store.eventHistory.map (board.voted proposalId status),
          store.agentLogs.map (board.voted proposalId status)⟩) ∧
      (updated = true ↔
        ∃ record ∈ store.eventHistory ++ store.agentLogs, board.Hits proposalId record) := by
  obtain ⟨first, isFirst, inEvents⟩ := @updateStatuses_of_tells board proposalId status _
    fun record member => told record (List.mem_append_left _ member)
  obtain ⟨second, isSecond, inLogs⟩ := @updateStatuses_of_tells board proposalId status _
    fun record member => told record (List.mem_append_right _ member)
  refine ⟨first || second, ?_, ?_⟩
  · rw [updateInMemoryProposalStatus, isFirst, isSecond]
    rfl
  · rw [Bool.or_eq_true, inEvents, inLogs]
    simp only [List.mem_append, or_and_right, exists_or]

theorem told_of_update {updated : Bool}
    (returned : (board.updateInMemoryProposalStatus proposalId status store).1 = .ok updated) :
    board.AllTold proposalId store := by
  rw [updateInMemoryProposalStatus] at returned
  cases events : board.updateStatuses proposalId status store.eventHistory with
  | mk outcome after =>
      rw [events] at returned
      cases outcome with
      | error error => cases returned
      | ok first =>
          dsimp only at returned
          cases logs : (board.updateStatuses proposalId status store.agentLogs).1 with
          | error error => rw [logs] at returned; cases returned
          | ok second =>
              intro record member
              rcases List.mem_append.mp member with inEvents | inLogs
              · exact tells_of_updateStatuses (congrArg Prod.fst events) record inEvents
              · exact tells_of_updateStatuses logs record inLogs

/-- A vote that is not refused leaves the store as its update does. -/
theorem updateProposalStatusPayload_store (connected : Bool)
    (isVote : status ∈ ["approved", "rejected"]) :
    (board.updateProposalStatusPayload connected proposalId status store).1 =
      (board.updateInMemoryProposalStatus proposalId status store).2 := by
  rw [updateProposalStatusPayload, if_neg (not_not_intro isVote)]
  rcases board.updateInMemoryProposalStatus proposalId status store with ⟨outcome, after⟩
  cases outcome with
  | error error => rfl
  | ok updated => cases updated <;> rfl

/-! ## The list -/

def shownProposals (limit : ℤ) (store : ProposalStore) : List (Entry × ℕ) :=
  ((lastItems 200 store.eventHistory.zipIdx).reverse.filter fun shown => isProposal shown.1).take
    (safeLimit limit)

theorem normalizedProposals_eq (limit : ℤ) (store : ProposalStore) :
    board.normalizedProposals limit store =
      (shownProposals limit store).mapM fun shown => board.normalizeProposalEvent shown.1 := by
  have events : store.eventHistory = store.eventHistory.zipIdx.map Prod.fst := by simp
  rw [normalizedProposals]
  conv_lhs => rw [events]
  rw [lastItems_map, ← List.map_reverse, List.filter_map, ← List.map_take, List.mapM_map]
  rfl

theorem held_of_shown {limit : ℤ} {event : Entry} {index : ℕ}
    (shown : (event, index) ∈ shownProposals limit store) :
    store.eventHistory[index]? = some event := by
  have kept := List.mem_of_mem_filter (List.mem_of_mem_take shown)
  have inside := (lastItems_sublist 200 _).subset (List.mem_reverse.mp kept)
  exact List.mem_zipIdx_iff_getElem?.mp inside

theorem getElem?_of_mapM {α β ε : Type} {change : α → Except ε β} {items : List α}
    {results : List β} (done : items.mapM change = .ok results) {place : ℕ} {item : α}
    {result : β} (isItem : items[place]? = some item) (isResult : results[place]? = some result) :
    change item = .ok result := by
  induction items generalizing results place with
  | nil => simp at isItem
  | cons first rest induction =>
      rw [List.mapM_cons] at done
      cases isFirst : change first with
      | error error => rw [isFirst] at done; cases done
      | ok changed =>
          cases isRest : rest.mapM change with
          | error error => rw [isFirst, isRest] at done; cases done
          | ok others =>
              rw [isFirst, isRest] at done
              obtain rfl := Except.ok.inj done
              cases place with
              | zero =>
                  obtain rfl := Option.some.inj isItem
                  obtain rfl := Option.some.inj isResult
                  exact isFirst
              | succ place => exact induction isRest isItem isResult

/-- The payload of a proposal that is shown can be read, so its status can be set. -/
theorem changes_of_normalized {event row : Entry}
    (normalized : board.normalizeProposalEvent event = .ok row) :
    ∃ changed, board.setPayloadStatus event status = .ok changed := by
  cases read : board.asDict (field event "payload") with
  | error error => rw [normalizeProposalEvent, read] at normalized; cases normalized
  | ok payload =>
      rw [setPayloadStatus, read]
      exact ⟨_, rfl⟩

/-! ## One proposal -/

/-- The vote is found, and changes the status of the proposal at one place of the history and of no
other one there; of the log lines it changes those that go by the id. -/
structure HitsOne (board : ProposalBoard) (connected : Bool) (proposalId status : String)
    (store : ProposalStore) (event : Entry) (index : ℕ) : Prop where
  found : (board.updateInMemoryProposalStatus proposalId status store).1 = .ok true
  only : ∃ changed, board.setPayloadStatus event status = .ok changed ∧
    (board.updateProposalStatusPayload connected proposalId status store).1.eventHistory =
      store.eventHistory.set index changed
  logs : ∀ (place : ℕ) (line : Entry), store.agentLogs[place]? = some line →
    (board.updateProposalStatusPayload connected proposalId status store).1.agentLogs[place]? =
      some line ∨ board.Hits proposalId line

/-- Nobody's ids raise, some proposal goes by the id, and the one at the place does but no other
one, unless it has the status already. -/
structure Alone (board : ProposalBoard) (proposalId status : String) (store : ProposalStore)
    (event : Entry) (index : ℕ) : Prop where
  told : board.AllTold proposalId store
  found : ∃ record ∈ store.eventHistory ++ store.agentLogs, board.Hits proposalId record
  own : board.Hits proposalId event ∨ board.setPayloadStatus event status = .ok event
  others : ∀ place other, store.eventHistory[place]? = some other → place ≠ index →
    board.Hits proposalId other → board.setPayloadStatus other status = .ok other

/-- A vote leaves a record that does not go by the id. -/
theorem kept_or_hits {line : Entry} {place : ℕ} (tells : board.Tells proposalId line)
    (held : records[place]? = some line) :
    (records.map (board.voted proposalId status))[place]? = some line ∨
      board.Hits proposalId line := by
  by_cases hits : board.Hits proposalId line
  · exact .inr hits
  · rw [List.getElem?_map, held, Option.map_some, voted_of_not_hits tells hits]
    exact .inl rfl

theorem hitsOne_iff_alone {connected : Bool} {event changed : Entry} {index : ℕ}
    (held : store.eventHistory[index]? = some event)
    (changes : board.setPayloadStatus event status = .ok changed)
    (isVote : status ∈ ["approved", "rejected"]) :
    board.HitsOne connected proposalId status store event index ↔
      board.Alone proposalId status store event index := by
  have inEvents (record : Entry) (member : record ∈ store.eventHistory)
      (told : board.AllTold proposalId store) : board.Tells proposalId record :=
    told record (List.mem_append_left _ member)
  constructor
  · rintro ⟨found, ⟨changed, changes, only⟩, -⟩
    have told := told_of_update found
    obtain ⟨updated, isUpdate, hits⟩ := @updateInMemoryProposalStatus_of_told board proposalId
      status store told
    rw [updateProposalStatusPayload_store connected isVote, isUpdate] at only
    rw [isUpdate] at found
    obtain ⟨here, elsewhere⟩ := (map_eq_set_iff held).mp only
    refine ⟨told, hits.mp (Except.ok.inj found), ?_, fun place other isOther apart => ?_⟩
    · rcases (voted_eq_iff (inEvents event (List.mem_of_getElem? held) told) changes).mp here with
        hit | same
      · exact .inl hit
      · exact .inr (same ▸ changes)
    · exact (voted_eq_self_iff (inEvents other (List.mem_of_getElem? isOther) told)).mp
        (elsewhere place other isOther apart)
  · rintro ⟨told, found, own, others⟩
    obtain ⟨updated, isUpdate, hits⟩ := @updateInMemoryProposalStatus_of_told board proposalId
      status store told
    refine ⟨?_, ⟨changed, changes, ?_⟩, fun place line isLine => ?_⟩
    · rw [isUpdate, hits.mpr found]
    · rw [updateProposalStatusPayload_store connected isVote, isUpdate]
      refine (map_eq_set_iff held).mpr ⟨?_, fun place other isOther apart => ?_⟩
      · refine (voted_eq_iff (inEvents event (List.mem_of_getElem? held) told) changes).mpr ?_
        refine own.imp_right fun same => ?_
        rw [changes] at same
        exact Except.ok.inj same
      · exact (voted_eq_self_iff (inEvents other (List.mem_of_getElem? isOther) told)).mpr
          (others place other isOther apart)
    · rw [updateProposalStatusPayload_store connected isVote, isUpdate]
      exact kept_or_hits (told line (List.mem_append_right _ (List.mem_of_getElem? isLine))) isLine

/-! ## Publishing again -/

variable (board) in
/-- There is something to publish, and a client to publish it. -/
def Republishes (connected : Bool) (payload : Option (Dict String Value)) : Prop :=
  connected = true ∧ ∃ event, board.approvedEvent payload = .ok (some event)

/-- A publish never raises, and appends unless Redis drops the command. -/
theorem exec_publish {codec : Codec} {stream : String} {event : Dict String Value}
    {author : Author} {choices : ℕ → BusChoice} {world : BusWorld} :
    ∃ messageId, (EventBus.publish codec stream event none).exec (busHandler author) choices world =
      (.ok messageId, if (choices 1).reply = .lost then world
        else (world.append author stream (choices 1).gap
          (eventFields codec.formatter event (choices 0).clock)).2) := by
  rw [EventBus.publish, Program.bind_eq_bind, command, Program.exec_perform_bind]
  simp only [busHandler]
  rw [Program.bind_eq_bind, Program.exec_bind, Program.exec_attempt, command, Program.exec_perform]
  simp only [busHandler, commandReply, busCommand]
  cases reply : (choices 1).reply with
  | answered => exact ⟨_, rfl⟩
  | lost => exact ⟨_, rfl⟩
  | unacknowledged => exact ⟨_, rfl⟩

/-- Publishing again is reported, and appends an entry unless Redis drops it. -/
theorem exec_republish {author : Author} {choices : ℕ → BusChoice} {world : BusWorld}
    {payload : Option (Dict String Value)} (republishes : board.Republishes true payload) :
    ∃ fields, (board.republishApprovedProposal true payload).exec (busHandler author) choices
        world =
      (.ok true, if (choices 1).reply = .lost then world
        else (world.append author "proposals" (choices 1).gap fields).2) := by
  obtain ⟨-, event, isEvent⟩ := republishes
  obtain ⟨messageId, published⟩ := @exec_publish board.codec "proposals" event author choices world
  refine ⟨eventFields board.codec.formatter event (choices 0).clock, ?_⟩
  rw [republishApprovedProposal, isEvent]
  dsimp only
  rw [if_pos rfl, Program.bind_eq_bind, Program.exec_bind, Program.exec_attempt, published]
  rfl

/-- Where nothing is published again, nothing is reported either. -/
theorem exec_republish_of_not {connected : Bool} {author : Author} {choices : ℕ → BusChoice}
    {world : BusWorld} {payload : Option (Dict String Value)}
    (idle : ¬board.Republishes connected payload) :
    ((board.republishApprovedProposal connected payload).exec (busHandler author) choices
      world).1 ≠ .ok true := by
  rw [republishApprovedProposal]
  cases isEvent : board.approvedEvent payload with
  | error error => nofun
  | ok event =>
      cases event with
      | none => nofun
      | some event =>
          cases connected with
          | false => nofun
          | true => exact absurd ⟨rfl, event, isEvent⟩ idle

/-- A publishing that is reported has appended an entry exactly where Redis does not drop it. -/
theorem reported_appended_iff {connected : Bool} {author : Author} {choices : ℕ → BusChoice}
    {world : BusWorld} {payload : Option (Dict String Value)} :
    (((board.republishApprovedProposal connected payload).exec (busHandler author) choices
        world).1 = .ok true →
      ∃ entry, ((board.republishApprovedProposal connected payload).exec (busHandler author)
        choices world).2.history = world.history ++ [.appended author "proposals" entry]) ↔
      (board.Republishes connected payload → (choices 1).reply ≠ .lost) := by
  by_cases republishes : board.Republishes connected payload
  · obtain rfl := republishes.1
    obtain ⟨fields, ran⟩ := @exec_republish board author choices world payload republishes
    rw [ran]
    by_cases lost : (choices 1).reply = .lost
    · rw [if_pos lost]
      have unchanged : ¬∃ entry, world.history =
          world.history ++ [.appended author "proposals" entry] := by
        rintro ⟨entry, same⟩
        simpa using congrArg List.length same
      exact ⟨fun appended => absurd (appended rfl) unchanged,
        fun kept => absurd lost (kept republishes)⟩
    · rw [if_neg lost]
      exact ⟨fun _ _ => lost, fun _ _ => ⟨_, rfl⟩⟩
  · exact ⟨fun _ isRepublished => absurd isRepublished republishes,
      fun _ reported => absurd reported (exec_republish_of_not republishes)⟩

/-! ## Votes and approvals -/

/-- A vote on a shown id hits the proposal shown under it, and that one alone, exactly where no
other one goes by the id; an approval that is reported as published again has appended an entry
exactly where Redis does not drop the publish. -/
theorem vote_hits_one (board : ProposalBoard) (connected : Bool) :
    (∀ (store : ProposalStore) (limit : ℤ) (rows : List Entry) (place : ℕ) (row event : Entry)
        (index : ℕ) (proposalId status : String),
      board.normalizedProposals limit store = .ok rows →
      rows[place]? = some row → field row "id" = .str proposalId →
      (shownProposals limit store)[place]? = some (event, index) →
      status ∈ ["approved", "rejected"] →
      (board.HitsOne connected proposalId status store event index ↔
        board.Alone proposalId status store event index)) ∧
    ∀ author choices world payload,
      (((board.republishApprovedProposal connected payload).exec (busHandler author) choices
          world).1 = .ok true →
        ∃ entry, ((board.republishApprovedProposal connected payload).exec (busHandler author)
          choices world).2.history = world.history ++ [.appended author "proposals" entry]) ↔
        (board.Republishes connected payload → (choices 1).reply ≠ .lost) := by
  refine ⟨fun store limit rows place row event index proposalId status isList isRow _ isShown
    isVote => ?_, fun author choices world payload => reported_appended_iff⟩
  rw [normalizedProposals_eq] at isList
  have normalized := getElem?_of_mapM isList isShown isRow
  obtain ⟨changed, changes⟩ := @changes_of_normalized board status event row normalized
  exact hitsOne_iff_alone (held_of_shown (List.mem_of_getElem? isShown)) changes isVote

/-! ## Siblings -/

/-- An interpreter whose times are all written the same. -/
def plainBoard : ProposalBoard where
  interpreter := Reference.decimalInterpreter
  formatter := plainFormatter
  fromTimestamp _ := .ok "1970-01-01T00:00:00+00:00"

/-- A proposal of the reflection `refl-1`. -/
def reflected (payload : Dict String Value) : Entry :=
  [("log_type", .str "proposal"), ("trace_id", .str "refl-1"),
    ("payload", .dict (("reflection_trace_id", .str "refl-1") :: payload))]

/-- Two proposals of one reflection, the newer one without an id of its own. -/
def siblings : ProposalStore where
  eventHistory := [reflected [("msg_id", .str "msg-1")], reflected []]

/-- A candidate that waits for approval. -/
def candidate : Dict String Value := [("proposal_type", .str "challenger_promotion")]

/-- The status that the payload of a record has. -/
def approvedIn (record : Entry) : Bool :=
  match field record "payload" with
  | .dict payload => (field payload "status").isText "approved"
  | _ => false

end ProposalBoard

open ProposalBoard

theorem named_sibling_hit :
    plainBoard.HitsOne true "msg-1" "approved" siblings (reflected [("msg_id", .str "msg-1")]) 0 ∧
      ∃ entry, ((plainBoard.republishApprovedProposal true (some candidate)).exec
        (busHandler .producer) (fun _ => {}) {}).2.history =
          [.appended .producer "proposals" entry] := by
  obtain ⟨votes, reports⟩ := vote_hits_one plainBoard true
  have matching : plainBoard.proposalMatches (reflected [("msg_id", .str "msg-1")]) "msg-1" =
      .ok true := by with_unfolding_all rfl
  have missing : plainBoard.proposalMatches (reflected []) "msg-1" = .ok false := by
    with_unfolding_all rfl
  constructor
  · refine (votes siblings 20 _ 1 _ _ 0 "msg-1" "approved" (by with_unfolding_all rfl) rfl rfl
      (by with_unfolding_all rfl) (by decide)).mpr ⟨?told, ?found, ?own, ?others⟩
    case told =>
      intro record member _
      rcases List.mem_cons.mp member with rfl | member
      · exact ⟨true, matching⟩
      · obtain rfl := List.mem_singleton.mp member
        exact ⟨false, missing⟩
    case found => exact ⟨_, List.mem_cons_self, rfl, matching⟩
    case own => exact .inl ⟨rfl, matching⟩
    case others =>
      intro place other isOther apart hits
      match place with
      | 0 => exact absurd rfl apart
      | 1 =>
          obtain rfl := Option.some.inj isOther
          exact nomatch missing.symm.trans hits.2
      | _ + 2 => cases isOther
  · exact (reports .producer (fun _ => {}) {} (some candidate)).mpr (fun _ => nofun) rfl

/-- A vote on the trace of a reflection hits the proposal shown under it and its sibling, and an
approval whose publish Redis drops is reported as published again. -/
theorem sibling_hit_and_nothing_sent :
    (¬∀ (board : ProposalBoard) (connected : Bool) (store : ProposalStore) (limit : ℤ)
        (rows : List Entry) (place : ℕ) (row event : Entry) (index : ℕ)
        (proposalId status : String),
      board.normalizedProposals limit store = .ok rows →
      rows[place]? = some row → field row "id" = .str proposalId →
      (shownProposals limit store)[place]? = some (event, index) →
      status ∈ ["approved", "rejected"] →
      board.HitsOne connected proposalId status store event index) ∧
    ¬∀ (board : ProposalBoard) (connected : Bool) (author : Author) (choices : ℕ → BusChoice)
        (world : BusWorld) (payload : Option (Dict String Value)),
      ((board.republishApprovedProposal connected payload).exec (busHandler author) choices
          world).1 = .ok true →
        ∃ entry, ((board.republishApprovedProposal connected payload).exec (busHandler author)
          choices world).2.history = world.history ++ [.appended author "proposals" entry] := by
  constructor
  · intro hitsOne
    have hits := hitsOne plainBoard true siblings 20 _ 0 _ _ 1 "refl-1" "approved"
      (by with_unfolding_all rfl) rfl rfl (by with_unfolding_all rfl) (by decide)
    obtain ⟨changed, -, only⟩ := hits.only
    have older := congrArg (fun records => records[0]?.map approvedIn) only
    have kept : ((siblings.eventHistory.set 1 changed)[0]?).map approvedIn = some false := rfl
    exact absurd (older.trans kept) (by decide +kernel)
  · intro sent
    obtain ⟨entry, appended⟩ := sent plainBoard true .producer (fun _ => { reply := .lost }) {}
      (some candidate) rfl
    cases appended

end TradingControl.Dashboard
