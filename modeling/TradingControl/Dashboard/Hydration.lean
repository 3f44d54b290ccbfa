import Mathlib.Data.List.ReduceOption
import TradingControl.Dashboard.DecisionLog
import TradingControl.Events.Replay
import TradingControl.Python.JsonRoundTrip

/-!
# Hydration of the runtime store

While the database is down, the dashboard reads the recent decisions and notifications of Redis back
into the runtime store.  Decisions are told apart by the keys on record, notifications by the keys
of those that the store holds.  A second run comes to nothing as long as the first one has pushed
out nothing that it found.
-/

namespace TradingControl.Dashboard

open Effects KeyWindow Python

-- the window lemmas say all there is to know, and five hundred is too far to unfold
attribute [local irreducible] lastItems

/-! ## Redis lists -/

/-- What Redis holds: `decisions:recent` and `notifications:recent`, newest first, and the ids in
`notifications:read`. -/
structure RecentLists where
  decisions : List String
  notifications : List String
  read : List String

section

variable (interpreter : Interpreter)

/-- `_safe_loads`. -/
def safeLoads (raw : String) : Except Raised (Option (Dict String Value)) :=
  match Json.loads interpreter.toRuntime interpreter.depth raw with
  | .ok (.dict entries) => .ok (some entries)
  | .ok _ => .ok none
  | .error .typeError | .error .valueError | .error .jsonDecodeError => .ok none
  | .error error => .error error

/-- `list_decisions`, without an action; the list is never longer than its limit. -/
def listDecisions (lists : RecentLists) (limit : ℕ) :
    Except Raised (List (Dict String Value)) := do
  let loaded ← (lists.decisions.take (max 1 (min limit 50))).mapM (safeLoads interpreter)
  return loaded.reduceOption

/-- `list_notifications`: what has been read is marked. -/
def listNotifications (lists : RecentLists) (limit : ℕ) :
    Except Raised (List (Dict String Value)) := do
  let loaded ← (lists.notifications.take (max 1 (min limit 20))).mapM (safeLoads interpreter)
  return loaded.reduceOption.map fun parsed =>
    if interpreter.str ((Value.get parsed "id").getD (.str "")) ∈ lists.read then
      Dict.set "read" (.bool true) parsed
    else parsed

/-! ## Notifications -/

/-- The first true value under some names, stripped: `str(d.get(a) or d.get(b) or "").strip()`. -/
def strippedText (item : Dict String Value) (names : List String) : String :=
  strip (interpreter.str
    (names.foldr (fun name rest => Value.orElse (Value.get item name) rest) (.str "")))

def notifId (item : Dict String Value) : String :=
  strippedText interpreter item ["id", "notification_id"]

/-- What a notification without an id is told apart by. -/
def stableText (item : Dict String Value) : String :=
  let text := strippedText interpreter item
  "|".intercalate [text ["trace_id"], text ["type", "notification_type"],
    upper (text ["action"]), upper (text ["symbol"]), text ["title"], text ["body", "message"]]

/-- `_notification_key`. -/
def notificationKey (item : Dict String Value) : Except Raised String :=
  if notifId interpreter item ≠ "" then .ok ("id:" ++ notifId interpreter item)
  else
    let stable := stableText interpreter item
    if stable.toList.any (· ≠ '|') then .ok ("stable:" ++ stable)
    else
      (Json.dumps interpreter.toRuntime interpreter.depth { sorted := true } (.dict item)).map
        ("raw:" ++ ·)

end

/-- The entry that `record_notification` appends. -/
def notificationEntry (now : ℚ) (recorded : ℕ) (payload : Dict String Value) :
    Dict String Value :=
  let named :=
    if ((Value.get payload "id").getD .none).truthy then payload
    else
      Dict.set "id" (Value.orElse (Value.get payload "notification_id")
        (.str ("mem-" ++ toString (recorded + 1)))) payload
  Events.setDefault named "timestamp" (.float now)

/-- `record_notification`. -/
def recordNotification (now : ℚ) (payload : Dict String Value)
    (notifications : List (Dict String Value)) : List (Dict String Value) :=
  lastItems 100 (notifications ++ [notificationEntry now notifications.length payload])

/-! ## Hydration -/

/-- The part of the runtime store that is hydrated. -/
structure RuntimeLedger where
  log : DecisionLog := {}
  notifications : List (Dict String Value) := []

/-- The time of each record in a run, as text and in seconds. -/
structure Clock where
  text : ℕ → String
  seconds : ℕ → ℚ

/-- What a hydration reports. -/
structure HydrationDiagnostics where
  source : String := "in_memory"
  hydrationStatus : String := "skipped"
  persistenceSource : String := "memory_only"
  ledgerSource : String := "runtime_store"
  redisDecisionsSeen : ℕ := 0
  redisNotificationsSeen : ℕ := 0
  redisDecisionsApplied : ℕ := 0
  redisNotificationsApplied : ℕ := 0
  appliedDecisionKeys : ℕ
  lastError : Option String := none

def Clock.calls (clock : Clock) (decisions : List (Dict String Value)) : List DecisionCall :=
  decisions.zipIdx.map fun (payload, position) => { payload := payload, now := clock.text position }

section

variable (interpreter : Interpreter) (notional : ℚ)

def recordUntilRaised (log : DecisionLog) : List DecisionCall → Option Raised × DecisionLog
  | [] => (none, log)
  | call :: calls =>
      match log.recordDecision interpreter notional call with
      | (.ok _, after) => recordUntilRaised after calls
      | (.error error, after) => (some error, after)

/-- Notifications whose keys are not known are recorded, until one has no key. -/
def recordUnknown (clock : Clock) : ℕ → List (Dict String Value) → Finset String →
    List (Dict String Value) → Option Raised × List (Dict String Value)
  | _, [], _, notifications => (none, notifications)
  | position, item :: items, known, notifications =>
      match notificationKey interpreter item with
      | .error error => (some error, notifications)
      | .ok key =>
          if key ∈ known then recordUnknown clock (position + 1) items known notifications
          else
            recordUnknown clock (position + 1) items (insert key known)
              (recordNotification (clock.seconds position) item notifications)

/-- Notifications that the store does not hold yet are recorded. -/
def addNotifications (clock : Clock) (listed notifications : List (Dict String Value)) :
    Option Raised × List (Dict String Value) :=
  match notifications.mapM (notificationKey interpreter) with
  | .error error => (some error, notifications)
  | .ok keys => recordUnknown interpreter clock 0 listed keys.toFinset notifications

/-- `hydrate_dashboard_state_from_redis`: the diagnostics, and the store after it. -/
def hydrateDashboardStateFromRedis (clock : Clock) (dbAvailable : Bool)
    (redisStore : Option RecentLists) (store : RuntimeLedger) :
    HydrationDiagnostics × RuntimeLedger :=
  let keysBefore := store.log.appliedDecisionKeys.card
  let diagnostics : HydrationDiagnostics := { appliedDecisionKeys := keysBefore }
  let failed (diagnostics : HydrationDiagnostics) (error : Raised) : HydrationDiagnostics :=
    { diagnostics with
      hydrationStatus := "failed", lastError := some (interpreter.errorText error) }
  if dbAvailable then ({ diagnostics with persistenceSource := "postgres" }, store)
  else
    match redisStore with
    | none => (diagnostics, store)
    | some lists =>
        match listDecisions interpreter lists 500 with
        | .error error => (failed diagnostics error, store)
        | .ok decisions =>
            let diagnostics := { diagnostics with redisDecisionsSeen := decisions.length }
            match recordUntilRaised interpreter notional store.log
                (clock.calls decisions.reverse) with
            | (some error, log) => (failed diagnostics error, { store with log := log })
            | (none, log) =>
                let keysAfter := log.appliedDecisionKeys.card
                let diagnostics :=
                  { diagnostics with redisDecisionsApplied := keysAfter - keysBefore }
                match listNotifications interpreter lists 500 with
                | .error error => (failed diagnostics error, { store with log := log })
                | .ok listed =>
                    let diagnostics := { diagnostics with redisNotificationsSeen := listed.length }
                    match addNotifications interpreter clock listed.reverse
                        store.notifications with
                    | (some error, notifications) =>
                        (failed diagnostics error, ⟨log, notifications⟩)
                    | (none, notifications) =>
                        let hydrated := 0 < decisions.length || 0 < listed.length
                        ({ diagnostics with
                          hydrationStatus := "completed"
                          redisNotificationsApplied :=
                            notifications.length - store.notifications.length
                          appliedDecisionKeys := keysAfter
                          source := if hydrated then "redis_hydrated" else diagnostics.source
                          persistenceSource :=
                            if hydrated then "redis" else diagnostics.persistenceSource },
                          ⟨log, notifications⟩)

end

/-! ## Decisions that stay on record -/

section

variable (interpreter : Interpreter)

/-- The keys on record once a decision has come. -/
def afterDecision (order : List String) (decision : Dict String Value) : List String :=
  SeenLog.record decisionKeyCap order (decisionKey interpreter.toRuntime decision)

/-- The numbers of a decision convert where its key is not on record. -/
def ConvertsUnrecorded (order : List String) (decision : Dict String Value) : Prop :=
  decisionKey interpreter.toRuntime decision ∉ order → convertible decision = true

/-- No decision raises, and all of them are on record once they have come, oldest first. -/
structure DecisionsSettle (order : List String) (decisions : List (Dict String Value)) : Prop where
  converts : Along (afterDecision interpreter) (ConvertsUnrecorded interpreter) order decisions
  onRecord : ∀ decision ∈ decisions,
    decisionKey interpreter.toRuntime decision ∈ decisions.foldl (afterDecision interpreter) order

end

section

variable {interpreter : Interpreter} {notional : ℚ}

/-- A call that does not raise leaves the keys that the decision leaves. -/
theorem recordDecision_order {log : DecisionLog} (windowed : log.Windowed) {call : DecisionCall}
    (converts : ConvertsUnrecorded interpreter log.decisionKeyOrder call.payload) :
    (∃ returned, (log.recordDecision interpreter notional call).1 = .ok returned) ∧
      (log.recordDecision interpreter notional call).2.decisionKeyOrder =
        afterDecision interpreter log.decisionKeyOrder call.payload := by
  have recorded : call.key interpreter ∈ log.appliedDecisionKeys ↔
      call.key interpreter ∈ log.decisionKeyOrder := by
    rw [windowed.same, List.mem_toFinset]
  have same : decisionKey interpreter.toRuntime call.payload = call.key interpreter := rfl
  rw [ConvertsUnrecorded, same] at converts
  rw [afterDecision, SeenLog.record, same]
  rcases @recordDecision_cases interpreter notional log call with
    ⟨known, -, next⟩ | ⟨unknown, -, event, returned, next⟩ | ⟨unknown, raises, -, -⟩
  · rw [if_pos (recorded.mp known), next]
    refine ⟨?_, rfl⟩
    unfold DecisionLog.recordDecision
    dsimp only
    rw [same, if_pos known]
    exact ⟨_, rfl⟩
  · rw [if_neg fun member => unknown (recorded.mpr member), next, retained_eq_lastItems]
    refine ⟨?_, (windowed.registered unknown).2⟩
    rcases answer : (log.recordDecision interpreter notional call).1 with error | value
    · rw [answer] at returned
      cases returned
    · exact ⟨value, rfl⟩
  · rw [converts fun member => unknown (recorded.mpr member)] at raises
    cases raises

theorem recordUntilRaised_of_converts {log : DecisionLog} (windowed : log.Windowed)
    (calls : List DecisionCall)
    (converts : Along (afterDecision interpreter) (ConvertsUnrecorded interpreter)
      log.decisionKeyOrder (calls.map (·.payload))) :
    recordUntilRaised interpreter notional log calls =
        (none, log.recordDecisions interpreter notional calls) ∧
      (log.recordDecisions interpreter notional calls).Windowed ∧
      (log.recordDecisions interpreter notional calls).decisionKeyOrder =
        (calls.map (·.payload)).foldl (afterDecision interpreter) log.decisionKeyOrder := by
  induction calls generalizing log with
  | nil => exact ⟨rfl, windowed, rfl⟩
  | cons call calls induction =>
      obtain ⟨now, later⟩ := converts
      obtain ⟨⟨returned, answered⟩, order⟩ :=
        @recordDecision_order interpreter notional log windowed call now
      rw [← order] at later
      obtain ⟨finished, stillWindowed, orders⟩ :=
        induction (windowed.recordDecision call) later
      refine ⟨?_, stillWindowed, ?_⟩
      · have ran : log.recordDecision interpreter notional call =
            (.ok returned, (log.recordDecision interpreter notional call).2) := by
          rw [← answered]
        rw [recordUntilRaised, ran]
        exact finished
      · rw [List.map_cons, List.foldl_cons, ← order]
        exact orders

theorem recordUntilRaised_of_recorded {log : DecisionLog} {calls : List DecisionCall}
    (recorded : ∀ call ∈ calls, call.key interpreter ∈ log.appliedDecisionKeys) :
    recordUntilRaised interpreter notional log calls = (none, log) := by
  induction calls with
  | nil => rfl
  | cons call calls induction =>
      have known : decisionKey interpreter.toRuntime call.payload ∈ log.appliedDecisionKeys :=
        recorded call List.mem_cons_self
      rw [recordUntilRaised, DecisionLog.recordDecision, if_pos known]
      exact induction fun other member => recorded other (List.mem_cons_of_mem _ member)

theorem payload_calls (clock : Clock) (decisions : List (Dict String Value)) :
    (clock.calls decisions).map (·.payload) = decisions := by
  rw [Clock.calls, List.map_map]
  exact List.zipIdx_map_fst 0 decisions

end

/-! ## Keys of notifications -/

section

variable (interpreter : Interpreter)

/-- A notification has a key. -/
def Legible (item : Dict String Value) : Prop := ∃ key, notificationKey interpreter item = .ok key

/-- The key of a legible notification. -/
def keyText (item : Dict String Value) : String :=
  match notificationKey interpreter item with
  | .ok key => key
  | .error _ => ""

/-- An entry that a notification is recorded as. -/
def RecordedAs (item entry : Dict String Value) : Prop :=
  ∃ now recorded, entry = notificationEntry now recorded item

/-- A notification has the key that its entries have. -/
def KeepsKey (item : Dict String Value) : Prop :=
  ∀ entry, RecordedAs item entry →
    notificationKey interpreter entry = notificationKey interpreter item

/-- The notifications whose keys are not known, each key once. -/
def unknownItems : List String → List (Dict String Value) → List (Dict String Value)
  | _, [] => []
  | known, item :: items =>
      if keyText interpreter item ∈ known then unknownItems known items
      else item :: unknownItems (keyText interpreter item :: known) items

end

section

variable {interpreter : Interpreter}

theorem Legible.key {item : Dict String Value} (legible : Legible interpreter item) :
    notificationKey interpreter item = .ok (keyText interpreter item) := by
  obtain ⟨key, found⟩ := legible
  rw [keyText, found]

theorem mapM_key {items : List (Dict String Value)}
    (legible : ∀ item ∈ items, Legible interpreter item) :
    items.mapM (notificationKey interpreter) = .ok (items.map (keyText interpreter)) := by
  induction items with
  | nil => rfl
  | cons item items induction =>
      rw [List.mapM_cons, (legible item List.mem_cons_self).key,
        induction fun other member => legible other (List.mem_cons_of_mem _ member)]
      rfl

theorem KeepsKey.entry {item entry : Dict String Value} (keeps : KeepsKey interpreter item)
    (legible : Legible interpreter item) (recorded : RecordedAs item entry) :
    Legible interpreter entry ∧ keyText interpreter entry = keyText interpreter item := by
  have same := keeps entry recorded
  constructor
  · rw [Legible, same]
    exact legible
  · rw [keyText, same, ← keyText]

theorem unknownItems_eq_nil_iff {known : List String} {items : List (Dict String Value)} :
    unknownItems interpreter known items = [] ↔
      ∀ item ∈ items, keyText interpreter item ∈ known := by
  induction items generalizing known with
  | nil => simp [unknownItems]
  | cons item items induction =>
      rw [unknownItems]
      by_cases isKnown : keyText interpreter item ∈ known
      · rw [if_pos isKnown, induction, List.forall_mem_cons]
        exact (and_iff_right isKnown).symm
      · rw [if_neg isKnown, List.forall_mem_cons]
        simp [isKnown]

/-- Unknown notifications are listed, none of their keys is known, and no two have one key. -/
theorem unknownItems_spec (known : List String) (items : List (Dict String Value)) :
    (unknownItems interpreter known items).Sublist items ∧
      (∀ item ∈ unknownItems interpreter known items, keyText interpreter item ∉ known) ∧
      ((unknownItems interpreter known items).map (keyText interpreter)).Nodup := by
  induction items generalizing known with
  | nil => exact ⟨List.Sublist.slnil, by simp [unknownItems], List.nodup_nil⟩
  | cons item items induction =>
      rw [unknownItems]
      by_cases isKnown : keyText interpreter item ∈ known
      · obtain ⟨listed, unknown, distinct⟩ := induction known
        rw [if_pos isKnown]
        exact ⟨listed.cons _, unknown, distinct⟩
      · obtain ⟨listed, unknown, distinct⟩ := induction (keyText interpreter item :: known)
        rw [if_neg isKnown]
        refine ⟨listed.cons_cons _, ?_, ?_⟩
        · intro other member
          rcases List.mem_cons.mp member with rfl | later
          · exact isKnown
          · exact fun held => unknown other later (List.mem_cons_of_mem _ held)
        · rw [List.map_cons, List.nodup_cons]
          refine ⟨?_, distinct⟩
          intro member
          obtain ⟨other, later, same⟩ := List.mem_map.mp member
          have held : keyText interpreter other ∈ keyText interpreter item :: known := by
            rw [same]
            exact List.mem_cons_self
          exact unknown other later held

/-- Legible notifications are recorded one after another, those that are unknown. -/
theorem recordUnknown_spec (clock : Clock) (position : ℕ) (stored : List (Dict String Value))
    {listed : List (Dict String Value)} {known : List String} {knownSet : Finset String}
    (sameKnown : ∀ key, key ∈ knownSet ↔ key ∈ known)
    (legible : ∀ item ∈ listed, Legible interpreter item) :
    ∃ entries, recordUnknown interpreter clock position listed knownSet stored =
        (none, if entries = [] then stored else lastItems 100 (stored ++ entries)) ∧
      List.Forall₂ RecordedAs (unknownItems interpreter known listed) entries := by
  induction listed generalizing position stored known knownSet with
  | nil => exact ⟨[], rfl, .nil⟩
  | cons item items induction =>
      have itemsLegible : ∀ other ∈ items, Legible interpreter other :=
        fun other member => legible other (List.mem_cons_of_mem _ member)
      rw [unknownItems, recordUnknown, (legible item List.mem_cons_self).key]
      dsimp only
      by_cases isKnown : keyText interpreter item ∈ known
      · rw [if_pos isKnown, if_pos ((sameKnown _).mpr isKnown)]
        exact induction (position + 1) stored sameKnown itemsLegible
      · rw [if_neg isKnown, if_neg fun member => isKnown ((sameKnown _).mp member)]
        have insertKnown : ∀ key, key ∈ insert (keyText interpreter item) knownSet ↔
            key ∈ keyText interpreter item :: known := by
          intro key
          rw [Finset.mem_insert, List.mem_cons, sameKnown]
        obtain ⟨entries, ran, recorded⟩ := induction (position + 1)
          (recordNotification (clock.seconds position) item stored) insertKnown itemsLegible
        refine ⟨notificationEntry (clock.seconds position) stored.length item :: entries, ?_,
          .cons ⟨_, _, rfl⟩ recorded⟩
        rw [ran, if_neg (List.cons_ne_nil _ _), recordNotification]
        split_ifs with none
        · rw [none]
        · rw [lastItems_append_left, List.append_assoc, List.singleton_append]

theorem addNotifications_spec (clock : Clock) {listed stored : List (Dict String Value)}
    (storedLegible : ∀ item ∈ stored, Legible interpreter item)
    (legible : ∀ item ∈ listed, Legible interpreter item) :
    ∃ entries, addNotifications interpreter clock listed stored =
        (none, if entries = [] then stored else lastItems 100 (stored ++ entries)) ∧
      List.Forall₂ RecordedAs
        (unknownItems interpreter (stored.map (keyText interpreter)) listed) entries := by
  unfold addNotifications
  rw [mapM_key storedLegible]
  exact recordUnknown_spec clock 0 stored (fun key => List.mem_toFinset) legible

end

/-! ## Notifications that keep their keys -/

/-- A notification comes with an id. -/
def named (item : Dict String Value) : Bool :=
  ((Value.get item "id").getD .none).truthy ||
    ((Value.get item "notification_id").getD .none).truthy

/-- A notification has an id text, or a text that describes it. -/
def described (interpreter : Interpreter) (item : Dict String Value) : Bool :=
  notifId interpreter item ≠ "" || (stableText interpreter item).toList.any (· ≠ '|')

section

variable {interpreter : Interpreter} {item entry : Dict String Value}

theorem get_setDefault {entries : Dict String Value} {key name : String} {value : Value}
    (other : name ≠ key) :
    Value.get (Events.setDefault entries key value) name = Value.get entries name := by
  unfold Events.setDefault Value.get
  split_ifs
  · rw [List.lookup_append, List.lookup_cons, beq_false_of_ne other]
    simp
  · rfl

theorem orElse_of_truthy {first : Option Value} (isTrue : (first.getD .none).truthy = true)
    (rest : Value) : Value.orElse first rest = first.getD .none := by
  cases first with
  | none => cases isTrue
  | some value => exact if_pos isTrue

theorem orElse_of_not_truthy {first : Option Value} (isFalse : (first.getD .none).truthy = false)
    (rest : Value) : Value.orElse first rest = rest := by
  cases first with
  | none => rfl
  | some value =>
      rw [Option.getD_some] at isFalse
      rw [Value.orElse, isFalse]
      rfl

/-- Recording changes no field but the id and the time. -/
theorem get_notificationEntry {now : ℚ} {recorded : ℕ} {name : String} (id : name ≠ "id")
    (timestamp : name ≠ "timestamp") :
    Value.get (notificationEntry now recorded item) name = Value.get item name := by
  unfold notificationEntry
  rw [get_setDefault timestamp]
  split_ifs
  · rfl
  · rw [Value.get, Dict.lookup_set, if_neg id, Value.get]

theorem strippedText_entry (recorded : RecordedAs item entry) {names : List String}
    (others : ∀ name ∈ names, name ≠ "id" ∧ name ≠ "timestamp") :
    strippedText interpreter entry names = strippedText interpreter item names := by
  obtain ⟨now, recorded, rfl⟩ := recorded
  have same : names.foldr (fun name rest =>
        Value.orElse (Value.get (notificationEntry now recorded item) name) rest) (.str "") =
      names.foldr (fun name rest => Value.orElse (Value.get item name) rest) (.str "") := by
    induction names with
    | nil => rfl
    | cons name names induction =>
        obtain ⟨id, timestamp⟩ := others name List.mem_cons_self
        rw [List.foldr_cons, List.foldr_cons, get_notificationEntry id timestamp,
          induction fun other member => others other (List.mem_cons_of_mem _ member)]
  rw [strippedText, same, strippedText]

theorem stableText_entry (recorded : RecordedAs item entry) :
    stableText interpreter entry = stableText interpreter item := by
  have same (names : List String)
      (others : ∀ name ∈ names, name ≠ "id" ∧ name ≠ "timestamp") :
      strippedText interpreter entry names = strippedText interpreter item names :=
    strippedText_entry recorded others
  simp only [stableText]
  rw [same ["trace_id"] (by decide), same ["type", "notification_type"] (by decide),
    same ["action"] (by decide), same ["symbol"] (by decide), same ["title"] (by decide),
    same ["body", "message"] (by decide)]

theorem notifId_eq (item : Dict String Value) : notifId interpreter item =
    strip (interpreter.str (Value.orElse (Value.get item "id")
      (Value.orElse (Value.get item "notification_id") (.str "")))) := rfl

theorem strip_empty : strip "" = "" := by decide

theorem named_of_notifId (hasId : notifId interpreter item ≠ "") : named item = true := by
  by_contra unnamed
  rw [named, Bool.or_eq_true, not_or, Bool.not_eq_true, Bool.not_eq_true] at unnamed
  apply hasId
  rw [notifId_eq, orElse_of_not_truthy unnamed.1, orElse_of_not_truthy unnamed.2]
  exact strip_empty

theorem notifId_entry (recorded : RecordedAs item entry) (isNamed : named item = true) :
    notifId interpreter entry = notifId interpreter item := by
  obtain ⟨now, count, rfl⟩ := recorded
  rw [notifId_eq, notifId_eq]
  by_cases hasId : ((Value.get item "id").getD .none).truthy = true
  · have kept : Value.get (notificationEntry now count item) "id" = Value.get item "id" := by
      unfold notificationEntry
      rw [if_pos hasId, get_setDefault (by decide)]
    rw [kept, orElse_of_truthy hasId, orElse_of_truthy hasId]
  · have other : ((Value.get item "notification_id").getD .none).truthy = true := by
      rw [named, Bool.or_eq_true] at isNamed
      exact isNamed.resolve_left hasId
    have kept : Value.get (notificationEntry now count item) "id" =
        some ((Value.get item "notification_id").getD .none) := by
      unfold notificationEntry
      rw [if_neg hasId, get_setDefault (by decide), orElse_of_truthy other, Value.get,
        Dict.lookup_set, if_pos rfl]
    rw [Bool.not_eq_true] at hasId
    rw [kept, orElse_of_not_truthy hasId, orElse_of_truthy other]
    exact congrArg (fun value => strip (interpreter.str value))
      (@orElse_of_truthy (some ((Value.get item "notification_id").getD .none)) other _)

theorem strip_mem_ne (text : String) : strip ("mem-" ++ text) ≠ "" := by
  intro empty
  have letters := congrArg String.toList empty
  rw [strip, String.toList_ofList, String.toList_append] at letters
  have front : ("mem-".toList ++ text.toList).dropWhile isWhitespace =
      "mem-".toList ++ text.toList := rfl
  rw [front, show "".toList = [] from rfl, List.reverse_eq_nil_iff,
    List.dropWhile_eq_nil_iff] at letters
  exact absurd (letters 'm' (by simp)) (by decide)

theorem notifId_entry_of_unnamed (recorded : RecordedAs item entry) (unnamed : named item = false) :
    notifId interpreter entry ≠ "" := by
  obtain ⟨now, count, rfl⟩ := recorded
  rw [named, Bool.or_eq_false_iff] at unnamed
  have given : Value.get (notificationEntry now count item) "id" =
      some (.str ("mem-" ++ toString (count + 1))) := by
    unfold notificationEntry
    rw [unnamed.1, if_neg Bool.false_ne_true, get_setDefault (by decide),
      orElse_of_not_truthy unnamed.2, Value.get, Dict.lookup_set, if_pos rfl]
  have isTrue : (Value.str ("mem-" ++ toString (count + 1))).truthy = true := by
    simp [Value.truthy]
  rw [notifId_eq, given, orElse_of_truthy (by exact isTrue)]
  exact strip_mem_ne _

theorem key_of_notifId (hasId : notifId interpreter item ≠ "") :
    notificationKey interpreter item = .ok ("id:" ++ notifId interpreter item) := by
  rw [notificationKey, if_pos hasId]

theorem key_of_stableText (noId : notifId interpreter item = "")
    (stable : (stableText interpreter item).toList.any (· ≠ '|') = true) :
    notificationKey interpreter item = .ok ("stable:" ++ stableText interpreter item) := by
  rw [notificationKey, if_neg (not_not.mpr noId)]
  exact if_pos stable

theorem described_cases (isDescribed : described interpreter item = true) :
    notifId interpreter item ≠ "" ∨ notifId interpreter item = "" ∧
      (stableText interpreter item).toList.any (· ≠ '|') = true := by
  rw [described, Bool.or_eq_true, decide_eq_true_iff] at isDescribed
  by_cases noId : notifId interpreter item = ""
  · exact .inr ⟨noId, isDescribed.resolve_left (not_not.mpr noId)⟩
  · exact .inl noId

/-- A described notification with an id keeps its key. -/
theorem keepsKey_of_named (isNamed : named item = true)
    (isDescribed : described interpreter item = true) : KeepsKey interpreter item := by
  intro entry recorded
  have sameId := @notifId_entry interpreter _ _ recorded isNamed
  rcases described_cases isDescribed with hasId | ⟨noId, stable⟩
  · rw [key_of_notifId hasId, key_of_notifId (sameId ▸ hasId), sameId]
  · have sameStable := @stableText_entry interpreter _ _ recorded
    have entryStable : (stableText interpreter entry).toList.any (· ≠ '|') = true := by
      rw [sameStable]
      exact stable
    rw [key_of_stableText noId stable, key_of_stableText (sameId.trans noId) entryStable,
      sameStable]

theorem legible_of_described (isDescribed : described interpreter item = true) :
    Legible interpreter item := by
  rcases described_cases isDescribed with hasId | ⟨noId, stable⟩
  · exact ⟨_, key_of_notifId hasId⟩
  · exact ⟨_, key_of_stableText noId stable⟩

end

/-! ## Notifications that stay in the store -/

section

variable (interpreter : Interpreter)

/-- The keys in the store once notifications with new keys have come. -/
def storedKeys (stored new : List (Dict String Value)) : List String :=
  if new = [] then stored.map (keyText interpreter)
  else lastItems 100 ((stored ++ new).map (keyText interpreter))

/-- Every notification has a key, a new one keeps it, and all the keys are in the store once all
of them have come, oldest first. -/
structure NotificationsSettle (stored listed : List (Dict String Value)) : Prop where
  storedLegible : ∀ item ∈ stored, Legible interpreter item
  legible : ∀ item ∈ listed, Legible interpreter item
  keepsKey : ∀ item ∈ unknownItems interpreter (stored.map (keyText interpreter)) listed,
    KeepsKey interpreter item
  inStore : ∀ item ∈ listed, keyText interpreter item ∈
    storedKeys interpreter stored
      (unknownItems interpreter (stored.map (keyText interpreter)) listed)

/-- What a run leaves in the store. -/
def kept (stored entries : List (Dict String Value)) : List (Dict String Value) :=
  if entries = [] then stored else lastItems 100 (stored ++ entries)

end

section

variable {interpreter : Interpreter} {stored listed items entries : List (Dict String Value)}

theorem mem_kept {item : Dict String Value} (member : item ∈ kept stored entries) :
    item ∈ stored ∨ item ∈ entries := by
  unfold kept at member
  split_ifs at member
  · exact .inl member
  · exact List.mem_append.mp ((lastItems_sublist 100 _).subset member)

theorem exists_recordedAs (recorded : List.Forall₂ RecordedAs items entries)
    {entry : Dict String Value} (member : entry ∈ entries) :
    ∃ item ∈ items, RecordedAs item entry := by
  induction recorded with
  | nil => cases member
  | cons first rest induction =>
      rcases List.mem_cons.mp member with rfl | later
      · exact ⟨_, List.mem_cons_self, first⟩
      · obtain ⟨item, inside, found⟩ := induction later
        exact ⟨item, List.mem_cons_of_mem _ inside, found⟩

/-- Entries of notifications that keep their keys have the keys of these. -/
theorem keys_kept (recorded : List.Forall₂ RecordedAs items entries)
    (legible : ∀ item ∈ items, Legible interpreter item)
    (keeps : ∀ item ∈ items, KeepsKey interpreter item) :
    (kept stored entries).map (keyText interpreter) = storedKeys interpreter stored items := by
  have keys : entries.map (keyText interpreter) = items.map (keyText interpreter) := by
    induction recorded with
    | nil => rfl
    | cons first rest induction =>
        have head := (keeps _ List.mem_cons_self).entry (legible _ List.mem_cons_self) first
        rw [List.map_cons, List.map_cons, head.2,
          induction (fun item member => legible item (List.mem_cons_of_mem _ member))
            fun item member => keeps item (List.mem_cons_of_mem _ member)]
  have together : entries = [] ↔ items = [] := by
    rw [← @List.map_eq_nil_iff _ _ (keyText interpreter), keys, List.map_eq_nil_iff]
  rw [kept, storedKeys]
  by_cases none : entries = []
  · rw [if_pos none, if_pos (together.mp none)]
  · rw [if_neg none, if_neg fun empty => none (together.mpr empty), ← lastItems_map,
      List.map_append, keys, ← List.map_append]

/-- A run over notifications whose keys are all in the store comes to nothing. -/
theorem addNotifications_of_known (clock : Clock)
    (storedLegible : ∀ item ∈ stored, Legible interpreter item)
    (legible : ∀ item ∈ listed, Legible interpreter item)
    (known : ∀ item ∈ listed, keyText interpreter item ∈ stored.map (keyText interpreter)) :
    addNotifications interpreter clock listed stored = (none, stored) := by
  obtain ⟨entries, ran, recorded⟩ := addNotifications_spec clock storedLegible legible
  rw [unknownItems_eq_nil_iff.mpr known] at recorded
  cases recorded
  exact ran

theorem NotificationsSettle.addNotifications
    (settle : NotificationsSettle interpreter stored listed) (first second : Clock) :
    ∃ after, addNotifications interpreter first listed stored = (none, after) ∧
      addNotifications interpreter second listed after = (none, after) := by
  obtain ⟨entries, ran, recorded⟩ :=
    addNotifications_spec first settle.storedLegible settle.legible
  obtain ⟨sublist, -, -⟩ := @unknownItems_spec interpreter
    (stored.map (keyText interpreter)) listed
  have unknownLegible := fun item member => settle.legible item (sublist.subset member)
  refine ⟨kept stored entries, ran, addNotifications_of_known second ?_ settle.legible ?_⟩
  · intro item member
    rcases mem_kept member with old | new
    · exact settle.storedLegible item old
    · obtain ⟨source, inside, recordedAs⟩ := exists_recordedAs recorded new
      exact ((settle.keepsKey source inside).entry (unknownLegible source inside) recordedAs).1
  · intro item member
    rw [keys_kept recorded unknownLegible settle.keepsKey]
    exact settle.inStore item member

theorem stable_ne_id (first second : String) : "stable:" ++ first ≠ "id:" ++ second := by
  intro same
  have letters := congrArg String.toList same
  rw [String.toList_append, String.toList_append] at letters
  have heads : some 's' = some 'i' := congrArg List.head? letters
  exact absurd heads (by decide)

/-- Described notifications that are all in the store after a first run keep their keys. -/
theorem settle_of_known (telling : ∀ item ∈ listed, described interpreter item = true)
    (storedLegible : ∀ item ∈ stored, Legible interpreter item)
    (recorded : List.Forall₂ RecordedAs
      (unknownItems interpreter (stored.map (keyText interpreter)) listed) entries)
    (known : ∀ item ∈ listed,
      keyText interpreter item ∈ (kept stored entries).map (keyText interpreter)) :
    NotificationsSettle interpreter stored listed := by
  obtain ⟨sublist, unknown, distinct⟩ := @unknownItems_spec interpreter
    (stored.map (keyText interpreter)) listed
  have legible := fun item member => legible_of_described (telling item member)
  have keeps : ∀ item ∈ unknownItems interpreter (stored.map (keyText interpreter)) listed,
      KeepsKey interpreter item := by
    intro item member
    have inside := sublist.subset member
    apply keepsKey_of_named _ (telling item inside)
    by_contra unnamed
    rw [Bool.not_eq_true] at unnamed
    -- without an id its key is what describes it, and some entry has that key
    have noId : notifId interpreter item = "" := by
      by_contra hasId
      rw [named_of_notifId hasId] at unnamed
      cases unnamed
    obtain ⟨-, stable⟩ := (described_cases (telling item inside)).resolve_left
      (not_not.mpr noId)
    have key : keyText interpreter item = "stable:" ++ stableText interpreter item := by
      rw [keyText, key_of_stableText noId stable]
    obtain ⟨entry, inStore, same⟩ := List.mem_map.mp (known item inside)
    rcases mem_kept inStore with old | new
    · exact unknown item member (same ▸ List.mem_map_of_mem old)
    · obtain ⟨source, isUnknown, recordedAs⟩ := exists_recordedAs recorded new
      have sourceDescribed := telling source (sublist.subset isUnknown)
      by_cases sourceNamed : named source = true
      · have kept := ((keepsKey_of_named sourceNamed sourceDescribed).entry
          (legible_of_described sourceDescribed) recordedAs).2
        have one : source = item :=
          List.inj_on_of_nodup_map distinct isUnknown member (kept.symm.trans same)
        rw [one, unnamed] at sourceNamed
        cases sourceNamed
      · rw [Bool.not_eq_true] at sourceNamed
        have given := @notifId_entry_of_unnamed interpreter _ _ recordedAs sourceNamed
        rw [keyText, key_of_notifId given, key] at same
        exact stable_ne_id _ _ same.symm
  refine ⟨storedLegible, legible, keeps, ?_⟩
  intro item member
  rw [← keys_kept recorded (fun item member => legible item (sublist.subset member)) keeps]
  exact known item member

end

/-! ## Two runs -/

/-- The store after a run with the database down. -/
def hydrated (interpreter : Interpreter) (notional : ℚ) (clock : Clock) (lists : RecentLists)
    (store : RuntimeLedger) : RuntimeLedger :=
  (hydrateDashboardStateFromRedis interpreter notional clock false (some lists) store).2

section

variable (interpreter : Interpreter)

/-- What Redis lists settles in the store. -/
def Settles (lists : RecentLists) (store : RuntimeLedger) : Prop :=
  ∀ decisions, listDecisions interpreter lists 500 = .ok decisions →
    DecisionsSettle interpreter store.log.decisionKeyOrder decisions.reverse ∧
      ∀ listed, listNotifications interpreter lists 500 = .ok listed →
        NotificationsSettle interpreter store.notifications listed.reverse

/-- Nothing that Redis lists raises: it is read, numbers convert, and notifications have an id or
a text. -/
structure ReadsPlainly (lists : RecentLists) (store : RuntimeLedger)
    (decisions listed : List (Dict String Value)) : Prop where
  readsDecisions : listDecisions interpreter lists 500 = .ok decisions
  readsNotifications : listNotifications interpreter lists 500 = .ok listed
  converts : ∀ decision ∈ decisions, convertible decision = true
  storedLegible : ∀ item ∈ store.notifications, Legible interpreter item
  telling : ∀ item ∈ listed, described interpreter item = true

end

section

variable {interpreter : Interpreter} {notional : ℚ} {lists : RecentLists} {store : RuntimeLedger}

theorem length_of_mapM {α β : Type} {convert : α → Except Raised β} {items : List α}
    {results : List β} (mapped : items.mapM convert = .ok results) :
    results.length = items.length :=
  (Json.forall₂_of_mapM mapped).length_eq

theorem length_listDecisions {decisions : List (Dict String Value)}
    (read : listDecisions interpreter lists 500 = .ok decisions) : decisions.length ≤ 50 := by
  obtain ⟨loaded, mapped, kept⟩ := bind_eq_ok.mp read
  cases kept
  have few := length_of_mapM mapped
  rw [List.length_take] at few
  exact Nat.le_trans (List.reduceOption_length_le loaded) (by omega)

theorem length_listNotifications {listed : List (Dict String Value)}
    (read : listNotifications interpreter lists 500 = .ok listed) : listed.length ≤ 20 := by
  obtain ⟨loaded, mapped, kept⟩ := bind_eq_ok.mp read
  cases kept
  have few := length_of_mapM mapped
  rw [List.length_take] at few
  rw [List.length_map]
  exact Nat.le_trans (List.reduceOption_length_le loaded) (by omega)

theorem hydrated_of_read (clock : Clock) {decisions : List (Dict String Value)}
    (read : listDecisions interpreter lists 500 = .ok decisions) {log : DecisionLog}
    (recorded : recordUntilRaised interpreter notional store.log (clock.calls decisions.reverse) =
      (none, log)) :
    hydrated interpreter notional clock lists store =
      match listNotifications interpreter lists 500 with
      | .error _ => { store with log := log }
      | .ok listed =>
          ⟨log, (addNotifications interpreter clock listed.reverse store.notifications).2⟩ := by
  simp only [hydrated, hydrateDashboardStateFromRedis, Bool.false_eq_true, if_false, read,
    recorded]
  rcases listNotifications interpreter lists 500 with error | listed
  · rfl
  · dsimp only
    rcases addNotifications interpreter clock listed.reverse store.notifications with
      ⟨_ | error, notifications⟩
    · rfl
    · rfl

theorem length_calls (clock : Clock) (decisions : List (Dict String Value)) :
    (clock.calls decisions).length = decisions.length := by
  rw [Clock.calls, List.length_map, List.length_zipIdx]

theorem payload_mem_of_calls {clock : Clock} {decisions : List (Dict String Value)}
    {call : DecisionCall} (member : call ∈ clock.calls decisions) : call.payload ∈ decisions := by
  rw [← payload_calls clock decisions]
  exact List.mem_map_of_mem member

/-- A run that raises at no decision leaves a log whose keys a second run finds. -/
theorem recordUntilRaised_twice (windowed : store.log.Windowed)
    {decisions : List (Dict String Value)}
    (settle : DecisionsSettle interpreter store.log.decisionKeyOrder decisions)
    (first second : Clock) :
    ∃ log, recordUntilRaised interpreter notional store.log (first.calls decisions) =
        (none, log) ∧
      recordUntilRaised interpreter notional log (second.calls decisions) = (none, log) := by
  obtain ⟨finished, stillWindowed, order⟩ := @recordUntilRaised_of_converts interpreter notional _
    windowed (first.calls decisions) (by rw [payload_calls]; exact settle.converts)
  refine ⟨_, finished, recordUntilRaised_of_recorded fun call member => ?_⟩
  rw [stillWindowed.same, List.mem_toFinset, order, payload_calls]
  exact settle.onRecord call.payload (payload_mem_of_calls member)

/-- A second run leaves what settles as the first run left it. -/
theorem hydrated_twice (windowed : store.log.Windowed) (settles : Settles interpreter lists store)
    (first second : Clock) :
    hydrated interpreter notional second lists (hydrated interpreter notional first lists store) =
      hydrated interpreter notional first lists store := by
  rcases read : listDecisions interpreter lists 500 with error | decisions
  · have nothing (clock : Clock) (store : RuntimeLedger) :
        hydrated interpreter notional clock lists store = store := by
      simp only [hydrated, hydrateDashboardStateFromRedis, Bool.false_eq_true, if_false, read]
    rw [nothing first, nothing second]
  · obtain ⟨settledDecisions, settledNotifications⟩ := settles decisions read
    obtain ⟨log, ran, again⟩ := @recordUntilRaised_twice interpreter notional _ windowed _
      settledDecisions first second
    have once := hydrated_of_read first read ran
    rcases notifications : listNotifications interpreter lists 500 with error | listed
    · rw [notifications] at once
      dsimp only at once
      rw [once, hydrated_of_read second read again, notifications]
    · rw [notifications] at once
      obtain ⟨after, added, addedAgain⟩ :=
        (settledNotifications listed notifications).addNotifications first second
      dsimp only at once
      rw [added] at once
      rw [once, hydrated_of_read second read again, notifications]
      dsimp only
      rw [addedAgain]

theorem legible_of_recordedAs {item entry : Dict String Value} (recorded : RecordedAs item entry)
    (telling : described interpreter item = true) : Legible interpreter entry := by
  by_cases isNamed : named item = true
  · exact ((keepsKey_of_named isNamed telling).entry (legible_of_described telling) recorded).1
  · rw [Bool.not_eq_true] at isNamed
    exact ⟨_, key_of_notifId (notifId_entry_of_unnamed recorded isNamed)⟩

/-- What a run leaves where nothing raises. -/
theorem hydrated_of_plain {decisions listed : List (Dict String Value)}
    (windowed : store.log.Windowed)
    (plain : ReadsPlainly interpreter lists store decisions listed) (clock : Clock) :
    ∃ entries,
      hydrated interpreter notional clock lists store =
        ⟨store.log.recordDecisions interpreter notional (clock.calls decisions.reverse),
          kept store.notifications entries⟩ ∧
      List.Forall₂ RecordedAs (unknownItems interpreter
        (store.notifications.map (keyText interpreter)) listed.reverse) entries ∧
      (∀ item ∈ kept store.notifications entries, Legible interpreter item) ∧
      (store.log.recordDecisions interpreter notional (clock.calls decisions.reverse)).Windowed ∧
      (store.log.recordDecisions interpreter notional
          (clock.calls decisions.reverse)).decisionKeyOrder =
        decisions.reverse.foldl (afterDecision interpreter) store.log.decisionKeyOrder := by
  have converts : Along (afterDecision interpreter) (ConvertsUnrecorded interpreter)
      store.log.decisionKeyOrder decisions.reverse :=
    along_of_forall fun order decision member _ =>
      plain.converts decision (List.mem_reverse.mp member)
  obtain ⟨finished, stillWindowed, order⟩ := @recordUntilRaised_of_converts interpreter notional _
    windowed (clock.calls decisions.reverse) (by rw [payload_calls]; exact converts)
  rw [payload_calls] at order
  have telling : ∀ item ∈ listed.reverse, described interpreter item = true :=
    fun item member => plain.telling item (List.mem_reverse.mp member)
  obtain ⟨entries, added, recorded⟩ := addNotifications_spec clock plain.storedLegible
    fun item member => legible_of_described (telling item member)
  refine ⟨entries, ?_, recorded, ?_, stillWindowed, order⟩
  · rw [hydrated_of_read clock plain.readsDecisions finished, plain.readsNotifications]
    dsimp only
    rw [added]
    rfl
  · intro item member
    rcases mem_kept member with old | new
    · exact plain.storedLegible item old
    · obtain ⟨source, inside, recordedAs⟩ := exists_recordedAs recorded new
      exact legible_of_recordedAs recordedAs
        (telling source ((unknownItems_spec _ _).1.subset inside))

theorem appended_nil_of_unchanged {log : DecisionLog} {calls : List DecisionCall}
    (few : calls.length < 500) (distinct : log.decisions.Nodup)
    (same : (log.recordDecisions interpreter notional calls).decisions = log.decisions) :
    log.appended interpreter notional calls = [] := by
  by_contra some
  rw [decisions_recordDecisions, if_neg some] at same
  apply not_nodup_of_lastItems_append _ _ same distinct
  · rwa [Ne, List.map_eq_nil_iff]
  · rw [List.length_map]
    exact Nat.lt_of_le_of_lt (length_appended_le log calls) few

/-- Notifications without repetition are as before only where none is new. -/
theorem nil_of_kept_unchanged {stored entries : List (Dict String Value)}
    (few : entries.length < 100) (distinct : stored.Nodup)
    (same : kept stored entries = stored) : entries = [] := by
  by_contra some
  rw [kept, if_neg some] at same
  exact not_nodup_of_lastItems_append some few same distinct

/-- What a second run leaves as it was has settled, where nothing raises and the first run left no
entry twice. -/
theorem settles_of_unchanged {decisions listed : List (Dict String Value)}
    (windowed : store.log.Windowed)
    (plain : ReadsPlainly interpreter lists store decisions listed) (first second : Clock)
    {once : RuntimeLedger} (ran : hydrated interpreter notional first lists store = once)
    (distinctDecisions : once.log.decisions.Nodup)
    (distinctNotifications : once.notifications.Nodup)
    (sameDecisions : (hydrated interpreter notional second lists once).log.decisions =
      once.log.decisions)
    (sameNotifications : (hydrated interpreter notional second lists once).notifications =
      once.notifications) : Settles interpreter lists store := by
  obtain ⟨entries, firstRun, recorded, keptLegible, windowedOnce, order⟩ :=
    hydrated_of_plain windowed plain first
  rw [ran] at firstRun
  have onceLog : once.log =
      store.log.recordDecisions interpreter notional (first.calls decisions.reverse) := by
    rw [firstRun]
  have onceNotifications : once.notifications = kept store.notifications entries := by
    rw [firstRun]
  rw [← onceLog] at windowedOnce order
  rw [← onceNotifications] at keptLegible
  obtain ⟨more, secondRun, recordedMore, -, -, -⟩ := @hydrated_of_plain interpreter notional _ _
    _ _ windowedOnce { plain with storedLegible := keptLegible } second
  rw [secondRun] at sameDecisions sameNotifications
  have nothingAppended := appended_nil_of_unchanged
    (by
      rw [length_calls, List.length_reverse]
      exact Nat.lt_of_le_of_lt (length_listDecisions plain.readsDecisions) (by decide))
    distinctDecisions sameDecisions
  have nothingNew : more = [] := by
    refine nil_of_kept_unchanged ?_ distinctNotifications sameNotifications
    have fewNew := (@unknownItems_spec interpreter
      (once.notifications.map (keyText interpreter)) listed.reverse).1.length_le
    rw [← recordedMore.length_eq]
    rw [List.length_reverse] at fewNew
    have few := length_listNotifications plain.readsNotifications
    omega
  intro sameList read
  rw [plain.readsDecisions, Except.ok.injEq] at read
  subst read
  refine ⟨⟨?_, ?_⟩, ?_⟩
  · exact along_of_forall fun order decision member _ =>
      plain.converts decision (List.mem_reverse.mp member)
  · intro decision member
    rw [← order, ← List.mem_toFinset, ← windowedOnce.same]
    rw [← payload_calls second decisions.reverse] at member
    obtain ⟨call, inside, rfl⟩ := List.mem_map.mp member
    refine recorded_of_appended_nil (fun call member => ?_) nothingAppended call inside
    exact plain.converts _ (List.mem_reverse.mp (payload_mem_of_calls member))
  · intro sameListed readListed
    rw [plain.readsNotifications, Except.ok.injEq] at readListed
    subst readListed
    apply settle_of_known (fun item member => plain.telling item (List.mem_reverse.mp member))
      plain.storedLegible recorded
    rw [nothingNew, onceNotifications] at recordedMore
    exact unknownItems_eq_nil_iff.mp (List.forall₂_nil_right_iff.mp recordedMore)

/-- A second run leaves the store as the first run left it where everything that Redis lists is on
record after the first run.  Where nothing raises and no entry is there twice, it does so nowhere
else. -/
theorem hydration_idempotent (interpreter : Interpreter) (notional : ℚ) (first second : Clock)
    (dbAvailable : Bool) (redisStore : Option RecentLists) (store : RuntimeLedger)
    (windowed : store.log.Windowed) :
    let hydrate (clock : Clock) (store : RuntimeLedger) :=
      (hydrateDashboardStateFromRedis interpreter notional clock dbAvailable redisStore store).2
    let once := hydrate first store
    let twice := hydrate second once
    let unchanged := twice.log.decisions = once.log.decisions ∧
      twice.notifications = once.notifications
    ((dbAvailable = false → ∀ lists ∈ redisStore, Settles interpreter lists store) → unchanged) ∧
      (dbAvailable = false → ∀ lists ∈ redisStore, ∀ decisions listed,
        ReadsPlainly interpreter lists store decisions listed →
          once.log.decisions.Nodup → once.notifications.Nodup → unchanged →
            Settles interpreter lists store) := by
  intro hydrate once twice unchanged
  constructor
  · intro settles
    cases dbAvailable with
    | true => exact ⟨rfl, rfl⟩
    | false =>
        rcases redisStore with _ | lists
        · exact ⟨rfl, rfl⟩
        · have same : twice = once := hydrated_twice windowed (settles rfl lists rfl) first second
          exact ⟨by rw [same], by rw [same]⟩
  · rintro rfl lists ⟨⟩ decisions listed plain distinctDecisions distinctNotifications same
    exact settles_of_unchanged windowed plain first second rfl distinctDecisions
      distinctNotifications same.1 same.2

end

/-- A clock that stands still. -/
def stoppedClock : Clock := ⟨fun _ => "", fun _ => 0⟩

/-- A decision and a notification with their ids. -/
def identified : RecentLists where
  decisions := ["\x7b\"id\": \"d-1\"\x7d"]
  notifications := ["\x7b\"id\": \"n-1\"\x7d"]
  read := []

theorem settles_identified : Settles Reference.decimalInterpreter identified {} := by
  have settledDecisions : ∀ decisions ∈
      (listDecisions Reference.decimalInterpreter identified 500).toOption,
        (∀ decision ∈ decisions.reverse, convertible decision = true) ∧
          ∀ decision ∈ decisions.reverse,
            decisionKey Reference.decimalInterpreter.toRuntime decision ∈
              decisions.reverse.foldl (afterDecision Reference.decimalInterpreter) [] := by
    decide +kernel
  have settledNotifications : ∀ listed ∈
      (listNotifications Reference.decimalInterpreter identified 500).toOption,
        ∀ item ∈ listed.reverse, named item = true ∧
          described Reference.decimalInterpreter item = true ∧
            keyText Reference.decimalInterpreter item ∈
              storedKeys Reference.decimalInterpreter []
                (unknownItems Reference.decimalInterpreter [] listed.reverse) := by
    decide +kernel
  intro decisions read
  obtain ⟨converts, onRecord⟩ := settledDecisions decisions (by rw [read]; rfl)
  refine ⟨⟨along_of_forall fun order decision member _ => converts decision member, onRecord⟩,
    fun listed readListed => ?_⟩
  have settled := settledNotifications listed (by rw [readListed]; rfl)
  refine ⟨by simp, fun item member => legible_of_described (settled item member).2.1, ?_,
    fun item member => (settled item member).2.2⟩
  intro item member
  have inside := (unknownItems_spec [] listed.reverse).1.subset member
  exact keepsKey_of_named (settled item inside).1 (settled item inside).2.1

theorem hydration_idempotent_identified :
    let hydrate (clock : Clock) (store : RuntimeLedger) :=
      (hydrateDashboardStateFromRedis Reference.decimalInterpreter 1000 clock false
        (some identified) store).2
    let once := hydrate stoppedClock {}
    let twice := hydrate stoppedClock once
    twice.log.decisions = once.log.decisions ∧ twice.notifications = once.notifications := by
  have windowed : DecisionLog.Windowed {} := ⟨rfl, List.nodup_nil, Nat.zero_le _⟩
  have settles : ∀ lists ∈ some identified,
      Settles Reference.decimalInterpreter lists {} := by
    intro lists only
    rw [Option.mem_some_iff] at only
    rw [← only]
    exact settles_identified
  exact (hydration_idempotent Reference.decimalInterpreter 1000 stoppedClock stoppedClock false
    (some identified) {} windowed).1 fun _ => settles

/-- A notification without an id is given one when it is recorded, so its key is never found, and
every run records it again. -/
theorem untold_recorded_again :
    let lists : RecentLists := ⟨[], ["\x7b\"title\": \"fill\"\x7d"], []⟩
    let once := hydrated Reference.decimalInterpreter 1000 stoppedClock lists {}
    let twice := hydrated Reference.decimalInterpreter 1000 stoppedClock lists once
    once.notifications.length = 1 ∧ twice.notifications.length = 2 := by
  decide +kernel

end TradingControl.Dashboard
