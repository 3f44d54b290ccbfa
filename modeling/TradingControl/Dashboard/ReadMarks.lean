import Mathlib.Data.Finset.Filter
import TradingControl.Effects.Watched
import TradingControl.Python.JsonRoundTrip
import TradingControl.Python.Reference

/-!
# Read marks

Notifications are a capped list in Redis, and the ids that were marked read are a set beside it.
Every push prunes the set: it reads the list, then the set, and removes the ids that it did not see
in the list.
-/

namespace TradingControl.ReadMarks

open Effects Python

/-! ## Store -/

/-- `REDIS_NOTIFICATIONS_MAX`. -/
def notificationsMax : ℕ := 20

/-- Commands on the list and the set. -/
inductive Command where
  /-- `LPUSH` and `LTRIM` in one transaction. -/
  | push (text : String)
  | lrange
  | smembers
  | srem (ids : Finset String)
  | sadd (id : String)

abbrev notificationSignature : Signature where
  Op := Command
  Answer
    | .push _ => Unit
    | .lrange => List String
    | .smembers => Finset String
    | .srem _ => Unit
    | .sadd _ => Unit

inductive Failure where
  | redis
  | raised (error : Raised)

abbrev Store (α : Type) := Program notificationSignature Failure α

/-- Add a notification to the front of the list, and trim the list. -/
def push (text : String) : Store Unit := Program.perform (S := notificationSignature) (.push text)

def lrange : Store (List String) := Program.perform (S := notificationSignature) .lrange

def smembers : Store (Finset String) := Program.perform (S := notificationSignature) .smembers

def srem (ids : Finset String) : Store Unit :=
  Program.perform (S := notificationSignature) (.srem ids)

def sadd (id : String) : Store Unit := Program.perform (S := notificationSignature) (.sadd id)

variable (interpreter : Interpreter)

/-- `_safe_loads`. -/
def safeLoads (text : String) : Except Raised (Option (Dict String Value)) :=
  match Json.loads interpreter.toRuntime interpreter.depth text with
  | .ok (.dict entry) => .ok (some entry)
  | .ok _ => .ok none
  | .error .typeError | .error .valueError | .error .jsonDecodeError => .ok none
  | .error raised => .error raised

/-- `field or default` under a key. -/
def fill (key : String) (default : String) (entry : Dict String Value) : Dict String Value :=
  if ((entry.lookup key).getD .none).truthy then entry else Dict.set key (.str default) entry

/-- `setdefault`. -/
def setDefault (key : String) (default : Value) (entry : Dict String Value) : Dict String Value :=
  if (entry.lookup key).isSome then entry else Dict.set key default entry

/-- The entry that is pushed. -/
def notificationEntry (payload : Dict String Value) (freshId now : String) : Dict String Value :=
  setDefault "read" (.bool false)
    (setDefault "severity" (.str "info") (fill "timestamp" now (fill "id" freshId payload)))

/-- The ids of the live list, as the pruning sees them. -/
def liveIds : List String → Except Raised (Finset String)
  | [] => .ok ∅
  | text :: rest => do
      let parsed ← safeLoads interpreter text
      let others ← liveIds rest
      match parsed.bind (·.lookup "id") with
      | some ident =>
          return if ident.truthy then insert (interpreter.toRuntime.str ident) others else others
      | none => return others

/-- Everything a `try` catches. -/
def guarded {α : Type} (body : Store α) (default : α) : Store α :=
  body.tryCatch fun _ => .ret default

/-- `_prune_read_set`. -/
def pruneReadSet : Store Unit :=
  guarded (do
    let live ← lrange
    match liveIds interpreter live with
    | .error raised => .raise (.raised raised)
    | .ok liveIds => do
        let readIds ← smembers
        let stale := readIds.filter (· ∉ liveIds)
        if stale.Nonempty then srem stale else pure ()) ()

/-- `push_notification`, with the id that `uuid4` draws and the time. -/
def pushNotification (payload : Dict String Value) (freshId now : String) :
    Store (Dict String Value) := do
  let entry := notificationEntry payload freshId now
  match Json.dumps interpreter.toRuntime interpreter.depth {} (.dict entry) with
  | .error raised => .raise (.raised raised)
  | .ok encoded => do
      guarded (push encoded) ()
      pruneReadSet interpreter
      return entry

/-- `mark_read`. -/
def markRead (id : String) : Store Bool :=
  guarded (do
    sadd id
    return true) false

/-! ## What readers see -/

/-- `str(parsed.get("id", ""))`. -/
def entryId (entry : Dict String Value) : String :=
  interpreter.toRuntime.str ((entry.lookup "id").getD (.str ""))

/-- An entry as `list_notifications` shows it. -/
def shown (readIds : Finset String) (entry : Dict String Value) : Dict String Value :=
  if entryId interpreter entry ∈ readIds then Dict.set "read" (.bool true) entry else entry

/-- `list_notifications` from the items of the list and the read ids on. -/
def listNotifications (readIds : Finset String) (items : List String) :
    Except Raised (List (Dict String Value)) := do
  let parsed ← items.mapM (safeLoads interpreter)
  return (parsed.filterMap id).map (shown interpreter readIds)

/-- `unread_count` counts the entry. -/
def counted (readIds : Finset String) (entry : Dict String Value) : Bool :=
  !((entry.lookup "read").getD .none).truthy && entryId interpreter entry ∉ readIds

/-- `unread_count` from the items of the list and the read ids on. -/
def unreadCount (readIds : Finset String) (items : List String) : Except Raised ℕ := do
  let parsed ← items.mapM (safeLoads interpreter)
  return (parsed.filterMap id).countP (counted interpreter readIds)

/-! ## Runs -/

/-- The list and the set.  The marked ids are those that were marked read while they were in the
list and have been there since; no command reads them. -/
structure Notifications where
  recent : List String := []
  read : Finset String := ∅
  marked : Finset String := ∅

/-- The id that a reader finds in an item. -/
def itemId (text : String) : Option String :=
  match safeLoads interpreter text with
  | .ok (some entry) => some (entryId interpreter entry)
  | _ => none

def listedIds (recent : List String) : Finset String :=
  (recent.filterMap (itemId interpreter)).toFinset

/-- Redis, healthy. -/
def storeHandler : Handler notificationSignature Failure Unit Notifications
  | .push text, _, store =>
      let recent := (text :: store.recent).take notificationsMax
      (.ok (), { store with recent, marked := store.marked ∩ listedIds interpreter recent })
  | .lrange, _, store => (.ok store.recent, store)
  | .smembers, _, store => (.ok store.read, store)
  | .srem ids, _, store => (.ok (), { store with read := store.read \ ids })
  | .sadd id, _, store =>
      (.ok (), { store with
        read := insert id store.read
        marked := if id ∈ listedIds interpreter store.recent then insert id store.marked
          else store.marked })

/-- How far a call has come with its pruning. -/
inductive Pruning where
  | idle
  /-- It has read the list. -/
  | saw (live : Finset String)
  /-- It has read the set, too. -/
  | removes (stale : Finset String)
deriving DecidableEq

def Pruning.Spares (id : String) : Pruning → Prop
  | .idle => True
  | .saw live => id ∈ live
  | .removes stale => id ∉ stale

/-- What a command says about the pruning it is part of. -/
def pruningWatcher : Watcher notificationSignature Unit Notifications Pruning
  | record, op, _, store =>
      match op, record with
      | .lrange, _ =>
          match liveIds interpreter store.recent with
          | .ok live => .saw live
          | .error _ => .idle
      | .smembers, .saw live => .removes (store.read.filter (· ∉ live))
      | .srem _, _ => .idle
      | _, record => record

/-- A call of one of the two functions. -/
inductive Call where
  | push (payload : Dict String Value) (freshId now : String)
  | mark (id : String)

def Call.program : Call → Store Unit
  | .push payload freshId now => do
      let _ ← pushNotification interpreter payload freshId now
      return ()
  | .mark id => do
      let _ ← markRead id
      return ()

/-- The floats of a payload print as themselves and its keys are distinct; an id that is drawn is
not empty. -/
def Call.Encodable : Call → Prop
  | .push payload freshId _ => Json.Faithful interpreter.toRuntime (.dict payload) ∧ freshId ≠ ""
  | .mark _ => True

variable {ι : Type}

/-- Calls on an empty store. -/
def begun (calls : ι → Call) :
    Watched notificationSignature Failure Unit Notifications ι Pruning where
  pool := { world := {}, program := fun i => (calls i).program interpreter }
  record _ := .idle

/-- A notification that is marked while it is in the list has been seen there by every call that is
pruning, or at least is not going to be removed. -/
def MarksSeen : Watched.Terms notificationSignature Unit Notifications ι Pruning :=
  fun store records _ op _ => ∀ id, op = .sadd id → id ∈ listedIds interpreter store.recent →
    ∀ j, (records j).Spares id

/-- What is marked is shown read and is not counted. -/
structure ShownRead (readIds : Finset String) (id : String) : Prop where
  shown : ∀ items entries, listNotifications interpreter readIds items = .ok entries →
    ∀ entry ∈ entries, entryId interpreter entry = id → entry.lookup "read" = some (.bool true)
  uncounted : ∀ entry, entryId interpreter entry = id → counted interpreter readIds entry = false

def MarksSurvive (store : Notifications) : Prop :=
  ∀ id ∈ store.marked, ShownRead interpreter store.read id

variable {interpreter}

/-! ## Readers -/

theorem shownRead_of_mem {readIds : Finset String} {id : String} (member : id ∈ readIds) :
    ShownRead interpreter readIds id := by
  constructor
  · intro items entries listed entry isEntry same
    obtain ⟨parsed, -, listed⟩ := bind_eq_ok.mp listed
    cases listed
    obtain ⟨held, -, rfl⟩ := List.mem_map.mp isEntry
    by_cases isRead : entryId interpreter held ∈ readIds
    · rw [shown, if_pos isRead, Dict.lookup_set, if_pos rfl]
    · rw [shown, if_neg isRead] at same
      exact absurd (same ▸ member) isRead
  · rintro entry rfl
    simp [counted, member]

/-! ## Items -/

variable (interpreter) in
/-- The item is a notification with an id. -/
def Identified (text : String) : Prop :=
  ∃ entry ident, safeLoads interpreter text = .ok (some entry) ∧ entry.lookup "id" = some ident ∧
    ident.truthy = true

/-- The pruning and the readers see the same ids. -/
theorem liveIds_eq {recent : List String}
    (identified : ∀ text ∈ recent, Identified interpreter text) :
    liveIds interpreter recent = .ok (listedIds interpreter recent) := by
  induction recent with
  | nil => rfl
  | cons text recent induction =>
      obtain ⟨⟨entry, ident, loads, found, truthy⟩, rest⟩ := List.forall_mem_cons.mp identified
      have own : itemId interpreter text = some (interpreter.toRuntime.str ident) := by
        simp [itemId, loads, entryId, found]
      rw [liveIds, loads, induction rest, listedIds, listedIds, List.filterMap_cons, own]
      simp [bind, Except.bind, found, truthy, pure, Except.pure]

theorem lookup_fill_of_ne {key other : String} (apart : other ≠ key) (default : String)
    (entry : Dict String Value) : (fill key default entry).lookup other = entry.lookup other := by
  rw [fill]
  split_ifs
  · rfl
  · rw [Dict.lookup_set, if_neg apart]

theorem lookup_setDefault_of_ne {key other : String} (apart : other ≠ key) (default : Value)
    (entry : Dict String Value) :
    (setDefault key default entry).lookup other = entry.lookup other := by
  rw [setDefault]
  split_ifs
  · rfl
  · rw [Dict.lookup_set, if_neg apart]

theorem lookup_id_notificationEntry (payload : Dict String Value) {freshId : String}
    (drawn : freshId ≠ "") (now : String) :
    ∃ ident, (notificationEntry payload freshId now).lookup "id" = some ident ∧
      ident.truthy = true := by
  rw [notificationEntry, lookup_setDefault_of_ne (by decide), lookup_setDefault_of_ne (by decide),
    lookup_fill_of_ne (by decide), fill]
  by_cases filled : ((payload.lookup "id").getD .none).truthy = true
  · rw [if_pos filled]
    cases found : payload.lookup "id" with
    | none =>
        rw [found] at filled
        cases filled
    | some ident =>
        rw [found] at filled
        exact ⟨ident, rfl, filled⟩
  · rw [if_neg filled, Dict.lookup_set, if_pos rfl]
    exact ⟨.str freshId, rfl, by simpa [Value.truthy] using drawn⟩

theorem faithful_set {entry : Dict String Value} {value : Value} (key : String)
    (faithful : Json.Faithful interpreter.toRuntime (.dict entry))
    (plain : Json.Faithful interpreter.toRuntime value) :
    Json.Faithful interpreter.toRuntime (.dict (Dict.set key value entry)) := by
  cases faithful with
  | dict _ distinct all =>
      refine .dict _ (Dict.nodup_set _ _ distinct) fun held member => ?_
      rcases Dict.mem_of_mem_set member with rfl | earlier
      · exact plain
      · exact all held earlier

theorem faithful_notificationEntry {payload : Dict String Value}
    (faithful : Json.Faithful interpreter.toRuntime (.dict payload)) (freshId now : String) :
    Json.Faithful interpreter.toRuntime (.dict (notificationEntry payload freshId now)) := by
  have fills : ∀ key default (entry : Dict String Value),
      Json.Faithful interpreter.toRuntime (.dict entry) →
        Json.Faithful interpreter.toRuntime (.dict (fill key default entry)) := by
    intro key default entry faithful
    rw [fill]
    split_ifs
    · exact faithful
    · exact faithful_set key faithful (.str default)
  have defaults : ∀ key default (entry : Dict String Value),
      Json.Faithful interpreter.toRuntime (.dict entry) →
        Json.Faithful interpreter.toRuntime default →
          Json.Faithful interpreter.toRuntime (.dict (setDefault key default entry)) := by
    intro key default entry faithful plain
    rw [setDefault]
    split_ifs
    · exact faithful
    · exact faithful_set key faithful plain
  exact defaults _ _ _ (defaults _ _ _ (fills _ _ _ (fills _ _ _ faithful)) (.str _)) (.bool _)

/-- What is pushed is read back with its id. -/
theorem identified_of_dumps {payload : Dict String Value} {freshId now encoded : String}
    (faithful : Json.Faithful interpreter.toRuntime (.dict payload)) (drawn : freshId ≠ "")
    (dumped : Json.dumps interpreter.toRuntime interpreter.depth {}
      (.dict (notificationEntry payload freshId now)) = .ok encoded) :
    Identified interpreter encoded := by
  obtain ⟨ident, found, truthy⟩ := lookup_id_notificationEntry payload drawn now
  have loaded := @Json.loads_dumps _ _ _ _ _ dumped
    (faithful_notificationEntry faithful freshId now) "" (by simp)
  rw [String.append_empty, if_neg Bool.false_ne_true] at loaded
  exact ⟨_, ident, by rw [safeLoads, loaded], found, truthy⟩

/-! ## What a call does -/

variable (interpreter) in
/-- Only items with an id are pushed, and what is removed is what the pruning has found stale. -/
def pruningDiscipline : Discipline notificationSignature Unit Pruning where
  sound record op :=
    match op with
    | .push text => Identified interpreter text
    | .srem stale => record = .removes stale
    | _ => True
  relies _ _ _ := True
  finished _ := True

/-- What one command of a call guarantees. -/
abbrev pruningTransformer (interpreter : Interpreter) :
    Transformer notificationSignature Failure Pruning :=
  (pruningDiscipline interpreter).transformer (storeHandler interpreter)
    (pruningWatcher interpreter)

theorem wp_guarded {α : Type} (body : Store α) (default : α)
    (post : Except Failure α → Pruning → Prop) :
    (guarded body default).wp (pruningTransformer interpreter) post =
      body.wp (pruningTransformer interpreter)
        (Program.andThen (fun value => post (.ok value)) fun _ => post (.ok default)) :=
  Program.wp_tryCatch _ body _ post

/-- Pruning removes what it has found stale and nothing else. -/
theorem wp_pruneReadSet {record : Pruning} {post : Except Failure Unit → Pruning → Prop}
    (finish : ∀ record, post (.ok ()) record) :
    (pruneReadSet interpreter).wp (pruningTransformer interpreter) post record := by
  rw [pruneReadSet, wp_guarded, Program.bind_eq_bind, Program.wp_bind, lrange, Program.wp_perform]
  refine ⟨trivial, fun _ store _ => ?_⟩
  rw [storeHandler, pruningWatcher]
  dsimp only
  rw [Program.andThen_ok]
  cases liveIds interpreter store.recent with
  | error raised => exact finish _
  | ok live =>
      dsimp only
      rw [Program.bind_eq_bind, Program.wp_bind, smembers, Program.wp_perform]
      refine ⟨trivial, fun _ later _ => ?_⟩
      rw [storeHandler, pruningWatcher]
      dsimp only
      rw [Program.andThen_ok]
      split_ifs
      · rw [srem, Program.wp_perform]
        exact ⟨rfl, fun _ _ _ => finish _⟩
      · exact finish _

theorem follows_program {call : Call} (encodable : call.Encodable interpreter) :
    (pruningDiscipline interpreter).Follows (storeHandler interpreter) (pruningWatcher interpreter)
      (call.program interpreter) .idle := by
  rw [Discipline.Follows]
  cases call with
  | push payload freshId now =>
      rw [Call.program, Program.bind_eq_bind, Program.wp_bind, pushNotification]
      cases dumped : Json.dumps interpreter.toRuntime interpreter.depth {}
          (.dict (notificationEntry payload freshId now)) with
      | error raised => exact trivial
      | ok encoded =>
          dsimp only
          rw [Program.bind_eq_bind, Program.wp_bind, wp_guarded, push, Program.wp_perform]
          refine ⟨identified_of_dumps encodable.1 encodable.2 dumped, fun _ store _ => ?_⟩
          rw [storeHandler, Program.andThen_ok, Program.andThen_ok, Program.bind_eq_bind,
            Program.wp_bind]
          exact wp_pruneReadSet fun _ => trivial
  | mark id =>
      rw [Call.program, Program.bind_eq_bind, Program.wp_bind, markRead, wp_guarded,
        Program.bind_eq_bind, Program.wp_bind, sadd, Program.wp_perform]
      exact ⟨trivial, fun _ _ _ => trivial⟩

/-! ## What every command keeps -/

variable (interpreter) in
/-- What is marked is in the list and in the set, and no pruning will remove it. -/
structure Spared (store : Notifications) (records : ι → Pruning) : Prop where
  identified : ∀ text ∈ store.recent, Identified interpreter text
  listed : store.marked ⊆ listedIds interpreter store.recent
  read : store.marked ⊆ store.read
  spared : ∀ i, ∀ id ∈ store.marked, (records i).Spares id

variable {store : Notifications} {records : ι → Pruning}

/-- The records but one say what they said. -/
theorem spared_update [DecidableEq ι] {i : ι} {record : Pruning} {marked : Finset String}
    (others : ∀ j, ∀ id ∈ marked, (records j).Spares id)
    (own : ∀ id ∈ marked, record.Spares id) :
    ∀ j, ∀ id ∈ marked, (Function.update records i record j).Spares id := by
  intro j id member
  by_cases same : j = i
  · subst same
    rw [Function.update_self]
    exact own id member
  · rw [Function.update_of_ne same]
    exact others j id member

theorem spared_push {text : String} (spares : Spared interpreter store records)
    (sound : Identified interpreter text) :
    Spared interpreter (storeHandler interpreter (.push text) () store).2 records where
  identified := by
    intro item member
    rcases List.mem_cons.mp (List.mem_of_mem_take member) with rfl | earlier
    · exact sound
    · exact spares.identified item earlier
  listed := Finset.inter_subset_right
  read := Finset.inter_subset_left.trans spares.read
  spared i id member := spares.spared i id (Finset.mem_of_mem_inter_left member)

theorem spared_srem {stale : Finset String} {i : ι} (spares : Spared interpreter store records)
    (sound : records i = .removes stale) :
    Spared interpreter (storeHandler interpreter (.srem stale) () store).2 records where
  identified := spares.identified
  listed := spares.listed
  read := by
    intro id member
    refine Finset.mem_sdiff.mpr ⟨spares.read member, ?_⟩
    have kept := spares.spared i id member
    rwa [sound] at kept
  spared := spares.spared

theorem spared_sadd {id : String} (spares : Spared interpreter store records)
    (seen : id ∈ listedIds interpreter store.recent → ∀ j, (records j).Spares id) :
    Spared interpreter (storeHandler interpreter (.sadd id) () store).2 records := by
  have either : ∀ other, other ∈ (storeHandler interpreter (.sadd id) () store).2.marked →
      other ∈ store.marked ∨ other = id ∧ id ∈ listedIds interpreter store.recent := by
    intro other member
    rw [storeHandler] at member
    dsimp only at member
    split_ifs at member with listed
    · exact (Finset.mem_insert.mp member).symm.imp_right fun same => ⟨same, listed⟩
    · exact .inl member
  refine ⟨spares.identified, fun other member => ?_, fun other member => ?_,
    fun i other member => ?_⟩
  · rcases either other member with earlier | ⟨rfl, listed⟩
    · exact spares.listed earlier
    · exact listed
  · rcases either other member with earlier | ⟨rfl, -⟩
    · exact Finset.mem_insert_of_mem (spares.read earlier)
    · exact Finset.mem_insert_self _ _
  · rcases either other member with earlier | ⟨rfl, listed⟩
    · exact spares.spared i other earlier
    · exact seen listed i

theorem Spared.update [DecidableEq ι] {i : ι} {record : Pruning}
    (spares : Spared interpreter store records)
    (own : ∀ id ∈ store.marked, record.Spares id) :
    Spared interpreter store (Function.update records i record) :=
  ⟨spares.identified, spares.listed, spares.read, spared_update spares.spared own⟩

theorem spares_smembers {i : ι} (spares : Spared interpreter store records) :
    ∀ id ∈ store.marked,
      (pruningWatcher interpreter (records i) .smembers () store).Spares id := by
  intro id member
  have before := spares.spared i id member
  cases record : records i with
  | idle => trivial
  | saw live =>
      rw [record] at before
      change id ∉ store.read.filter (· ∉ live)
      exact fun stale => (Finset.mem_filter.mp stale).2 before
  | removes stale =>
      rw [record] at before
      exact before

variable [DecidableEq ι]

theorem kept : (pruningDiscipline interpreter).Kept (storeHandler interpreter)
    (pruningWatcher interpreter) (Empty.elim : Empty → Notifications → Notifications)
    (MarksSeen interpreter (ι := ι)) (Spared interpreter) where
  relied _ _ _ _ _ _ := trivial
  happen _ _ event := event.elim
  step := by
    intro store records i op choice spares sound seen
    cases op with
    | push text =>
        have same :
            pruningWatcher interpreter (records i) (.push text) choice store = records i := by
          cases records i <;> rfl
        rw [same, Function.update_eq_self]
        exact spared_push spares sound
    | lrange =>
        refine spares.update fun id member => ?_
        rw [pruningWatcher, liveIds_eq spares.identified]
        exact spares.listed member
    | smembers => exact spares.update (spares_smembers spares)
    | srem stale => exact (spared_srem spares sound).update fun _ _ => trivial
    | sadd id =>
        have same : pruningWatcher interpreter (records i) (.sadd id) choice store = records i := by
          cases records i <;> rfl
        rw [same, Function.update_eq_self]
        exact spared_sadd spares (seen id rfl)

/-! ## The law -/

/-- A notification that is marked read while it is in the list stays read, in every run in which no
mark comes while a pruning has read the list without it. -/
theorem marks_survive (calls : ι → Call)
    (encodable : ∀ i, (calls i).Encodable interpreter) (schedule : List (Move ι Unit Empty))
    (seen : (begun interpreter calls).Obeys (storeHandler interpreter)
      (pruningWatcher interpreter) Empty.elim (MarksSeen interpreter) schedule) :
    MarksSurvive interpreter ((begun interpreter calls).run (storeHandler interpreter)
      (pruningWatcher interpreter) Empty.elim schedule).pool.world := by
  have start : (pruningDiscipline interpreter).Holds (storeHandler interpreter)
      (pruningWatcher interpreter) (Spared interpreter) (begun interpreter calls) :=
    ⟨fun i => follows_program (encodable i),
      ⟨by simp [begun], by simp [begun], by simp [begun], by simp [begun]⟩⟩
  have holds := start.run kept schedule seen
  exact fun id member => shownRead_of_mem (holds.invariant.read member)

omit [DecidableEq ι] in
theorem marksSeen_of_idle {watched : Watched notificationSignature Failure Unit Notifications ι
    Pruning} (idle : ∀ j, watched.record j = .idle) {i : ι} :
    watched.OnTerms (MarksSeen interpreter) (.step i () : Move ι Unit Empty) := by
  intro op _ id _ _ j
  rw [idle j]
  trivial

/-- Two steps while nothing is being pruned. -/
theorem obeys_pair {watched : Watched notificationSignature Failure Unit Notifications ι Pruning}
    {i j : ι} (idle : ∀ k, watched.record k = .idle)
    (idleToo : ∀ k, (watched.move (storeHandler interpreter) (pruningWatcher interpreter)
      (Empty.elim : Empty → Notifications → Notifications) (.step i ())).record k = .idle) :
    watched.Obeys (storeHandler interpreter) (pruningWatcher interpreter)
      (Empty.elim : Empty → Notifications → Notifications) (MarksSeen interpreter)
      [.step i (), .step j ()] :=
  ⟨marksSeen_of_idle idle, marksSeen_of_idle idleToo, trivial⟩

def pushAndMark : Fin 2 → Call
  | 0 => .push [("id", .str "a")] "1" "now"
  | 1 => .mark "a"

/-- The mark comes before the pruning has read anything. -/
def earlyMark : List (Move (Fin 2) Unit Empty) := [.step 0 (), .step 1 ()]

theorem marks_survive_early : MarksSurvive Reference.decimalInterpreter
    ((begun Reference.decimalInterpreter pushAndMark).run
      (storeHandler Reference.decimalInterpreter) (pruningWatcher Reference.decimalInterpreter)
      Empty.elim earlyMark).pool.world := by
  have encodable : ∀ i, (pushAndMark i).Encodable Reference.decimalInterpreter := by
    intro i
    match i with
    | 0 => exact ⟨.dict _ (by decide) (by simp [Json.Faithful.str]), by decide⟩
    | 1 => trivial
  have idle : ∀ j, ((begun Reference.decimalInterpreter pushAndMark).move
      (storeHandler Reference.decimalInterpreter) (pruningWatcher Reference.decimalInterpreter)
      Empty.elim (.step 0 ())).record j = .idle := by
    decide +kernel
  exact marks_survive pushAndMark encodable earlyMark
    (obeys_pair (fun _ => rfl) idle)

omit [DecidableEq ι] in
theorem not_survives {store : Notifications} {id : String}
    (lost : (id ∈ store.marked && counted interpreter store.read [("id", .str id)]) = true) :
    ¬MarksSurvive interpreter store := by
  intro survives
  obtain ⟨marked, unread⟩ := Bool.and_eq_true_iff.mp lost
  have read := (survives id (of_decide_eq_true marked)).uncounted [("id", .str id)] rfl
  exact Bool.false_ne_true (read.symm.trans unread)

/-- Two pushes and a mark of the second notification. -/
def twoPushes : Fin 3 → Call
  | 0 => .push [("id", .str "a")] "1" "now"
  | 1 => .push [("id", .str "b")] "2" "now"
  | 2 => .mark "b"

/-- The first push reads the list, the second notification comes and is marked, and the first push
goes on to prune. -/
def lateMark : List (Move (Fin 3) Unit Empty) :=
  [.step 0 (), .step 0 (), .step 1 (), .step 2 (), .step 0 (), .step 0 ()]

theorem late_mark_is_lost : ¬∀ (calls : Fin 3 → Call),
    (∀ i, (calls i).Encodable Reference.decimalInterpreter) →
      ∀ schedule : List (Move (Fin 3) Unit Empty), MarksSurvive Reference.decimalInterpreter
        ((begun Reference.decimalInterpreter calls).run (storeHandler Reference.decimalInterpreter)
          (pruningWatcher Reference.decimalInterpreter) Empty.elim schedule).pool.world := by
  intro survive
  have encodable : ∀ i, (twoPushes i).Encodable Reference.decimalInterpreter := by
    intro i
    match i with
    | 0 => exact ⟨.dict _ (by decide) (by simp [Json.Faithful.str]), by decide⟩
    | 1 => exact ⟨.dict _ (by decide) (by simp [Json.Faithful.str]), by decide⟩
    | 2 => trivial
  refine @not_survives Reference.decimalInterpreter _ "b" ?_
    (survive twoPushes encodable lateMark)
  decide +kernel

end TradingControl.ReadMarks
