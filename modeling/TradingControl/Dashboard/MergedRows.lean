import TradingControl.Effects.History
import TradingControl.Effects.MergeFirst
import TradingControl.Events.Decoding
import TradingControl.Python.Reference
import TradingControl.Python.Window

/-!
# Merged rows of the runtime store

Grades and trade fills reach the store more than once.  A delivery is merged into the row that has
its key, and its values win where they are not `None`.  What comes through the bus has an empty text
in place of every `None`.
-/

namespace TradingControl.Dashboard

open Effects Events MergeFirst Python

-- the window lemmas say all there is to know, and five hundred is too far to unfold
attribute [local irreducible] lastItems

/-! ## Records -/

/-- A dictionary: no key comes twice. -/
structure Record where
  entries : Dict String Value
  distinct : (Dict.keys entries).Nodup

/-- `d.get(field)`. -/
def field (row : Dict String Value) (name : String) : Value := (Value.get row name).getD .none

/-- `value is not None`. -/
def isGiven : Value → Bool
  | .none => false
  | _ => true

/-- `record.setdefault(key, value)`. -/
def Record.setDefault (record : Record) (key : String) (value : Value) : Record where
  entries := Events.setDefault record.entries key value
  distinct := by
    unfold Events.setDefault
    split_ifs with missing
    · have absent : key ∉ Dict.keys record.entries := by
        intro member
        obtain ⟨⟨name, held⟩, inside, rfl⟩ := List.mem_map.mp member
        rw [Value.get, Dict.lookup_of_mem record.distinct inside] at missing
        cases missing
      rw [← Dict.set_of_not_mem value absent]
      exact Dict.nodup_set key value record.distinct
    · exact record.distinct

/-- `{**existing, **{k: v for k, v in payload.items() if v is not None}}`. -/
def mergeGiven (existing payload : Dict String Value) : Dict String Value :=
  Dict.update existing (payload.filter fun entry => isGiven entry.2)

/-- The first true value under some names: `row.get(a) or row.get(b)`. -/
def keyOf (names : List String) (row : Dict String Value) : Value :=
  names.foldr (fun name rest => Value.orElse (Value.get row name) rest) .none

def hasKey (names : List String) (key : Value) (row : Dict String Value) : Bool :=
  names.any fun name => (field row name).equal key

/-- Record a payload, stamped with a time: it is merged into the first row that has its key. -/
def upsertRow (stamp : String) (names : List String) (now : ℚ) (payload : Dict String Value)
    (rows : List (Dict String Value)) : List (Dict String Value) :=
  let payload := Events.setDefault payload stamp (.float now)
  let key := keyOf names payload
  let merged :=
    if key.truthy then mergeFirst (hasKey names key) (mergeGiven · payload) rows else none
  merged.getD (lastItems 500 (rows ++ [payload]))

/-- `add_grade`. -/
def addGrade (now : ℚ) (payload : Dict String Value) (gradeHistory : List (Dict String Value)) :
    List (Dict String Value) :=
  upsertRow "timestamp" ["trace_id"] now payload gradeHistory

/-- `upsert_trade_fill`. -/
def upsertTradeFill (now : ℚ) (trade : Dict String Value) (tradeFeed : List (Dict String Value)) :
    List (Dict String Value) :=
  upsertRow "created_at" ["execution_trace_id", "order_id"] now trade tradeFeed

/-! ## Rows with their sources -/

/-- A row with what went into it. -/
structure SourcedRow (τ : Type) where
  row : Dict String Value
  sources : List τ

section

variable {τ : Type}

def SourcedRow.merge (source : τ) (payload : Dict String Value) (kept : SourcedRow τ) :
    SourcedRow τ where
  row := mergeGiven kept.row payload
  sources := kept.sources ++ [source]

/-- `upsertRow` on rows with their sources. -/
def upsertSourced (stamp : String) (names : List String) (now : ℚ) (source : τ)
    (payload : Dict String Value) (rows : List (SourcedRow τ)) : List (SourcedRow τ) :=
  let payload := Events.setDefault payload stamp (.float now)
  let key := keyOf names payload
  let merged :=
    if key.truthy then mergeFirst (fun kept => hasKey names key kept.row) (.merge source payload)
      rows
    else none
  merged.getD (lastItems 500 (rows ++ [⟨payload, [source]⟩]))

/-- The rows are those of the store. -/
theorem row_upsertSourced (stamp : String) (names : List String) (now : ℚ) (source : τ)
    (payload : Dict String Value) (rows : List (SourcedRow τ)) :
    (upsertSourced stamp names now source payload rows).map SourcedRow.row =
      upsertRow stamp names now payload (rows.map SourcedRow.row) := by
  unfold upsertSourced upsertRow
  dsimp only
  generalize Events.setDefault payload stamp (.float now) = payload
  have fresh : (lastItems 500 (rows ++ [⟨payload, [source]⟩])).map SourcedRow.row =
      lastItems 500 (rows.map SourcedRow.row ++ [payload]) := by
    rw [← lastItems_map, List.map_append]
    rfl
  by_cases keyTrue : (keyOf names payload).truthy = true
  · have merges : (mergeFirst (fun kept => hasKey names (keyOf names payload) kept.row)
          (SourcedRow.merge source payload) rows).map (List.map SourcedRow.row) =
        mergeFirst (hasKey names (keyOf names payload)) (mergeGiven · payload)
          (rows.map SourcedRow.row) :=
      map_mergeFirst SourcedRow.row (fun _ _ => rfl) fun _ _ => rfl
    rw [if_pos keyTrue, if_pos keyTrue, ← Option.getD_map (List.map SourcedRow.row), fresh, merges]
  · rw [if_neg keyTrue, if_neg keyTrue, Option.getD_none, Option.getD_none, fresh]

end

/-! ## Deliveries -/

theorem nodup_decodeFields {codec : Codec} {fields : List (String × String)}
    {decoded : Dict String Value} (read : decodeFields codec fields = .ok decoded) :
    (Dict.keys decoded).Nodup := by
  have general (fields : List (String × String)) (held : Dict String Value)
      (distinct : (Dict.keys held).Nodup) (decoded : Dict String Value)
      (read : fields.foldlM (fun decoded entry => do
        return Dict.set entry.1 (← deserialize codec entry.2) decoded) held = .ok decoded) :
      (Dict.keys decoded).Nodup := by
    induction fields generalizing held with
    | nil =>
        cases read
        exact distinct
    | cons entry fields induction =>
        rw [List.foldlM_cons, bind_eq_ok] at read
        obtain ⟨next, stored, rest⟩ := read
        obtain ⟨value, -, kept⟩ := bind_eq_ok.mp stored
        cases kept
        exact induction _ (Dict.nodup_set _ _ distinct) rest
  exact general fields [] List.nodup_nil decoded read

/-- A call of the store, or its copy that has been through the bus. -/
inductive Delivery where
  | direct (payload : Record) (now : ℚ)
  | redelivered (payload : Record) (publishedAt : String) (now : ℚ)

/-- What a call is made with. -/
structure Call where
  payload : Record
  now : ℚ

/-- A copy that the bus cannot read back is not delivered. -/
def Delivery.call (codec : Codec) : Delivery → Option Call
  | .direct payload now => some { payload := payload, now := now }
  | .redelivered payload publishedAt now =>
      match read : decodeFields codec (eventFields codec.formatter payload.entries publishedAt) with
      | .ok decoded =>
          some { payload := ⟨decoded, nodup_decodeFields read⟩, now := now }
      | .error _ => none

/-! ## What keys a row -/

/-- Texts and numbers up to equality. -/
inductive Identity where
  | text (value : String)
  | number (value : ℚ)
  | infinite (value : NonFinite)
deriving DecidableEq

/-- What a text or a number is equal to itself by. -/
def identity : Value → Option Identity
  | .str text => some (.text text)
  | .bool value => some (.number (if value then 1 else 0))
  | .int value => some (.number value)
  | .float value => some (.number value)
  | .nonFinite .nan => none
  | .nonFinite value => some (.infinite value)
  | _ => none

/-- Equality with a text or a number is equality of identities. -/
theorem equal_iff_identity {key : Value} {known : Identity} (scalar : identity key = some known)
    (value : Value) : value.equal key = true ↔ identity value = some known := by
  cases key with
  | none => cases scalar
  | list items => cases scalar
  | dict entries => cases scalar
  | str text =>
      cases scalar
      cases value with
      | nonFinite value => cases value <;> simp [Value.equal, Value.number?, identity]
      | _ => simp [Value.equal, Value.number?, identity]
  | nonFinite limit =>
      cases limit with
      | nan => cases scalar
      | _ =>
          cases scalar
          cases value with
          | nonFinite value => cases value <;> simp [Value.equal, identity]
          | _ => simp [Value.equal, Value.number?, identity]
  | _ =>
      cases scalar
      cases value with
      | nonFinite value => cases value <;> simp [Value.equal, Value.number?, identity]
      | _ => simp [Value.equal, Value.number?, identity]

/-- Equal values are both true or both false. -/
theorem truthy_of_equal {value key : Value} (same : value.equal key = true)
    (keyTrue : key.truthy = true) : value.truthy = true := by
  cases value <;> cases key <;>
    simp only [Value.equal, Value.number?, Value.truthy, Bool.and_eq_true, decide_eq_true_eq,
      Bool.false_eq_true] at same keyTrue ⊢
  case bool.bool value key => cases value <;> cases key <;> simp_all
  case bool.int value key =>
    cases value with
    | true => rfl
    | false => exact (keyTrue (by exact_mod_cast same.symm)).elim
  case bool.float value key => cases value <;> simp_all
  case int.bool value key => cases key <;> simp_all
  case float.bool value key => cases key <;> simp_all
  case int.int value key => simp_all
  case int.float value key =>
    rintro rfl
    exact keyTrue (by simpa using same.symm)
  case float.int value key =>
    rintro rfl
    exact keyTrue (by exact_mod_cast same.symm)
  case float.float value key => rwa [same]
  case str.str value key => rwa [same]
  case list.list items keys =>
    cases items with
    | nil => cases keys <;> simp_all [Value.equalItems]
    | cons item items => rfl
  case dict.dict entries keys =>
    cases entries with
    | nil => cases keys <;> simp_all
    | cons entry entries => rfl

/-! ## The key of a row -/

theorem keyOf_cases (names : List String) (row : Dict String Value) :
    keyOf names row = .none ∨
      (keyOf names row).truthy = true ∧ ∃ name ∈ names, keyOf names row = field row name := by
  induction names with
  | nil => exact .inl rfl
  | cons name names induction =>
      have step : keyOf (name :: names) row = Value.orElse (Value.get row name) (keyOf names row) :=
        rfl
      rw [step]
      rcases held : Value.get row name with _ | value
      · rw [Value.orElse]
        rcases induction with none | ⟨isTrue, other, member, same⟩
        · exact .inl none
        · exact .inr ⟨isTrue, other, List.mem_cons_of_mem _ member, same⟩
      · rw [Value.orElse]
        by_cases first : value.truthy = true
        · rw [if_pos first]
          exact .inr ⟨first, name, List.mem_cons_self, by rw [field, held]; rfl⟩
        · rw [if_neg first]
          rcases induction with none | ⟨isTrue, other, member, same⟩
          · exact .inl none
          · exact .inr ⟨isTrue, other, List.mem_cons_of_mem _ member, same⟩

theorem keyOf_truthy_of_field {names : List String} {row : Dict String Value} {name : String}
    (member : name ∈ names) (isTrue : (field row name).truthy = true) :
    (keyOf names row).truthy = true := by
  induction names with
  | nil => cases member
  | cons first names induction =>
      have step : keyOf (first :: names) row =
          Value.orElse (Value.get row first) (keyOf names row) := rfl
      rw [step]
      by_cases held : (field row first).truthy = true
      · unfold field at held
        rcases found : Value.get row first with _ | value
        · rw [found] at held
          cases held
        · rw [found] at held
          have isHeld : value.truthy = true := held
          rwa [Value.orElse, if_pos isHeld]
      · have later : name ∈ names := by
          rcases List.mem_cons.mp member with rfl | later
          · exact (held isTrue).elim
          · exact later
        have rest := induction later
        unfold Value.orElse
        split
        · split_ifs with again
          · exact again
          · exact rest
        · exact rest

theorem keyOf_truthy_of_hasKey {names : List String} {row : Dict String Value} {key : Value}
    (keyTrue : key.truthy = true) (found : hasKey names key row = true) :
    (keyOf names row).truthy = true := by
  obtain ⟨name, member, same⟩ := List.any_eq_true.mp found
  exact keyOf_truthy_of_field member (truthy_of_equal same keyTrue)

/-- What a row is keyed by. -/
def rowIdentity (names : List String) (row : Dict String Value) : Option Identity :=
  identity (keyOf names row)

theorem hasKey_of_rowIdentity {names : List String} {row : Dict String Value} {key : Value}
    {known : Identity} (scalar : identity key = some known)
    (keyed : rowIdentity names row = some known) : hasKey names key row = true := by
  rcases keyOf_cases names row with none | ⟨-, name, member, same⟩
  · rw [rowIdentity, none] at keyed
    cases keyed
  · rw [rowIdentity, same] at keyed
    exact List.any_eq_true.mpr ⟨name, member, (equal_iff_identity scalar _).mpr keyed⟩

/-! ## What a merge makes of a row -/

theorem lookup_filter_given {entries : Dict String Value} (distinct : (Dict.keys entries).Nodup)
    (name : String) :
    (entries.filter fun entry => isGiven entry.2).lookup name =
      (entries.lookup name).filter isGiven := by
  induction entries with
  | nil => rfl
  | cons entry entries induction =>
      obtain ⟨held, value⟩ := entry
      rw [Dict.keys, List.map_cons, List.nodup_cons] at distinct
      have later := induction distinct.2
      by_cases same : name = held
      · subst same
        have absent : entries.lookup name = none := by
          rw [List.lookup_eq_none_iff]
          rintro ⟨other, found⟩ member
          rw [bne_iff_ne]
          rintro rfl
          exact distinct.1 (Dict.mem_keys_of_mem member)
        by_cases given : isGiven value = true
        · simp [given, Option.filter]
        · rw [absent] at later
          simpa [List.lookup_cons, given, Option.filter] using later
      · by_cases given : isGiven value = true
        · simp [List.lookup_cons, given, beq_false_of_ne same, later]
        · simp [List.lookup_cons, given, beq_false_of_ne same, later]

theorem field_mergeGiven (row : Dict String Value) (payload : Record) (name : String) :
    field (mergeGiven row payload.entries) name =
      if isGiven (field payload.entries name) then field payload.entries name
      else field row name := by
  have kept : (Dict.keys (payload.entries.filter fun entry => isGiven entry.2)).Nodup :=
    payload.distinct.sublist (List.filter_sublist.map _)
  rw [field, mergeGiven, Value.get, Dict.lookup_update _ _ kept,
    lookup_filter_given payload.distinct, field, field, Value.get, Value.get]
  rcases payload.entries.lookup name with _ | value
  · rfl
  · by_cases given : isGiven value = true
    · simp [given, Option.filter]
    · simp [given, Option.filter]

/-- The payload names the key first, or the row has nothing true under the first name. -/
def takesKey (names : List String) (payload : Record) (row : Dict String Value) : Bool :=
  let first := names.headD ""
  isGiven (field payload.entries first) || !(field row first).truthy

/-- A merge keys the row by the payload's key where it takes it, and leaves its key else. -/
def Rekeys (names : List String) : Prop :=
  ∀ payload row, (keyOf names payload.entries).truthy = true →
    keyOf names (mergeGiven row payload.entries) =
      if takesKey names payload row then keyOf names payload.entries else keyOf names row

theorem keyOf_cons (name : String) (names : List String) (row : Dict String Value) :
    keyOf (name :: names) row =
      if (field row name).truthy then field row name else keyOf names row := by
  show Value.orElse (Value.get row name) (keyOf names row) = _
  unfold field
  rcases Value.get row name with _ | value
  · rfl
  · rfl

theorem isGiven_of_truthy {value : Value} (isTrue : value.truthy = true) :
    isGiven value = true := by
  cases value <;> first | rfl | cases isTrue

theorem rekeys_single (name : String) : Rekeys [name] := by
  intro payload row keyTrue
  have nil (row : Dict String Value) : keyOf [] row = .none := rfl
  rw [keyOf_cons, nil] at keyTrue ⊢
  rw [keyOf_cons, nil]
  by_cases held : (field payload.entries name).truthy = true
  · have given := isGiven_of_truthy held
    simp [field_mergeGiven, given, held, takesKey]
  · rw [if_neg held] at keyTrue
    cases keyTrue

theorem rekeys_pair (first second : String) : Rekeys [first, second] := by
  intro payload row keyTrue
  have nil (row : Dict String Value) : keyOf [] row = .none := rfl
  simp only [keyOf_cons, nil, field_mergeGiven, takesKey, List.headD_cons] at keyTrue ⊢
  by_cases named : (field payload.entries first).truthy = true
  · simp [named, isGiven_of_truthy named]
  · rw [if_neg named] at keyTrue ⊢
    by_cases other : (field payload.entries second).truthy = true
    · have given := isGiven_of_truthy other
      by_cases set : isGiven (field payload.entries first) = true
      · simp [set, named, other, given]
      · by_cases held : (field row first).truthy = true
        · simp [set, held]
        · simp [set, held, other, given]
    · rw [if_neg other] at keyTrue
      cases keyTrue

/-! ## Rows with their deliveries -/

/-- A row with the payloads that went into it. -/
abbrev KeptRow := SourcedRow (Dict String Value)

/-- A payload with its time stamp. -/
def Call.stamped (stamp : String) (call : Call) : Record :=
  call.payload.setDefault stamp (.float call.now)

def Call.mergedInto (stamp : String) (call : Call) (kept : KeptRow) : KeptRow :=
  kept.merge (call.stamped stamp).entries (call.stamped stamp).entries

def Record.fresh (payload : Record) : KeptRow where
  row := payload.entries
  sources := [payload.entries]

section

variable (stamp : String) (names : List String)

/-- `upsertRow` on rows with their deliveries. -/
def upsertKept (rows : List KeptRow) (call : Call) : List KeptRow :=
  upsertSourced stamp names call.now (call.stamped stamp).entries call.payload.entries rows

/-- The value of a field says nothing. -/
def isBlank : Value → Bool
  | .none => true
  | .str text => text = ""
  | .list items => items.isEmpty
  | .dict entries => entries.isEmpty
  | _ => false

/-- What merged rows keep to. -/
structure MergeLaw (rows : List KeptRow) : Prop where
  /-- No two rows have one key. -/
  unique : (rows.filterMap fun kept => rowIdentity names kept.row).Nodup
  /-- A payload without a key is a row of its own. -/
  unmerged : ∀ kept ∈ rows, ∀ delivery ∈ kept.sources,
    (keyOf names delivery).truthy = false → kept = { row := delivery, sources := [delivery] }
  /-- What a delivery has filled stays filled. -/
  filled : ∀ kept ∈ rows, ∀ delivery ∈ kept.sources, ∀ name,
    isBlank (field delivery name) = false → isBlank (field kept.row name) = false

/-- A call that is merged brings no blank value, other than `None`, for what the row has filled. -/
def KeepsFilled (rows : List KeptRow) (call : Call) : Prop :=
  let payload := call.stamped stamp
  let key := keyOf names payload.entries
  key.truthy = true →
    ∀ kept ∈ rows.find? fun kept => hasKey names key kept.row,
      ∀ entry ∈ payload.entries, isGiven entry.2 = true → isBlank entry.2 = true →
        isBlank (field kept.row entry.1) = true

/-- A call whose key a row takes finds no other row with that key. -/
def KeyIsFree (rows : List KeptRow) (call : Call) : Prop :=
  let payload := call.stamped stamp
  let key := keyOf names payload.entries
  key.truthy = true →
    ∀ kept ∈ rows.find? fun kept => hasKey names key kept.row,
      takesKey names payload kept.row = true → ∀ known ∈ identity key,
        rowIdentity names kept.row = some known ∨
          ∀ other ∈ rows, rowIdentity names other.row ≠ some known

end

section

variable {stamp : String} {names : List String} {rows : List KeptRow} {call : Call}

theorem upsertKept_cases :
    (∃ before kept after, rows = before ++ kept :: after ∧
      (keyOf names (call.stamped stamp).entries).truthy = true ∧
      hasKey names (keyOf names (call.stamped stamp).entries) kept.row = true ∧
      (rows.find? fun kept => hasKey names (keyOf names (call.stamped stamp).entries) kept.row) =
        some kept ∧
      upsertKept stamp names rows call = before ++ call.mergedInto stamp kept :: after) ∨
    ((keyOf names (call.stamped stamp).entries).truthy = true →
        ∀ kept ∈ rows,
          hasKey names (keyOf names (call.stamped stamp).entries) kept.row = false) ∧
      upsertKept stamp names rows call =
        lastItems 500 (rows ++ [(call.stamped stamp).fresh]) := by
  have stamped : Events.setDefault call.payload.entries stamp (.float call.now) =
      (call.stamped stamp).entries := rfl
  unfold upsertKept upsertSourced
  rw [stamped]
  dsimp only
  by_cases keyTrue : (keyOf names (call.stamped stamp).entries).truthy = true
  · rw [if_pos keyTrue]
    rcases found : mergeFirst (fun kept => hasKey names
      (keyOf names (call.stamped stamp).entries) kept.row)
      (.merge (call.stamped stamp).entries (call.stamped stamp).entries) rows with _ | merged
    · exact .inr ⟨fun _ => mergeFirst_eq_none.mp found, by rw [found]; rfl⟩
    · obtain ⟨before, kept, after, rfl, isMatch, none, rfl⟩ := mergeFirst_eq_some found
      refine .inl ⟨before, kept, after, rfl, keyTrue, isMatch, ?_, by rw [found]; rfl⟩
      rw [List.find?_eq_some_iff_append]
      exact ⟨isMatch, before, after, rfl, fun other member => by simp [none other member]⟩
  · rw [if_neg keyTrue]
    exact .inr ⟨fun isTrue => (keyTrue isTrue).elim, rfl⟩

theorem truthy_of_identity {row : Dict String Value} {known : Identity}
    (keyed : rowIdentity names row = some known) : (keyOf names row).truthy = true := by
  rcases keyOf_cases names row with none | ⟨isTrue, -⟩
  · rw [rowIdentity, none] at keyed
    cases keyed
  · exact isTrue

theorem MergeLaw.append (law : MergeLaw names rows) {payload : Record}
    (free : (keyOf names payload.entries).truthy = true →
      ∀ kept ∈ rows, hasKey names (keyOf names payload.entries) kept.row = false) :
    MergeLaw names (rows ++ [payload.fresh]) := by
  constructor
  · rw [List.filterMap_append, List.nodup_append]
    refine ⟨law.unique, ?_, ?_⟩
    · rw [List.filterMap_cons]
      cases rowIdentity names payload.fresh.row <;> simp
    · intro known held other only same
      obtain ⟨kept, member, keyed⟩ := List.mem_filterMap.mp held
      obtain ⟨fresh, isFresh, freshKeyed⟩ := List.mem_filterMap.mp only
      rw [List.mem_singleton] at isFresh
      subst same isFresh
      have isTrue : (keyOf names payload.entries).truthy = true := truthy_of_identity freshKeyed
      have found := hasKey_of_rowIdentity freshKeyed keyed
      have unfound := free isTrue kept member
      rw [show keyOf names payload.fresh.row = keyOf names payload.entries from rfl,
        unfound] at found
      cases found
  · intro kept member delivery inside unkeyed
    rcases List.mem_append.mp member with old | new
    · exact law.unmerged kept old delivery inside unkeyed
    · rw [List.mem_singleton] at new
      subst new
      obtain rfl : delivery = payload.entries := List.mem_singleton.mp inside
      rfl
  · intro kept member delivery inside name given
    rcases List.mem_append.mp member with old | new
    · exact law.filled kept old delivery inside name given
    · rw [List.mem_singleton] at new
      subst new
      obtain rfl : delivery = payload.entries := List.mem_singleton.mp inside
      exact given

/-- A row that is changed in place keeps the keys apart where its key is its own. -/
theorem nodup_replace {before after : List KeptRow} {kept changed : KeptRow}
    (unique : ((before ++ kept :: after).filterMap fun kept => rowIdentity names kept.row).Nodup)
    (own : ∀ known, rowIdentity names changed.row = some known →
      rowIdentity names kept.row = some known ∨
        ∀ other ∈ before ++ kept :: after, rowIdentity names other.row ≠ some known) :
    ((before ++ changed :: after).filterMap fun kept => rowIdentity names kept.row).Nodup := by
  rw [List.filterMap_append, List.filterMap_cons] at unique ⊢
  rcases keyed : rowIdentity names changed.row with _ | known
  · rcases keyedOld : rowIdentity names kept.row with _ | old
    · rw [keyedOld] at unique
      exact unique
    · rw [keyedOld] at unique
      exact (List.nodup_cons.mp (List.nodup_middle.mp unique)).2
  · rcases own known keyed with same | free
    · rw [same] at unique
      exact unique
    · dsimp only
      have rest : (before.filterMap (fun kept => rowIdentity names kept.row) ++
          after.filterMap fun kept => rowIdentity names kept.row).Nodup := by
        rcases keyedOld : rowIdentity names kept.row with _ | old
        · rw [keyedOld] at unique
          exact unique
        · rw [keyedOld] at unique
          exact (List.nodup_cons.mp (List.nodup_middle.mp unique)).2
      refine List.nodup_middle.mpr (List.nodup_cons.mpr ⟨fun member => ?_, rest⟩)
      rw [← List.filterMap_append] at member
      obtain ⟨other, inside, same⟩ := List.mem_filterMap.mp member
      refine free other ?_ same
      rcases List.mem_append.mp inside with left | right
      · exact List.mem_append_left _ left
      · exact List.mem_append_right _ (List.mem_cons_of_mem _ right)

theorem MergeLaw.sublist (law : MergeLaw names rows) {fewer : List KeptRow}
    (sublist : fewer.Sublist rows) : MergeLaw names fewer where
  unique := law.unique.sublist (sublist.filterMap _)
  unmerged kept member := law.unmerged kept (sublist.subset member)
  filled kept member := law.filled kept (sublist.subset member)

theorem mem_entries_of_given {entries : Dict String Value} {name : String}
    (given : isGiven (field entries name) = true) : (name, field entries name) ∈ entries := by
  unfold field at given ⊢
  rcases found : Value.get entries name with _ | value
  · rw [found] at given
    cases given
  · exact Dict.mem_of_lookup found

theorem eq_or_mem_of_replaced {α : Type} {before after : List α} {kept changed other : α}
    (inside : other ∈ before ++ changed :: after) :
    other = changed ∨ other ∈ before ++ kept :: after := by
  rcases List.mem_append.mp inside with left | right
  · exact .inr (List.mem_append_left _ left)
  · rcases List.mem_cons.mp right with same | later
    · exact .inl same
    · exact .inr (List.mem_append_right _ (List.mem_cons_of_mem _ later))

/-! ### The row that a call is merged into -/

variable {kept : KeptRow}

theorem rowIdentity_mergedInto (rekeys : Rekeys names)
    (keyTrue : (keyOf names (call.stamped stamp).entries).truthy = true)
    (free : takesKey names (call.stamped stamp) kept.row = true →
      ∀ known ∈ identity (keyOf names (call.stamped stamp).entries),
        rowIdentity names kept.row = some known ∨
          ∀ other ∈ rows, rowIdentity names other.row ≠ some known) (known : Identity)
    (keyed : rowIdentity names (call.mergedInto stamp kept).row = some known) :
    rowIdentity names kept.row = some known ∨
      ∀ other ∈ rows, rowIdentity names other.row ≠ some known := by
  have mergedKey : identity (keyOf names (mergeGiven kept.row (call.stamped stamp).entries)) =
      some known := keyed
  rw [rekeys (call.stamped stamp) kept.row keyTrue] at mergedKey
  by_cases takes : takesKey names (call.stamped stamp) kept.row = true
  · rw [if_pos takes] at mergedKey
    exact free takes known mergedKey
  · rw [if_neg takes] at mergedKey
    exact .inl mergedKey

theorem MergeLaw.sources_mergedInto (law : MergeLaw names rows) (member : kept ∈ rows)
    (keyTrue : (keyOf names (call.stamped stamp).entries).truthy = true)
    (isMatch : hasKey names (keyOf names (call.stamped stamp).entries) kept.row = true) :
    ∀ delivery ∈ (call.mergedInto stamp kept).sources, (keyOf names delivery).truthy = true := by
  intro delivery delivered
  rcases List.mem_append.mp delivered with earlier | new
  · by_contra unkeyed
    rw [Bool.not_eq_true] at unkeyed
    have alone := law.unmerged kept member delivery earlier unkeyed
    have keyed := keyOf_truthy_of_hasKey keyTrue isMatch
    rw [alone, unkeyed] at keyed
    cases keyed
  · rw [List.mem_singleton] at new
    rw [new, keyTrue]

theorem MergeLaw.filled_mergedInto (law : MergeLaw names rows) (member : kept ∈ rows)
    (keeps : ∀ entry ∈ (call.stamped stamp).entries, isGiven entry.2 = true →
      isBlank entry.2 = true → isBlank (field kept.row entry.1) = true) :
    ∀ delivery ∈ (call.mergedInto stamp kept).sources, ∀ name,
      isBlank (field delivery name) = false →
        isBlank (field (call.mergedInto stamp kept).row name) = false := by
  intro delivery delivered name given
  show isBlank (field (mergeGiven kept.row (call.stamped stamp).entries) name) = false
  rw [field_mergeGiven]
  rcases List.mem_append.mp delivered with earlier | new
  · have held := law.filled kept member delivery earlier name given
    split_ifs with set
    · by_contra blank
      rw [Bool.not_eq_false] at blank
      have cleared := keeps _ (mem_entries_of_given set) set blank
      rw [held] at cleared
      cases cleared
    · exact held
  · rw [List.mem_singleton] at new
    subst new
    rw [if_pos]
    · exact given
    · cases shape : field (call.stamped stamp).entries name with
      | none => rw [shape] at given; cases given
      | _ => rfl

theorem MergeLaw.upsert (law : MergeLaw names rows) (rekeys : Rekeys names)
    (keeps : KeepsFilled stamp names rows call) (free : KeyIsFree stamp names rows call) :
    MergeLaw names (upsertKept stamp names rows call) := by
  rcases @upsertKept_cases stamp names rows call with
    ⟨before, kept, after, rfl, keyTrue, isMatch, first, merged⟩ | ⟨unheld, appended⟩
  · rw [merged]
    have member : kept ∈ before ++ kept :: after := by simp
    constructor
    · apply nodup_replace law.unique
      exact rowIdentity_mergedInto rekeys keyTrue (free keyTrue kept first)
    · intro other inside delivery delivered unkeyed
      rcases eq_or_mem_of_replaced inside with rfl | old
      · rw [law.sources_mergedInto member keyTrue isMatch delivery delivered] at unkeyed
        cases unkeyed
      · exact law.unmerged other old delivery delivered unkeyed
    · intro other inside delivery delivered
      rcases eq_or_mem_of_replaced inside with rfl | old
      · exact law.filled_mergedInto member (keeps keyTrue kept first) delivery delivered
      · exact law.filled other old delivery delivered
  · rw [appended]
    exact (law.append unheld).sublist (lastItems_sublist 500 _)

end

/-! ## Runs -/

section

variable {stamp : String} {names : List String}

/-- The run with its deliveries shows the rows of the store. -/
theorem row_foldl_upsertKept (calls : List Call) (rows : List KeptRow) :
    (calls.foldl (upsertKept stamp names) rows).map SourcedRow.row =
      calls.foldl (fun rows call => upsertRow stamp names call.now call.payload.entries rows)
        (rows.map SourcedRow.row) := by
  induction calls generalizing rows with
  | nil => rfl
  | cons call calls induction =>
      rw [List.foldl_cons, List.foldl_cons, induction, upsertKept, row_upsertSourced]

/-- Every state of a run keeps the law where every call meets its conditions. -/
theorem MergeLaw.run (rekeys : Rekeys names) {calls : List Call}
    (along : Along (upsertKept stamp names)
      (fun rows call => KeepsFilled stamp names rows call ∧ KeyIsFree stamp names rows call)
      [] calls) {earlier later : List Call} (split : calls = earlier ++ later) :
    MergeLaw names (earlier.foldl (upsertKept stamp names) []) := by
  rw [split, along_append] at along
  apply along.1.foldl (MergeLaw names)
  · exact ⟨by simp, by simp, by simp⟩
  · intro rows call needed law
    exact law.upsert rekeys needed.1 needed.2

theorem keyIsFree_single {name : String} (rows : List KeptRow) (call : Call) :
    KeyIsFree stamp [name] rows call := by
  intro keyTrue kept found _ known scalar
  have isMatch := List.find?_some found
  obtain ⟨only, member, same⟩ := List.any_eq_true.mp isMatch
  rw [List.mem_singleton] at member
  subst member
  have keyed : keyOf [only] kept.row = field kept.row only := by
    rw [keyOf_cons, if_pos (truthy_of_equal same keyTrue)]
  left
  rw [rowIdentity, keyed]
  exact (equal_iff_identity scalar _).mp same

end

/-- `add_grade` with the deliveries of each row. -/
def gradeKept : List KeptRow → Call → List KeptRow := upsertKept "timestamp" ["trace_id"]

/-- `upsert_trade_fill` with the deliveries of each row. -/
def fillKept : List KeptRow → Call → List KeptRow :=
  upsertKept "created_at" ["execution_trace_id", "order_id"]

/-- A grade that is merged brings no blank value, other than `None`, for a filled field. -/
def GradeKeeps : List KeptRow → Call → Prop := KeepsFilled "timestamp" ["trace_id"]

/-- So does a trade fill, and the key that its row takes is no other row's. -/
def FillKeeps (rows : List KeptRow) (call : Call) : Prop :=
  KeepsFilled "created_at" ["execution_trace_id", "order_id"] rows call ∧
    KeyIsFree "created_at" ["execution_trace_id", "order_id"] rows call

/-- Through every delivery, grades and trade fills are told apart by their keys and only gain
information, as long as no blank text comes in over a filled field and no fill takes another row's
key. -/
theorem merged_rows_lawful (codec : Codec) (deliveries : List Delivery) :
    let calls := deliveries.filterMap (·.call codec)
    (Along gradeKept GradeKeeps [] calls → ∀ earlier later, calls = earlier ++ later →
      (earlier.foldl gradeKept []).map SourcedRow.row =
          earlier.foldl (fun rows call => addGrade call.now call.payload.entries rows) [] ∧
        MergeLaw ["trace_id"] (earlier.foldl gradeKept [])) ∧
    (Along fillKept FillKeeps [] calls → ∀ earlier later, calls = earlier ++ later →
      (earlier.foldl fillKept []).map SourcedRow.row =
          earlier.foldl (fun rows call => upsertTradeFill call.now call.payload.entries rows) [] ∧
        MergeLaw ["execution_trace_id", "order_id"] (earlier.foldl fillKept [])) := by
  intro calls
  constructor
  · intro along earlier later split
    refine ⟨row_foldl_upsertKept earlier [], ?_⟩
    apply MergeLaw.run (rekeys_single "trace_id") _ split
    exact along.weaken fun rows call keeps => ⟨keeps, keyIsFree_single rows call⟩
  · intro along earlier later split
    refine ⟨row_foldl_upsertKept earlier [], ?_⟩
    exact MergeLaw.run (rekeys_pair "execution_trace_id" "order_id") along split

instance (rows : List KeptRow) (call : Call) : Decidable (GradeKeeps rows call) :=
  inferInstanceAs (Decidable (_ → ∀ kept ∈ _, ∀ entry ∈ _, _ → _ → _))

instance (rows : List KeptRow) (call : Call) : Decidable (FillKeeps rows call) :=
  inferInstanceAs (Decidable ((_ → ∀ kept ∈ _, ∀ entry ∈ _, _ → _ → _) ∧
    (_ → ∀ kept ∈ _, _ → ∀ known ∈ _, _ ∨ ∀ other ∈ _, _ ≠ _)))

/-- A grade with a score, and one that has only a correction. -/
def scored : Record := ⟨[("trace_id", .str "t-1"), ("grade", .str "B")], by decide⟩

def corrected : Record :=
  ⟨[("trace_id", .str "t-1"), ("grade", .none), ("self_correction", .str "size")], by decide⟩

def plainBus : Codec := Codec.ofRuntime Reference.decimalRuntime 899

def midnight : String := "1970-01-01T00:00:00+00:00"

theorem merged_rows_lawful_again :
    let deliveries : List Delivery := [.redelivered scored midnight 1, .direct corrected 2,
      .direct scored 3]
    let calls := deliveries.filterMap (·.call plainBus)
    MergeLaw ["trace_id"] (calls.foldl gradeKept []) ∧
      MergeLaw ["execution_trace_id", "order_id"] (calls.foldl fillKept []) := by
  intro deliveries calls
  have both := merged_rows_lawful plainBus deliveries
  exact ⟨(both.1 (by decide +kernel) calls [] (List.append_nil _).symm).2,
    (both.2 (by decide +kernel) calls [] (List.append_nil _).symm).2⟩

/-- A fill with an execution id, an order id, or both. -/
def fillOf (entries : Dict String Value) (distinct : (Dict.keys entries).Nodup) : Call :=
  ⟨⟨entries, distinct⟩, 0⟩

/-- Two rows end with one key where the first one of them takes it from its order id. -/
example :
    let calls := [fillOf [("execution_trace_id", .str "e-1")] (by decide),
      fillOf [("order_id", .str "o-1")] (by decide),
      fillOf [("execution_trace_id", .str "e-1"), ("order_id", .str "o-1")] (by decide),
      fillOf [("execution_trace_id", .str "o-1")] (by decide)]
    (calls.foldl fillKept []).map (fun kept =>
        rowIdentity ["execution_trace_id", "order_id"] kept.row) =
      [some (.text "o-1"), some (.text "o-1")] := by
  decide +kernel

/-- The `None` of a correction is an empty text once it has been through the bus, and it takes the
grade away. -/
theorem redelivered_none_empties :
    let deliveries : List Delivery := [.direct scored 1, .direct corrected 2,
      .redelivered corrected midnight 3]
    let calls := deliveries.filterMap (·.call plainBus)
    ((calls.take 2).foldl gradeKept []).map (fun kept => isBlank (field kept.row "grade")) =
        [false] ∧
      (calls.foldl gradeKept []).map (fun kept => isBlank (field kept.row "grade")) = [true] ∧
      ¬MergeLaw ["trace_id"] (calls.foldl gradeKept []) := by
  intro deliveries calls
  have emptied : ∃ kept ∈ calls.foldl gradeKept [], ∃ delivery ∈ kept.sources,
      isBlank (field delivery "grade") = false ∧ isBlank (field kept.row "grade") = true := by
    decide +kernel
  refine ⟨by decide +kernel, by decide +kernel, ?_⟩
  intro law
  obtain ⟨kept, member, delivery, inside, given, blank⟩ := emptied
  rw [law.filled kept member delivery inside "grade" given] at blank
  cases blank

end TradingControl.Dashboard
