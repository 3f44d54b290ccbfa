import TradingControl.Events.Decoding
import TradingControl.Python.JsonRead
import TradingControl.Python.Reference

/-!
# Events that travel again

A retry and a replay publish what was read back.  This file says which values come back as they were
sent, and which events no further hop changes.
-/

namespace TradingControl.Events

open Python

/-! ## Hops -/

/-- `_serialize` with its fallback; a value that `json.dumps` refuses has no `str` either. -/
def serializeOrRaise (codec : Codec) (value : Value) : Except Raised String :=
  match Json.dumps codec.runtime codec.depth {} value with
  | .ok _ => .ok (serialize codec.formatter value)
  | .error raised => .error raised

/-- The event with the fields that `publish` adds where they are missing. -/
def published (event : Dict String Value) (now : String) : Dict String Value :=
  setDefault (setDefault event "schema_version" (.str "v3")) "timestamp" (.str now)

/-- One field, as it is sent. -/
def encodeField (codec : Codec) (entry : String × Value) : Except Raised (String × String) := do
  return (entry.1, ← serializeOrRaise codec entry.2)

/-- Publish an event and read it back. -/
def hop (codec : Codec) (event : Dict String Value) (now : String) :
    Except Raised (Dict String Value) := do
  decodeFields codec (← (published event now).mapM (encodeField codec))

/-- One value, sent and read back. -/
def carry (codec : Codec) (value : Value) : Except Raised Value := do
  deserialize codec (← serializeOrRaise codec value)

/-- Every value of an event carried, under its key. -/
abbrev Carried (codec : Codec) : Dict String Value → Dict String Value → Prop :=
  List.Forall₂ fun entry item => item.1 = entry.1 ∧ carry codec entry.2 = .ok item.2

/-! ## Values one by one -/

theorem encodeField_eq_ok {codec : Codec} {entry : String × Value} {field : String × String}
    (sent : encodeField codec entry = .ok field) :
    field.1 = entry.1 ∧ serializeOrRaise codec entry.2 = .ok field.2 := by
  obtain ⟨text, written, same⟩ := bind_eq_ok.mp sent
  cases same
  exact ⟨rfl, written⟩

theorem keys_of_encoded {codec : Codec} {entries : Dict String Value}
    {fields : List (String × String)} (sent : entries.mapM (encodeField codec) = .ok fields) :
    Dict.keys fields = Dict.keys entries := by
  induction Json.mapM_eq_ok_iff.mp sent with
  | nil => rfl
  | cons first others induction =>
      exact congrArg₂ List.cons (encodeField_eq_ok first).1
        (induction (Json.mapM_eq_ok_iff.mpr others))

/-- Fields that are sent and read back, value by value. -/
theorem carried_iff {codec : Codec} {entries received : Dict String Value} :
    (∃ fields, entries.mapM (encodeField codec) = .ok fields ∧
      fields.mapM (decodeField codec) = .ok received) ↔
        Carried codec entries received := by
  simp only [Json.mapM_eq_ok_iff]
  induction entries generalizing received with
  | nil =>
      constructor
      · rintro ⟨_, ⟨⟩, ⟨⟩⟩
        exact .nil
      · rintro ⟨⟩
        exact ⟨[], .nil, .nil⟩
  | cons entry entries induction =>
      constructor
      · rintro ⟨_, sent, back⟩
        cases sent with
        | @cons _ field _ fields first others =>
            cases back with
            | cons firstBack othersBack =>
                obtain ⟨key, written⟩ := encodeField_eq_ok first
                obtain ⟨name, decoded⟩ := decodeField_eq_ok firstBack
                exact .cons ⟨name.trans key, bind_eq_ok.mpr ⟨_, written, decoded⟩⟩
                  (induction.mp ⟨fields, others, othersBack⟩)
      · intro each
        cases each with
        | @cons _ item _ items first others =>
            obtain ⟨text, written, decoded⟩ := bind_eq_ok.mp first.2
            obtain ⟨fields, sent, back⟩ := induction.mpr others
            have encoded : encodeField codec entry = .ok (entry.1, text) := by
              rw [encodeField, written]
              rfl
            have read : decodeField codec (entry.1, text) = .ok item := by
              rw [decodeField, decoded, ← first.1]
              rfl
            exact ⟨(entry.1, text) :: fields, .cons encoded sent, .cons read back⟩

theorem hop_eq_ok_iff {codec : Codec} {event received : Dict String Value} {now : String}
    (distinct : (Dict.keys (published event now)).Nodup) :
    hop codec event now = .ok received ↔ Carried codec (published event now) received := by
  rw [hop, bind_eq_ok, ← carried_iff]
  refine exists_congr fun fields => and_congr_right fun sent => ?_
  rw [decodeFields_eq codec (keys_of_encoded sent ▸ distinct)]

theorem setDefault_of_mem {event : Dict String Value} {key : String}
    (member : key ∈ Dict.keys event) (value : Value) : setDefault event key value = event := by
  rw [setDefault, if_neg]
  intro absent
  obtain ⟨entry, held, rfl⟩ := List.mem_map.mp member
  rw [Option.isNone_iff_eq_none, Value.get, List.lookup_eq_none_iff] at absent
  simpa using absent entry held

theorem setDefault_of_not_mem {event : Dict String Value} {key : String}
    (absent : key ∉ Dict.keys event) (value : Value) :
    setDefault event key value = event ++ [(key, value)] := by
  rw [setDefault, if_pos]
  rw [Option.isNone_iff_eq_none, Value.get, List.lookup_eq_none_iff]
  intro entry member
  have other : key ≠ entry.1 := fun same => absent (same ▸ List.mem_map_of_mem member)
  simpa using other

theorem keys_setDefault (event : Dict String Value) (key : String) (value : Value) :
    Dict.keys (setDefault event key value) =
      if key ∈ Dict.keys event then Dict.keys event else Dict.keys event ++ [key] := by
  split_ifs with member
  · rw [setDefault_of_mem member]
  · rw [setDefault_of_not_mem member]
    simp [Dict.keys]

theorem nodup_setDefault {event : Dict String Value} (distinct : (Dict.keys event).Nodup)
    (key : String) (value : Value) : (Dict.keys (setDefault event key value)).Nodup := by
  rw [keys_setDefault]
  split_ifs with member
  · exact distinct
  · rw [List.nodup_append]
    refine ⟨distinct, List.nodup_singleton _, ?_⟩
    rintro held heldMember _ same rfl
    rw [List.mem_singleton] at same
    exact member (same ▸ heldMember)

theorem nodup_published {event : Dict String Value} (distinct : (Dict.keys event).Nodup)
    (now : String) : (Dict.keys (published event now)).Nodup :=
  nodup_setDefault (nodup_setDefault distinct _ _) _ _

theorem mem_keys_setDefault (event : Dict String Value) (key : String) (value : Value) :
    key ∈ Dict.keys (setDefault event key value) := by
  rw [keys_setDefault]
  split_ifs with member
  · exact member
  · exact List.mem_append_right _ List.mem_cons_self

theorem subset_keys_setDefault (event : Dict String Value) (key : String) (value : Value) :
    Dict.keys event ⊆ Dict.keys (setDefault event key value) := by
  rw [keys_setDefault]
  split_ifs
  · exact List.Subset.refl _
  · exact List.subset_append_left _ _

/-- `publish` adds nothing to what was published. -/
theorem published_of_keys {event received : Dict String Value} {now : String}
    (same : Dict.keys received = Dict.keys (published event now)) (later : String) :
    published received later = received := by
  have version : "schema_version" ∈ Dict.keys received :=
    same ▸ subset_keys_setDefault _ _ _ (mem_keys_setDefault event _ _)
  have timestamp : "timestamp" ∈ Dict.keys received := same ▸ mem_keys_setDefault _ _ _
  rw [published, setDefault_of_mem version, setDefault_of_mem timestamp]

theorem mem_published {event : Dict String Value} {now : String} {entry : String × Value}
    (member : entry ∈ published event now) :
    entry ∈ event ∨ entry = ("schema_version", .str "v3") ∨ entry = ("timestamp", .str now) := by
  have either : ∀ {held : Dict String Value} {key : String} {value : Value},
      entry ∈ setDefault held key value → entry ∈ held ∨ entry = (key, value) := by
    intro held key value inside
    rw [setDefault] at inside
    split_ifs at inside
    · exact (List.mem_append.mp inside).imp_right List.mem_singleton.mp
    · exact Or.inl inside
  rcases either member with earlier | same
  · exact (either earlier).imp_right Or.inl
  · exact Or.inr (Or.inr same)

theorem mem_published_of_mem {event : Dict String Value} {entry : String × Value}
    (member : entry ∈ event) (now : String) : entry ∈ published event now := by
  have kept : ∀ {held : Dict String Value} {key : String} {value : Value},
      entry ∈ held → entry ∈ setDefault held key value := by
    intro held key value inside
    rw [setDefault]
    split_ifs
    · exact List.mem_append_left _ inside
    · exact inside
  exact kept (kept member)

/-! ## Texts -/

/-- The text starts as an object, a list or a text does. -/
def looksLikeJson (text : String) : Bool :=
  startsWith text "\x7b" || startsWith text "[" || startsWith text "\""

/-- Exceptions of `json.loads` that `_deserialize` catches. -/
def Caught (raised : Raised) : Prop := raised = .jsonDecodeError ∨ raised = .typeError

/-- The text is no truth value, and no JSON where it looks like JSON. -/
structure Survives (codec : Codec) (text : String) : Prop where
  notTrue : lower text ≠ "true"
  notFalse : lower text ≠ "false"
  noJson : looksLikeJson text = true →
    ∃ raised, Json.loads codec.runtime codec.depth text = .error raised ∧ Caught raised

theorem deserialize_of_looksLikeJson {codec : Codec} {text : String}
    (notTrue : lower text ≠ "true") (notFalse : lower text ≠ "false")
    (looks : looksLikeJson text = true) :
    deserialize codec text =
      match Json.loads codec.runtime codec.depth text with
      | .ok decoded => .ok decoded
      | .error .jsonDecodeError => .ok (.str text)
      | .error .typeError => .ok (.str text)
      | .error error => .error error := by
  rw [looksLikeJson] at looks
  rw [deserialize, if_neg notTrue, if_neg notFalse]
  exact if_pos looks

theorem deserialize_of_not_looksLikeJson {codec : Codec} {text : String}
    (notTrue : lower text ≠ "true") (notFalse : lower text ≠ "false")
    (other : looksLikeJson text = false) : deserialize codec text = .ok (.str text) := by
  rw [looksLikeJson] at other
  rw [deserialize, if_neg notTrue, if_neg notFalse, if_neg]
  rw [other]
  exact Bool.false_ne_true

/-- A text is read back as itself exactly when it says nothing else. -/
theorem deserialize_eq_self_iff (codec : Codec) (text : String) :
    deserialize codec text = .ok (.str text) ↔ Survives codec text := by
  by_cases isTrue : lower text = "true"
  · have read : deserialize codec text = .ok (.bool true) := if_pos isTrue
    rw [read]
    exact iff_of_false (by simp) fun survives => survives.notTrue isTrue
  by_cases isFalse : lower text = "false"
  · have read : deserialize codec text = .ok (.bool false) := by
      rw [deserialize, if_neg isTrue, if_pos isFalse]
    rw [read]
    exact iff_of_false (by simp) fun survives => survives.notFalse isFalse
  cases looks : looksLikeJson text with
  | false =>
      rw [deserialize_of_not_looksLikeJson isTrue isFalse looks]
      exact iff_of_true rfl ⟨isTrue, isFalse, fun seems => by rw [looks] at seems; cases seems⟩
  | true =>
      rw [deserialize_of_looksLikeJson isTrue isFalse looks]
      cases loaded : Json.loads codec.runtime codec.depth text with
      | ok value =>
          constructor
          · intro same
            have self : value = .str text := Except.ok.inj same
            exact absurd (self ▸ loaded) (Json.loads_ne_self _ _ text)
          · intro survives
            obtain ⟨raised, fails, -⟩ := survives.noJson looks
            rw [loaded] at fails
            cases fails
      | error raised =>
          constructor
          · intro same
            refine ⟨isTrue, isFalse, fun _ => ⟨raised, loaded, ?_⟩⟩
            cases raised <;> first | exact Or.inl rfl | exact Or.inr rfl | cases same
          · intro survives
            obtain ⟨held, fails, caught⟩ := survives.noJson looks
            rw [loaded] at fails
            cases fails
            rcases caught with rfl | rfl <;> rfl

/-- Texts that no hop after the first one changes: they make `json.loads` raise nothing that is not
caught, and where they are the JSON of a text, that text survives. -/
structure SettledText (codec : Codec) (text : String) : Prop where
  caught : looksLikeJson text = true → ∀ raised,
    Json.loads codec.runtime codec.depth text = .error raised → Caught raised
  inner : looksLikeJson text = true → ∀ inner,
    Json.loads codec.runtime codec.depth text = .ok (.str inner) → Survives codec inner

/-- Values that no hop after the first one changes. -/
structure Settled (codec : Codec) (value : Value) : Prop where
  fits : Json.Fits codec.depth value
  text : ∀ text, value = .str text → SettledText codec text

theorem looksLikeJson_iff (text : String) :
    looksLikeJson text = true ↔ ∃ letter, text.toList.head? = some letter ∧
      (letter = '\x7b' ∨ letter = '[' ∨ letter = '\x22') := by
  have each := startsWith_single text
  rw [looksLikeJson, Bool.or_eq_true, Bool.or_eq_true]
  rw [show startsWith text "\x7b" = true ↔ _ from each '\x7b',
    show startsWith text "[" = true ↔ _ from each '[',
    show startsWith text "\"" = true ↔ _ from each '\x22']
  constructor
  · rintro ((brace | bracket) | quote)
    · exact ⟨_, brace, Or.inl rfl⟩
    · exact ⟨_, bracket, Or.inr (Or.inl rfl)⟩
    · exact ⟨_, quote, Or.inr (Or.inr rfl)⟩
  · rintro ⟨letter, first, rfl | rfl | rfl⟩
    · exact Or.inl (Or.inl first)
    · exact Or.inl (Or.inr first)
    · exact Or.inr first

/-! ## Values that come back -/

theorem serializeOrRaise_of_fits {codec : Codec} {value : Value}
    (fits : Json.Fits codec.depth value) :
    serializeOrRaise codec value = .ok (serialize codec.formatter value) := by
  have written := (Json.dumps_isOk_iff codec.runtime codec.depth {} value).mpr fits
  rw [serializeOrRaise]
  cases dumped : Json.dumps codec.runtime codec.depth {} value with
  | ok text => rfl
  | error raised => rw [dumped] at written; cases written

theorem fits_of_carry {codec : Codec} {value result : Value}
    (carried : carry codec value = .ok result) : Json.Fits codec.depth value := by
  obtain ⟨text, written, -⟩ := bind_eq_ok.mp carried
  rw [← Json.dumps_isOk_iff codec.runtime codec.depth {} value]
  rw [serializeOrRaise] at written
  cases dumped : Json.dumps codec.runtime codec.depth {} value with
  | ok text => rfl
  | error raised => rw [dumped] at written; cases written

theorem carry_of_fits {codec : Codec} {value : Value} (fits : Json.Fits codec.depth value) :
    carry codec value = deserialize codec (serialize codec.formatter value) := by
  rw [carry, serializeOrRaise_of_fits fits]
  rfl

@[simp] theorem carry_str (codec : Codec) (text : String) :
    carry codec (.str text) = deserialize codec text :=
  carry_of_fits (Json.fits_of_scalar _ (by simp) (by simp) (by simp))

section

variable {runtime : Runtime} {depth : ℕ}

/-- A dictionary is read back from what it was published as. -/
theorem deserialize_dumps_dict {entries : Dict String Value} {text : String}
    (written : Json.dumps runtime depth {} (.dict entries) = .ok text)
    (faithful : Json.Faithful runtime (.dict entries)) :
    deserialize (Codec.ofRuntime runtime depth) text = .ok (.dict entries) := by
  have reads := @Json.loads_dumps runtime depth {} (.dict entries) text written faithful ""
    (by simp)
  rw [String.append_empty] at reads
  obtain ⟨rest, shape⟩ := toList_dumps_nested rfl (fun _ => rfl) written
  have looks : looksLikeJson text = true :=
    (looksLikeJson_iff text).mpr ⟨_, by rw [shape]; rfl, Or.inl rfl⟩
  have notTrue : lower text ≠ "true" := lower_ne_of_head shape (by decide)
  have notFalse : lower text ≠ "false" := lower_ne_of_head shape (by decide)
  rw [deserialize_of_looksLikeJson notTrue notFalse looks]
  simp only [Codec.ofRuntime, reads]
  rfl

theorem carry_nested {value : Value} (fits : Json.Fits depth value)
    (faithful : Json.Faithful runtime value)
    (nested : (∃ items, value = .list items) ∨ ∃ entries, value = .dict entries) :
    carry (Codec.ofRuntime runtime depth) value = .ok value := by
  have written := (Json.dumps_isOk_iff runtime depth {} value).mpr fits
  cases dumped : Json.dumps runtime depth {} value with
  | error raised => rw [dumped] at written; cases written
  | ok text =>
      rw [carry_of_fits fits]
      rcases nested with ⟨items, rfl⟩ | ⟨entries, rfl⟩
      · simp only [Codec.ofRuntime, serialize, dumped]
        exact deserialize_dumps_list dumped faithful
      · simp only [Codec.ofRuntime, serialize, dumped]
        exact deserialize_dumps_dict dumped faithful

/-- A text that says nothing else stays as it is once it has been read. -/
theorem carry_of_survives {codec : Codec} {text : String} (survives : Survives codec text) :
    carry codec (.str text) = .ok (.str text) := by
  rw [carry_str]
  exact (deserialize_eq_self_iff codec text).mpr survives

theorem plain_toString_int (number : ℤ) : Plain (toString number) := by
  rw [Int.toString_eq_repr, Int.repr_eq_if]
  split_ifs with natural
  · cases shape : number.toNat.repr.toList with
    | nil =>
        rw [Nat.toList_repr] at shape
        exact absurd shape Nat.toDigits_ne_nil
    | cons letter rest =>
        refine plain_of_lead shape (Or.inr ?_)
        rw [Nat.toList_repr] at shape
        have member : letter ∈ Nat.toDigits 10 number.toNat := shape ▸ List.mem_cons_self
        exact Nat.isDigit_of_mem_toDigits (by decide) (by decide) member
  · have shape : ("-" ++ (-number).toNat.repr).toList = '-' :: (-number).toNat.repr.toList := by
      rw [String.toList_append]
      rfl
    exact plain_of_lead shape (Or.inl rfl)

/-- The first hop takes a value to one that the second leaves alone. -/
def Arrives (codec : Codec) (value : Value) : Prop :=
  ∃ result, carry codec value = .ok result ∧ carry codec result = .ok result

theorem carry_of_plain {codec : Codec} {value : Value} (fits : Json.Fits codec.depth value)
    (plain : Plain (serialize codec.formatter value)) :
    carry codec value = .ok (.str (serialize codec.formatter value)) :=
  (carry_of_fits fits).trans (deserialize_of_plain codec plain)

theorem arrives_of_plain {codec : Codec} {value : Value} (fits : Json.Fits codec.depth value)
    (plain : Plain (serialize codec.formatter value)) : Arrives codec value := by
  refine ⟨_, carry_of_plain fits plain, ?_⟩
  rw [carry_str]
  exact deserialize_of_plain codec plain

@[simp] theorem carry_none (codec : Codec) : carry codec .none = .ok (.str "") := by
  have plain : Plain "" := by decide
  exact carry_of_plain (Json.fits_of_scalar _ (by simp) (by simp) (by simp)) plain

theorem carry_float {x : ℚ} (prints : Json.FloatText runtime x) :
    carry (Codec.ofRuntime runtime depth) (.float x) = .ok (.str (runtime.text x)) :=
  carry_of_plain (Json.fits_of_scalar _ (by simp) (by simp) (by simp)) (plain_of_floatText prints).1

theorem carry_bool (value : Bool) :
    carry (Codec.ofRuntime runtime depth) (.bool value) = .ok (.bool value) := by
  have isTrue : lower "True" = "true" := by decide
  have isFalse : lower "False" = "false" := by decide
  have notTrue : lower "False" ≠ "true" := by decide
  rw [carry_of_fits (Json.fits_of_scalar _ (by simp) (by simp) (by simp))]
  cases value with
  | true => exact if_pos isTrue
  | false =>
      change deserialize _ "False" = _
      rw [deserialize, if_neg notTrue, if_pos isFalse]

/-- Truth values, numbers and `None`. -/
theorem arrives_scalar {value : Value} (fits : Json.Fits depth value)
    (faithful : Json.Faithful runtime value) (noText : ∀ text, value ≠ .str text)
    (noList : ∀ items, value ≠ .list items) (noDict : ∀ entries, value ≠ .dict entries) :
    Arrives (Codec.ofRuntime runtime depth) value := by
  cases faithful with
  | none =>
      have plain : Plain "" := by decide
      exact arrives_of_plain fits plain
  | bool value => exact ⟨_, carry_bool value, carry_bool value⟩
  | int number => exact arrives_of_plain fits (plain_toString_int number)
  | float x prints => exact arrives_of_plain fits (plain_of_floatText prints).1
  | nonFinite value =>
      have plain : ∀ value : NonFinite, Plain value.text := by rintro ⟨⟩ <;> decide
      exact arrives_of_plain fits (plain value)
  | str text => exact absurd rfl (noText text)
  | list items all => exact absurd rfl (noList items)
  | dict entries distinct all => exact absurd rfl (noDict entries)

/-- A text that looks like JSON is no truth value. -/
theorem no_word_of_looksLikeJson {text : String} (looks : looksLikeJson text = true) :
    lower text ≠ "true" ∧ lower text ≠ "false" := by
  obtain ⟨letter, first, starts⟩ := (looksLikeJson_iff text).mp looks
  obtain ⟨rest, shape⟩ := List.head?_eq_some_iff.mp first
  constructor
  · exact lower_ne_of_head shape (by rcases starts with rfl | rfl | rfl <;> decide)
  · exact lower_ne_of_head shape (by rcases starts with rfl | rfl | rfl <;> decide)

/-- A truth value, and every other text that does not look like JSON. -/
theorem arrives_of_not_looksLikeJson {text : String} (other : looksLikeJson text = false) :
    Arrives (Codec.ofRuntime runtime depth) (.str text) := by
  by_cases isTrue : lower text = "true"
  · exact ⟨.bool true, (carry_str _ text).trans (if_pos isTrue), carry_bool true⟩
  by_cases isFalse : lower text = "false"
  · refine ⟨.bool false, ?_, carry_bool false⟩
    rw [carry_str, deserialize, if_neg isTrue, if_pos isFalse]
  have read := @deserialize_of_not_looksLikeJson (Codec.ofRuntime runtime depth) text isTrue
    isFalse other
  exact ⟨.str text, (carry_str _ text).trans read, (carry_str _ text).trans read⟩

theorem arrives_of_loads (prints : ∀ text x, runtime.parseFloat text = some x →
    Json.FloatText runtime x) {text : String} (looks : looksLikeJson text = true) {value : Value}
    (loaded : Json.loads runtime depth text = .ok value) :
    Arrives (Codec.ofRuntime runtime depth) (.str text) ↔
      ∀ inner, value = .str inner → Survives (Codec.ofRuntime runtime depth) inner := by
  obtain ⟨letter, first, starts⟩ := (looksLikeJson_iff text).mp looks
  obtain ⟨notTrue, notFalse⟩ := no_word_of_looksLikeJson looks
  have carried : carry (Codec.ofRuntime runtime depth) (.str text) = .ok value := by
    rw [carry_str, deserialize_of_looksLikeJson notTrue notFalse looks]
    simp only [Codec.ofRuntime, loaded]
  have again : Arrives (Codec.ofRuntime runtime depth) (.str text) ↔
      carry (Codec.ofRuntime runtime depth) value = .ok value := by
    constructor
    · rintro ⟨result, once, twice⟩
      rw [carried] at once
      cases once
      exact twice
    · exact fun twice => ⟨value, carried, twice⟩
  rw [again]
  obtain ⟨fits, faithful⟩ := Json.loads_spec prints loaded
  rcases Json.loads_kind first starts loaded with ⟨items, rfl⟩ | ⟨entries, rfl⟩ | ⟨inner, rfl⟩
  · refine iff_of_true (carry_nested fits faithful (Or.inl ⟨items, rfl⟩)) fun inner same => ?_
    cases same
  · refine iff_of_true (carry_nested fits faithful (Or.inr ⟨entries, rfl⟩)) fun inner same => ?_
    cases same
  · rw [carry_str, deserialize_eq_self_iff]
    constructor
    · rintro survives _ ⟨⟩
      exact survives
    · exact fun survives => survives inner rfl

theorem arrives_of_fails {text : String} (looks : looksLikeJson text = true) {raised : Raised}
    (fails : Json.loads runtime depth text = .error raised) :
    Arrives (Codec.ofRuntime runtime depth) (.str text) ↔ Caught raised := by
  obtain ⟨notTrue, notFalse⟩ := no_word_of_looksLikeJson looks
  constructor
  · rintro ⟨result, carried, -⟩
    rw [carry_str, deserialize_of_looksLikeJson notTrue notFalse looks] at carried
    simp only [Codec.ofRuntime, fails] at carried
    cases raised <;> first | exact Or.inl rfl | exact Or.inr rfl | cases carried
  · intro caught
    have survives : Survives (Codec.ofRuntime runtime depth) text :=
      ⟨notTrue, notFalse, fun _ => ⟨raised, fails, caught⟩⟩
    exact ⟨_, carry_of_survives survives, carry_of_survives survives⟩

theorem arrives_text_iff (prints : ∀ text x, runtime.parseFloat text = some x →
    Json.FloatText runtime x) (text : String) :
    Arrives (Codec.ofRuntime runtime depth) (.str text) ↔
      SettledText (Codec.ofRuntime runtime depth) text := by
  cases looks : looksLikeJson text with
  | false =>
      refine iff_of_true (arrives_of_not_looksLikeJson looks) ⟨fun seems => ?_, fun seems => ?_⟩
      · rw [looks] at seems
        cases seems
      · rw [looks] at seems
        cases seems
  | true =>
      cases loaded : Json.loads runtime depth text with
      | ok value =>
          rw [arrives_of_loads prints looks loaded]
          constructor
          · refine fun survives => ⟨fun _ raised fails => ?_, fun _ inner same => ?_⟩
            · cases loaded.symm.trans fails
            · exact survives inner (Except.ok.inj (loaded.symm.trans same))
          · rintro settled inner rfl
            exact settled.inner looks inner loaded
      | error raised =>
          rw [arrives_of_fails looks loaded]
          constructor
          · refine fun caught => ⟨fun _ held fails => ?_, fun _ inner same => ?_⟩
            · cases loaded.symm.trans fails
              exact caught
            · cases loaded.symm.trans same
          · exact fun settled => settled.caught looks raised loaded

theorem arrives_iff (prints : ∀ text x, runtime.parseFloat text = some x →
    Json.FloatText runtime x) {value : Value} (faithful : Json.Faithful runtime value) :
    Arrives (Codec.ofRuntime runtime depth) value ↔
      Settled (Codec.ofRuntime runtime depth) value := by
  constructor
  · intro arrives
    have ⟨result, carried, _⟩ := arrives
    refine ⟨fits_of_carry carried, ?_⟩
    rintro text rfl
    exact (arrives_text_iff prints text).mp arrives
  · intro settled
    cases value with
    | str text => exact (arrives_text_iff prints text).mpr (settled.text text rfl)
    | list items =>
        have same := carry_nested settled.fits faithful (Or.inl ⟨items, rfl⟩)
        exact ⟨_, same, same⟩
    | dict entries =>
        have same := carry_nested settled.fits faithful (Or.inr ⟨entries, rfl⟩)
        exact ⟨_, same, same⟩
    | _ => exact arrives_scalar settled.fits faithful (by simp) (by simp) (by simp)

/-! ## Events -/

/-- The event arrives, and no further hop changes what has arrived. -/
def ArrivesForGood (codec : Codec) (event : Dict String Value) (now : String) : Prop :=
  ∃ received, hop codec event now = .ok received ∧
    ∀ clocks : List String, clocks.foldlM (hop codec) received = .ok received

theorem keys_of_carried {codec : Codec} {entries received : Dict String Value}
    (each : Carried codec entries received) : Dict.keys received = Dict.keys entries := by
  induction each with
  | nil => rfl
  | cons first others induction => exact congrArg₂ List.cons first.1 induction

theorem forall_arrives_iff {codec : Codec} {entries : Dict String Value} :
    (∀ entry ∈ entries, Arrives codec entry.2) ↔
      ∃ received, Carried codec entries received ∧
        ∀ item ∈ received, carry codec item.2 = .ok item.2 := by
  induction entries with
  | nil => exact iff_of_true (by simp) ⟨[], .nil, by simp⟩
  | cons entry entries induction =>
      rw [List.forall_mem_cons, induction]
      constructor
      · rintro ⟨⟨result, once, twice⟩, received, each, fixed⟩
        exact ⟨(entry.1, result) :: received, .cons ⟨rfl, once⟩ each,
          List.forall_mem_cons.mpr ⟨twice, fixed⟩⟩
      · rintro ⟨_, each, fixed⟩
        cases each with
        | @cons _ item _ received first others =>
            have both := List.forall_mem_cons.mp fixed
            exact ⟨⟨item.2, first.2, both.1⟩, received, others, both.2⟩

/-- An event that was read back stays as it is when every value of it does. -/
theorem hop_received_iff {codec : Codec} {event received : Dict String Value} {now : String}
    (distinct : (Dict.keys event).Nodup) (once : hop codec event now = .ok received)
    (later : String) :
    hop codec received later = .ok received ↔
      ∀ item ∈ received, carry codec item.2 = .ok item.2 := by
  have keys := nodup_published distinct now
  have same := keys_of_carried ((hop_eq_ok_iff keys).mp once)
  have nothing := published_of_keys same later
  rw [hop_eq_ok_iff (nothing.symm ▸ same ▸ keys), nothing, Carried, List.forall₂_same]
  exact forall₂_congr fun item _ => and_iff_right rfl

theorem arrivesForGood_iff_forall {codec : Codec} {event : Dict String Value} {now : String}
    (distinct : (Dict.keys event).Nodup) :
    ArrivesForGood codec event now ↔
      ∀ entry ∈ published event now, Arrives codec entry.2 := by
  rw [forall_arrives_iff]
  constructor
  · rintro ⟨received, once, further⟩
    refine ⟨received, (hop_eq_ok_iff (nodup_published distinct now)).mp once, ?_⟩
    rw [← hop_received_iff distinct once now]
    have one := further [now]
    rw [List.foldlM_cons] at one
    obtain ⟨result, step, last⟩ := bind_eq_ok.mp one
    cases last
    exact step
  · rintro ⟨received, each, fixed⟩
    have once := (hop_eq_ok_iff (nodup_published distinct now)).mpr each
    refine ⟨received, once, fun clocks => ?_⟩
    induction clocks with
    | nil => rfl
    | cons clock clocks induction =>
        rw [List.foldlM_cons, (hop_received_iff distinct once clock).mpr fixed]
        exact induction

theorem settled_of_plain {codec : Codec} {text : String} (plain : Plain text) :
    Settled codec (.str text) := by
  refine ⟨Json.fits_of_scalar _ (by simp) (by simp) (by simp), ?_⟩
  rintro _ ⟨⟩
  have other : looksLikeJson text ≠ true := by
    intro looks
    obtain ⟨letter, first, starts⟩ := (looksLikeJson_iff text).mp looks
    obtain ⟨brace, bracket, quote⟩ := plain.2.2 letter first
    rcases starts with rfl | rfl | rfl <;> contradiction
  exact ⟨fun looks => absurd looks other, fun looks => absurd looks other⟩

theorem mem_of_carried {codec : Codec} {entries received : Dict String Value}
    (each : Carried codec entries received) {key : String} {value : Value}
    (member : (key, value) ∈ entries) :
    ∃ result, (key, result) ∈ received ∧ carry codec value = .ok result := by
  induction each with
  | nil => cases member
  | @cons entry item entries received first others induction =>
      rcases List.mem_cons.mp member with rfl | later
      · exact ⟨item.2, List.mem_cons.mpr (Or.inl (Prod.ext first.1.symm rfl)), first.2⟩
      · obtain ⟨result, held, carried⟩ := induction later
        exact ⟨result, List.mem_cons_of_mem _ held, carried⟩

/-- What an event that was read back holds. -/
theorem lookup_hop {codec : Codec} {event received : Dict String Value} {now : String}
    (distinct : (Dict.keys event).Nodup) (once : hop codec event now = .ok received)
    {key : String} {value : Value} (member : (key, value) ∈ event) :
    ∃ result, carry codec value = .ok result ∧ received.lookup key = some result := by
  have keys := nodup_published distinct now
  have each := (hop_eq_ok_iff keys).mp once
  obtain ⟨result, held, carried⟩ := mem_of_carried each (mem_published_of_mem member now)
  exact ⟨result, carried, Dict.lookup_of_mem (keys_of_carried each ▸ keys) held⟩

/-- The texts that come back as they were. -/
theorem lookup_hop_iff {codec : Codec} {event received : Dict String Value} {now : String}
    (distinct : (Dict.keys event).Nodup) (once : hop codec event now = .ok received)
    {key text : String} (member : (key, .str text) ∈ event) :
    received.lookup key = some (.str text) ↔ Survives codec text := by
  obtain ⟨result, carried, held⟩ := lookup_hop distinct once member
  rw [held, ← deserialize_eq_self_iff, ← carry_str, carried]
  simp

end

/-- A runtime that finds one float in texts. -/
def halfRuntime : Runtime :=
  { Reference.runtime with parseFloat := fun text => if text = "1.5" then some (3 / 2) else none }

/-- A price with tags and a note. -/
def taggedPrice : Dict String Value :=
  [("price", .float (3 / 2)), ("tags", .list [.none, .float (3 / 2)]), ("note", .str "ok")]

end TradingControl.Events
