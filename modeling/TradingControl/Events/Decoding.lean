import TradingControl.Events.EventBus
import TradingControl.Python.JsonRoundTrip

/-!
# What the bus reads back

Every field of an event travels as a text.  A text that is no truth value and does not look like
JSON comes back as itself; the others come back as what they say, which need not be what was sent.
-/

namespace TradingControl.Events

open Python

/-! ## Texts that come back as themselves -/

/-- The text is no truth value and starts with no bracket and no quote. -/
def Plain (text : String) : Prop :=
  lower text ≠ "true" ∧ lower text ≠ "false" ∧
    ∀ letter ∈ text.toList.head?, letter ≠ '\x7b' ∧ letter ≠ '[' ∧ letter ≠ '\x22'

-- a search through all characters would be an instance too
instance (text : String) : Decidable (Plain text) :=
  @instDecidableAnd _ _ inferInstance
    (@instDecidableAnd _ _ inferInstance (Option.decidableForallMem _))

theorem startsWith_single (text : String) (letter : Char) :
    startsWith text (String.ofList [letter]) = true ↔ text.toList.head? = some letter := by
  rw [startsWith, String.toList_ofList]
  cases text.toList with
  | nil => simp
  | cons first rest => simp [List.isPrefixOf, eq_comm (a := letter)]

theorem deserialize_of_plain (codec : Codec) {text : String} (plain : Plain text) :
    deserialize codec text = .ok (.str text) := by
  obtain ⟨notTrue, notFalse, head⟩ := plain
  have other (letter : Char) (excluded : letter = '\x7b' ∨ letter = '[' ∨ letter = '\x22') :
      startsWith text (String.ofList [letter]) = false := by
    rw [← Bool.not_eq_true, startsWith_single]
    intro first
    obtain ⟨brace, bracket, quote⟩ := head letter first
    rcases excluded with rfl | rfl | rfl <;> contradiction
  have brace : startsWith text "\x7b" = false := other '\x7b' (by simp)
  have bracket : startsWith text "[" = false := other '[' (by simp)
  have quote : startsWith text "\"" = false := other '\x22' (by simp)
  simp [deserialize, notTrue, notFalse, brace, bracket, quote]

theorem toLower_of_isDigit {letter : Char} (digit : letter.isDigit = true) :
    letter.toLower = letter := by
  delta Char.toLower
  rw [dif_neg]
  rintro ⟨above, -⟩
  have bounds : 'A'.val.toNat = 65 ∧ '9'.val.toNat = 57 := by decide
  simp only [Char.isDigit, Bool.and_eq_true, decide_eq_true_eq, UInt32.le_iff_toNat_le,
    ge_iff_le] at digit above
  omega

/-- A text whose first letter, in lower case, starts neither word is no truth value. -/
theorem lower_ne_of_head {text word : String} {letter : Char} {rest : List Char}
    (shape : text.toList = letter :: rest) (other : word.toList.head? ≠ some letter.toLower) :
    lower text ≠ word := by
  rintro rfl
  apply other
  rw [lower, String.toList_ofList, shape, List.map_cons, List.head?_cons]

theorem plain_of_lead {text : String} {letter : Char} {rest : List Char}
    (shape : text.toList = letter :: rest) (lead : letter = '-' ∨ letter.isDigit = true) :
    Plain text := by
  have same : letter.toLower = letter := by
    rcases lead with rfl | digit
    · decide
    · exact toLower_of_isDigit digit
  have apart (other : Char) (excluded : other.isDigit = false ∧ other ≠ '-') :
      letter ≠ other := by
    rintro rfl
    rcases lead with rfl | digit
    · exact excluded.2 rfl
    · rw [digit] at excluded
      cases excluded.1
  refine ⟨?_, ?_, ?_⟩
  · exact lower_ne_of_head shape (by simpa [same, eq_comm] using apart 't' (by decide))
  · exact lower_ne_of_head shape (by simpa [same, eq_comm] using apart 'f' (by decide))
  · rw [shape]
    rintro first held
    obtain rfl := Option.some.inj held
    exact ⟨apart _ (by decide), apart _ (by decide), apart _ (by decide)⟩

theorem plain_of_floatText {runtime : Runtime} {x : ℚ} (prints : Json.FloatText runtime x) :
    Plain (runtime.text x) ∧ runtime.text x ≠ "" := by
  obtain ⟨numeral, scanned, -⟩ := prints.scanned
  cases shape : (runtime.text x).toList with
  | nil => rw [shape] at scanned; cases scanned
  | cons letter rest =>
      rw [shape] at scanned
      refine ⟨plain_of_lead shape (Json.lead_of_scanNumeral scanned), ?_⟩
      intro empty
      rw [empty] at shape
      cases shape

/-! ## Fields that come back one by one -/

/-- The bus of an interpreter that writes numbers and JSON texts as it reads them. -/
def Codec.ofRuntime (runtime : Runtime) (depth : ℕ) : Codec where
  runtime := runtime
  formatter :=
    { float := runtime.text
      dumps := fun value =>
        match Json.dumps runtime depth {} value with
        | .ok text => text
        | .error _ => runtime.repr value }
  depth := depth

/-- One field, read back. -/
def decodeField (codec : Codec) (field : String × String) : Except Raised (String × Value) := do
  return (field.1, ← deserialize codec field.2)

theorem foldlM_decode (codec : Codec) {fields : List (String × String)} (held : Dict String Value)
    (distinct : (Dict.keys held ++ Dict.keys fields).Nodup) :
    fields.foldlM (fun decoded (key, value) => do
        return Dict.set key (← deserialize codec value) decoded) held =
      (fields.mapM (decodeField codec)).map (held ++ ·) := by
  induction fields generalizing held with
  | nil =>
      rw [List.mapM_nil]
      exact congrArg Except.ok (List.append_nil held).symm
  | cons field fields induction =>
      obtain ⟨key, text⟩ := field
      have absent : key ∉ Dict.keys held := fun member =>
        (List.nodup_append.mp distinct).2.2 _ member _ List.mem_cons_self rfl
      rw [List.foldlM_cons, List.mapM_cons, decodeField]
      dsimp only
      cases read : deserialize codec text with
      | error raised => rfl
      | ok value =>
          have later := induction (held ++ [(key, value)]) (by simpa [Dict.keys] using distinct)
          simp only [bind, Except.bind, pure, Except.pure] at later ⊢
          rw [Dict.set_of_not_mem value absent, later]
          cases fields.mapM (decodeField codec) with
          | error raised => rfl
          | ok rest =>
              simp only [Except.map, List.append_assoc, List.singleton_append]

theorem decodeFields_eq (codec : Codec) {fields : List (String × String)}
    (distinct : (Dict.keys fields).Nodup) :
    decodeFields codec fields = fields.mapM (decodeField codec) := by
  rw [decodeFields, foldlM_decode codec [] (by simpa [Dict.keys] using distinct)]
  cases fields.mapM (decodeField codec) <;> rfl

theorem decodeField_eq_ok {codec : Codec} {field : String × String} {item : String × Value}
    (read : decodeField codec field = .ok item) :
    item.1 = field.1 ∧ deserialize codec field.2 = .ok item.2 := by
  rw [decodeField] at read
  cases text : deserialize codec field.2 with
  | error raised => rw [text] at read; cases read
  | ok value =>
      rw [text] at read
      cases read
      exact ⟨rfl, rfl⟩

/-- An event is read back when every field of it is. -/
theorem isOk_decodeFields_iff (codec : Codec) {fields : List (String × String)}
    (distinct : (Dict.keys fields).Nodup) :
    (decodeFields codec fields).isOk = true ↔
      ∀ field ∈ fields, (deserialize codec field.2).isOk = true := by
  rw [decodeFields_eq codec distinct, Json.mapM_isOk_iff]
  simp only [decodeField, Json.isOk_bind_pure]

/-- What is found in an event that was read back. -/
theorem lookup_decodeFields {codec : Codec} {fields : List (String × String)}
    {decoded : Dict String Value} (distinct : (Dict.keys fields).Nodup)
    (read : decodeFields codec fields = .ok decoded) (key : String) :
    Option.Rel (fun text value => deserialize codec text = .ok value) (fields.lookup key)
      (decoded.lookup key) := by
  rw [decodeFields_eq codec distinct] at read
  have each : List.Forall₂ (fun item field =>
      item.1 = field.1 ∧ deserialize codec field.2 = .ok item.2) decoded fields :=
    (Json.forall₂_of_mapM read).imp fun _ _ both => decodeField_eq_ok both.2
  clear read distinct
  induction each with
  | nil => exact .none
  | @cons item field items fields head tail induction =>
      obtain ⟨held, text⟩ := field
      obtain ⟨name, value⟩ := item
      obtain ⟨rfl, decoded⟩ := head
      by_cases same : key = name
      · subst same
        simpa [List.lookup_cons] using Option.Rel.some decoded
      · simpa [List.lookup_cons, beq_false_of_ne same] using induction

section

variable {codec : Codec} {fields : List (String × String)} {decoded : Dict String Value}
  {key text : String} (distinct : (Dict.keys fields).Nodup)
  (read : decodeFields codec fields = .ok decoded)

include distinct read

theorem lookup_of_found (found : fields.lookup key = some text) :
    ∃ value, deserialize codec text = .ok value ∧ decoded.lookup key = some value := by
  have related := lookup_decodeFields distinct read key
  rw [found] at related
  cases held : decoded.lookup key with
  | none => rw [held] at related; cases related
  | some value =>
      rw [held] at related
      cases related with
      | some decodes => exact ⟨value, decodes, rfl⟩

theorem lookup_of_plain (found : fields.lookup key = some text) (plain : Plain text) :
    decoded.lookup key = some (.str text) := by
  obtain ⟨value, decodes, held⟩ := lookup_of_found distinct read found
  rw [deserialize_of_plain codec plain] at decodes
  cases decodes
  exact held

theorem lookup_of_absent (absent : fields.lookup key = none) : decoded.lookup key = none := by
  have related := lookup_decodeFields distinct read key
  rw [absent] at related
  cases held : decoded.lookup key with
  | none => rfl
  | some value => rw [held] at related; cases related

end

/-! ## Lists -/

/-- The text of a list or a dictionary starts with its bracket. -/
theorem toList_dumps_nested {runtime : Runtime} {depth : ℕ} {value : Value} {text : String}
    {opening closing : Char} {texts : ℕ → Except Raised (List (List Char))}
    (tooDeep : Json.encode runtime none 0 0 value = .error .recursionError)
    (nested : ∀ depth, Json.encode runtime none (depth + 1) 0 value = do
      return Json.enclosed none 0 opening closing (← texts depth))
    (written : Json.dumps runtime depth {} value = .ok text) :
    ∃ rest, text.toList = opening :: rest := by
  rw [Json.dumps, if_neg Bool.false_ne_true] at written
  cases depth with
  | zero => rw [tooDeep] at written; cases written
  | succ depth =>
      rw [nested] at written
      cases encoded : texts depth with
      | error raised => rw [encoded] at written; cases written
      | ok texts =>
          rw [encoded] at written
          cases written
          rw [String.toList_ofList]
          cases texts <;> exact ⟨_, rfl⟩

/-- A list is read back from what it was published as. -/
theorem deserialize_dumps_list {runtime : Runtime} {depth : ℕ} {items : List Value} {text : String}
    (written : Json.dumps runtime depth {} (.list items) = .ok text)
    (faithful : Json.Faithful runtime (.list items)) :
    deserialize (Codec.ofRuntime runtime depth) text = .ok (.list items) := by
  have reads := @Json.loads_dumps runtime depth {} (.list items) text written faithful "" (by simp)
  rw [String.append_empty] at reads
  obtain ⟨rest, shape⟩ := toList_dumps_nested rfl (fun _ => rfl) written
  have bracket : startsWith text "[" = true := (startsWith_single text '[').mpr (by rw [shape]; rfl)
  have notTrue : lower text ≠ "true" := lower_ne_of_head shape (by decide)
  have notFalse : lower text ≠ "false" := lower_ne_of_head shape (by decide)
  rw [deserialize, if_neg notTrue, if_neg notFalse, if_pos (by simp [bracket])]
  simp only [Codec.ofRuntime, reads]
  rfl

end TradingControl.Events
