import Mathlib
import TradingControl.Events.Decoding
import TradingControl.Python.JsonRead
import TradingControl.Python.Reference

/-!
# Replies as the client returns them

The Redis client returns texts or bytes, as it is set up.  Live reads and reclaims take entries from
replies of different shapes, each with conversions of its own.
-/

namespace TradingControl.Events

open Python

/-! ## Texts and bytes -/

/-- A text as the client returns it. -/
inductive RawText where
  | str (text : String)
  | bytes (octets : ByteArray)
deriving DecidableEq

namespace RawText

def isStr : RawText → Bool
  | .str _ => true
  | .bytes _ => false

end RawText

/-- `_decode_bytes`; a `UnicodeDecodeError` is a `ValueError`. -/
def decodeBytes : RawText → Except Raised String
  | .str text => .ok text
  | .bytes octets =>
      match String.fromUTF8? octets with
      | some text => .ok text
      | none => .error .valueError

/-- A byte between quotes. -/
def reprOctet (quote : Char) (octet : UInt8) : List Char :=
  let letter := Char.ofNat octet.toNat
  if letter = quote ∨ letter = '\\' then ['\\', letter]
  else if letter = '\t' then ['\\', 't']
  else if letter = '\n' then ['\\', 'n']
  else if letter = '\r' then ['\\', 'r']
  else if 32 ≤ octet.toNat ∧ octet.toNat < 127 then [letter]
  else ['\\', 'x', Nat.digitChar (octet.toNat / 16), Nat.digitChar (octet.toNat % 16)]

/-- The quote that bytes are written between. -/
def reprQuote (octets : List UInt8) : Char :=
  if 39 ∈ octets ∧ 34 ∉ octets then '\x22' else '\x27'

/-- `str(value)`. -/
def RawText.toStr : RawText → String
  | .str text => text
  | .bytes octets =>
      let quote := reprQuote octets.data.toList
      String.ofList ('b' :: quote :: octets.data.toList.flatMap (reprOctet quote) ++ [quote])

/-! ## Fields -/

/-- Fields of an entry, read back. -/
def decodeRawFields (codec : Codec) (fields : Dict RawText RawText) :
    Except Raised (Dict String Value) :=
  fields.foldlM (fun decoded (key, value) => do
    let key ← decodeBytes key
    let value ← deserialize codec (← decodeBytes value)
    return Dict.set key value decoded) []

def fromFlat : List RawText → Dict RawText RawText → Dict RawText RawText
  | key :: value :: rest, held => fromFlat rest (Dict.set key value held)
  | _, held => held

/-- What stands for the fields of an entry in a reply. -/
inductive FieldsData where
  | dict (fields : Dict RawText RawText)
  /-- A list or a tuple. -/
  | flat (items : List RawText)
  | other

/-- `fields_dict`. -/
def FieldsData.fieldsDict : FieldsData → Dict RawText RawText
  | .dict fields => fields
  | .flat items => if items.length % 2 = 0 then fromFlat items [] else []
  | .other => []

/-! ## Live reads -/

/-- `consume` on the messages of a reply. -/
def consumed (codec : Codec) (messages : List (RawText × Dict RawText RawText)) : List Message :=
  match messages.mapM fun (msgId, fields) => do
    let decodedId ← decodeBytes msgId
    return (⟨decodedId, ← decodeRawFields codec fields⟩ : Message) with
  | .ok result => result
  | .error _ => []

/-! ## Reclaims -/

/-- An entry of a reply. -/
inductive RawEntry where
  | pair (id : RawText) (fields : FieldsData)
  /-- Neither a list nor a tuple, or fewer than two items. -/
  | other

/-- `_decode_entries`. -/
def decodeEntries (codec : Codec) : List RawEntry → Except Raised (List Message)
  | [] => .ok []
  | .other :: rest => decodeEntries codec rest
  | .pair id fields :: rest => do
      let decoded ← decodeRawFields codec fields.fieldsDict
      return ⟨id.toStr, decoded⟩ :: (← decodeEntries codec rest)

/-- A reply of `XAUTOCLAIM`; `none` is a reply of one item. -/
inductive AutoclaimReply where
  | empty
  | tuple (next : RawText) (messages : Option (List RawEntry))
  | list (next : RawText) (messages : Option (List RawEntry))

/-- `_decode_autoclaim`. -/
def decodeAutoclaim (codec : Codec) : AutoclaimReply → Except Raised (List Message)
  | .empty => .ok []
  | .tuple _ none => .error .valueError
  | .tuple _ (some messages) => decodeEntries codec messages
  | .list _ none => .ok []
  | .list _ (some messages) => decodeEntries codec messages

/-- `reclaim_stale` on a reply. -/
def reclaimed (codec : Codec) (reply : AutoclaimReply) : List Message :=
  match decodeAutoclaim codec reply with
  | .ok decoded => decoded
  | .error _ => []

/-! ## One entry on both paths -/

/-- An entry of a stream, with its fields in order. -/
structure StreamEntry where
  id : RawText
  fields : List (RawText × RawText)

/-- The dictionary that the client makes of fields. -/
def asDict (fields : List (RawText × RawText)) : Dict RawText RawText :=
  fields.foldl (fun held field => Dict.set field.1 field.2 held) []

namespace StreamEntry

/-- As `XREADGROUP` returns it. -/
def live (entry : StreamEntry) : RawText × Dict RawText RawText := (entry.id, asDict entry.fields)

/-- As `XAUTOCLAIM` returns it: the fields are a dictionary or a flat list. -/
def stale (entry : StreamEntry) (isFlat : Bool) : RawEntry :=
  .pair entry.id
    (if isFlat then .flat (entry.fields.flatMap fun field => [field.1, field.2])
    else .dict (asDict entry.fields))

end StreamEntry

/-- The reply that claims entries, as a tuple or a list, each entry in a form of its own. -/
def claimReply (isTuple : Bool) (next : RawText) (entries : List (StreamEntry × Bool)) :
    AutoclaimReply :=
  let messages := some (entries.map fun entry => entry.1.stale entry.2)
  if isTuple then .tuple next messages else .list next messages

/-! ## Ids -/

theorem length_le_utf8ByteSize (text : String) : text.toList.length ≤ text.utf8ByteSize := by
  suffices all : ∀ letters : List Char, letters.length ≤ (String.ofList letters).utf8ByteSize by
    simpa using all text.toList
  intro letters
  induction letters with
  | nil => exact Nat.zero_le _
  | cons letter rest induction =>
      have split : String.ofList (letter :: rest) =
          String.singleton letter ++ String.ofList rest := by
        rw [← String.toList_inj]
        simp
      have positive := letter.utf8Size_pos
      rw [split, String.utf8ByteSize_append, String.utf8ByteSize_singleton, List.length_cons]
      omega

theorem reprOctet_ne_nil (quote : Char) (octet : UInt8) : reprOctet quote octet ≠ [] := by
  rw [reprOctet]
  split_ifs <;> simp

theorem length_le_length_reprOctets (quote : Char) (octets : List UInt8) :
    octets.length ≤ (octets.flatMap (reprOctet quote)).length := by
  induction octets with
  | nil => exact Nat.zero_le _
  | cons octet rest induction =>
      have positive := List.length_pos_iff.mpr (reprOctet_ne_nil quote octet)
      rw [List.flatMap_cons, List.length_append, List.length_cons]
      omega

theorem toStr_bytes_ne {octets : ByteArray} {text : String}
    (decoded : decodeBytes (.bytes octets) = .ok text) : (RawText.bytes octets).toStr ≠ text := by
  intro same
  have size : text.utf8ByteSize = octets.data.toList.length := by
    rw [decodeBytes] at decoded
    cases found : String.fromUTF8? octets with
    | none => rw [found] at decoded; cases decoded
    | some held =>
        rw [found] at decoded
        cases decoded
        rw [String.fromUTF8?] at found
        split_ifs at found with valid
        cases found
        rfl
  have short := length_le_utf8ByteSize text
  have long := length_le_length_reprOctets (reprQuote octets.data.toList) octets.data.toList
  rw [size, ← same, RawText.toStr, String.toList_ofList] at short
  simp only [List.length_cons, List.length_append, List.length_nil] at short
  omega

/-! ## Both paths -/

theorem fromFlat_flatMap (fields : List (RawText × RawText)) (held : Dict RawText RawText) :
    fromFlat (fields.flatMap fun field => [field.1, field.2]) held =
      fields.foldl (fun held field => Dict.set field.1 field.2 held) held := by
  induction fields generalizing held with
  | nil => rfl
  | cons field rest induction => exact induction _

/-- Both forms of the fields stand for the same dictionary. -/
theorem fieldsDict_stale (fields : List (RawText × RawText)) (isFlat : Bool) :
    (if isFlat then FieldsData.flat (fields.flatMap fun field => [field.1, field.2])
      else .dict (asDict fields)).fieldsDict = asDict fields := by
  cases isFlat with
  | false => rfl
  | true =>
      have even : (fields.flatMap fun field => [field.1, field.2]).length % 2 = 0 := by
        rw [List.length_flatMap]
        simp
      rw [if_pos rfl, FieldsData.fieldsDict, if_pos even, fromFlat_flatMap]
      rfl

/-- The fields of an entry cannot be read back. -/
def StreamEntry.Unreadable (codec : Codec) (entry : StreamEntry) : Prop :=
  ∃ raised, decodeRawFields codec (asDict entry.fields) = .error raised

/-- The message that a live read makes of an entry. -/
def StreamEntry.liveMessage (codec : Codec) (entry : StreamEntry) : Except Raised Message := do
  let decodedId ← decodeBytes entry.id
  return ⟨decodedId, ← decodeRawFields codec (asDict entry.fields)⟩

/-- The message that a reclaim makes of an entry. -/
def StreamEntry.staleMessage (codec : Codec) (entry : StreamEntry) : Except Raised Message := do
  return ⟨entry.id.toStr, ← decodeRawFields codec (asDict entry.fields)⟩

section

variable {codec : Codec} {entry : StreamEntry} {message : Message}

theorem liveMessage_eq_ok : entry.liveMessage codec = .ok message ↔
    decodeBytes entry.id = .ok message.id ∧
      decodeRawFields codec (asDict entry.fields) = .ok message.data := by
  obtain ⟨id, data⟩ := message
  rw [StreamEntry.liveMessage]
  cases decodeBytes entry.id <;> cases decodeRawFields codec (asDict entry.fields) <;>
    simp [bind, Except.bind, pure, Except.pure]

theorem staleMessage_eq_ok : entry.staleMessage codec = .ok message ↔
    entry.id.toStr = message.id ∧
      decodeRawFields codec (asDict entry.fields) = .ok message.data := by
  obtain ⟨id, data⟩ := message
  rw [StreamEntry.staleMessage]
  cases decodeRawFields codec (asDict entry.fields) <;>
    simp [bind, Except.bind, pure, Except.pure]

end

theorem consumed_live (codec : Codec) (entries : List (StreamEntry × Bool)) :
    consumed codec (entries.map fun entry => entry.1.live) =
      match entries.mapM fun entry => entry.1.liveMessage codec with
      | .ok result => result
      | .error _ => [] := by
  rw [consumed, List.mapM_map]
  rfl

theorem decodeEntries_map (codec : Codec) (entries : List (StreamEntry × Bool)) :
    decodeEntries codec (entries.map fun entry => entry.1.stale entry.2) =
      entries.mapM fun entry => entry.1.staleMessage codec := by
  induction entries with
  | nil => rfl
  | cons entry rest induction =>
      rw [List.map_cons, StreamEntry.stale, decodeEntries, fieldsDict_stale, induction,
        List.mapM_cons, StreamEntry.staleMessage]
      cases decodeRawFields codec (asDict entry.1.fields) <;> rfl

theorem reclaimed_claimReply (codec : Codec) (isTuple : Bool) (next : RawText)
    (entries : List (StreamEntry × Bool)) :
    reclaimed codec (claimReply isTuple next entries) =
      match entries.mapM fun entry => entry.1.staleMessage codec with
      | .ok decoded => decoded
      | .error _ => [] := by
  have same : decodeAutoclaim codec (claimReply isTuple next entries) =
      decodeEntries codec (entries.map fun entry => entry.1.stale entry.2) := by
    cases isTuple <;> rfl
  rw [reclaimed, same, decodeEntries_map]

theorem mapM_error_of_mem {α β : Type} (convert : α → Except Raised β) {items : List α} {item : α}
    (member : item ∈ items) {raised : Raised} (fails : convert item = .error raised) :
    ∃ raised, items.mapM convert = .error raised := by
  cases mapped : items.mapM convert with
  | error raised => exact ⟨raised, rfl⟩
  | ok results =>
      have every := (Json.mapM_isOk_iff convert items).mp (by rw [mapped]; rfl) item member
      rw [fails] at every
      cases every

/-- Ids that are texts are handed on alike. -/
theorem mapM_live_eq_stale {codec : Codec} {entries : List (StreamEntry × Bool)}
    (texts : ∀ entry ∈ entries, entry.1.id.isStr = true) :
    (entries.mapM fun entry => entry.1.liveMessage codec) =
      entries.mapM fun entry => entry.1.staleMessage codec := by
  induction entries with
  | nil => rfl
  | cons entry rest induction =>
      obtain ⟨first, others⟩ := List.forall_mem_cons.mp texts
      have same : entry.1.liveMessage codec = entry.1.staleMessage codec := by
        rw [StreamEntry.liveMessage, StreamEntry.staleMessage]
        cases held : entry.1.id with
        | str text => rfl
        | bytes octets => rw [held] at first; cases first
      rw [List.mapM_cons, List.mapM_cons, same, induction others]

/-- Messages that are handed on alike have texts for ids. -/
theorem isStr_of_same {codec : Codec} {entries : List (StreamEntry × Bool)}
    {live stale : List Message} (same : live = stale)
    (liveRead : List.Forall₂ (fun entry message => entry.1.liveMessage codec = .ok message)
      entries live)
    (staleRead : List.Forall₂ (fun entry message => entry.1.staleMessage codec = .ok message)
      entries stale) : ∀ entry ∈ entries, entry.1.id.isStr = true := by
  subst same
  induction liveRead with
  | nil => simp
  | @cons entry message entries live first others induction =>
      cases staleRead with
      | cons staleFirst staleOthers =>
          refine List.forall_mem_cons.mpr ⟨?_, induction staleOthers⟩
          have decoded := (liveMessage_eq_ok.mp first).1
          have named := (staleMessage_eq_ok.mp staleFirst).1
          cases held : entry.1.id with
          | str text => rfl
          | bytes octets =>
              rw [held] at decoded named
              exact absurd named (toStr_bytes_ne decoded)

/-- Where both paths agree on entries that can be read back, the ids are texts. -/
theorem isStr_of_agree {codec : Codec} {isTuple : Bool} {next : RawText}
    {entries : List (StreamEntry × Bool)}
    (same : consumed codec (entries.map fun entry => entry.1.live) =
      reclaimed codec (claimReply isTuple next entries))
    (readable : ∀ entry ∈ entries, ¬entry.1.Unreadable codec) :
    ∀ entry ∈ entries, entry.1.id.isStr = true := by
  rw [consumed_live, reclaimed_claimReply] at same
  have all : ∀ entry ∈ entries, (entry.1.staleMessage codec).isOk = true := by
    intro entry member
    rw [StreamEntry.staleMessage, Json.isOk_bind_pure]
    cases fields : decodeRawFields codec (asDict entry.1.fields) with
    | ok data => rfl
    | error raised => exact absurd ⟨raised, fields⟩ (readable entry member)
  have stale := (Json.mapM_isOk_iff _ entries).mpr all
  cases staleRead : entries.mapM fun entry => entry.1.staleMessage codec with
  | error raised => rw [staleRead] at stale; cases stale
  | ok messages =>
      rw [staleRead] at same
      have each := Json.mapM_eq_ok_iff.mp staleRead
      cases liveRead : entries.mapM fun entry => entry.1.liveMessage codec with
      | error raised =>
          rw [liveRead] at same
          -- nothing was handed on, so there was no entry
          obtain rfl : messages = [] := same.symm
          cases each
          simp
      | ok found =>
          rw [liveRead] at same
          exact isStr_of_same same (Json.mapM_eq_ok_iff.mp liveRead) each

/-- Entries that cannot be read back make both paths hand on nothing. -/
theorem agree_of_unreadable {codec : Codec} (isTuple : Bool) (next : RawText)
    {entries : List (StreamEntry × Bool)} {entry : StreamEntry × Bool} (member : entry ∈ entries)
    (unreadable : entry.1.Unreadable codec) :
    consumed codec (entries.map fun entry => entry.1.live) =
      reclaimed codec (claimReply isTuple next entries) := by
  obtain ⟨raised, fails⟩ := unreadable
  have stale : entry.1.staleMessage codec = .error raised := by
    rw [StreamEntry.staleMessage, fails]
    rfl
  obtain ⟨first, live⟩ : ∃ raised, entry.1.liveMessage codec = .error raised := by
    rw [StreamEntry.liveMessage, fails]
    cases decodeBytes entry.1.id <;> exact ⟨_, rfl⟩
  obtain ⟨_, liveFails⟩ := mapM_error_of_mem
    (fun entry : StreamEntry × Bool => entry.1.liveMessage codec) member live
  obtain ⟨_, staleFails⟩ := mapM_error_of_mem
    (fun entry : StreamEntry × Bool => entry.1.staleMessage codec) member stale
  rw [consumed_live, reclaimed_claimReply, liveFails, staleFails]

/-- Live reads and reclaims hand on the same messages exactly when the ids are texts, or fields
cannot be read back and both hand on nothing. -/
theorem consumed_eq_reclaimed_iff (codec : Codec) (isTuple : Bool) (next : RawText)
    (entries : List (StreamEntry × Bool)) :
    consumed codec (entries.map fun entry => entry.1.live) =
        reclaimed codec (claimReply isTuple next entries) ↔
      (∀ entry ∈ entries, entry.1.id.isStr = true) ∨
        ∃ entry ∈ entries, entry.1.Unreadable codec := by
  constructor
  · intro same
    refine or_iff_not_imp_right.mpr fun readable => ?_
    exact isStr_of_agree same fun entry member unreadable => readable ⟨entry, member, unreadable⟩
  · rintro (texts | ⟨entry, member, unreadable⟩)
    · rw [consumed_live, reclaimed_claimReply, mapM_live_eq_stale texts]
    · exact agree_of_unreadable isTuple next member unreadable

/-- An id that arrives as bytes is another text on each path. -/
theorem bytesId_not_agree :
    ¬∀ entries : List (StreamEntry × Bool),
      consumed (Codec.ofRuntime Reference.runtime 900) (entries.map fun entry => entry.1.live) =
        reclaimed (Codec.ofRuntime Reference.runtime 900)
          (claimReply true (.bytes "0-0".toUTF8) entries) := by
  intro agree
  have texts := isStr_of_agree (agree [(⟨.bytes "1-0".toUTF8, []⟩, false)]) (by
    rintro _ member ⟨raised, fails⟩
    rw [List.mem_singleton.mp member] at fails
    cases fails)
  cases texts _ List.mem_cons_self

/-! ## Texts -/

end TradingControl.Events
