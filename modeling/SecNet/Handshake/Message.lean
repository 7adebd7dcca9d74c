import SecNet.Exn
import SecNet.Lib.Base64
import SecNet.Lib.JsonRoundTrip
import SecNet.Lib.Utf8

/-!
# Messages

The messages of a handshake are JSON objects: `encode_message` and
`decode_message` of `protocol.py`, what the code reads from a decoded object
(`get`, a subscript, a comparison, the truth of a value), and byte strings in
messages as base64 text (`_b64` and `_unb64` of `handshake.py`).

* `unb64_b64`: byte strings are read back;
* `decodeMessage_encodeMessage`: so are messages;
* `decodeMessage_space`, `decodeMessage_append_space`: white space before a
  message, or after it, does not count;
* `decodeMessage_append`: after a message there is only white space;
* `append_of_decodeMessage`: no message that is written goes on after another one.
-/

namespace SecNet

variable {F : Type}

/-- A dictionary: the members of an object, in the order of their keys. -/
abbrev Dict (F : Type) := List (PyStr × Json F)

/-- A string of the program as a value. -/
def Json.ofString (s : String) : Json F := .str (.ofString s)

/-- A dictionary display, whose items are set one after the other. -/
def Dict.ofList (items : List (String × Json F)) : Dict F :=
  items.foldl (fun d item => Json.insert (.ofString item.1) item.2 d) []

/-- `d.get(key)`, where `None` stands for no member. -/
def Dict.get (d : Dict F) (key : String) : Json F := (d.lookup (.ofString key)).getD .null

/-- `d[key]`. -/
def Dict.getItem (d : Dict F) (key : String) : Except Exn (Json F) :=
  match d.lookup (.ofString key) with
  | some v => .ok v
  | none => .error (.keyError s!"'{key}'")

/-- The name of the type of a value. -/
def Json.typeName : Json F → String
  | .null => "NoneType"
  | .bool _ => "bool"
  | .int _ => "int"
  | .float _ => "float"
  | .str _ => "str"
  | .arr _ => "list"
  | .obj _ => "dict"

/-- A value on which `get` is called. -/
def Json.asDict : Json F → Except Exn (Dict F)
  | .obj d => .ok d
  | v => .error (.attributeError s!"'{v.typeName}' object has no attribute 'get'")

/-- `v == text`. -/
def Json.isStr (v : Json F) (text : String) : Bool :=
  match v with
  | .str s => s = .ofString text
  | _ => false

section

variable [PyFloat F]

/-- `v == n`, where `True` and a float may be equal to an integer too. -/
def Json.isInt (v : Json F) (n : ℤ) : Bool :=
  match v with
  | .int m => m = n
  | .bool b => (if b then 1 else 0) = n
  | .float x => PyFloat.eqInt x n
  | _ => false

/-- `bool(v)`. -/
def Json.truth : Json F → Bool
  | .null => false
  | .bool b => b
  | .int n => n ≠ 0
  | .float x => !PyFloat.eqInt x 0
  | .str s => s ≠ []
  | .arr vs => !vs.isEmpty
  | .obj ms => !ms.isEmpty

/-! ## Byte strings -/

/-- `_b64`. -/
def b64 (data : Bytes) : Json F := .str ((b64encode data).map Char.toNat)

/-- `_unb64`. -/
def unb64 : Json F → Except Exn Bytes
  | .str s =>
    if s.all (· < 128) then
      match b64decode (s.map Char.ofNat) with
      | some data => .ok data
      | none => .error .binasciiError
    else .error .unicodeEncodeError
  | _ => .error (.valueError "key-exchange payload must be base64 text")

/-! ## Messages -/

/-- `encode_message`. -/
def encodeMessage (message : Dict F) : Bytes := encodeUtf8 (Json.dumps (.obj message))

/-- `decode_message`. -/
def decodeMessage (data : Bytes) : Except Exn (Dict F) :=
  match decodeUtf8 data with
  | none => .error .unicodeDecodeError
  | some text =>
    match Json.loads text with
    | none => .error .jsonDecodeError
    | some (.obj message) => .ok message
    | some _ => .error (.valueError "protocol message must be a JSON object")

end

/-! ## Byte strings are read back -/

theorem toNat_lt_of_mem_b64encode {data : Bytes} {c : Char} (h : c ∈ b64encode data) :
    c.toNat < 128 := by
  have halphabet : base64Alphabet.all fun c => decide (c.toNat < 128) := by decide
  rcases b64encode_mem h with h | rfl
  · exact of_decide_eq_true (List.all_eq_true.1 halphabet c h)
  · decide

theorem unb64_b64 (data : Bytes) : unb64 (F := F) (b64 data) = .ok data := by
  have hascii : ((b64encode data).map Char.toNat).all (· < 128) := by
    rw [List.all_eq_true]
    intro u hu
    obtain ⟨c, hc, rfl⟩ := List.mem_map.1 hu
    exact decide_eq_true (toNat_lt_of_mem_b64encode hc)
  have hchars : ((b64encode data).map Char.toNat).map Char.ofNat = b64encode data := by
    rw [List.map_map]
    exact (List.map_congr_left fun c _ => Char.ofNat_toNat c).trans (List.map_id _)
  rw [b64, unb64, if_pos hascii, hchars, b64decode_b64encode]

/-! ## Messages are read back -/

theorem ofString_injective {s t : String} (h : PyStr.ofString s = PyStr.ofString t) : s = t := by
  have hchars : s.toList = t.toList := List.map_injective_iff.2 (fun c d hcd => by
    rw [← Char.ofNat_toNat c, hcd, Char.ofNat_toNat]) h
  rw [← String.ofList_toList (s := s), hchars, String.ofList_toList]

/-- The items of a display are found, the last one of a key. -/
theorem lookup_ofList (items : List (String × Json F)) (key : String) :
    List.lookup (PyStr.ofString key) (Dict.ofList items) = items.reverse.lookup key := by
  induction items using List.reverseRecOn with
  | nil => rfl
  | append_singleton items item ih =>
    rw [Dict.ofList, List.foldl_append, List.foldl_cons, List.foldl_nil, ← Dict.ofList,
      Json.lookup_insert, List.reverse_append, List.reverse_singleton, List.singleton_append,
      Json.lookup_cons, ih]
    by_cases h : key = item.1
    · rw [if_pos h, if_pos (congrArg _ h)]
    · rw [if_neg h, if_neg (mt ofString_injective h)]

/-- What is read of a display is the last item of the key. -/
theorem Dict.get_ofList {items : List (String × Json F)} {key : String} {v : Json F}
    (h : items.reverse.lookup key = some v) : Dict.get (.ofList items) key = v := by
  rw [Dict.get, lookup_ofList, h]
  rfl

theorem Dict.getItem_ofList {items : List (String × Json F)} {key : String} {v : Json F}
    (h : items.reverse.lookup key = some v) : Dict.getItem (.ofList items) key = .ok v := by
  rw [Dict.getItem, lookup_ofList, h]

/-- A message whose members are read back from what is written. -/
abbrev Dict.Canonical (d : Dict F) : Prop := Json.Canonical (.obj d)

theorem isScalar_toNat (c : Char) : Json.IsScalar c.toNat := by
  rcases c.valid with h | ⟨h, h'⟩
  · exact .inl h
  · refine .inr ⟨?_, h'⟩
    have hlt : 0xDFFF < c.toNat := h
    omega

/-- The code points of a text are scalar values. -/
theorem isScalar_of_mem_map {text : List Char} {u : ℕ} (h : u ∈ text.map Char.toNat) :
    Json.IsScalar u := by
  obtain ⟨c, -, rfl⟩ := List.mem_map.1 h
  exact isScalar_toNat c

theorem canonical_ofString (s : String) : Json.Canonical (F := F) (.ofString s) :=
  .str fun _ hu => isScalar_of_mem_map hu

theorem canonical_b64 (data : Bytes) : Json.Canonical (F := F) (b64 data) :=
  .str fun _ hu => isScalar_of_mem_map hu

/-- The items of a display are in the order of their keys. -/
theorem pairwise_ofList (items : List (String × Json F)) :
    ((Dict.ofList items).map Prod.fst).Pairwise (· < ·) := by
  induction items using List.reverseRecOn with
  | nil => exact .nil
  | append_singleton items item ih =>
    rw [Dict.ofList, List.foldl_append, List.foldl_cons, List.foldl_nil, ← Dict.ofList]
    exact Json.pairwise_insert ih _ _

/-- The keys of a display are those of its items. -/
theorem mem_ofList {items : List (String × Json F)} {m : PyStr × Json F}
    (h : m ∈ Dict.ofList items) : ∃ item ∈ items, m = (.ofString item.1, item.2) := by
  induction items using List.reverseRecOn with
  | nil => cases h
  | append_singleton items item ih =>
    rw [Dict.ofList, List.foldl_append, List.foldl_cons, List.foldl_nil, ← Dict.ofList] at h
    rcases Json.mem_insert h with rfl | h
    · exact ⟨item, by simp, rfl⟩
    · obtain ⟨item', hitem', rfl⟩ := ih h
      exact ⟨item', List.mem_append_left _ hitem', rfl⟩

/-- A display of values that are read back is read back. -/
theorem canonical_ofList {items : List (String × Json F)}
    (h : ∀ item ∈ items, Json.Canonical item.2) : (Dict.ofList items).Canonical := by
  refine .obj (pairwise_ofList items) (fun m hm => ?_) fun m hm => ?_
  · obtain ⟨item, -, rfl⟩ := mem_ofList hm
    exact fun u hu => isScalar_of_mem_map hu
  · obtain ⟨item, hitem, rfl⟩ := mem_ofList hm
    exact h item hitem

variable [PyFloat F]

/-- The text of a display is not longer than those of its items. -/
theorem length_dumps_ofList_le (items : List (String × Json F)) :
    (Json.dumps (.obj (Dict.ofList items))).length ≤
      (items.map fun i => 12 * i.1.length + (Json.dumps i.2).length + 4).sum + 2 := by
  refine le_trans (Json.length_dumps_obj_le _) (Nat.add_le_add_right ?_ 2)
  induction items using List.reverseRecOn with
  | nil => exact le_refl _
  | append_singleton items item ih =>
    rw [Dict.ofList, List.foldl_append, List.foldl_cons, List.foldl_nil, ← Dict.ofList]
    refine le_trans (Json.sum_insert_le _ _ _ _) ?_
    rw [List.map_append, List.sum_append, List.map_singleton, List.sum_singleton, Nat.add_comm]
    refine Nat.add_le_add ih ?_
    simp [PyStr.ofString, String.length_toList]

/-- The text of a byte string. -/
theorem length_dumps_b64_le (data : Bytes) :
    (Json.dumps (b64 (F := F) data)).length ≤ 16 * data.length + 50 := by
  have h := Json.length_dumpsStr_le ((b64encode data).map Char.toNat)
  rw [List.length_map, length_b64encode] at h
  rw [b64, Json.dumps]
  omega

theorem length_dumps_ofString_le (s : String) :
    (Json.dumps (.ofString (F := F) s)).length ≤ 12 * s.length + 2 := by
  have h := Json.length_dumpsStr_le (PyStr.ofString s)
  rw [PyStr.ofString, List.length_map, String.length_toList] at h
  exact h

/-- The encoding of a message, by the length of its text. -/
theorem length_encodeMessage_le (message : Dict F) :
    (encodeMessage message).length ≤ 4 * (Json.dumps (.obj message)).length := by
  rw [encodeMessage]
  generalize Json.dumps (.obj message) = text
  induction text with
  | nil => exact le_refl _
  | cons c text ih =>
    have hc := c.utf8Size_le_four
    rw [encodeUtf8, List.flatMap_cons, ← encodeUtf8, List.length_append, List.length_cons,
      String.length_utf8EncodeChar]
    omega

theorem decodeMessage_eq_ok {data : Bytes} {message : Dict F} :
    decodeMessage data = .ok message ↔
      ∃ text, decodeUtf8 data = some text ∧ Json.loads text = some (.obj message) := by
  rw [decodeMessage]
  constructor
  · intro h
    rcases htext : decodeUtf8 data with _ | text
    · simp [htext] at h
    rcases hv : Json.loads (F := F) text with _ | v
    · simp [htext, hv] at h
    cases v <;> simp [htext, hv] at h
    exact ⟨text, rfl, by rw [hv, h]⟩
  · rintro ⟨text, htext, hv⟩
    simp only [htext, hv]

/-- A message is read back. -/
theorem decodeMessage_encodeMessage {message : Dict F} (h : message.Canonical) :
    decodeMessage (encodeMessage message) = .ok message :=
  decodeMessage_eq_ok.2 ⟨_, decodeUtf8_encodeUtf8 _, Json.loads_dumps h⟩

/-! ## What may stand before and after a message -/

/-- White space before a message does not count. -/
theorem decodeMessage_space {text : List Char} (h : text.all Json.isSpace) {data : Bytes}
    {message : Dict F} (hdata : decodeMessage data = .ok message) :
    decodeMessage (encodeUtf8 text ++ data) = .ok message := by
  obtain ⟨text', htext', hmessage⟩ := decodeMessage_eq_ok.1 hdata
  rw [decodeUtf8_eq_some] at htext'
  refine decodeMessage_eq_ok.2 ⟨text ++ text', ?_, ?_⟩
  · rw [decodeUtf8_eq_some, encodeUtf8_append, htext']
  · rw [Json.loads_space h, hmessage]

/-- After a message there is only white space, which does not count. -/
theorem decodeMessage_append {a b : Bytes} {message message' : Dict F}
    (ha : decodeMessage a = .ok message) (hab : decodeMessage (a ++ b) = .ok message') :
    message' = message ∧ ∃ text, b = encodeUtf8 text ∧ text.all Json.isSpace := by
  obtain ⟨s, hs, hmessage⟩ := decodeMessage_eq_ok.1 ha
  obtain ⟨t, ht, hmessage'⟩ := decodeMessage_eq_ok.1 hab
  obtain ⟨u, rfl, hb⟩ := decodeUtf8_append hs ht
  rw [Json.loads_append hmessage] at hmessage'
  split_ifs at hmessage' with hspace
  obtain ⟨rfl⟩ := hmessage'
  exact ⟨rfl, u, hb, hspace⟩

/-- White space after a message does not count. -/
theorem decodeMessage_append_space {data : Bytes} {message : Dict F}
    (hdata : decodeMessage data = .ok message) {text : List Char} (h : text.all Json.isSpace) :
    decodeMessage (data ++ encodeUtf8 text) = .ok message := by
  obtain ⟨text', htext', hmessage⟩ := decodeMessage_eq_ok.1 hdata
  rw [decodeUtf8_eq_some] at htext'
  refine decodeMessage_eq_ok.2 ⟨text' ++ text, ?_, ?_⟩
  · rw [decodeUtf8_eq_some, encodeUtf8_append, htext']
  · rw [Json.loads_append hmessage, if_pos h]

/-- The text of a message ends with a brace. -/
theorem getLast?_dumps_obj (message : Dict F) :
    (Json.dumps (.obj message)).getLast? = some '}' := by
  rcases message with _ | ⟨⟨k, v⟩, ms⟩
  · rfl
  · rw [Json.dumps]
    simp [List.getLast?_cons, List.getLast?_append]

/-- No message that is written goes on after another one. -/
theorem append_of_decodeMessage {a b : Bytes} {message message' : Dict F}
    (ha : decodeMessage a = .ok message) (hab : a ++ b = encodeMessage message')
    (hmessage' : message'.Canonical) : b = [] := by
  have hdecode := decodeMessage_encodeMessage hmessage'
  rw [← hab] at hdecode
  obtain ⟨s, hs, -⟩ := decodeMessage_eq_ok.1 ha
  have htext' : decodeUtf8 (a ++ b) = some (Json.dumps (.obj message')) := by
    rw [hab]
    exact decodeUtf8_encodeUtf8 _
  obtain ⟨u, hu, hb⟩ := decodeUtf8_append hs htext'
  obtain ⟨-, text, hb', hspace⟩ := decodeMessage_append ha hdecode
  -- The brace at the end of the text would be white space.
  rcases List.eq_nil_or_concat u with rfl | ⟨u', c, rfl⟩
  · exact hb
  · have hc : c = '}' := by
      have hlast := getLast?_dumps_obj message'
      rw [hu, List.getLast?_append, List.concat_eq_append, List.getLast?_concat] at hlast
      simpa using hlast
    have htext : text = u'.concat c :=
      Option.some.inj ((decodeUtf8_encodeUtf8 text).symm.trans
        (hb' ▸ hb ▸ decodeUtf8_encodeUtf8 _))
    rw [htext, List.concat_eq_append, List.all_append, hc] at hspace
    simp [Json.isSpace] at hspace

end SecNet
