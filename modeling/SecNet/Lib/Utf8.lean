import SecNet.Lib.Bytes

/-!
# UTF-8

Text as byte strings: `encodeUtf8` is the encoding of a list of characters, and
`decodeUtf8` reads a byte string strictly, as the encoding of scalar values and
of nothing else.

* `decodeUtf8_eq_some`: what is decoded is what was encoded;
* `decodeUtf8_append`: what follows a complete text is a text of its own.
-/

namespace SecNet

/-- `text.encode("utf-8")`. -/
def encodeUtf8 (text : List Char) : Bytes := text.flatMap String.utf8EncodeChar

/-- `data.decode("utf-8")`: the text, or nothing where it raises. -/
def decodeUtf8 (data : Bytes) : Option (List Char) :=
  data.toByteArray.utf8Decode?.map Array.toList

theorem toByteArray_encodeUtf8 (text : List Char) :
    (encodeUtf8 text).toByteArray = text.utf8Encode := rfl

theorem toByteArray_injective {a b : Bytes} (h : a.toByteArray = b.toByteArray) : a = b := by
  have hdata := congrArg (fun x => x.data.toList) h
  simpa using hdata

@[simp]
theorem encodeUtf8_append (s t : List Char) :
    encodeUtf8 (s ++ t) = encodeUtf8 s ++ encodeUtf8 t := List.flatMap_append

/-- What is decoded is what was encoded. -/
theorem decodeUtf8_eq_some {data : Bytes} {text : List Char} :
    decodeUtf8 data = some text ↔ data = encodeUtf8 text := by
  constructor
  · intro h
    obtain ⟨chars, hchars, rfl⟩ := Option.map_eq_some_iff.1 h
    refine toByteArray_injective ?_
    have hsome : data.toByteArray.utf8Decode?.isSome := Option.isSome_of_eq_some hchars
    have hget : data.toByteArray.utf8Decode?.get hsome = chars := by simp [hchars]
    rw [toByteArray_encodeUtf8, ← hget, ByteArray.utf8Encode_get_utf8Decode?]
  · rintro rfl
    rw [decodeUtf8, toByteArray_encodeUtf8, List.utf8Decode?_utf8Encode, Option.map_some]

theorem decodeUtf8_encodeUtf8 (text : List Char) : decodeUtf8 (encodeUtf8 text) = some text :=
  decodeUtf8_eq_some.2 rfl

theorem encodeUtf8_injective : Function.Injective encodeUtf8 := fun s t h =>
  Option.some.inj (by rw [← decodeUtf8_encodeUtf8, h, decodeUtf8_encodeUtf8])

/-- What follows a complete text is a text of its own. -/
theorem decodeUtf8_append {a b : Bytes} {s t : List Char} (ha : decodeUtf8 a = some s)
    (hab : decodeUtf8 (a ++ b) = some t) : ∃ u, t = s ++ u ∧ b = encodeUtf8 u := by
  rw [decodeUtf8_eq_some] at ha hab
  subst ha
  have henc : s.utf8Encode ++ b.toByteArray = t.utf8Encode := by
    rw [← toByteArray_encodeUtf8, ← toByteArray_encodeUtf8, ← hab, List.toByteArray_append]
  obtain ⟨u, rfl⟩ := List.isPrefix_of_utf8Encode_append_eq_utf8Encode _ henc
  rw [encodeUtf8_append] at hab
  exact ⟨u, rfl, List.append_cancel_left hab⟩

end SecNet
