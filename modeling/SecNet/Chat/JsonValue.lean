import SecNet.Handshake.Message
import SecNet.Lib.JsonText

/-!
# What a program reads from a JSON value

`int(v)` of a value that came from a JSON text: a number, a truth value, or a string
that spells an integer, with white space around it, a sign, underscores between its
digits, and the decimal digits of any script. Then `d.get(key, default)`, `v[key]`,
the text that `json.dumps` writes when it is told nothing about separators, and what
`JSONResponse` sends of a value, which it does not take every string for.
-/

namespace SecNet

/-- What `int` makes of a float: it raises for the ones that are not finite. And which floats
    and integers a float equals. -/
class PyFloatInt (F : Type) where
  toInt : F → Except Exn ℤ
  eq : F → F → Bool
  eqInt : F → ℤ → Bool

instance : PyFloatInt (List Char) where
  toInt text :=
    match Json.intOfText (text.takeWhile (· ≠ '.')) with
    | some n => .ok n
    | none => .error (.valueError "cannot convert float NaN to integer")
  eq := (· == ·)
  eqInt := PyFloat.eqInt

/-- The zeros of the scripts that have decimal digits, beyond ASCII: the digits of a
    script follow its zero. -/
def decimalZeros : List ℕ :=
  [0x660, 0x6f0, 0x7c0, 0x966, 0x9e6, 0xa66, 0xae6, 0xb66, 0xbe6, 0xc66, 0xce6, 0xd66, 0xde6,
    0xe50, 0xed0, 0xf20, 0x1040, 0x1090, 0x17e0, 0x1810, 0x1946, 0x19d0, 0x1a80, 0x1a90, 0x1b50,
    0x1bb0, 0x1c40, 0x1c50, 0xa620, 0xa8d0, 0xa900, 0xa9d0, 0xa9f0, 0xaa50, 0xabf0, 0xff10,
    0x104a0, 0x10d30, 0x11066, 0x110f0, 0x11136, 0x111d0, 0x112f0, 0x11450, 0x114d0, 0x11650,
    0x116c0, 0x11730, 0x118e0, 0x11950, 0x11c50, 0x11d50, 0x11da0, 0x16a60, 0x16ac0, 0x16b50,
    0x1d7ce, 0x1d7d8, 0x1d7e2, 0x1d7ec, 0x1d7f6, 0x1e140, 0x1e2f0, 0x1e950, 0x1fbf0]

/-- White space beyond ASCII. -/
def unicodeSpaces : List ℕ :=
  [0x85, 0xa0, 0x1680, 0x2000, 0x2001, 0x2002, 0x2003, 0x2004, 0x2005, 0x2006, 0x2007, 0x2008,
    0x2009, 0x200a, 0x2028, 0x2029, 0x202f, 0x205f, 0x3000]

/-- A code point as `int` reads it: white space and decimal digits in ASCII. -/
def toAscii (u : ℕ) : Char :=
  if u < 127 then Char.ofNat u
  else if u ∈ unicodeSpaces then ' '
  else
    match decimalZeros.find? fun z => z ≤ u ∧ u < z + 10 with
    | some z => Char.ofNat (0x30 + (u - z))
    | none => '?'

/-- White space of ASCII. -/
def asciiSpaces : List Char := [' ', '\t', '\n', '\r', '\x0b', '\x0c']

/-- A text without the white space around it. -/
def strip (text : List Char) : List Char :=
  ((text.dropWhile (· ∈ asciiSpaces)).reverse.dropWhile (· ∈ asciiSpaces)).reverse

/-- The digits of a text, which has single underscores between some of them. -/
def underscored : List Char → Option (List Char)
  | [] => none
  | [c] => if c.isDigit then some [c] else none
  | c :: '_' :: cs => if c.isDigit then (underscored cs).map (c :: ·) else none
  | c :: cs => if c.isDigit then (underscored cs).map (c :: ·) else none

/-- The integer that a string spells. -/
def intOfStr (s : PyStr) : Option ℤ :=
  match strip (s.map toAscii) with
  | '-' :: text => do Json.intOfText ('-' :: (← underscored text))
  | '+' :: text => do Json.intOfText (← underscored text)
  | text => do Json.intOfText (← underscored text)

example : intOfStr (.ofString " +1_0 ") = some 10 := by decide
example : intOfStr (.ofString "abc") = none := by decide

/-- Digits without underscores. -/
theorem underscored_of_digits {text : List Char} (hne : text ≠ []) (h : ∀ c ∈ text, c.isDigit) :
    underscored text = some text := by
  induction text using underscored.induct with
  | case1 => exact absurd rfl hne
  | case2 c hc => rw [underscored, if_pos hc]
  | case3 c hc => exact absurd (h c List.mem_cons_self) hc
  -- An underscore is not a digit.
  | case4 c text => exact absurd (h '_' (by simp)) (by decide)
  | case5 c text => exact absurd (h '_' (by simp)) (by decide)
  | case6 c text hnil hunderscore hc ih =>
    rw [underscored, if_pos hc, ih (fun hnil' => hnil hnil')
      fun d hd => h d (List.mem_cons_of_mem c hd)]
    · rfl
    · exact hnil
    · exact hunderscore
  | case7 c text hnil hunderscore hc => exact absurd (h c List.mem_cons_self) hc

/-- A text without white space. -/
theorem strip_of_forall {text : List Char} (h : ∀ c ∈ text, c ∉ asciiSpaces) :
    strip text = text := by
  have hdrop : ∀ l : List Char, (∀ c ∈ l, c ∉ asciiSpaces) → l.dropWhile (· ∈ asciiSpaces) = l := by
    intro l hl
    cases l with
    | nil => rfl
    | cons c l => exact List.dropWhile_cons_of_neg (by simpa using hl c List.mem_cons_self)
  rw [strip, hdrop text h, hdrop _ (fun c hc => h c (List.mem_reverse.1 hc)), List.reverse_reverse]

theorem toAscii_toNat {c : Char} (h : c.toNat < 127) : toAscii c.toNat = c := by
  rw [toAscii, if_pos h, Char.ofNat_toNat]

/-- `int(str(n))`. -/
theorem intOfStr_dumpsInt {n : ℤ} (h : (Nat.toDigits 10 n.natAbs).length ≤ Json.maxIntDigits) :
    intOfStr ((Json.dumpsInt n).map Char.toNat) = some n := by
  have hmem : ∀ c ∈ Json.dumpsInt n, c.toNat < 127 ∧ c ∉ asciiSpaces := by
    intro c hc
    rcases Json.mem_dumpsInt hc with rfl | hdigit
    · decide
    · have hspaces : ∀ d ∈ asciiSpaces, ¬ d.isDigit := by simp [asciiSpaces, Char.isDigit]
      have hle : 48 ≤ c.toNat ∧ c.toNat ≤ 57 := by
        simpa [Char.isDigit, UInt32.le_iff_toNat_le] using hdigit
      exact ⟨by omega, fun hspace => hspaces c hspace hdigit⟩
  have hascii : ((Json.dumpsInt n).map Char.toNat).map toAscii = Json.dumpsInt n := by
    rw [List.map_map]
    exact (List.map_congr_left fun c hc => toAscii_toNat (hmem c hc).1).trans (List.map_id _)
  have hdigits : underscored (Nat.toDigits 10 n.natAbs) = some (Nat.toDigits 10 n.natAbs) :=
    underscored_of_digits (Nat.toDigits_ne_nil) fun c hc =>
      Nat.isDigit_of_mem_toDigits (by norm_num) (le_refl _) hc
  have hread := Json.intOfText_dumpsInt h
  rw [intOfStr, hascii, strip_of_forall fun c hc => (hmem c hc).2]
  by_cases hneg : n < 0
  · rw [Json.dumpsInt, if_pos hneg] at hread ⊢
    simp only [List.cons_append, List.nil_append, hdigits] at hread ⊢
    exact hread
  · rw [Json.dumpsInt, if_neg hneg, List.nil_append] at hread ⊢
    -- The text starts with a digit.
    split
    · rename_i text heq
      have hdigit := Nat.isDigit_of_mem_toDigits (by norm_num) (le_refl _)
        (heq ▸ List.mem_cons_self)
      exact absurd hdigit (by decide)
    · rename_i text heq
      have hdigit := Nat.isDigit_of_mem_toDigits (by norm_num) (le_refl _)
        (heq ▸ List.mem_cons_self)
      exact absurd hdigit (by decide)
    · simp only [hdigits]
      exact hread

variable {F : Type}

/-- `int(v)`. -/
def pyInt [PyFloatInt F] : Json F → Except Exn ℤ
  | .bool b => .ok (if b then 1 else 0)
  | .int n => .ok n
  | .float x => PyFloatInt.toInt x
  | .str s =>
    match intOfStr s with
    | some n => .ok n
    | none => .error (.valueError "invalid literal for int() with base 10")
  | v => .error (.typeError ("int() argument must be a string, a bytes-like object or a real " ++
      s!"number, not '{v.typeName}'"))

/-- The integer that a truth value or an integer equals. -/
def Json.asInt : Json F → Option ℤ
  | .bool b => some (if b then 1 else 0)
  | .int n => some n
  | _ => none

/-- `v == w`, for keys of a dictionary that are not strings. -/
def Json.sameKey [PyFloatInt F] : Json F → Json F → Bool
  | .null, .null => true
  | .float x, .float y => PyFloatInt.eq x y
  | .float x, w => w.asInt.any (PyFloatInt.eqInt x)
  | v, .float y => v.asInt.any (PyFloatInt.eqInt y)
  | v, w => v.asInt.isSome && v.asInt = w.asInt

/-- `d.get(key, default)`. -/
def Dict.getD (d : Dict F) (key : String) (default : Json F) : Json F :=
  (d.lookup (.ofString key)).getD default

theorem Dict.getD_ofList {items : List (String × Json F)} {key : String} {v default : Json F}
    (h : items.reverse.lookup key = some v) : Dict.getD (.ofList items) key default = v := by
  rw [Dict.getD, lookup_ofList, h]
  rfl

/-- `v[key]`. -/
def Json.getItem (v : Json F) (key : String) : Except Exn (Json F) :=
  match v with
  | .obj d => Dict.getItem d key
  | .arr _ => .error (.typeError "list indices must be integers or slices, not str")
  | .str _ => .error (.typeError "string indices must be integers, not 'str'")
  | v => .error (.typeError s!"'{v.typeName}' object is not subscriptable")

/-- `unb64` of the agent: `base64.b64decode(v.encode("ascii"), validate=True)`. -/
def agentUnb64 : Json F → Except Exn Bytes
  | .str s => unb64 (F := F) (.str s)
  | v => .error (.attributeError s!"'{v.typeName}' object has no attribute 'encode'")

theorem agentUnb64_b64 (data : Bytes) : agentUnb64 (F := F) (b64 data) = .ok data := by
  rw [b64, agentUnb64]
  exact unb64_b64 data

namespace Json

variable [PyFloat F]

mutual

/-- `json.dumps(v)`, up to the order of the members. -/
def dumpsSpaced : Json F → List Char
  | .arr [] => ['[', ']']
  | .arr (v :: vs) => '[' :: (dumpsSpaced v ++ (dumpsSpacedElements vs ++ [']']))
  | .obj [] => ['{', '}']
  | .obj ((k, v) :: ms) =>
    '{' :: (dumpsStr k ++ ':' :: ' ' :: (dumpsSpaced v ++ (dumpsSpacedMembers ms ++ ['}'])))
  | v => dumps v

/-- The elements after the first one. -/
def dumpsSpacedElements : List (Json F) → List Char
  | [] => []
  | v :: vs => ',' :: ' ' :: (dumpsSpaced v ++ dumpsSpacedElements vs)

/-- The members after the first one. -/
def dumpsSpacedMembers : List (PyStr × Json F) → List Char
  | [] => []
  | (k, v) :: ms =>
    ',' :: ' ' :: (dumpsStr k ++ ':' :: ' ' :: (dumpsSpaced v ++ dumpsSpacedMembers ms))

end

mutual

/-- All that a value is made of passes a test: the values without elements, and the keys. -/
def leaves (p : Json F → Bool) : Json F → Bool
  | .arr vs => leavesElements p vs
  | .obj ms => leavesMembers p ms
  | v => p v

/-- All elements do. -/
def leavesElements (p : Json F → Bool) : List (Json F) → Bool
  | [] => true
  | v :: vs => leaves p v && leavesElements p vs

/-- All members do, with their keys. -/
def leavesMembers (p : Json F → Bool) : List (PyStr × Json F) → Bool
  | [] => true
  | (k, v) :: ms => p (.str k) && leaves p v && leavesMembers p ms

end

omit [PyFloat F] in
/-- A value without a lone surrogate. -/
def encodable : Json F → Bool
  | .str s => s.all fun u => u < 0xD800 ∨ 0xE000 ≤ u ∧ u < 0x110000
  | _ => true

omit [PyFloat F] in
/-- A number that is written as JSON has it. -/
def compliant [PyFloatInt F] : Json F → Bool
  | .float x => (PyFloatInt.toInt x).isOk
  | .int n => (Nat.toDigits 10 n.natAbs).length ≤ maxIntDigits
  | _ => true

end Json

/-- What `JSONResponse` makes of a content, up to the order of the members: `json.dumps` in the
    style of `JSON.stringify`, without the constants that JSON does not have, in UTF-8. -/
def jsonResponse [PyFloat F] [PyFloatInt F] (v : Json F) : Except Exn Bytes :=
  if !v.leaves Json.compliant then
    .error (.valueError "Out of range float values are not JSON compliant")
  else if !v.leaves Json.encodable then .error .unicodeEncodeError
  else .ok (encodeUtf8 (Json.script.write v))

namespace Json

theorem leavesElements_iff {p : Json F → Bool} {vs : List (Json F)} :
    leavesElements p vs ↔ ∀ v ∈ vs, leaves p v := by
  induction vs with
  | nil => exact iff_of_true (by rw [leavesElements]) nofun
  | cons v vs ih => rw [leavesElements, Bool.and_eq_true, ih, List.forall_mem_cons]

theorem leavesMembers_iff {p : Json F → Bool} {ms : List (PyStr × Json F)} :
    leavesMembers p ms ↔ ∀ m ∈ ms, p (.str m.1) ∧ leaves p m.2 := by
  induction ms with
  | nil => exact iff_of_true (by rw [leavesMembers]) nofun
  | cons m ms ih =>
    rw [leavesMembers, Bool.and_eq_true, Bool.and_eq_true, ih, List.forall_mem_cons]

/-- The texts of the program can be encoded. -/
theorem encodable_ofString (s : String) : encodable (.ofString s : Json F) :=
  List.all_eq_true.2 fun _ hu => decide_eq_true (isScalar_of_mem_map hu)

theorem leaves_ofString {p : Json F → Bool} {s : String} :
    leaves p (.ofString s) = p (.ofString s) := rfl

/-- A dictionary display passes a test when its values do, whose keys can be encoded. -/
theorem leaves_ofList {p : Json F → Bool} {items : List (String × Json F)}
    (hkeys : ∀ item ∈ items, p (.ofString item.1)) (h : ∀ item ∈ items, leaves p item.2) :
    leaves p (.obj (Dict.ofList items)) := by
  rw [leaves, leavesMembers_iff]
  intro m hm
  obtain ⟨item, hitem, rfl⟩ := mem_ofList hm
  exact ⟨hkeys item hitem, h item hitem⟩

theorem leaves_of_lookup {p : Json F → Bool} {d : Dict F} {k : PyStr} {v : Json F}
    (h : leaves p (.obj d)) (hv : d.lookup k = some v) : leaves p v := by
  rw [leaves, leavesMembers_iff] at h
  obtain ⟨before, after, rfl, -⟩ := List.lookup_eq_some_iff.1 hv
  exact (h (k, v) (by simp)).2

end Json

theorem exists_jsonResponse [PyFloat F] [PyFloatInt F] {v : Json F} :
    (∃ data, jsonResponse v = .ok data) ↔ v.leaves Json.compliant ∧ v.leaves Json.encodable := by
  rw [jsonResponse]
  split_ifs with hcompliant hencodable
  · exact iff_of_false nofun fun h => by rw [h.1] at hcompliant; cases hcompliant
  · exact iff_of_false nofun fun h => by rw [h.2] at hencodable; cases hencodable
  · rw [Bool.not_eq_true, Bool.not_eq_false'] at hcompliant hencodable
    exact iff_of_true ⟨_, rfl⟩ ⟨hcompliant, hencodable⟩

end SecNet
