import SecNet.Lib.Json

/-!
# Styles of JSON texts

The writers of JSON differ in a few points only: how a code point of a string is escaped, and
whether there are spaces after commas and colons. Such a style (`Style`) is a parameter of one
writer (`Style.write`), of which `dumps` is a case (`dumps_eq_write`), and so is
`JSON.stringify` of a browser (`script`).

The size of a text is a sum over its characters: their number, or the number of the bytes
that encode them (`weigh`).

* `Style.weigh_write_obj`: the size of the text of an object, by those of its members;
* `sum_insert`: a sum over the members, when one is set.
-/

namespace SecNet

namespace Json

/-- How a text is written. -/
structure Style where
  escape : ℕ → List Char
  comma : List Char
  colon : List Char

/-- `json.dumps(v, separators=(",", ":"))`. -/
def compact : Style := ⟨escape, [','], [':']⟩

/-- `json.dumps(v)`. -/
def spaced : Style := ⟨escape, [',', ' '], [':', ' ']⟩

/-- A code point in a string of `JSON.stringify`: only the lone surrogates are escaped, of
    those that are not in ASCII. -/
def escapeScript (u : ℕ) : List Char :=
  if u = 0x22 then ['\\', '"']
  else if u = 0x5C then ['\\', '\\']
  else if u = 0x08 then ['\\', 'b']
  else if u = 0x0C then ['\\', 'f']
  else if u = 0x0A then ['\\', 'n']
  else if u = 0x0D then ['\\', 'r']
  else if u = 0x09 then ['\\', 't']
  else if u < 0x20 ∨ 0xD800 ≤ u ∧ u < 0xE000 then '\\' :: 'u' :: hexDigits u
  else [Char.ofNat u]

/-- `JSON.stringify(v)`. -/
def script : Style := ⟨escapeScript, [','], [':']⟩

namespace Style

variable {F : Type} [PyFloat F] (σ : Style)

/-- A string. -/
def str (s : PyStr) : List Char := '"' :: (s.flatMap σ.escape ++ ['"'])

mutual

/-- The text of a value. -/
def write : Json F → List Char
  | .null => ['n', 'u', 'l', 'l']
  | .bool true => ['t', 'r', 'u', 'e']
  | .bool false => ['f', 'a', 'l', 's', 'e']
  | .int n => dumpsInt n
  | .float x => PyFloat.text x
  | .str s => σ.str s
  | .arr [] => ['[', ']']
  | .arr (v :: vs) => '[' :: (write v ++ (writeElements vs ++ [']']))
  | .obj [] => ['{', '}']
  | .obj ((k, v) :: ms) => '{' :: (σ.str k ++ (σ.colon ++ (write v ++ (writeMembers ms ++ ['}']))))

/-- The elements after the first one. -/
def writeElements : List (Json F) → List Char
  | [] => []
  | v :: vs => σ.comma ++ (write v ++ writeElements vs)

/-- The members after the first one. -/
def writeMembers : List (PyStr × Json F) → List Char
  | [] => []
  | (k, v) :: ms => σ.comma ++ (σ.str k ++ (σ.colon ++ (write v ++ writeMembers ms)))

end

end Style

variable {F : Type} [PyFloat F]

mutual

/-- `dumps` writes in the compact style. -/
theorem dumps_eq_write (v : Json F) : dumps v = compact.write v := by
  match v with
  | .null | .bool true | .bool false | .int _ | .float _ | .str _ => rfl
  | .arr [] | .obj [] => rfl
  | .arr (v :: vs) =>
    rw [dumps, Style.write, dumps_eq_write v, dumpsElements_eq_write vs]
  | .obj ((k, v) :: ms) =>
    rw [dumps, Style.write, dumps_eq_write v, dumpsMembers_eq_write ms]
    rfl

theorem dumpsElements_eq_write (vs : List (Json F)) :
    dumpsElements vs = compact.writeElements vs := by
  match vs with
  | [] => rfl
  | v :: vs =>
    rw [dumpsElements, Style.writeElements, dumps_eq_write v, dumpsElements_eq_write vs]
    rfl

theorem dumpsMembers_eq_write (ms : List (PyStr × Json F)) :
    dumpsMembers ms = compact.writeMembers ms := by
  match ms with
  | [] => rfl
  | (k, v) :: ms =>
    rw [dumpsMembers, Style.writeMembers, dumps_eq_write v, dumpsMembers_eq_write ms]
    rfl

end

/-! ## The size of a text -/

/-- The sum of the weights of the characters. -/
def weigh (w : Char → ℕ) (text : List Char) : ℕ := (text.map w).sum

@[simp]
theorem weigh_nil (w : Char → ℕ) : weigh w [] = 0 := rfl

@[simp]
theorem weigh_cons (w : Char → ℕ) (c : Char) (text : List Char) :
    weigh w (c :: text) = w c + weigh w text := rfl

@[simp]
theorem weigh_append (w : Char → ℕ) (s t : List Char) :
    weigh w (s ++ t) = weigh w s + weigh w t := by
  rw [weigh, List.map_append, List.sum_append, weigh, weigh]

/-- Where all characters weigh one, the length. -/
theorem weigh_one (text : List Char) : weigh (fun _ => 1) text = text.length := by
  rw [weigh, List.map_const', List.sum_replicate, smul_eq_mul, mul_one]

/-- What a member adds to the size of an object. -/
def Style.memberWeight (σ : Style) (w : Char → ℕ) (m : PyStr × Json F) : ℕ :=
  weigh w σ.comma + weigh w (σ.str m.1) + weigh w σ.colon + weigh w (σ.write m.2)

theorem Style.weigh_writeMembers (σ : Style) (w : Char → ℕ) (ms : List (PyStr × Json F)) :
    weigh w (σ.writeMembers ms) = (ms.map (σ.memberWeight w)).sum := by
  induction ms with
  | nil => rfl
  | cons m ms ih =>
    rw [Style.writeMembers, List.map_cons, List.sum_cons, ← ih, memberWeight]
    simp only [weigh_append]
    omega

/-- The size of an object with members, which has a comma less than members. -/
theorem Style.weigh_write_obj (σ : Style) (w : Char → ℕ) {ms : List (PyStr × Json F)}
    (h : ms ≠ []) :
    weigh w (σ.write (.obj ms)) + weigh w σ.comma =
      (ms.map (σ.memberWeight w)).sum + (w '{' + w '}') := by
  obtain ⟨m, ms, rfl⟩ := List.exists_cons_of_ne_nil h
  rw [Style.write, List.map_cons, List.sum_cons, ← weigh_writeMembers, memberWeight]
  simp only [weigh_cons, weigh_append, weigh_nil]
  omega

omit [PyFloat F] in
/-- A sum over the members, when one is set that was not there. -/
theorem sum_insert (f : PyStr × Json F → ℕ) {k : PyStr} (v : Json F)
    {ms : List (PyStr × Json F)} (h : k ∉ ms.map Prod.fst) :
    ((insert k v ms).map f).sum = f (k, v) + (ms.map f).sum := by
  induction ms with
  | nil => rfl
  | cons m ms ih =>
    obtain ⟨k₀, v₀⟩ := m
    rw [List.map_cons, List.mem_cons, not_or] at h
    rw [insert, if_neg h.1]
    split_ifs
    · rfl
    · rw [List.map_cons, List.sum_cons, ih h.2, List.map_cons, List.sum_cons]
      omega

end Json

end SecNet
