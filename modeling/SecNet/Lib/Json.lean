import Mathlib.Tactic

/-!
# JSON

JSON values and their text, as the `json` module has them. A string is a list
of code points (also of lone surrogates, which an escape can make), an object
is the list of its members in the order of their keys, and what a float is is
left to a class, `PyFloat`.

`loads` reads a text character by character, on a stack of the arrays and
objects that are still open (`step`). It accepts what `json.loads` does: the
constants `NaN` and `Infinity` too, and of the members of one key the last one.
`dumps` writes a value with sorted keys, without spaces, and in ASCII.

* `loads_append`: after an object, a text may only go on with white space;
* `loads_space`: white space before a value does not count.
-/

namespace SecNet

/-- A string, by its code points. -/
abbrev PyStr := List ℕ

/-- The code points of a text. -/
def PyStr.ofString (s : String) : PyStr := s.toList.map Char.toNat

/-- The floats: what `float` makes of the text of a number, how one is
    written, and the integers a float equals. -/
class PyFloat (F : Type) where
  ofText : List Char → F
  text : F → List Char
  nan : F
  infinity : F
  negInfinity : F
  eqInt : F → ℤ → Bool

/-- Floats by their texts, for concrete runs, whose messages have none. -/
instance : PyFloat (List Char) where
  ofText text := text
  text text := text
  nan := "NaN".toList
  infinity := "Infinity".toList
  negInfinity := "-Infinity".toList
  eqInt text n := text = (toString n).toList ++ ['.', '0']

/-- A JSON value. -/
inductive Json (F : Type)
  | null
  | bool (b : Bool)
  | int (n : ℤ)
  | float (x : F)
  | str (s : PyStr)
  | arr (elements : List (Json F))
  | obj (members : List (PyStr × Json F))

namespace Json

variable {F : Type}

/-- Setting a member of an object: in place of the one with that key, if any. -/
def insert (k : PyStr) (v : Json F) : List (PyStr × Json F) → List (PyStr × Json F)
  | [] => [(k, v)]
  | (k', v') :: ms =>
    if k < k' then (k, v) :: (k', v') :: ms
    else if k = k' then (k, v) :: ms
    else (k', v') :: insert k v ms

theorem lookup_cons {α : Type} [BEq α] [LawfulBEq α] [DecidableEq α] (k k' : α) (v : Json F)
    (ms : List (α × Json F)) :
    List.lookup k' ((k, v) :: ms) = if k' = k then some v else ms.lookup k' := by
  rw [List.lookup_cons]
  by_cases h : k' = k
  · rw [if_pos h, beq_iff_eq.2 h]
  · rw [if_neg h, beq_eq_false_iff_ne.2 h]

/-- The member that is set is found, and the others are as before. -/
theorem lookup_insert (k k' : PyStr) (v : Json F) (ms : List (PyStr × Json F)) :
    (insert k v ms).lookup k' = if k' = k then some v else ms.lookup k' := by
  induction ms with
  | nil => rw [insert, lookup_cons]
  | cons m ms ih =>
    obtain ⟨k₀, v₀⟩ := m
    rw [insert]
    by_cases hlt : k < k₀
    · rw [if_pos hlt, lookup_cons]
    by_cases heq : k = k₀
    · rw [if_neg hlt, if_pos heq, lookup_cons, lookup_cons, heq]
      split_ifs <;> rfl
    · rw [if_neg hlt, if_neg heq, lookup_cons, lookup_cons, ih]
      by_cases hk : k' = k
      · rw [if_pos hk, if_pos hk, if_neg (hk ▸ heq)]
      · rw [if_neg hk, if_neg hk]

theorem mem_insert {k : PyStr} {v : Json F} {ms : List (PyStr × Json F)} {m : PyStr × Json F}
    (h : m ∈ insert k v ms) : m = (k, v) ∨ m ∈ ms := by
  induction ms with
  | nil => exact .inl (List.mem_singleton.1 h)
  | cons m' ms ih =>
    rw [insert] at h
    split_ifs at h
    · exact List.mem_cons.1 h
    · rcases List.mem_cons.1 h with h | h
      · exact .inl h
      · exact .inr (List.mem_cons_of_mem _ h)
    · rcases List.mem_cons.1 h with h | h
      · exact .inr (h ▸ List.mem_cons_self)
      · exact (ih h).imp_right (List.mem_cons_of_mem _)

/-- The members stay in the order of their keys. -/
theorem pairwise_insert {ms : List (PyStr × Json F)} (h : (ms.map Prod.fst).Pairwise (· < ·))
    (k : PyStr) (v : Json F) : ((insert k v ms).map Prod.fst).Pairwise (· < ·) := by
  induction ms with
  | nil => exact List.pairwise_singleton _ _
  | cons m ms ih =>
    obtain ⟨k₀, v₀⟩ := m
    rw [List.map_cons, List.pairwise_cons] at h
    rw [insert]
    split_ifs with hlt heq
    · rw [List.map_cons, List.map_cons, List.pairwise_cons, List.pairwise_cons]
      refine ⟨fun k' hk' => ?_, h⟩
      rcases List.mem_cons.1 hk' with rfl | hk'
      · exact hlt
      · exact lt_trans hlt (h.1 k' hk')
    · rw [List.map_cons, List.pairwise_cons, heq]
      exact h
    · rw [List.map_cons, List.pairwise_cons]
      refine ⟨fun k' hk' => ?_, ih h.2⟩
      obtain ⟨m', hm', rfl⟩ := List.mem_map.1 hk'
      rcases mem_insert hm' with rfl | hm'
      · exact lt_of_le_of_ne (not_lt.1 hlt) (Ne.symm heq)
      · exact h.1 _ (List.mem_map_of_mem hm')

/-- A member that is there is set to what it is. -/
theorem insert_of_lookup {k : PyStr} {v : Json F} {ms : List (PyStr × Json F)}
    (h : (ms.map Prod.fst).Pairwise (· < ·)) (hv : ms.lookup k = some v) : insert k v ms = ms := by
  induction ms with
  | nil => cases hv
  | cons m ms ih =>
    obtain ⟨k₀, v₀⟩ := m
    rw [List.map_cons, List.pairwise_cons] at h
    rw [lookup_cons] at hv
    rw [insert]
    split_ifs at hv with heq
    · rw [heq, if_neg (lt_irrefl _), if_pos rfl, Option.some.inj hv]
    · obtain ⟨ms₁, ms₂, hms, -⟩ := List.lookup_eq_some_iff.1 hv
      have hk : k ∈ ms.map Prod.fst := by
        rw [hms]
        exact List.mem_map_of_mem (List.mem_append_right _ List.mem_cons_self)
      rw [if_neg (lt_asymm (h.1 k hk)), if_neg heq, ih h.2 hv]

/-- A member adds no more than its own part to a sum over the members. -/
theorem sum_insert_le (f : PyStr × Json F → ℕ) (k : PyStr) (v : Json F)
    (ms : List (PyStr × Json F)) :
    ((insert k v ms).map f).sum ≤ f (k, v) + (ms.map f).sum := by
  induction ms with
  | nil => exact le_refl _
  | cons m ms ih =>
    obtain ⟨k₀, v₀⟩ := m
    rw [insert]
    split_ifs <;> simp only [List.map_cons, List.sum_cons] <;> omega

/-! ## Reading -/

/-- White space. -/
def isSpace (c : Char) : Bool := c = ' ' ∨ c = '\t' ∨ c = '\n' ∨ c = '\r'

/-- An array or object that is still open: its elements, or its members and the
    key of the one to come. -/
inductive Open (F : Type)
  | arr (elements : List (Json F))
  | obj (members : List (PyStr × Json F)) (key : PyStr)

/-- How far a number has been read. -/
inductive Digits
  | minus
  | zero
  | integer
  | point
  | fraction
  | exponent
  | exponentSign
  | exponentDigits
  deriving DecidableEq

/-- How far an escape in a string has been read: after `\u`, how many digits
    are to come, and the code so far. -/
inductive Escape
  | none
  | backslash
  | hex (left code : ℕ)
  deriving DecidableEq

/-- What a string is read for: a value, or the key of a member. -/
inductive Target (F : Type)
  | value (K : List (Open F))
  | key (members : List (PyStr × Json F)) (K : List (Open F))

/-- The states of the reader, with the arrays and objects that are open. -/
inductive State (F : Type)
  /-- A value is to come. -/
  | value (K : List (Open F))
  /-- After `[`. -/
  | arr (K : List (Open F))
  /-- After an element. -/
  | element (elements : List (Json F)) (K : List (Open F))
  /-- After `{`. -/
  | obj (K : List (Open F))
  /-- A key is to come. -/
  | key (members : List (PyStr × Json F)) (K : List (Open F))
  /-- After a key. -/
  | colon (members : List (PyStr × Json F)) (key : PyStr) (K : List (Open F))
  /-- After a member. -/
  | member (members : List (PyStr × Json F)) (K : List (Open F))
  /-- In a string. -/
  | str (target : Target F) (units : List ℕ) (escape : Escape)
  /-- In a number. -/
  | num (text : List Char) (digits : Digits) (K : List (Open F))
  /-- In the text of a constant. -/
  | const (rest : List Char) (v : Json F) (K : List (Open F))
  /-- After the value. -/
  | done (v : Json F)

/-- The state after a value. -/
def deliver (v : Json F) : List (Open F) → State F
  | [] => .done v
  | .arr es :: K => .element (es ++ [v]) K
  | .obj ms k :: K => .member (insert k v ms) K

def isHigh (u : ℕ) : Bool := 0xD800 ≤ u ∧ u < 0xDC00

def isLow (u : ℕ) : Bool := 0xDC00 ≤ u ∧ u < 0xE000

/-- The code points of a string: two escapes that are a pair of surrogates make one. -/
def joinSurrogates : List ℕ → PyStr
  | h :: l :: us =>
    if isHigh h && isLow l then
      (0x10000 + (h - 0xD800) * 0x400 + (l - 0xDC00)) :: joinSurrogates us
    else h :: joinSurrogates (l :: us)
  | us => us

/-- The state after a string. -/
def Target.close (s : PyStr) : Target F → State F
  | .value K => deliver (.str s) K
  | .key ms K => .colon ms s K

/-- The value of a hexadecimal digit. -/
def hexValue (c : Char) : Option ℕ := "0123456789abcdef".toList.idxOf? c.toLower

/-- The character of an escape with one letter. -/
def unescape : Char → Option ℕ
  | '"' => some 0x22
  | '\\' => some 0x5C
  | '/' => some 0x2F
  | 'b' => some 0x08
  | 'f' => some 0x0C
  | 'n' => some 0x0A
  | 'r' => some 0x0D
  | 't' => some 0x09
  | _ => none

/-- A character of a string. -/
def strStep (target : Target F) (units : List ℕ) : Escape → Char → Option (State F)
  | .none, c =>
    if c = '"' then some (target.close (joinSurrogates units))
    else if c = '\\' then some (.str target units .backslash)
    else if c.toNat < 0x20 then none
    else some (.str target (units ++ [c.toNat]) .none)
  | .backslash, c =>
    if c = 'u' then some (.str target units (.hex 4 0))
    else do some (.str target (units ++ [← unescape c]) .none)
  | .hex left code, c => do
    let code := code * 16 + (← hexValue c)
    if left ≤ 1 then some (.str target (units ++ [code]) .none)
    else some (.str target units (.hex (left - 1) code))

/-- A character that goes on with a number. -/
def digitsStep : Digits → Char → Option Digits
  | .minus, c => if c = '0' then some .zero else if c.isDigit then some .integer else none
  | .zero, c =>
    if c = '.' then some .point else if c = 'e' ∨ c = 'E' then some .exponent else none
  | .integer, c =>
    if c.isDigit then some .integer else if c = '.' then some .point
    else if c = 'e' ∨ c = 'E' then some .exponent else none
  | .point, c => if c.isDigit then some .fraction else none
  | .fraction, c =>
    if c.isDigit then some .fraction else if c = 'e' ∨ c = 'E' then some .exponent else none
  | .exponent, c =>
    if c.isDigit then some .exponentDigits else if c = '+' ∨ c = '-' then some .exponentSign
    else none
  | .exponentSign, c => if c.isDigit then some .exponentDigits else none
  | .exponentDigits, c => if c.isDigit then some .exponentDigits else none

/-- The largest number of digits `int` takes. -/
def maxIntDigits : ℕ := 4300

/-- The integer of a text, unless it has too many digits. -/
def intOfText (text : List Char) : Option ℤ :=
  let (negative, digits) := if text.head? = some '-' then (true, text.tail) else (false, text)
  if maxIntDigits < digits.length then none
  else some (if negative then -Nat.ofDigitChars 10 digits 0 else Nat.ofDigitChars 10 digits 0)

section

variable [PyFloat F]

/-- The number that has been read, if it is one. -/
def numberValue (text : List Char) : Digits → Option (Json F)
  | .zero | .integer => do some (.int (← intOfText text))
  | .fraction | .exponentDigits => some (.float (PyFloat.ofText text))
  | _ => none

/-- The first character of a value. -/
def startValue (K : List (Open F)) (c : Char) : Option (State F) :=
  if c = '"' then some (.str (.value K) [] .none)
  else if c = '[' then some (.arr K)
  else if c = '{' then some (.obj K)
  else if c = 'n' then some (.const ['u', 'l', 'l'] .null K)
  else if c = 't' then some (.const ['r', 'u', 'e'] (.bool true) K)
  else if c = 'f' then some (.const ['a', 'l', 's', 'e'] (.bool false) K)
  else if c = 'N' then some (.const ['a', 'N'] (.float PyFloat.nan) K)
  else if c = 'I' then some (.const ['n', 'f', 'i', 'n', 'i', 't', 'y'] (.float PyFloat.infinity) K)
  else if c = '-' then some (.num [c] .minus K)
  else if c = '0' then some (.num [c] .zero K)
  else if c.isDigit then some (.num [c] .integer K)
  else none

/-- A character after a value. -/
def afterStep : State F → Char → Option (State F)
  | .element es K, c =>
    if c = ',' then some (.value (.arr es :: K))
    else if c = ']' then some (deliver (.arr es) K)
    else if isSpace c then some (.element es K) else none
  | .member ms K, c =>
    if c = ',' then some (.key ms K)
    else if c = '}' then some (deliver (.obj ms) K)
    else if isSpace c then some (.member ms K) else none
  | .done v, c => if isSpace c then some (.done v) else none
  | _, _ => none

/-- A character of the text. -/
def step : State F → Char → Option (State F)
  | .value K, c => if isSpace c then some (.value K) else startValue K c
  | .arr K, c =>
    if isSpace c then some (.arr K)
    else if c = ']' then some (deliver (.arr []) K)
    else startValue (.arr [] :: K) c
  | .obj K, c =>
    if isSpace c then some (.obj K)
    else if c = '}' then some (deliver (.obj []) K)
    else if c = '"' then some (.str (.key [] K) [] .none)
    else none
  | .key ms K, c =>
    if isSpace c then some (.key ms K)
    else if c = '"' then some (.str (.key ms K) [] .none)
    else none
  | .colon ms k K, c =>
    if isSpace c then some (.colon ms k K)
    else if c = ':' then some (.value (.obj ms k :: K))
    else none
  | .str target units escape, c => strStep target units escape c
  | .const (x :: rest) v K, c =>
    if c = x then some (if rest = [] then deliver v K else .const rest v K) else none
  | .const [] _ _, _ => none
  | .num text digits K, c =>
    match digitsStep digits c with
    | some digits => some (.num (text ++ [c]) digits K)
    | none =>
      -- `-Infinity`
      if digits = .minus ∧ c = 'I' then
        some (.const ['n', 'f', 'i', 'n', 'i', 't', 'y'] (.float PyFloat.negInfinity) K)
      -- A number ends where it does not go on.
      else do afterStep (deliver (← numberValue text digits) K) c
  | .element es K, c => afterStep (.element es K) c
  | .member ms K, c => afterStep (.member ms K) c
  | .done v, c => afterStep (.done v) c

/-- The value of a text that ends here. -/
def finish : State F → Option (Json F)
  | .done v => some v
  | .num text digits [] => numberValue text digits
  | _ => none

/-- Reading a text from a state. -/
def run (s : State F) (text : List Char) : Option (State F) := text.foldlM step s

/-- `json.loads(text)`: the value, or nothing where it raises. -/
def loads (text : List Char) : Option (Json F) := do finish (← run (.value []) text)

@[simp]
theorem run_nil (s : State F) : run s [] = some s := rfl

@[simp]
theorem run_cons (s : State F) (c : Char) (text : List Char) :
    run s (c :: text) = (step s c).bind fun s => run s text := rfl

theorem run_append (s : State F) (a b : List Char) :
    run s (a ++ b) = (run s a).bind fun s => run s b := List.foldlM_append ..

/-- After the value, there may only be white space. -/
theorem run_done (v : Json F) (text : List Char) :
    run (.done v) text = if text.all isSpace then some (.done v) else none := by
  induction text with
  | nil => rfl
  | cons c text ih =>
    rw [run_cons, step, afterStep, List.all_cons]
    cases isSpace c
    · rfl
    · simpa using ih

/-- A number is not an object. -/
theorem numberValue_ne_obj (text : List Char) (digits : Digits) (ms : List (PyStr × Json F)) :
    numberValue text digits ≠ some (.obj ms) := by
  intro h
  cases digits <;> simp [numberValue, Option.bind_eq_some_iff] at h

/-- The text of an object is read up to its last brace. -/
theorem run_of_loads {text : List Char} {ms : List (PyStr × Json F)}
    (h : loads text = some (.obj ms)) : run (.value []) text = some (.done (.obj ms)) := by
  obtain ⟨s, hrun, hfinish⟩ := Option.bind_eq_some_iff.1 h
  rw [hrun]
  cases s with
  | done v => exact congrArg (some ∘ State.done) (Option.some.inj hfinish)
  | num t digits K =>
    cases K with
    | nil => exact absurd hfinish (numberValue_ne_obj t digits ms)
    | cons => cases hfinish
  | _ => cases hfinish

/-- After an object, a text may only go on with white space. -/
theorem loads_append {a : List Char} {ms : List (PyStr × Json F)} (h : loads a = some (.obj ms))
    (b : List Char) : loads (a ++ b) = if b.all isSpace then some (.obj ms) else none := by
  rw [loads, run_append, run_of_loads h, Option.bind_some, run_done]
  cases b.all isSpace <;> rfl

/-- White space before a value does not count. -/
theorem loads_space {a : List Char} (h : a.all isSpace) (b : List Char) :
    loads (F := F) (a ++ b) = loads b := by
  induction a with
  | nil => rfl
  | cons c a ih =>
    rw [List.all_cons, Bool.and_eq_true] at h
    rw [← ih h.2, loads, List.cons_append, run_cons, step, if_pos h.1]
    rfl

/-! ## Writing -/

/-- The hexadecimal digits of a code unit. -/
def hexDigits (u : ℕ) : List Char :=
  [u / 4096 % 16, u / 256 % 16, u / 16 % 16, u % 16].map Nat.digitChar

/-- A code point in a string: itself, or escaped. -/
def escape (u : ℕ) : List Char :=
  if u = 0x22 then ['\\', '"']
  else if u = 0x5C then ['\\', '\\']
  else if u = 0x08 then ['\\', 'b']
  else if u = 0x0C then ['\\', 'f']
  else if u = 0x0A then ['\\', 'n']
  else if u = 0x0D then ['\\', 'r']
  else if u = 0x09 then ['\\', 't']
  else if 0x20 ≤ u ∧ u < 0x7F then [Char.ofNat u]
  else if u < 0x10000 then '\\' :: 'u' :: hexDigits u
  else
    '\\' :: 'u' :: hexDigits (0xD800 + (u - 0x10000) / 0x400) ++
      '\\' :: 'u' :: hexDigits (0xDC00 + (u - 0x10000) % 0x400)

/-- A string. -/
def dumpsStr (s : PyStr) : List Char := '"' :: (s.flatMap escape ++ ['"'])

/-- An integer. -/
def dumpsInt (n : ℤ) : List Char := (if n < 0 then ['-'] else []) ++ Nat.toDigits 10 n.natAbs

mutual

/-- `json.dumps(v, sort_keys=True, separators=(",", ":"))`. -/
def dumps : Json F → List Char
  | .null => ['n', 'u', 'l', 'l']
  | .bool true => ['t', 'r', 'u', 'e']
  | .bool false => ['f', 'a', 'l', 's', 'e']
  | .int n => dumpsInt n
  | .float x => PyFloat.text x
  | .str s => dumpsStr s
  | .arr [] => ['[', ']']
  | .arr (v :: vs) => '[' :: (dumps v ++ (dumpsElements vs ++ [']']))
  | .obj [] => ['{', '}']
  | .obj ((k, v) :: ms) => '{' :: (dumpsStr k ++ ':' :: (dumps v ++ (dumpsMembers ms ++ ['}'])))

/-- The elements after the first one. -/
def dumpsElements : List (Json F) → List Char
  | [] => []
  | v :: vs => ',' :: (dumps v ++ dumpsElements vs)

/-- The members after the first one. -/
def dumpsMembers : List (PyStr × Json F) → List Char
  | [] => []
  | (k, v) :: ms => ',' :: (dumpsStr k ++ ':' :: (dumps v ++ dumpsMembers ms))

end

/-! ## The length of a text -/

omit [PyFloat F] in
theorem length_escape_le (u : ℕ) : (escape u).length ≤ 12 := by
  rw [escape]
  split_ifs <;> simp [hexDigits]

omit [PyFloat F] in
theorem length_dumpsStr_le (s : PyStr) : (dumpsStr s).length ≤ 12 * s.length + 2 := by
  have hflat : (s.flatMap escape).length ≤ 12 * s.length := by
    induction s with
    | nil => exact le_refl _
    | cons u s ih =>
      have := length_escape_le u
      rw [List.flatMap_cons, List.length_append, List.length_cons]
      omega
  rw [dumpsStr, List.length_cons, List.length_append, List.length_singleton]
  omega

/-- The length of an array is bounded by those of its elements. -/
theorem length_dumps_arr_le (vs : List (Json F)) :
    (dumps (.arr vs)).length ≤ (vs.map fun v => (dumps v).length + 1).sum + 2 := by
  have helements : ∀ ws : List (Json F),
      (dumpsElements ws).length ≤ (ws.map fun v => (dumps v).length + 1).sum := by
    intro ws
    induction ws with
    | nil => exact le_refl _
    | cons w ws ih =>
      simp only [dumpsElements, List.length_cons, List.length_append, List.map_cons, List.sum_cons]
      omega
  rcases vs with _ | ⟨v, vs⟩
  · exact le_refl 2
  · have := helements vs
    simp only [dumps, List.length_cons, List.length_append, List.map_cons, List.sum_cons,
      List.length_nil]
    omega

/-- The length of an object is bounded by those of its keys and values. -/
theorem length_dumps_obj_le (ms : List (PyStr × Json F)) :
    (dumps (.obj ms)).length ≤
      (ms.map fun m => 12 * m.1.length + (dumps m.2).length + 4).sum + 2 := by
  have hmembers : ∀ ms' : List (PyStr × Json F), (dumpsMembers ms').length ≤
      (ms'.map fun m => 12 * m.1.length + (dumps m.2).length + 4).sum := by
    intro ms'
    induction ms' with
    | nil => exact le_refl _
    | cons m ms' ih =>
      have := length_dumpsStr_le m.1
      simp only [dumpsMembers, List.length_cons, List.length_append, List.map_cons, List.sum_cons]
      omega
  rcases ms with _ | ⟨⟨k, v⟩, ms⟩
  · exact le_refl 2
  · have := hmembers ms
    have := length_dumpsStr_le k
    simp only [dumps, List.length_cons, List.length_append, List.map_cons, List.sum_cons,
      List.length_nil]
    omega

end

end Json

end SecNet
