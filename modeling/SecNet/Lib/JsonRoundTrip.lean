import SecNet.Lib.JsonText

/-!
# What is written is read back

The round trip of JSON texts, for the values that have one (`Canonical`): the
strings are made of scalar values, the members are in the order of their keys,
no integer is longer than `int` takes, and there is no float.

Each constructor is read back on any stack of arrays and objects that are still
open (`Reads`), up to the delimiter after it, which is what ends a number. Of the style of a
text it only matters that its escapes are read as the code points they stand for
(`Style.Faithful`).

* `run_str`: strings, through the escapes of their code points;
* `reads_dumpsInt`: integers;
* `reads_write`: every value, by induction;
* `loads_dumps`, `loads_script`: hence the text of a value is read as the value.
-/

namespace SecNet

namespace Json

variable {F : Type} [PyFloat F]

/-! ## Strings -/

/-- A Unicode scalar value. -/
def IsScalar (u : ℕ) : Prop := u < 0xD800 ∨ 0xE000 ≤ u ∧ u < 0x110000

/-- The code units of a code point: a pair of surrogates outside of the first plane. -/
def units (u : ℕ) : List ℕ :=
  if u < 0x10000 then [u] else [0xD800 + (u - 0x10000) / 0x400, 0xDC00 + (u - 0x10000) % 0x400]

theorem joinSurrogates_cons {u : ℕ} (h : isHigh u = false) (us : List ℕ) :
    joinSurrogates (u :: us) = u :: joinSurrogates us := by
  cases us with
  | nil => rfl
  | cons l us => rw [joinSurrogates, h, Bool.false_and, if_neg Bool.false_ne_true]

theorem joinSurrogates_pair {h l : ℕ} (hpair : (isHigh h && isLow l) = true) (us : List ℕ) :
    joinSurrogates (h :: l :: us) =
      (0x10000 + (h - 0xD800) * 0x400 + (l - 0xDC00)) :: joinSurrogates us := by
  rw [joinSurrogates, if_pos hpair]

/-- The code units of a string are joined into its code points. -/
theorem joinSurrogates_units {s : PyStr} (h : ∀ u ∈ s, IsScalar u) :
    joinSurrogates (s.flatMap units) = s := by
  induction s with
  | nil => rfl
  | cons u s ih =>
    have hu := h u List.mem_cons_self
    have ih := ih fun v hv => h v (List.mem_cons_of_mem u hv)
    rw [IsScalar] at hu
    rw [List.flatMap_cons, units]
    split_ifs with hlt
    · have hhigh : isHigh u = false := by
        rw [isHigh, decide_eq_false_iff_not]
        omega
      rw [List.singleton_append, joinSurrogates_cons hhigh, ih]
    · have hpair : (isHigh (0xD800 + (u - 0x10000) / 0x400) &&
          isLow (0xDC00 + (u - 0x10000) % 0x400)) = true := by
        simp only [isHigh, isLow, Bool.and_eq_true, decide_eq_true_eq]
        omega
      have hcode : 0x10000 + (0xD800 + (u - 0x10000) / 0x400 - 0xD800) * 0x400 +
          (0xDC00 + (u - 0x10000) % 0x400 - 0xDC00) = u := by omega
      rw [List.cons_append, List.singleton_append, joinSurrogates_pair hpair, ih, hcode]

theorem hexValue_digitChar : ∀ d < 16, hexValue (Nat.digitChar d) = some d := by decide

/-- The four digits of a code unit are read back. -/
theorem run_hexDigits (target : Target F) (us : List ℕ) {u : ℕ} (h : u < 0x10000)
    (text : List Char) :
    run (.str target us (.hex 4 0)) (hexDigits u ++ text) =
      run (.str target (us ++ [u]) .none) text := by
  have hdigit : ∀ n, hexValue (Nat.digitChar (n % 16)) = some (n % 16) :=
    fun n => hexValue_digitChar _ (Nat.mod_lt n (by norm_num))
  have hcode : (((0 * 16 + u / 4096 % 16) * 16 + u / 256 % 16) * 16 + u / 16 % 16) * 16 + u % 16 =
      u := by omega
  simp only [hexDigits, List.map_cons, List.map_nil, List.cons_append, List.nil_append, run_cons,
    step, strStep, hdigit, Option.bind_eq_bind, Option.bind_some, Nat.reduceLeDiff, if_false,
    Nat.reduceSub, le_refl, if_true, hcode]

theorem run_u (target : Target F) (us : List ℕ) {u : ℕ} (h : u < 0x10000) (text : List Char) :
    run (.str target us .none) ('\\' :: 'u' :: hexDigits u ++ text) =
      run (.str target (us ++ [u]) .none) text := by
  rw [← run_hexDigits target us h]
  rfl

theorem toNat_ofNat : ∀ u < 0x7F, (Char.ofNat u).toNat = u := by decide

/-- The escape of a code point is read as its code units. -/
theorem run_escape (target : Target F) (us : List ℕ) {u : ℕ} (h : IsScalar u)
    (text : List Char) :
    run (.str target us .none) (escape u ++ text) =
      run (.str target (us ++ units u) .none) text := by
  rw [IsScalar] at h
  rw [escape]
  split_ifs with h1 h2 h3 h4 h5 h6 h7 hprint hlt
  -- the escapes of one letter
  · subst h1; rfl
  · subst h2; rfl
  · subst h3; rfl
  · subst h4; rfl
  · subst h5; rfl
  · subst h6; rfl
  · subst h7; rfl
  -- a character that stands for itself
  · have hnat := toNat_ofNat u hprint.2
    have hquote : Char.ofNat u ≠ '"' := fun hc => h1 (by rw [← hnat, hc]; rfl)
    have hback : Char.ofNat u ≠ '\\' := fun hc => h2 (by rw [← hnat, hc]; rfl)
    rw [List.singleton_append, run_cons, step, strStep, if_neg hquote, if_neg hback, hnat,
      if_neg (by omega), units, if_pos (by omega), Option.bind_some]
  -- a code unit by its number, or two of them
  · rw [run_u target us hlt, units, if_pos hlt]
  · rw [List.append_assoc, run_u target us (by omega), run_u target _ (by omega), units,
      if_neg hlt, List.append_assoc]
    rfl

/-- A style whose escapes are read as code units that are joined into the code points. -/
structure Style.Faithful (σ : Style) (units : ℕ → List ℕ) : Prop where
  comma : ∃ space : List Char, σ.comma = ',' :: space ∧ space.all isSpace
  colon : ∃ space : List Char, σ.colon = ':' :: space ∧ space.all isSpace
  run_escape : ∀ {F : Type} [PyFloat F] (target : Target F) (us : List ℕ) {u : ℕ}, IsScalar u →
    ∀ text, run (.str target us .none) (σ.escape u ++ text) =
      run (.str target (us ++ units u) .none) text
  join : ∀ {s : PyStr}, (∀ u ∈ s, IsScalar u) → joinSurrogates (s.flatMap units) = s

theorem compact_faithful : compact.Faithful units where
  comma := ⟨[], rfl, rfl⟩
  colon := ⟨[], rfl, rfl⟩
  run_escape target us _ h text := run_escape target us h text
  join h := joinSurrogates_units h

theorem spaced_faithful : spaced.Faithful units where
  comma := ⟨[' '], rfl, rfl⟩
  colon := ⟨[' '], rfl, rfl⟩
  run_escape target us _ h text := run_escape target us h text
  join h := joinSurrogates_units h

theorem toNat_ofNat_of_isScalar {u : ℕ} (h : IsScalar u) : (Char.ofNat u).toNat = u := by
  rw [IsScalar] at h
  have hvalid : u.isValidChar := by
    rw [Nat.isValidChar]
    omega
  rw [Char.ofNat, dif_pos hvalid]
  rfl

/-- A code point in a text of `JSON.stringify` is read as itself. -/
theorem run_escapeScript (target : Target F) (us : List ℕ) {u : ℕ} (h : IsScalar u)
    (text : List Char) :
    run (.str target us .none) (escapeScript u ++ text) =
      run (.str target (us ++ [u]) .none) text := by
  have hnat := toNat_ofNat_of_isScalar h
  rw [IsScalar] at h
  rw [escapeScript]
  split_ifs with h1 h2 h3 h4 h5 h6 h7 hcontrol
  · subst h1; rfl
  · subst h2; rfl
  · subst h3; rfl
  · subst h4; rfl
  · subst h5; rfl
  · subst h6; rfl
  · subst h7; rfl
  · exact run_u target us (by omega) text
  · have hquote : Char.ofNat u ≠ '"' := fun hc => h1 (by rw [← hnat, hc]; rfl)
    have hback : Char.ofNat u ≠ '\\' := fun hc => h2 (by rw [← hnat, hc]; rfl)
    rw [List.singleton_append, run_cons, step, strStep, if_neg hquote, if_neg hback, hnat,
      if_neg (by omega), Option.bind_some]

theorem joinSurrogates_eq {s : PyStr} (h : ∀ u ∈ s, IsScalar u) : joinSurrogates s = s := by
  induction s with
  | nil => rfl
  | cons u s ih =>
    have hhigh : isHigh u = false := by
      have hu := h u List.mem_cons_self
      rw [IsScalar] at hu
      rw [isHigh, decide_eq_false_iff_not]
      omega
    rw [joinSurrogates_cons hhigh, ih fun v hv => h v (List.mem_cons_of_mem u hv)]

theorem script_faithful : script.Faithful fun u => [u] where
  comma := ⟨[], rfl, rfl⟩
  colon := ⟨[], rfl, rfl⟩
  run_escape target us _ h text := run_escapeScript target us h text
  join h := by rw [List.flatMap_singleton', joinSurrogates_eq h]

section

variable {σ : Style} {codes : ℕ → List ℕ} (hσ : σ.Faithful codes)
include hσ

theorem Style.Faithful.run_flatMap (target : Target F) (us : List ℕ) {s : PyStr}
    (h : ∀ u ∈ s, IsScalar u) (text : List Char) :
    run (.str target us .none) (s.flatMap σ.escape ++ text) =
      run (.str target (us ++ s.flatMap codes) .none) text := by
  induction s generalizing us with
  | nil => simp
  | cons u s ih =>
    rw [List.flatMap_cons, List.append_assoc, hσ.run_escape target us (h u List.mem_cons_self),
      ih _ fun v hv => h v (List.mem_cons_of_mem u hv), List.flatMap_cons, List.append_assoc]

/-- A string is read back after its opening quote. -/
theorem Style.Faithful.run_str (target : Target F) {s : PyStr} (h : ∀ u ∈ s, IsScalar u)
    (text : List Char) :
    run (.str target [] .none) (s.flatMap σ.escape ++ '"' :: text) = run (target.close s) text := by
  rw [hσ.run_flatMap target [] h, List.nil_append, run_cons, step, strStep, if_pos rfl,
    hσ.join h, Option.bind_some]

end

/-! ## Values -/

/-- What ends a number. -/
def IsDelimiter (c : Char) : Prop := c = ',' ∨ c = ']' ∨ c = '}'

/-- A text is read as a value, whatever is open. A number is ended by what follows it. -/
structure Reads (v : Json F) (text : List Char) : Prop where
  /-- It starts with what starts a value. -/
  head : ∀ c ∈ text.head?, isSpace c = false ∧ c ≠ ']'
  ne_nil : text ≠ []
  run_delimiter : ∀ (K : List (Open F)) (c : Char) (rest : List Char), IsDelimiter c →
    run (.value K) (text ++ c :: rest) = run (deliver v K) (c :: rest)
  loads_eq : loads text = some v

/-- A text that is read to its end is read as a value. -/
theorem Reads.of_run {v : Json F} {c : Char} {text : List Char} (hspace : isSpace c = false)
    (hc : c ≠ ']') (h : ∀ K rest, run (.value K) (c :: text ++ rest) = run (deliver v K) rest) :
    Reads v (c :: text) where
  head d hd := by
    obtain rfl : c = d := by simpa using hd
    exact ⟨hspace, hc⟩
  ne_nil := List.cons_ne_nil _ _
  run_delimiter K d rest _ := h K _
  loads_eq := by
    have hrun := h [] []
    rw [List.append_nil] at hrun
    rw [loads, hrun]
    rfl

/-- The text of a string. -/
theorem Style.Faithful.reads_str {σ : Style} {codes : ℕ → List ℕ} (hσ : σ.Faithful codes)
    {s : PyStr} (h : ∀ u ∈ s, IsScalar u) : Reads (F := F) (.str s) (σ.str s) := by
  refine .of_run rfl (by decide) fun K rest => ?_
  rw [List.cons_append, List.append_assoc]
  exact hσ.run_str (.value K) h rest

/-! ## Integers -/

/-- How far a number has been read after the digits of `n`. -/
def digitsOf (n : ℕ) : Digits := if n = 0 then .zero else .integer

/-- More digits of an integer. -/
theorem run_isDigit (text : List Char) (K : List (Open F)) {ds : List Char}
    (h : ∀ c ∈ ds, c.isDigit) :
    run (.num text .integer K) ds = some (.num (text ++ ds) .integer K) := by
  induction ds generalizing text with
  | nil => rw [List.append_nil, run_nil]
  | cons c ds ih =>
    rw [run_cons, step, digitsStep, if_pos (h c List.mem_cons_self), Option.bind_some,
      ih _ fun d hd => h d (List.mem_cons_of_mem c hd), List.append_assoc, List.singleton_append]

/-- The digits of a positive number do not start with a zero. -/
theorem toDigits_of_pos {n : ℕ} (h : 0 < n) :
    ∃ d ds, d < 10 ∧ d ≠ 0 ∧ Nat.toDigits 10 n = Nat.digitChar d :: ds := by
  induction n using Nat.strong_induction_on with
  | h n ih =>
    by_cases hn : n < 10
    · exact ⟨n, [], hn, Nat.pos_iff_ne_zero.1 h, Nat.toDigits_of_lt_base hn⟩
    · obtain ⟨d, ds, hd, hd0, hds⟩ := ih (n / 10) (by omega) (by omega)
      refine ⟨d, ds ++ [Nat.digitChar (n % 10)], hd, hd0, ?_⟩
      rw [Nat.toDigits_of_base_le (by norm_num) (not_lt.1 hn), hds, List.cons_append]

/-- The digits of a number, from a state that takes their first one. -/
theorem run_toDigits {s : State F} {sign : List Char} {K : List (Open F)}
    (h : ∀ d < 10, step s (Nat.digitChar d) =
      some (.num (sign ++ [Nat.digitChar d]) (digitsOf d) K)) (n : ℕ) :
    run s (Nat.toDigits 10 n) = some (.num (sign ++ Nat.toDigits 10 n) (digitsOf n) K) := by
  rcases Nat.eq_zero_or_pos n with rfl | hn
  · rw [Nat.toDigits_zero, run_cons, show '0' = Nat.digitChar 0 from rfl, h 0 (by norm_num),
      Option.bind_some, run_nil]
  · obtain ⟨d, ds, hd, hd0, hds⟩ := toDigits_of_pos hn
    have hdigits : ∀ c ∈ ds, c.isDigit := fun c hc =>
      Nat.isDigit_of_mem_toDigits (b := 10) (n := n) (by norm_num) (le_refl _)
        (hds ▸ List.mem_cons_of_mem _ hc)
    rw [hds, run_cons, h d hd, Option.bind_some, digitsOf, if_neg hd0, run_isDigit _ _ hdigits,
      digitsOf, if_neg (Nat.pos_iff_ne_zero.1 hn), List.append_assoc, List.singleton_append]

theorem step_digitChar (K : List (Open F)) : ∀ d < 10,
    step (.value K) (Nat.digitChar d) = some (.num ([] ++ [Nat.digitChar d]) (digitsOf d) K) ∧
    step (.num ['-'] .minus K) (Nat.digitChar d) =
      some (.num (['-'] ++ [Nat.digitChar d]) (digitsOf d) K) := by
  intro d hd
  interval_cases d <;> exact ⟨rfl, rfl⟩

/-- The text of an integer is read to its end. -/
theorem run_dumpsInt (n : ℤ) (K : List (Open F)) :
    run (.value K) (dumpsInt n) = some (.num (dumpsInt n) (digitsOf n.natAbs) K) := by
  rw [dumpsInt]
  split_ifs
  · have hminus : run (.value K) ['-'] = some (.num ['-'] .minus K) := rfl
    rw [run_append, hminus, Option.bind_some]
    exact run_toDigits (fun d hd => (step_digitChar K d hd).2) _
  · exact run_toDigits (fun d hd => (step_digitChar K d hd).1) _

/-- An integer that is not too long is read back from its text. -/
theorem intOfText_dumpsInt {n : ℤ} (h : (Nat.toDigits 10 n.natAbs).length ≤ maxIntDigits) :
    intOfText (dumpsInt n) = some n := by
  by_cases hneg : n < 0
  · rw [dumpsInt, if_pos hneg, intOfText]
    simp only [List.cons_append, List.nil_append, List.head?_cons, List.tail_cons, if_true,
      if_neg (not_lt.2 h), Nat.ofDigitChars_ten_toDigits, Option.some.injEq]
    omega
  · have hhead : (Nat.toDigits 10 n.natAbs).head? ≠ some '-' := by
      intro hc
      have hdigit := Nat.isDigit_of_mem_toDigits (b := 10) (n := n.natAbs) (by norm_num) (le_refl _)
        (List.mem_of_head? hc)
      exact absurd hdigit (by decide)
    rw [dumpsInt, if_neg hneg, List.nil_append, intOfText, if_neg hhead]
    simp only [if_neg (not_lt.2 h), Nat.ofDigitChars_ten_toDigits, Bool.false_eq_true, if_false,
      Option.some.injEq]
    omega

theorem numberValue_dumpsInt {n : ℤ} (h : (Nat.toDigits 10 n.natAbs).length ≤ maxIntDigits) :
    numberValue (F := F) (dumpsInt n) (digitsOf n.natAbs) = some (.int n) := by
  rw [digitsOf]
  split_ifs <;>
    simp only [numberValue, intOfText_dumpsInt h, Option.bind_eq_bind, Option.bind_some]

/-- What is read next goes through the state after the value. -/
theorem step_deliver (v : Json F) (K : List (Open F)) (c : Char) :
    step (deliver v K) c = afterStep (deliver v K) c := by
  rcases K with _ | ⟨es | ⟨ms, k⟩, K⟩ <;> rfl

/-- The text of an integer has only digits, after its sign. -/
theorem mem_dumpsInt {n : ℤ} {c : Char} (h : c ∈ dumpsInt n) : c = '-' ∨ c.isDigit := by
  rw [dumpsInt, List.mem_append] at h
  rcases h with h | h
  · split_ifs at h
    · exact .inl (List.mem_singleton.1 h)
    · cases h
  · exact .inr (Nat.isDigit_of_mem_toDigits (by norm_num) (le_refl _) h)

/-- The text of an integer. -/
theorem reads_dumpsInt {n : ℤ} (h : (Nat.toDigits 10 n.natAbs).length ≤ maxIntDigits) :
    Reads (F := F) (.int n) (dumpsInt n) where
  head c hc := by
    have hmem := mem_dumpsInt (List.mem_of_mem_head? hc)
    constructor
    · rw [isSpace, decide_eq_false_iff_not]
      rintro (rfl | rfl | rfl | rfl) <;> exact absurd hmem (by decide)
    · rintro rfl
      exact absurd hmem (by decide)
  ne_nil hnil := Nat.toDigits_ne_nil (List.append_eq_nil_iff.1 hnil).2
  run_delimiter K c rest hc := by
    have hstep :
        step (.num (dumpsInt n) (digitsOf n.natAbs) K) c = step (deliver (.int n) K) c := by
      have hend : digitsStep (digitsOf n.natAbs) c = none ∧ digitsOf n.natAbs ≠ .minus := by
        rw [digitsOf]
        rcases hc with rfl | rfl | rfl <;> split_ifs <;> exact ⟨rfl, nofun⟩
      rw [step, hend.1, step_deliver]
      simp only [hend.2, false_and, if_false, numberValue_dumpsInt h, Option.bind_eq_bind,
        Option.bind_some]
    rw [run_append, run_dumpsInt, Option.bind_some, run_cons, run_cons, hstep]
  loads_eq := by
    rw [loads, run_dumpsInt]
    exact numberValue_dumpsInt h

/-! ## Arrays and objects -/

/-- The values that are read back from what is written. -/
inductive Canonical : Json F → Prop
  | null : Canonical .null
  | bool (b : Bool) : Canonical (.bool b)
  | int {n : ℤ} : (Nat.toDigits 10 n.natAbs).length ≤ maxIntDigits → Canonical (.int n)
  | str {s : PyStr} : (∀ u ∈ s, IsScalar u) → Canonical (.str s)
  | arr {vs : List (Json F)} : (∀ v ∈ vs, Canonical v) → Canonical (.arr vs)
  | obj {ms : List (PyStr × Json F)} : (ms.map Prod.fst).Pairwise (· < ·) →
    (∀ m ∈ ms, ∀ u ∈ m.1, IsScalar u) → (∀ m ∈ ms, Canonical m.2) → Canonical (.obj ms)

omit [PyFloat F] in
/-- A member whose key comes last. -/
theorem insert_of_lt {k : PyStr} {ms : List (PyStr × Json F)} (h : ∀ m ∈ ms, m.1 < k)
    (v : Json F) : insert k v ms = ms ++ [(k, v)] := by
  induction ms with
  | nil => rfl
  | cons m ms ih =>
    have hm := h m List.mem_cons_self
    rw [insert, if_neg (lt_asymm hm), if_neg (ne_of_gt hm),
      ih fun m' hm' => h m' (List.mem_cons_of_mem m hm'), List.cons_append]

/-- A value, and then a text that starts with a delimiter. -/
theorem Reads.run_append {v : Json F} {text rest : List Char} (h : Reads v text)
    (K : List (Open F)) (hrest : ∃ c r, rest = c :: r ∧ IsDelimiter c) :
    run (.value K) (text ++ rest) = run (deliver v K) rest := by
  obtain ⟨c, r, rfl, hc⟩ := hrest
  exact h.run_delimiter K c r hc

/-- The first element is read as a value: its text is not a closing bracket. -/
theorem Reads.run_arr {v : Json F} {text : List Char} (h : Reads v text) (K : List (Open F))
    (rest : List Char) :
    run (.arr K) (text ++ rest) = run (.value (.arr [] :: K)) (text ++ rest) := by
  cases text with
  | nil => exact absurd rfl h.ne_nil
  | cons c text =>
    obtain ⟨hspace, hc⟩ := h.head c rfl
    have hstep : step (.arr K) c = step (.value (.arr [] :: K)) c := by
      rw [step, step, hspace, if_neg Bool.false_ne_true, if_neg Bool.false_ne_true, if_neg hc]
    rw [List.cons_append, run_cons, run_cons, hstep]

/-- White space in a state that it does not change. -/
theorem run_space {s : State F} (hs : ∀ c, isSpace c → step s c = some s) {space : List Char}
    (h : space.all isSpace) (text : List Char) : run s (space ++ text) = run s text := by
  induction space with
  | nil => rfl
  | cons c space ih =>
    rw [List.all_cons, Bool.and_eq_true] at h
    rw [List.cons_append, run_cons, hs c h.1, Option.bind_some, ih h.2]

theorem run_value_space (K : List (Open F)) {space : List Char} (h : space.all isSpace)
    (text : List Char) : run (.value K) (space ++ text) = run (.value K) text :=
  run_space (fun _ hc => by rw [step, if_pos hc]) h text

section

variable {σ : Style} {codes : ℕ → List ℕ} (hσ : σ.Faithful codes)
include hσ

/-- What comes after an element. -/
theorem Style.Faithful.elements_delimiter (vs : List (Json F)) (rest : List Char) :
    ∃ c r, σ.writeElements vs ++ ']' :: rest = c :: r ∧ IsDelimiter c := by
  cases vs with
  | nil => exact ⟨']', _, rfl, .inr (.inl rfl)⟩
  | cons v vs =>
    obtain ⟨space, hcomma, -⟩ := hσ.comma
    rw [Style.writeElements, hcomma]
    exact ⟨',', _, rfl, .inl rfl⟩

/-- What comes after a member. -/
theorem Style.Faithful.members_delimiter (ms : List (PyStr × Json F)) (rest : List Char) :
    ∃ c r, σ.writeMembers ms ++ '}' :: rest = c :: r ∧ IsDelimiter c := by
  cases ms with
  | nil => exact ⟨'}', _, rfl, .inr (.inr rfl)⟩
  | cons m ms =>
    obtain ⟨space, hcomma, -⟩ := hσ.comma
    rw [Style.writeMembers, hcomma]
    exact ⟨',', _, rfl, .inl rfl⟩

/-- The elements after the first one, up to the closing bracket. -/
theorem Style.Faithful.run_elements {vs : List (Json F)} (h : ∀ v ∈ vs, Reads v (σ.write v))
    (es : List (Json F)) (K : List (Open F)) (rest : List Char) :
    run (.element es K) (σ.writeElements vs ++ ']' :: rest) =
      run (deliver (.arr (es ++ vs)) K) rest := by
  induction vs generalizing es with
  | nil =>
    rw [List.append_nil]
    rfl
  | cons v vs ih =>
    obtain ⟨space, hcomma, hspace⟩ := hσ.comma
    have hstep : step (.element es K) ',' = some (.value (.arr es :: K)) := rfl
    rw [Style.writeElements, hcomma, List.cons_append, List.cons_append, run_cons, hstep,
      Option.bind_some, List.append_assoc, run_value_space _ hspace, List.append_assoc,
      (h v List.mem_cons_self).run_append _ (hσ.elements_delimiter vs rest), deliver,
      ih (fun w hw => h w (List.mem_cons_of_mem v hw)), List.append_assoc, List.singleton_append]

/-- A member, after the opening quote of its key. -/
theorem Style.Faithful.run_member {k : PyStr} {v : Json F} (hk : ∀ u ∈ k, IsScalar u)
    (hv : Reads v (σ.write v)) (ms : List (PyStr × Json F)) (K : List (Open F))
    {rest : List Char} (hrest : ∃ c r, rest = c :: r ∧ IsDelimiter c) :
    run (.str (.key ms K) [] .none)
        (k.flatMap σ.escape ++ '"' :: (σ.colon ++ (σ.write v ++ rest))) =
      run (.member (insert k v ms) K) rest := by
  obtain ⟨space, hcolon, hspace⟩ := hσ.colon
  have hstep : step (.colon ms k K) ':' = some (.value (.obj ms k :: K)) := rfl
  rw [hσ.run_str _ hk, Target.close, hcolon, List.cons_append, run_cons, hstep, Option.bind_some,
    run_value_space _ hspace, hv.run_append _ hrest, deliver]

/-- The members after the first one, up to the closing brace. -/
theorem Style.Faithful.run_members {ms' : List (PyStr × Json F)}
    (hkey : ∀ m ∈ ms', ∀ u ∈ m.1, IsScalar u) (h : ∀ m ∈ ms', Reads m.2 (σ.write m.2))
    {ms : List (PyStr × Json F)} (hsorted : ((ms ++ ms').map Prod.fst).Pairwise (· < ·))
    (K : List (Open F)) (rest : List Char) :
    run (.member ms K) (σ.writeMembers ms' ++ '}' :: rest) =
      run (deliver (.obj (ms ++ ms')) K) rest := by
  induction ms' generalizing ms with
  | nil =>
    rw [List.append_nil]
    rfl
  | cons m ms' ih =>
    obtain ⟨k, v⟩ := m
    have hlast : ∀ m ∈ ms, m.1 < k := by
      intro m hm
      rw [List.map_append, List.pairwise_append] at hsorted
      exact hsorted.2.2 _ (List.mem_map_of_mem hm) _ List.mem_cons_self
    obtain ⟨space, hcomma, hspace⟩ := hσ.comma
    have hstep : step (.member ms K) ',' = some (.key ms K) := rfl
    have hkeySpace : ∀ text, run (.key ms K) (space ++ text) = run (.key ms K) text :=
      run_space (fun _ hc => by rw [step, if_pos hc]) hspace
    have hquote : step (.key ms K) '"' = some (.str (.key ms K) [] .none) := rfl
    have happ : ms ++ (k, v) :: ms' = (ms ++ [(k, v)]) ++ ms' := by
      rw [List.append_assoc, List.singleton_append]
    rw [happ] at hsorted ⊢
    rw [← ih (fun m hm => hkey m (List.mem_cons_of_mem _ hm))
        (fun m hm => h m (List.mem_cons_of_mem _ hm)) hsorted, ← insert_of_lt hlast,
      ← hσ.run_member (hkey _ List.mem_cons_self) (h _ List.mem_cons_self) ms K
        (hσ.members_delimiter ms' rest)]
    simp only [Style.writeMembers, Style.str, hcomma, List.cons_append, List.append_assoc,
      List.nil_append, run_cons, hstep, hkeySpace, hquote, Option.bind_some]

/-- Every value is read back from its text, whatever is open. -/
theorem Style.Faithful.reads_write {v : Json F} (h : Canonical v) : Reads v (σ.write v) := by
  induction h with
  | null => exact .of_run rfl (by decide) fun _ _ => rfl
  | bool b => cases b <;> exact .of_run rfl (by decide) fun _ _ => rfl
  | int h => exact reads_dumpsInt h
  | str h => exact hσ.reads_str h
  | @arr vs _ ih =>
    cases vs with
    | nil => exact .of_run rfl (by decide) fun _ _ => rfl
    | cons v vs =>
      have hv := ih v List.mem_cons_self
      refine .of_run rfl (by decide) fun K rest => ?_
      have hopen : step (.value K) '[' = some (.arr K) := rfl
      rw [List.cons_append, run_cons, hopen, Option.bind_some, List.append_assoc, List.append_assoc,
        List.singleton_append, hv.run_arr, hv.run_append _ (hσ.elements_delimiter vs rest), deliver,
        hσ.run_elements fun w hw => ih w (List.mem_cons_of_mem v hw)]
      rfl
  | @obj ms hsorted hkey _ ih =>
    cases ms with
    | nil => exact .of_run rfl (by decide) fun _ _ => rfl
    | cons m ms =>
      obtain ⟨k, v⟩ := m
      refine .of_run rfl (by decide) fun K rest => ?_
      have hopen : step (.value K) '{' = some (.obj K) := rfl
      have hquote : step (.obj K) '"' = some (.str (.key [] K) [] .none) := rfl
      rw [← List.singleton_append (l := ms)] at hsorted ⊢
      rw [← hσ.run_members (fun m hm => hkey m (List.mem_cons_of_mem _ hm))
          (fun m hm => ih m (List.mem_cons_of_mem _ hm)) hsorted,
        show [(k, v)] = insert k v [] from rfl,
        ← hσ.run_member (hkey _ List.mem_cons_self) (ih _ List.mem_cons_self) [] K
          (hσ.members_delimiter ms rest)]
      simp only [Style.str, List.cons_append, List.append_assoc, List.nil_append, run_cons, hopen,
        hquote, Option.bind_some]

end

/-- What is written is read back. -/
theorem loads_dumps {v : Json F} (h : Canonical v) : loads (dumps v) = some v := by
  rw [dumps_eq_write]
  exact (compact_faithful.reads_write h).loads_eq

theorem loads_spaced {v : Json F} (h : Canonical v) : loads (spaced.write v) = some v :=
  (spaced_faithful.reads_write h).loads_eq

theorem loads_script {v : Json F} (h : Canonical v) : loads (script.write v) = some v :=
  (script_faithful.reads_write h).loads_eq

end Json

end SecNet
