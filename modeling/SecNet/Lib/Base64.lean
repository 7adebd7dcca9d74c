import SecNet.Lib.Bytes

/-!
# Base64

The standard alphabet with padding: `b64encode` writes a group of four
characters for every three bytes, and `b64decode` reads such text strictly: no
character outside of the alphabet, groups of four, and padding at the end only.
The bits of a last group that no byte takes are not looked at. `b64decodeLax` skips
other characters. `atob`, the reader of a browser, also accepts white space, and text
without its padding.

* `b64decode_b64encode`, `b64decodeLax_b64encode`, `atob_b64encode`: what is written is
  read back;
* `length_b64encode`: the length of the text;
* `b64encode_shape`: the text, and its padding.
-/

namespace SecNet

/-- The alphabet, in the order of the values. -/
def base64Alphabet : List Char :=
  "ABCDEFGHIJKLMNOPQRSTUVWXYZabcdefghijklmnopqrstuvwxyz0123456789+/".toList

/-- The character of a value of six bits. -/
def base64Char (n : ℕ) : Char := base64Alphabet.getD n '='

/-- The value of a character of the alphabet. -/
def base64Value (c : Char) : Option ℕ := base64Alphabet.idxOf? c

/-- `base64.b64encode(data)`. -/
def b64encode : Bytes → List Char
  | [] => []
  | [a] => [base64Char (a.toNat / 4), base64Char (a.toNat % 4 * 16), '=', '=']
  | [a, b] =>
    [base64Char (a.toNat / 4), base64Char (a.toNat % 4 * 16 + b.toNat / 16),
      base64Char (b.toNat % 16 * 4), '=']
  | a :: b :: c :: data =>
    base64Char (a.toNat / 4) :: base64Char (a.toNat % 4 * 16 + b.toNat / 16) ::
      base64Char (b.toNat % 16 * 4 + c.toNat / 64) :: base64Char (c.toNat % 64) :: b64encode data

/-- `base64.b64decode(text, validate=True)`: the bytes, or nothing where it raises. -/
def b64decode : List Char → Option Bytes
  | [] => some []
  | a :: b :: c :: d :: text => do
    let x ← base64Value a
    let y ← base64Value b
    let first := UInt8.ofNat (x * 4 + y / 16)
    if text = [] ∧ d = '=' then
      if c = '=' then some [first]
      else
        let z ← base64Value c
        some [first, UInt8.ofNat (y % 16 * 16 + z / 4)]
    else
      let z ← base64Value c
      let w ← base64Value d
      some (first :: UInt8.ofNat (y % 16 * 16 + z / 4) :: UInt8.ofNat (z % 4 * 64 + w) ::
        (← b64decode text))
  | _ => none

/-- The bytes of the values of a group. -/
def base64Bytes : List ℕ → Bytes
  | x :: y :: vs => UInt8.ofNat (x * 4 + y / 16) ::
    match vs with
    | [] => []
    | z :: vs => UInt8.ofNat (y % 16 * 16 + z / 4) ::
      match vs with
      | [] => []
      | w :: _ => [UInt8.ofNat (z % 4 * 64 + w)]
  | _ => []

/-- The reader that is not strict, within a group, and after some of its padding. It stops when
    the padding is complete. -/
def b64decodeLaxFrom : (group : List ℕ) → (pads : ℕ) → List Char → Option Bytes
  | group, _, [] => if group = [] then some [] else none
  | group, pads, c :: text =>
    if c = '=' then
      if group.length < 2 then b64decodeLaxFrom group pads text
      else if group.length + pads + 1 < 4 then b64decodeLaxFrom group (pads + 1) text
      else some (base64Bytes group)
    else
      match base64Value c with
      | none => b64decodeLaxFrom group pads text
      | some v =>
        if group.length = 3 then do
          some (base64Bytes (group ++ [v]) ++ (← b64decodeLaxFrom [] 0 text))
        else b64decodeLaxFrom (group ++ [v]) 0 text

/-- `base64.b64decode(text)`: the bytes, or nothing where it raises. -/
def b64decodeLax (text : List Char) : Option Bytes := b64decodeLaxFrom [] 0 text

/-- The white space that `atob` skips. -/
def atobSpaces : List Char := ['\t', '\n', '\x0c', '\r', ' ']

/-- What `atob` makes of a text without white space: the padding is only left out of a text
    in groups of four. -/
def atobGroups : List Char → Option Bytes
  | [] => some []
  | [_] => none
  | [a, b] => do
    some [UInt8.ofNat ((← base64Value a) * 4 + (← base64Value b) / 16)]
  | [a, b, c] => do
    let x ← base64Value a
    let y ← base64Value b
    let z ← base64Value c
    some [UInt8.ofNat (x * 4 + y / 16), UInt8.ofNat (y % 16 * 16 + z / 4)]
  | a :: b :: c :: d :: text => do
    let x ← base64Value a
    let y ← base64Value b
    let first := UInt8.ofNat (x * 4 + y / 16)
    if text = [] ∧ d = '=' then
      if c = '=' then some [first]
      else
        let z ← base64Value c
        some [first, UInt8.ofNat (y % 16 * 16 + z / 4)]
    else
      let z ← base64Value c
      let w ← base64Value d
      some (first :: UInt8.ofNat (y % 16 * 16 + z / 4) :: UInt8.ofNat (z % 4 * 64 + w) ::
        (← atobGroups text))

/-- `atob(text)`: the bytes, or nothing where it throws. -/
def atob (text : List Char) : Option Bytes := atobGroups (text.filter (· ∉ atobSpaces))

/-- The characters of the alphabet, and their values. -/
theorem base64Char_spec : ∀ n < 64, base64Value (base64Char n) = some n ∧ base64Char n ≠ '=' ∧
    base64Char n ∈ base64Alphabet := by
  decide +kernel

theorem base64Value_base64Char {n : ℕ} (h : n < 64) : base64Value (base64Char n) = some n :=
  (base64Char_spec n h).1

theorem base64Char_ne {n : ℕ} (h : n < 64) : base64Char n ≠ '=' := (base64Char_spec n h).2.1

/-- The bytes of a group are read back from its values. -/
theorem ofNat_first (a b : UInt8) :
    UInt8.ofNat (a.toNat / 4 * 4 + (a.toNat % 4 * 16 + b.toNat / 16) / 16) = a := by
  have ha := a.toNat_lt
  have hb := b.toNat_lt
  rw [show a.toNat / 4 * 4 + (a.toNat % 4 * 16 + b.toNat / 16) / 16 = a.toNat by omega,
    UInt8.ofNat_toNat]

theorem ofNat_second (x : ℕ) (b c : UInt8) :
    UInt8.ofNat ((x * 16 + b.toNat / 16) % 16 * 16 + (b.toNat % 16 * 4 + c.toNat / 64) / 4) =
      b := by
  have hb := b.toNat_lt
  have hc := c.toNat_lt
  rw [show (x * 16 + b.toNat / 16) % 16 * 16 + (b.toNat % 16 * 4 + c.toNat / 64) / 4 = b.toNat by
    omega, UInt8.ofNat_toNat]

theorem ofNat_third (x : ℕ) (c : UInt8) :
    UInt8.ofNat ((x * 4 + c.toNat / 64) % 4 * 64 + c.toNat % 64) = c := by
  have hc := c.toNat_lt
  rw [show (x * 4 + c.toNat / 64) % 4 * 64 + c.toNat % 64 = c.toNat by omega, UInt8.ofNat_toNat]

/-- What is written is read back. -/
theorem b64decode_b64encode (data : Bytes) : b64decode (b64encode data) = some data := by
  induction data using b64encode.induct with
  | case1 => rfl
  | case2 a =>
    have ha := a.toNat_lt
    have hfirst := ofNat_first a 0
    simp only [UInt8.toNat_zero, Nat.zero_div, Nat.add_zero] at hfirst
    rw [b64encode, b64decode, base64Value_base64Char (by omega), base64Value_base64Char (by omega)]
    simp only [Option.bind_eq_bind, Option.bind_some, and_self, if_true, hfirst]
  | case3 a b =>
    have ha := a.toNat_lt
    have hb := b.toNat_lt
    have hsecond := ofNat_second (a.toNat % 4) b 0
    simp only [UInt8.toNat_zero, Nat.zero_div, Nat.add_zero] at hsecond
    rw [b64encode, b64decode, base64Value_base64Char (by omega), base64Value_base64Char (by omega),
      base64Value_base64Char (by omega)]
    simp only [Option.bind_eq_bind, Option.bind_some, and_self, if_true, ofNat_first, hsecond,
      if_neg (base64Char_ne (show b.toNat % 16 * 4 < 64 by omega))]
  | case4 a b c data ih =>
    have ha := a.toNat_lt
    have hb := b.toNat_lt
    have hc := c.toNat_lt
    have hpad : ¬ (b64encode data = [] ∧ base64Char (c.toNat % 64) = '=') :=
      fun h => base64Char_ne (by omega) h.2
    rw [b64encode, b64decode, base64Value_base64Char (by omega), base64Value_base64Char (by omega),
      base64Value_base64Char (by omega), base64Value_base64Char (by omega), ih]
    simp only [Option.bind_eq_bind, Option.bind_some, if_neg hpad, ofNat_first, ofNat_second,
      ofNat_third]

/-- A character of the alphabet, within a group. -/
theorem b64decodeLaxFrom_cons {group : List ℕ} {pads n : ℕ} (hn : n < 64)
    (hgroup : group.length < 3)
    (text : List Char) :
    b64decodeLaxFrom group pads (base64Char n :: text) =
      b64decodeLaxFrom (group ++ [n]) 0 text := by
  rw [b64decodeLaxFrom, if_neg (base64Char_ne hn), base64Value_base64Char hn]
  simp only [if_neg hgroup.ne]

/-- The last character of a group. -/
theorem b64decodeLaxFrom_three {x y z pads n : ℕ} (hn : n < 64) (text : List Char) :
    b64decodeLaxFrom [x, y, z] pads (base64Char n :: text) =
      (b64decodeLaxFrom [] 0 text).map (base64Bytes [x, y, z, n] ++ ·) := by
  rw [b64decodeLaxFrom, if_neg (base64Char_ne hn), base64Value_base64Char hn]
  rcases b64decodeLaxFrom [] 0 text with _ | data <;> rfl

/-- The padding of a group. -/
theorem b64decodeLaxFrom_pad (x y z : ℕ) :
    b64decodeLaxFrom [x, y] 0 ['=', '='] = some (base64Bytes [x, y]) ∧
      b64decodeLaxFrom [x, y, z] 0 ['='] = some (base64Bytes [x, y, z]) :=
  ⟨rfl, rfl⟩

theorem b64decodeLax_b64encode (data : Bytes) : b64decodeLax (b64encode data) = some data := by
  rw [b64decodeLax]
  induction data using b64encode.induct with
  | case1 => rfl
  | case2 a =>
    have ha := a.toNat_lt
    have hfirst := ofNat_first a 0
    simp only [UInt8.toNat_zero, Nat.zero_div, Nat.add_zero] at hfirst
    rw [b64encode, b64decodeLaxFrom_cons (by omega) (by simp),
      b64decodeLaxFrom_cons (by omega) (by simp)]
    simp only [List.nil_append, List.cons_append]
    rw [(b64decodeLaxFrom_pad _ _ 0).1, base64Bytes, hfirst]
  | case3 a b =>
    have ha := a.toNat_lt
    have hb := b.toNat_lt
    have hsecond := ofNat_second (a.toNat % 4) b 0
    simp only [UInt8.toNat_zero, Nat.zero_div, Nat.add_zero] at hsecond
    rw [b64encode, b64decodeLaxFrom_cons (by omega) (by simp),
      b64decodeLaxFrom_cons (by omega) (by simp), b64decodeLaxFrom_cons (by omega) (by simp)]
    simp only [List.nil_append, List.cons_append]
    rw [(b64decodeLaxFrom_pad _ _ _).2, base64Bytes, ofNat_first, hsecond]
  | case4 a b c data ih =>
    have ha := a.toNat_lt
    have hb := b.toNat_lt
    have hc := c.toNat_lt
    rw [b64encode, b64decodeLaxFrom_cons (by omega) (by simp),
      b64decodeLaxFrom_cons (by omega) (by simp), b64decodeLaxFrom_cons (by omega) (by simp)]
    simp only [List.nil_append, List.cons_append]
    rw [b64decodeLaxFrom_three (by omega), ih]
    simp only [Option.map_some, base64Bytes, ofNat_first, ofNat_second, ofNat_third,
      List.cons_append, List.nil_append]

/-- The length of the text. -/
theorem length_b64encode (data : Bytes) :
    (b64encode data).length = 4 * ((data.length + 2) / 3) := by
  induction data using b64encode.induct with
  | case1 => rfl
  | case2 a => simp [b64encode]
  | case3 a b => simp [b64encode]
  | case4 a b c data ih =>
    simp only [b64encode, List.length_cons, ih]
    omega

/-- The text is of the alphabet, up to the padding. -/
theorem b64encode_shape (data : Bytes) : ∃ body k, b64encode data = body ++ List.replicate k '=' ∧
    k ≤ 2 ∧ ∀ c ∈ body, c ∈ base64Alphabet := by
  have hmem : ∀ n < 64, base64Char n ∈ base64Alphabet := fun n hn => (base64Char_spec n hn).2.2
  induction data using b64encode.induct with
  | case1 => exact ⟨[], 0, rfl, by omega, by simp⟩
  | case2 a =>
    have ha := a.toNat_lt
    refine ⟨[_, _], 2, rfl, le_refl _, fun c hc => ?_⟩
    simp only [List.mem_cons, List.not_mem_nil, or_false] at hc
    rcases hc with rfl | rfl <;> exact hmem _ (by omega)
  | case3 a b =>
    have ha := a.toNat_lt
    have hb := b.toNat_lt
    refine ⟨[_, _, _], 1, rfl, by omega, fun c hc => ?_⟩
    simp only [List.mem_cons, List.not_mem_nil, or_false] at hc
    rcases hc with rfl | rfl | rfl <;> exact hmem _ (by omega)
  | case4 a b c data ih =>
    have ha := a.toNat_lt
    have hb := b.toNat_lt
    have hc := c.toNat_lt
    obtain ⟨body, k, hbody, hk, hall⟩ := ih
    refine ⟨_ :: _ :: _ :: _ :: body, k, by rw [b64encode, hbody]; rfl, hk, fun d hd => ?_⟩
    simp only [List.mem_cons] at hd
    rcases hd with rfl | rfl | rfl | rfl | hd
    · exact hmem _ (by omega)
    · exact hmem _ (by omega)
    · exact hmem _ (by omega)
    · exact hmem _ (by omega)
    · exact hall d hd

/-- The characters of the text are those of the alphabet, and the padding. -/
theorem b64encode_mem {data : Bytes} {c : Char} (h : c ∈ b64encode data) :
    c ∈ base64Alphabet ∨ c = '=' := by
  obtain ⟨body, k, hencode, -, hbody⟩ := b64encode_shape data
  rw [hencode, List.mem_append] at h
  exact h.imp (hbody c) List.eq_of_mem_replicate

/-- `atob` reads what a strict reader accepts. -/
theorem atobGroups_of_b64decode {text : List Char} {data : Bytes} (h : b64decode text = some data) :
    atobGroups text = some data := by
  induction text using b64decode.induct generalizing data with
  | case1 => exact h
  | case2 a b c d text ih =>
    rw [b64decode] at h
    rw [atobGroups]
    obtain ⟨x, hx, h⟩ := Option.bind_eq_some_iff.1 h
    obtain ⟨y, hy, h⟩ := Option.bind_eq_some_iff.1 h
    refine Option.bind_eq_some_iff.2 ⟨x, hx, Option.bind_eq_some_iff.2 ⟨y, hy, ?_⟩⟩
    dsimp only at h ⊢
    split_ifs at h ⊢
    · exact h
    · exact h
    · obtain ⟨z, hz, h⟩ := Option.bind_eq_some_iff.1 h
      obtain ⟨w, hw, h⟩ := Option.bind_eq_some_iff.1 h
      obtain ⟨rest, hrest, h⟩ := Option.bind_eq_some_iff.1 h
      exact Option.bind_eq_some_iff.2 ⟨z, hz, Option.bind_eq_some_iff.2 ⟨w, hw,
        Option.bind_eq_some_iff.2 ⟨rest, ih hrest, h⟩⟩⟩
  | case3 text hnil hcons => simp [b64decode] at h

/-- No character of the text is white space. -/
theorem atob_b64encode (data : Bytes) : atob (b64encode data) = some data := by
  have hall : base64Alphabet.all (· ∉ atobSpaces) = true := by rfl
  have hspaces : ∀ c ∈ base64Alphabet, c ∉ atobSpaces :=
    fun c hc => of_decide_eq_true (List.all_eq_true.1 hall c hc)
  have hfilter : (b64encode data).filter (· ∉ atobSpaces) = b64encode data := by
    rw [List.filter_eq_self]
    intro c hc
    rcases b64encode_mem hc with hc | rfl
    · exact decide_eq_true (hspaces c hc)
    · rfl
  rw [atob, hfilter]
  exact atobGroups_of_b64decode (b64decode_b64encode data)

end SecNet
