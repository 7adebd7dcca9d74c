import SecNet.Chat.Browser

/-!
# The sizes of messages

The size of an object with given members, in the two texts that limits are set for: the
characters of `json.dumps`, which the server counts, and the bytes of what a browser sends,
which the agent counts.

* `dumpsSize_ofList`, `scriptSize_ofList`: the size of a display, by those of its members;
* `dumpsSize_b64`, `scriptSize_b64`: the size of base64 text, which has nothing to escape;
* `scriptSize_assign_le`: what a member adds that is set;
* `scriptSize_le`: a value is not six times as large in a request as in `json.dumps`.
-/

namespace SecNet

variable {F : Type} [PyFloat F]

namespace Json

mutual

/-- `json.dumps(v)` writes in the spaced style. -/
theorem dumpsSpaced_eq_write (v : Json F) : dumpsSpaced v = spaced.write v := by
  match v with
  | .null | .bool true | .bool false | .int _ | .float _ | .str _ => rfl
  | .arr [] | .obj [] => rfl
  | .arr (v :: vs) =>
    rw [dumpsSpaced, Style.write, dumpsSpaced_eq_write v, dumpsSpacedElements_eq_write vs]
  | .obj ((k, v) :: ms) =>
    rw [dumpsSpaced, Style.write, dumpsSpaced_eq_write v, dumpsSpacedMembers_eq_write ms]
    rfl

theorem dumpsSpacedElements_eq_write (vs : List (Json F)) :
    dumpsSpacedElements vs = spaced.writeElements vs := by
  match vs with
  | [] => rfl
  | v :: vs =>
    rw [dumpsSpacedElements, Style.writeElements, dumpsSpaced_eq_write v,
      dumpsSpacedElements_eq_write vs]
    rfl

theorem dumpsSpacedMembers_eq_write (ms : List (PyStr × Json F)) :
    dumpsSpacedMembers ms = spaced.writeMembers ms := by
  match ms with
  | [] => rfl
  | (k, v) :: ms =>
    rw [dumpsSpacedMembers, Style.writeMembers, dumpsSpaced_eq_write v,
      dumpsSpacedMembers_eq_write ms]
    rfl

end

end Json

/-! ## Displays -/

omit [PyFloat F] in
theorem insert_ne_nil (k : PyStr) (v : Json F) (d : Dict F) : Json.insert k v d ≠ [] := by
  intro hnil
  have hlookup := Json.lookup_insert k k v d
  rw [hnil, if_pos rfl] at hlookup
  cases hlookup

omit [PyFloat F] in
theorem ofList_ne_nil {items : List (String × Json F)} (h : items ≠ []) :
    Dict.ofList items ≠ [] := by
  obtain ⟨items, item, rfl⟩ := List.eq_nil_or_concat items |>.resolve_left h
  rw [Dict.ofList, List.concat_eq_append, List.foldl_append]
  exact insert_ne_nil _ _ _

omit [PyFloat F] in
/-- A sum over a display, whose keys are distinct. -/
theorem sum_ofList (f : PyStr × Json F → ℕ) {items : List (String × Json F)}
    (h : (items.map Prod.fst).Nodup) :
    ((Dict.ofList items).map f).sum = (items.map fun i => f (.ofString i.1, i.2)).sum := by
  induction items using List.reverseRecOn with
  | nil => rfl
  | append_singleton items item ih =>
    rw [List.map_append, List.nodup_append] at h
    have hkey : PyStr.ofString item.1 ∉ (Dict.ofList items).map Prod.fst := by
      rintro hmem
      obtain ⟨m, hm, hkey⟩ := List.mem_map.1 hmem
      obtain ⟨i, hi, rfl⟩ := mem_ofList hm
      exact h.2.2 i.1 (List.mem_map_of_mem hi) item.1 (List.mem_singleton_self _)
        (ofString_injective hkey)
    rw [Dict.ofList, List.foldl_append, List.foldl_cons, List.foldl_nil, ← Dict.ofList,
      Json.sum_insert f item.2 hkey, ih h.1, List.map_append, List.sum_append, List.map_singleton,
      List.sum_singleton, Nat.add_comm]

/-- The size of a display in a style. -/
theorem weigh_write_ofList (σ : Json.Style) (w : Char → ℕ) {items : List (String × Json F)}
    (h : (items.map Prod.fst).Nodup) (hne : items ≠ []) :
    Json.weigh w (σ.write (.obj (Dict.ofList items))) + Json.weigh w σ.comma =
      (items.map fun i => σ.memberWeight w (.ofString i.1, i.2)).sum + (w '{' + w '}') := by
  rw [σ.weigh_write_obj w (ofList_ne_nil hne), sum_ofList _ h]

/-! ## The sizes -/

/-- The number of the characters of `json.dumps(v)`. -/
def dumpsSize (v : Json F) : ℕ := (Json.dumpsSpaced v).length

/-- The number of the bytes of `JSON.stringify(v)`. -/
def scriptSize (v : Json F) : ℕ := (encodeScript v).length

theorem dumpsSize_eq_weigh (v : Json F) :
    dumpsSize v = Json.weigh (fun _ => 1) (Json.spaced.write v) := by
  rw [dumpsSize, Json.weigh_one, Json.dumpsSpaced_eq_write]

theorem scriptSize_eq_weigh (v : Json F) :
    scriptSize v = Json.weigh Char.utf8Size (Json.script.write v) := by
  rw [scriptSize, encodeScript]
  generalize Json.script.write v = text
  induction text with
  | nil => rfl
  | cons c text ih =>
    rw [encodeUtf8, List.flatMap_cons, ← encodeUtf8, List.length_append, ih, Json.weigh_cons,
      String.length_utf8EncodeChar]

theorem memberWeight_spaced (k : PyStr) (v : Json F) :
    Json.spaced.memberWeight (fun _ => 1) (k, v) =
      dumpsSize (.str (F := F) k) + dumpsSize v + 4 := by
  have hcomma : Json.weigh (fun _ => 1) Json.spaced.comma = 2 := rfl
  have hcolon : Json.weigh (fun _ => 1) Json.spaced.colon = 2 := rfl
  simp only [Json.Style.memberWeight, hcomma, hcolon, dumpsSize_eq_weigh, Json.Style.write]
  omega

theorem memberWeight_script (k : PyStr) (v : Json F) :
    Json.script.memberWeight Char.utf8Size (k, v) =
      scriptSize (.str (F := F) k) + scriptSize v + 2 := by
  have hcomma : Json.weigh Char.utf8Size Json.script.comma = 1 := rfl
  have hcolon : Json.weigh Char.utf8Size Json.script.colon = 1 := rfl
  simp only [Json.Style.memberWeight, hcomma, hcolon, scriptSize_eq_weigh, Json.Style.write]
  omega

/-- The size of an object in `json.dumps`, where commas and colons take two characters. -/
theorem dumpsSize_ofList {items : List (String × Json F)} (h : (items.map Prod.fst).Nodup)
    (hne : items ≠ []) :
    dumpsSize (.obj (Dict.ofList items)) =
      (items.map fun i => dumpsSize (.ofString (F := F) i.1) + dumpsSize i.2 + 4).sum := by
  have hweigh := weigh_write_ofList Json.spaced (fun _ => 1) h hne
  simp only [memberWeight_spaced, ← dumpsSize_eq_weigh] at hweigh
  exact Nat.add_right_cancel hweigh

/-- The size of an object in a request, where they take one byte. -/
theorem scriptSize_ofList {items : List (String × Json F)} (h : (items.map Prod.fst).Nodup)
    (hne : items ≠ []) :
    scriptSize (.obj (Dict.ofList items)) =
      (items.map fun i => scriptSize (.ofString (F := F) i.1) + scriptSize i.2 + 2).sum + 1 := by
  have hweigh := weigh_write_ofList Json.script Char.utf8Size h hne
  simp only [memberWeight_script, ← scriptSize_eq_weigh] at hweigh
  exact Nat.add_right_cancel hweigh

/-- What a member adds to the size of an object at most, when it is set. -/
theorem scriptSize_assign_le {d : Dict F} (hne : d ≠ []) (key : String) (v : Json F) :
    scriptSize (.obj (assign d key v)) ≤
      scriptSize (.obj d) + scriptSize (.ofString (F := F) key) + scriptSize v + 2 := by
  have hweigh := Json.script.weigh_write_obj Char.utf8Size hne
  have hweigh' := Json.script.weigh_write_obj Char.utf8Size (insert_ne_nil (.ofString key) v d)
  have hle := Json.sum_insert_le (Json.script.memberWeight Char.utf8Size) (.ofString key) v d
  rw [memberWeight_script] at hle
  rw [← scriptSize_eq_weigh] at hweigh hweigh'
  rw [assign, Json.ofString]
  omega

/-! ## The sizes of strings -/

/-- The size of a string in a style. -/
theorem weigh_str (σ : Json.Style) (w : Char → ℕ) (s : PyStr) :
    Json.weigh w (σ.str s) = (s.map fun u => Json.weigh w (σ.escape u)).sum + 2 * w '"' := by
  have hsum :
      Json.weigh w (s.flatMap σ.escape) = (s.map fun u => Json.weigh w (σ.escape u)).sum := by
    induction s with
    | nil => rfl
    | cons u s ih => rw [List.flatMap_cons, Json.weigh_append, ih, List.map_cons, List.sum_cons]
  rw [Json.Style.str, Json.weigh_cons, Json.weigh_append, hsum, Json.weigh_cons, Json.weigh_nil]
  omega

theorem dumpsSize_str (s : PyStr) :
    dumpsSize (.str (F := F) s) = (s.map fun u => (Json.escape u).length).sum + 2 := by
  rw [dumpsSize_eq_weigh, Json.Style.write, weigh_str]
  simp only [Json.weigh_one]
  rfl

theorem scriptSize_str (s : PyStr) : scriptSize (.str (F := F) s) =
    (s.map fun u => Json.weigh Char.utf8Size (Json.escapeScript u)).sum + 2 := by
  rw [scriptSize_eq_weigh, Json.Style.write, weigh_str]
  rfl

/-- A string with nothing to escape. -/
def IsPlain (s : PyStr) : Prop := ∀ u ∈ s, (0x20 ≤ u ∧ u < 0x7F) ∧ u ≠ 0x22 ∧ u ≠ 0x5C

instance (s : PyStr) : Decidable (IsPlain s) := inferInstanceAs (Decidable (∀ u ∈ s, _))

/-- A code point with nothing to escape is one character, of one byte. -/
theorem escape_of_plain {u : ℕ} (h : (0x20 ≤ u ∧ u < 0x7F) ∧ u ≠ 0x22 ∧ u ≠ 0x5C) :
    Json.escape u = [Char.ofNat u] ∧ Json.escapeScript u = [Char.ofNat u] ∧
      (Char.ofNat u).utf8Size = 1 := by
  obtain ⟨⟨hle, hlt⟩, hquote, hbackslash⟩ := h
  have hsize : ∀ u < 0x7F, (Char.ofNat u).utf8Size = 1 := by decide
  refine ⟨?_, ?_, hsize u hlt⟩
  · rw [Json.escape, if_neg hquote, if_neg hbackslash, if_neg (by omega), if_neg (by omega),
      if_neg (by omega), if_neg (by omega), if_neg (by omega), if_pos ⟨hle, hlt⟩]
  · rw [Json.escapeScript, if_neg hquote, if_neg hbackslash, if_neg (by omega), if_neg (by omega),
      if_neg (by omega), if_neg (by omega), if_neg (by omega), if_neg (by omega)]

theorem dumpsSize_of_plain {s : PyStr} (h : IsPlain s) :
    dumpsSize (.str (F := F) s) = s.length + 2 := by
  have hone : (s.map fun u => (Json.escape u).length) = s.map fun _ => 1 :=
    List.map_congr_left fun u hu => by rw [(escape_of_plain (h u hu)).1, List.length_singleton]
  rw [dumpsSize_str, hone, List.map_const', List.sum_replicate, smul_eq_mul, mul_one]

theorem scriptSize_of_plain {s : PyStr} (h : IsPlain s) :
    scriptSize (.str (F := F) s) = s.length + 2 := by
  have hone : (s.map fun u => Json.weigh Char.utf8Size (Json.escapeScript u)) = s.map fun _ => 1 :=
    List.map_congr_left fun u hu => by
      obtain ⟨-, hescape, hsize⟩ := escape_of_plain (h u hu)
      rw [hescape, Json.weigh_cons, hsize, Json.weigh_nil]
  rw [scriptSize_str, hone, List.map_const', List.sum_replicate, smul_eq_mul, mul_one]

omit [PyFloat F] in
/-- Base64 text has nothing to escape. -/
theorem isPlain_b64encode (data : Bytes) : IsPlain ((b64encode data).map Char.toNat) := by
  have halphabet : ('=' :: base64Alphabet).all (fun c =>
      (0x20 ≤ c.toNat ∧ c.toNat < 0x7F) ∧ c.toNat ≠ 0x22 ∧ c.toNat ≠ 0x5C) = true := by rfl
  intro u hu
  obtain ⟨c, hc, rfl⟩ := List.mem_map.1 hu
  exact of_decide_eq_true
    (List.all_eq_true.1 halphabet c (List.mem_cons.2 (b64encode_mem hc).symm))

theorem dumpsSize_b64 (data : Bytes) :
    dumpsSize (b64 (F := F) data) = 4 * ((data.length + 2) / 3) + 2 := by
  rw [b64, dumpsSize_of_plain (isPlain_b64encode data), List.length_map, length_b64encode]

theorem scriptSize_b64 (data : Bytes) :
    scriptSize (b64 (F := F) data) = 4 * ((data.length + 2) / 3) + 2 := by
  rw [b64, scriptSize_of_plain (isPlain_b64encode data), List.length_map, length_b64encode]

/-- An integer is as large in both. -/
theorem scriptSize_int (n : ℤ) : scriptSize (.int (F := F) n) = dumpsSize (.int (F := F) n) := by
  have hsize : ∀ c ∈ Json.dumpsInt n, c.utf8Size = 1 := by
    intro c hc
    rcases List.mem_append.1 hc with hc | hc
    · split_ifs at hc
      · obtain rfl := List.mem_singleton.1 hc
        rfl
      · cases hc
    · have hdigit := Nat.isDigit_of_mem_toDigits (by norm_num) (le_refl _) hc
      rw [Char.isDigit, Bool.and_eq_true, decide_eq_true_iff, decide_eq_true_iff] at hdigit
      exact Char.utf8Size_eq_one_iff.2 (UInt32.le_trans hdigit.2 (by decide))
  rw [scriptSize_eq_weigh, dumpsSize_eq_weigh, Json.Style.write, Json.Style.write, Json.weigh,
    Json.weigh, List.map_congr_left hsize]

/-! ## A bound for requests -/

omit [PyFloat F] in
theorem weigh_utf8Size_le (text : List Char) : Json.weigh Char.utf8Size text ≤ 4 * text.length := by
  induction text with
  | nil => exact le_refl _
  | cons c text ih =>
    have hle := c.utf8Size_le_four
    rw [Json.weigh_cons, List.length_cons]
    omega

/-- A code point takes six bytes in a request at most. -/
theorem weigh_escapeScript_le (u : ℕ) : Json.weigh Char.utf8Size (Json.escapeScript u) ≤ 6 := by
  have hhex : ∀ n, (Nat.digitChar (n % 16)).utf8Size = 1 := by
    have hall : ∀ d < 16, (Nat.digitChar d).utf8Size = 1 := by decide
    exact fun n => hall _ (Nat.mod_lt _ (by norm_num))
  rw [Json.escapeScript]
  split_ifs
  any_goals decide
  · simp only [Json.hexDigits, List.map_cons, List.map_nil, Json.weigh_cons, Json.weigh_nil, hhex]
    decide
  · have hle := (Char.ofNat u).utf8Size_le_four
    rw [Json.weigh_cons, Json.weigh_nil]
    omega

/-- And a string not six times the characters that it takes in `json.dumps`. -/
theorem weigh_script_str_le (s : PyStr) :
    Json.weigh Char.utf8Size (Json.script.str s) ≤ 6 * (Json.spaced.str s).length := by
  have hsum : (s.map fun u => Json.weigh Char.utf8Size (Json.script.escape u)).sum ≤
      6 * (s.map fun u => Json.weigh (fun _ => 1) (Json.spaced.escape u)).sum := by
    rw [← List.sum_map_mul_left]
    refine List.sum_le_sum fun u _ => ?_
    have hle : Json.weigh Char.utf8Size (Json.script.escape u) ≤ 6 := weigh_escapeScript_le u
    have hpos : 0 < (Json.spaced.escape u).length := by
      change 0 < (Json.escape u).length
      rw [Json.escape]
      split_ifs <;> exact Nat.succ_pos _
    rw [Json.weigh_one]
    omega
  have hquote : Char.utf8Size '"' = 1 := rfl
  rw [← Json.weigh_one, weigh_str, weigh_str, hquote]
  omega

mutual

theorem length_script_le (v : Json F) : Json.weigh Char.utf8Size (Json.script.write v) ≤
    6 * (Json.spaced.write v).length := by
  match v with
  | .null | .bool true | .bool false | .arr [] | .obj [] =>
    simp only [Json.Style.write]
    decide
  | .int n =>
    have hle := weigh_utf8Size_le (Json.dumpsInt n)
    rw [Json.Style.write, Json.Style.write]
    omega
  | .float x =>
    have hle := weigh_utf8Size_le (PyFloat.text x)
    rw [Json.Style.write, Json.Style.write]
    omega
  | .str s =>
    rw [Json.Style.write, Json.Style.write]
    exact weigh_script_str_le s
  | .arr (v :: vs) =>
    have hv := length_script_le v
    have hvs := length_scriptElements_le vs
    have hbrackets : Char.utf8Size '[' = 1 ∧ Char.utf8Size ']' = 1 := ⟨rfl, rfl⟩
    simp only [Json.Style.write, Json.weigh_cons, Json.weigh_append, Json.weigh_nil, hbrackets,
      List.length_cons, List.length_append, List.length_nil]
    omega
  | .obj ((k, v) :: ms) =>
    have hk := weigh_script_str_le k
    have hv := length_script_le v
    have hms := length_scriptMembers_le ms
    have hbraces : Char.utf8Size '{' = 1 ∧ Char.utf8Size '}' = 1 := ⟨rfl, rfl⟩
    have hcolon : Json.weigh Char.utf8Size Json.script.colon = 1 := rfl
    simp only [Json.Style.write, Json.weigh_cons, Json.weigh_append, Json.weigh_nil, hbraces,
      hcolon, List.length_cons, List.length_append, List.length_nil]
    omega

theorem length_scriptElements_le (vs : List (Json F)) :
    Json.weigh Char.utf8Size (Json.script.writeElements vs) ≤
      6 * (Json.spaced.writeElements vs).length := by
  match vs with
  | [] => exact le_refl _
  | v :: vs =>
    have hv := length_script_le v
    have hvs := length_scriptElements_le vs
    have hcomma : Json.weigh Char.utf8Size Json.script.comma = 1 := rfl
    have hcomma' : Json.spaced.comma.length = 2 := rfl
    simp only [Json.Style.writeElements, Json.weigh_append, hcomma, List.length_append, hcomma']
    omega

theorem length_scriptMembers_le (ms : List (PyStr × Json F)) :
    Json.weigh Char.utf8Size (Json.script.writeMembers ms) ≤
      6 * (Json.spaced.writeMembers ms).length := by
  match ms with
  | [] => exact le_refl _
  | (k, v) :: ms =>
    have hk := weigh_script_str_le k
    have hv := length_script_le v
    have hms := length_scriptMembers_le ms
    have hcomma : Json.weigh Char.utf8Size Json.script.comma = 1 := rfl
    have hcolon : Json.weigh Char.utf8Size Json.script.colon = 1 := rfl
    have hcomma' : Json.spaced.comma.length = 2 := rfl
    simp only [Json.Style.writeMembers, Json.weigh_append, hcomma, hcolon, List.length_append,
      hcomma']
    omega

end

/-- A value is not six times as large in a request as in `json.dumps`. -/
theorem scriptSize_le (v : Json F) : scriptSize v ≤ 6 * dumpsSize v := by
  rw [scriptSize_eq_weigh, dumpsSize_eq_weigh, Json.weigh_one]
  exact length_script_le v

end SecNet
