import SecNet.Lib.Bytes

/-!
# Prefix codes

A code whose words are recognised at the front of any string: a string of them
has one reading. The strings that follow their length are such a code.

* `PrefixFree.flatMap_injective`: a list of words is read back from their
  concatenation;
* `prefixFree_lengthPrefixed`: a length on `w` bytes, and then that many bytes.
-/

namespace SecNet

variable {α ι : Type*}

/-- The words of `code` for the elements of `P`, with whatever follows them,
    determine both. -/
def PrefixFree (P : ι → Prop) (code : ι → List α) : Prop :=
  ∀ x y s t, P x → P y → code x ++ s = code y ++ t → x = y ∧ s = t

/-- The concatenation of words determines the words. -/
theorem PrefixFree.flatMap_injective {P : ι → Prop} {code : ι → List α} (h : PrefixFree P code)
    (hne : ∀ x, code x ≠ []) {xs ys : List ι} (hxs : ∀ x ∈ xs, P x) (hys : ∀ y ∈ ys, P y)
    (heq : xs.flatMap code = ys.flatMap code) : xs = ys := by
  induction xs generalizing ys with
  | nil =>
    cases ys with
    | nil => rfl
    | cons y ys => simp [hne y] at heq
  | cons x xs ih =>
    cases ys with
    | nil => simp [hne x] at heq
    | cons y ys =>
      rw [List.flatMap_cons, List.flatMap_cons] at heq
      obtain ⟨rfl, htail⟩ :=
        h x y _ _ (hxs x List.mem_cons_self) (hys y List.mem_cons_self) heq
      rw [ih (fun z hz => hxs z (List.mem_cons_of_mem _ hz))
        (fun z hz => hys z (List.mem_cons_of_mem _ hz)) htail]

/-- A byte string after its length, on `w` bytes. -/
def lengthPrefixed (w : ℕ) (p : Bytes) : Bytes := packBE w p.length ++ p

/-- A length is on one byte at least. -/
theorem lengthPrefixed_ne_nil {w : ℕ} (hw : w ≠ 0) (p : Bytes) : lengthPrefixed w p ≠ [] := by
  rw [lengthPrefixed, ne_eq, ← List.length_eq_zero_iff, List.length_append, length_packBE]
  omega

/-- The lengths that fit are read first, and say where the strings end. -/
theorem prefixFree_lengthPrefixed (w : ℕ) :
    PrefixFree (fun p => p.length < 256 ^ w) (lengthPrefixed w) := by
  intro p q s t hp hq heq
  rw [lengthPrefixed, lengthPrefixed, List.append_assoc, List.append_assoc] at heq
  obtain ⟨hlen, hrest⟩ := List.append_inj heq (by rw [length_packBE, length_packBE])
  exact List.append_inj hrest (packBE_injective hp hq hlen)

end SecNet
