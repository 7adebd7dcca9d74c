import Mathlib.Data.List.Induction
import Mathlib.Tactic

/-!
# Byte strings and big-endian integers

A byte string is a list of bytes. `packBE w n` is the big-endian encoding of
`n` on `w` bytes (the network order of `struct.pack`), and `unpackBE` reads a
byte string of any length back:

* `unpackBE_packBE`: what fits is read back;
* `packBE_unpackBE`: a byte string is the encoding of what it reads as;
* `packBE_injective`: so that an encoding names its number.
-/

namespace SecNet

/-- A byte string. -/
abbrev Bytes := List UInt8

/-- The big-endian encoding of `n` on `w` bytes (of its remainder by `256 ^ w`). -/
def packBE : ℕ → ℕ → Bytes
  | 0, _ => []
  | w + 1, n => packBE w (n / 256) ++ [UInt8.ofNat (n % 256)]

/-- The number a byte string reads as, in big-endian order. -/
def unpackBE (b : Bytes) : ℕ := b.foldl (fun n x => n * 256 + x.toNat) 0

@[simp] theorem length_packBE (w n : ℕ) : (packBE w n).length = w := by
  induction w generalizing n with
  | zero => rfl
  | succ w ih => simp [packBE, ih]

@[simp] theorem unpackBE_nil : unpackBE [] = 0 := rfl

/-- The last byte is the least significant one. -/
@[simp] theorem unpackBE_concat (b : Bytes) (x : UInt8) :
    unpackBE (b ++ [x]) = unpackBE b * 256 + x.toNat := by
  simp [unpackBE]

/-- What fits on `w` bytes is read back. -/
theorem unpackBE_packBE {w n : ℕ} (h : n < 256 ^ w) : unpackBE (packBE w n) = n := by
  induction w generalizing n with
  | zero =>
    rw [Nat.pow_zero] at h
    rw [packBE, unpackBE_nil]
    omega
  | succ w ih =>
    have hdiv : n / 256 < 256 ^ w := by
      rw [Nat.pow_succ] at h
      exact Nat.div_lt_of_lt_mul (by omega)
    rw [packBE, unpackBE_concat, ih hdiv, UInt8.toNat_ofNat']
    omega

theorem unpackBE_lt (b : Bytes) : unpackBE b < 256 ^ b.length := by
  induction b using List.reverseRecOn with
  | nil => simp
  | append_singleton b x ih =>
    have hx := x.toNat_lt
    rw [unpackBE_concat, List.length_append, List.length_singleton, Nat.pow_succ]
    omega

/-- A byte string is the encoding, on its length, of what it reads as. -/
theorem packBE_unpackBE (b : Bytes) : packBE b.length (unpackBE b) = b := by
  induction b using List.reverseRecOn with
  | nil => rfl
  | append_singleton b x ih =>
    have hx := x.toNat_lt
    have hdiv : (unpackBE b * 256 + x.toNat) / 256 = unpackBE b := by omega
    have hmod : (unpackBE b * 256 + x.toNat) % 256 = x.toNat := by omega
    rw [List.length_append, List.length_singleton, unpackBE_concat, packBE, hdiv, ih, hmod,
      UInt8.ofNat_toNat]

/-- An encoding names its number. -/
theorem packBE_injective {w m n : ℕ} (hm : m < 256 ^ w) (hn : n < 256 ^ w)
    (h : packBE w m = packBE w n) : m = n := by
  rw [← unpackBE_packBE hm, ← unpackBE_packBE hn, h]

end SecNet
