import SecNet.Exn
import SecNet.Lib.Bytes

/-!
# Session ciphers

One ordered, authenticated direction of a session (`SessionCipher` of
`encryptDecrypt.py`): every record carries the sequence number it was sealed
under, the nonce and the associated data are computed from that number, and a
record is opened only under the next number expected.

The AEAD itself is a parameter (`Aead`), about which proofs assume what its
documentation promises (`Aead.Correct`): what is sealed is opened, and a tag of
16 bytes is added to it.

* `decrypt_record`: a record is opened by a cipher of the same key that
  expects its number;
* `decrypt_eq_ok`: what an accepted record is;
* `decrypt_error`: a rejected record leaves the cipher as it was;
* `nonce_injective`: a nonce names its sequence number.
-/

namespace SecNet

/-- The bytes of an ASCII literal. -/
def ascii (s : String) : Bytes := s.toList.map fun c => UInt8.ofNat c.toNat

/-- `struct.pack("!Q", n)`. -/
def packQ (n : ℕ) : Except Exn Bytes :=
  if n < 2 ^ 64 then .ok (packBE 8 n) else .error (.structError "int too large to convert")

/-- An AEAD, under any key. -/
structure Aead where
  encrypt : (key nonce data aad : Bytes) → Bytes
  decrypt : (key nonce data aad : Bytes) → Except Exn Bytes

/-- The AEADs of the `cryptography` package that sessions use. -/
structure AeadSuite where
  aesGcm : Aead
  chaCha20Poly1305 : Aead

/-- `SUPPORTED_CIPHERS`. -/
def supportedCiphers : List String := ["aes-256-gcm", "chacha20-poly1305"]

/-- `_make_aead`. -/
def makeAead (suite : AeadSuite) (cipher : String) (key : Bytes) : Except Exn Aead :=
  if key.length ≠ 32 then .error (.valueError "session keys must be 32 bytes")
  else if cipher = "aes-256-gcm" then .ok suite.aesGcm
  else if cipher = "chacha20-poly1305" then .ok suite.chaCha20Poly1305
  else .error (.valueError s!"unsupported cipher: {cipher}")

/-- What an AEAD documents: it opens what it sealed, and adds a tag to it. -/
structure Aead.Correct (a : Aead) : Prop where
  decrypt_encrypt : ∀ key nonce data aad,
    a.decrypt key nonce (a.encrypt key nonce data aad) aad = .ok data
  length_encrypt : ∀ key nonce data aad, (a.encrypt key nonce data aad).length = data.length + 16

/-- The tag of the AEAD of concrete runs: the start of the key, and the
    sequence number in the associated data. -/
def tag (key aad : Bytes) : Bytes := (key.take 8 ++ aad.drop 13 ++ List.replicate 16 0).take 16

/-- An AEAD for concrete runs, which leaves the data as it is and appends a tag. -/
def tagAead : Aead where
  encrypt key _ data aad := data ++ tag key aad
  decrypt key _ data aad :=
    if data.drop (data.length - 16) = tag key aad then .ok (data.take (data.length - 16))
    else .error .invalidTag

theorem length_tag (key aad : Bytes) : (tag key aad).length = 16 := by
  simp only [tag, List.length_take, List.length_append, List.length_replicate]
  omega

theorem tagAead_correct : tagAead.Correct where
  decrypt_encrypt key nonce data aad := by
    have hlen : (data ++ tag key aad).length - 16 = data.length := by
      rw [List.length_append, length_tag, Nat.add_sub_cancel]
    simp only [tagAead, hlen, List.drop_left, List.take_left, if_true]
  length_encrypt key nonce data aad := by
    simp only [tagAead, List.length_append, length_tag]

/-- A call of an AEAD to seal something, with its result. -/
structure Sealed where
  key : Bytes
  nonce : Bytes
  ciphertext : Bytes
  aad : Bytes
  deriving DecidableEq

/-- A session cipher: its AEAD and key, and its two counters. -/
structure SessionCipher where
  aead : Aead
  key : Bytes
  sendSequence : ℕ
  receiveSequence : ℕ

namespace SessionCipher

/-- A new session cipher, of an AEAD and a key. -/
def new (aead : Aead) (key : Bytes) : SessionCipher := ⟨aead, key, 0, 0⟩

/-- `__init__`: a new session cipher, of a key and the name of a cipher. -/
def init (suite : AeadSuite) (key : Bytes) (cipher : String) : Except Exn SessionCipher := do
  .ok (new (← makeAead suite cipher key) key)

/-- `_nonce`. -/
def nonce (sequence : ℕ) : Except Exn Bytes := do
  .ok (ascii "VPN1" ++ (← packQ sequence))

/-- `_aad`. -/
def aad (sequence : ℕ) : Except Exn Bytes := do
  .ok (ascii "vpn-record-v1" ++ (← packQ sequence))

/-- The call of the AEAD for the packet of number `sequence`. -/
def aeadSeal (c : SessionCipher) (sequence : ℕ) (plaintext : Bytes) : Except Exn Sealed := do
  let nonce ← nonce sequence
  let aad ← aad sequence
  .ok ⟨c.key, nonce, c.aead.encrypt c.key nonce plaintext aad, aad⟩

/-- `encrypt`: the record of the next packet. The number is used up, also when
    it does not fit and `struct.pack` raises. -/
def encrypt (c : SessionCipher) (plaintext : Bytes) : Except Exn Bytes × SessionCipher :=
  let sequence := c.sendSequence
  (do
    let s ← c.aeadSeal sequence plaintext
    .ok ((← packQ sequence) ++ s.ciphertext),
   { c with sendSequence := c.sendSequence + 1 })

/-- Opening the ciphertext of a record of number `sequence`. -/
def aeadOpen (c : SessionCipher) (sequence : ℕ) (ciphertext : Bytes) : Except Exn Bytes := do
  let nonce ← nonce sequence
  let aad ← aad sequence
  c.aead.decrypt c.key nonce ciphertext aad

/-- `decrypt`: the packet of a record, if the record is the next one. -/
def decrypt (c : SessionCipher) (encrypted : Bytes) : Except Exn Bytes × SessionCipher :=
  if encrypted.length < 8 + 16 then (.error (.valueError "encrypted record is too short"), c)
  else
    let sequence := unpackBE (encrypted.take 8)
    let expected := c.receiveSequence
    if sequence ≠ expected then
      (.error (.valueError s!"unexpected record sequence {sequence}; expected {expected}"), c)
    else
      match c.aeadOpen sequence (encrypted.drop 8) with
      | .error e => (.error e, c)
      | .ok plaintext => (.ok plaintext, { c with receiveSequence := expected + 1 })

/-! ## Nonces -/

/-- The nonce of a number that fits. -/
def nonceBytes (n : ℕ) : Bytes := ascii "VPN1" ++ packBE 8 n

/-- The associated data of a number that fits. -/
def aadBytes (n : ℕ) : Bytes := ascii "vpn-record-v1" ++ packBE 8 n

theorem packQ_of_lt {n : ℕ} (h : n < 2 ^ 64) : packQ n = .ok (packBE 8 n) := if_pos h

theorem nonce_of_lt {n : ℕ} (h : n < 2 ^ 64) : nonce n = .ok (nonceBytes n) := by
  rw [nonce, packQ_of_lt h]
  rfl

theorem aad_of_lt {n : ℕ} (h : n < 2 ^ 64) : aad n = .ok (aadBytes n) := by
  rw [aad, packQ_of_lt h]
  rfl

/-- A nonce names its number. -/
theorem nonce_injective {m n : ℕ} (hm : m < 2 ^ 64) (hn : n < 2 ^ 64)
    (h : nonceBytes m = nonceBytes n) : m = n :=
  packBE_injective (w := 8) (hm.trans_eq (by norm_num)) (hn.trans_eq (by norm_num))
    (List.append_cancel_left h)

/-! ## Records -/

/-- The ciphertext of the packet `p` of number `n`. -/
def ciphertext (a : Aead) (key : Bytes) (n : ℕ) (p : Bytes) : Bytes :=
  a.encrypt key (nonceBytes n) p (aadBytes n)

/-- The record of the packet `p` of number `n`. -/
def record (a : Aead) (key : Bytes) (n : ℕ) (p : Bytes) : Bytes :=
  packBE 8 n ++ ciphertext a key n p

variable {c : SessionCipher}

theorem aeadSeal_of_lt {n : ℕ} (h : n < 2 ^ 64) (p : Bytes) :
    c.aeadSeal n p = .ok ⟨c.key, nonceBytes n, ciphertext c.aead c.key n p, aadBytes n⟩ := by
  rw [aeadSeal, nonce_of_lt h, aad_of_lt h]
  rfl

/-- The record of the next packet. -/
theorem encrypt_of_lt (h : c.sendSequence < 2 ^ 64) (p : Bytes) :
    c.encrypt p = (.ok (record c.aead c.key c.sendSequence p),
      { c with sendSequence := c.sendSequence + 1 }) := by
  rw [encrypt, aeadSeal_of_lt h, packQ_of_lt h]
  rfl

/-- When the numbers are used up, there is no record. -/
theorem encrypt_of_le (h : 2 ^ 64 ≤ c.sendSequence) (p : Bytes) :
    c.encrypt p = (.error (.structError "int too large to convert"),
      { c with sendSequence := c.sendSequence + 1 }) := by
  rw [encrypt, aeadSeal, nonce, packQ, if_neg (not_lt.2 h)]
  rfl

theorem length_record (hc : c.aead.Correct) (n : ℕ) (p : Bytes) :
    (record c.aead c.key n p).length = p.length + 24 := by
  rw [record, List.length_append, length_packBE, ciphertext, hc.length_encrypt]
  omega

theorem take_record (a : Aead) (key : Bytes) (n : ℕ) (p : Bytes) :
    (record a key n p).take 8 = packBE 8 n := by
  rw [record, List.take_append_of_le_length (by simp), List.take_of_length_le (by simp)]

theorem drop_record (a : Aead) (key : Bytes) (n : ℕ) (p : Bytes) :
    (record a key n p).drop 8 = ciphertext a key n p := by
  rw [record, List.drop_append_of_le_length (by simp), List.drop_of_length_le (by simp),
    List.nil_append]

/-- A record is opened by a cipher of the same key that expects its number. -/
theorem decrypt_record (hc : c.aead.Correct) (h : c.receiveSequence < 2 ^ 64) (p : Bytes) :
    c.decrypt (record c.aead c.key c.receiveSequence p) =
      (.ok p, { c with receiveSequence := c.receiveSequence + 1 }) := by
  have hopen :
      c.aeadOpen c.receiveSequence (ciphertext c.aead c.key c.receiveSequence p) = .ok p := by
    rw [aeadOpen, nonce_of_lt h, aad_of_lt h]
    exact hc.decrypt_encrypt _ _ _ _
  have hlen := length_record hc c.receiveSequence p
  rw [decrypt, if_neg (by omega), take_record, drop_record,
    unpackBE_packBE (h.trans_eq (by norm_num))]
  simp only [ne_eq, not_true_eq_false, if_false, hopen]

/-- What an accepted record is: it carries the number expected, and its
    ciphertext opens under the nonce and associated data of that number. -/
theorem decrypt_eq_ok {r p : Bytes} {c' : SessionCipher} (h : c.decrypt r = (.ok p, c')) :
    c.receiveSequence < 2 ^ 64 ∧ unpackBE (r.take 8) = c.receiveSequence ∧
      c.aead.decrypt c.key (nonceBytes c.receiveSequence) (r.drop 8) (aadBytes c.receiveSequence) =
        .ok p ∧
      c' = { c with receiveSequence := c.receiveSequence + 1 } := by
  rw [decrypt] at h
  split_ifs at h with hlen
  · simp at h
  simp only at h
  split_ifs at h with hseq
  · simp at h
  rw [not_not] at hseq
  have h8 : (r.take 8).length = 8 := by rw [List.length_take]; omega
  have hlt : c.receiveSequence < 2 ^ 64 := by
    have := unpackBE_lt (r.take 8)
    rw [h8, hseq] at this
    exact this.trans_eq (by norm_num)
  rw [hseq] at h
  cases ho : c.aeadOpen c.receiveSequence (r.drop 8) with
  | error e => simp [ho] at h
  | ok q =>
    simp only [ho, Prod.mk.injEq, Except.ok.injEq] at h
    obtain ⟨rfl, rfl⟩ := h
    rw [aeadOpen, nonce_of_lt hlt, aad_of_lt hlt] at ho
    exact ⟨hlt, hseq, ho, rfl⟩

/-- A rejected record leaves the cipher as it was. -/
theorem decrypt_error {r : Bytes} {e : Exn} {c' : SessionCipher}
    (h : c.decrypt r = (.error e, c')) : c' = c := by
  rw [decrypt] at h
  split_ifs at h with hlen
  · exact (Prod.mk.inj h).2.symm
  simp only at h
  split_ifs at h with hseq
  · exact (Prod.mk.inj h).2.symm
  cases ho : c.aeadOpen (unpackBE (r.take 8)) (r.drop 8) with
  | error e => simp only [ho] at h; exact (Prod.mk.inj h).2.symm
  | ok q => simp [ho] at h

end SessionCipher

end SecNet
