import SecNet.Record.Cipher

/-!
# The cryptography of a handshake

The primitives of the `cryptography` package and of `hashlib` that a handshake
calls, as one parameter (`Crypto`). What a primitive draws at random (a key, the
seed of an encryption) is an argument of it.

What the proofs assume of them is what they document (`Crypto.Correct`): the
sizes of what they return, that the two sides of a Diffie-Hellman exchange
agree, that what is encrypted is decrypted, and that a signature is verified.
-/

namespace SecNet

/-- A public key, as loaded from its DER encoding. -/
inductive DerKey (EcPublic RsaPublic : Type)
  | ec (key : EcPublic)
  | rsa (key : RsaPublic)
  | other

/-- The primitives of a handshake. -/
structure Crypto where
  sha256 : Bytes → Bytes
  /-- HKDF with SHA-256. -/
  hkdf : (length : ℕ) → (salt : Option Bytes) → (info secret : Bytes) → Bytes
  aead : AeadSuite
  X25519Private : Type
  /-- The raw public key. -/
  x25519Public : X25519Private → Bytes
  /-- Loading a raw public key, and the exchange with it. -/
  x25519Exchange : X25519Private → (publicBytes : Bytes) → Except Exn Bytes
  EcPrivate : Type
  EcPublic : Type
  ecPublic : EcPrivate → EcPublic
  ecExchange : EcPrivate → EcPublic → Except Exn Bytes
  RsaPrivate : Type
  RsaPublic : Type
  rsaPublic : RsaPrivate → RsaPublic
  /-- Encryption with OAEP, with its seed. -/
  rsaEncrypt : RsaPublic → (seed data : Bytes) → Except Exn Bytes
  rsaDecrypt : RsaPrivate → (ciphertext : Bytes) → Except Exn Bytes
  /-- The DER encodings of public keys. -/
  serializeEc : EcPublic → Bytes
  serializeRsa : RsaPublic → Bytes
  loadDerPublicKey : Bytes → Except Exn (DerKey EcPublic RsaPublic)
  MlKemPrivate : Type
  mlKemPublic : MlKemPrivate → Bytes
  /-- Loading a raw public key, and the secret and the ciphertext for it. -/
  mlKemEncapsulate : (publicBytes seed : Bytes) → Except Exn (Bytes × Bytes)
  mlKemDecapsulate : MlKemPrivate → (ciphertext : Bytes) → Except Exn Bytes
  Ed25519Private : Type
  ed25519Public : Ed25519Private → Bytes
  ed25519Sign : Ed25519Private → (message : Bytes) → Bytes
  ed25519Verify : (publicBytes message signature : Bytes) → Except Exn Unit

/-- What the primitives document. -/
structure Crypto.Correct (C : Crypto) : Prop where
  length_sha256 : ∀ data, (C.sha256 data).length = 32
  length_hkdf : ∀ n salt info secret, n ≤ 255 * 32 → (C.hkdf n salt info secret).length = n
  aesGcm : C.aead.aesGcm.Correct
  chaCha20Poly1305 : C.aead.chaCha20Poly1305.Correct
  length_x25519Public : ∀ k, (C.x25519Public k).length = 32
  x25519_agree : ∀ a b, ∃ shared, shared.length = 32 ∧
    C.x25519Exchange a (C.x25519Public b) = .ok shared ∧
    C.x25519Exchange b (C.x25519Public a) = .ok shared
  ec_agree : ∀ a b, ∃ shared,
    C.ecExchange a (C.ecPublic b) = .ok shared ∧ C.ecExchange b (C.ecPublic a) = .ok shared
  load_serializeEc : ∀ k,
    C.loadDerPublicKey (C.serializeEc (C.ecPublic k)) = .ok (.ec (C.ecPublic k))
  length_serializeEc : ∀ k, (C.serializeEc (C.ecPublic k)).length = 91
  rsa_decrypt_encrypt : ∀ k seed data, data.length = 32 → ∃ ciphertext, ciphertext.length = 256 ∧
    C.rsaEncrypt (C.rsaPublic k) seed data = .ok ciphertext ∧
    C.rsaDecrypt k ciphertext = .ok data
  load_serializeRsa : ∀ k,
    C.loadDerPublicKey (C.serializeRsa (C.rsaPublic k)) = .ok (.rsa (C.rsaPublic k))
  length_serializeRsa : ∀ k, (C.serializeRsa (C.rsaPublic k)).length = 294
  length_mlKemPublic : ∀ k, (C.mlKemPublic k).length = 1184
  mlKem_agree : ∀ k seed, ∃ shared ciphertext, ciphertext.length = 1088 ∧
    C.mlKemEncapsulate (C.mlKemPublic k) seed = .ok (shared, ciphertext) ∧
    C.mlKemDecapsulate k ciphertext = .ok shared
  length_ed25519Public : ∀ k, (C.ed25519Public k).length = 32
  length_ed25519Sign : ∀ k message, (C.ed25519Sign k message).length = 64
  verify_sign : ∀ k message,
    C.ed25519Verify (C.ed25519Public k) message (C.ed25519Sign k message) = .ok ()

/-! ## A toy cryptography -/

/-- A byte string cut or filled with zeros to a length. -/
def fit (n : ℕ) (data : Bytes) : Bytes := (data ++ List.replicate n 0).take n

@[simp]
theorem length_fit (n : ℕ) (data : Bytes) : (fit n data).length = n := by
  simp [fit]

/-- What has been filled is read back. -/
theorem take_fit {m n : ℕ} {data : Bytes} (h : data.length = m) (hmn : m ≤ n) :
    (fit n data).take m = data := by
  rw [fit, List.take_take, min_eq_left hmn, List.take_append_of_le_length h.ge,
    List.take_of_length_le h.le]

/-- Primitives for concrete runs, which keep nothing secret: the keys of a
    Diffie-Hellman exchange are added, a public key is the private one, and an
    encryption fills its text with zeros. -/
def plainCrypto : Crypto where
  sha256 := fit 32
  hkdf n _ info secret := fit n (secret ++ info)
  aead := ⟨tagAead, tagAead⟩
  X25519Private := UInt8
  x25519Public k := List.replicate 32 k
  x25519Exchange k publicBytes := .ok (publicBytes.map (k + ·))
  EcPrivate := UInt8
  EcPublic := UInt8
  ecPublic k := k
  ecExchange a b := .ok [a + b]
  RsaPrivate := UInt8
  RsaPublic := UInt8
  rsaPublic k := k
  rsaEncrypt _ _ data := .ok (fit 256 data)
  rsaDecrypt _ ciphertext := .ok (ciphertext.take 32)
  serializeEc k := 0 :: k :: List.replicate 89 0
  serializeRsa k := 1 :: k :: List.replicate 292 0
  loadDerPublicKey
    | 0 :: k :: _ => .ok (.ec k)
    | 1 :: k :: _ => .ok (.rsa k)
    | _ => .ok .other
  MlKemPrivate := UInt8
  mlKemPublic k := List.replicate 1184 k
  mlKemEncapsulate _ seed := .ok (fit 32 seed, fit 1088 (fit 32 seed))
  mlKemDecapsulate _ ciphertext := .ok (ciphertext.take 32)
  Ed25519Private := UInt8
  ed25519Public k := List.replicate 32 k
  ed25519Sign _ message := fit 64 message
  ed25519Verify _ message signature :=
    if signature = fit 64 message then .ok () else .error .invalidSignature

theorem plainCrypto_correct : plainCrypto.Correct where
  length_sha256 _ := length_fit _ _
  length_hkdf _ _ _ _ _ := length_fit _ _
  aesGcm := tagAead_correct
  chaCha20Poly1305 := tagAead_correct
  length_x25519Public _ := List.length_replicate
  x25519_agree (a b : UInt8) := by
    refine ⟨List.replicate 32 (a + b), List.length_replicate, ?_, ?_⟩
    · exact congrArg Except.ok List.map_replicate
    · rw [UInt8.add_comm]
      exact congrArg Except.ok List.map_replicate
  ec_agree (a b : UInt8) := ⟨[a + b], rfl, congrArg (fun c => Except.ok [c]) (UInt8.add_comm b a)⟩
  load_serializeEc _ := rfl
  length_serializeEc _ := congrArg (· + 2) List.length_replicate
  rsa_decrypt_encrypt _ _ data h :=
    ⟨fit 256 data, length_fit _ _, rfl, congrArg Except.ok (take_fit h (by norm_num))⟩
  load_serializeRsa _ := rfl
  length_serializeRsa _ := congrArg (· + 2) List.length_replicate
  length_mlKemPublic _ := List.length_replicate
  mlKem_agree _ seed := ⟨fit 32 seed, fit 1088 (fit 32 seed), length_fit _ _, rfl,
    congrArg Except.ok (take_fit (length_fit _ _) (by norm_num))⟩
  length_ed25519Public _ := List.length_replicate
  length_ed25519Sign _ _ := length_fit _ _
  verify_sign _ _ := if_pos rfl

end SecNet
