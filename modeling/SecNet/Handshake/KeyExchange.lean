import SecNet.Handshake.Crypto
import SecNet.Handshake.Message
import SecNet.Lib.PrefixCode

/-!
# Key exchanges

The six key exchanges of `handshake.py`. Each has three functions, one branch
for each name: the client makes an ephemeral key and the payload of its hello
(`clientKeyExchangeInit`), the server answers it with the secret and the payload
of its own hello (`serverKeyExchangeResponse`), and the client computes the
secret from that (`clientKeyExchangeFinish`). The keys an end generates are an
argument (`ClientEphemeral`, `ServerEphemeral`).

* `KeyExchange.agree`: for every name, and every choice of keys, the three
  functions return, and the two secrets are equal.
-/

namespace SecNet

variable {F : Type}

/-- `KEY_EXCHANGES`. -/
def keyExchanges : List String :=
  ["ecdh", "dh-chain", "treekem", "chained-kdf", "rsa-oaep", "ml-kem"]

/-- `available_key_exchanges`, by `ml_kem_available`. -/
def availableKeyExchanges (mlKemAvailable : Bool) : List String :=
  if mlKemAvailable then keyExchanges else keyExchanges.filter (· ≠ "ml-kem")

/-- What a client may generate for a key exchange. -/
structure ClientEphemeral (C : Crypto) where
  ec : C.EcPrivate
  /-- The X25519 keys, in the order they are generated. -/
  x25519 : ℕ → C.X25519Private
  rsa : C.RsaPrivate
  mlKem : C.MlKemPrivate

/-- A payload, `{"kind": name, key: v}`. -/
def keyPayload (name key : String) (v : Json F) : Dict F :=
  .ofList [("kind", .ofString name), (key, v)]

/-- The keys of `dh-chain`. -/
def ClientEphemeral.x25519Chain {C : Crypto} (e : ClientEphemeral C) : List C.X25519Private :=
  [e.x25519 0, e.x25519 1, e.x25519 2]

/-- What a server may generate for a key exchange. -/
structure ServerEphemeral (C : Crypto) where
  ec : C.EcPrivate
  x25519 : ℕ → C.X25519Private
  /-- The secret of `rsa-oaep`, from `os.urandom(32)`. -/
  rsaShared : Bytes
  length_rsaShared : rsaShared.length = 32
  rsaSeed : Bytes
  mlKemSeed : Bytes

section

variable (C : Crypto)

/-- The input of `_chain_digest` for its parts: each one after its length. -/
def chainInput : List Bytes → Except Exn Bytes
  | [] => .ok []
  | part :: parts =>
    if part.length < 65536 then do
      .ok (packBE 2 part.length ++ part ++ (← chainInput parts))
    else .error (.overflowError "int too big to convert")

/-- `_chain_digest`. -/
def chainDigest (parts : List Bytes) (label : Bytes) : Except Exn Bytes := do
  .ok (C.sha256 (label ++ (← chainInput parts)))

/-- `_chained_kdf`. -/
def chainedKdf (secret : Bytes) : Bytes :=
  [ascii "vpn chained-kdf stage 1", ascii "vpn chained-kdf stage 2",
    ascii "vpn chained-kdf stage 3"].foldl
      (fun current label => C.hkdf 32 none label current) secret

/-- `_client_key_exchange_init`: the payload. What the client keeps is what it
    has generated. -/
def clientKeyExchangeInit (mlKemAvailable : Bool) (e : ClientEphemeral C) (name : String) :
    Except Exn (Dict F) :=
  if name = "ecdh" then
    .ok (keyPayload name "public" (b64 (C.serializeEc (C.ecPublic e.ec))))
  else if name = "dh-chain" then
    let publicKeys := e.x25519Chain.map fun k => b64 (C.x25519Public k)
    .ok (keyPayload name "public" (.arr publicKeys))
  else if name = "treekem" ∨ name = "chained-kdf" then
    .ok (keyPayload name "public" (b64 (C.x25519Public (e.x25519 0))))
  else if name = "rsa-oaep" then
    .ok (keyPayload name "public" (b64 (C.serializeRsa (C.rsaPublic e.rsa))))
  else if name = "ml-kem" then
    if mlKemAvailable then
      .ok (keyPayload name "public" (b64 (C.mlKemPublic e.mlKem)))
    else .error (.valueError "ML-KEM is unavailable in this cryptography build")
  else .error (.valueError s!"unsupported key exchange: {name}")

/-- The secret of `treekem` and `chained-kdf`, from the public keys and the
    exchange of the two keys. -/
def x25519Secret (name : String) (clientPublic serverPublic shared : Bytes) : Except Exn Bytes :=
  if name = "treekem" then
    chainDigest C [clientPublic, serverPublic, shared] (ascii "vpn treekem two-party root v1")
  else .ok (chainedKdf C shared)

/-- `_server_key_exchange_response`: the secret, and the payload of the server. -/
def serverKeyExchangeResponse (mlKemAvailable : Bool) (e : ServerEphemeral C) (name : String)
    (clientPayload : Json F) : Except Exn (Bytes × Dict F) := do
  let clientPayload ← clientPayload.asDict
  if !(clientPayload.get "kind").isStr name then
    .error (.valueError "key-exchange kind does not match negotiation")
  else if name = "ecdh" then
    match ← C.loadDerPublicKey (← unb64 (← clientPayload.getItem "public")) with
    | .ec clientPublic =>
      .ok (← C.ecExchange e.ec clientPublic,
        keyPayload name "public" (b64 (C.serializeEc (C.ecPublic e.ec))))
    | _ => .error (.valueError "invalid ECDH public key")
  else if name = "dh-chain" then
    match clientPayload.get "public" with
    | .arr [a, b, c] =>
      let shared ← [a, b, c].zipIdx.mapM fun (encoded, i) => do
        C.x25519Exchange (e.x25519 i) (← unb64 encoded)
      let serverPublics := (List.range 3).map fun i => b64 (C.x25519Public (e.x25519 i))
      .ok (← chainDigest C shared (ascii "vpn dh-chain v1"),
        keyPayload name "public" (.arr serverPublics))
    | _ => .error (.valueError "DH chain requires three public keys")
  else if name = "treekem" ∨ name = "chained-kdf" then
    let clientPublic ← unb64 (← clientPayload.getItem "public")
    let serverPublic := C.x25519Public (e.x25519 0)
    let shared ← C.x25519Exchange (e.x25519 0) clientPublic
    .ok (← x25519Secret C name clientPublic serverPublic shared,
      keyPayload name "public" (b64 serverPublic))
  else if name = "rsa-oaep" then
    match ← C.loadDerPublicKey (← unb64 (← clientPayload.getItem "public")) with
    | .rsa clientPublic =>
      let ciphertext ← C.rsaEncrypt clientPublic e.rsaSeed e.rsaShared
      .ok (e.rsaShared, keyPayload name "ciphertext" (b64 ciphertext))
    | _ => .error (.valueError "invalid RSA public key")
  else if name = "ml-kem" then
    if mlKemAvailable then
      let (shared, ciphertext) ←
        C.mlKemEncapsulate (← unb64 (← clientPayload.getItem "public")) e.mlKemSeed
      .ok (shared, keyPayload name "ciphertext" (b64 ciphertext))
    else .error (.valueError "ML-KEM is unavailable in this cryptography build")
  else .error (.valueError s!"unsupported key exchange: {name}")

/-- `_client_key_exchange_finish`: the secret, with the keys the client has
    generated for that name. -/
def clientKeyExchangeFinish (name : String) (e : ClientEphemeral C) (clientPayload : Dict F)
    (serverPayload : Json F) : Except Exn Bytes := do
  let serverPayload ← serverPayload.asDict
  if !(serverPayload.get "kind").isStr name then
    .error (.valueError "server key-exchange response does not match negotiation")
  else if name = "ecdh" then
    match ← C.loadDerPublicKey (← unb64 (← serverPayload.getItem "public")) with
    | .ec serverPublic => C.ecExchange e.ec serverPublic
    | _ => .error (.valueError "invalid server ECDH public key")
  else if name = "dh-chain" then
    match serverPayload.get "public" with
    | .arr [a, b, c] =>
      let shared ← (e.x25519Chain.zip [a, b, c]).mapM fun (key, encoded) => do
        C.x25519Exchange key (← unb64 encoded)
      chainDigest C shared (ascii "vpn dh-chain v1")
    | _ => .error (.valueError "DH chain response requires three public keys")
  else if name = "treekem" ∨ name = "chained-kdf" then
    let clientPublic ← unb64 (← clientPayload.getItem "public")
    let serverPublic ← unb64 (← serverPayload.getItem "public")
    let shared ← C.x25519Exchange (e.x25519 0) serverPublic
    x25519Secret C name clientPublic serverPublic shared
  else if name = "rsa-oaep" then do
    C.rsaDecrypt e.rsa (← unb64 (← serverPayload.getItem "ciphertext"))
  else if name = "ml-kem" then do
    C.mlKemDecapsulate e.mlKem (← unb64 (← serverPayload.getItem "ciphertext"))
  else .error (.valueError s!"unsupported key exchange: {name}")

end

/-! ## The secrets agree -/

theorem isStr_ofString (name : String) : (Json.ofString (F := F) name).isStr name = true :=
  decide_eq_true rfl

theorem get_kind (name key : String) (v : Json F) (hkey : key ≠ "kind") :
    (keyPayload name key v).get "kind" = .ofString name := by
  rw [Dict.get, keyPayload, lookup_ofList, List.reverse_cons, List.reverse_singleton,
    List.singleton_append, Json.lookup_cons, if_neg hkey.symm]
  rfl

theorem getItem_member (name key : String) (v : Json F) :
    (keyPayload name key v).getItem key = .ok v := by
  rw [Dict.getItem, keyPayload, lookup_ofList, List.reverse_cons, List.reverse_singleton,
    List.singleton_append, Json.lookup_cons, if_pos rfl]

theorem get_member (name key : String) (v : Json F) : (keyPayload name key v).get key = v := by
  rw [Dict.get, keyPayload, lookup_ofList, List.reverse_cons, List.reverse_singleton,
    List.singleton_append, Json.lookup_cons, if_pos rfl]
  rfl

variable [PyFloat F]

/-- What holds of the payloads: they are read back, and they are not long. -/
structure Dict.Sendable (d : Dict F) : Prop where
  canonical : d.Canonical
  length_le : (Json.dumps (.obj d)).length ≤ 32768

theorem sendable_of_member {name key : String} {v : Json F} (hname : name.length ≤ 16)
    (hkey : key.length ≤ 16) (hv : v.Canonical) (hlen : (Json.dumps v).length ≤ 32000) :
    (keyPayload name key v).Sendable where
  canonical := by
    refine canonical_ofList fun item hitem => ?_
    simp only [List.mem_cons, List.not_mem_nil, or_false] at hitem
    rcases hitem with rfl | rfl
    · exact canonical_ofString name
    · exact hv
  length_le := by
    have hofList := length_dumps_ofList_le [("kind", .ofString name), (key, v)]
    have := length_dumps_ofString_le (F := F) name
    have hkind : "kind".length = 4 := rfl
    simp only [List.map_cons, List.map_nil, List.sum_cons, List.sum_nil] at hofList
    rw [keyPayload]
    omega

/-- The three functions return, the secrets are equal, and the payloads can be sent. -/
def KeyExchange.Agree (F : Type) [PyFloat F] (C : Crypto) (clientMlKem serverMlKem : Bool)
    (e : ClientEphemeral C) (e' : ServerEphemeral C) (name : String) : Prop :=
  ∃ (payload reply : Dict F) (shared : Bytes),
    clientKeyExchangeInit C clientMlKem e name = .ok payload ∧
    serverKeyExchangeResponse C serverMlKem e' name (.obj payload) = .ok (shared, reply) ∧
    clientKeyExchangeFinish C name e payload (.obj reply) = .ok shared ∧
    payload.Sendable ∧ reply.Sendable

section

variable {C : Crypto} (hC : C.Correct) {clientMlKem serverMlKem : Bool} (e : ClientEphemeral C)
  (e' : ServerEphemeral C)
include hC

theorem KeyExchange.agree_ecdh : Agree F C clientMlKem serverMlKem e e' "ecdh" := by
  obtain ⟨shared, hclient, hserver⟩ := hC.ec_agree e.ec e'.ec
  have hsend : ∀ k, (keyPayload (F := F) "ecdh" "public"
      (b64 (C.serializeEc (C.ecPublic k)))).Sendable := by
    intro k
    have hlen := length_dumps_b64_le (F := F) (C.serializeEc (C.ecPublic k))
    rw [hC.length_serializeEc] at hlen
    exact sendable_of_member (by decide) (by decide) (canonical_b64 _) (by omega)
  refine ⟨keyPayload "ecdh" "public" (b64 (C.serializeEc (C.ecPublic e.ec))),
    keyPayload "ecdh" "public" (b64 (C.serializeEc (C.ecPublic e'.ec))), shared, if_pos rfl, ?_, ?_,
    hsend e.ec, hsend e'.ec⟩
  · rw [serverKeyExchangeResponse]
    simp [Json.asDict, get_kind, isStr_ofString, getItem_member, unb64_b64, hC.load_serializeEc,
      hserver, bind, Except.bind]
  · rw [clientKeyExchangeFinish]
    simp [Json.asDict, get_kind, isStr_ofString, getItem_member, unb64_b64, hC.load_serializeEc,
      hclient, bind, Except.bind]

omit hC in
/-- The parts are hashed after their lengths. -/
theorem chainInput_eq {parts : List Bytes} (h : ∀ p ∈ parts, p.length < 65536) :
    chainInput parts = .ok (parts.flatMap (lengthPrefixed 2)) := by
  induction parts with
  | nil => rfl
  | cons p parts ih =>
    rw [chainInput, if_pos (h p List.mem_cons_self), ih fun q hq => h q (List.mem_cons_of_mem p hq)]
    rfl

omit hC in
theorem chainDigest_eq {parts : List Bytes} {input : Bytes} (h : chainInput parts = .ok input)
    (label : Bytes) : chainDigest C parts label = .ok (C.sha256 (label ++ input)) := by
  rw [chainDigest, h]
  rfl

omit hC in
/-- The digest of parts that are not long. -/
theorem chainDigest_of_lt {parts : List Bytes} (h : ∀ p ∈ parts, p.length < 65536)
    (label : Bytes) : ∃ digest, chainDigest C parts label = .ok digest :=
  ⟨_, chainDigest_eq (chainInput_eq h) label⟩

theorem KeyExchange.agree_dhChain : Agree F C clientMlKem serverMlKem e e' "dh-chain" := by
  obtain ⟨s₀, hs₀, hclient₀, hserver₀⟩ := hC.x25519_agree (e.x25519 0) (e'.x25519 0)
  obtain ⟨s₁, hs₁, hclient₁, hserver₁⟩ := hC.x25519_agree (e.x25519 1) (e'.x25519 1)
  obtain ⟨s₂, hs₂, hclient₂, hserver₂⟩ := hC.x25519_agree (e.x25519 2) (e'.x25519 2)
  have hlt : ∀ p ∈ [s₀, s₁, s₂], p.length < 65536 := by
    intro p hp
    simp only [List.mem_cons, List.not_mem_nil, or_false] at hp
    rcases hp with rfl | rfl | rfl <;> omega
  obtain ⟨digest, hdigest⟩ := chainDigest_of_lt (C := C) hlt (ascii "vpn dh-chain v1")
  let publics (k : ℕ → C.X25519Private) : Json F :=
    .arr [b64 (C.x25519Public (k 0)), b64 (C.x25519Public (k 1)), b64 (C.x25519Public (k 2))]
  have hsend : ∀ k, (keyPayload "dh-chain" "public" (publics k)).Sendable := by
    intro k
    have hpublic : ∀ i, (Json.dumps (b64 (F := F) (C.x25519Public (k i)))).length ≤ 562 := by
      intro i
      have hlen := length_dumps_b64_le (F := F) (C.x25519Public (k i))
      rwa [hC.length_x25519Public] at hlen
    have h₀ := hpublic 0
    have h₁ := hpublic 1
    have h₂ := hpublic 2
    refine sendable_of_member (by decide) (by decide) (.arr fun v hv => ?_) ?_
    · simp only [List.mem_cons, List.not_mem_nil, or_false] at hv
      rcases hv with rfl | rfl | rfl <;> exact canonical_b64 _
    · refine le_trans (Json.length_dumps_arr_le _) ?_
      simp only [List.map_cons, List.map_nil, List.sum_cons, List.sum_nil]
      omega
  refine ⟨keyPayload "dh-chain" "public" (publics e.x25519),
    keyPayload "dh-chain" "public" (publics e'.x25519), digest, rfl, ?_, ?_, hsend _, hsend _⟩
  · rw [serverKeyExchangeResponse]
    simp [Json.asDict, get_kind, isStr_ofString, get_member, unb64_b64, publics, List.zipIdx,
      hserver₀, hserver₁, hserver₂, hdigest, bind, Except.bind, pure, Except.pure, List.range_succ]
  · rw [clientKeyExchangeFinish]
    simp [Json.asDict, get_kind, isStr_ofString, get_member, unb64_b64, publics,
      ClientEphemeral.x25519Chain, hclient₀, hclient₁, hclient₂, hdigest, bind, Except.bind, pure,
      Except.pure]

/-- `treekem` and `chained-kdf` differ in the secret they make of the exchange. -/
theorem KeyExchange.agree_x25519 {name : String} (hname : name = "treekem" ∨ name = "chained-kdf") :
    Agree F C clientMlKem serverMlKem e e' name := by
  obtain ⟨shared, hshared, hclient, hserver⟩ := hC.x25519_agree (e.x25519 0) (e'.x25519 0)
  have hlt : ∀ p ∈ [C.x25519Public (e.x25519 0), C.x25519Public (e'.x25519 0), shared],
      p.length < 65536 := by
    intro p hp
    simp only [List.mem_cons, List.not_mem_nil, or_false] at hp
    rcases hp with rfl | rfl | rfl
    · exact (hC.length_x25519Public _).trans_lt (by norm_num)
    · exact (hC.length_x25519Public _).trans_lt (by norm_num)
    · exact hshared.trans_lt (by norm_num)
  obtain ⟨secret, hsecret⟩ : ∃ secret, x25519Secret C name (C.x25519Public (e.x25519 0))
      (C.x25519Public (e'.x25519 0)) shared = .ok secret := by
    rw [x25519Secret]
    split_ifs
    · exact chainDigest_of_lt hlt _
    · exact ⟨_, rfl⟩
  have hsend : ∀ k, (keyPayload (F := F) name "public" (b64 (C.x25519Public k))).Sendable := by
    intro k
    have hlen := length_dumps_b64_le (F := F) (C.x25519Public k)
    rw [hC.length_x25519Public] at hlen
    refine sendable_of_member ?_ (by decide) (canonical_b64 _) (by omega)
    rcases hname with rfl | rfl <;> decide
  refine ⟨keyPayload name "public" (b64 (C.x25519Public (e.x25519 0))),
    keyPayload name "public" (b64 (C.x25519Public (e'.x25519 0))), secret, ?_, ?_, ?_, hsend _,
    hsend _⟩
  · rcases hname with rfl | rfl <;> rfl
  · rw [serverKeyExchangeResponse]
    rcases hname with rfl | rfl <;>
    simp [Json.asDict, get_kind, isStr_ofString, getItem_member, unb64_b64, hserver, hsecret, bind,
      Except.bind]
  · rw [clientKeyExchangeFinish]
    rcases hname with rfl | rfl <;>
    simp [Json.asDict, get_kind, isStr_ofString, getItem_member, unb64_b64, hclient, hsecret, bind,
      Except.bind]

theorem KeyExchange.agree_rsaOaep : Agree F C clientMlKem serverMlKem e e' "rsa-oaep" := by
  obtain ⟨ciphertext, hciphertext, hencrypt, hdecrypt⟩ :=
    hC.rsa_decrypt_encrypt e.rsa e'.rsaSeed e'.rsaShared e'.length_rsaShared
  have hpublic := length_dumps_b64_le (F := F) (C.serializeRsa (C.rsaPublic e.rsa))
  rw [hC.length_serializeRsa] at hpublic
  have hreply := length_dumps_b64_le (F := F) ciphertext
  refine ⟨keyPayload "rsa-oaep" "public" (b64 (C.serializeRsa (C.rsaPublic e.rsa))),
    keyPayload "rsa-oaep" "ciphertext" (b64 ciphertext), e'.rsaShared, rfl, ?_, ?_,
    sendable_of_member (by decide) (by decide) (canonical_b64 _) (by omega),
    sendable_of_member (by decide) (by decide) (canonical_b64 _) (by omega)⟩
  · rw [serverKeyExchangeResponse]
    simp [Json.asDict, get_kind, isStr_ofString, getItem_member, unb64_b64, hC.load_serializeRsa,
      hencrypt, bind, Except.bind]
  · rw [clientKeyExchangeFinish]
    simp [Json.asDict, get_kind, isStr_ofString, getItem_member, unb64_b64, hdecrypt, bind,
      Except.bind]

theorem KeyExchange.agree_mlKem (hclient : clientMlKem = true) (hserver : serverMlKem = true) :
    Agree F C clientMlKem serverMlKem e e' "ml-kem" := by
  obtain ⟨shared, ciphertext, hciphertext, hencapsulate, hdecapsulate⟩ :=
    hC.mlKem_agree e.mlKem e'.mlKemSeed
  have hpublic := length_dumps_b64_le (F := F) (C.mlKemPublic e.mlKem)
  rw [hC.length_mlKemPublic] at hpublic
  have hreply := length_dumps_b64_le (F := F) ciphertext
  refine ⟨keyPayload "ml-kem" "public" (b64 (C.mlKemPublic e.mlKem)),
    keyPayload "ml-kem" "ciphertext" (b64 ciphertext), shared, ?_, ?_, ?_,
    sendable_of_member (by decide) (by decide) (canonical_b64 _) (by omega),
    sendable_of_member (by decide) (by decide) (canonical_b64 _) (by omega)⟩
  · rw [hclient]
    rfl
  · rw [serverKeyExchangeResponse]
    simp [Json.asDict, get_kind, isStr_ofString, getItem_member, unb64_b64, hserver, hencapsulate,
      bind, Except.bind]
  · rw [clientKeyExchangeFinish]
    simp [Json.asDict, get_kind, isStr_ofString, getItem_member, unb64_b64, hdecapsulate, bind,
      Except.bind]

/-- The secrets agree, for every key exchange that both ends have. -/
theorem KeyExchange.agree {name : String} (hclient : name ∈ availableKeyExchanges clientMlKem)
    (hserver : name ∈ availableKeyExchanges serverMlKem) :
    Agree F C clientMlKem serverMlKem e e' name := by
  have havailable : ∀ b, name ∈ availableKeyExchanges b →
      name ∈ keyExchanges ∧ (name = "ml-kem" → b = true) := by
    intro b h
    rw [availableKeyExchanges] at h
    split_ifs at h with hb
    · exact ⟨h, fun _ => hb⟩
    · rw [List.mem_filter] at h
      exact ⟨h.1, fun hname => by simp [hname] at h⟩
  obtain ⟨hname, hclient⟩ := havailable _ hclient
  have hserver := (havailable _ hserver).2
  simp only [keyExchanges, List.mem_cons, List.not_mem_nil, or_false] at hname
  rcases hname with rfl | rfl | rfl | rfl | rfl | rfl
  · exact agree_ecdh hC e e'
  · exact agree_dhChain hC e e'
  · exact agree_x25519 hC e e' (.inl rfl)
  · exact agree_x25519 hC e e' (.inr rfl)
  · exact agree_rsaOaep hC e e'
  · exact agree_mlKem hC e e' (hclient rfl) (hserver rfl)

end

end SecNet
