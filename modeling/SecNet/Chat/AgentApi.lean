import SecNet.Chat.CryptoAgent
import SecNet.Chat.Service

/-!
# The requests to the agent

What `chat_agent.py` does for the browser besides the states of groups: direct messages
(`direct_encrypt`, `direct_decrypt`), messages and files of a group (`group_encrypt`,
`file_encrypt` and their inverses), and `do_POST`, which serves the requests up to a size.

* `directDecrypt_directEncrypt`: a direct envelope is opened by the device it is for;
* `openForGroup_of_groupKey`: what is sealed for a group is opened by a device with the same
  key of the group; `openForGroup_of_ne`: and by none with another epoch;
* `post_eq_ok`: a request that is served is not too large.
-/

namespace SecNet

variable {C : Crypto} {F : Type}

/-! ## Direct messages -/

/-- The label of direct messages. -/
def directLabel : Bytes := ascii "vpn1 direct message v1"

/-- What the agent draws for a request. -/
structure AgentDraws (C : Crypto) where
  ephemeral : C.X25519Private
  /-- `secrets.token_bytes(12)`. -/
  nonce : Bytes
  length_nonce : nonce.length = 12

/-- `direct_encrypt`. -/
def directEncrypt (draws : AgentDraws C) (recipientPublic plaintext : Bytes) (messageId : Json F) :
    Except Exn (Dict F) := do
  let payload ← sealTo C draws.ephemeral draws.nonce recipientPublic plaintext directLabel
  return Dict.ofList [("kind", .ofString "direct"), ("message_id", messageId),
    ("payload", .obj payload)]

/-- `direct_decrypt`. -/
def directDecrypt (identity : DeviceIdentity C) (envelope : Json F) : Except Exn Bytes := do
  let envelope ← envelope.asDict
  check ((envelope.get "kind").isStr "direct") "not a direct envelope"
  openWithDirectKey identity (← envelope.getItem "payload") directLabel

/-- A direct envelope is opened by the device it is for. -/
theorem directDecrypt_directEncrypt (hC : C.Correct) (identity : DeviceIdentity C)
    (draws : AgentDraws C) (plaintext : Bytes) (messageId : Json F) :
    ∃ envelope : Dict F,
      directEncrypt draws identity.directPublicKeyBytes plaintext messageId = .ok envelope ∧
        directDecrypt identity (.obj envelope) = .ok plaintext := by
  obtain ⟨payload, hseal, hopen⟩ := openWithDirectKey_sealTo (F := F) hC identity draws.ephemeral
    draws.nonce plaintext directLabel
  refine ⟨_, bind_eq_ok.2 ⟨payload, hseal, rfl⟩, ?_⟩
  refine bind_eq_ok.2 ⟨_, rfl, bind_eq_ok.2 ⟨(), check_eq_ok.2 ?_, ?_⟩⟩
  · rw [Dict.get_ofList rfl]
    exact isStr_ofString _
  · exact bind_eq_ok.2 ⟨.obj payload, Dict.getItem_ofList rfl, hopen⟩

/-! ## Messages and files of a group -/

/-- `text.encode()`. -/
def encodeStr (text : PyStr) : Except Exn Bytes :=
  match text.toText with
  | some text => .ok (encodeUtf8 text.toList)
  | none => .error .unicodeEncodeError

theorem encodeStr_of_isScalar {text : PyStr} (h : ∀ u ∈ text, Json.IsScalar u) :
    ∃ data, encodeStr text = .ok data := by
  have hall : text.all (fun u => u < 0xD800 ∨ 0xE000 ≤ u ∧ u < 0x110000) :=
    List.all_eq_true.2 fun u hu => decide_eq_true (h u hu)
  rw [encodeStr, PyStr.toText, if_pos hall]
  exact ⟨_, rfl⟩

/-- `f"{label}:{group_id}:{epoch}".encode()`. The text of the error goes on. -/
def groupAad (label : String) (groupId : PyStr) (epoch : ℤ) : Except Exn Bytes := do
  check ((Nat.toDigits 10 epoch.natAbs).length ≤ Json.maxIntDigits)
    "Exceeds the limit (4300 digits) for integer string conversion"
  encodeStr (.ofString label ++ .ofString ":" ++ groupId ++ .ofString ":" ++
    (Json.dumpsInt epoch).map Char.toNat)

/-- There are associated data for a group whose name can be encoded. -/
theorem exists_groupAad (label : String) {groupId : PyStr} (hgroup : ∀ u ∈ groupId, Json.IsScalar u)
    {epoch : ℤ} (hdigits : (Nat.toDigits 10 epoch.natAbs).length ≤ Json.maxIntDigits) :
    ∃ aad, groupAad label groupId epoch = .ok aad := by
  refine (encodeStr_of_isScalar fun u hu => ?_).imp fun aad haad =>
    bind_eq_ok.2 ⟨(), check_eq_ok.2 (decide_eq_true hdigits), haad⟩
  -- What is not of the group is text of the program.
  simp only [PyStr.ofString, List.mem_append] at hu
  rcases hu with (((hu | hu) | hu) | hu) | hu
  · exact isScalar_of_mem_map hu
  · exact isScalar_of_mem_map hu
  · exact hgroup u hu
  · exact isScalar_of_mem_map hu
  · exact isScalar_of_mem_map hu

/-- Whether there are associated data does not depend on the label. -/
theorem groupAad_eq_ok {label : String} {groupId : String} {epoch : ℤ} :
    (∃ aad, groupAad label (.ofString groupId) epoch = .ok aad) ↔
      (Nat.toDigits 10 epoch.natAbs).length ≤ Json.maxIntDigits := by
  constructor
  · rintro ⟨aad, h⟩
    obtain ⟨⟨⟩, hdigits, -⟩ := bind_eq_ok.1 h
    exact of_decide_eq_true (check_eq_ok.1 hdigits)
  · exact exists_groupAad label fun _ hu => isScalar_of_mem_map hu

/-- `ChaCha20Poly1305(key)`. -/
def chaCha20Poly1305 (C : Crypto) (key : Bytes) : Except Exn Aead := do
  check (key.length = 32) "ChaCha20Poly1305 key must be 32 bytes."
  return C.aead.chaCha20Poly1305

/-- A group as a request names it: a key of `_group_states`. One that is no string is taken for a
    group that is not there; what is asked with any value is answered by `CryptoAgent.respondOf`. -/
def groupIdOf : Json F → Except Exn PyStr
  | .str groupId => .ok groupId
  | .arr _ => .error (.typeError "unhashable type: 'list'")
  | .obj _ => .error (.typeError "unhashable type: 'dict'")
  | _ => .error (.valueError "group is not initialized on this device")

variable [PyFloat F] [PyFloatInt F]

/-- The common part of `group_encrypt` and `file_encrypt`: the epoch, and the ciphertext. -/
def CryptoAgent.sealForGroup (a : CryptoAgent C F) (label : String) (nonce : Bytes)
    (groupId : PyStr) (plaintext : Bytes) : Except Exn (ℤ × Bytes) := do
  let (key, epoch) ← a.groupKey groupId
  let aad ← groupAad label groupId epoch
  let aead ← chaCha20Poly1305 C key
  return (epoch, aead.encrypt key nonce plaintext aad)

theorem CryptoAgent.sealForGroup_eq_ok {a : CryptoAgent C F} {label : String}
    {nonce plaintext ciphertext : Bytes} {groupId : PyStr} {epoch : ℤ} :
    a.sealForGroup label nonce groupId plaintext = .ok (epoch, ciphertext) ↔
      ∃ key aad, a.groupKey groupId = .ok (key, epoch) ∧ groupAad label groupId epoch = .ok aad ∧
        key.length = 32 ∧
        ciphertext = C.aead.chaCha20Poly1305.encrypt key nonce plaintext aad := by
  constructor
  · intro h
    obtain ⟨⟨key, epoch'⟩, hkey, h⟩ := bind_eq_ok.1 h
    obtain ⟨aad, haad, h⟩ := bind_eq_ok.1 h
    obtain ⟨aead, haead, h⟩ := bind_eq_ok.1 h
    obtain ⟨rfl, rfl⟩ := Prod.mk.inj (Except.ok.inj h)
    obtain ⟨⟨⟩, hlength, h⟩ := bind_eq_ok.1 haead
    obtain rfl := Except.ok.inj h
    exact ⟨key, aad, hkey, haad, of_decide_eq_true (check_eq_ok.1 hlength), rfl⟩
  · rintro ⟨key, aad, hkey, haad, hlength, rfl⟩
    refine bind_eq_ok.2 ⟨(key, epoch), hkey, bind_eq_ok.2 ⟨aad, haad, bind_eq_ok.2 ⟨_, ?_, rfl⟩⟩⟩
    exact bind_eq_ok.2 ⟨(), check_eq_ok.2 (decide_eq_true hlength), rfl⟩

/-- What is sealed is of the epoch of the group, and has a tag. -/
theorem CryptoAgent.spec_sealForGroup (hC : C.Correct) {a : CryptoAgent C F} {label : String}
    {nonce plaintext ciphertext key : Bytes} {groupId : PyStr} {epoch epoch' : ℤ}
    (hkey : a.groupKey groupId = .ok (key, epoch))
    (h : a.sealForGroup label nonce groupId plaintext = .ok (epoch', ciphertext)) :
    epoch' = epoch ∧ ciphertext.length = plaintext.length + 16 := by
  obtain ⟨key', aad, hkey', -, -, rfl⟩ := sealForGroup_eq_ok.1 h
  obtain ⟨rfl, rfl⟩ := Prod.mk.inj (Except.ok.inj (hkey'.symm.trans hkey))
  exact ⟨rfl, hC.chaCha20Poly1305.length_encrypt _ _ _ _⟩

/-- Where one text is sealed, any other is, under any label. -/
theorem CryptoAgent.exists_sealForGroup (hC : C.Correct) {a : CryptoAgent C F} {label : String}
    {nonce plaintext ciphertext : Bytes} {groupId : String} {epoch : ℤ}
    (h : a.sealForGroup label nonce (.ofString groupId) plaintext = .ok (epoch, ciphertext))
    (label' : String) (nonce' plaintext' : Bytes) :
    ∃ ciphertext', ciphertext'.length = plaintext'.length + 16 ∧
      a.sealForGroup label' nonce' (.ofString groupId) plaintext' = .ok (epoch, ciphertext') := by
  obtain ⟨key, aad, hkey, haad, hlength, -⟩ := sealForGroup_eq_ok.1 h
  obtain ⟨aad', haad'⟩ : ∃ aad', groupAad label' (.ofString groupId) epoch = .ok aad' :=
    groupAad_eq_ok.2 (groupAad_eq_ok.1 ⟨aad, haad⟩)
  exact ⟨_, hC.chaCha20Poly1305.length_encrypt _ _ _ _,
    sealForGroup_eq_ok.2 ⟨key, aad', hkey, haad', hlength, rfl⟩⟩

/-- The common part of `group_decrypt` and `file_decrypt`. The text of an error goes on with
    the group and the epoch. -/
def CryptoAgent.openForGroup (a : CryptoAgent C F) (label unavailable : String)
    (envelope : Dict F) : Except Exn Bytes := do
  let groupId ← groupIdOf (envelope.getD "group_id" (.ofString "general"))
  let epoch ← pyInt (← envelope.getItem "epoch")
  match a.groupStates groupId with
  | none => .error (.valueError unavailable)
  | some state =>
    check (!state.isEmpty) unavailable
    check ((← pyInt (← state.getItem "epoch")) = epoch) unavailable
    let key ← agentUnb64 (← state.getItem "key")
    let aad ← groupAad label groupId epoch
    let aead ← chaCha20Poly1305 C key
    let nonce ← agentUnb64 (← envelope.getItem "nonce")
    let ciphertext ← agentUnb64 (← envelope.getItem "ciphertext")
    aead.decrypt key nonce ciphertext aad

/-- `group_encrypt`. -/
def CryptoAgent.groupEncrypt (a : CryptoAgent C F) (draws : AgentDraws C) (plaintext : Bytes)
    (messageId : Json F) (groupId : PyStr) : Except Exn (Dict F) := do
  let (epoch, ciphertext) ← a.sealForGroup "vpn1 group v1" draws.nonce groupId plaintext
  return Dict.ofList [("kind", .ofString "group"), ("group_id", .str groupId),
    ("message_id", messageId), ("epoch", .int epoch), ("nonce", b64 draws.nonce),
    ("ciphertext", b64 ciphertext)]

/-- `group_decrypt`. -/
def CryptoAgent.groupDecrypt (a : CryptoAgent C F) (envelope : Json F) : Except Exn Bytes := do
  let envelope ← envelope.asDict
  check ((envelope.get "kind").isStr "group" || (envelope.get "kind").isStr "general")
    "not a group envelope"
  a.openForGroup "vpn1 group v1" "group epoch is unavailable" envelope

/-- `file_encrypt`. -/
def CryptoAgent.fileEncrypt (a : CryptoAgent C F) (draws : AgentDraws C) (plaintext : Bytes)
    (groupId : PyStr) : Except Exn (Dict F) := do
  let (epoch, ciphertext) ← a.sealForGroup "vpn1 file v1" draws.nonce groupId plaintext
  return Dict.ofList [("alg", .ofString "chacha20poly1305-group-file-v1"),
    ("group_id", .str groupId), ("epoch", .int epoch), ("nonce", b64 draws.nonce),
    ("ciphertext", b64 ciphertext)]

/-- `file_decrypt`. -/
def CryptoAgent.fileDecrypt (a : CryptoAgent C F) (envelope : Json F) : Except Exn Bytes := do
  let envelope ← envelope.asDict
  check ((envelope.get "alg").isStr "chacha20poly1305-group-file-v1")
    "unsupported file envelope algorithm"
  a.openForGroup "vpn1 file v1" "group epoch is unavailable for file decrypt" envelope

/-- What is sealed for a group is opened by a device with the same key of the group, from any
    envelope that has the epoch, the nonce and the ciphertext. -/
theorem CryptoAgent.openForGroup_of_groupKey (hC : C.Correct) {a b : CryptoAgent C F}
    {label : String} {nonce plaintext ciphertext : Bytes} {groupId : PyStr} {epoch : ℤ}
    (hkeys : b.groupKey groupId = a.groupKey groupId)
    (hseal : a.sealForGroup label nonce groupId plaintext = .ok (epoch, ciphertext))
    (unavailable : String) {envelope : Dict F}
    (hgroup : envelope.getD "group_id" (.ofString "general") = .str groupId)
    (hepoch : envelope.getItem "epoch" = .ok (.int epoch))
    (hnonce : envelope.getItem "nonce" = .ok (b64 nonce))
    (hciphertext : envelope.getItem "ciphertext" = .ok (b64 ciphertext)) :
    b.openForGroup label unavailable envelope = .ok plaintext := by
  obtain ⟨key, aad, hkey, haad, hlength, rfl⟩ := sealForGroup_eq_ok.1 hseal
  obtain ⟨state, hstate, hempty, -, hstateKey, hstateEpoch⟩ :=
    groupKey_eq_ok.1 (hkeys.trans hkey)
  obtain ⟨v, hv, hstateKey⟩ := bind_eq_ok.1 hstateKey
  obtain ⟨w, hw, hstateEpoch⟩ := bind_eq_ok.1 hstateEpoch
  have haead : chaCha20Poly1305 C key = .ok C.aead.chaCha20Poly1305 :=
    bind_eq_ok.2 ⟨(), check_eq_ok.2 (decide_eq_true hlength), rfl⟩
  rw [openForGroup, hgroup, hepoch]
  refine bind_eq_ok.2 ⟨groupId, rfl, bind_eq_ok.2 ⟨_, rfl, bind_eq_ok.2 ⟨epoch, rfl, ?_⟩⟩⟩
  simp only [hstate]
  refine bind_eq_ok.2 ⟨(), check_eq_ok.2 (by rw [hempty]; rfl), ?_⟩
  refine bind_eq_ok.2 ⟨_, hw, bind_eq_ok.2 ⟨_, hstateEpoch, ?_⟩⟩
  refine bind_eq_ok.2 ⟨(), check_eq_ok.2 (decide_eq_true rfl), ?_⟩
  refine bind_eq_ok.2 ⟨_, hv, bind_eq_ok.2 ⟨_, hstateKey, bind_eq_ok.2 ⟨aad, haad, ?_⟩⟩⟩
  refine bind_eq_ok.2 ⟨_, haead, bind_eq_ok.2 ⟨_, hnonce, bind_eq_ok.2 ⟨_, agentUnb64_b64 _, ?_⟩⟩⟩
  refine bind_eq_ok.2 ⟨_, hciphertext, bind_eq_ok.2 ⟨_, agentUnb64_b64 _, ?_⟩⟩
  exact hC.chaCha20Poly1305.decrypt_encrypt _ _ _ _

/-- An envelope of another epoch than the one of the group is not opened. -/
theorem CryptoAgent.openForGroup_of_ne {b : CryptoAgent C F} {label : String} {groupId : PyStr}
    {key plaintext : Bytes} {epoch epoch' : ℤ} (hkey : b.groupKey groupId = .ok (key, epoch'))
    (hne : epoch' ≠ epoch) (unavailable : String) {envelope : Dict F}
    (hgroup : envelope.getD "group_id" (.ofString "general") = .str groupId)
    (hepoch : epochOf envelope = .ok epoch) :
    b.openForGroup label unavailable envelope ≠ .ok plaintext := by
  obtain ⟨state, hstate, -, -, -, hstateEpoch⟩ := groupKey_eq_ok.1 hkey
  obtain ⟨w, hw, hstateEpoch⟩ := bind_eq_ok.1 hstateEpoch
  obtain ⟨v, hv, hepoch⟩ := bind_eq_ok.1 hepoch
  intro h
  rw [openForGroup, hgroup, hv] at h
  obtain ⟨_, hid, h⟩ := bind_eq_ok.1 h
  obtain rfl := Except.ok.inj hid
  obtain ⟨_, hitem, h⟩ := bind_eq_ok.1 h
  obtain rfl := Except.ok.inj hitem
  obtain ⟨_, hint, h⟩ := bind_eq_ok.1 h
  obtain rfl := Except.ok.inj (hepoch.symm.trans hint)
  simp only [hstate] at h
  obtain ⟨_, -, h⟩ := bind_eq_ok.1 h
  obtain ⟨_, hw', h⟩ := bind_eq_ok.1 h
  obtain rfl := Except.ok.inj (hw.symm.trans hw')
  obtain ⟨n, hn, h⟩ := bind_eq_ok.1 h
  obtain rfl := Except.ok.inj (hstateEpoch.symm.trans hn)
  obtain ⟨_, heq, -⟩ := bind_eq_ok.1 h
  exact hne (of_decide_eq_true (check_eq_ok.1 heq))

/-! ## The requests -/

/-- The paths that the browser posts to. -/
inductive AgentRoute
  | directEncrypt
  | directDecrypt
  | groupEncrypt
  | groupDecrypt
  | fileEncrypt
  | fileDecrypt

/-- The bytes of a request of the browser. -/
def requestBytes (body : Dict F) : Bytes := encodeUtf8 (Json.script.write (.obj body))

/-- What `do_POST` answers once it has read the body. -/
def CryptoAgent.respond (a : CryptoAgent C F) (draws : AgentDraws C) (body : Dict F) :
    AgentRoute → Except Exn (List (String × Json F))
  | .directEncrypt => do
    let recipientPublic ← agentUnb64 (← body.getItem "recipient_public_key")
    let plaintext ← agentUnb64 (← body.getItem "plaintext")
    let envelope ← SecNet.directEncrypt draws recipientPublic plaintext
      (body.getD "message_id" (.str []))
    return [("envelope", .obj envelope)]
  | .directDecrypt => do
    return [("plaintext", b64 (← SecNet.directDecrypt a.identity (← body.getItem "envelope")))]
  | .groupEncrypt => do
    let plaintext ← agentUnb64 (← body.getItem "plaintext")
    let groupId ← groupIdOf (body.getD "group_id" (.ofString "general"))
    let envelope ← a.groupEncrypt draws plaintext (body.getD "message_id" (.str [])) groupId
    return [("envelope", .obj envelope)]
  | .groupDecrypt => do
    return [("plaintext", b64 (← a.groupDecrypt (← body.getItem "envelope")))]
  | .fileEncrypt => do
    let plaintext ← agentUnb64 (← body.getItem "plaintext")
    let groupId ← groupIdOf (body.getD "group_id" (.ofString "general"))
    return [("envelope", .obj (← a.fileEncrypt draws plaintext groupId))]
  | .fileDecrypt => do
    return [("plaintext", b64 (← a.fileDecrypt (← body.getItem "envelope")))]

/-- `do_POST`. -/
def CryptoAgent.post (a : CryptoAgent C F) (draws : AgentDraws C) (route : AgentRoute)
    (body : Dict F) : Except Exn (Dict F) := do
  check ((requestBytes body).length ≤ 64000000) "request too large"
  return Dict.ofList (← a.respond draws body route)

/-- A request that is served is not too large. -/
theorem CryptoAgent.post_eq_ok {a : CryptoAgent C F} {draws : AgentDraws C} {route : AgentRoute}
    {body answer : Dict F} : a.post draws route body = .ok answer ↔
      (requestBytes body).length ≤ 64000000 ∧
        ∃ items, a.respond draws body route = .ok items ∧ answer = Dict.ofList items := by
  constructor
  · intro h
    obtain ⟨⟨⟩, hsize, h⟩ := bind_eq_ok.1 h
    obtain ⟨items, hitems, h⟩ := bind_eq_ok.1 h
    exact ⟨of_decide_eq_true (check_eq_ok.1 hsize), items, hitems, (Except.ok.inj h).symm⟩
  · rintro ⟨hsize, items, hitems, rfl⟩
    exact bind_eq_ok.2 ⟨(), check_eq_ok.2 (decide_eq_true hsize),
      bind_eq_ok.2 ⟨items, hitems, rfl⟩⟩

/-! ## For concrete runs -/

/-- A device without groups. -/
def plainAgent (key : UInt8) : CryptoAgent plainCrypto (List Char) where
  identity := ⟨(key : UInt8), (key : UInt8)⟩
  groupStates _ := none
  otherStates := []
  files _ := none

/-- What an agent draws. -/
def plainDraws : AgentDraws plainCrypto where
  ephemeral := (3 : UInt8)
  nonce := List.replicate 12 7
  length_nonce := rfl

end SecNet
