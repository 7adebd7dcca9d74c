import SecNet.Chat.AgentApi

/-!
# Requests with any values

The functions of the agent for groups, for what `do_POST` finds in a body: the members, the tags and
the group are any JSON values there, of which the functions ask what they need.

* `createState_members`: for members, tags and a group that are named by strings, as by the browser,
  a state is created as by `createGroupState`;
* `installState_str`: and installed as by `installGroupState`;
* `respondOf_str`, `groupDecryptOf_str`, `fileDecryptOf_str`: messages and files of a group that is
  named by a string are encrypted and decrypted as by the functions for strings.
-/

namespace SecNet

variable {C : Crypto} {F : Type} [PyFloat F] [PyFloatInt F]

/-! ## Values as tags -/

namespace Json

mutual

/-- `v == w`. -/
def pyEq : Json F → Json F → Bool
  | .str s, .str t => s = t
  | .arr vs, .arr ws => pyEqElements vs ws
  | .obj ms, .obj ns => ms.length = ns.length && pyEqMembers ms ns
  | v, w => v.sameKey w

/-- The elements of two lists are equal. -/
def pyEqElements : List (Json F) → List (Json F) → Bool
  | [], [] => true
  | v :: vs, w :: ws => pyEq v w && pyEqElements vs ws
  | _, _ => false

/-- The members of a dictionary are among those of another one, in any order. -/
def pyEqMembers : List (PyStr × Json F) → List (PyStr × Json F) → Bool
  | [], _ => true
  | (k, v) :: ms, ns => (match ns.lookup k with | some w => pyEq v w | none => false) &&
      pyEqMembers ms ns

end

omit [PyFloat F] [PyFloatInt F] in
/-- A value is a key of a dictionary when it can be hashed. -/
def checkKey : Json F → Except Exn Unit
  | .arr _ => .error (.typeError "unhashable type: 'list'")
  | .obj _ => .error (.typeError "unhashable type: 'dict'")
  | _ => .ok ()

/-- A key of a dictionary in a JSON text. -/
def keyText : Json F → PyStr
  | .str s => s
  | .bool true => .ofString "true"
  | .bool false => .ofString "false"
  | .int n => (dumpsInt n).map Char.toNat
  | .float x => (PyFloat.text x).map Char.toNat
  | _ => .ofString "null"

omit [PyFloat F] [PyFloatInt F] in
/-- `values[v]`. -/
def listItem (values : List (Json F)) (v : Json F) : Except Exn (Json F) :=
  match v.asInt with
  | none => .error (.typeError s!"list indices must be integers or slices, not {v.typeName}")
  | some n =>
    -- A negative index counts from the end.
    let n := if n < 0 then n + values.length else n
    match if n < 0 then none else values[n.toNat]? with
    | some value => .ok value
    | none => .error (.indexError "list index out of range")

end Json

/-- `state["envelopes"][own_tag]`, where the state is of the right kind and has one. -/
def ownEnvelopeOf (state : Dict F) (ownTag : Json F) : Except Exn (Json F) := do
  let missing : Except Exn (Json F) :=
    .error (.valueError "group state does not contain this device")
  match ownTag with
  | .str ownTag => ownEnvelope state ownTag
  | v =>
    if !(state.get "kind").isStr "tree-group-state-v1" then missing
    else
      match state.getD "envelopes" (.obj []) with
      | .obj _ => v.checkKey >>= fun _ => missing
      | .arr values => if values.any v.pyEq then Json.listItem values v else missing
      | .str _ =>
        .error (.typeError s!"'in <string>' requires string as left operand, not {v.typeName}")
      | w => .error (.typeError s!"argument of type '{w.typeName}' is not iterable")

/-! ## The envelopes of the members -/

/-- The envelopes of a state that is made: those of tags that are strings, and the others. -/
structure Envelopes (F : Type) where
  named : Dict F
  others : List (Json F × Dict F)

namespace Envelopes

/-- `envelopes[tag] = envelope`. -/
def set (e : Envelopes F) (tag : Json F) (envelope : Dict F) : Except Exn (Envelopes F) :=
  match tag with
  | .str tag => .ok { e with named := Json.insert tag (.obj envelope) e.named }
  | tag => tag.checkKey >>= fun _ =>
      .ok { e with others := CryptoAgent.holdOther tag envelope e.others }

/-- `envelopes.get(tag)`. -/
def get (e : Envelopes F) (tag : Json F) : Except Exn (Option (Json F)) :=
  match tag with
  | .str tag => .ok (e.named.lookup tag)
  | tag => tag.checkKey >>= fun _ =>
      .ok ((e.others.find? fun m => m.1.sameKey tag).map fun m => .obj m.2)

/-- The envelopes in a JSON text, up to their order. -/
def json (e : Envelopes F) : Json F :=
  .obj (e.named ++ e.others.map fun m => (m.1.keyText, .obj m.2))

end Envelopes

/-- The envelopes of members, the first of which has the number `i`. -/
def sealAll (draws : GroupDraws C) (i : ℕ) (envelopes : Envelopes F) :
    List (Json F) → Except Exn (Envelopes F)
  | [] => .ok envelopes
  | member :: members => do
    let publicKey ← agentUnb64 (← member.getItem "encryption_public_key")
    check (publicKey.length = 32) "member encryption key must be 32 bytes"
    let envelope ← sealTo C (draws.ephemeral i) (draws.nonce i) publicKey draws.key groupEpochLabel
    sealAll draws (i + 1) (← envelopes.set (← member.getItem "device_tag") envelope) members

/-- `create_group_state`, up to the installation: the state, and the envelope of the device. -/
def makeState (draws : GroupDraws C) (members : Json F) (epoch : ℤ) (ownTag groupId : Json F) :
    Except Exn (Dict F × Json F) := do
  check members.truth "group requires at least one member"
  let members ← pyList members
  let tags ← members.mapM fun member => member.getItem "device_tag"
  let envelopes ← sealAll draws 0 ⟨[], []⟩ members
  match ← envelopes.get ownTag with
  | none => .error (.valueError "own device must be a group member")
  | some envelope =>
    return (Dict.ofList [("kind", .ofString "tree-group-state-v1"), ("group_id", groupId),
      ("epoch", .int epoch), ("members", .arr tags), ("envelopes", envelopes.json)], envelope)

namespace CryptoAgent

/-- `create_group_state`. -/
def createState (a : CryptoAgent C F) (draws : GroupDraws C) (members : Json F) (epoch : ℤ)
    (ownTag groupId : Json F) (write : Except Exn Unit) :
    CryptoAgent C F × Except Exn (Dict F) :=
  match makeState draws members epoch ownTag groupId with
  | .error e => (a, .error e)
  | .ok (state, envelope) =>
    match a.installAccepted groupId (a.acceptOpened groupId (a.openEnvelope state envelope))
      write with
    | (a, .ok ()) => (a, .ok state)
    | (a, .error e) => (a, .error e)

/-- `install_group_state`. -/
def installState (a : CryptoAgent C F) (state : Dict F) (ownTag : Json F)
    (write : Except Exn Unit) : CryptoAgent C F × Except Exn Unit :=
  a.installAccepted (stateGroupId state) (a.acceptOpened (stateGroupId state)
    (ownEnvelopeOf state ownTag >>= a.openEnvelope state)) write

/-! ## Messages and files -/

/-- `_group_key`. -/
def groupKeyOf (a : CryptoAgent C F) (groupId : Json F) : Except Exn (Bytes × ℤ) := do
  match ← a.installed groupId with
  | some state =>
    if state.isEmpty || !(state.get "key").truth then
      .error (.valueError "group is not initialized on this device")
    else return (← agentUnb64 (← state.getItem "key"), ← pyInt (← state.getItem "epoch"))
  | none => .error (.valueError "group is not initialized on this device")

variable [PyRepr F]

/-- The common part of `group_encrypt` and `file_encrypt`. -/
def sealOf (a : CryptoAgent C F) (label : String) (nonce : Bytes) (groupId : Json F)
    (plaintext : Bytes) : Except Exn (ℤ × Bytes) := do
  let (key, epoch) ← a.groupKeyOf groupId
  let aad ← groupAad label (pyStr groupId) epoch
  let aead ← chaCha20Poly1305 C key
  return (epoch, aead.encrypt key nonce plaintext aad)

/-- The common part of `group_decrypt` and `file_decrypt`. -/
def openOf (a : CryptoAgent C F) (label unavailable : String) (envelope : Dict F) :
    Except Exn Bytes := do
  let groupId := envelope.getD "group_id" (.ofString "general")
  let epoch ← pyInt (← envelope.getItem "epoch")
  match ← a.installed groupId with
  | none => .error (.valueError unavailable)
  | some state =>
    check (!state.isEmpty) unavailable
    check ((← pyInt (← state.getItem "epoch")) = epoch) unavailable
    let key ← agentUnb64 (← state.getItem "key")
    let aad ← groupAad label (pyStr groupId) epoch
    let aead ← chaCha20Poly1305 C key
    let nonce ← agentUnb64 (← envelope.getItem "nonce")
    let ciphertext ← agentUnb64 (← envelope.getItem "ciphertext")
    aead.decrypt key nonce ciphertext aad

/-- `group_encrypt`. -/
def groupEncryptOf (a : CryptoAgent C F) (draws : AgentDraws C) (plaintext : Bytes)
    (messageId groupId : Json F) : Except Exn (Dict F) := do
  let (epoch, ciphertext) ← a.sealOf "vpn1 group v1" draws.nonce groupId plaintext
  return Dict.ofList [("kind", .ofString "group"), ("group_id", groupId),
    ("message_id", messageId), ("epoch", .int epoch), ("nonce", b64 draws.nonce),
    ("ciphertext", b64 ciphertext)]

/-- `group_decrypt`. -/
def groupDecryptOf (a : CryptoAgent C F) (envelope : Json F) : Except Exn Bytes := do
  let envelope ← envelope.asDict
  check ((envelope.get "kind").isStr "group" || (envelope.get "kind").isStr "general")
    "not a group envelope"
  a.openOf "vpn1 group v1" "group epoch is unavailable" envelope

/-- `general_decrypt`. -/
def generalDecrypt (a : CryptoAgent C F) (envelope : Json F) : Except Exn Bytes := do
  let patched ← envelope.asDict
  if (patched.get "kind").isStr "general" then
    a.groupDecryptOf (.obj (Json.insert (.ofString "group_id") (.ofString "general")
      (Json.insert (.ofString "kind") (.ofString "group") patched)))
  else a.groupDecryptOf envelope

/-- `file_encrypt`. -/
def fileEncryptOf (a : CryptoAgent C F) (draws : AgentDraws C) (plaintext : Bytes)
    (groupId : Json F) : Except Exn (Dict F) := do
  let (epoch, ciphertext) ← a.sealOf "vpn1 file v1" draws.nonce groupId plaintext
  return Dict.ofList [("alg", .ofString "chacha20poly1305-group-file-v1"),
    ("group_id", groupId), ("epoch", .int epoch), ("nonce", b64 draws.nonce),
    ("ciphertext", b64 ciphertext)]

/-- `file_decrypt`. -/
def fileDecryptOf (a : CryptoAgent C F) (envelope : Json F) : Except Exn Bytes := do
  let envelope ← envelope.asDict
  check ((envelope.get "alg").isStr "chacha20poly1305-group-file-v1")
    "unsupported file envelope algorithm"
  a.openOf "vpn1 file v1" "group epoch is unavailable for file decrypt" envelope

/-- What `do_POST` answers once it has read the body, on the paths of the browser. -/
def respondOf (a : CryptoAgent C F) (draws : AgentDraws C) (body : Dict F) :
    AgentRoute → Except Exn (List (String × Json F))
  | .groupEncrypt => do
    let plaintext ← agentUnb64 (← body.getItem "plaintext")
    let envelope ← a.groupEncryptOf draws plaintext (body.getD "message_id" (.str []))
      (body.getD "group_id" (.ofString "general"))
    return [("envelope", .obj envelope)]
  | .groupDecrypt => do
    return [("plaintext", b64 (← a.groupDecryptOf (← body.getItem "envelope")))]
  | .fileEncrypt => do
    let plaintext ← agentUnb64 (← body.getItem "plaintext")
    return [("envelope", .obj (← a.fileEncryptOf draws plaintext
      (body.getD "group_id" (.ofString "general"))))]
  | .fileDecrypt => do
    return [("plaintext", b64 (← a.fileDecryptOf (← body.getItem "envelope")))]
  | route => a.respond draws body route

end CryptoAgent

/-! ## Members that are named by strings -/

/-- A member in a body. -/
def Member.json (m : Member) : Json F := .obj (Dict.ofList [("device_tag", .str m.deviceTag),
  ("encryption_public_key", .str m.encryptionPublicKey)])

omit [PyFloat F] [PyFloatInt F] in
theorem mapM_members (members : List Member) :
    ((members.map Member.json).mapM fun member : Json F => member.getItem "device_tag") =
      .ok (members.map fun m => .str m.deviceTag) := by
  induction members with
  | nil => rfl
  | cons m members ih =>
    have hitem : (m.json : Json F).getItem "device_tag" = .ok (.str m.deviceTag) :=
      Dict.getItem_ofList rfl
    rw [List.map_cons, List.mapM_cons, hitem, ih]
    rfl

omit [PyFloat F] in
/-- The envelopes of such members all have names. -/
theorem sealAll_members (draws : GroupDraws C) (i : ℕ) (envelopes : Dict F)
    (members : List Member) : sealAll draws i ⟨envelopes, []⟩ (members.map Member.json) =
      (sealMembers draws i envelopes members).map fun envelopes => ⟨envelopes, []⟩ := by
  induction members generalizing i envelopes with
  | nil => rfl
  | cons m members ih =>
    have hkey : (m.json : Json F).getItem "encryption_public_key" =
      .ok (.str m.encryptionPublicKey) := Dict.getItem_ofList rfl
    have htag : (m.json : Json F).getItem "device_tag" = .ok (.str m.deviceTag) :=
      Dict.getItem_ofList rfl
    rw [List.map_cons, sealAll, sealMembers, hkey, htag]
    rcases hpublic : agentUnb64 (F := F) (.str m.encryptionPublicKey) with e | publicKey
    · simp only [bind, Except.bind, hpublic, Except.map]
    rcases hlength : check (publicKey.length = 32) "member encryption key must be 32 bytes" with
      e | ⟨⟩
    · simp only [bind, Except.bind, hpublic, hlength, Except.map]
    rcases hseal : sealTo (F := F) C (draws.ephemeral i) (draws.nonce i) publicKey draws.key
      groupEpochLabel with e | envelope
    · simp only [bind, Except.bind, hpublic, hlength, hseal, Except.map]
    · simp only [bind, Except.bind, hpublic, hlength, hseal, Envelopes.set, ih]

/-- A state is made for members that are named by strings as `makeGroupState` makes it. -/
theorem makeState_members (draws : GroupDraws C) (members : List Member) (epoch : ℤ)
    (ownTag groupId : PyStr) :
    makeState (F := F) draws (.arr (members.map Member.json)) epoch (.str ownTag) (.str groupId) =
      (makeGroupState draws members epoch ownTag groupId).bind fun state =>
        (ownEnvelope state ownTag).map fun envelope => (state, envelope) := by
  have htruth : (Json.arr (members.map Member.json) : Json F).truth = !members.isEmpty := by
    rw [Json.truth, List.isEmpty_map]
  rw [makeState, makeGroupState, htruth]
  rcases hmembers : check (!members.isEmpty) "group requires at least one member" with e | ⟨⟩
  · rfl
  simp only [pyList, mapM_members, sealAll_members, bind, Except.bind]
  rcases sealMembers (F := F) draws 0 [] members with e | envelopes
  · rfl
  simp only [Except.map, Envelopes.get, Envelopes.json, List.map_nil, List.append_nil]
  rcases hlookup : envelopes.lookup ownTag with _ | envelope
  · rfl
  · have hown : check true "own device must be a group member" = .ok () := rfl
    simp only [Option.isSome_some, hown, pure, Except.pure, ownEnvelope_ofList, hlookup]

namespace CryptoAgent

/-- A state is created for members that are named by strings as by `createGroupState`. -/
theorem createState_members (a : CryptoAgent C F) (draws : GroupDraws C) (members : List Member)
    (epoch : ℤ) (ownTag groupId : PyStr) (write : Except Exn Unit) :
    a.createState draws (.arr (members.map Member.json)) epoch (.str ownTag) (.str groupId) write =
      a.createGroupState draws members epoch ownTag groupId write := by
  rw [createState, createGroupState, makeState_members]
  rcases hmake : makeGroupState draws members epoch ownTag groupId with e | state
  · rfl
  obtain ⟨-, envelopes, -, hown, hstate⟩ := makeGroupState_eq_ok.1 hmake
  obtain ⟨envelope, henvelope⟩ := Option.isSome_iff_exists.1 hown
  have hlookup : ownEnvelope state ownTag = .ok envelope := by
    rw [hstate, ownEnvelope_ofList, henvelope]
  have hinstall : a.installGroupState state ownTag write = a.installAccepted (.str groupId)
      (a.acceptOpened (.str groupId) (a.openEnvelope state envelope)) write := by
    rw [installGroupState, acceptGroupState, openGroupState, hlookup, makeGroupState_groupId hmake]
    rfl
  rcases hresult : a.installAccepted (.str groupId) (a.acceptOpened (.str groupId)
    (a.openEnvelope state envelope)) write with ⟨b, e | ⟨⟩⟩
  all_goals simp only [Except.bind, hlookup, Except.map, hinstall, hresult]

omit [PyFloat F] in
/-- A state is installed for a tag that is a string as by `installGroupState`. -/
theorem installState_str (a : CryptoAgent C F) (state : Dict F) (ownTag : PyStr)
    (write : Except Exn Unit) :
    a.installState state (.str ownTag) write = a.installGroupState state ownTag write := rfl

/-! ## Groups that are named by strings -/

theorem groupKeyOf_str (a : CryptoAgent C F) (groupId : PyStr) :
    a.groupKeyOf (.str groupId) = a.groupKey groupId := by
  rcases hstate : a.groupStates groupId with _ | state
  all_goals simp only [groupKeyOf, groupKey, installed, hstate, bind, Except.bind]

variable [PyRepr F]

theorem sealOf_str (a : CryptoAgent C F) (label : String) (nonce : Bytes) (groupId : PyStr)
    (plaintext : Bytes) :
    a.sealOf label nonce (.str groupId) plaintext =
      a.sealForGroup label nonce groupId plaintext := by
  rw [sealOf, sealForGroup, groupKeyOf_str]
  rfl

omit [PyFloat F] in
/-- An envelope for a group that is named by a string is opened as by `openForGroup`. -/
theorem openOf_str (a : CryptoAgent C F) (label unavailable : String) {envelope : Dict F}
    {groupId : PyStr} (h : envelope.getD "group_id" (.ofString "general") = .str groupId) :
    a.openOf label unavailable envelope = a.openForGroup label unavailable envelope := by
  rcases hitem : envelope.getItem "epoch" with e | v
  · simp only [openOf, openForGroup, h, hitem, groupIdOf, bind, Except.bind]
  rcases hepoch : pyInt v with e | epoch
  · simp only [openOf, openForGroup, h, hitem, hepoch, groupIdOf, bind, Except.bind]
  rcases hstate : a.groupStates groupId with _ | state
  all_goals simp only [openOf, openForGroup, h, hitem, hepoch, hstate, groupIdOf, installed, pyStr,
    bind, Except.bind]

omit [PyFloat F] in
theorem groupDecryptOf_str (a : CryptoAgent C F) {envelope : Dict F} {groupId : PyStr}
    (h : envelope.getD "group_id" (.ofString "general") = .str groupId) :
    a.groupDecryptOf (.obj envelope) = a.groupDecrypt (.obj envelope) := by
  simp only [groupDecryptOf, groupDecrypt, Json.asDict, bind, Except.bind, openOf_str a _ _ h]

omit [PyFloat F] in
theorem fileDecryptOf_str (a : CryptoAgent C F) {envelope : Dict F} {groupId : PyStr}
    (h : envelope.getD "group_id" (.ofString "general") = .str groupId) :
    a.fileDecryptOf (.obj envelope) = a.fileDecrypt (.obj envelope) := by
  simp only [fileDecryptOf, fileDecrypt, Json.asDict, bind, Except.bind, openOf_str a _ _ h]

/-- A request for a group that is named by a string is answered as by `respond`. -/
theorem respondOf_str (a : CryptoAgent C F) (draws : AgentDraws C) {body : Dict F}
    {route : AgentRoute} {groupId : PyStr}
    (hroute : route = .groupEncrypt ∨ route = .fileEncrypt)
    (h : body.getD "group_id" (.ofString "general") = .str groupId) :
    a.respondOf draws body route = a.respond draws body route := by
  rcases hroute with rfl | rfl
  · rw [respondOf, respond, h]
    simp only [groupEncryptOf, groupEncrypt, sealOf_str]
    rfl
  · rw [respondOf, respond, h]
    simp only [fileEncryptOf, fileEncrypt, sealOf_str]
    rfl

end CryptoAgent

end SecNet
