import SecNet.Chat.JsonValue
import SecNet.Handshake.Handshake

/-!
# The crypto agent

`CryptoAgent` of `chat_agent.py`, which keeps the keys of a device away from the browser:
sealing to the direct key of a device (`_seal_to`, `_open_with_direct_key`), and the
states of the groups, which are created for a list of members and installed from what
another member has created.

* `openWithDirectKey_sealTo`: what is sealed to a device is opened by it;
* `makeGroupState_opens`: a state that is created can be opened by every member;
* `installGroupState_of_opens`, `installGroupState_of_lt`: it is installed where no later
  epoch is, and rejected where one is;
* `Holds.groupKey`: the key and the epoch that are used afterwards.
-/

namespace SecNet

variable {C : Crypto} {F : Type}

/-! ## Sealing to a device -/

variable (C) in
/-- `_derive`. -/
def agentDerive (shared label : Bytes) : Bytes := C.hkdf 32 none label shared

variable (C) in
/-- `_seal_to`, with the ephemeral key and the nonce that it draws. -/
def sealTo (ephemeral : C.X25519Private) (nonce recipientPublic plaintext label : Bytes) :
    Except Exn (Dict F) := do
  let ephemeralPublic := C.x25519Public ephemeral
  let shared ← C.x25519Exchange ephemeral recipientPublic
  let key := agentDerive C shared (label ++ ephemeralPublic ++ recipientPublic)
  let ciphertext := C.aead.chaCha20Poly1305.encrypt key nonce plaintext label
  .ok (.ofList [("alg", .ofString "x25519-chacha20poly1305-v1"),
    ("ephemeral_public", b64 ephemeralPublic), ("nonce", b64 nonce),
    ("ciphertext", b64 ciphertext)])

/-- `_open_with_direct_key`. -/
def openWithDirectKey (identity : DeviceIdentity C) (envelope : Json F) (label : Bytes) :
    Except Exn Bytes := do
  let ephemeralPublic ← agentUnb64 (← envelope.getItem "ephemeral_public")
  let ownPublic := identity.directPublicKeyBytes
  let shared ← C.x25519Exchange identity.directPrivateKey ephemeralPublic
  let key := agentDerive C shared (label ++ ephemeralPublic ++ ownPublic)
  let nonce ← agentUnb64 (← envelope.getItem "nonce")
  let ciphertext ← agentUnb64 (← envelope.getItem "ciphertext")
  C.aead.chaCha20Poly1305.decrypt key nonce ciphertext label

/-- What is sealed to a device is opened by it. -/
theorem openWithDirectKey_sealTo (hC : C.Correct) (identity : DeviceIdentity C)
    (ephemeral : C.X25519Private) (nonce plaintext label : Bytes) :
    ∃ envelope : Dict F,
      sealTo C ephemeral nonce identity.directPublicKeyBytes plaintext label = .ok envelope ∧
        openWithDirectKey identity (.obj envelope) label = .ok plaintext := by
  obtain ⟨shared, -, hseal, hopen⟩ := hC.x25519_agree ephemeral identity.directPrivateKey
  refine ⟨_, bind_eq_ok.2 ⟨shared, hseal, rfl⟩, ?_⟩
  rw [openWithDirectKey]
  simp only [Json.getItem, Dict.getItem, lookup_ofList]
  refine bind_eq_ok.2 ⟨_, rfl, bind_eq_ok.2 ⟨_, agentUnb64_b64 _, bind_eq_ok.2 ⟨shared, hopen, ?_⟩⟩⟩
  refine bind_eq_ok.2 ⟨_, rfl, bind_eq_ok.2 ⟨_, agentUnb64_b64 _, ?_⟩⟩
  refine bind_eq_ok.2 ⟨_, rfl, bind_eq_ok.2 ⟨_, agentUnb64_b64 _, ?_⟩⟩
  exact hC.chaCha20Poly1305.decrypt_encrypt _ _ _ _

/-! ## The agent -/

/-- The agent: its device, the states of the groups, and the files they are stored in, by
    the names of these files. -/
structure CryptoAgent (C : Crypto) (F : Type) where
  identity : DeviceIdentity C
  /-- `_group_states`, where the group is named by a string, as the browser does it. -/
  groupStates : PyStr → Option (Dict F)
  /-- `_group_states` under other keys, for which there is no file. -/
  otherStates : List (Json F × Dict F)
  files : Bytes → Option (Dict F)

/-- `text.replace("..", "_")`. -/
def replaceDots : PyStr → PyStr
  | u :: v :: text =>
    if u = 0x2e ∧ v = 0x2e then 0x5f :: replaceDots text else u :: replaceDots (v :: text)
  | text => text

/-- The part of the name of a file that stands for a group. -/
def safeGroupId (groupId : PyStr) : PyStr :=
  replaceDots (groupId.map fun u => if u = 0x2f then 0x5f else u)

/-- `os.fsencode(name)`, where it does not raise: a surrogate that stands for a byte becomes the
    byte. -/
def fsEncode (name : PyStr) : Bytes :=
  name.flatMap fun u =>
    if 0xDC80 ≤ u ∧ u < 0xDD00 then [UInt8.ofNat (u - 0xDC00)]
    else String.utf8EncodeChar (Char.ofNat u)

/-- `_state_path`: the name of a file is the bytes that the file system has for it. -/
def statePath (groupId : PyStr) : Bytes :=
  fsEncode (.ofString "group-" ++ safeGroupId groupId ++ .ofString ".json")

-- One file, whose name has the two bytes of é.
example : statePath [0xE9] = statePath [0xDCC3, 0xDCA9] := by decide

/-- `d.pop(key, None)`: what is left. -/
def Dict.pop (d : Dict F) (key : String) : Dict F := d.filter fun m => m.1 ≠ .ofString key

theorem Dict.lookup_pop (d : Dict F) {key key' : String} (h : key' ≠ key) :
    List.lookup (PyStr.ofString key') (d.pop key) = d.lookup (.ofString key') := by
  rw [Dict.pop]
  induction d with
  | nil => rfl
  | cons m d ih =>
    obtain ⟨k, v⟩ := m
    by_cases hk : k = .ofString key
    · have hne : PyStr.ofString key' ≠ k := fun heq => h (ofString_injective (heq.trans hk))
      rw [List.filter_cons_of_neg (by simpa using hk), ih, Json.lookup_cons, if_neg hne]
    · rw [List.filter_cons_of_pos (by simpa using hk), Json.lookup_cons, Json.lookup_cons, ih]

/-- The label of the keys of groups. -/
def groupEpochLabel : Bytes := ascii "vpn1 group epoch v1"

/-- A member of a group, as the browser names it. -/
structure Member where
  deviceTag : PyStr
  encryptionPublicKey : PyStr

/-- The text of a key. -/
def b64Str (data : Bytes) : PyStr := (b64encode data).map Char.toNat

/-- What is drawn for a new state: the key, and for each member what seals it. -/
structure GroupDraws (C : Crypto) where
  key : Bytes
  length_key : key.length = 32
  ephemeral : ℕ → C.X25519Private
  nonce : ℕ → Bytes

/-- The envelopes of the members, the first of which has the number `i`. -/
def sealMembers (draws : GroupDraws C) (i : ℕ) (envelopes : Dict F) :
    List Member → Except Exn (Dict F)
  | [] => .ok envelopes
  | member :: members => do
    let publicKey ← agentUnb64 (F := F) (.str member.encryptionPublicKey)
    check (publicKey.length = 32) "member encryption key must be 32 bytes"
    let envelope ← sealTo C (draws.ephemeral i) (draws.nonce i) publicKey draws.key groupEpochLabel
    -- A tag that is there twice keeps the last envelope.
    sealMembers draws (i + 1) (Json.insert member.deviceTag (.obj envelope) envelopes) members

/-- `create_group_state`, up to the installation. -/
def makeGroupState (draws : GroupDraws C) (members : List Member) (epoch : ℤ)
    (ownTag groupId : PyStr) : Except Exn (Dict F) := do
  check (!members.isEmpty) "group requires at least one member"
  let envelopes ← sealMembers (F := F) draws 0 [] members
  check (List.lookup ownTag envelopes).isSome "own device must be a group member"
  return .ofList [("kind", .ofString "tree-group-state-v1"), ("group_id", .str groupId),
    ("epoch", .int epoch), ("members", .arr (members.map fun member => .str member.deviceTag)),
    ("envelopes", .obj envelopes)]

/-- `state["envelopes"][own_tag]`, where the state is of the right kind and has one. -/
def ownEnvelope (state : Dict F) (ownTag : PyStr) : Except Exn (Json F) := do
  let missing : Except Exn (Json F) :=
    .error (.valueError "group state does not contain this device")
  if !(state.get "kind").isStr "tree-group-state-v1" then missing
  else
    match state.getD "envelopes" (.obj []) with
    | .obj envelopes =>
      match envelopes.lookup ownTag with
      | some envelope => .ok envelope
      | none => missing
    -- `own_tag in envelopes` is also asked of a list or of a string, which the
    -- subscript then rejects.
    | .arr values =>
      if values.any fun v => match v with | .str s => s = ownTag | _ => false then
        .error (.typeError "list indices must be integers or slices, not str")
      else missing
    | .str text =>
      if ownTag <:+: text then .error (.typeError "string indices must be integers, not 'str'")
      else missing
    | v => .error (.typeError s!"argument of type '{v.typeName}' is not iterable")

/-- What is stored of a state. -/
def storedState (groupKey : Bytes) (state : Dict F) : Dict F :=
  Dict.pop (Json.insert (.ofString "key") (b64 groupKey) state) "envelopes"

theorem lookup_storedState_key (groupKey : Bytes) (state : Dict F) :
    (storedState groupKey state).lookup (.ofString "key") = some (b64 groupKey) := by
  rw [storedState, Dict.lookup_pop _ (by decide), Json.lookup_insert, if_pos rfl]

/-- The other members are those of the state. -/
theorem lookup_storedState (groupKey : Bytes) (state : Dict F) {key : String}
    (hkey : key ≠ "key") (henvelopes : key ≠ "envelopes") :
    (storedState groupKey state).lookup (.ofString key) = state.lookup (.ofString key) := by
  rw [storedState, Dict.lookup_pop _ henvelopes, Json.lookup_insert,
    if_neg fun h => hkey (ofString_injective h)]

/-- The group of a state. -/
def stateGroupId (state : Dict F) : Json F := state.getD "group_id" (.ofString "general")

/-- `int(state["epoch"])`. -/
def epochOf [PyFloatInt F] (state : Dict F) : Except Exn ℤ := state.getItem "epoch" >>= pyInt

namespace CryptoAgent

/-- `_group_key`. The text of the error goes on with the group. -/
def groupKey [PyFloat F] [PyFloatInt F] (a : CryptoAgent C F) (groupId : PyStr) :
    Except Exn (Bytes × ℤ) :=
  match a.groupStates groupId with
  | some state =>
    if state.isEmpty || !(state.get "key").truth then
      .error (.valueError "group is not initialized on this device")
    else do return (← agentUnb64 (← state.getItem "key"), ← pyInt (← state.getItem "epoch"))
  | none => .error (.valueError "group is not initialized on this device")

/-- `_group_states.get(group_id)`. -/
def installed [PyFloatInt F] (a : CryptoAgent C F) : Json F → Except Exn (Option (Dict F))
  | .str groupId => .ok (a.groupStates groupId)
  | .arr _ => .error (.typeError "unhashable type: 'list'")
  | .obj _ => .error (.typeError "unhashable type: 'dict'")
  | v => .ok ((a.otherStates.find? fun m => m.1.sameKey v).map Prod.snd)

/-- The states under keys that are no strings, when one is set: in place of the one with an
    equal key, if any. -/
def holdOther [PyFloatInt F] (groupId : Json F) (stored : Dict F) :
    List (Json F × Dict F) → List (Json F × Dict F)
  | [] => [(groupId, stored)]
  | m :: ms =>
    if m.1.sameKey groupId then (m.1, stored) :: ms else m :: holdOther groupId stored ms

/-- `_group_states[group_id] = stored`. -/
def hold [PyFloatInt F] (a : CryptoAgent C F) (groupId : Json F) (stored : Dict F) :
    CryptoAgent C F :=
  match groupId with
  | .str groupId => { a with groupStates := Function.update a.groupStates groupId (some stored) }
  | v => { a with otherStates := holdOther v stored a.otherStates }

/-- `_save_group_state`, with the outcome of the writing, which raises for a name that cannot be
    encoded. A group that is not named by a string has no file. -/
def saveGroupState (a : CryptoAgent C F) (groupId : Json F) (state : Dict F)
    (write : Except Exn Unit) : CryptoAgent C F × Except Exn Unit :=
  match groupId, write with
  | .str groupId, .ok () =>
    ({ a with files := Function.update a.files (statePath groupId) (some state) }, .ok ())
  | .str _, .error e => (a, .error e)
  | v, _ => (a, .error (.attributeError s!"'{v.typeName}' object has no attribute 'replace'"))

/-- What is stored of a state, with the envelope of the device. -/
def openEnvelope (a : CryptoAgent C F) (state : Dict F) (envelope : Json F) :
    Except Exn (Dict F) := do
  let groupKey ← openWithDirectKey a.identity envelope groupEpochLabel
  check (groupKey.length = 32) "invalid group key"
  return storedState groupKey state

/-- `install_group_state`, up to what is stored. -/
def openGroupState (a : CryptoAgent C F) (state : Dict F) (ownTag : PyStr) :
    Except Exn (Dict F) := do
  let envelope ← ownEnvelope state ownTag
  a.openEnvelope state envelope

/-- The check that no later epoch is installed. -/
def checkEpoch [PyFloatInt F] (existing : Option (Dict F)) (stored : Dict F) :
    Except Exn Unit :=
  match existing with
  | some existing =>
    if existing.isEmpty then .ok ()
    else do
      let epoch ← pyInt (← stored.getItem "epoch")
      let existingEpoch ← pyInt (← existing.getItem "epoch")
      check (!decide (epoch < existingEpoch)) "stale group epoch"
  | none => .ok ()

/-- What has been opened is stored, unless it is too old. -/
def acceptOpened [PyFloatInt F] (a : CryptoAgent C F) (groupId : Json F)
    (opened : Except Exn (Dict F)) : Except Exn (Dict F) := do
  let stored ← opened
  checkEpoch (← a.installed groupId) stored
  return stored

/-- What `install_group_state` does before it installs: what is stored. -/
def acceptGroupState [PyFloatInt F] (a : CryptoAgent C F) (state : Dict F) (ownTag : PyStr) :
    Except Exn (Dict F) :=
  a.acceptOpened (stateGroupId state) (a.openGroupState state ownTag)

/-- The second half of `install_group_state`, with the outcome of the writing. -/
def installAccepted [PyFloatInt F] (a : CryptoAgent C F) (groupId : Json F)
    (accepted : Except Exn (Dict F)) (write : Except Exn Unit) :
    CryptoAgent C F × Except Exn Unit :=
  match accepted with
  | .error e => (a, .error e)
  -- The state stays installed when it cannot be written.
  | .ok stored => (a.hold groupId stored).saveGroupState groupId stored write

/-- `install_group_state`, with the outcome of the writing. -/
def installGroupState [PyFloatInt F] (a : CryptoAgent C F) (state : Dict F) (ownTag : PyStr)
    (write : Except Exn Unit) : CryptoAgent C F × Except Exn Unit :=
  a.installAccepted (stateGroupId state) (a.acceptGroupState state ownTag) write

/-- `create_group_state`, with what it draws, and the outcome of the writing. -/
def createGroupState [PyFloatInt F] (a : CryptoAgent C F) (draws : GroupDraws C)
    (members : List Member) (epoch : ℤ) (ownTag groupId : PyStr) (write : Except Exn Unit) :
    CryptoAgent C F × Except Exn (Dict F) :=
  match makeGroupState draws members epoch ownTag groupId with
  | .error e => (a, .error e)
  | .ok state =>
    match a.installGroupState state ownTag write with
    | (a, .ok ()) => (a, .ok state)
    | (a, .error e) => (a, .error e)

/-- The agent has a key for the group, of an epoch. -/
def Holds (a : CryptoAgent C F) (groupId : PyStr) (key : Bytes) (epoch : ℤ) : Prop :=
  ∃ stored, a.groupStates groupId = some stored ∧
    stored.lookup (.ofString "key") = some (b64 key) ∧
    stored.lookup (.ofString "epoch") = some (.int epoch)

end CryptoAgent

/-! ## States that can be opened -/

/-- A device that opens its envelope of a state gets the key. -/
structure Opens (identity : DeviceIdentity C) (ownTag groupId : PyStr) (state : Dict F)
    (key : Bytes) (epoch : ℤ) : Prop where
  kind : (state.get "kind").isStr "tree-group-state-v1" = true
  groupId : stateGroupId state = .str groupId
  epoch : state.lookup (.ofString "epoch") = some (.int epoch)
  envelope : ∃ envelope, ownEnvelope state ownTag = .ok envelope ∧
    openWithDirectKey identity envelope groupEpochLabel = .ok key
  length_key : key.length = 32

theorem Opens.lookup_epoch {identity : DeviceIdentity C} {ownTag groupId : PyStr} {state : Dict F}
    {key : Bytes} {epoch : ℤ} (h : Opens identity ownTag groupId state key epoch) :
    (storedState key state).lookup (.ofString "epoch") = some (.int epoch) := by
  rw [lookup_storedState _ _ (by decide) (by decide)]
  exact h.epoch

/-- The envelopes of other members are left as they are. -/
theorem lookup_sealMembers_of_notMem {draws : GroupDraws C} {i : ℕ} {envelopes envelopes' : Dict F}
    {members : List Member} (h : sealMembers draws i envelopes members = .ok envelopes')
    {t : PyStr} (ht : t ∉ members.map Member.deviceTag) :
    envelopes'.lookup t = envelopes.lookup t := by
  induction members generalizing i envelopes with
  | nil =>
    obtain rfl := Except.ok.inj h
    rfl
  | cons member members ih =>
    rw [List.map_cons, List.mem_cons, not_or] at ht
    obtain ⟨_, -, h⟩ := bind_eq_ok.1 h
    obtain ⟨_, -, h⟩ := bind_eq_ok.1 h
    obtain ⟨envelope, -, h⟩ := bind_eq_ok.1 h
    rw [ih h ht.2, Json.lookup_insert, if_neg ht.1]

/-- Every member has an envelope that its device opens. -/
theorem lookup_sealMembers (hC : C.Correct) {draws : GroupDraws C} {i : ℕ}
    {envelopes envelopes' : Dict F} {members : List Member}
    (h : sealMembers draws i envelopes members = .ok envelopes')
    (hnodup : (members.map Member.deviceTag).Nodup) {t : PyStr} {identity : DeviceIdentity C}
    {encryptionPublicKey : PyStr} (hmem : ⟨t, encryptionPublicKey⟩ ∈ members)
    (hkey : agentUnb64 (F := F) (.str encryptionPublicKey) = .ok identity.directPublicKeyBytes) :
    ∃ envelope, envelopes'.lookup t = some envelope ∧
      openWithDirectKey identity envelope groupEpochLabel = .ok draws.key := by
  induction members generalizing i envelopes with
  | nil => cases hmem
  | cons member members ih =>
    rw [List.map_cons, List.nodup_cons] at hnodup
    obtain ⟨publicKey, hpublic, h⟩ := bind_eq_ok.1 h
    obtain ⟨_, -, h⟩ := bind_eq_ok.1 h
    obtain ⟨envelope, hseal, hrest⟩ := bind_eq_ok.1 h
    rcases List.mem_cons.1 hmem with rfl | hmem
    · obtain rfl := Except.ok.inj (hpublic.symm.trans hkey)
      obtain ⟨envelope', hseal', hopen⟩ := openWithDirectKey_sealTo (F := F) hC identity
        (draws.ephemeral i) (draws.nonce i) draws.key groupEpochLabel
      obtain rfl := Except.ok.inj (hseal.symm.trans hseal')
      refine ⟨.obj envelope, ?_, hopen⟩
      rw [lookup_sealMembers_of_notMem hrest hnodup.1, Json.lookup_insert, if_pos rfl]
    · exact ih hrest hnodup.2 hmem

/-- The envelope of a device in a state that is created. -/
theorem ownEnvelope_ofList (groupId epoch members : Json F) (envelopes : Dict F) (ownTag : PyStr) :
    ownEnvelope (.ofList [("kind", .ofString "tree-group-state-v1"), ("group_id", groupId),
        ("epoch", epoch), ("members", members), ("envelopes", .obj envelopes)]) ownTag =
      match envelopes.lookup ownTag with
      | some envelope => .ok envelope
      | none => .error (.valueError "group state does not contain this device") := by
  rw [ownEnvelope, Dict.get_ofList rfl, Dict.getD_ofList rfl, isStr_ofString]
  rfl

/-- A state that is created, by its parts. -/
theorem makeGroupState_eq_ok {draws : GroupDraws C} {members : List Member} {epoch : ℤ}
    {ownTag groupId : PyStr} {state : Dict F} :
    makeGroupState draws members epoch ownTag groupId = .ok state ↔
      members ≠ [] ∧ ∃ envelopes, sealMembers draws 0 [] members = .ok envelopes ∧
        (List.lookup ownTag envelopes).isSome ∧
        state = .ofList [("kind", .ofString "tree-group-state-v1"), ("group_id", .str groupId),
          ("epoch", .int epoch), ("members", .arr (members.map fun m => .str m.deviceTag)),
          ("envelopes", .obj envelopes)] := by
  constructor
  · intro h
    obtain ⟨⟨⟩, hmembers, h⟩ := bind_eq_ok.1 h
    obtain ⟨envelopes, henvelopes, h⟩ := bind_eq_ok.1 h
    obtain ⟨⟨⟩, hown, h⟩ := bind_eq_ok.1 h
    have hne : members ≠ [] := by
      rintro rfl
      cases hmembers
    exact ⟨hne, envelopes, henvelopes, check_eq_ok.1 hown, (Except.ok.inj h).symm⟩
  · rintro ⟨hne, envelopes, henvelopes, hown, rfl⟩
    have hmembers : (!members.isEmpty) = true := by
      rw [Bool.not_eq_true', List.isEmpty_eq_false_iff]
      exact hne
    exact bind_eq_ok.2 ⟨(), check_eq_ok.2 hmembers, bind_eq_ok.2 ⟨envelopes, henvelopes,
      bind_eq_ok.2 ⟨(), check_eq_ok.2 hown, rfl⟩⟩⟩

theorem makeGroupState_groupId {draws : GroupDraws C} {members : List Member} {epoch : ℤ}
    {ownTag groupId : PyStr} {state : Dict F}
    (h : makeGroupState draws members epoch ownTag groupId = .ok state) :
    stateGroupId state = .str groupId := by
  obtain ⟨-, envelopes, -, -, rfl⟩ := makeGroupState_eq_ok.1 h
  exact Dict.getD_ofList rfl

/-- A state that is created can be opened by every member. -/
theorem makeGroupState_opens (hC : C.Correct) {draws : GroupDraws C} {members : List Member}
    {epoch : ℤ} {ownTag groupId : PyStr} {state : Dict F}
    (h : makeGroupState draws members epoch ownTag groupId = .ok state)
    (hnodup : (members.map Member.deviceTag).Nodup) {t : PyStr} {identity : DeviceIdentity C}
    {encryptionPublicKey : PyStr} (hmem : ⟨t, encryptionPublicKey⟩ ∈ members)
    (hkey : agentUnb64 (F := F) (.str encryptionPublicKey) = .ok identity.directPublicKeyBytes) :
    Opens identity t groupId state draws.key epoch := by
  have hgroupId := makeGroupState_groupId h
  obtain ⟨-, envelopes, henvelopes, -, hstate⟩ := makeGroupState_eq_ok.1 h
  obtain ⟨envelope, hlookup, hopen⟩ := lookup_sealMembers hC henvelopes hnodup hmem hkey
  have hkind : (state.get "kind").isStr "tree-group-state-v1" = true := by
    rw [hstate, Dict.get_ofList rfl]
    exact isStr_ofString _
  have hepoch : state.lookup (.ofString "epoch") = some (.int epoch) := by
    rw [hstate, lookup_ofList]
    rfl
  refine ⟨hkind, hgroupId, hepoch, ⟨envelope, ?_, hopen⟩, draws.length_key⟩
  rw [hstate, ownEnvelope_ofList, hlookup]

namespace CryptoAgent

variable {a : CryptoAgent C F} {ownTag groupId : PyStr} {state : Dict F} {key : Bytes} {epoch : ℤ}

/-- What is stored of a state that can be opened. -/
theorem openGroupState_of_opens (h : Opens a.identity ownTag groupId state key epoch) :
    a.openGroupState state ownTag = .ok (storedState key state) := by
  obtain ⟨envelope, hown, hopen⟩ := h.envelope
  exact bind_eq_ok.2 ⟨envelope, hown, bind_eq_ok.2 ⟨key, hopen,
    bind_eq_ok.2 ⟨(), if_pos (decide_eq_true h.length_key), rfl⟩⟩⟩

/-- A group whose key is used has a state, with that key and epoch. -/
theorem groupKey_eq_ok [PyFloat F] [PyFloatInt F] : a.groupKey groupId = .ok (key, epoch) ↔
      ∃ state, a.groupStates groupId = some state ∧ state.isEmpty = false ∧
        (state.get "key").truth = true ∧ (state.getItem "key" >>= agentUnb64) = .ok key ∧
        epochOf state = .ok epoch := by
  rw [groupKey]
  rcases a.groupStates groupId with _ | state
  · constructor
    · intro h
      cases h
    · rintro ⟨_, h, -⟩
      cases h
  dsimp only
  split_ifs with hempty
  · constructor
    · intro h
      cases h
    · rintro ⟨state', heq, hstate, htruth, -⟩
      obtain rfl := Option.some.inj heq
      rw [hstate, htruth] at hempty
      cases hempty
  rw [Bool.or_eq_true, not_or, Bool.not_eq_true, Bool.not_eq_true, Bool.not_eq_false'] at hempty
  constructor
  · intro h
    obtain ⟨v, hv, h⟩ := bind_eq_ok.1 h
    obtain ⟨key', hkey, h⟩ := bind_eq_ok.1 h
    obtain ⟨w, hw, h⟩ := bind_eq_ok.1 h
    obtain ⟨epoch', hepoch, h⟩ := bind_eq_ok.1 h
    obtain ⟨rfl, rfl⟩ := Prod.mk.inj (Except.ok.inj h)
    exact ⟨state, rfl, hempty.1, hempty.2, bind_eq_ok.2 ⟨v, hv, hkey⟩, bind_eq_ok.2 ⟨w, hw, hepoch⟩⟩
  · rintro ⟨state', heq, -, -, hkey, hepoch⟩
    obtain rfl := Option.some.inj heq
    obtain ⟨v, hv, hkey⟩ := bind_eq_ok.1 hkey
    obtain ⟨w, hw, hepoch⟩ := bind_eq_ok.1 hepoch
    exact bind_eq_ok.2 ⟨v, hv, bind_eq_ok.2 ⟨key, hkey, bind_eq_ok.2 ⟨w, hw,
      bind_eq_ok.2 ⟨epoch, hepoch, rfl⟩⟩⟩⟩

/-- The key of a group depends on its state only. -/
theorem groupKey_congr [PyFloat F] [PyFloatInt F] {b : CryptoAgent C F}
    (hstates : b.groupStates groupId = a.groupStates groupId) :
    b.groupKey groupId = a.groupKey groupId := by
  rw [groupKey, groupKey, hstates]

theorem truth_b64 [PyFloat F] {data : Bytes} (h : data ≠ []) :
    (b64 (F := F) data).truth = true := by
  rw [b64, Json.truth, decide_eq_true_eq]
  intro hnil
  have hdecode := b64decode_b64encode data
  rw [List.map_eq_nil_iff.1 hnil] at hdecode
  exact h (Option.some.inj hdecode).symm

/-- The key and the epoch that are used for a group, when its state has a key. -/
theorem groupKey_of_lookup [PyFloat F] [PyFloatInt F] {stored : Dict F}
    (hstored : a.groupStates groupId = some stored)
    (hkey : stored.lookup (.ofString "key") = some (b64 key)) (hlength : key.length = 32)
    (hepoch : epochOf stored = .ok epoch) : a.groupKey groupId = .ok (key, epoch) := by
  have hne : key ≠ [] := by
    rintro rfl
    cases hlength
  refine groupKey_eq_ok.2 ⟨stored, hstored, ?_, ?_, ?_, hepoch⟩
  · rcases stored with _ | ⟨m, stored⟩
    · cases hkey
    · rfl
  · rw [Dict.get, hkey]
    exact truth_b64 hne
  · rw [Dict.getItem, hkey]
    exact agentUnb64_b64 (F := F) key

/-- The key and the epoch that are used for a group. -/
theorem Holds.groupKey [PyFloat F] [PyFloatInt F] (h : a.Holds groupId key epoch)
    (hkey : key.length = 32) : a.groupKey groupId = .ok (key, epoch) := by
  obtain ⟨stored, hstored, hlookup, hepoch⟩ := h
  refine groupKey_of_lookup hstored hlookup hkey ?_
  rw [epochOf, Dict.getItem, hepoch]
  rfl

variable [PyFloatInt F]

/-- No state of a later epoch is held for the group. -/
def NotAhead (a : CryptoAgent C F) (groupId : PyStr) (epoch : ℤ) : Prop :=
  ∀ existing, a.groupStates groupId = some existing → existing.isEmpty = false →
    ∃ e, epochOf existing = .ok e ∧ e ≤ epoch

/-- The epoch of what is stored is checked against the one that is held. -/
theorem checkEpoch_eq_ok {stored : Dict F}
    (hepoch : stored.lookup (.ofString "epoch") = some (.int epoch)) :
    checkEpoch (a.groupStates groupId) stored = .ok () ↔ a.NotAhead groupId epoch := by
  have hitem : stored.getItem "epoch" = .ok (.int epoch) := by
    rw [Dict.getItem, hepoch]
  rw [NotAhead]
  rcases a.groupStates groupId with _ | existing
  · refine ⟨fun _ existing h => ?_, fun _ => rfl⟩
    cases h
  rw [checkEpoch]
  split_ifs with hempty
  · refine ⟨fun _ existing' heq hne => ?_, fun _ => rfl⟩
    obtain rfl := Option.some.inj heq
    exact absurd hempty (ne_true_of_eq_false hne)
  rw [Bool.not_eq_true] at hempty
  constructor
  · rintro h existing' heq -
    obtain rfl := Option.some.inj heq
    obtain ⟨_, hitem', h⟩ := bind_eq_ok.1 h
    obtain rfl := Except.ok.inj (hitem'.symm.trans hitem)
    obtain ⟨_, hint, h⟩ := bind_eq_ok.1 h
    obtain rfl : epoch = _ := Except.ok.inj hint
    obtain ⟨v, hv, h⟩ := bind_eq_ok.1 h
    obtain ⟨e, he, h⟩ := bind_eq_ok.1 h
    exact ⟨e, bind_eq_ok.2 ⟨v, hv, he⟩, by simpa using check_eq_ok.1 h⟩
  · intro h
    obtain ⟨e, he, hle⟩ := h existing rfl hempty
    obtain ⟨v, hv, he⟩ := bind_eq_ok.1 he
    exact bind_eq_ok.2 ⟨_, hitem, bind_eq_ok.2 ⟨epoch, rfl, bind_eq_ok.2 ⟨v, hv,
      bind_eq_ok.2 ⟨e, he, check_eq_ok.2 (by simpa using hle)⟩⟩⟩⟩

omit [PyFloatInt F] in
theorem Holds.isEmpty {existing : Dict F} (h : a.Holds groupId key epoch)
    (hexisting : a.groupStates groupId = some existing) : existing.isEmpty = false := by
  obtain ⟨stored, hstored, hkey, -⟩ := h
  obtain rfl := Option.some.inj (hexisting.symm.trans hstored)
  rcases existing with _ | ⟨m, existing⟩
  · cases hkey
  · rfl

/-- Of the key that is held, the epoch decides. -/
theorem Holds.notAhead_iff {epoch' : ℤ} (h : a.Holds groupId key epoch') :
    a.NotAhead groupId epoch ↔ epoch' ≤ epoch := by
  have hempty {existing : Dict F} (hexisting : a.groupStates groupId = some existing) :=
    h.isEmpty hexisting
  obtain ⟨stored, hstored, -, hepoch⟩ := h
  have hitem : epochOf stored = .ok epoch' := by
    rw [epochOf, Dict.getItem, hepoch]
    rfl
  constructor
  · intro h
    obtain ⟨e, he, hle⟩ := h stored hstored (hempty hstored)
    obtain rfl := Except.ok.inj (hitem.symm.trans he)
    exact hle
  · intro hle existing hexisting _
    obtain rfl := Option.some.inj (hexisting.symm.trans hstored)
    exact ⟨epoch', hitem, hle⟩

theorem notAhead_of_none (h : a.groupStates groupId = none) : a.NotAhead groupId epoch := by
  intro existing hexisting
  rw [h] at hexisting
  cases hexisting

/-- A state that can be opened is accepted when no later epoch is held. -/
theorem acceptGroupState_eq_ok (h : Opens a.identity ownTag groupId state key epoch)
    {stored : Dict F} : a.acceptGroupState state ownTag = .ok stored ↔
      stored = storedState key state ∧ a.NotAhead groupId epoch := by
  have haccept : a.acceptGroupState state ownTag =
      checkEpoch (a.groupStates groupId) (storedState key state) >>= fun _ =>
        .ok (storedState key state) := by
    rw [acceptGroupState, openGroupState_of_opens h, h.groupId]
    rfl
  rw [haccept, ← checkEpoch_eq_ok h.lookup_epoch]
  constructor
  · intro h'
    obtain ⟨⟨⟩, hcheck, h'⟩ := bind_eq_ok.1 h'
    exact ⟨(Except.ok.inj h').symm, hcheck⟩
  · rintro ⟨rfl, hcheck⟩
    exact bind_eq_ok.2 ⟨(), hcheck, rfl⟩

/-- An accepted state of a group that is named by a string is installed. -/
theorem installGroupState_of_accept {stored : Dict F}
    (haccept : a.acceptGroupState state ownTag = .ok stored)
    (hgroupId : stateGroupId state = .str groupId) :
    a.installGroupState state ownTag (.ok ()) =
      ({ a with
        groupStates := Function.update a.groupStates groupId (some stored)
        files := Function.update a.files (statePath groupId) (some stored) }, .ok ()) := by
  rw [installGroupState, haccept, hgroupId]
  rfl

/-- What is accepted is stored with a key. -/
theorem exists_of_acceptOpened {groupId : Json F} {envelope : Except Exn (Json F)} {stored : Dict F}
    (h : a.acceptOpened groupId (envelope >>= a.openEnvelope state) = .ok stored) :
    ∃ key : Bytes, key.length = 32 ∧ stored = storedState key state := by
  obtain ⟨stored', hopen, h⟩ := bind_eq_ok.1 h
  obtain ⟨_, -, h⟩ := bind_eq_ok.1 h
  obtain ⟨_, -, h⟩ := bind_eq_ok.1 h
  obtain rfl : stored' = stored := Except.ok.inj h
  obtain ⟨_, -, hopen⟩ := bind_eq_ok.1 hopen
  obtain ⟨key, -, hopen⟩ := bind_eq_ok.1 hopen
  obtain ⟨⟨⟩, hlength, hopen⟩ := bind_eq_ok.1 hopen
  exact ⟨key, of_decide_eq_true (check_eq_ok.1 hlength), (Except.ok.inj hopen).symm⟩

theorem exists_of_acceptGroupState {stored : Dict F}
    (h : a.acceptGroupState state ownTag = .ok stored) :
    ∃ key : Bytes, key.length = 32 ∧ stored = storedState key state :=
  exists_of_acceptOpened h

theorem installGroupState_of_reject {e : Exn} (h : a.acceptGroupState state ownTag = .error e)
    (write : Except Exn Unit) : a.installGroupState state ownTag write = (a, .error e) := by
  rw [installGroupState, h, installAccepted]

/-- An installation returns when the state is accepted, its group is named by a string, and
    the file is written. -/
theorem installGroupState_eq_ok {a' : CryptoAgent C F} {write : Except Exn Unit} :
    a.installGroupState state ownTag write = (a', .ok ()) ↔
      write = .ok () ∧ ∃ groupId stored, stateGroupId state = .str groupId ∧
        a.acceptGroupState state ownTag = .ok stored ∧
        a' = { a with
          groupStates := Function.update a.groupStates groupId (some stored)
          files := Function.update a.files (statePath groupId) (some stored) } := by
  constructor
  · intro h
    rcases haccept : a.acceptGroupState state ownTag with e | stored
    · rw [installGroupState_of_reject haccept] at h
      cases h
    · rw [installGroupState, haccept, installAccepted] at h
      rcases hgroupId : stateGroupId state with _ | _ | _ | _ | groupId | _ | _
      case str =>
        rw [hgroupId] at h
        rcases write with e | ⟨⟩
        · cases h
        · exact ⟨rfl, groupId, stored, rfl, rfl, (congrArg Prod.fst h).symm⟩
      -- Without a file name, an error is raised.
      all_goals
        rw [hgroupId] at h
        cases h
  · rintro ⟨rfl, groupId, stored, hgroupId, haccept, rfl⟩
    exact installGroupState_of_accept haccept hgroupId

/-- A state of an epoch that is not too old is installed. -/
theorem installGroupState_of_opens (h : Opens a.identity ownTag groupId state key epoch)
    (hepoch : a.NotAhead groupId epoch) :
    a.installGroupState state ownTag (.ok ()) =
      ({ a with
        groupStates := Function.update a.groupStates groupId (some (storedState key state))
        files := Function.update a.files (statePath groupId) (some (storedState key state)) },
        .ok ()) :=
  installGroupState_of_accept ((acceptGroupState_eq_ok h).2 ⟨rfl, hepoch⟩) h.groupId

omit [PyFloatInt F] in
/-- The state of a group that has been installed holds the key. -/
theorem holds_of_groupStates {identity : DeviceIdentity C}
    (h : Opens identity ownTag groupId state key epoch)
    (hstored : a.groupStates groupId = some (storedState key state)) :
    a.Holds groupId key epoch :=
  ⟨_, hstored, lookup_storedState_key _ _, h.lookup_epoch⟩

/-- A state of an older epoch than the one that is held is rejected. -/
theorem installGroupState_of_lt (h : Opens a.identity ownTag groupId state key epoch)
    {key' : Bytes} {epoch' : ℤ} (hholds : a.Holds groupId key' epoch') (hlt : epoch < epoch') :
    ∃ e, a.installGroupState state ownTag (.ok ()) = (a, .error e) := by
  rcases haccept : a.acceptGroupState state ownTag with e | stored
  · exact ⟨e, installGroupState_of_reject haccept _⟩
  · have hnot := ((acceptGroupState_eq_ok h).1 haccept).2
    exact absurd (hholds.notAhead_iff.1 hnot) (not_le.2 hlt)

/-- What is installed is held, and no later epoch was. -/
theorem holds_of_installGroupState (h : Opens a.identity ownTag groupId state key epoch)
    {a' : CryptoAgent C F} (hinstall : a.installGroupState state ownTag (.ok ()) = (a', .ok ())) :
    a'.Holds groupId key epoch ∧ a'.identity = a.identity ∧
      ∀ key' epoch', a.Holds groupId key' epoch' → epoch' ≤ epoch := by
  rcases haccept : a.acceptGroupState state ownTag with e | stored
  · rw [installGroupState_of_reject haccept] at hinstall
    cases hinstall
  · obtain ⟨rfl, hnot⟩ := (acceptGroupState_eq_ok h).1 haccept
    rw [installGroupState_of_accept haccept h.groupId] at hinstall
    obtain rfl := congrArg Prod.fst hinstall
    exact ⟨holds_of_groupStates h (Function.update_self ..), rfl, fun key' epoch' hholds =>
      hholds.notAhead_iff.1 hnot⟩

/-- Where the file can be written, an installation for a group that is named by a string
    leaves the agent when it raises. -/
theorem installGroupState_cases (hgroupId : stateGroupId state = .str groupId) :
    (∃ e, a.installGroupState state ownTag (.ok ()) = (a, .error e)) ∨
      ∃ a', a.installGroupState state ownTag (.ok ()) = (a', .ok ()) := by
  rcases haccept : a.acceptGroupState state ownTag with e | stored
  · exact .inl ⟨e, installGroupState_of_reject haccept _⟩
  · exact .inr ⟨_, installGroupState_of_accept haccept hgroupId⟩

/-- Where the file can be written, a creation raises and leaves the agent, or installs the
    state that it returns. -/
theorem createGroupState_cases (a : CryptoAgent C F) (draws : GroupDraws C)
    (members : List Member) (epoch : ℤ) (ownTag groupId : PyStr) :
    (∃ e, a.createGroupState draws members epoch ownTag groupId (.ok ()) = (a, .error e)) ∨
      ∃ state a', makeGroupState draws members epoch ownTag groupId = .ok state ∧
        a.installGroupState state ownTag (.ok ()) = (a', .ok ()) ∧
        a.createGroupState draws members epoch ownTag groupId (.ok ()) = (a', .ok state) := by
  rw [createGroupState]
  rcases hmake : makeGroupState draws members epoch ownTag groupId with e | state
  · exact .inl ⟨e, rfl⟩
  · have hcases : (∃ e, a.installGroupState state ownTag (.ok ()) = (a, .error e)) ∨
        ∃ a', a.installGroupState state ownTag (.ok ()) = (a', .ok ()) :=
      installGroupState_cases (makeGroupState_groupId hmake)
    rcases hcases with ⟨e, h⟩ | ⟨a', h⟩
    · exact .inl ⟨e, by simp only [h]⟩
    · exact .inr ⟨state, a', rfl, h, by simp only [h]⟩

end CryptoAgent

end SecNet
