import SecNet.Chat.AgentApi

/-!
# The members of a group

A member creates the state of a group for a list of members, which its agent installs, and
every member installs the state: with `group_encrypt` and `group_decrypt`, `file_encrypt` and
`file_decrypt` they then write to each other.

* `exists_createGroupState`: the state is created, and can be opened by every member;
* `groupDecrypt_groupEncrypt`, `fileDecrypt_fileEncrypt`: agents with the same key of a group
  read each other;
* `installGroupState_of_notMem`: a device that is no member gets an error;
* `group_works`: so all members have the key and read each other, where the name of the group
  can be encoded; `group_of_surrogate`: where it cannot, none can write.
-/

namespace SecNet

variable {C : Crypto} {F : Type} {draws : GroupDraws C} {members : List Member}

/-- The key of a member is the direct key of its device. -/
def OwnKey (F : Type) (agent : PyStr → CryptoAgent C F) (member : Member) : Prop :=
  agentUnb64 (F := F) (.str member.encryptionPublicKey) =
    .ok (agent member.deviceTag).identity.directPublicKeyBytes

/-! ## The state -/

/-- The key is sealed to every list of members with their own keys. -/
theorem exists_sealMembers (draws : GroupDraws C) (hC : C.Correct)
    {agent : PyStr → CryptoAgent C F} (i : ℕ) (envelopes : Dict F)
    (hkeys : ∀ member ∈ members, OwnKey F agent member) :
    ∃ envelopes', sealMembers draws i envelopes members = .ok envelopes' := by
  induction members generalizing i envelopes with
  | nil => exact ⟨envelopes, rfl⟩
  | cons member members ih =>
    have hkey := hkeys member List.mem_cons_self
    have hlength : (agent member.deviceTag).identity.directPublicKeyBytes.length = 32 :=
      hC.length_x25519Public _
    obtain ⟨envelope, hseal, -⟩ := openWithDirectKey_sealTo (F := F) hC
      (agent member.deviceTag).identity (draws.ephemeral i) (draws.nonce i) draws.key
      groupEpochLabel
    obtain ⟨envelopes', hrest⟩ := ih (i + 1)
      (Json.insert member.deviceTag (.obj envelope) envelopes)
      fun member hmember => hkeys member (List.mem_cons_of_mem _ hmember)
    exact ⟨envelopes', bind_eq_ok.2 ⟨_, hkey, bind_eq_ok.2 ⟨(),
      check_eq_ok.2 (decide_eq_true hlength), bind_eq_ok.2 ⟨envelope, hseal, hrest⟩⟩⟩⟩

/-- A member creates a state that every member can open. -/
theorem exists_makeGroupState (draws : GroupDraws C) (hC : C.Correct)
    {agent : PyStr → CryptoAgent C F}
    (hnodup : (members.map Member.deviceTag).Nodup)
    (hkeys : ∀ member ∈ members, OwnKey F agent member) {creator : PyStr}
    (hcreator : creator ∈ members.map Member.deviceTag) (epoch : ℤ) (groupId : PyStr) :
    ∃ state : Dict F, makeGroupState draws members epoch creator groupId = .ok state ∧
      ∀ t ∈ members.map Member.deviceTag,
        Opens (agent t).identity t groupId state draws.key epoch := by
  obtain ⟨envelopes, henvelopes⟩ := exists_sealMembers draws hC 0 [] hkeys
  have hown : (List.lookup creator envelopes).isSome := by
    obtain ⟨member, hmember, rfl⟩ := List.mem_map.1 hcreator
    obtain ⟨envelope, hlookup, -⟩ := lookup_sealMembers hC henvelopes hnodup hmember
      (hkeys member hmember)
    rw [hlookup, Option.isSome_some]
  have hne : members ≠ [] := by
    rintro rfl
    cases hcreator
  obtain ⟨state, hmake⟩ : ∃ state : Dict F,
      makeGroupState draws members epoch creator groupId = .ok state :=
    ⟨_, makeGroupState_eq_ok.2 ⟨hne, envelopes, henvelopes, hown, rfl⟩⟩
  refine ⟨state, hmake, fun t ht => ?_⟩
  obtain ⟨member, hmember, rfl⟩ := List.mem_map.1 ht
  exact makeGroupState_opens hC hmake hnodup hmember (hkeys member hmember)

section

variable [PyFloatInt F]

/-- The agent of the creator, when it has created and installed a state. -/
theorem exists_createGroupState (draws : GroupDraws C) (hC : C.Correct)
    {agent : PyStr → CryptoAgent C F}
    (hnodup : (members.map Member.deviceTag).Nodup)
    (hkeys : ∀ member ∈ members, OwnKey F agent member) {creator : PyStr}
    (hcreator : creator ∈ members.map Member.deviceTag) {epoch : ℤ} {groupId : PyStr}
    (hepoch : (agent creator).NotAhead groupId epoch) :
    ∃ (state : Dict F) (a : CryptoAgent C F),
      (agent creator).createGroupState draws members epoch creator groupId (.ok ()) =
        (a, .ok state) ∧
      a.identity = (agent creator).identity ∧ a.NotAhead groupId epoch ∧
      makeGroupState draws members epoch creator groupId = .ok state ∧
      ∀ t ∈ members.map Member.deviceTag,
        Opens (agent t).identity t groupId state draws.key epoch := by
  obtain ⟨state, hmake, hopens⟩ := exists_makeGroupState draws hC hnodup hkeys hcreator
    epoch groupId
  have hinstall := CryptoAgent.installGroupState_of_opens (hopens creator hcreator) hepoch
  refine ⟨state, ((agent creator).installGroupState state creator (.ok ())).1, ?_, ?_, ?_, hmake,
    hopens⟩
  · rw [CryptoAgent.createGroupState, hmake]
    simp only [hinstall]
  · rw [hinstall]
  · rw [hinstall]
    have hholds := CryptoAgent.holds_of_groupStates (a := { agent creator with
      groupStates := Function.update (agent creator).groupStates groupId
        (some (storedState draws.key state)) }) (hopens creator hcreator) (Function.update_self ..)
    exact CryptoAgent.Holds.notAhead_iff hholds |>.2 (le_refl epoch)

/-- A device that is no member gets an error, and keeps its state. -/
theorem installGroupState_of_notMem {epoch : ℤ} {creator groupId : PyStr} {state : Dict F}
    (hmake : makeGroupState draws members epoch creator groupId = .ok state) {t : PyStr}
    (ht : t ∉ members.map Member.deviceTag) (a : CryptoAgent C F) (write : Except Exn Unit) :
    ∃ e, a.installGroupState state t write = (a, .error e) := by
  obtain ⟨-, envelopes, henvelopes, -, rfl⟩ := makeGroupState_eq_ok.1 hmake
  refine ⟨.valueError "group state does not contain this device",
    CryptoAgent.installGroupState_of_reject ?_ write⟩
  have hlookup : envelopes.lookup t = none := lookup_sealMembers_of_notMem henvelopes ht
  rw [CryptoAgent.acceptGroupState, CryptoAgent.openGroupState, ownEnvelope_ofList, hlookup]
  rfl

end

/-! ## Messages and files -/

variable [PyFloat F] [PyFloatInt F] {a b : CryptoAgent C F} {groupId : PyStr}

/-- What is sealed for a group where it has a key and associated data. -/
theorem exists_seal {key : Bytes} {epoch : ℤ} (hkey : a.groupKey groupId = .ok (key, epoch))
    (hlength : key.length = 32) {label : String}
    (haad : ∃ aad, groupAad label groupId epoch = .ok aad) (nonce plaintext : Bytes) :
    ∃ ciphertext, a.sealForGroup label nonce groupId plaintext = .ok (epoch, ciphertext) := by
  obtain ⟨aad, haad⟩ := haad
  exact ⟨_, CryptoAgent.sealForGroup_eq_ok.2 ⟨key, aad, hkey, haad, hlength, rfl⟩⟩

/-- An envelope of what was sealed for a group. -/
structure Encloses (a : CryptoAgent C F) (label : String) (groupId : PyStr)
    (plaintext nonce : Bytes) (epoch : ℤ) (ciphertext : Bytes) (envelope : Dict F) : Prop where
  sealed : a.sealForGroup label nonce groupId plaintext = .ok (epoch, ciphertext)
  group : envelope.getD "group_id" (.ofString "general") = .str groupId
  epoch : envelope.getItem "epoch" = .ok (.int epoch)
  nonce : envelope.getItem "nonce" = .ok (b64 nonce)
  ciphertext : envelope.getItem "ciphertext" = .ok (b64 ciphertext)

/-- The envelope of a message, and how it is opened. -/
theorem spec_groupEncrypt {draws : AgentDraws C} {plaintext : Bytes} {messageId : Json F}
    {envelope : Dict F} (h : a.groupEncrypt draws plaintext messageId groupId = .ok envelope) :
    (∃ epoch ciphertext,
      Encloses a "vpn1 group v1" groupId plaintext draws.nonce epoch ciphertext envelope) ∧
      ∀ b : CryptoAgent C F, b.groupDecrypt (.obj envelope) =
        b.openForGroup "vpn1 group v1" "group epoch is unavailable" envelope := by
  obtain ⟨⟨epoch, ciphertext⟩, hseal, h⟩ := bind_eq_ok.1 h
  obtain rfl := Except.ok.inj h
  refine ⟨⟨epoch, ciphertext, hseal, Dict.getD_ofList rfl, Dict.getItem_ofList rfl,
    Dict.getItem_ofList rfl, Dict.getItem_ofList rfl⟩, fun b => ?_⟩
  have hkind : Dict.get (Dict.ofList [("kind", .ofString "group"), ("group_id", .str groupId),
      ("message_id", messageId), ("epoch", .int epoch), ("nonce", b64 draws.nonce),
      ("ciphertext", b64 ciphertext)]) "kind" = .ofString "group" := Dict.get_ofList rfl
  simp only [CryptoAgent.groupDecrypt, Json.asDict, bind, Except.bind, hkind, isStr_ofString,
    Bool.true_or, check, if_true]

/-- The envelope of a file, and how it is opened. -/
theorem spec_fileEncrypt {draws : AgentDraws C} {plaintext : Bytes} {envelope : Dict F}
    (h : a.fileEncrypt draws plaintext groupId = .ok envelope) :
    (∃ epoch ciphertext,
      Encloses a "vpn1 file v1" groupId plaintext draws.nonce epoch ciphertext envelope) ∧
      ∀ b : CryptoAgent C F, b.fileDecrypt (.obj envelope) =
        b.openForGroup "vpn1 file v1" "group epoch is unavailable for file decrypt" envelope := by
  obtain ⟨⟨epoch, ciphertext⟩, hseal, h⟩ := bind_eq_ok.1 h
  obtain rfl := Except.ok.inj h
  refine ⟨⟨epoch, ciphertext, hseal, Dict.getD_ofList rfl, Dict.getItem_ofList rfl,
    Dict.getItem_ofList rfl, Dict.getItem_ofList rfl⟩, fun b => ?_⟩
  have halg : Dict.get (F := F) (Dict.ofList [("alg", .ofString "chacha20poly1305-group-file-v1"),
      ("group_id", .str groupId), ("epoch", .int epoch), ("nonce", b64 draws.nonce),
      ("ciphertext", b64 ciphertext)]) "alg" = .ofString "chacha20poly1305-group-file-v1" :=
    Dict.get_ofList rfl
  simp only [CryptoAgent.fileDecrypt, Json.asDict, bind, Except.bind, halg, isStr_ofString, check,
    if_true]

/-- What is enclosed is opened by an agent with the same key of the group. -/
theorem Encloses.openForGroup (hC : C.Correct) {label : String} {plaintext nonce : Bytes}
    {epoch : ℤ} {ciphertext : Bytes} {envelope : Dict F}
    (h : Encloses a label groupId plaintext nonce epoch ciphertext envelope)
    (hkeys : b.groupKey groupId = a.groupKey groupId) (unavailable : String) :
    b.openForGroup label unavailable envelope = .ok plaintext :=
  CryptoAgent.openForGroup_of_groupKey hC hkeys h.sealed _ h.group h.epoch h.nonce h.ciphertext

/-- A message is opened by an agent with the same key of the group. -/
theorem groupDecrypt_groupEncrypt (hC : C.Correct)
    (hkeys : b.groupKey groupId = a.groupKey groupId) {draws : AgentDraws C}
    {plaintext : Bytes} {messageId : Json F} {envelope : Dict F}
    (hencrypt : a.groupEncrypt draws plaintext messageId groupId = .ok envelope) :
    b.groupDecrypt (.obj envelope) = .ok plaintext := by
  obtain ⟨⟨epoch, ciphertext, hencloses⟩, hdecrypt⟩ := spec_groupEncrypt hencrypt
  rw [hdecrypt]
  exact hencloses.openForGroup hC hkeys _

/-- A file is opened by an agent with the same key of the group. -/
theorem fileDecrypt_fileEncrypt (hC : C.Correct)
    (hkeys : b.groupKey groupId = a.groupKey groupId) {draws : AgentDraws C}
    {plaintext : Bytes} {envelope : Dict F}
    (hencrypt : a.fileEncrypt draws plaintext groupId = .ok envelope) :
    b.fileDecrypt (.obj envelope) = .ok plaintext := by
  obtain ⟨⟨epoch, ciphertext, hencloses⟩, hdecrypt⟩ := spec_fileEncrypt hencrypt
  rw [hdecrypt]
  exact hencloses.openForGroup hC hkeys _

/-- What the one writes for a group, the other reads. -/
structure CryptoAgent.ReadsFrom (b a : CryptoAgent C F) (groupId : PyStr) : Prop where
  message : ∀ (draws : AgentDraws C) (plaintext : Bytes) (messageId : Json F), ∃ envelope,
    a.groupEncrypt draws plaintext messageId groupId = .ok envelope ∧
      b.groupDecrypt (.obj envelope) = .ok plaintext
  file : ∀ (draws : AgentDraws C) (plaintext : Bytes), ∃ envelope,
    a.fileEncrypt draws plaintext groupId = .ok envelope ∧
      b.fileDecrypt (.obj envelope) = .ok plaintext

/-- Agents with one key of a group, whose name can be encoded, read each other. -/
theorem readsFrom_of_groupKey (hC : C.Correct) {key : Bytes} {epoch : ℤ}
    (hb : b.groupKey groupId = .ok (key, epoch)) (ha : a.groupKey groupId = .ok (key, epoch))
    (hlength : key.length = 32) (hgroup : ∀ u ∈ groupId, Json.IsScalar u)
    (hdigits : (Nat.toDigits 10 epoch.natAbs).length ≤ Json.maxIntDigits) :
    b.ReadsFrom a groupId where
  message draws plaintext messageId := by
    obtain ⟨ciphertext, hseal⟩ := exists_seal ha hlength
      (exists_groupAad "vpn1 group v1" hgroup hdigits) draws.nonce plaintext
    have hencrypt : a.groupEncrypt draws plaintext messageId groupId = .ok _ :=
      bind_eq_ok.2 ⟨_, hseal, rfl⟩
    exact ⟨_, hencrypt, groupDecrypt_groupEncrypt hC (hb.trans ha.symm) hencrypt⟩
  file draws plaintext := by
    obtain ⟨ciphertext, hseal⟩ := exists_seal ha hlength
      (exists_groupAad "vpn1 file v1" hgroup hdigits) draws.nonce plaintext
    have hencrypt : a.fileEncrypt draws plaintext groupId = .ok _ :=
      bind_eq_ok.2 ⟨_, hseal, rfl⟩
    exact ⟨_, hencrypt, fileDecrypt_fileEncrypt hC (hb.trans ha.symm) hencrypt⟩

/-! ## The group -/

/-- The agent of a device, when it has installed a state. -/
def joined (agent : PyStr → CryptoAgent C F) (state : Dict F) (t : PyStr) :
    CryptoAgent C F × Except Exn Unit :=
  (agent t).installGroupState state t (.ok ())

/-- The creator creates a state, and every member installs it: they all get the same key, and
    read each other; the others get an error. -/
def GroupWorks (agent : PyStr → CryptoAgent C F) (draws : GroupDraws C) (members : List Member)
    (epoch : ℤ) (creator groupId : PyStr) : Prop :=
  ∃ (state : Dict F) (a : CryptoAgent C F),
    (agent creator).createGroupState draws members epoch creator groupId (.ok ()) =
      (a, .ok state) ∧
    (∀ t ∈ members.map Member.deviceTag,
      (joined (Function.update agent creator a) state t).2 = .ok () ∧
      (joined (Function.update agent creator a) state t).1.groupKey groupId =
        .ok (draws.key, epoch)) ∧
    (∀ t ∈ members.map Member.deviceTag, ∀ t' ∈ members.map Member.deviceTag,
      (joined (Function.update agent creator a) state t).1.ReadsFrom
        (joined (Function.update agent creator a) state t').1 groupId) ∧
    ∀ t ∉ members.map Member.deviceTag, ∀ (outsider : CryptoAgent C F) (write : Except Exn Unit),
      ∃ e, outsider.installGroupState state t write = (outsider, .error e)

/-- What the members have when they have installed what the creator has created. -/
theorem spec_joined (draws : GroupDraws C) (hC : C.Correct) {agent : PyStr → CryptoAgent C F}
    (hnodup : (members.map Member.deviceTag).Nodup)
    (hkeys : ∀ member ∈ members, OwnKey F agent member) {creator : PyStr}
    (hcreator : creator ∈ members.map Member.deviceTag) {epoch : ℤ}
    (hepoch : ∀ t ∈ members.map Member.deviceTag, (agent t).NotAhead groupId epoch) :
    ∃ (state : Dict F) (a : CryptoAgent C F),
      (agent creator).createGroupState draws members epoch creator groupId (.ok ()) =
        (a, .ok state) ∧
      makeGroupState draws members epoch creator groupId = .ok state ∧
      ∀ t ∈ members.map Member.deviceTag,
        (joined (Function.update agent creator a) state t).2 = .ok () ∧
        (joined (Function.update agent creator a) state t).1.groupKey groupId =
          .ok (draws.key, epoch) := by
  obtain ⟨state, a, hcreate, hidentity, hahead, hmake, hopens⟩ := exists_createGroupState
    draws hC hnodup hkeys hcreator (hepoch creator hcreator)
  refine ⟨state, a, hcreate, hmake, fun t ht => ?_⟩
  -- The creator, who holds the state already, installs it once more.
  obtain ⟨hopen, hnot⟩ : Opens (Function.update agent creator a t).identity t groupId state
      draws.key epoch ∧ (Function.update agent creator a t).NotAhead groupId epoch := by
    by_cases hself : t = creator
    · subst hself
      rw [Function.update_self, hidentity]
      exact ⟨hopens t ht, hahead⟩
    · rw [Function.update_of_ne hself]
      exact ⟨hopens t ht, hepoch t ht⟩
  rw [joined, CryptoAgent.installGroupState_of_opens hopen hnot]
  refine ⟨rfl, CryptoAgent.Holds.groupKey ?_ draws.length_key⟩
  exact CryptoAgent.holds_of_groupStates hopen (Function.update_self ..)

/-- The key of a group reaches the members, each with its own direct key, when none holds a
    later epoch and the name of the group can be encoded. An epoch that can be written to the
    file has at most 4300 digits. -/
theorem group_works (hC : C.Correct) {agent : PyStr → CryptoAgent C F} (draws : GroupDraws C)
    (hnodup : (members.map Member.deviceTag).Nodup)
    (hkeys : ∀ member ∈ members, OwnKey F agent member) {creator : PyStr}
    (hcreator : creator ∈ members.map Member.deviceTag)
    (hgroup : ∀ u ∈ groupId, Json.IsScalar u) {epoch : ℤ}
    (hepoch : ∀ t ∈ members.map Member.deviceTag, (agent t).NotAhead groupId epoch)
    (hdigits : (Nat.toDigits 10 epoch.natAbs).length ≤ Json.maxIntDigits) :
    GroupWorks agent draws members epoch creator groupId := by
  obtain ⟨state, a, hcreate, hmake, hjoined⟩ := spec_joined draws hC hnodup hkeys
    hcreator hepoch
  refine ⟨state, a, hcreate, hjoined, fun t ht t' ht' => ?_, fun t ht outsider write => ?_⟩
  · exact readsFrom_of_groupKey hC (hjoined t ht).2 (hjoined t' ht').2 draws.length_key hgroup
      hdigits
  · exact installGroupState_of_notMem hmake ht outsider write

/-- Two devices. -/
def twoAgents (t : PyStr) : CryptoAgent plainCrypto (List Char) :=
  if t = .ofString "alice" then plainAgent 1 else plainAgent 2

/-- They are the members of a group. -/
def twoMembers : List Member :=
  [⟨.ofString "alice", b64Str (List.replicate 32 1)⟩,
    ⟨.ofString "bob", b64Str (List.replicate 32 2)⟩]

theorem ownKey_twoMembers : ∀ member ∈ twoMembers, OwnKey (List Char) twoAgents member := by
  intro member hmember
  simp only [twoMembers, List.mem_cons, List.not_mem_nil, or_false] at hmember
  rcases hmember with rfl | rfl <;> exact agentUnb64_b64 _

theorem notAhead_twoAgents (t groupId : PyStr) : (twoAgents t).NotAhead groupId 1 := by
  refine CryptoAgent.notAhead_of_none ?_
  rw [twoAgents]
  split_ifs <;> rfl

/-- What is drawn for their group. -/
def twoDraws : GroupDraws plainCrypto where
  key := List.replicate 32 9
  length_key := List.length_replicate
  ephemeral _ := (3 : UInt8)
  nonce _ := List.replicate 12 7

theorem group_works_two :
    GroupWorks twoAgents twoDraws twoMembers 1 (.ofString "alice") (.ofString "general") :=
  group_works plainCrypto_correct twoDraws (by decide) ownKey_twoMembers (by decide)
    (fun _ hu => isScalar_of_mem_map hu) (fun t _ => notAhead_twoAgents t _) (by decide)

/-- A group is written for only when its name can be encoded. -/
theorem isScalar_of_groupAad {label : String} {epoch : ℤ} {aad : Bytes}
    (h : groupAad label groupId epoch = .ok aad) : ∀ u ∈ groupId, Json.IsScalar u := by
  intro u hu
  obtain ⟨⟨⟩, -, h⟩ := bind_eq_ok.1 h
  rw [encodeStr, PyStr.toText] at h
  split_ifs at h with hall
  refine of_decide_eq_true (p := u < 0xD800 ∨ 0xE000 ≤ u ∧ u < 0x110000) ?_
  exact List.all_eq_true.1 hall u (List.mem_append_left _ (List.mem_append_left _
    (List.mem_append_right _ hu)))

/-- A lone surrogate that names a group: all is as it should be, and the key reaches the members,
    but none of them can write. -/
theorem group_of_surrogate :
    (twoMembers.map Member.deviceTag).Nodup ∧
      (∀ member ∈ twoMembers, OwnKey (List Char) twoAgents member) ∧
      .ofString "alice" ∈ twoMembers.map Member.deviceTag ∧
      (∀ t ∈ twoMembers.map Member.deviceTag, (twoAgents t).NotAhead [0xdc80] 1) ∧
      ¬GroupWorks twoAgents twoDraws twoMembers 1 (.ofString "alice") [0xdc80] := by
  refine ⟨by decide, ownKey_twoMembers, by decide, fun t _ => notAhead_twoAgents t _, ?_⟩
  rintro ⟨state, a, -, -, hreads, -⟩
  have halice := hreads (.ofString "alice") (by decide) (.ofString "alice") (by decide)
  obtain ⟨envelope, hencrypt, -⟩ := halice.message plainDraws [] .null
  obtain ⟨⟨epoch, ciphertext⟩, hseal, -⟩ := bind_eq_ok.1 hencrypt
  obtain ⟨key, aad, -, haad, -, -⟩ := CryptoAgent.sealForGroup_eq_ok.1 hseal
  have hscalar := isScalar_of_groupAad haad 0xdc80 List.mem_cons_self
  exact absurd hscalar (by norm_num [Json.IsScalar])

end SecNet
