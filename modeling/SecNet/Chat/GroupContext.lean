import SecNet.Chat.GroupMembers
import SecNet.Lib.Rsplit

/-!
# The context of an envelope

The associated data of a group message or file name the kind, the group and the epoch, as one
text: `vpn1 group v1:{group_id}:{epoch}`. A group may be named by any text, colons and digits
included, but the epoch is what follows the last colon.

* `groupAad_injective`: associated data are those of one kind, group and epoch;
* `envelopes_stay`: so that an envelope is opened only as of the kind, for the group and in the
  epoch it was sealed for, whatever its other fields are rewritten to.
-/

namespace SecNet

/-! ## The associated data -/

/-- An encoding is that of one string. -/
theorem encodeStr_injective {s t : PyStr} {data : Bytes} (hs : encodeStr s = .ok data)
    (ht : encodeStr t = .ok data) : s = t := by
  rw [encodeStr] at hs ht
  split at hs
  · rename_i text htext
    split at ht
    · rename_i text' htext'
      obtain rfl := Except.ok.inj hs
      have heq : text = text' :=
        String.toList_inj.1 (encodeUtf8_injective (Except.ok.inj ht).symm)
      rw [PyStr.toText_eq_some.1 htext, PyStr.toText_eq_some.1 htext', heq]
    · cases ht
  · cases hs

/-- The labels of group messages and files. -/
def groupLabels : List String := ["vpn1 group v1", "vpn1 file v1"]

/-- The labels are told apart by what they start with. -/
theorem groupLabels_eq {label label' : String} (h : label ∈ groupLabels)
    (h' : label' ∈ groupLabels) {s t : PyStr}
    (heq : PyStr.ofString label ++ s = PyStr.ofString label' ++ t) : label = label' := by
  have htake := congrArg (List.take 6) heq
  have hlen : ∀ l ∈ groupLabels, 6 ≤ (PyStr.ofString l).length := by decide
  rw [List.take_append_of_le_length (hlen _ h), List.take_append_of_le_length (hlen _ h')] at htake
  have hinj : ∀ l ∈ groupLabels, ∀ l' ∈ groupLabels,
      (PyStr.ofString l).take 6 = (PyStr.ofString l').take 6 → l = l' := by decide
  exact hinj _ h _ h' htake

/-- Associated data are those of one kind, group and epoch. -/
theorem groupAad_injective {label label' : String} (hlabel : label ∈ groupLabels)
    (hlabel' : label' ∈ groupLabels) {groupId groupId' : PyStr} {epoch epoch' : ℤ} {aad : Bytes}
    (h : groupAad label groupId epoch = .ok aad) (h' : groupAad label' groupId' epoch' = .ok aad) :
    label = label' ∧ groupId = groupId' ∧ epoch = epoch' := by
  obtain ⟨⟨⟩, hdigits, h⟩ := bind_eq_ok.1 h
  obtain ⟨⟨⟩, hdigits', h'⟩ := bind_eq_ok.1 h'
  have hcolon : ∀ n : ℤ, ':'.toNat ∉ (Json.dumpsInt n).map Char.toNat := by
    intro n hmem
    obtain ⟨c, hc, heq⟩ := List.mem_map.1 hmem
    obtain rfl := Char.toNat_inj.1 heq
    simpa using Json.mem_dumpsInt hc
  have htext := encodeStr_injective h h'
  rw [show PyStr.ofString ":" = [':'.toNat] from rfl] at htext
  -- The epoch is what follows the last colon.
  rw [← List.append_cons (_ ++ groupId), ← List.append_cons (_ ++ groupId')] at htext
  obtain ⟨hgroup, hepoch⟩ := append_sep_inj (hcolon epoch) (hcolon epoch') htext
  have hepoch : epoch = epoch' := by
    have hdumps := List.map_injective_iff.2 (fun _ _ => Char.toNat_inj.1) hepoch
    have hread := Json.intOfText_dumpsInt (of_decide_eq_true (check_eq_ok.1 hdigits))
    rw [hdumps, Json.intOfText_dumpsInt (of_decide_eq_true (check_eq_ok.1 hdigits'))] at hread
    exact (Option.some.inj hread).symm
  rw [List.append_assoc, List.append_assoc] at hgroup
  obtain rfl := groupLabels_eq hlabel hlabel' hgroup
  exact ⟨rfl, List.append_cancel_left (List.append_cancel_left hgroup), hepoch⟩

variable {C : Crypto} {F : Type} [PyFloat F] [PyFloatInt F]

/-! ## The envelopes -/

/-- The AEAD opens a ciphertext only under the key, the nonce and the associated data that it
    was sealed with. -/
def Aead.OpensOnly (a : Aead) (s : Sealed) : Prop :=
  ∀ key nonce aad plaintext, a.decrypt key nonce s.ciphertext aad = .ok plaintext →
    key = s.key ∧ nonce = s.nonce ∧ aad = s.aad

/-- What an agent seals for a group is opened as nothing else. -/
def CryptoAgent.SealsFor (a : CryptoAgent C F) (label : String) (nonce plaintext : Bytes)
    (groupId : PyStr) : Prop :=
  ∀ key aad epoch, a.groupKey groupId = .ok (key, epoch) → groupAad label groupId epoch = .ok aad →
    C.aead.chaCha20Poly1305.OpensOnly
      ⟨key, nonce, C.aead.chaCha20Poly1305.encrypt key nonce plaintext aad, aad⟩

omit [PyFloat F] in
/-- What is opened is a ciphertext, under associated data for the group and the epoch of the
    envelope. -/
theorem CryptoAgent.openForGroup_eq_ok {b : CryptoAgent C F} {label unavailable : String}
    {envelope : Dict F} {groupId : PyStr} {plaintext : Bytes}
    (hgroup : envelope.getD "group_id" (.ofString "general") = .str groupId)
    (h : b.openForGroup label unavailable envelope = .ok plaintext) :
    ∃ epoch key nonce ciphertext aad, epochOf envelope = .ok epoch ∧
      groupAad label groupId epoch = .ok aad ∧
      (envelope.getItem "ciphertext" >>= agentUnb64) = .ok ciphertext ∧
      C.aead.chaCha20Poly1305.decrypt key nonce ciphertext aad = .ok plaintext := by
  rw [openForGroup, hgroup] at h
  obtain ⟨_, hid, h⟩ := bind_eq_ok.1 h
  obtain rfl := Except.ok.inj hid
  obtain ⟨v, hv, h⟩ := bind_eq_ok.1 h
  obtain ⟨epoch, hepoch, h⟩ := bind_eq_ok.1 h
  split at h
  · cases h
  obtain ⟨_, -, h⟩ := bind_eq_ok.1 h
  obtain ⟨_, -, h⟩ := bind_eq_ok.1 h
  obtain ⟨_, -, h⟩ := bind_eq_ok.1 h
  obtain ⟨_, -, h⟩ := bind_eq_ok.1 h
  obtain ⟨_, -, h⟩ := bind_eq_ok.1 h
  obtain ⟨key, -, h⟩ := bind_eq_ok.1 h
  obtain ⟨aad, haad, h⟩ := bind_eq_ok.1 h
  obtain ⟨aead, haead, h⟩ := bind_eq_ok.1 h
  obtain ⟨⟨⟩, -, haead⟩ := bind_eq_ok.1 haead
  obtain rfl := Except.ok.inj haead
  obtain ⟨_, -, h⟩ := bind_eq_ok.1 h
  obtain ⟨nonce, -, h⟩ := bind_eq_ok.1 h
  obtain ⟨w, hw, h⟩ := bind_eq_ok.1 h
  obtain ⟨ciphertext, hciphertext, h⟩ := bind_eq_ok.1 h
  exact ⟨epoch, key, nonce, ciphertext, aad, bind_eq_ok.2 ⟨v, hv, hepoch⟩, haad,
    bind_eq_ok.2 ⟨w, hw, hciphertext⟩, h⟩

/-- An envelope with the ciphertext of another one is opened only as of its kind, for its group
    and in its epoch. -/
theorem Encloses.openForGroup_eq_ok {a b : CryptoAgent C F} {label label' : String}
    {plaintext nonce ciphertext : Bytes} {groupId groupId' : PyStr} {epoch : ℤ}
    {envelope envelope' : Dict F}
    (h : Encloses a label groupId plaintext nonce epoch ciphertext envelope)
    (hlabel : label ∈ groupLabels) (hlabel' : label' ∈ groupLabels)
    (haead : a.SealsFor label nonce plaintext groupId)
    (hciphertext : envelope'.getItem "ciphertext" = envelope.getItem "ciphertext")
    (hgroup : envelope'.getD "group_id" (.ofString "general") = .str groupId')
    {unavailable : String} {plaintext' : Bytes}
    (hopen : b.openForGroup label' unavailable envelope' = .ok plaintext') :
    label = label' ∧ groupId = groupId' ∧ epochOf envelope' = .ok epoch := by
  obtain ⟨key, aad, hkey, haad, -, rfl⟩ := CryptoAgent.sealForGroup_eq_ok.1 h.sealed
  obtain ⟨epoch', key', nonce', ciphertext', aad', hepoch', haad', hciphertext', hdecrypt⟩ :=
    CryptoAgent.openForGroup_eq_ok hgroup hopen
  rw [hciphertext, h.ciphertext] at hciphertext'
  obtain rfl := Except.ok.inj ((agentUnb64_b64 (F := F) _).symm.trans hciphertext')
  obtain ⟨-, -, rfl⟩ := haead key aad epoch hkey haad _ _ _ _ hdecrypt
  obtain ⟨rfl, rfl, rfl⟩ := groupAad_injective hlabel hlabel' haad haad'
  exact ⟨rfl, rfl, hepoch'⟩

/-- So it is opened under its label for its group and in its epoch, and under no other label. -/
theorem Encloses.stays {a b : CryptoAgent C F} {label : String}
    {plaintext nonce ciphertext key : Bytes} {groupId groupId' : PyStr} {epoch epoch' : ℤ}
    {envelope envelope' : Dict F}
    (h : Encloses a label groupId plaintext nonce epoch' ciphertext envelope)
    (hkey : a.groupKey groupId = .ok (key, epoch)) (hlabel : label ∈ groupLabels)
    (haead : a.SealsFor label nonce plaintext groupId)
    (hciphertext : envelope'.getItem "ciphertext" = envelope.getItem "ciphertext")
    (hgroup : envelope'.getD "group_id" (.ofString "general") = .str groupId') :
    (∀ unavailable plaintext', b.openForGroup label unavailable envelope' = .ok plaintext' →
      groupId' = groupId ∧ epochOf envelope' = .ok epoch) ∧
    ∀ label' ∈ groupLabels, label' ≠ label → ∀ unavailable plaintext',
      b.openForGroup label' unavailable envelope' ≠ .ok plaintext' := by
  obtain ⟨key', -, hkey', -⟩ := CryptoAgent.sealForGroup_eq_ok.1 h.sealed
  obtain ⟨rfl, rfl⟩ := Prod.mk.inj (Except.ok.inj (hkey'.symm.trans hkey))
  constructor
  · intro unavailable plaintext' hopen
    obtain ⟨-, rfl, hread⟩ := h.openForGroup_eq_ok hlabel hlabel haead hciphertext hgroup hopen
    exact ⟨rfl, hread⟩
  · intro label' hlabel' hne unavailable plaintext' hopen
    obtain ⟨heq, -⟩ := h.openForGroup_eq_ok hlabel hlabel' haead hciphertext hgroup hopen
    exact hne heq.symm

omit [PyFloat F] in
/-- Each of the two functions opens under its own label. -/
theorem CryptoAgent.openForGroup_of_groupDecrypt {b : CryptoAgent C F} {envelope : Dict F}
    {plaintext : Bytes} (h : b.groupDecrypt (.obj envelope) = .ok plaintext) :
    b.openForGroup "vpn1 group v1" "group epoch is unavailable" envelope = .ok plaintext := by
  obtain ⟨_, henvelope, h⟩ := bind_eq_ok.1 h
  obtain rfl := Except.ok.inj henvelope
  obtain ⟨⟨⟩, -, h⟩ := bind_eq_ok.1 h
  exact h

omit [PyFloat F] in
theorem CryptoAgent.openForGroup_of_fileDecrypt {b : CryptoAgent C F} {envelope : Dict F}
    {plaintext : Bytes} (h : b.fileDecrypt (.obj envelope) = .ok plaintext) :
    b.openForGroup "vpn1 file v1" "group epoch is unavailable for file decrypt" envelope =
      .ok plaintext := by
  obtain ⟨_, henvelope, h⟩ := bind_eq_ok.1 h
  obtain rfl := Except.ok.inj henvelope
  obtain ⟨⟨⟩, -, h⟩ := bind_eq_ok.1 h
  exact h

/-- An envelope with the ciphertext of a group message, whatever its other fields, is opened by
    `group_decrypt` only for the group and the epoch of the message, and never by
    `file_decrypt`; and the same for a file, with the two exchanged. -/
theorem envelopes_stay {a b : CryptoAgent C F} {draws : AgentDraws C} {plaintext key : Bytes}
    {groupId groupId' : PyStr} {epoch : ℤ} (hkey : a.groupKey groupId = .ok (key, epoch))
    {envelope' : Dict F}
    (hgroup : envelope'.getD "group_id" (.ofString "general") = .str groupId') :
    (a.SealsFor "vpn1 group v1" draws.nonce plaintext groupId →
      ∀ messageId envelope, a.groupEncrypt draws plaintext messageId groupId = .ok envelope →
        envelope'.getItem "ciphertext" = envelope.getItem "ciphertext" → ∀ plaintext',
          (b.groupDecrypt (.obj envelope') = .ok plaintext' →
            groupId' = groupId ∧ epochOf envelope' = .ok epoch) ∧
          b.fileDecrypt (.obj envelope') ≠ .ok plaintext') ∧
    (a.SealsFor "vpn1 file v1" draws.nonce plaintext groupId →
      ∀ envelope, a.fileEncrypt draws plaintext groupId = .ok envelope →
        envelope'.getItem "ciphertext" = envelope.getItem "ciphertext" → ∀ plaintext',
          (b.fileDecrypt (.obj envelope') = .ok plaintext' →
            groupId' = groupId ∧ epochOf envelope' = .ok epoch) ∧
          b.groupDecrypt (.obj envelope') ≠ .ok plaintext') := by
  have hmessage : "vpn1 group v1" ∈ groupLabels := by decide
  have hfile : "vpn1 file v1" ∈ groupLabels := by decide
  constructor
  · intro haead messageId envelope hencrypt hciphertext plaintext'
    obtain ⟨⟨epoch', ciphertext, hencloses⟩, -⟩ := spec_groupEncrypt hencrypt
    obtain ⟨hopens, hnone⟩ := hencloses.stays hkey hmessage haead hciphertext hgroup
    refine ⟨fun hopen => hopens _ _ (CryptoAgent.openForGroup_of_groupDecrypt hopen), ?_⟩
    intro hopen
    exact hnone _ hfile (by decide) _ _ (CryptoAgent.openForGroup_of_fileDecrypt hopen)
  · intro haead envelope hencrypt hciphertext plaintext'
    obtain ⟨⟨epoch', ciphertext, hencloses⟩, -⟩ := spec_fileEncrypt hencrypt
    obtain ⟨hopens, hnone⟩ := hencloses.stays hkey hfile haead hciphertext hgroup
    refine ⟨fun hopen => hopens _ _ (CryptoAgent.openForGroup_of_fileDecrypt hopen), ?_⟩
    intro hopen
    exact hnone _ hmessage (by decide) _ _ (CryptoAgent.openForGroup_of_groupDecrypt hopen)

/-! ## For a concrete run -/

/-- A tag that is of one key, nonce and associated data. -/
def markTag (s : Sealed) (key nonce aad : Bytes) : Bytes :=
  if key = s.key ∧ nonce = s.nonce ∧ aad = s.aad then List.replicate 16 1 else List.replicate 16 0

/-- An AEAD that leaves the data as it is and appends that tag. -/
def markAead (s : Sealed) : Aead where
  encrypt key nonce data aad := data ++ markTag s key nonce aad
  decrypt key nonce data aad :=
    if data.drop (data.length - 16) = markTag s key nonce aad then
      .ok (data.take (data.length - 16))
    else .error .invalidTag

theorem length_markTag (s : Sealed) (key nonce aad : Bytes) :
    (markTag s key nonce aad).length = 16 := by
  rw [markTag]
  split_ifs <;> simp

/-- The data and the tag of what is sealed. -/
theorem decrypt_markAead (s : Sealed) (key nonce data aad key' nonce' aad' : Bytes) :
    (markAead s).decrypt key' nonce' ((markAead s).encrypt key nonce data aad) aad' =
      if markTag s key nonce aad = markTag s key' nonce' aad' then .ok data
      else .error .invalidTag := by
  have hlen : (data ++ markTag s key nonce aad).length - 16 = data.length := by
    rw [List.length_append, length_markTag, Nat.add_sub_cancel]
  simp only [markAead, hlen, List.drop_left, List.take_left]

theorem markAead_correct (s : Sealed) : (markAead s).Correct where
  decrypt_encrypt key nonce data aad := by rw [decrypt_markAead, if_pos rfl]
  length_encrypt key nonce data aad := by
    simp only [markAead, List.length_append, length_markTag]

/-- The one thing that is sealed with the tag is not opened as anything else. -/
theorem opensOnly_markAead (s : Sealed) (data : Bytes) :
    (markAead s).OpensOnly
      ⟨s.key, s.nonce, (markAead s).encrypt s.key s.nonce data s.aad, s.aad⟩ := by
  intro key nonce aad plaintext h
  rw [decrypt_markAead] at h
  split_ifs at h with htag
  rw [markTag, if_pos ⟨rfl, rfl, rfl⟩, markTag] at htag
  split_ifs at htag with hsame
  · exact hsame
  · exact absurd htag (by decide)

/-- What is sealed for the group `team:1` in epoch 2. -/
def teamSealed : Sealed where
  key := List.replicate 32 7
  nonce := List.replicate 12 7
  ciphertext := []
  aad := (groupAad "vpn1 group v1" (.ofString "team:1") 2).toOption.getD []

/-- Primitives with that AEAD. -/
def markCrypto : Crypto := { plainCrypto with aead := ⟨tagAead, markAead teamSealed⟩ }

/-- A device with one key for every group. -/
def markAgent : CryptoAgent markCrypto (List Char) where
  identity := ⟨(1 : UInt8), (1 : UInt8)⟩
  groupStates _ := some (Dict.ofList [("epoch", .int 2), ("key", b64 teamSealed.key)])
  otherStates := []
  files _ := none

def markDraws : AgentDraws markCrypto where
  ephemeral := (3 : UInt8)
  nonce := teamSealed.nonce
  length_nonce := rfl

theorem groupKey_markAgent (groupId : PyStr) :
    markAgent.groupKey groupId = .ok (teamSealed.key, 2) :=
  CryptoAgent.groupKey_of_lookup rfl (lookup_ofList ..) rfl rfl

theorem sealsFor_markAgent (plaintext : Bytes) :
    markAgent.SealsFor "vpn1 group v1" markDraws.nonce plaintext (.ofString "team:1") := by
  intro key aad epoch hkey haad
  obtain ⟨rfl, rfl⟩ := Prod.mk.inj (Except.ok.inj ((groupKey_markAgent _).symm.trans hkey))
  have hteam : teamSealed.aad = aad := by
    simp only [teamSealed, haad]
    rfl
  subst hteam
  exact opensOnly_markAead teamSealed plaintext

/-- A message for the group `team:1` is not opened as one for the group `team`, which has the
    same key. -/
theorem envelopes_stay_team : markCrypto.aead.chaCha20Poly1305.Correct ∧
    ∃ envelope : Dict (List Char),
      markAgent.groupEncrypt markDraws [1, 2, 3] .null (.ofString "team:1") = .ok envelope ∧
      ∀ plaintext, markAgent.groupDecrypt
        (.obj (Json.insert (.ofString "group_id") (.ofString "team") envelope)) ≠
          .ok plaintext := by
  obtain ⟨ciphertext, hseal⟩ := exists_seal (groupKey_markAgent (.ofString "team:1")) rfl
    (exists_groupAad "vpn1 group v1" (fun _ hu => isScalar_of_mem_map hu) (by decide))
    markDraws.nonce [1, 2, 3]
  have hencrypt : markAgent.groupEncrypt markDraws [1, 2, 3] .null (.ofString "team:1") = .ok _ :=
    bind_eq_ok.2 ⟨_, hseal, rfl⟩
  have hgroup : ∀ envelope : Dict (List Char),
      Dict.getD (Json.insert (.ofString "group_id") (.ofString "team") envelope) "group_id"
        (.ofString "general") = .str (.ofString "team") := fun envelope => by
    rw [Dict.getD, Json.lookup_insert, if_pos rfl]
    rfl
  refine ⟨markAead_correct teamSealed, _, hencrypt, fun plaintext hopen => ?_⟩
  have hmoved := (envelopes_stay (b := markAgent) (groupKey_markAgent (.ofString "team:1"))
    (hgroup _)).1 (sealsFor_markAgent [1, 2, 3]) .null _ hencrypt
    (by rw [Dict.getItem, Json.lookup_insert, if_neg (by decide)]; rfl) plaintext
  exact absurd (hmoved.1 hopen).1 (by decide)

end SecNet
