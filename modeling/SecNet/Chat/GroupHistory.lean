import SecNet.Chat.GroupMembers

/-!
# The messages of earlier epochs

A device installs the states of a group, each of a later epoch than the one before. The agent
keeps the last one only: what was written under an earlier one, and arrives or is read from
the history afterwards, is not opened.

* `groupKey_installAll`: the key that is used is of the last state that was installed;
* `reads_iff_current`: a message or a file is opened exactly when no newer state has been
  installed since the one that it was written under;
* `history_lost`: a message of the first epoch, when the second one has been installed.
-/

namespace SecNet

variable {C : Crypto} {F : Type} [PyFloatInt F] {a b m : CryptoAgent C F} {ownTag groupId : PyStr}
  {states before after : List (Dict F)}

/-- The installations of states, one after the other; nothing where one raises. -/
def CryptoAgent.installAll (a : CryptoAgent C F) (ownTag : PyStr) :
    List (Dict F) → Option (CryptoAgent C F)
  | [] => some a
  | state :: states =>
    match a.installGroupState state ownTag (.ok ()) with
    | (a, .ok ()) => a.installAll ownTag states
    | (_, .error _) => none

theorem CryptoAgent.installAll_append (a : CryptoAgent C F) (states states' : List (Dict F)) :
    a.installAll ownTag (states ++ states') =
      (a.installAll ownTag states).bind fun a => a.installAll ownTag states' := by
  induction states generalizing a with
  | nil => rfl
  | cons state states ih =>
    rw [List.cons_append, installAll, installAll]
    rcases a.installGroupState state ownTag (.ok ()) with ⟨a, e | ⟨⟩⟩
    · rfl
    · exact ih a

/-- States of a group, each of a later epoch than the ones before. -/
structure IncreasingEpochs (groupId : PyStr) (states : List (Dict F)) : Prop where
  group : ∀ state ∈ states, stateGroupId state = .str groupId
  epoch : states.Pairwise fun state state' => ∃ e e', epochOf state = .ok e ∧
    epochOf state' = .ok e' ∧ e < e'

/-- The last state that was installed is the one that is stored. -/
theorem groupStates_installAll {state : Dict F} (hgroup : stateGroupId state = .str groupId)
    (h : a.installAll ownTag (states ++ [state]) = some b) :
    ∃ key : Bytes, key.length = 32 ∧ b.groupStates groupId = some (storedState key state) := by
  rw [CryptoAgent.installAll_append, Option.bind_eq_some_iff] at h
  obtain ⟨m, -, h⟩ := h
  rw [CryptoAgent.installAll] at h
  rcases hinstall : m.installGroupState state ownTag (.ok ()) with ⟨m', e | ⟨⟩⟩
  · rw [hinstall] at h
    cases h
  · rw [hinstall] at h
    obtain rfl : m' = b := Option.some.inj h
    obtain ⟨-, groupId', stored, hgroup', haccept, rfl⟩ :=
      CryptoAgent.installGroupState_eq_ok.1 hinstall
    obtain rfl := Json.str.inj (hgroup'.symm.trans hgroup)
    obtain ⟨key, hlength, rfl⟩ := CryptoAgent.exists_of_acceptGroupState haccept
    exact ⟨key, hlength, Function.update_self ..⟩

theorem epochOf_storedState (key : Bytes) (state : Dict F) :
    epochOf (storedState key state) = epochOf state := by
  rw [epochOf, epochOf, Dict.getItem, Dict.getItem,
    lookup_storedState _ _ (by decide) (by decide)]

variable [PyFloat F]

/-- The epoch that is used is that of the last state. -/
theorem groupKey_installAll {state : Dict F} (hgroup : stateGroupId state = .str groupId)
    (h : a.installAll ownTag (states ++ [state]) = some b) {e : ℤ} (he : epochOf state = .ok e) :
    ∃ key : Bytes, b.groupKey groupId = .ok (key, e) := by
  obtain ⟨key, hlength, hstored⟩ := groupStates_installAll hgroup h
  refine ⟨key, CryptoAgent.groupKey_of_lookup hstored (lookup_storedState_key _ _) hlength ?_⟩
  rwa [epochOf_storedState]

/-- The epoch of the state that was installed last, when it is used. -/
theorem epochOf_of_groupKey {state : Dict F} (hgroup : stateGroupId state = .str groupId)
    (h : a.installAll ownTag (states ++ [state]) = some b) {key : Bytes} {e : ℤ}
    (hkey : b.groupKey groupId = .ok (key, e)) : epochOf state = .ok e := by
  obtain ⟨key', -, hstored⟩ := groupStates_installAll hgroup h
  obtain ⟨stored, hstored', -, -, -, hepoch⟩ := CryptoAgent.groupKey_eq_ok.1 hkey
  obtain rfl := Option.some.inj (hstored.symm.trans hstored')
  rwa [epochOf_storedState] at hepoch

/-- The epoch that was used is not that of the newer states. -/
theorem groupKey_ne {key : Bytes} {e : ℤ} (hincreasing : IncreasingEpochs groupId (before ++ after))
    (hbefore : a.installAll ownTag before = some m) (hne : before ≠ [])
    (hafter : m.installAll ownTag after = some b) (hnewer : after ≠ [])
    (hkey : m.groupKey groupId = .ok (key, e)) :
    ∃ key' e', b.groupKey groupId = .ok (key', e') ∧ e' ≠ e := by
  obtain ⟨before, state, rfl⟩ := (List.eq_nil_or_concat' before).resolve_left hne
  obtain ⟨after, state', rfl⟩ := (List.eq_nil_or_concat' after).resolve_left hnewer
  have hstate := epochOf_of_groupKey (hincreasing.group state (by simp)) hbefore hkey
  -- The epochs of the two states that were installed last differ.
  obtain ⟨e₁, e₂, he₁, he₂, hlt⟩ := (List.pairwise_append.1 hincreasing.epoch).2.2 state (by simp)
    state' (by simp)
  obtain rfl := Except.ok.inj (hstate.symm.trans he₁)
  obtain ⟨key', hkey'⟩ := groupKey_installAll (hincreasing.group state' (by simp)) hafter he₂
  exact ⟨key', e₂, hkey', hlt.ne'⟩

/-- What was enclosed under a state is opened while no newer one is installed. -/
theorem openForGroup_iff_current (hC : C.Correct)
    (hincreasing : IncreasingEpochs groupId (before ++ after))
    (hbefore : a.installAll ownTag before = some m) (hne : before ≠ [])
    (hafter : m.installAll ownTag after = some b) {sender : CryptoAgent C F}
    (hsender : sender.groupKey groupId = m.groupKey groupId) {label : String}
    {plaintext nonce : Bytes} {epoch : ℤ} {ciphertext : Bytes} {envelope : Dict F}
    (h : Encloses sender label groupId plaintext nonce epoch ciphertext envelope)
    (unavailable : String) :
    b.openForGroup label unavailable envelope = .ok plaintext ↔ after = [] := by
  constructor
  · intro hopen
    by_contra hnewer
    obtain ⟨key, aad, hkey, -, -, -⟩ := CryptoAgent.sealForGroup_eq_ok.1 h.sealed
    obtain ⟨key', e', hkey', he⟩ := groupKey_ne hincreasing hbefore hne hafter hnewer
      (hsender.symm.trans hkey)
    exact CryptoAgent.openForGroup_of_ne hkey' he _ h.group
      (bind_eq_ok.2 ⟨_, h.epoch, rfl⟩) hopen
  · rintro rfl
    obtain rfl : m = b := Option.some.inj hafter
    exact h.openForGroup hC hsender.symm _

/-- A message or a file that is written under a state that a device has installed is opened by
    the device exactly when it has installed no newer one since. -/
theorem reads_iff_current (hC : C.Correct)
    (hincreasing : IncreasingEpochs groupId (before ++ after))
    (hbefore : a.installAll ownTag before = some m) (hne : before ≠ [])
    (hafter : m.installAll ownTag after = some b) {sender : CryptoAgent C F}
    (hsender : sender.groupKey groupId = m.groupKey groupId) (draws : AgentDraws C)
    (plaintext : Bytes) :
    (∀ messageId envelope, sender.groupEncrypt draws plaintext messageId groupId = .ok envelope →
      (b.groupDecrypt (.obj envelope) = .ok plaintext ↔ after = [])) ∧
    ∀ envelope, sender.fileEncrypt draws plaintext groupId = .ok envelope →
      (b.fileDecrypt (.obj envelope) = .ok plaintext ↔ after = []) := by
  refine ⟨fun messageId envelope hencrypt => ?_, fun envelope hencrypt => ?_⟩
  · obtain ⟨⟨epoch, ciphertext, hencloses⟩, hdecrypt⟩ := spec_groupEncrypt hencrypt
    rw [hdecrypt]
    exact openForGroup_iff_current hC hincreasing hbefore hne hafter hsender hencloses _
  · obtain ⟨⟨epoch, ciphertext, hencloses⟩, hdecrypt⟩ := spec_fileEncrypt hencrypt
    rw [hdecrypt]
    exact openForGroup_iff_current hC hincreasing hbefore hne hafter hsender hencloses _

omit [PyFloat F] in
/-- The first installation of a state. -/
theorem installAll_singleton {key : Bytes} {epoch : ℤ} {state : Dict F}
    (h : Opens a.identity ownTag groupId state key epoch) (hahead : a.NotAhead groupId epoch) :
    ∃ m, a.installAll ownTag [state] = some m ∧ m.Holds groupId key epoch ∧
      m.identity = a.identity := by
  have hinstall := CryptoAgent.installGroupState_of_opens h hahead
  refine ⟨(a.installGroupState state ownTag (.ok ())).1, ?_, ?_, ?_⟩
  · rw [CryptoAgent.installAll, hinstall]
    rfl
  · rw [hinstall]
    refine CryptoAgent.holds_of_groupStates h ?_
    dsimp only
    rw [Function.update_self]
  · rw [hinstall]

/-- Alice installs two states of the general group, of which bob, who writes, has the first. -/
theorem exists_two_epochs : ∃ (first second : Dict (List Char))
    (m b sender : CryptoAgent plainCrypto (List Char)) (envelope : Dict (List Char)),
    IncreasingEpochs (.ofString "general") ([first] ++ [second]) ∧
      (twoAgents (.ofString "alice")).installAll (.ofString "alice") [first] = some m ∧
      m.installAll (.ofString "alice") [second] = some b ∧
      sender.groupKey (.ofString "general") = m.groupKey (.ofString "general") ∧
      sender.groupEncrypt plainDraws [] .null (.ofString "general") = .ok envelope := by
  have halice : PyStr.ofString "alice" ∈ twoMembers.map Member.deviceTag := by decide
  have hmake := exists_makeGroupState twoDraws plainCrypto_correct (by decide) ownKey_twoMembers
    halice
  obtain ⟨first, hfirst, hopens⟩ := hmake 1 (.ofString "general")
  obtain ⟨second, hsecond, hopens'⟩ := hmake 2 (.ofString "general")
  obtain ⟨m, hm, hholds, hidentity⟩ := installAll_singleton (hopens (.ofString "alice") (by decide))
    (notAhead_twoAgents _ _)
  have hopen' := hopens' (.ofString "alice") (by decide)
  rw [← hidentity] at hopen'
  obtain ⟨b, hb, -, -⟩ := installAll_singleton hopen' (hholds.notAhead_iff.2 (by decide))
  obtain ⟨sender, -, hsender, -⟩ := installAll_singleton (hopens (.ofString "bob") (by decide))
    (notAhead_twoAgents _ _)
  have hkey := hsender.groupKey twoDraws.length_key
  obtain ⟨ciphertext, hseal⟩ := exists_seal hkey twoDraws.length_key (exists_groupAad
    "vpn1 group v1" (fun _ hu => isScalar_of_mem_map hu) (by decide)) plainDraws.nonce []
  refine ⟨first, second, m, b, sender, _, ⟨?_, ?_⟩, hm, hb,
    hkey.trans (hholds.groupKey twoDraws.length_key).symm, bind_eq_ok.2 ⟨_, hseal, rfl⟩⟩
  · intro state hstate
    rcases List.mem_cons.1 hstate with rfl | hstate
    · exact makeGroupState_groupId hfirst
    · obtain rfl := List.mem_singleton.1 hstate
      exact makeGroupState_groupId hsecond
  · refine List.pairwise_pair.2 ⟨1, 2, ?_, ?_, by decide⟩
    · rw [epochOf, Dict.getItem, (hopens _ (by decide : .ofString "bob" ∈ _)).epoch]
      rfl
    · rw [epochOf, Dict.getItem, hopen'.epoch]
      rfl

/-- In the run of two installations. -/
theorem reads_iff_current_two : ∃ (first second : Dict (List Char))
    (m b sender : CryptoAgent plainCrypto (List Char)) (envelope : Dict (List Char)),
    (twoAgents (.ofString "alice")).installAll (.ofString "alice") [first] = some m ∧
      m.installAll (.ofString "alice") [second] = some b ∧
      sender.groupEncrypt plainDraws [] .null (.ofString "general") = .ok envelope ∧
      (b.groupDecrypt (.obj envelope) = .ok [] ↔ [second] = []) := by
  obtain ⟨first, second, m, b, sender, envelope, hincreasing, hm, hb, hsender, hencrypt⟩ :=
    exists_two_epochs
  exact ⟨first, second, m, b, sender, envelope, hm, hb, hencrypt,
    (reads_iff_current plainCrypto_correct hincreasing hm (List.cons_ne_nil _ _) hb hsender
      plainDraws []).1 .null envelope hencrypt⟩

/-- A message that was written under the first state is lost when the second is installed. -/
theorem history_lost : ∃ (first second : Dict (List Char))
    (m b sender : CryptoAgent plainCrypto (List Char)) (envelope : Dict (List Char)),
    IncreasingEpochs (.ofString "general") ([first] ++ [second]) ∧
      (twoAgents (.ofString "alice")).installAll (.ofString "alice") [first] = some m ∧
      m.installAll (.ofString "alice") [second] = some b ∧
      sender.groupKey (.ofString "general") = m.groupKey (.ofString "general") ∧
      sender.groupEncrypt plainDraws [] .null (.ofString "general") = .ok envelope ∧
      b.groupDecrypt (.obj envelope) ≠ .ok [] := by
  obtain ⟨first, second, m, b, sender, envelope, hincreasing, hm, hb, hsender, hencrypt⟩ :=
    exists_two_epochs
  refine ⟨first, second, m, b, sender, envelope, hincreasing, hm, hb, hsender, hencrypt,
    fun h => ?_⟩
  obtain ⟨⟨epoch, ciphertext, hencloses⟩, hdecrypt⟩ := spec_groupEncrypt hencrypt
  rw [hdecrypt] at h
  exact List.cons_ne_nil _ _ ((openForGroup_iff_current plainCrypto_correct hincreasing hm
    (List.cons_ne_nil _ _) hb hsender hencloses _).1 h)

end SecNet
