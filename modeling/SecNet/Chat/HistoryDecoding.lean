import SecNet.Chat.GroupFile

/-!
# The decoder of the history

`decryptAndAppendHistory` reads the records that the websocket has delivered before, or would
have. The announcement of a file has hints at top level, which both decoders look for, but only
that of the websocket (`receiveInGroup`) where the handler has put them, and only it has the
announcement decrypted for the envelope of the file.

* `decodeHistory_text`: a text is the same for both;
* `decodeHistory_announcement`: of a file, that of the history reads nothing;
* `history_agrees_iff`: they agree on the texts only.
-/

namespace SecNet

variable {C : Crypto} {F : Type} [PyFloat F] [PyFloatInt F]

/-! ## What is sent -/

/-- `sendMessage` in the general channel or in a group: what is posted for the bytes of a
    text. -/
def sendInGroup (engine : ScriptEngine) (a : CryptoAgent C F) (draws : AgentDraws C)
    (groupId : String) (plaintext : Bytes) (messageId : String) : Except ScriptError (Dict F) := do
  let plaintext ← engine.b64 plaintext
  let enc ← askAgent a draws .groupEncrypt (Dict.ofList [("plaintext", plaintext),
    ("message_id", .ofString messageId), ("group_id", .ofString groupId)])
  let envelope ← property enc "envelope"
  return Dict.ofList (definedItem "envelope" envelope)

/-- `sendMessage`. -/
def sendMessage (engine : ScriptEngine) (a : CryptoAgent C F) (draws : AgentDraws C)
    (directory : List DirectoryEntry) (plaintext : Bytes) (messageId : String) :
    ChatChannel → Except ScriptError (Dict F)
  | .general => sendInGroup engine a draws "general" plaintext messageId
  | .group id _ => sendInGroup engine a draws id plaintext messageId
  | .dm tag => sendDirect engine a draws directory tag plaintext messageId

/-- What the client sends: a text, or a file that is attached. -/
inductive Outgoing (C : Crypto)
  | text (draws : AgentDraws C) (plaintext : Bytes) (messageId : String)
  | file (draws : AttachDraws C) (upload : Bytes → Except Exn String) (attachment : AttachedFile)

/-- The request that is posted. -/
def Outgoing.post (engine : ScriptEngine) (a : CryptoAgent C F) (directory : List DirectoryEntry)
    (channel : ChatChannel) : Outgoing C → Except ScriptError (Dict F)
  | .text draws plaintext messageId =>
    sendMessage engine a draws directory plaintext messageId channel
  | .file draws upload attachment => do
    let attached ← attach engine a draws upload directory channel attachment
    return attached.body

/-- What is sent is a text. -/
def Outgoing.IsText : Outgoing C → Prop
  | text .. => True
  | file .. => False

/-! ## What is read -/

/-- What `openChannel` says of the records of a channel. -/
inductive HistoryType
  | general
  | group

/-- The channels that have a history. -/
def ChatChannel.historyType : ChatChannel → Option HistoryType
  | .general => some .general
  | .group .. => some .group
  | .dm _ => none

/-- The plaintext of an envelope as it is. -/
def decryptStored (a : CryptoAgent C F) (draws : AgentDraws C) (env : Value F) :
    Except ScriptError Bytes := do
  let clear ← askAgent a draws .groupDecrypt (Dict.ofList (definedItem "envelope" env))
  scriptUnb64 (← property clear "plaintext")

omit [PyFloat F] [PyFloatInt F] in
/-- The file that an envelope is of, which takes no call of the agent. -/
def fileOfHistory (env : Value F) : Except ScriptError (Option (Received F)) := do
  if ((← property env "type").getD .null).isStr "file" then
    return some (.file (← property env "file_key") (← property env "filename")
      (← property env "size") (← property env "file_envelope"))
  else return none

/-- `decryptAndAppendHistory`, up to the list that the message is put into. -/
def decodeHistory (a : CryptoAgent C F) (draws : AgentDraws C) (type : HistoryType)
    (record : Dict F) : Except ScriptError (Received F) := do
  let env ← property (some (.obj record)) "envelope"
  match ← fileOfHistory env with
  | some file => return file
  | none =>
    match type with
    | .general => return .text (← decryptGroup a draws "general" env)
    | .group => return .text (← decryptStored a draws env)

/-! ## Texts -/

/-- The envelope of a text. -/
def textEnvelope (groupId messageId : String) (epoch : ℤ) (nonce ciphertext : Bytes) : Dict F :=
  Dict.ofList [("kind", .ofString "group"), ("group_id", .ofString groupId),
    ("message_id", .ofString messageId), ("epoch", .int epoch), ("nonce", b64 nonce),
    ("ciphertext", b64 ciphertext)]

/-- The request that is posted for a text. -/
theorem sendInGroup_eq_ok {engine : ScriptEngine} {a : CryptoAgent C F} {draws : AgentDraws C}
    {groupId messageId : String} {plaintext : Bytes} {body : Dict F} :
    sendInGroup engine a draws groupId plaintext messageId = .ok body ↔
      plaintext.length ≤ engine.maxArguments ∧
      scriptSize (.obj (messageRequest (F := F) groupId messageId plaintext)) ≤ 64000000 ∧
        ∃ epoch ciphertext,
          a.sealForGroup "vpn1 group v1" draws.nonce (.ofString groupId) plaintext =
            .ok (epoch, ciphertext) ∧
          body = Dict.ofList [("envelope",
            .obj (textEnvelope groupId messageId epoch draws.nonce ciphertext))] := by
  constructor
  · intro h
    obtain ⟨text, htext, h⟩ := bind_eq_ok.1 h
    obtain ⟨hlength, rfl⟩ := ScriptEngine.b64_eq_ok.1 htext
    obtain ⟨enc, henc, h⟩ := bind_eq_ok.1 h
    obtain ⟨hsize, epoch, ciphertext, hseal, rfl⟩ := askAgent_groupEncrypt.1 henc
    obtain ⟨envelope, henvelope, h⟩ := bind_eq_ok.1 h
    rw [property_ofList rfl] at henvelope
    obtain rfl := Except.ok.inj henvelope
    exact ⟨hlength, hsize, epoch, ciphertext, hseal, (Except.ok.inj h).symm⟩
  · rintro ⟨hlength, hsize, epoch, ciphertext, hseal, rfl⟩
    refine bind_eq_ok.2 ⟨_, ScriptEngine.b64_eq_ok.2 ⟨hlength, rfl⟩, ?_⟩
    refine bind_eq_ok.2 ⟨_, askAgent_groupEncrypt.2 ⟨hsize, epoch, ciphertext, hseal, rfl⟩, ?_⟩
    exact bind_eq_ok.2 ⟨_, property_ofList rfl, rfl⟩

omit [PyFloat F] [PyFloatInt F] in
/-- The browser sets what the envelope of a text has already. -/
theorem reopened_textEnvelope (groupId messageId : String) (epoch : ℤ) (nonce ciphertext : Bytes) :
    reopened groupId (textEnvelope (F := F) groupId messageId epoch nonce ciphertext) =
      textEnvelope groupId messageId epoch nonce ciphertext := by
  have hsorted := pairwise_ofList [("kind", Json.ofString (F := F) "group"),
    ("group_id", .ofString groupId), ("message_id", .ofString messageId), ("epoch", .int epoch),
    ("nonce", b64 nonce), ("ciphertext", b64 ciphertext)]
  have hkind : assign (textEnvelope (F := F) groupId messageId epoch nonce ciphertext) "kind"
      (.ofString "group") = textEnvelope groupId messageId epoch nonce ciphertext :=
    Json.insert_of_lookup hsorted ((lookup_ofList _ _).trans rfl)
  rw [reopened, hkind]
  exact Json.insert_of_lookup hsorted ((lookup_ofList _ _).trans rfl)

/-- A text is the same for both decoders. -/
theorem decodeHistory_text {channel : ChatChannel} {type : HistoryType} {groupId : String}
    (htype : channel.historyType = some type) (hgroup : channel.groupId = some groupId)
    {messageId : String} {epoch : ℤ} {nonce ciphertext : Bytes} {record : Dict F}
    (hrecord : record.lookup (.ofString "envelope") =
      some (.obj (textEnvelope groupId messageId epoch nonce ciphertext)))
    (b : CryptoAgent C F) (draws : AgentDraws C) :
    decodeHistory b draws type record = receiveInGroup b draws groupId record := by
  have henvelope : property (some (.obj record)) "envelope" =
      .ok (some (.obj (textEnvelope groupId messageId epoch nonce ciphertext))) := by
    rw [property, hrecord]
  have hhint : property (some (.obj (textEnvelope (F := F) groupId messageId epoch nonce
      ciphertext))) "type" = .ok none := property_ofList rfl
  have href : property (some (.obj (textEnvelope (F := F) groupId messageId epoch nonce
      ciphertext))) "_file_ref" = .ok none := property_ofList rfl
  have hstored : decryptStored b draws
      (some (.obj (textEnvelope groupId messageId epoch nonce ciphertext))) =
        decryptGroup b draws groupId
          (some (.obj (textEnvelope groupId messageId epoch nonce ciphertext))) := by
    rw [decryptGroup, spread, ← reopened, reopened_textEnvelope]
    rfl
  have hfalse : (Json.null (F := F)).isStr "file" = false := rfl
  simp only [decodeHistory, fileOfHistory, receiveInGroup, henvelope, hhint, href, bind,
    Except.bind, Option.getD_none, hfalse, isTrue, Bool.false_eq_true, if_false, pure, Except.pure]
  cases channel with
  | general =>
    obtain rfl := Option.some.inj htype
    obtain rfl := Option.some.inj hgroup
    rfl
  | group id hid =>
    obtain rfl := Option.some.inj htype
    obtain rfl := Option.some.inj hgroup
    simp only [hstored]
  | dm tag => cases htype

/-! ## Files -/

section

variable {groupId messageId fileKey : String} {epoch : ℤ} {nonce ciphertext : Bytes}
  {file : AttachedFile} {record : Dict F}

/-- Of a file, the decoder of the history reads nothing. -/
theorem decodeHistory_announcement (hrecord : record.lookup (.ofString "envelope") =
      some (.obj (announcement groupId messageId epoch nonce ciphertext fileKey file)))
    (b : CryptoAgent C F) (draws : AgentDraws C) (type : HistoryType) :
    decodeHistory b draws type record = .ok (.file none none none none) := by
  have henvelope : property (some (.obj record)) "envelope" =
      .ok (some (.obj (announcement groupId messageId epoch nonce ciphertext fileKey file))) := by
    rw [property, hrecord]
  have hhint : property (some (.obj (announcement (F := F) groupId messageId epoch nonce
      ciphertext fileKey file))) "type" = .ok (some (.ofString "file")) := property_ofList rfl
  have hnone : ∀ key ∈ ["file_key", "filename", "size", "file_envelope"],
      property (some (.obj (announcement (F := F) groupId messageId epoch nonce ciphertext fileKey
        file))) key = .ok none := by
    intro key hkey
    simp only [List.mem_cons, List.not_mem_nil, or_false] at hkey
    rcases hkey with rfl | rfl | rfl | rfl <;> exact property_ofList rfl
  have htrue : (Json.ofString (F := F) "file").isStr "file" = true := isStr_ofString _
  simp only [decodeHistory, fileOfHistory, henvelope, hhint, hnone, List.mem_cons,
    List.not_mem_nil, or_false, true_or, or_true, bind, Except.bind, Option.getD_some, htrue,
    if_true, pure, Except.pure]

end

/-- The request that is posted for a file in a group. -/
theorem attach_body {engine : ScriptEngine} {a : CryptoAgent C F} {draws : AttachDraws C}
    {upload : Bytes → Except Exn String} {directory : List DirectoryEntry} {channel : ChatChannel}
    {groupId : String} (hgroup : channel.groupId = some groupId) {file : AttachedFile}
    {attached : Attached F}
    (h : attach engine a draws upload directory channel file = .ok attached) :
    ∃ fileKey epoch ciphertext, attached.body = Dict.ofList [("envelope",
      .obj (announcement groupId draws.messageId epoch draws.message.nonce ciphertext fileKey
        file))] := by
  rcases hencrypt : encryptFile engine a draws directory channel file with e | ⟨v, data⟩
  · rw [attach, hencrypt] at h
    cases h
  obtain ⟨-, -, epoch, -, rfl⟩ := (encryptFile_group hgroup).1 hencrypt
  rcases hupload : upload data with e | fileKey
  · simp only [attach, hencrypt, property, askUpload, hupload, bind, Except.bind, fileEnvelope] at h
    cases h
  rw [attach_group hgroup hencrypt hupload] at h
  obtain ⟨body, hbody, h⟩ := bind_eq_ok.1 h
  obtain rfl := Except.ok.inj h
  obtain ⟨-, -, epoch', ciphertext, -, rfl⟩ := announceInGroup_eq_ok.1 hbody
  exact ⟨fileKey, epoch', ciphertext, rfl⟩

/-- The decoders of the history and of the websocket agree on what a client has sent exactly when
    that is a text. -/
theorem history_agrees_iff {engine : ScriptEngine} {a : CryptoAgent C F}
    {directory : List DirectoryEntry} {channel : ChatChannel} {type : HistoryType}
    {groupId : String} {message : Outgoing C} {body record : Dict F}
    (htype : channel.historyType = some type)
    (hgroup : channel.groupId = some groupId)
    (hpost : message.post engine a directory channel = .ok body)
    (hrecord : record.lookup (.ofString "envelope") = body.lookup (.ofString "envelope"))
    (b : CryptoAgent C F) (draws : AgentDraws C) :
    decodeHistory b draws type record = receiveInGroup b draws groupId record ↔ message.IsText := by
  cases message with
  | text draws' plaintext messageId =>
    have hsend : sendInGroup engine a draws' groupId plaintext messageId = .ok body := by
      cases channel with
      | general =>
        obtain rfl := Option.some.inj hgroup
        exact hpost
      | group id hid =>
        obtain rfl := Option.some.inj hgroup
        exact hpost
      | dm tag => cases hgroup
    obtain ⟨-, -, epoch, ciphertext, -, rfl⟩ := sendInGroup_eq_ok.1 hsend
    rw [lookup_ofList] at hrecord
    exact iff_of_true (decodeHistory_text htype hgroup hrecord b draws) trivial
  | file draws' upload attachment =>
    obtain ⟨attached, hattach, hbody⟩ := bind_eq_ok.1 hpost
    obtain rfl := Except.ok.inj hbody
    obtain ⟨fileKey, epoch, ciphertext, hattached⟩ := attach_body hgroup hattach
    rw [hattached, lookup_ofList] at hrecord
    -- The websocket has the hints, whatever becomes of the envelope of the file.
    rw [decodeHistory_announcement hrecord b draws type, receiveInGroup_hints hrecord]
    exact iff_of_false nofun not_false

/-- A text for the general channel is encrypted. -/
theorem exists_sendInGroup_keyedAgent : ∃ body,
    sendInGroup ⟨65536⟩ keyedAgent plainDraws "general" (ascii "hi") "m" = .ok body := by
  have hsize : scriptSize (.obj (messageRequest (F := List Char) "general" "m" (ascii "hi"))) ≤
      64000000 := by
    have hkeys : ["plaintext", "message_id", "group_id"].Nodup := by decide
    rw [messageRequest, scriptSize_ofList ?keys (List.cons_ne_nil _ _)]
    case keys => exact hkeys
    simp only [List.map_cons, List.map_nil, List.sum_cons, List.sum_nil, scriptSize_ofString,
      scriptSize_b64, show textBytes "plaintext" = 11 from rfl,
      show textBytes "message_id" = 12 from rfl, show textBytes "group_id" = 10 from rfl,
      show textBytes "m" = 3 from rfl, show textBytes "general" = 9 from rfl,
      show (ascii "hi").length = 2 from rfl]
    norm_num
  obtain ⟨aad, haad⟩ : ∃ aad, groupAad "vpn1 group v1" (.ofString "general") 1 = .ok aad :=
    groupAad_eq_ok.2 (by decide)
  exact ⟨_, sendInGroup_eq_ok.2 ⟨by decide, hsize, 1, _, CryptoAgent.sealForGroup_eq_ok.2 ⟨_, aad,
    groupKey_keyedAgent _, haad, List.length_replicate, rfl⟩, rfl⟩⟩

theorem history_agrees_iff_hi : ∃ body : Dict (List Char),
    (Outgoing.text plainDraws (ascii "hi") "m").post ⟨65536⟩ keyedAgent [] .general = .ok body ∧
      (decodeHistory keyedAgent plainDraws .general body =
        receiveInGroup keyedAgent plainDraws "general" body ↔
          (Outgoing.text plainDraws (ascii "hi") "m").IsText) := by
  obtain ⟨body, hbody⟩ := exists_sendInGroup_keyedAgent
  have hpost : (Outgoing.text plainDraws (ascii "hi") "m").post ⟨65536⟩ keyedAgent [] .general =
    .ok body := hbody
  exact ⟨body, hpost, history_agrees_iff rfl rfl hpost rfl keyedAgent plainDraws⟩

/-- A file of one byte is read, and can be downloaded, when it is announced. From the history
    nothing is read of it. -/
theorem file_lost_after_reload : ∃ (attached : Attached (List Char))
    (fileEnvelope : Value (List Char)),
    attach ⟨65536⟩ keyedAgent plainAttachDraws (uploadFile (.ok "alice") "1" (.ok ())) [] .general
        ⟨"a", [0]⟩ = .ok attached ∧
      receiveInGroup keyedAgent plainDraws "general" attached.body =
        .ok (.file (some (.ofString "uploads/alice/1")) (some (.ofString "a")) (some (.int 1))
          fileEnvelope) ∧
      downloadFile ⟨65536⟩ keyedAgent plainDraws attached.uploaded fileEnvelope = .ok [0] ∧
      decodeHistory keyedAgent plainDraws .general attached.body =
        .ok (.file none none none none) := by
  obtain ⟨v, data, hencrypt, hupload⟩ := exists_upload ⟨65536⟩ ⟨"a", [0]⟩ (by decide) (by decide)
  obtain ⟨attached, envelope, hattach, henvelope, -, hreceived⟩ := fileAnnounced_of_limits
    plainCrypto_correct rfl hencrypt hupload (groupKey_keyedAgent _) rfl plainDraws (by decide)
    (by decide) (show _ ≤ (ScriptEngine.mk 65536).maxArguments by decide)
  obtain ⟨fileKey, fileEnvelope, hreceive, hkey, hdownload⟩ := hreceived attached.body henvelope
  obtain ⟨_, ⟨⟩, hkey⟩ := bind_eq_ok.1 hkey
  obtain ⟨⟨⟩, -, hkey⟩ := bind_eq_ok.1 hkey
  obtain rfl := Except.ok.inj hkey
  obtain ⟨fileKey', epoch, ciphertext, hbody⟩ := attach_body rfl hattach
  have hrecord : attached.body.lookup (.ofString "envelope") = some (.obj (announcement "general"
      "m" epoch plainDraws.nonce ciphertext fileKey' ⟨"a", [0]⟩)) := by
    rw [hbody, lookup_ofList]
    rfl
  exact ⟨attached, fileEnvelope, hattach, hreceive, hdownload,
    decodeHistory_announcement hrecord keyedAgent plainDraws .general⟩

end SecNet
