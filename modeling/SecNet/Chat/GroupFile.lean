import SecNet.Chat.MessageSize

/-!
# Files in groups

A file for a group is encrypted by the agent, uploaded, and then announced: its envelope is put
into a message, which is encrypted in turn. The envelope still has the ciphertext, which the
browser of a member replaces by what it downloads. So the announcement of a file is larger than
the file, by a third for each of its two encodings in base64, and the server, which takes files of
64 MB, rejects it for most of them. Nor does the browser get that far: what it encodes in base64
are the arguments of one call, of which its engine allows so many.

* `dumpsSize_announcement`: the size of an announcement;
* `attach_group`: what the handler posts;
* `receiveInGroup_announcement`, `downloadFile_fileEnvelope`: a member with the same state of
  the group opens it, and the file;
* `fileAnnounced_iff`: a file is announced just when `announcementSize` is within the limit of the
  server, and `fileMessageSize` and the bytes to download within those of the engines.
-/

namespace SecNet

variable {C : Crypto} {F : Type} [PyFloat F] [PyFloatInt F]

/-! ## The size of an announcement -/

/-- The base64 text of what `n` bytes are encrypted to. -/
def sealedSize (n : ℕ) : ℕ := 4 * ((n + 18) / 3)

/-- The characters of a string in `json.dumps`. -/
def textSize (text : String) : ℕ := (Json.dumpsStr (.ofString text)).length

/-- The bytes of a string in `JSON.stringify`. -/
def textBytes (text : String) : ℕ := (encodeUtf8 (Json.script.str (.ofString text))).length

/-- The characters of an integer. -/
def intSize (n : ℤ) : ℕ := (Json.dumpsInt n).length

/-- The bytes of the envelope of a file. -/
def fileEnvelopeSize (groupId : String) (epoch : ℤ) (file : AttachedFile) : ℕ :=
  104 + textBytes groupId + intSize epoch + sealedSize file.data.length

/-- The bytes of the message that announces a file, before it is encrypted. -/
def fileMessageSize (fileKey groupId : String) (epoch : ℤ) (file : AttachedFile) : ℕ :=
  64 + textBytes fileKey + textBytes file.name + intSize file.data.length +
    fileEnvelopeSize groupId epoch file

/-- The characters of the envelope that announces a file. -/
def announcementSize (fileKey groupId messageId : String) (epoch : ℤ) (file : AttachedFile) : ℕ :=
  174 + textSize fileKey + textSize file.name + textSize groupId + textSize messageId +
    intSize file.data.length + intSize epoch +
    sealedSize (fileMessageSize fileKey groupId epoch file)

/-- What `file_encrypt` returns. -/
def fileEnvelope (groupId : String) (epoch : ℤ) (nonce ciphertext : Bytes) : Dict F :=
  Dict.ofList [("alg", .ofString "chacha20poly1305-group-file-v1"),
    ("group_id", .ofString groupId), ("epoch", .int epoch), ("nonce", b64 nonce),
    ("ciphertext", b64 ciphertext)]

/-- The envelope that announces a file. -/
def announcement (groupId messageId : String) (epoch : ℤ) (nonce ciphertext : Bytes)
    (fileKey : String) (file : AttachedFile) : Dict F :=
  Dict.ofList [("kind", .ofString "group"), ("group_id", .ofString groupId),
    ("message_id", .ofString messageId), ("epoch", .int epoch), ("nonce", b64 nonce),
    ("ciphertext", b64 ciphertext), ("type", .ofString "file"), ("_file_ref", fileRef fileKey file)]

section

variable {groupId messageId fileKey : String} {epoch : ℤ} {nonce ciphertext : Bytes}
  {file : AttachedFile}

omit [PyFloatInt F]

theorem dumpsSize_ofString (text : String) : dumpsSize (.ofString (F := F) text) = textSize text :=
  rfl

theorem scriptSize_ofString (text : String) :
    scriptSize (.ofString (F := F) text) = textBytes text := by
  rw [scriptSize, encodeScript, Json.ofString, Json.Style.write, textBytes]

theorem dumpsSize_int (n : ℤ) : dumpsSize (.int (F := F) n) = intSize n := rfl

theorem textBytes_le (text : String) : textBytes text ≤ 6 * textSize text := by
  have hle := scriptSize_le (.ofString (F := List Char) text)
  rwa [scriptSize_ofString, dumpsSize_ofString] at hle

/-- The size of the envelope of a file. -/
theorem scriptSize_fileEnvelope (hnonce : nonce.length = 12)
    (hciphertext : ciphertext.length = file.data.length + 16) :
    scriptSize (.obj (fileEnvelope (F := F) groupId epoch nonce ciphertext)) =
      fileEnvelopeSize groupId epoch file := by
  have hkeys : ["alg", "group_id", "epoch", "nonce", "ciphertext"].Nodup := by decide
  rw [fileEnvelope, scriptSize_ofList ?keys (List.cons_ne_nil _ _)]
  case keys => exact hkeys
  simp only [List.map_cons, List.map_nil, List.sum_cons, List.sum_nil, scriptSize_ofString,
    scriptSize_b64, scriptSize_int, dumpsSize_int, hnonce, hciphertext, fileEnvelopeSize,
    sealedSize,
    show textBytes "alg" = 5 from rfl, show textBytes "group_id" = 10 from rfl,
    show textBytes "epoch" = 7 from rfl, show textBytes "nonce" = 7 from rfl,
    show textBytes "ciphertext" = 12 from rfl,
    show textBytes "chacha20poly1305-group-file-v1" = 32 from rfl]
  omega

/-- The size of the message that announces a file. -/
theorem scriptSize_fileMessage (hnonce : nonce.length = 12)
    (hciphertext : ciphertext.length = file.data.length + 16) :
    scriptSize (.obj (fileMessage fileKey file
        (some (.obj (fileEnvelope (F := F) groupId epoch nonce ciphertext))))) =
      fileMessageSize fileKey groupId epoch file := by
  have hkeys : ["type", "file_key", "filename", "size", "file_envelope"].Nodup := by decide
  have hitems :
      fileMessage fileKey file (some (.obj (fileEnvelope groupId epoch nonce ciphertext))) =
      Dict.ofList [("type", .ofString "file"), ("file_key", .ofString fileKey),
        ("filename", .ofString file.name), ("size", .int (F := F) file.data.length),
        ("file_envelope", .obj (fileEnvelope groupId epoch nonce ciphertext))] := rfl
  rw [hitems, scriptSize_ofList ?keys (List.cons_ne_nil _ _)]
  case keys => exact hkeys
  simp only [List.map_cons, List.map_nil, List.sum_cons, List.sum_nil, scriptSize_ofString,
    scriptSize_int, dumpsSize_int,
    scriptSize_fileEnvelope hnonce hciphertext, fileMessageSize,
    show textBytes "type" = 6 from rfl, show textBytes "file" = 6 from rfl,
    show textBytes "file_key" = 10 from rfl, show textBytes "filename" = 10 from rfl,
    show textBytes "size" = 6 from rfl, show textBytes "file_envelope" = 15 from rfl]
  omega

/-- The size of what is posted to announce a file. -/
theorem dumpsSize_announcement (hnonce : nonce.length = 12)
    (hciphertext : ciphertext.length = fileMessageSize fileKey groupId epoch file + 16) :
    dumpsSize (.obj (announcement (F := F) groupId messageId epoch nonce ciphertext fileKey file)) =
      announcementSize fileKey groupId messageId epoch file := by
  have href : dumpsSize (fileRef (F := F) fileKey file) =
      38 + textSize fileKey + textSize file.name + intSize file.data.length := by
    have hkeys : ["file_key", "filename", "size"].Nodup := by decide
    rw [fileRef, dumpsSize_ofList ?keys (List.cons_ne_nil _ _)]
    case keys => exact hkeys
    simp only [List.map_cons, List.map_nil, List.sum_cons, List.sum_nil, dumpsSize_ofString,
      dumpsSize_int, show textSize "file_key" = 10 from rfl,
      show textSize "filename" = 10 from rfl, show textSize "size" = 6 from rfl]
    omega
  have hkeys : ["kind", "group_id", "message_id", "epoch", "nonce", "ciphertext", "type",
      "_file_ref"].Nodup := by decide
  rw [announcement, dumpsSize_ofList ?keys (List.cons_ne_nil _ _)]
  case keys => exact hkeys
  simp only [List.map_cons, List.map_nil, List.sum_cons, List.sum_nil, dumpsSize_ofString,
    dumpsSize_b64, dumpsSize_int, hnonce, hciphertext, href, announcementSize, sealedSize,
    show textSize "kind" = 6 from rfl, show textSize "group" = 7 from rfl,
    show textSize "group_id" = 10 from rfl, show textSize "message_id" = 12 from rfl,
    show textSize "epoch" = 7 from rfl, show textSize "nonce" = 7 from rfl,
    show textSize "ciphertext" = 12 from rfl, show textSize "type" = 6 from rfl,
    show textSize "file" = 6 from rfl, show textSize "_file_ref" = 11 from rfl]
  omega

end

/-! ## What is posted -/

/-- A request to encrypt a file. -/
def fileRequest (groupId : String) (data : Bytes) : Dict F :=
  Dict.ofList [("plaintext", b64 data), ("group_id", .ofString groupId)]

/-- A request to encrypt a message. -/
def messageRequest (groupId messageId : String) (plaintext : Bytes) : Dict F :=
  Dict.ofList [("plaintext", b64 plaintext), ("message_id", .ofString messageId),
    ("group_id", .ofString groupId)]

/-- The envelope of a file that the agent answers with. -/
theorem askAgent_fileEncrypt {a : CryptoAgent C F} {draws : AgentDraws C} {groupId : String}
    {data : Bytes} {v : Value F} :
    askAgent a draws .fileEncrypt (fileRequest groupId data) = .ok v ↔
      scriptSize (.obj (fileRequest (F := F) groupId data)) ≤ 64000000 ∧ ∃ epoch ciphertext,
        a.sealForGroup "vpn1 file v1" draws.nonce (.ofString groupId) data =
          .ok (epoch, ciphertext) ∧
        v = some (.obj (Dict.ofList [("envelope",
          .obj (fileEnvelope groupId epoch draws.nonce ciphertext))])) := by
  have hplaintext : (fileRequest (F := F) groupId data).getItem "plaintext" = .ok (b64 data) :=
    Dict.getItem_ofList rfl
  have hgroup : (fileRequest (F := F) groupId data).getD "group_id" (.ofString "general") =
      .ofString groupId := Dict.getD_ofList rfl
  rw [askAgent_eq_ok]
  simp only [CryptoAgent.post_eq_ok, CryptoAgent.respond, hplaintext, hgroup]
  constructor
  · rintro ⟨_, ⟨hsize, items, hitems, rfl⟩, rfl⟩
    obtain ⟨_, ⟨⟩, hitems⟩ := bind_eq_ok.1 hitems
    obtain ⟨plaintext, hunb64, hitems⟩ := bind_eq_ok.1 hitems
    obtain rfl := Except.ok.inj ((agentUnb64_b64 data).symm.trans hunb64)
    obtain ⟨_, ⟨⟩, hitems⟩ := bind_eq_ok.1 hitems
    obtain ⟨envelope, henvelope, hitems⟩ := bind_eq_ok.1 hitems
    obtain ⟨⟨epoch, ciphertext⟩, hseal, henvelope⟩ := bind_eq_ok.1 henvelope
    obtain rfl := Except.ok.inj henvelope
    obtain rfl := Except.ok.inj hitems
    exact ⟨hsize, epoch, ciphertext, hseal, rfl⟩
  · rintro ⟨hsize, epoch, ciphertext, hseal, rfl⟩
    refine ⟨_, ⟨hsize, _, bind_eq_ok.2 ⟨_, rfl, bind_eq_ok.2 ⟨data, agentUnb64_b64 data, ?_⟩⟩,
      rfl⟩, rfl⟩
    exact bind_eq_ok.2 ⟨_, rfl, bind_eq_ok.2 ⟨_, bind_eq_ok.2 ⟨_, hseal, rfl⟩, rfl⟩⟩

/-- The envelope of a message that the agent answers with. -/
theorem askAgent_groupEncrypt {a : CryptoAgent C F} {draws : AgentDraws C}
    {groupId messageId : String} {plaintext : Bytes} {v : Value F} :
    askAgent a draws .groupEncrypt (messageRequest groupId messageId plaintext) = .ok v ↔
      scriptSize (.obj (messageRequest (F := F) groupId messageId plaintext)) ≤ 64000000 ∧
        ∃ epoch ciphertext,
          a.sealForGroup "vpn1 group v1" draws.nonce (.ofString groupId) plaintext =
            .ok (epoch, ciphertext) ∧
          v = some (.obj (Dict.ofList [("envelope", .obj (Dict.ofList [("kind", .ofString "group"),
            ("group_id", .ofString groupId), ("message_id", .ofString messageId),
            ("epoch", .int epoch), ("nonce", b64 draws.nonce),
            ("ciphertext", b64 ciphertext)]))])) := by
  have hplaintext : (messageRequest (F := F) groupId messageId plaintext).getItem "plaintext" =
      .ok (b64 plaintext) := Dict.getItem_ofList rfl
  have hid : (messageRequest (F := F) groupId messageId plaintext).getD "message_id" (.str []) =
      .ofString messageId := Dict.getD_ofList rfl
  have hgroup : (messageRequest (F := F) groupId messageId plaintext).getD "group_id"
      (.ofString "general") = .ofString groupId := Dict.getD_ofList rfl
  rw [askAgent_eq_ok]
  simp only [CryptoAgent.post_eq_ok, CryptoAgent.respond, hplaintext, hid, hgroup]
  constructor
  · rintro ⟨_, ⟨hsize, items, hitems, rfl⟩, rfl⟩
    obtain ⟨_, ⟨⟩, hitems⟩ := bind_eq_ok.1 hitems
    obtain ⟨plaintext', hunb64, hitems⟩ := bind_eq_ok.1 hitems
    obtain rfl := Except.ok.inj ((agentUnb64_b64 plaintext).symm.trans hunb64)
    obtain ⟨_, ⟨⟩, hitems⟩ := bind_eq_ok.1 hitems
    obtain ⟨envelope, henvelope, hitems⟩ := bind_eq_ok.1 hitems
    obtain ⟨⟨epoch, ciphertext⟩, hseal, henvelope⟩ := bind_eq_ok.1 henvelope
    obtain rfl := Except.ok.inj henvelope
    obtain rfl := Except.ok.inj hitems
    exact ⟨hsize, epoch, ciphertext, hseal, rfl⟩
  · rintro ⟨hsize, epoch, ciphertext, hseal, rfl⟩
    refine ⟨_, ⟨hsize, _, bind_eq_ok.2 ⟨_, rfl,
      bind_eq_ok.2 ⟨plaintext, agentUnb64_b64 plaintext, ?_⟩⟩, rfl⟩, rfl⟩
    exact bind_eq_ok.2 ⟨_, rfl, bind_eq_ok.2 ⟨_, bind_eq_ok.2 ⟨_, hseal, rfl⟩, rfl⟩⟩

/-- What the handler encrypts and uploads in a group. -/
theorem encryptFile_group {engine : ScriptEngine} {a : CryptoAgent C F} {draws : AttachDraws C}
    {directory : List DirectoryEntry} {channel : ChatChannel} {groupId : String}
    {file : AttachedFile} (hchannel : channel.groupId = some groupId) {v : Value F} {data : Bytes} :
    encryptFile engine a draws directory channel file = .ok (v, data) ↔
      file.data.length ≤ engine.maxArguments ∧
      scriptSize (.obj (fileRequest (F := F) groupId file.data)) ≤ 64000000 ∧ ∃ epoch,
        a.sealForGroup "vpn1 file v1" draws.file.nonce (.ofString groupId) file.data =
          .ok (epoch, data) ∧
        v = some (.obj (fileEnvelope groupId epoch draws.file.nonce data)) := by
  have hencrypt : encryptFile engine a draws directory channel file = do
      let text ← engine.b64 file.data
      let enc ← askAgent a draws.file .fileEncrypt (Dict.ofList [("plaintext", text),
        ("group_id", .ofString groupId)])
      let fileEnvelope ← property enc "envelope"
      return (fileEnvelope, ← scriptUnb64 (← property fileEnvelope "ciphertext")) := by
    cases channel with
    | general =>
      obtain rfl := Option.some.inj hchannel
      simp only [encryptFile]
    | group id hid =>
      obtain rfl := Option.some.inj hchannel
      simp only [encryptFile]
    | dm tag => cases hchannel
  have hproperty : ∀ epoch ciphertext, property (some (.obj (fileEnvelope (F := F) groupId epoch
      draws.file.nonce ciphertext))) "ciphertext" = .ok (some (b64 ciphertext)) :=
    fun epoch ciphertext => property_ofList rfl
  rw [hencrypt]
  constructor
  · intro h
    obtain ⟨text, htext, h⟩ := bind_eq_ok.1 h
    obtain ⟨hlength, rfl⟩ := ScriptEngine.b64_eq_ok.1 htext
    obtain ⟨enc, henc, h⟩ := bind_eq_ok.1 h
    obtain ⟨hsize, epoch, ciphertext, hseal, rfl⟩ := askAgent_fileEncrypt.1 henc
    obtain ⟨v', hv, h⟩ := bind_eq_ok.1 h
    rw [property_ofList rfl] at hv
    obtain rfl := Except.ok.inj hv
    obtain ⟨text, htext, h⟩ := bind_eq_ok.1 h
    obtain ⟨data', hdata, h⟩ := bind_eq_ok.1 h
    obtain rfl := Except.ok.inj ((hproperty epoch ciphertext).symm.trans htext)
    obtain rfl := Except.ok.inj ((scriptUnb64_b64 ciphertext).symm.trans hdata)
    obtain ⟨rfl, rfl⟩ := Prod.mk.inj (Except.ok.inj h)
    exact ⟨hlength, hsize, epoch, hseal, rfl⟩
  · rintro ⟨hlength, hsize, epoch, hseal, rfl⟩
    refine bind_eq_ok.2 ⟨_, ScriptEngine.b64_eq_ok.2 ⟨hlength, rfl⟩, ?_⟩
    refine bind_eq_ok.2 ⟨_, askAgent_fileEncrypt.2 ⟨hsize, epoch, data, hseal, rfl⟩, ?_⟩
    refine bind_eq_ok.2 ⟨_, property_ofList rfl, ?_⟩
    exact bind_eq_ok.2 ⟨_, hproperty epoch data, bind_eq_ok.2 ⟨data, scriptUnb64_b64 data, rfl⟩⟩

omit [PyFloat F] [PyFloatInt F] in
/-- The handler sets the hints of an envelope. -/
theorem assign_announcement (groupId messageId : String) (epoch : ℤ) (nonce ciphertext : Bytes)
    (fileKey : String) (file : AttachedFile) :
    assign (assign (Dict.ofList [("kind", .ofString "group"), ("group_id", .ofString groupId),
      ("message_id", .ofString messageId), ("epoch", .int epoch), ("nonce", b64 nonce),
      ("ciphertext", b64 ciphertext)]) "type" (.ofString "file")) "_file_ref"
        (fileRef (F := F) fileKey file) =
      announcement groupId messageId epoch nonce ciphertext fileKey file := by
  simp only [announcement, assign, Dict.ofList, List.foldl_cons, List.foldl_nil]

/-- A file is encrypted where the group has a key, and the call and the request are within the
    limits of the engine and of the agent. -/
theorem exists_encryptFile (hC : C.Correct) {engine : ScriptEngine} {a : CryptoAgent C F}
    {groupId : String} {key : Bytes} {epoch : ℤ}
    (hkey : a.groupKey (.ofString groupId) = .ok (key, epoch)) (hlength : key.length = 32)
    (hepoch : (Nat.toDigits 10 epoch.natAbs).length ≤ Json.maxIntDigits) {channel : ChatChannel}
    (hchannel : channel.groupId = some groupId) {file : AttachedFile}
    (hbytes : file.data.length ≤ engine.maxArguments)
    (hsize : 28 + textBytes groupId + 4 * ((file.data.length + 2) / 3) ≤ 64000000)
    (draws : AttachDraws C) (directory : List DirectoryEntry) :
    ∃ v data, encryptFile engine a draws directory channel file = .ok (v, data) ∧
      data.length = file.data.length + 16 := by
  obtain ⟨aad, haad⟩ : ∃ aad, groupAad "vpn1 file v1" (.ofString groupId) epoch = .ok aad :=
    groupAad_eq_ok.2 hepoch
  have hrequest : scriptSize (.obj (fileRequest (F := F) groupId file.data)) ≤ 64000000 := by
    have hkeys : ["plaintext", "group_id"].Nodup := by decide
    rw [fileRequest, scriptSize_ofList ?keys (List.cons_ne_nil _ _)]
    case keys => exact hkeys
    simp only [List.map_cons, List.map_nil, List.sum_cons, List.sum_nil, scriptSize_ofString,
      scriptSize_b64, show textBytes "plaintext" = 11 from rfl,
      show textBytes "group_id" = 10 from rfl]
    omega
  refine ⟨_, _, (encryptFile_group hchannel).2 ⟨hbytes, hrequest, epoch, ?_, rfl⟩,
    hC.chaCha20Poly1305.length_encrypt key draws.file.nonce file.data aad⟩
  exact CryptoAgent.sealForGroup_eq_ok.2 ⟨key, aad, hkey, haad, hlength, rfl⟩

/-- The announcement that the handler posts in a group. -/
theorem announceInGroup_eq_ok {engine : ScriptEngine} {a : CryptoAgent C F} {draws : AttachDraws C}
    {groupId fileKey : String} {file : AttachedFile} {v : Value F} {body : Dict F} :
    announceInGroup engine a draws groupId fileKey file v = .ok body ↔
      (encodeScript (.obj (fileMessage fileKey file v))).length ≤ engine.maxArguments ∧
      scriptSize (.obj (messageRequest (F := F) groupId draws.messageId
          (encodeScript (.obj (fileMessage fileKey file v))))) ≤ 64000000 ∧
        ∃ epoch ciphertext,
          a.sealForGroup "vpn1 group v1" draws.message.nonce (.ofString groupId)
            (encodeScript (.obj (fileMessage fileKey file v))) = .ok (epoch, ciphertext) ∧
          body = Dict.ofList [("envelope", .obj (announcement groupId draws.messageId epoch
            draws.message.nonce ciphertext fileKey file))] := by
  have hproperty : ∀ envelope : Dict F,
      property (some (.obj (Dict.ofList [("envelope", .obj envelope)]))) "envelope" =
        .ok (some (.obj envelope)) := fun envelope => property_ofList rfl
  constructor
  · intro h
    obtain ⟨text, htext, h⟩ := bind_eq_ok.1 h
    obtain ⟨hlength, rfl⟩ := ScriptEngine.b64_eq_ok.1 htext
    obtain ⟨enc, henc, h⟩ := bind_eq_ok.1 h
    obtain ⟨hsize, epoch, ciphertext, hseal, rfl⟩ := askAgent_groupEncrypt.1 henc
    obtain ⟨envelope, henvelope, h⟩ := bind_eq_ok.1 h
    obtain rfl := Except.ok.inj ((hproperty _).symm.trans henvelope)
    simp only [assign_announcement] at h
    exact ⟨hlength, hsize, epoch, ciphertext, hseal, (Except.ok.inj h).symm⟩
  · rintro ⟨hlength, hsize, epoch, ciphertext, hseal, rfl⟩
    refine bind_eq_ok.2 ⟨_, ScriptEngine.b64_eq_ok.2 ⟨hlength, rfl⟩, ?_⟩
    refine bind_eq_ok.2 ⟨_, askAgent_groupEncrypt.2 ⟨hsize, epoch, ciphertext, hseal, rfl⟩, ?_⟩
    refine bind_eq_ok.2 ⟨_, hproperty _, ?_⟩
    simp only [assign_announcement]
    rfl

/-- What the handler does in a group, once the file is encrypted and uploaded. -/
theorem attach_group {engine : ScriptEngine} {a : CryptoAgent C F} {draws : AttachDraws C}
    {upload : Bytes → Except Exn String} {directory : List DirectoryEntry} {channel : ChatChannel}
    {groupId fileKey : String} {file : AttachedFile} {envelope : Dict F} {data : Bytes}
    (hchannel : channel.groupId = some groupId)
    (hencrypt : encryptFile engine a draws directory channel file =
      .ok (some (.obj envelope), data))
    (hupload : upload data = .ok fileKey) :
    attach engine a draws upload directory channel file = do
      let body ← announceInGroup engine a draws groupId fileKey file (some (.obj envelope))
      return ⟨data, body⟩ := by
  cases channel with
  | general =>
    obtain rfl := Option.some.inj hchannel
    simp only [attach, hencrypt, property, askUpload, hupload, bind, Except.bind]
  | group id hid =>
    obtain rfl := Option.some.inj hchannel
    simp only [attach, hencrypt, property, askUpload, hupload, bind, Except.bind]
  | dm tag => cases hchannel

/-! ## What a member opens -/

/-- A message that the agent opens. -/
theorem askAgent_groupDecrypt {b : CryptoAgent C F} {draws : AgentDraws C} {envelope : Dict F}
    {plaintext : Bytes} (hopen : b.groupDecrypt (.obj envelope) = .ok plaintext)
    (hsize : scriptSize (.obj (Dict.ofList [("envelope", Json.obj envelope)])) ≤ 64000000) :
    askAgent b draws .groupDecrypt (Dict.ofList [("envelope", .obj envelope)]) =
      .ok (some (.obj (Dict.ofList [("plaintext", b64 plaintext)]))) := by
  refine askAgent_eq_ok.2 ⟨_, CryptoAgent.post_eq_ok.2 ⟨hsize, _, ?_, rfl⟩, rfl⟩
  exact bind_eq_ok.2 ⟨_, Dict.getItem_ofList rfl, bind_eq_ok.2 ⟨_, hopen, rfl⟩⟩

/-- A file that the agent opens. -/
theorem askAgent_fileDecrypt {b : CryptoAgent C F} {draws : AgentDraws C} {envelope : Dict F}
    {plaintext : Bytes} (hopen : b.fileDecrypt (.obj envelope) = .ok plaintext)
    (hsize : scriptSize (.obj (Dict.ofList [("envelope", Json.obj envelope)])) ≤ 64000000) :
    askAgent b draws .fileDecrypt (Dict.ofList [("envelope", .obj envelope)]) =
      .ok (some (.obj (Dict.ofList [("plaintext", b64 plaintext)]))) := by
  refine askAgent_eq_ok.2 ⟨_, CryptoAgent.post_eq_ok.2 ⟨hsize, _, ?_, rfl⟩, rfl⟩
  exact bind_eq_ok.2 ⟨_, Dict.getItem_ofList rfl, bind_eq_ok.2 ⟨_, hopen, rfl⟩⟩

section

variable {a b : CryptoAgent C F} {groupId messageId fileKey : String} {epoch : ℤ}
  {nonce ciphertext plaintext : Bytes} {file : AttachedFile}

/-- What a browser makes of an announcement before it has it opened. -/
def reopened (groupId : String) (envelope : Dict F) : Dict F :=
  assign (assign envelope "kind" (.ofString "group")) "group_id" (.ofString groupId)

/-- An announcement is opened by a member with the same state of the group. -/
theorem groupDecrypt_announcement (hC : C.Correct)
    (hstates : b.groupStates (.ofString groupId) = a.groupStates (.ofString groupId))
    (hseal : a.sealForGroup "vpn1 group v1" nonce (.ofString groupId) plaintext =
      .ok (epoch, ciphertext)) :
    b.groupDecrypt (.obj (reopened groupId
      (announcement groupId messageId epoch nonce ciphertext fileKey file))) = .ok plaintext := by
  have hlookup : ∀ key, key ≠ "kind" → key ≠ "group_id" →
      List.lookup (PyStr.ofString key) (reopened groupId
        (announcement (F := F) groupId messageId epoch nonce ciphertext fileKey file)) =
      List.lookup (PyStr.ofString key)
        (announcement (F := F) groupId messageId epoch nonce ciphertext fileKey file) := by
    intro key hkind hgroup
    rw [reopened, lookup_assign, if_neg hgroup, lookup_assign, if_neg hkind]
  refine bind_eq_ok.2 ⟨_, rfl, bind_eq_ok.2 ⟨(), check_eq_ok.2 ?_, ?_⟩⟩
  · rw [Dict.get, reopened, lookup_assign, if_neg (by decide), lookup_assign, if_pos rfl]
    rfl
  · refine CryptoAgent.openForGroup_of_groupKey hC (CryptoAgent.groupKey_congr hstates) hseal _
      ?_ ?_ ?_ ?_
    · rw [Dict.getD, reopened, lookup_assign, if_pos rfl]
      rfl
    · rw [Dict.getItem, hlookup _ (by decide) (by decide), announcement, lookup_ofList]
      rfl
    · rw [Dict.getItem, hlookup _ (by decide) (by decide), announcement, lookup_ofList]
      rfl
    · rw [Dict.getItem, hlookup _ (by decide) (by decide), announcement, lookup_ofList]
      rfl

omit [PyFloat F] [PyFloatInt F] in
theorem lookup_of_getItem {d : Dict F} {key : String} {v : Json F} (h : d.getItem key = .ok v) :
    d.lookup (.ofString key) = some v := by
  rw [Dict.getItem] at h
  split at h
  · rwa [← Except.ok.inj h]
  · cases h

/-- A browser takes an announcement for a file, with the hints of it. -/
theorem receiveInGroup_hints {message : Dict F}
    (hmessage : message.lookup (.ofString "envelope") =
      some (.obj (announcement groupId messageId epoch nonce ciphertext fileKey file)))
    (b : CryptoAgent C F) (draws : AgentDraws C) :
    receiveInGroup b draws groupId message = do
      let fileEnvelope : Except ScriptError (Value F) := do
        property (some (← parseBytes (← decryptGroup b draws groupId (some (.obj
          (announcement groupId messageId epoch nonce ciphertext fileKey file)))))) "file_envelope"
      return .file (some (.ofString fileKey)) (some (.ofString file.name))
        (some (.int file.data.length)) (fileEnvelope.toOption.join) := by
  have henvelope : property (some (.obj message)) "envelope" =
      .ok (some (.obj (announcement groupId messageId epoch nonce ciphertext fileKey file))) := by
    rw [property, hmessage]
  have href : property (some (.obj (announcement (F := F) groupId messageId epoch nonce ciphertext
      fileKey file))) "_file_ref" = .ok (some (fileRef fileKey file)) := property_ofList rfl
  have htrue : isTrue (some (fileRef (F := F) fileKey file)) = true := rfl
  have hkey : property (some (fileRef (F := F) fileKey file)) "file_key" =
      .ok (some (.ofString fileKey)) := property_ofList rfl
  have hname : property (some (fileRef (F := F) fileKey file)) "filename" =
      .ok (some (.ofString file.name)) := property_ofList rfl
  have hlength : property (some (fileRef (F := F) fileKey file)) "size" =
      .ok (some (.int file.data.length)) := property_ofList rfl
  simp only [receiveInGroup, henvelope, href, htrue, hkey, hname, hlength, bind, Except.bind,
    if_true]

/-- With the same state of the group, it has what was announced. -/
theorem receiveInGroup_announcement (hC : C.Correct)
    (hstates : b.groupStates (.ofString groupId) = a.groupStates (.ofString groupId))
    {d : Dict F} (hd : d.Canonical)
    (hseal : a.sealForGroup "vpn1 group v1" nonce (.ofString groupId) (encodeScript (.obj d)) =
      .ok (epoch, ciphertext))
    (hsize : scriptSize (.obj (Dict.ofList [("envelope", Json.obj (reopened groupId
      (announcement (F := F) groupId messageId epoch nonce ciphertext fileKey file)))])) ≤ 64000000)
    (draws : AgentDraws C) {message : Dict F}
    (hmessage : message.lookup (.ofString "envelope") =
      some (.obj (announcement groupId messageId epoch nonce ciphertext fileKey file))) :
    receiveInGroup b draws groupId message =
      .ok (.file (some (.ofString fileKey)) (some (.ofString file.name))
        (some (.int file.data.length)) (d.lookup (.ofString "file_envelope"))) := by
  have hdecrypt : decryptGroup b draws groupId
      (some (.obj (announcement groupId messageId epoch nonce ciphertext fileKey file))) =
        .ok (encodeScript (.obj d)) := by
    rw [decryptGroup, spread, ← reopened]
    refine bind_eq_ok.2
      ⟨_, askAgent_groupDecrypt (groupDecrypt_announcement hC hstates hseal) hsize, ?_⟩
    exact bind_eq_ok.2 ⟨_, property_ofList rfl, scriptUnb64_b64 _⟩
  rw [receiveInGroup_hints hmessage]
  simp only [hdecrypt, parseBytes_encodeScript hd, bind, Except.bind]
  rfl

/-- A file is opened by a member with the same state of the group. -/
theorem downloadFile_fileEnvelope (hC : C.Correct)
    (hstates : b.groupStates (.ofString groupId) = a.groupStates (.ofString groupId))
    (hseal : a.sealForGroup "vpn1 file v1" nonce (.ofString groupId) plaintext =
      .ok (epoch, ciphertext))
    (hsize : scriptSize (.obj (Dict.ofList [("envelope", Json.obj (assign
      (fileEnvelope (F := F) groupId epoch nonce ciphertext) "ciphertext" (b64 ciphertext)))])) ≤
        64000000)
    {engine : ScriptEngine} (hbytes : ciphertext.length ≤ engine.maxArguments)
    (draws : AgentDraws C) :
    downloadFile engine b draws ciphertext
      (some (.obj (fileEnvelope groupId epoch nonce ciphertext))) = .ok plaintext := by
  have hlookup : ∀ key, key ≠ "ciphertext" → List.lookup (PyStr.ofString key)
      (assign (fileEnvelope (F := F) groupId epoch nonce ciphertext) "ciphertext"
        (b64 ciphertext)) =
      List.lookup (PyStr.ofString key) (fileEnvelope (F := F) groupId epoch nonce ciphertext) :=
    fun key hkey => by rw [lookup_assign, if_neg hkey]
  have halg : (Dict.get (assign (fileEnvelope (F := F) groupId epoch nonce ciphertext) "ciphertext"
      (b64 ciphertext)) "alg").isStr "chacha20poly1305-group-file-v1" = true := by
    rw [Dict.get, hlookup _ (by decide), fileEnvelope, lookup_ofList]
    rfl
  have hopen : b.fileDecrypt (.obj (assign (fileEnvelope (F := F) groupId epoch nonce ciphertext)
      "ciphertext" (b64 ciphertext))) = .ok plaintext := by
    refine bind_eq_ok.2 ⟨_, rfl, bind_eq_ok.2 ⟨(), check_eq_ok.2 halg, ?_⟩⟩
    refine CryptoAgent.openForGroup_of_groupKey hC (CryptoAgent.groupKey_congr hstates) hseal _
      ?_ ?_ ?_ ?_
    · rw [Dict.getD, hlookup _ (by decide), fileEnvelope, lookup_ofList]
      rfl
    · rw [Dict.getItem, hlookup _ (by decide), fileEnvelope, lookup_ofList]
      rfl
    · rw [Dict.getItem, hlookup _ (by decide), fileEnvelope, lookup_ofList]
      rfl
    · rw [Dict.getItem, lookup_assign, if_pos rfl]
  refine bind_eq_ok.2 ⟨_, ScriptEngine.b64_eq_ok.2 ⟨hbytes, rfl⟩, ?_⟩
  rw [spread, openFile, if_pos halg]
  refine bind_eq_ok.2 ⟨_, askAgent_fileDecrypt hopen hsize, ?_⟩
  exact bind_eq_ok.2 ⟨_, property_ofList rfl, scriptUnb64_b64 _⟩

end

/-! ## The files that are announced -/

/-- A file is announced in a group: what the handler posts passes the check of the server, and
    the browser of a member takes it for the file, whose bytes it gets from what was uploaded. -/
def FileAnnounced (engine engine' : ScriptEngine) (a b : CryptoAgent C F) (draws : AttachDraws C)
    (draws' : AgentDraws C) (upload : Bytes → Except Exn String) (directory : List DirectoryEntry)
    (channel : ChatChannel) (groupId : String) (file : AttachedFile) : Prop :=
  ∃ attached envelope,
    attach engine a draws upload directory channel file = .ok attached ∧
      attached.body.getItem "envelope" = .ok envelope ∧
      validateGroupMessageEnvelope envelope = .ok () ∧
      ∀ message : Dict F, message.getItem "envelope" = .ok envelope → ∃ fileKey fileEnvelope,
        receiveInGroup b draws' groupId message =
            .ok (.file (some (.ofString fileKey)) (some (.ofString file.name))
              (some (.int file.data.length)) fileEnvelope) ∧
          upload attached.uploaded = .ok fileKey ∧
          downloadFile engine' b draws' attached.uploaded fileEnvelope = .ok file.data

omit [PyFloatInt F] in
/-- The server accepts an announcement within the limit. -/
theorem validateGroupMessageEnvelope_announcement {groupId messageId fileKey : String} {epoch : ℤ}
    {nonce ciphertext : Bytes} {file : AttachedFile} (hnonce : nonce.length = 12)
    (hciphertext : ciphertext.length = fileMessageSize fileKey groupId epoch file + 16) :
    validateGroupMessageEnvelope (.obj (announcement (F := F) groupId messageId epoch nonce
      ciphertext fileKey file)) = .ok () ↔
        announcementSize fileKey groupId messageId epoch file ≤ 2000000 := by
  have htruth : (Dict.get (announcement (F := F) groupId messageId epoch nonce ciphertext fileKey
      file) "ciphertext").truth = true := by
    rw [announcement, Dict.get_ofList rfl]
    refine decide_eq_true fun hnil => ?_
    have hzero := congrArg List.length hnil
    rw [List.length_map, length_b64encode, hciphertext, List.length_nil] at hzero
    omega
  rw [validateGroupMessageEnvelope, checkEnvelope_eq_ok, htruth, ← dumpsSize,
    dumpsSize_announcement hnonce hciphertext]
  exact and_iff_right rfl

omit [PyFloat F] [PyFloatInt F] in
/-- The message that announces a file is read back. -/
theorem canonical_fileMessage {fileKey groupId : String} {epoch : ℤ} {nonce ciphertext : Bytes}
    {file : AttachedFile} (hsize : file.data.length ≤ 64000000)
    (hepoch : (Nat.toDigits 10 epoch.natAbs).length ≤ Json.maxIntDigits) :
    (fileMessage fileKey file
      (some (.obj (fileEnvelope (F := F) groupId epoch nonce ciphertext)))).Canonical := by
  have hdigits : (Nat.toDigits 10 (file.data.length : ℤ).natAbs).length ≤ Json.maxIntDigits := by
    rw [Int.natAbs_natCast]
    have hlength : (Nat.toDigits 10 file.data.length).length ≤ 8 :=
      (Nat.length_toDigits_le_iff (by norm_num) (by norm_num)).2 (by omega)
    exact hlength.trans (by decide)
  have henvelope : (fileEnvelope (F := F) groupId epoch nonce ciphertext).Canonical := by
    rw [fileEnvelope]
    refine canonical_ofList fun item hitem => ?_
    simp only [List.mem_cons, List.not_mem_nil, or_false] at hitem
    rcases hitem with rfl | rfl | rfl | rfl | rfl
    · exact canonical_ofString _
    · exact canonical_ofString _
    · exact .int hepoch
    · exact canonical_b64 _
    · exact canonical_b64 _
  rw [fileMessage]
  refine canonical_ofList fun item hitem => ?_
  simp only [definedItem, Option.map_some, Option.toList_some, List.cons_append, List.nil_append,
    List.mem_cons, List.not_mem_nil, or_false] at hitem
  rcases hitem with rfl | rfl | rfl | rfl | rfl
  · exact canonical_ofString _
  · exact canonical_ofString _
  · exact canonical_ofString _
  · exact .int hdigits
  · exact henvelope

/-- A file that is uploaded is within the limit of uploads. -/
theorem length_le_of_uploadFile {tag : Except Exn String} {uuid : String} {store : Except Exn Unit}
    {data : Bytes} {fileKey : String} (h : uploadFile tag uuid store data = .ok fileKey) :
    data.length ≤ 64000000 := by
  obtain ⟨tag', -, h⟩ := bind_eq_ok.1 h
  obtain ⟨⟨⟩, hsize, -⟩ := bind_eq_ok.1 h
  exact of_decide_eq_true (check_eq_ok.1 hsize)

section

variable {groupId messageId fileKey : String} {epoch : ℤ} {nonce ciphertext plaintext : Bytes}
  {file : AttachedFile}

omit [PyFloatInt F]

/-- The request to encrypt the message that announces a file, where the announcement is within
    the limit. -/
theorem scriptSize_messageRequest_le (hplaintext : plaintext.length =
      fileMessageSize fileKey groupId epoch file)
    (hle : announcementSize fileKey groupId messageId epoch file ≤ 2000000) :
    scriptSize (.obj (messageRequest (F := F) groupId messageId plaintext)) ≤ 64000000 := by
  have hgroup := textBytes_le groupId
  have hid := textBytes_le messageId
  have hkeys : ["plaintext", "message_id", "group_id"].Nodup := by decide
  rw [messageRequest, scriptSize_ofList ?keys (List.cons_ne_nil _ _)]
  case keys => exact hkeys
  simp only [List.map_cons, List.map_nil, List.sum_cons, List.sum_nil, scriptSize_ofString,
    scriptSize_b64, hplaintext, show textBytes "plaintext" = 11 from rfl,
    show textBytes "message_id" = 12 from rfl, show textBytes "group_id" = 10 from rfl]
  rw [announcementSize, sealedSize] at hle
  omega

/-- The size of a request with one envelope. -/
theorem scriptSize_envelope (envelope : Dict F) :
    scriptSize (.obj (Dict.ofList [("envelope", Json.obj envelope)])) =
      scriptSize (.obj envelope) + 13 := by
  have hkeys : ["envelope"].Nodup := by decide
  rw [scriptSize_ofList ?keys (List.cons_ne_nil _ _)]
  case keys => exact hkeys
  simp only [List.map_cons, List.map_nil, List.sum_cons, List.sum_nil, scriptSize_ofString,
    show textBytes "envelope" = 10 from rfl]
  omega

/-- The request to open an announcement within the limit. -/
theorem scriptSize_reopened_le (hnonce : nonce.length = 12)
    (hciphertext : ciphertext.length = fileMessageSize fileKey groupId epoch file + 16)
    (hle : announcementSize fileKey groupId messageId epoch file ≤ 2000000) :
    scriptSize (.obj (Dict.ofList [("envelope", Json.obj (reopened groupId
      (announcement (F := F) groupId messageId epoch nonce ciphertext fileKey file)))])) ≤
        64000000 := by
  have hsize := scriptSize_le (.obj
    (announcement (F := F) groupId messageId epoch nonce ciphertext fileKey file))
  rw [dumpsSize_announcement hnonce hciphertext] at hsize
  have hgroup := textBytes_le groupId
  have hne : announcement (F := F) groupId messageId epoch nonce ciphertext fileKey file ≠ [] :=
    ofList_ne_nil (List.cons_ne_nil _ _)
  have hkind := scriptSize_assign_le hne "kind" (.ofString "group")
  have hassign := scriptSize_assign_le (insert_ne_nil (.ofString "kind") (.ofString "group")
    (announcement (F := F) groupId messageId epoch nonce ciphertext fileKey file)) "group_id"
    (.ofString groupId)
  rw [← assign] at hassign
  simp only [scriptSize_ofString, show textBytes "kind" = 6 from rfl,
    show textBytes "group" = 7 from rfl, show textBytes "group_id" = 10 from rfl] at hkind hassign
  rw [scriptSize_envelope, reopened]
  have hgroup' : textSize groupId ≤ announcementSize fileKey groupId messageId epoch file := by
    rw [announcementSize]
    omega
  omega

/-- The request to open a file whose announcement is within the limit. -/
theorem scriptSize_fileEnvelope_le (hnonce : nonce.length = 12)
    (hciphertext : ciphertext.length = file.data.length + 16)
    (hle : announcementSize fileKey groupId messageId epoch file ≤ 2000000) :
    scriptSize (.obj (Dict.ofList [("envelope", Json.obj (assign
      (fileEnvelope (F := F) groupId epoch nonce ciphertext) "ciphertext" (b64 ciphertext)))])) ≤
        64000000 := by
  have hne : fileEnvelope (F := F) groupId epoch nonce ciphertext ≠ [] :=
    ofList_ne_nil (List.cons_ne_nil _ _)
  have hassign := scriptSize_assign_le hne "ciphertext" (b64 ciphertext)
  rw [scriptSize_fileEnvelope hnonce hciphertext, scriptSize_ofString, scriptSize_b64,
    hciphertext, show textBytes "ciphertext" = 12 from rfl] at hassign
  rw [scriptSize_envelope]
  rw [announcementSize, sealedSize, fileMessageSize] at hle
  rw [fileEnvelopeSize, sealedSize] at hassign hle
  omega

end

section

variable {engine engine' : ScriptEngine} {a b : CryptoAgent C F} {draws : AttachDraws C}
  {tag : Except Exn String} {uuid : String} {store : Except Exn Unit}
  {directory : List DirectoryEntry} {channel : ChatChannel} {groupId : String}
  {file : AttachedFile} {v : Value F} {data : Bytes} {fileKey : String} {key : Bytes} {epoch : ℤ}

/-- The bytes of a file that is downloaded are the arguments of one call. -/
theorem length_le_of_downloadFile {encBytes data : Bytes} {draws' : AgentDraws C}
    (h : downloadFile engine b draws' encBytes v = .ok data) :
    encBytes.length ≤ engine.maxArguments := by
  obtain ⟨text, htext, -⟩ := bind_eq_ok.1 h
  exact (ScriptEngine.b64_eq_ok.1 htext).1

/-- What a file that is announced meets: the limit of the server on its announcement, and those of
    the engines on the calls that encode it. -/
theorem limits_of_fileAnnounced (hC : C.Correct) (hchannel : channel.groupId = some groupId)
    (hencrypt : encryptFile engine a draws directory channel file = .ok (v, data))
    (hupload : uploadFile tag uuid store data = .ok fileKey)
    (hkey : a.groupKey (.ofString groupId) = .ok (key, epoch)) {draws' : AgentDraws C}
    (h : FileAnnounced engine engine' a b draws draws' (uploadFile tag uuid store) directory channel
      groupId file) :
    announcementSize fileKey groupId draws.messageId epoch file ≤ 2000000 ∧
      fileMessageSize fileKey groupId epoch file ≤ engine.maxArguments ∧
      file.data.length + 16 ≤ engine'.maxArguments := by
  obtain ⟨-, -, epoch', hseal, rfl⟩ := (encryptFile_group hchannel).1 hencrypt
  obtain ⟨rfl, hdata⟩ := CryptoAgent.spec_sealForGroup hC hkey hseal
  have hattach := attach_group hchannel hencrypt hupload
  obtain ⟨attached, envelope, hattached, henvelope, hvalid, hmembers⟩ := h
  rw [hattach] at hattached
  obtain ⟨body, hbody, hattached⟩ := bind_eq_ok.1 hattached
  obtain rfl := Except.ok.inj hattached
  obtain ⟨hbytes, -, epoch, ciphertext, hseal', rfl⟩ := announceInGroup_eq_ok.1 hbody
  obtain ⟨rfl, hlength⟩ := CryptoAgent.spec_sealForGroup hC hkey hseal'
  rw [Dict.getItem_ofList rfl] at henvelope
  obtain rfl := Except.ok.inj henvelope
  obtain ⟨_, _, -, -, hdownload⟩ := hmembers (Dict.ofList [("envelope", _)])
    (Dict.getItem_ofList rfl)
  have huploaded := length_le_of_downloadFile hdownload
  rw [← scriptSize, scriptSize_fileMessage draws.file.length_nonce hdata] at hbytes hlength
  exact ⟨(validateGroupMessageEnvelope_announcement draws.message.length_nonce hlength).1 hvalid,
    hbytes, hdata ▸ huploaded⟩

/-- A file is announced where the limits are met. -/
theorem fileAnnounced_of_limits (hC : C.Correct) (hchannel : channel.groupId = some groupId)
    (hencrypt : encryptFile engine a draws directory channel file = .ok (v, data))
    (hupload : uploadFile tag uuid store data = .ok fileKey)
    (hkey : a.groupKey (.ofString groupId) = .ok (key, epoch))
    (hstates : b.groupStates (.ofString groupId) = a.groupStates (.ofString groupId))
    (draws' : AgentDraws C)
    (hle : announcementSize fileKey groupId draws.messageId epoch file ≤ 2000000)
    (hbytes : fileMessageSize fileKey groupId epoch file ≤ engine.maxArguments)
    (hdownload : file.data.length + 16 ≤ engine'.maxArguments) :
    FileAnnounced engine engine' a b draws draws' (uploadFile tag uuid store) directory channel
      groupId file := by
  obtain ⟨-, -, epoch', hseal, rfl⟩ := (encryptFile_group hchannel).1 hencrypt
  obtain ⟨rfl, hdata⟩ := CryptoAgent.spec_sealForGroup hC hkey hseal
  have hattach := attach_group hchannel hencrypt hupload
  have hmessage : (encodeScript (.obj (fileMessage fileKey file (some (.obj (fileEnvelope (F := F)
      groupId epoch' draws.file.nonce data)))))).length =
        fileMessageSize fileKey groupId epoch' file :=
    scriptSize_fileMessage draws.file.length_nonce hdata
  obtain ⟨ciphertext, hlength, hseal'⟩ := CryptoAgent.exists_sealForGroup hC hseal "vpn1 group v1"
    draws.message.nonce (encodeScript (.obj (fileMessage fileKey file (some (.obj
      (fileEnvelope (F := F) groupId epoch' draws.file.nonce data))))))
  rw [hmessage] at hlength
  have hbody := announceInGroup_eq_ok.2 ⟨hmessage.trans_le hbytes,
    scriptSize_messageRequest_le hmessage hle, epoch', ciphertext, hseal', rfl⟩
  rw [hbody] at hattach
  have haccepted := (validateGroupMessageEnvelope_announcement (F := F) draws.message.length_nonce
    hlength).2 hle
  refine ⟨_, _, hattach, Dict.getItem_ofList rfl, haccepted, fun message hreceived => ?_⟩
  obtain ⟨key', aad, -, haad, -, -⟩ := CryptoAgent.sealForGroup_eq_ok.1 hseal
  have hlimit := length_le_of_uploadFile hupload
  have hcanonical : (fileMessage fileKey file (some (.obj (fileEnvelope (F := F) groupId epoch'
      draws.file.nonce data)))).Canonical :=
    canonical_fileMessage (by omega) (groupAad_eq_ok.1 ⟨aad, haad⟩)
  refine ⟨fileKey, some (.obj (fileEnvelope groupId epoch' draws.file.nonce data)), ?_, hupload, ?_⟩
  · rw [receiveInGroup_announcement hC hstates hcanonical hseal'
      (scriptSize_reopened_le draws.message.length_nonce hlength hle) draws'
      (lookup_of_getItem hreceived), fileMessage, lookup_ofList]
    rfl
  · exact downloadFile_fileEnvelope hC hstates hseal
      (scriptSize_fileEnvelope_le draws.file.length_nonce hdata hle) (hdata ▸ hdownload) draws'

end

/-- A file that is encrypted for a group and uploaded is announced just when the announcement is
    within the limit of the server, and what the browsers encode in base64 is within those of their
    engines: the message that announces the file, and the bytes that are downloaded. -/
theorem fileAnnounced_iff (hC : C.Correct) {engine engine' : ScriptEngine} {a b : CryptoAgent C F}
    {draws : AttachDraws C} {tag : Except Exn String} {uuid : String} {store : Except Exn Unit}
    {directory : List DirectoryEntry} {channel : ChatChannel} {groupId : String}
    {file : AttachedFile} {v : Value F} {data : Bytes} {fileKey : String} {key : Bytes} {epoch : ℤ}
    (hchannel : channel.groupId = some groupId)
    (hencrypt : encryptFile engine a draws directory channel file = .ok (v, data))
    (hupload : uploadFile tag uuid store data = .ok fileKey)
    (hkey : a.groupKey (.ofString groupId) = .ok (key, epoch))
    (hstates : b.groupStates (.ofString groupId) = a.groupStates (.ofString groupId))
    (draws' : AgentDraws C) :
    FileAnnounced engine engine' a b draws draws' (uploadFile tag uuid store) directory channel
        groupId file ↔
      announcementSize fileKey groupId draws.messageId epoch file ≤ 2000000 ∧
        fileMessageSize fileKey groupId epoch file ≤ engine.maxArguments ∧
        file.data.length + 16 ≤ engine'.maxArguments :=
  ⟨limits_of_fileAnnounced hC hchannel hencrypt hupload hkey, fun ⟨hle, hbytes, hdownload⟩ =>
    fileAnnounced_of_limits hC hchannel hencrypt hupload hkey hstates draws' hle hbytes hdownload⟩

/-- A device with the key of every group. -/
def keyedAgent : CryptoAgent plainCrypto (List Char) where
  identity := ⟨(1 : UInt8), (1 : UInt8)⟩
  groupStates _ := some (Dict.ofList [("epoch", .int 1), ("key", b64 (List.replicate 32 5))])
  otherStates := []
  files _ := none

theorem groupKey_keyedAgent (groupId : PyStr) :
    keyedAgent.groupKey groupId = .ok (List.replicate 32 5, 1) := by
  have hstate : keyedAgent.groupStates groupId =
      some (Dict.ofList [("epoch", .int 1), ("key", b64 (List.replicate 32 5))]) := rfl
  rw [CryptoAgent.groupKey, hstate]
  refine (if_neg (by decide)).trans ?_
  refine bind_eq_ok.2 ⟨_, Dict.getItem_ofList rfl, bind_eq_ok.2 ⟨_, agentUnb64_b64 _, ?_⟩⟩
  exact bind_eq_ok.2 ⟨_, Dict.getItem_ofList rfl, rfl⟩

/-- What a run of the handler draws. -/
def plainAttachDraws : AttachDraws plainCrypto := ⟨plainDraws, plainDraws, "f", "m"⟩

theorem exists_upload (engine : ScriptEngine) (file : AttachedFile)
    (hbytes : file.data.length ≤ engine.maxArguments)
    (hsize : 37 + 4 * ((file.data.length + 2) / 3) ≤ 64000000) :
    ∃ v data, encryptFile engine keyedAgent plainAttachDraws [] .general file = .ok (v, data) ∧
      uploadFile (.ok "alice") "1" (.ok ()) data = .ok "uploads/alice/1" := by
  have hgeneral : ChatChannel.general.groupId = some "general" := rfl
  obtain ⟨v, data, hencrypt, hdata⟩ := exists_encryptFile plainCrypto_correct
    (groupKey_keyedAgent _) List.length_replicate (by decide) hgeneral hbytes hsize plainAttachDraws
    []
  refine ⟨v, data, hencrypt, ?_⟩
  refine bind_eq_ok.2 ⟨"alice", rfl, bind_eq_ok.2 ⟨(), check_eq_ok.2 (decide_eq_true ?_), rfl⟩⟩
  omega

/-- A file of one byte is announced. -/
theorem fileAnnounced_one : FileAnnounced ⟨65536⟩ ⟨65536⟩ keyedAgent keyedAgent plainAttachDraws
    plainDraws (uploadFile (.ok "alice") "1" (.ok ())) [] .general "general" ⟨"a", [0]⟩ := by
  obtain ⟨v, data, hencrypt, hupload⟩ := exists_upload ⟨65536⟩ ⟨"a", [0]⟩ (by decide) (by decide)
  exact (fileAnnounced_iff plainCrypto_correct rfl hencrypt hupload (groupKey_keyedAgent _) rfl
    plainDraws).2 ⟨by decide, by decide, by decide⟩

/-- A file of 60,000 bytes is encrypted and uploaded, but not announced, where a call has at most
    65,536 arguments. -/
theorem large_file_rejected :
    ∃ v data, encryptFile ⟨65536⟩ keyedAgent plainAttachDraws [] .general
        ⟨"a", List.replicate 60000 0⟩ = .ok (v, data) ∧
      uploadFile (.ok "alice") "1" (.ok ()) data = .ok "uploads/alice/1" ∧
      ¬FileAnnounced ⟨65536⟩ ⟨65536⟩ keyedAgent keyedAgent plainAttachDraws plainDraws
        (uploadFile (.ok "alice") "1" (.ok ())) [] .general "general"
        ⟨"a", List.replicate 60000 0⟩ := by
  generalize hfile : AttachedFile.mk "a" (List.replicate 60000 0) = file
  have hlength : file.data.length = 60000 := by rw [← hfile, List.length_replicate]
  obtain ⟨v, data, hencrypt, hupload⟩ := exists_upload ⟨65536⟩ file
    (hlength.trans_le (by decide)) (by omega)
  refine ⟨v, data, hencrypt, hupload, fun h => ?_⟩
  obtain ⟨-, hbytes, -⟩ := limits_of_fileAnnounced plainCrypto_correct rfl hencrypt hupload
    (groupKey_keyedAgent _) h
  rw [fileMessageSize, fileEnvelopeSize, sealedSize, hlength] at hbytes
  dsimp only at hbytes
  omega

end SecNet
