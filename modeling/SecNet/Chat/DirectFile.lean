import SecNet.Chat.DirectMessage

/-!
# Files in direct messages

A file for a device is encrypted with `direct_encrypt`, like a message. The handler of the
browser looks for the ciphertext in the envelope, where the agent has put it into the payload:
what it converts to bytes is `undefined`, and it throws before anything is uploaded or posted.

* `attach_dm`: the handler throws, whatever the agent and the upload do;
* `attach_dm_of_envelope`: where the agent encrypts, for want of a ciphertext;
* `downloadFile_announceDirect`: nor could the recipient open what the handler would post;
* `not_fileArrives`: no file gets through.
-/

namespace SecNet

variable {C : Crypto} {F : Type} [PyFloat F] [PyFloatInt F]

/-- A file gets through to a device: the handler posts its announcement, which the recipient
    takes for a file, and the bytes that were uploaded open to those of the file. -/
def FileArrives (engine engine' : ScriptEngine) (sender recipient : CryptoAgent C F)
    (draws : AttachDraws C) (draws' : AgentDraws C) (upload : Bytes → Except Exn String)
    (directory : List DirectoryEntry) (tag : String) (file : AttachedFile) : Prop :=
  ∃ attached envelope fileKey,
    attach engine sender draws upload directory (.dm tag) file = .ok attached ∧
      attached.body.getItem "envelope" = .ok envelope ∧
      upload attached.uploaded = .ok fileKey ∧
      (∀ message : Dict F, message.getItem "envelope" = .ok envelope →
        receivePrivate recipient draws' message =
          .ok (.file (some (.ofString fileKey)) (some (.ofString file.name))
            (some (.int file.data.length)) (some envelope))) ∧
      downloadFile engine' recipient draws' attached.uploaded (some envelope) = .ok file.data

omit [PyFloat F] [PyFloatInt F] in
/-- The envelope of the agent has none of what its payload has. -/
theorem lookup_directEncrypt {draws : AgentDraws C} {recipientPublic plaintext : Bytes}
    {messageId : Json F} {envelope : Dict F}
    (h : directEncrypt draws recipientPublic plaintext messageId = .ok envelope) {key : String}
    (hkey : key ∈ ["alg", "ephemeral_public", "nonce", "ciphertext"]) :
    List.lookup (PyStr.ofString key) envelope = none := by
  obtain ⟨payload, -, h⟩ := bind_eq_ok.1 h
  obtain rfl := Except.ok.inj h
  rw [lookup_ofList]
  simp only [List.mem_cons, List.not_mem_nil, or_false] at hkey
  rcases hkey with rfl | rfl | rfl | rfl <;> rfl

omit [PyFloat F] [PyFloatInt F] in
/-- The envelope of the agent has no ciphertext. -/
theorem property_directEncrypt {draws : AgentDraws C} {recipientPublic plaintext : Bytes}
    {messageId : Json F} {envelope : Dict F}
    (h : directEncrypt draws recipientPublic plaintext messageId = .ok envelope) :
    property (some (.obj envelope)) "ciphertext" = .ok none := by
  exact congrArg _ (lookup_directEncrypt h (by decide))

/-- Where the agent encrypts, the handler throws for want of a ciphertext, before it uploads. -/
theorem attach_dm_of_envelope {engine : ScriptEngine} {a : CryptoAgent C F} {draws : AttachDraws C}
    {directory : List DirectoryEntry} {tag : String} {target : DirectoryEntry} {file : AttachedFile}
    {v : Value F} (htarget : directory.find? (·.deviceTag = tag) = some target)
    (hb64 : engine.b64 file.data = .ok (b64 (F := F) file.data))
    (henc : askAgent a draws.file .directEncrypt
      (directRequest target (b64 file.data) draws.fileMessageId) = .ok v)
    (upload : Bytes → Except Exn String) :
    attach engine a draws upload directory (.dm tag) file = .error .invalidCharacterError := by
  obtain ⟨recipientPublic, envelope, -, hencrypt, rfl⟩ := postDirectEncrypt_eq_ok henc
  have henvelope : property (some (.obj (Dict.ofList [("envelope", Json.obj envelope)])))
      "envelope" = .ok (some (.obj envelope)) := property_ofList rfl
  simp only [attach, encryptFile, htarget, hb64, henc, henvelope, property_directEncrypt hencrypt,
    scriptUnb64_undefined, bind, Except.bind]

/-- The handler throws, whatever the agent and the upload do. -/
theorem attach_dm (engine : ScriptEngine) (a : CryptoAgent C F) (draws : AttachDraws C)
    (upload : Bytes → Except Exn String) (directory : List DirectoryEntry) (tag : String)
    (file : AttachedFile) :
    ∃ e, attach engine a draws upload directory (.dm tag) file = .error e := by
  rcases htarget : directory.find? (·.deviceTag = tag) with _ | target
  · refine ⟨.error "recipient not found", ?_⟩
    simp only [attach, encryptFile, htarget, bind, Except.bind]
  rcases hb64 : engine.b64 (F := F) file.data with e | text
  · refine ⟨e, ?_⟩
    simp only [attach, encryptFile, htarget, hb64, bind, Except.bind]
  obtain ⟨-, rfl⟩ := ScriptEngine.b64_eq_ok.1 hb64
  rcases henc : askAgent a draws.file .directEncrypt
      (directRequest target (b64 file.data) draws.fileMessageId) with e | v
  · refine ⟨e, ?_⟩
    simp only [attach, encryptFile, htarget, hb64, henc, bind, Except.bind]
  · exact ⟨_, attach_dm_of_envelope htarget hb64 henc upload⟩

/-- No file is opened from an envelope that has no ephemeral key, and is not of a group. -/
theorem openFile_ne_ok {envelope : Dict F}
    (halg : (envelope.get "alg").isStr "chacha20poly1305-group-file-v1" = false)
    (hkey : envelope.lookup (.ofString "ephemeral_public") = none) (a : CryptoAgent C F)
    (draws : AgentDraws C) (data : Bytes) : openFile a draws envelope ≠ .ok data := by
  intro hopen
  rw [openFile, if_neg (Bool.eq_false_iff.1 halg)] at hopen
  split_ifs at hopen
  obtain ⟨dec, hdec, -⟩ := bind_eq_ok.1 hopen
  obtain ⟨answer, hpost, rfl⟩ := askAgent_eq_ok.1 hdec
  obtain ⟨-, items, hitems, -⟩ := CryptoAgent.post_eq_ok.1 hpost
  obtain ⟨v, hv, hitems⟩ := bind_eq_ok.1 hitems
  obtain ⟨plaintext, hplaintext, -⟩ := bind_eq_ok.1 hitems
  rw [Dict.getItem_ofList rfl] at hv
  obtain rfl := Except.ok.inj hv
  obtain ⟨_, ⟨⟩, hplaintext⟩ := bind_eq_ok.1 hplaintext
  obtain ⟨-, -, hplaintext⟩ := bind_eq_ok.1 hplaintext
  obtain ⟨payload, hpayload, hdirect⟩ := bind_eq_ok.1 hplaintext
  rw [Dict.getItem_ofList rfl] at hpayload
  obtain rfl := Except.ok.inj hpayload
  -- The first thing that is read of the payload is not there.
  obtain ⟨ephemeral, hephemeral, -⟩ := bind_eq_ok.1 hdirect
  rw [Json.getItem, Dict.getItem, hkey] at hephemeral
  cases hephemeral

/-- What the handler would post of the envelope could not be opened: the device that it is for
    looks for the ephemeral key in the envelope, too. -/
theorem downloadFile_announceDirect {draws : AgentDraws C} {recipientPublic plaintext : Bytes}
    {messageId : Json F} {envelope body : Dict F} {posted : Json F} {tag fileKey : String}
    {file : AttachedFile}
    (hencrypt : directEncrypt draws recipientPublic plaintext messageId = .ok envelope)
    (hbody : announceDirect tag fileKey file (some (.obj envelope)) = .ok body)
    (hposted : body.getItem "envelope" = .ok posted) (engine : ScriptEngine)
    (recipient : CryptoAgent C F) (draws' : AgentDraws C) (encBytes data : Bytes) :
    downloadFile engine recipient draws' encBytes (some posted) ≠ .ok data := by
  have hproperty : property (some (.obj envelope)) "alg" = .ok none :=
    congrArg _ (lookup_directEncrypt hencrypt (by decide))
  simp only [announceDirect, hproperty, bind, Except.bind, pure, Except.pure, isTrue, spread,
    Bool.false_eq_true, if_false, Option.getD_some] at hbody
  obtain rfl := Except.ok.inj hbody
  rw [Dict.getItem_ofList rfl] at hposted
  obtain rfl := Except.ok.inj hposted
  intro hdownload
  obtain ⟨text, -, hopen⟩ := bind_eq_ok.1 hdownload
  rw [spread] at hopen
  refine openFile_ne_ok ?_ ?_ recipient draws' data hopen
  · rw [Dict.get, lookup_assign, if_neg (by decide), lookup_assign, if_neg (by decide),
      lookup_assign, if_neg (by decide), lookup_assign, if_pos rfl]
    rfl
  · rw [lookup_assign, if_neg (by decide), lookup_assign, if_neg (by decide), lookup_assign,
      if_neg (by decide), lookup_assign, if_neg (by decide)]
    exact lookup_directEncrypt hencrypt (by decide)

/-- No file gets through. -/
theorem not_fileArrives (engine engine' : ScriptEngine) (sender recipient : CryptoAgent C F)
    (draws : AttachDraws C) (draws' : AgentDraws C) (upload : Bytes → Except Exn String)
    (directory : List DirectoryEntry) (tag : String) (file : AttachedFile) :
    ¬FileArrives engine engine' sender recipient draws draws' upload directory tag file := by
  rintro ⟨attached, envelope, fileKey, hattach, -⟩
  obtain ⟨e, he⟩ := attach_dm engine sender draws upload directory tag file
  exact nomatch hattach.symm.trans he

/-- A file for bob: the agent encrypts it, but the handler throws before it uploads it. -/
theorem direct_file_rejected :
    (askAgent (plainAgent 1) plainDraws .directEncrypt (directRequest
        ⟨"bob", b64Text (plainAgent 2).identity.directPublicKeyBytes⟩ (b64 (ascii "hi"))
        "f")).isOk ∧
      ¬FileArrives ⟨65536⟩ ⟨65536⟩ (plainAgent 1) (plainAgent 2) ⟨plainDraws, plainDraws, "f", "m"⟩
        plainDraws
        (uploadFile (.ok "alice") "1" (.ok ()))
        [⟨"bob", b64Text (plainAgent 2).identity.directPublicKeyBytes⟩] "bob"
        ⟨"a", ascii "hi"⟩ := by
  refine ⟨by decide +kernel, ?_⟩
  rintro ⟨attached, envelope, fileKey, hattach, -⟩
  obtain ⟨e, he⟩ := attach_dm ⟨65536⟩ (plainAgent 1) ⟨plainDraws, plainDraws, "f", "m"⟩
    (uploadFile (.ok "alice") "1" (.ok ()))
    [⟨"bob", b64Text (plainAgent 2).identity.directPublicKeyBytes⟩] "bob" ⟨"a", ascii "hi"⟩
  exact nomatch hattach.symm.trans he

end SecNet
