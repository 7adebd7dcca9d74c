import SecNet.Chat.Browser

/-!
# Direct messages

A direct message goes through four components: the agent of the sender makes its envelope, the
browser posts it to `/api/private`, the server checks it, stores it and pushes it, and the
agent of the recipient opens it. The agent puts the algorithm and the ciphertext into the
payload of the envelope, where its other end reads them; the server looks for them in the
envelope itself.

* `postDirectEncrypt_eq_ok`: the envelope that the agent answers with;
* `validateEnvelope_directEncrypt`: the server rejects it;
* `validateEnvelope_sendDirect`: and so what the browser posts;
* `publishPrivate_sendDirect`: every direct message is answered with an error, and nothing
  is stored;
* `not_getsThrough`: none gets through, although the recipient could open it
  (`directDecrypt_directEncrypt`).
-/

namespace SecNet

variable {C : Crypto} {F W : Type} [PyFloat F] [PyFloatInt F] [PyRepr F]

/-- A direct message gets through: what the browser posts passes the check of the server, the
    message that is stored and pushed carries its envelope, and the agent of the recipient
    opens it. -/
def GetsThrough (engine : ScriptEngine) (sender recipient : CryptoAgent C F)
    (draws draws' : AgentDraws C) (directory : List DirectoryEntry) (channel : String)
    (plaintext : Bytes) (messageId : String) (request : ChatRequest F) (s : ChatState W F) : Prop :=
  ∃ body envelope m,
    sendDirect engine sender draws directory channel plaintext messageId = .ok body ∧
      Dict.getItem body "envelope" = .ok envelope ∧ validateEnvelope envelope = .ok () ∧
      checkPrivate { request with body := .ok (.obj body) } = .ok m ∧
      Dict.getItem m.message "envelope" = .ok envelope ∧
      (m.recipient, m.message) ∈
        (publishPrivate { request with body := .ok (.obj body) } s).1.records "chat-private" ∧
      (∀ push ∈ (s.consumePrivate m.message).2.1, push.2 = payload "private" "message" m.message) ∧
      receivePrivate recipient draws' m.message = .ok (.text plaintext)

omit [PyFloatInt F] [PyRepr F] in
/-- The server rejects the envelope of a direct message: its algorithm and its ciphertext are
    in its payload. -/
theorem validateEnvelope_directEncrypt {draws : AgentDraws C} {recipientPublic plaintext : Bytes}
    {messageId : Json F} {envelope : Dict F}
    (h : directEncrypt draws recipientPublic plaintext messageId = .ok envelope) :
    validateEnvelope (.obj envelope) =
      .error (.valueError "encrypted envelope must contain alg and ciphertext") := by
  obtain ⟨payload, -, h⟩ := bind_eq_ok.1 h
  obtain rfl := Except.ok.inj h
  have halg : Dict.get (Dict.ofList [("kind", .ofString "direct"), ("message_id", messageId),
      ("payload", .obj payload)]) "alg" = .null := by
    rw [Dict.get, lookup_ofList]
    rfl
  rw [validateEnvelope, checkEnvelope, halg]
  rfl

omit [PyRepr F] in
/-- The envelope that the agent answers with. -/
theorem postDirectEncrypt_eq_ok {a : CryptoAgent C F} {draws : AgentDraws C}
    {target : DirectoryEntry} {plaintext : Bytes} {messageId : String} {v : Value F}
    (h : askAgent a draws .directEncrypt (directRequest target (b64 plaintext) messageId) =
      .ok v) :
    ∃ recipientPublic envelope,
      agentUnb64 (F := F) (.ofString target.encryptionPublicKey) = .ok recipientPublic ∧
        directEncrypt draws recipientPublic plaintext (.ofString messageId) = .ok envelope ∧
        v = some (.obj (Dict.ofList [("envelope", .obj envelope)])) := by
  obtain ⟨answer, hpost, rfl⟩ := askAgent_eq_ok.1 h
  obtain ⟨-, items, hitems, rfl⟩ := CryptoAgent.post_eq_ok.1 hpost
  obtain ⟨key, hkey, hitems⟩ := bind_eq_ok.1 hitems
  obtain ⟨recipientPublic, hpublic, hitems⟩ := bind_eq_ok.1 hitems
  obtain ⟨text, htext, hitems⟩ := bind_eq_ok.1 hitems
  obtain ⟨plaintext', hplaintext, hitems⟩ := bind_eq_ok.1 hitems
  obtain ⟨envelope, henvelope, hitems⟩ := bind_eq_ok.1 hitems
  obtain rfl := Except.ok.inj hitems
  rw [directRequest, Dict.getItem_ofList rfl] at hkey htext
  obtain rfl := Except.ok.inj hkey
  obtain rfl := Except.ok.inj htext
  obtain rfl := Except.ok.inj ((agentUnb64_b64 plaintext).symm.trans hplaintext)
  rw [directRequest, Dict.getD_ofList rfl] at henvelope
  exact ⟨recipientPublic, envelope, hpublic, henvelope, rfl⟩

omit [PyRepr F] in
/-- What the browser posts. -/
theorem sendDirect_eq_ok {engine : ScriptEngine} {a : CryptoAgent C F}
    {draws : AgentDraws C} {directory : List DirectoryEntry} {channel messageId : String}
    {plaintext : Bytes} {body : Dict F}
    (h : sendDirect engine a draws directory channel plaintext messageId = .ok body) :
    ∃ recipientPublic envelope,
      directEncrypt draws recipientPublic plaintext (.ofString (F := F) messageId) = .ok envelope ∧
        body = Dict.ofList [("recipient_tag", .ofString channel), ("envelope", .obj envelope)] := by
  obtain ⟨text, htext, h⟩ := bind_eq_ok.1 h
  obtain ⟨-, rfl⟩ := ScriptEngine.b64_eq_ok.1 htext
  split at h
  · cases h
  · obtain ⟨enc, henc, h⟩ := bind_eq_ok.1 h
    obtain ⟨recipientPublic, envelope, -, hencrypt, rfl⟩ := postDirectEncrypt_eq_ok henc
    obtain ⟨v, hv, h⟩ := bind_eq_ok.1 h
    have hv' : v = some (.obj envelope) := Except.ok.inj (hv.symm.trans (property_ofList rfl))
    subst hv'
    exact ⟨recipientPublic, envelope, hencrypt, (Except.ok.inj h).symm⟩

/-- Every direct message of an authenticated device to a known one is answered with the error
    of the check, and nothing is stored. -/
theorem publishPrivate_sendDirect {engine : ScriptEngine} {a : CryptoAgent C F}
    {draws : AgentDraws C} {directory : List DirectoryEntry} {channel messageId : String}
    {plaintext : Bytes} {body : Dict F}
    (h : sendDirect engine a draws directory channel plaintext messageId = .ok body)
    {request : ChatRequest F} {sender : String} (htag : request.tag = .ok sender)
    (hknown : (request.directory.byTag channel).isSome) (s : ChatState W F) :
    publishPrivate { request with body := .ok (.obj body) } s =
      (s, .error (.valueError "encrypted envelope must contain alg and ciphertext")) := by
  obtain ⟨recipientPublic, envelope, hencrypt, rfl⟩ := sendDirect_eq_ok h
  refine Plan.handle_of_error ?_
  exact checkPrivate_of_error htag rfl (Dict.getItem_ofList rfl) (PyStr.toText_ofString channel)
    hknown (Dict.getItem_ofList rfl) (validateEnvelope_directEncrypt hencrypt)

omit [PyRepr F] in
/-- The server rejects the envelope that the browser posts. -/
theorem validateEnvelope_sendDirect {engine : ScriptEngine} {a : CryptoAgent C F}
    {draws : AgentDraws C} {directory : List DirectoryEntry} {channel messageId : String}
    {plaintext : Bytes} {body : Dict F} {envelope : Json F}
    (hsend : sendDirect engine a draws directory channel plaintext messageId = .ok body)
    (henvelope : body.getItem "envelope" = .ok envelope) :
    validateEnvelope envelope =
      .error (.valueError "encrypted envelope must contain alg and ciphertext") := by
  obtain ⟨recipientPublic, envelope', hencrypt, rfl⟩ := sendDirect_eq_ok hsend
  rw [Dict.getItem_ofList rfl] at henvelope
  obtain rfl := Except.ok.inj henvelope
  exact validateEnvelope_directEncrypt hencrypt

/-- No direct message gets through. -/
theorem not_getsThrough (engine : ScriptEngine) (sender recipient : CryptoAgent C F)
    (draws draws' : AgentDraws C) (directory : List DirectoryEntry) (channel : String)
    (plaintext : Bytes) (messageId : String) (request : ChatRequest F) (s : ChatState W F) :
    ¬GetsThrough engine sender recipient draws draws' directory channel plaintext messageId request
      s := by
  rintro ⟨body, envelope, m, hsend, henvelope, hvalid, -⟩
  have hrejected := validateEnvelope_sendDirect hsend henvelope
  exact nomatch hvalid.symm.trans hrejected

/-- The text "hi" from alice to bob: it is encrypted and posted, but does not get through. -/
theorem direct_hi_rejected :
    (sendDirect ⟨65536⟩ (plainAgent 1) plainDraws
        [⟨"bob", b64Text (plainAgent 2).identity.directPublicKeyBytes⟩] "bob" (ascii "hi")
        "m").isOk ∧
      ¬GetsThrough ⟨65536⟩ (plainAgent 1) (plainAgent 2) plainDraws plainDraws
        [⟨"bob", b64Text (plainAgent 2).identity.directPublicKeyBytes⟩] "bob" (ascii "hi") "m"
        plainRequest (ChatState.new : ChatState Unit (List Char)) := by
  refine ⟨by decide +kernel, ?_⟩
  rintro ⟨body, envelope, m, hsend, henvelope, hvalid, -⟩
  have hrejected := validateEnvelope_sendDirect hsend henvelope
  exact nomatch hvalid.symm.trans hrejected

end SecNet
