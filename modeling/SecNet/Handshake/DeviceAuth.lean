import SecNet.Handshake.Transcript

/-!
# Device authentication

The part of `server_handshake` in which a device proves who it is. The device signs the
hash of the transcript, the two nonces, its public key and its encryption key, one after
the other, of which the nonce of the client may have any length.

* `deviceAuthMessage_injective`: all the parts can be told from what is signed;
* `readDeviceAuth_eq`, `serverHandshake_eq`: what comes before `register_or_get`, and
  what comes after it;
* `of_trace_serverBeforeRegister`: a run gets to `register_or_get` by receiving a
  hello, a Finished record, and a proof whose signature is verified for this run;
* `serverBeforeRegister_trace`: and with an honest device it gets there.
-/

namespace SecNet

variable {C : Crypto} {F : Type} [PyFloat F]

/-! ## What is signed -/

variable (C) in
/-- The message that a device signs: the binding of the session, its public key, and its
    encryption key. -/
def deviceAuthMessage (k : KeyInputs) (publicKey encryptionPublicKey : Bytes) : Bytes :=
  deviceAuthBinding C k ++ publicKey ++ encryptionPublicKey

/-- The label of the binding. -/
def deviceAuthLabel : Bytes := ascii "vpn1 device auth binding v1\x00"

theorem deviceAuthMessage_eq (k : KeyInputs) (publicKey encryptionPublicKey : Bytes) :
    deviceAuthMessage C k publicKey encryptionPublicKey =
      deviceAuthLabel ++ (k.transcriptHash C ++ (k.clientNonce ++
        (k.serverNonce ++ (publicKey ++ encryptionPublicKey)))) := by
  simp [deviceAuthMessage, deviceAuthBinding, deviceAuthLabel]

/-- The message is at least as long as its parts other than the nonce of the client. -/
theorem length_deviceAuthMessage (hsha : ∀ data, (C.sha256 data).length = 32) {k : KeyInputs}
    (hk : k.serverNonce.length = 16) {publicKey encryptionPublicKey : Bytes}
    (hpublic : publicKey.length = 32) (hencryption : encryptionPublicKey.length = 32) :
    (deviceAuthMessage C k publicKey encryptionPublicKey).length = 140 + k.clientNonce.length := by
  have hlabel : deviceAuthLabel.length = 28 := by decide
  have hhash : (k.transcriptHash C).length = 32 := hsha _
  rw [deviceAuthMessage_eq]
  simp only [List.length_append, hlabel, hhash, hk, hpublic, hencryption]
  omega

/-- All the parts can be told from the message, since only the nonce of the client, in
    the middle, may have any length. -/
theorem deviceAuthMessage_injective (hsha : ∀ data, (C.sha256 data).length = 32)
    {k k' : KeyInputs} (hk : k.serverNonce.length = 16) (hk' : k'.serverNonce.length = 16)
    {publicKey publicKey' encryptionPublicKey encryptionPublicKey' : Bytes}
    (hpublic : publicKey.length = 32) (hpublic' : publicKey'.length = 32)
    (hencryption : encryptionPublicKey.length = 32)
    (hencryption' : encryptionPublicKey'.length = 32)
    (h : deviceAuthMessage C k publicKey encryptionPublicKey =
      deviceAuthMessage C k' publicKey' encryptionPublicKey') :
    k.transcriptHash C = k'.transcriptHash C ∧ k.clientNonce = k'.clientNonce ∧
      k.serverNonce = k'.serverNonce ∧ publicKey = publicKey' ∧
      encryptionPublicKey = encryptionPublicKey' := by
  -- The parts of fixed length are taken off: from the right, and then from the left.
  obtain ⟨h, hencryption⟩ := List.append_inj' h (hencryption.trans hencryption'.symm)
  obtain ⟨h, hpublic⟩ := List.append_inj' h (hpublic.trans hpublic'.symm)
  obtain ⟨h, hserver⟩ := List.append_inj' h (hk.trans hk'.symm)
  have hhash : (k.transcriptHash C).length = (k'.transcriptHash C).length :=
    (hsha _).trans (hsha _).symm
  obtain ⟨h, hclient⟩ := List.append_inj h (by simp [hhash])
  exact ⟨List.append_cancel_left h, hclient, hserver, hpublic, hencryption⟩

/-! ## The proof of a device -/

/-- What a device sends to prove who it is. -/
structure DeviceProof where
  publicKey : Bytes
  encryptionPublicKey : Bytes
  signature : Bytes

variable (C F) in
/-- What the server does with the proof of a device, before `register_or_get`. -/
def verifyDeviceAuth (k : KeyInputs) (plaintext : Bytes) : Except Exn DeviceProof := do
  let authMessage ← decodeMessage (F := F) plaintext
  check ((authMessage.get "type").isStr "device_auth") "missing device authentication message"
  let devicePublicKey ← unb64 (← authMessage.getItem "public_key")
  -- A proof without an encryption key has the empty one, which the check rejects.
  let encryptionPublicKey ←
    unb64 ((authMessage.lookup (.ofString "encryption_public_key")).getD (.ofString ""))
  check (encryptionPublicKey.length = 32) "device encryption public key must be 32 bytes"
  let signature ← unb64 (← authMessage.getItem "signature")
  verifyDeviceSignature C devicePublicKey
    (deviceAuthMessage C k devicePublicKey encryptionPublicKey) signature
  .ok ⟨devicePublicKey, encryptionPublicKey, signature⟩

theorem verifyDeviceSignature_eq_ok {publicKeyBytes message signature : Bytes} :
    verifyDeviceSignature C publicKeyBytes message signature = .ok () ↔
      publicKeyBytes.length = 32 ∧
        C.ed25519Verify publicKeyBytes (deviceAuthContext ++ message) signature = .ok () := by
  rw [verifyDeviceSignature, bind_eq_ok]
  constructor
  · rintro ⟨⟨⟩, hcheck, hverify⟩
    exact ⟨of_decide_eq_true (check_eq_ok.1 hcheck), hverify⟩
  · rintro ⟨hlength, hverify⟩
    exact ⟨(), check_eq_ok.2 (decide_eq_true hlength), hverify⟩

/-- The proof that is accepted: the keys have 32 bytes each, and the signature is
    verified for the message of this session, under the public key. -/
theorem verifyDeviceAuth_eq_ok {k : KeyInputs} {plaintext : Bytes} {proof : DeviceProof}
    (h : verifyDeviceAuth C F k plaintext = .ok proof) :
    proof.publicKey.length = 32 ∧ proof.encryptionPublicKey.length = 32 ∧
      C.ed25519Verify proof.publicKey (deviceAuthContext ++
        deviceAuthMessage C k proof.publicKey proof.encryptionPublicKey) proof.signature =
          .ok () := by
  obtain ⟨authMessage, -, h⟩ := bind_eq_ok.1 h
  obtain ⟨⟨⟩, -, h⟩ := bind_eq_ok.1 h
  obtain ⟨_, -, h⟩ := bind_eq_ok.1 h
  obtain ⟨devicePublicKey, -, h⟩ := bind_eq_ok.1 h
  obtain ⟨encryptionPublicKey, -, h⟩ := bind_eq_ok.1 h
  obtain ⟨⟨⟩, hencryption, h⟩ := bind_eq_ok.1 h
  obtain ⟨_, -, h⟩ := bind_eq_ok.1 h
  obtain ⟨signature, -, h⟩ := bind_eq_ok.1 h
  obtain ⟨⟨⟩, hverify, hproof⟩ := bind_eq_ok.1 h
  obtain rfl := Except.ok.inj hproof
  obtain ⟨hpublic, hverify⟩ := verifyDeviceSignature_eq_ok.1 hverify
  exact ⟨hpublic, of_decide_eq_true (check_eq_ok.1 hencryption), hverify⟩

/-- The server verifies the proof, and then registers the device. -/
theorem readDeviceAuth_eq (registerOrGet : Bytes → Bytes → Except Exn String) (k : KeyInputs)
    (plaintext : Bytes) : readDeviceAuth C F registerOrGet k plaintext =
      (verifyDeviceAuth C F k plaintext >>= fun proof =>
        registerOrGet proof.publicKey proof.encryptionPublicKey >>= fun deviceTag =>
          .ok (proof.publicKey, deviceTag)) := by
  rw [readDeviceAuth, verifyDeviceAuth]
  simp only [bind_assoc]
  rfl

/-! ## Before and after the registration -/

/-- What a run has when it calls `register_or_get`. -/
structure Registering (F : Type) where
  answer : Answer F
  keys : KeyInputs
  sendCipher : SessionCipher
  receiveCipher : SessionCipher
  proof : DeviceProof

variable (F) in
/-- `server_handshake`, up to the call of `register_or_get`. -/
def serverBeforeRegister (s : ServerEnd C) : Conn (Registering F) := do
  let clientHelloBytes ← Conn.recvFrame
  let answer : Answer F ← answerHello s clientHelloBytes
  let serverHelloBytes := encodeMessage answer.serverHello
  Conn.sendFrame serverHelloBytes
  let clientNonce ← unb64 (← answer.clientHello.getItem "client_nonce")
  let k : KeyInputs :=
    ⟨answer.shared, clientNonce, s.nonce, clientHelloBytes ++ serverHelloBytes⟩
  let (clientToServer, serverToClient) := deriveSessionKeys C k
  let sendCipher ← SessionCipher.init C.aead serverToClient answer.cipher
  let receiveCipher ← SessionCipher.init C.aead clientToServer answer.cipher
  let sendCipher ← Conn.sendRecord sendCipher (finished (k.transcriptHash C))
  let (plaintext, receiveCipher) ← Conn.recvRecord receiveCipher
  check (plaintext = finished (k.transcriptHash C)) "client Finished verification failed"
  let (plaintext, receiveCipher) ← Conn.recvRecord receiveCipher
  let proof ← verifyDeviceAuth C F k plaintext
  pure ⟨answer, k, sendCipher, receiveCipher, proof⟩

/-- `server_handshake`, with the tag that `register_or_get` has returned. -/
def serverAfterRegister (s : ServerEnd C) (r : Registering F) (deviceTag : String) :
    Conn (Session F) := do
  let sendCipher ←
    Conn.sendRecord r.sendCipher (encodeMessage (F := F) (deviceAuthOk deviceTag))
  serverSession s r.answer
    (sendCipher, r.receiveCipher, .ofString deviceTag, some r.proof.publicKey)

/-- A server with a directory calls `register_or_get` between the two. -/
theorem serverHandshake_eq {s : ServerEnd C} {registerOrGet : Bytes → Bytes → Except Exn String}
    (hs : s.registerOrGet = some registerOrGet) :
    serverHandshake F s = (serverBeforeRegister F s >>= fun r =>
      Process.lift (registerOrGet r.proof.publicKey r.proof.encryptionPublicKey) >>=
        serverAfterRegister s r) := by
  rw [serverHandshake, serverBeforeRegister, Process.bind_assoc]
  refine bind_congr fun clientHelloBytes => ?_
  rw [Process.bind_assoc]
  refine bind_congr fun answer => ?_
  rw [Process.bind_assoc]
  refine bind_congr fun _ => ?_
  rw [Process.bind_assoc]
  refine bind_congr fun encoded => ?_
  rw [Process.bind_assoc]
  refine bind_congr fun clientNonce => ?_
  dsimp only
  generalize KeyInputs.mk _ _ _ _ = k
  rw [Process.bind_assoc]
  refine bind_congr fun sendCipher => ?_
  rw [Process.bind_assoc]
  refine bind_congr fun receiveCipher => ?_
  rw [Process.bind_assoc]
  refine bind_congr fun sendCipher => ?_
  rw [serverAfterFinished, Process.bind_assoc]
  refine bind_congr fun finish => ?_
  dsimp only
  rw [Process.bind_assoc]
  refine bind_congr fun _ => ?_
  rw [serverDeviceAuth, hs, Process.bind_assoc, Process.bind_assoc]
  refine bind_congr fun auth => ?_
  dsimp only
  rw [readDeviceAuth_eq]
  change (Process.lift (_ >>= _) >>= _) >>= _ = (Process.lift _ >>= _) >>= _
  simp only [Process.lift_bind, Process.bind_assoc]
  refine bind_congr fun proof => ?_
  simp only [Process.lift_ok, Process.ret_bind, Process.pure_bind]
  refine bind_congr fun deviceTag => ?_
  rw [serverAfterRegister]

/-- A run that gets to `register_or_get` has received a hello, the Finished record of its
    keys, and a proof that is verified for them. -/
theorem of_trace_serverBeforeRegister {s : ServerEnd C} {r : Registering F} {xs ys : List Bytes}
    (h : (serverBeforeRegister F s).Trace xs ys (.ret r)) :
    ∃ clientHelloBytes finish auth receiveCipher plaintext,
      xs = [clientHelloBytes, finish, auth] ∧ s.keyInputs F clientHelloBytes = .ok r.keys ∧
      SessionCipher.init C.aead (deriveSessionKeys C r.keys).1 r.answer.cipher =
        .ok receiveCipher ∧
      (receiveCipher.decrypt finish).1 = .ok (finished (r.keys.transcriptHash C)) ∧
      ((receiveCipher.decrypt finish).2.decrypt auth).1 = .ok plaintext ∧
      verifyDeviceAuth C F r.keys plaintext = .ok r.proof := by
  have hret (r : Registering F) : ¬ Process.Raised (.ret r : Conn (Registering F)) :=
    Process.not_raised_ret r
  rw [serverBeforeRegister, Conn.recvFrame_bind] at h
  obtain ⟨clientHelloBytes, xs₁, hxs, h⟩ := h.of_recv_ret
  obtain ⟨answer, hanswer, h⟩ := h.of_lift fun _ _ => hret r
  simp only [Conn.sendFrame_bind] at h
  obtain ⟨frame, -, h⟩ := h.of_lift fun _ _ => hret r
  obtain ⟨ys₁, -, h⟩ := h.of_send_ret
  obtain ⟨encoded, hencoded, h⟩ := h.of_lift fun _ _ => hret r
  obtain ⟨clientNonce, hnonce, h⟩ := h.of_lift fun _ _ => hret r
  obtain ⟨sendCipher, -, h⟩ := h.of_lift fun _ _ => hret r
  obtain ⟨receiveCipher, hreceive, h⟩ := h.of_lift fun _ _ => hret r
  rw [Conn.sendRecord_bind] at h
  obtain ⟨record, -, h⟩ := h.of_lift fun _ _ => hret r
  rw [Conn.sendFrame_bind] at h
  obtain ⟨frame, -, h⟩ := h.of_lift fun _ _ => hret r
  obtain ⟨ys₂, -, h⟩ := h.of_send_ret
  rw [Conn.recvRecord_bind] at h
  obtain ⟨finish, xs₂, hxs₁, h⟩ := h.of_recv_ret
  obtain ⟨plaintext, hfinish, h⟩ := h.of_lift fun _ _ => hret r
  obtain ⟨_, hcheck, h⟩ := h.of_lift fun _ _ => hret r
  have hcheck := of_decide_eq_true (check_eq_ok.1 hcheck)
  rw [Conn.recvRecord_bind] at h
  obtain ⟨auth, xs₃, hxs₂, h⟩ := h.of_recv_ret
  obtain ⟨message, hauth, h⟩ := h.of_lift fun _ _ => hret r
  obtain ⟨proof, hproof, h⟩ := h.of_lift fun _ _ => hret r
  obtain ⟨hxs₃, -, rfl⟩ := h.of_ret
  refine ⟨clientHelloBytes, finish, auth, receiveCipher, message,
    by rw [hxs, hxs₁, hxs₂, hxs₃], ?_, hreceive,
    hfinish.trans (congrArg Except.ok hcheck), hauth, hproof⟩
  have hanswer : answerHello s clientHelloBytes = .ok answer := hanswer
  rw [ServerEnd.keyInputs, hanswer]
  exact bind_eq_ok.2 ⟨_, rfl, bind_eq_ok.2 ⟨_, hencoded, bind_eq_ok.2 ⟨_, hnonce, rfl⟩⟩⟩

/-! ## A device gets there -/

/-- The server takes the proof of a device as it was written. -/
theorem verifyDeviceAuth_deviceAuth (hC : C.Correct) (d : DeviceIdentity C) (k : KeyInputs) :
    ∃ proof, verifyDeviceAuth C F k (encodeMessage (F := F) (deviceAuth d k)) = .ok proof ∧
      proof.publicKey = d.publicKeyBytes ∧
      proof.encryptionPublicKey = d.directPublicKeyBytes := by
  -- The keys of the proof are those with which the device is registered.
  let registerOrGet (publicKey encryptionPublicKey : Bytes) : Except Exn String :=
    if publicKey = d.publicKeyBytes ∧ encryptionPublicKey = d.directPublicKeyBytes then .ok ""
    else .error .binasciiError
  have hregister : registerOrGet d.publicKeyBytes d.directPublicKeyBytes = .ok "" :=
    if_pos ⟨rfl, rfl⟩
  have hread := readDeviceAuth_deviceAuth (F := F) hC (k := k) hregister
  rw [readDeviceAuth_eq] at hread
  obtain ⟨proof, hproof, h⟩ := bind_eq_ok.1 hread
  obtain ⟨tag, htag, -⟩ := bind_eq_ok.1 h
  by_cases hkeys : proof.publicKey = d.publicKeyBytes ∧
      proof.encryptionPublicKey = d.directPublicKeyBytes
  · exact ⟨proof, hproof, hkeys⟩
  · rw [show registerOrGet _ _ = _ from if_neg hkeys] at htag
    cases htag

/-- The run of the server with a client that proves who it is, up to `register_or_get`. -/
theorem serverBeforeRegister_trace (hC : C.Correct) {c : ClientEnd C} {s : ServerEnd C}
    (h : Compatible c s) (d : DeviceIdentity C) :
    ∃ xs ys r, (serverBeforeRegister F s).Trace xs ys (.ret r) ∧
      (∀ x ∈ xs, x.length ≤ maxFrameSize) ∧ r.proof.publicKey = d.publicKeyBytes ∧
      r.proof.encryptionPublicKey = d.directPublicKeyBytes := by
  obtain ⟨payload, reply, shared, -, hresponse, -, hhello, hhello'⟩ := h.exists_hellos (F := F) hC
  obtain ⟨a, ha, hinit⟩ := init_of_mem hC h.cipher
  have hanswer :=
    answerHello_clientHello h (decodeMessage_encodeMessage hhello.canonical) hresponse
  have hnonce : (clientHello c payload).getItem "client_nonce" = .ok (b64 c.nonce) :=
    Dict.getItem_ofList rfl
  have hlength := hhello.length_le
  generalize encodeMessage (clientHello c payload) = clientHelloBytes at hanswer hlength
  generalize clientHello c payload = message at hanswer hnonce
  generalize serverHello s c.keyExchange c.cipher reply = hello at hanswer hhello'
  generalize hk : (⟨shared, c.nonce, s.nonce, clientHelloBytes ++ encodeMessage hello⟩ :
    KeyInputs) = k
  obtain ⟨hreceive, hsend⟩ := length_deriveSessionKeys hC k
  rcases hkeys : deriveSessionKeys C k with ⟨receiveKey, sendKey⟩
  rw [hkeys] at hsend hreceive
  have hauth := frameable_deviceAuth (F := F) hC d k
  obtain ⟨proof, hproof, hpublic, hencryption⟩ := verifyDeviceAuth_deviceAuth (F := F) hC d k
  refine ⟨[clientHelloBytes,
    SessionCipher.record a receiveKey 0 (finished (k.transcriptHash C)),
    SessionCipher.record a receiveKey 1 (encodeMessage (F := F) (deviceAuth d k))],
    [frameOf (encodeMessage hello),
      frameOf (SessionCipher.record a sendKey 0 (finished (k.transcriptHash C)))],
    ⟨⟨message, c.keyExchange, c.cipher, shared, hello⟩, k, ⟨a, sendKey, 1, 0⟩,
      ⟨a, receiveKey, 0, 2⟩, proof⟩, ?_, ?_, hpublic, hencryption⟩
  · refine Conn.trace_recvFrame ?_
    refine Conn.trace_lift hanswer ?_
    refine Conn.trace_sendFrame hhello'.length_le ?_
    refine Conn.trace_lift hnonce ?_
    refine Conn.trace_lift (unb64_b64 c.nonce) ?_
    simp only [hk, hkeys]
    refine Conn.trace_lift (hinit sendKey hsend) ?_
    refine Conn.trace_lift (hinit receiveKey hreceive) ?_
    refine Conn.trace_sendRecord (c := .new a sendKey) ha (by norm_num [SessionCipher.new])
      (fits_finished hC k) ?_
    refine Conn.trace_recvRecord (c := .new a receiveKey) ha (by norm_num [SessionCipher.new]) ?_
    refine Conn.trace_lift (check_eq_ok.2 (decide_eq_true rfl)) ?_
    refine Conn.trace_recvRecord (c := ⟨a, receiveKey, 0, 1⟩) ha (by norm_num) ?_
    exact Conn.trace_lift hproof (.nil _)
  · intro x hx
    simp only [List.mem_cons, List.not_mem_nil, or_false] at hx
    rcases hx with rfl | rfl | rfl
    · exact hlength
    · exact (length_record_le ha 0 _).2 (fits_finished hC k)
    · exact (length_record_le ha 1 _).2 hauth.fits

/-- A device for concrete runs. -/
def plainDevice : DeviceIdentity plainCrypto := ⟨(5 : UInt8), (6 : UInt8)⟩

end SecNet
