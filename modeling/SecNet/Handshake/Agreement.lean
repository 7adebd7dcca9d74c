import SecNet.Handshake.Handshake
import SecNet.Framing.Reader

/-!
# Two honest ends agree

A client and a server with settings that go together (`Compatible`) run their
handshakes against each other on a connection that nobody changes. In whatever
order they take their steps, both return, and their sessions agree:

* `sendRecord_bind`, `recvRecord_bind`: what a process does with a record;
* `answerHello_clientHello`, `readServerHello_serverHello`: what each end makes of
  the hello of the other, so that both get the same inputs of their keys;
* `clientHandshake_trace`, `serverHandshake_trace`: what each end sends and
  receives until it returns;
* `handshake_agreement`: so every run of the two comes to the end where both
  have returned, with the same keys and counters and the same description of the
  session, and the next record in each direction is accepted.
-/

namespace SecNet

variable {C : Crypto} {F : Type} [PyFloat F]

/-! ## Sending and receiving -/

namespace Conn

variable {R R' : Type}

theorem sendFrame_bind (data : Bytes) (f : Unit → Conn R) :
    (sendFrame data >>= f) =
      (Process.lift (SecNet.sendFrame data) >>= fun b => .send b (f ())) := by
  rw [sendFrame]
  rcases SecNet.sendFrame data with e | b
  · rfl
  · rfl

theorem recvFrame_bind (f : Bytes → Conn R) : (recvFrame >>= f) = .recv f := rfl

/-- What a process does with its next packet. -/
theorem sendRecord_bind (c : SessionCipher) (plaintext : Bytes) (f : SessionCipher → Conn R) :
    (sendRecord c plaintext >>= f) =
      (Process.lift (c.encrypt plaintext).1 >>= fun record =>
        sendFrame record >>= fun _ => f (c.encrypt plaintext).2) := by
  rw [sendRecord]
  rcases hc : c.encrypt plaintext with ⟨e | record, c'⟩
  · rfl
  · change ((sendFrame record >>= fun _ => pure c') >>= f) = _
    rw [sendFrame_bind, Process.lift_ok, Process.ret_bind, sendFrame_bind]
    rcases SecNet.sendFrame record with e | b
    · rfl
    · rfl

/-- What it does with the record that it receives next. -/
theorem recvRecord_bind (c : SessionCipher) (f : Bytes × SessionCipher → Conn R) :
    (recvRecord c >>= f) = .recv fun record =>
      Process.lift (c.decrypt record).1 >>= fun plaintext =>
        f (plaintext, (c.decrypt record).2) := by
  refine congrArg Process.recv (funext fun record => ?_)
  change ((Process.lift (c.decrypt record).1 >>= fun plaintext =>
    pure (plaintext, (c.decrypt record).2)) >>= f) = _
  rcases (c.decrypt record).1 with e | plaintext
  · rfl
  · rfl

variable {f : R → Conn R'} {p : Conn R'} {xs ys : List Bytes}

/-- A run goes through a computation. -/
theorem trace_lift {x : Except Exn R} {r : R} (hx : x = .ok r)
    (h : (f r).Trace xs ys p) : (Process.lift x >>= f).Trace xs ys p := by
  rw [hx]
  exact h

theorem trace_recvFrame {f : Bytes → Conn R'} {data : Bytes} (h : (f data).Trace xs ys p) :
    (recvFrame >>= f).Trace (data :: xs) ys p := .recv h

theorem trace_sendFrame {f : Unit → Conn R'} {data : Bytes} (hdata : data.length ≤ maxFrameSize)
    (h : (f ()).Trace xs ys p) : (sendFrame data >>= f).Trace xs (frameOf data :: ys) p := by
  rw [sendFrame_bind]
  exact trace_lift (sendFrame_of_le hdata) (.send h)

/-- A run that sends the next record. -/
theorem trace_sendRecord {f : SessionCipher → Conn R'} {c : SessionCipher} {plaintext : Bytes}
    (hc : c.aead.Correct) (hseq : c.sendSequence < 2 ^ 64) (hfits : Fits plaintext)
    (h : (f { c with sendSequence := c.sendSequence + 1 }).Trace xs ys p) :
    (sendRecord c plaintext >>= f).Trace xs
      (frameOf (SessionCipher.record c.aead c.key c.sendSequence plaintext) :: ys) p := by
  rw [sendRecord_bind, SessionCipher.encrypt_of_lt hseq]
  exact trace_sendFrame ((length_record_le hc c.sendSequence plaintext).2 hfits) h

/-- A run that receives the next record. -/
theorem trace_recvRecord {f : Bytes × SessionCipher → Conn R'} {c : SessionCipher}
    {plaintext : Bytes} (hc : c.aead.Correct) (hseq : c.receiveSequence < 2 ^ 64)
    (h : (f (plaintext, { c with receiveSequence := c.receiveSequence + 1 })).Trace xs ys p) :
    (recvRecord c >>= f).Trace
      (SessionCipher.record c.aead c.key c.receiveSequence plaintext :: xs) ys p := by
  rw [recvRecord_bind]
  refine .recv ?_
  rw [SessionCipher.decrypt_record hc hseq plaintext]
  exact h

end Conn

omit [PyFloat F] in
/-- A choice that is among the choices. -/
theorem validateChoice_of_mem {name : String} {choices : List String} (h : name ∈ choices)
    (label : String) : validateChoice (F := F) (.ofString name) choices label = .ok name := by
  have hstr : ∀ choice, (Json.ofString (F := F) name).isStr choice = true ↔ name = choice := by
    intro choice
    rw [Json.ofString, Json.isStr, decide_eq_true_eq]
    exact ⟨ofString_injective, congrArg _⟩
  rcases hfind : choices.find? fun choice => (Json.ofString (F := F) name).isStr choice with _ | x
  · rw [List.find?_eq_none] at hfind
    exact absurd ((hstr name).2 rfl) (hfind name h)
  · rw [validateChoice, hfind, (hstr x).1 (List.find?_some hfind)]

/-! ## Settings that go together -/

/-- The settings of two ends that can make a session: a key exchange that both
    have, a cipher that is supported, a server that lets the client choose or has
    made the same choice, and a device on the one end and a directory on the other,
    or neither. -/
structure Compatible (c : ClientEnd C) (s : ServerEnd C) : Prop where
  keyExchange_client : c.keyExchange ∈ availableKeyExchanges c.mlKemAvailable
  keyExchange_server : c.keyExchange ∈ availableKeyExchanges s.mlKemAvailable
  cipher : c.cipher ∈ supportedCiphers
  keyExchange_setting : s.keyExchange = "auto" ∨ s.keyExchange = c.keyExchange
  cipher_setting : s.cipher = "auto" ∨ s.cipher = c.cipher
  device : c.deviceIdentity.isSome = s.registerOrGet.isSome
  /-- The directory returns a tag that is not empty, and short enough for a frame. -/
  register : ∀ registerOrGet ∈ s.registerOrGet, ∀ key encryptionKey, ∃ tag,
    registerOrGet key encryptionKey = .ok tag ∧ tag ≠ "" ∧ tag.length ≤ 65536
  /-- The address is short enough for a frame. -/
  vpnIp : s.vpnIp.length ≤ 65536

/-! ## The hellos -/

theorem mem_keyExchanges {name : String} {b : Bool} (h : name ∈ availableKeyExchanges b) :
    name ∈ keyExchanges := by
  rw [availableKeyExchanges] at h
  split_ifs at h
  · exact h
  · exact List.mem_of_mem_filter h

theorem length_le_of_mem {name : String} (h : name ∈ keyExchanges ++ supportedCiphers) :
    name.length ≤ 17 := by
  have hall : ∀ n ∈ keyExchanges ++ supportedCiphers, n.length ≤ 17 := by decide
  exact hall name h

/-- A message that is read back, and that has a frame, also in a record. -/
structure Dict.Frameable (d : Dict F) : Prop where
  canonical : d.Canonical
  fits : Fits (encodeMessage d)

theorem frameable_ofList {items : List (String × Json F)}
    (hcanonical : ∀ item ∈ items, Json.Canonical item.2)
    (hlen : (items.map fun i => 12 * i.1.length + (Json.dumps i.2).length + 4).sum ≤ 1048568) :
    (Dict.ofList items).Frameable where
  canonical := canonical_ofList hcanonical
  fits := by
    have hencode := length_encodeMessage_le (Dict.ofList items)
    have hofList := length_dumps_ofList_le items
    rw [Fits, maxFrameSize]
    omega

theorem Dict.Frameable.length_le {d : Dict F} (h : d.Frameable) :
    (encodeMessage d).length ≤ maxFrameSize :=
  le_trans (Nat.le_add_right _ 24) h.fits

theorem length_dumps_protocolVersion :
    (Json.dumps (.int (F := F) protocolVersion)).length = 1 := rfl

theorem frameable_clientHello {c : ClientEnd C} {payload : Dict F}
    (hkx : c.keyExchange ∈ keyExchanges) (hcipher : c.cipher ∈ supportedCiphers)
    (hpayload : payload.Sendable) : (clientHello c payload).Frameable := by
  refine frameable_ofList ?_ ?_
  · simp only [List.forall_mem_cons]
    exact ⟨canonical_ofString _, .int (by decide), canonical_ofString _, canonical_ofString _,
      canonical_b64 _, hpayload.canonical, nofun⟩
  · have htype := length_dumps_ofString_le (F := F) "client_hello"
    have hversion := length_dumps_protocolVersion (F := F)
    have hk := length_dumps_ofString_le (F := F) c.keyExchange
    have hk' := length_le_of_mem (List.mem_append_left supportedCiphers hkx)
    have hc := length_dumps_ofString_le (F := F) c.cipher
    have hc' := length_le_of_mem (List.mem_append_right keyExchanges hcipher)
    have hnonce := length_dumps_b64_le (F := F) c.nonce
    have hnonce' := c.length_nonce
    have hlen := hpayload.length_le
    have hkeys : "type".length = 4 ∧ "version".length = 7 ∧ "key_exchange".length = 12 ∧
      "cipher".length = 6 ∧ "client_nonce".length = 12 ∧ "key_payload".length = 11 ∧
      "client_hello".length = 12 := by decide
    simp only [List.map_cons, List.map_nil, List.sum_cons, List.sum_nil]
    omega

theorem frameable_serverHello {s : ServerEnd C} {keyExchange cipher : String} {payload : Dict F}
    (hkx : keyExchange ∈ keyExchanges) (hcipher : cipher ∈ supportedCiphers)
    (hip : s.vpnIp.length ≤ 65536) (hpayload : payload.Sendable) :
    (serverHello s keyExchange cipher payload).Frameable := by
  refine frameable_ofList ?_ ?_
  · simp only [List.forall_mem_cons]
    exact ⟨canonical_ofString _, .int (by decide), canonical_ofString _, canonical_ofString _,
      canonical_b64 _, canonical_ofString _, hpayload.canonical, nofun⟩
  · have htype := length_dumps_ofString_le (F := F) "server_hello"
    have hversion := length_dumps_protocolVersion (F := F)
    have hk := length_dumps_ofString_le (F := F) keyExchange
    have hk' := length_le_of_mem (List.mem_append_left supportedCiphers hkx)
    have hc := length_dumps_ofString_le (F := F) cipher
    have hc' := length_le_of_mem (List.mem_append_right keyExchanges hcipher)
    have hnonce := length_dumps_b64_le (F := F) s.nonce
    have hnonce' := s.length_nonce
    have hip' := length_dumps_ofString_le (F := F) s.vpnIp
    have hlen := hpayload.length_le
    have hkeys : "type".length = 4 ∧ "version".length = 7 ∧ "key_exchange".length = 12 ∧
      "cipher".length = 6 ∧ "server_nonce".length = 12 ∧ "vpn_ip".length = 6 ∧
      "key_payload".length = 11 ∧ "server_hello".length = 12 := by decide
    simp only [List.map_cons, List.map_nil, List.sum_cons, List.sum_nil]
    omega

theorem frameable_deviceAuth (hC : C.Correct) (d : DeviceIdentity C) (k : KeyInputs) :
    (deviceAuth (F := F) d k).Frameable := by
  refine frameable_ofList ?_ ?_
  · simp only [List.forall_mem_cons]
    exact ⟨canonical_ofString _, canonical_b64 _, canonical_b64 _, canonical_b64 _, nofun⟩
  · have htype := length_dumps_ofString_le (F := F) "device_auth"
    have hpublic := length_dumps_b64_le (F := F) d.publicKeyBytes
    have hpublic' : d.publicKeyBytes.length = 32 := hC.length_ed25519Public _
    have hdirect := length_dumps_b64_le (F := F) d.directPublicKeyBytes
    have hdirect' : d.directPublicKeyBytes.length = 32 := hC.length_x25519Public _
    have hsign := length_dumps_b64_le (F := F)
      (d.sign (deviceAuthBinding C k ++ d.publicKeyBytes ++ d.directPublicKeyBytes))
    rw [DeviceIdentity.sign, hC.length_ed25519Sign, ← DeviceIdentity.sign] at hsign
    have hkeys : "type".length = 4 ∧ "public_key".length = 10 ∧
      "encryption_public_key".length = 21 ∧ "signature".length = 9 ∧
      "device_auth".length = 11 := by decide
    simp only [List.map_cons, List.map_nil, List.sum_cons, List.sum_nil]
    omega

theorem frameable_deviceAuthOk {tag : String} (htag : tag.length ≤ 65536) :
    (deviceAuthOk (F := F) tag).Frameable := by
  refine frameable_ofList ?_ ?_
  · simp only [List.forall_mem_cons]
    exact ⟨canonical_ofString _, canonical_ofString _, nofun⟩
  · have htype := length_dumps_ofString_le (F := F) "device_auth_ok"
    have htag' := length_dumps_ofString_le (F := F) tag
    have hkeys : "type".length = 4 ∧ "device_tag".length = 10 ∧
      "device_auth_ok".length = 14 := by decide
    simp only [List.map_cons, List.map_nil, List.sum_cons, List.sum_nil]
    omega

/-- The server reads the hello of the client. -/
theorem answerHello_clientHello {c : ClientEnd C} {s : ServerEnd C} (h : Compatible c s)
    {payload reply : Dict F} {shared clientHelloBytes : Bytes}
    (hdecode : decodeMessage clientHelloBytes = .ok (clientHello c payload))
    (hresponse : serverKeyExchangeResponse C s.mlKemAvailable s.ephemeral c.keyExchange
      (.obj payload) = .ok (shared, reply)) :
    answerHello s clientHelloBytes =
      .ok ⟨clientHello c payload, c.keyExchange, c.cipher, shared,
        serverHello s c.keyExchange c.cipher reply⟩ := by
  have htype : (clientHello c payload).get "type" = .ofString "client_hello" := Dict.get_ofList rfl
  have hversion : (clientHello c payload).get "version" = .int protocolVersion :=
    Dict.get_ofList rfl
  have hkx : (clientHello c payload).get "key_exchange" = .ofString c.keyExchange :=
    Dict.get_ofList rfl
  have hcipher : (clientHello c payload).get "cipher" = .ofString c.cipher := Dict.get_ofList rfl
  have hpayload : (clientHello c payload).getItem "key_payload" = .ok (.obj payload) :=
    Dict.getItem_ofList rfl
  rw [answerHello, hdecode]
  simp [htype, hversion, hkx, hcipher, hpayload, isStr_ofString, Json.isInt, check,
    validateChoice_of_mem (mem_keyExchanges h.keyExchange_client), validateChoice_of_mem h.cipher,
    h.keyExchange_server, h.keyExchange_setting, h.cipher_setting, hresponse, bind, Except.bind]

/-- The client reads the hello of the server. -/
theorem readServerHello_serverHello {c : ClientEnd C} {s : ServerEnd C}
    {payload reply : Dict F} {shared serverHelloBytes : Bytes}
    (hdecode : decodeMessage serverHelloBytes =
      .ok (serverHello s c.keyExchange c.cipher reply))
    (hfinish :
      clientKeyExchangeFinish C c.keyExchange c.ephemeral payload (.obj reply) = .ok shared)
    (clientHelloBytes : Bytes) :
    readServerHello c payload clientHelloBytes serverHelloBytes =
      .ok (serverHello s c.keyExchange c.cipher reply,
        ⟨shared, c.nonce, s.nonce, clientHelloBytes ++ serverHelloBytes⟩) := by
  generalize hs : serverHello s c.keyExchange c.cipher reply = hello at hdecode
  have htype : hello.get "type" = .ofString "server_hello" := hs ▸ Dict.get_ofList rfl
  have hversion : hello.get "version" = .int protocolVersion := hs ▸ Dict.get_ofList rfl
  have hkx : hello.get "key_exchange" = .ofString c.keyExchange := hs ▸ Dict.get_ofList rfl
  have hcipher : hello.get "cipher" = .ofString c.cipher := hs ▸ Dict.get_ofList rfl
  have hnonce : hello.getItem "server_nonce" = .ok (b64 s.nonce) := hs ▸ Dict.getItem_ofList rfl
  have hpayload : hello.getItem "key_payload" = .ok (.obj reply) := hs ▸ Dict.getItem_ofList rfl
  rw [readServerHello, hdecode]
  simp [htype, hversion, hkx, hcipher, hnonce, hpayload, isStr_ofString, Json.isInt, check,
    unb64_b64, hfinish, bind, Except.bind]

/-! ## Keys -/

theorem length_deriveSessionKeys (hC : C.Correct) (k : KeyInputs) :
    (deriveSessionKeys C k).1.length = 32 ∧ (deriveSessionKeys C k).2.length = 32 := by
  have hlen := hC.length_hkdf 64
    (some (C.sha256 (ascii "vpn session salt v1" ++ k.clientNonce ++ k.serverNonce)))
    (ascii "vpn session keys v1" ++ k.transcriptHash C) k.shared (by norm_num)
  constructor
  · rw [deriveSessionKeys, List.length_take, hlen]
    rfl
  · rw [deriveSessionKeys, List.length_drop, hlen]

/-- A supported cipher is an AEAD. -/
theorem init_of_mem (hC : C.Correct) {cipher : String} (h : cipher ∈ supportedCiphers) :
    ∃ a : Aead, a.Correct ∧ ∀ key : Bytes, key.length = 32 →
      SessionCipher.init C.aead key cipher = .ok (.new a key) := by
  have hmake : ∃ a : Aead, a.Correct ∧ ∀ key : Bytes, key.length = 32 →
      makeAead C.aead cipher key = .ok a := by
    simp only [supportedCiphers, List.mem_cons, List.not_mem_nil, or_false] at h
    rcases h with rfl | rfl
    · exact ⟨C.aead.aesGcm, hC.aesGcm, fun key hkey => by
        rw [makeAead, if_neg (not_not.2 hkey)]
        rfl⟩
    · exact ⟨C.aead.chaCha20Poly1305, hC.chaCha20Poly1305,
        fun key hkey => by rw [makeAead, if_neg (not_not.2 hkey)]; rfl⟩
  obtain ⟨a, ha, hmake⟩ := hmake
  refine ⟨a, ha, fun key hkey => ?_⟩
  rw [SessionCipher.init, hmake key hkey]
  rfl

theorem fits_finished (hC : C.Correct) (k : KeyInputs) : Fits (finished (k.transcriptHash C)) := by
  have hhash : (k.transcriptHash C).length = 32 := hC.length_sha256 _
  rw [Fits, finished, List.length_append, hhash]
  decide

/-! ## The proof of a device -/

/-- The server reads the proof of a device as it was written, and accepts it. -/
theorem readDeviceAuth_deviceAuth (hC : C.Correct)
    {registerOrGet : Bytes → Bytes → Except Exn String}
    {d : DeviceIdentity C} {k : KeyInputs} {tag : String}
    (htag : registerOrGet d.publicKeyBytes d.directPublicKeyBytes = .ok tag) :
    readDeviceAuth C F registerOrGet k (encodeMessage (F := F) (deviceAuth d k)) =
      .ok (d.publicKeyBytes, tag) := by
  have hdirect : d.directPublicKeyBytes.length = 32 := hC.length_x25519Public _
  have hpublic : d.publicKeyBytes.length = 32 := hC.length_ed25519Public _
  have hdecode := decodeMessage_encodeMessage (frameable_deviceAuth (F := F) hC d k).canonical
  generalize hm : deviceAuth (F := F) d k = message at hdecode
  have htype : message.get "type" = .ofString "device_auth" := hm ▸ Dict.get_ofList rfl
  have hkey : message.getItem "public_key" = .ok (b64 d.publicKeyBytes) :=
    hm ▸ Dict.getItem_ofList rfl
  have hencryption : (message.lookup (.ofString "encryption_public_key")).getD (.ofString "") =
      b64 d.directPublicKeyBytes := by
    rw [← hm, deviceAuth, lookup_ofList]
    rfl
  have hsignature : message.getItem "signature" =
      .ok (b64 (d.sign (deviceAuthBinding C k ++ d.publicKeyBytes ++ d.directPublicKeyBytes))) :=
    hm ▸ Dict.getItem_ofList rfl
  have hverify : verifyDeviceSignature C d.publicKeyBytes
      (deviceAuthBinding C k ++ d.publicKeyBytes ++ d.directPublicKeyBytes)
      (d.sign (deviceAuthBinding C k ++ d.publicKeyBytes ++ d.directPublicKeyBytes)) = .ok () := by
    rw [verifyDeviceSignature, check_eq_ok.2 (decide_eq_true hpublic)]
    exact hC.verify_sign _ _
  rw [readDeviceAuth, hdecode]
  simp [-List.append_assoc, htype, hkey, hencryption, hsignature, isStr_ofString, check, unb64_b64,
    hdirect, hverify, htag, bind, Except.bind]

/-- The client reads that it has been accepted, and its tag. -/
theorem decode_deviceAuthOk {tag : String} (htag : tag ≠ "") (hlen : tag.length ≤ 65536) :
    ∃ message : Dict F, decodeMessage (encodeMessage (F := F) (deviceAuthOk tag)) = .ok message ∧
      ((message.get "type").isStr "device_auth_ok" && (message.get "device_tag").truth) = true ∧
      message.getItem "device_tag" = .ok (.ofString tag) := by
  refine ⟨deviceAuthOk tag,
    decodeMessage_encodeMessage (frameable_deviceAuthOk hlen).canonical, ?_, ?_⟩
  · have htype : (deviceAuthOk (F := F) tag).get "type" = .ofString "device_auth_ok" :=
      Dict.get_ofList rfl
    have htruth : ((deviceAuthOk (F := F) tag).get "device_tag").truth = true := by
      have hget : (deviceAuthOk (F := F) tag).get "device_tag" = .ofString tag :=
        Dict.get_ofList rfl
      rw [hget, Json.ofString, Json.truth, decide_eq_true_eq]
      intro hnil
      exact htag (ofString_injective hnil)
    rw [htype, htruth, isStr_ofString]
    rfl
  · exact Dict.getItem_ofList rfl

/-- A device, with the tag that the directory has for it, if there is one. -/
abbrev Tagged (C : Crypto) := Option (DeviceIdentity C × String)

/-- The records of the proof of a device. -/
def authRecords (F : Type) [PyFloat F] (a : Aead) (key : Bytes) (k : KeyInputs) :
    Tagged C → List Bytes
  | none => []
  | some (d, _) => [SessionCipher.record a key 1 (encodeMessage (F := F) (deviceAuth d k))]

/-- The records of the answer to it. -/
def ackRecords (F : Type) [PyFloat F] (a : Aead) (key : Bytes) : Tagged C → List Bytes
  | none => []
  | some (_, tag) => [SessionCipher.record a key 1 (encodeMessage (F := F) (deviceAuthOk tag))]

/-- The tag of a device, in a session. -/
def tagOf (F : Type) : Tagged C → Json F
  | none => .null
  | some (_, tag) => .ofString tag

/-- The public key of a device, in a session. -/
def publicKeyOf (device : Tagged C) : Option Bytes := device.map fun d => d.1.publicKeyBytes

/-- How many records each end has sent at the end of the handshake. -/
def recordsOf : Tagged C → ℕ
  | none => 1
  | some _ => 2

/-- The session of an end, with its two keys. -/
def sessionOf (F : Type) (a : Aead) (sendKey receiveKey : Bytes) (cipher keyExchange vpnIp : String)
    (device : Tagged C) : Session F where
  sendCipher := ⟨a, sendKey, recordsOf device, 0⟩
  receiveCipher := ⟨a, receiveKey, 0, recordsOf device⟩
  cipher := cipher
  keyExchange := keyExchange
  vpnIp := .ofString vpnIp
  deviceTag := tagOf F device
  devicePublicKey := publicKeyOf device

/-! ## What each end sends and receives -/

/-- The proof of a device, at the client. -/
theorem clientDeviceAuth_trace (hC : C.Correct) {a : Aead} (ha : a.Correct) {c : ClientEnd C}
    {device : Tagged C} (hdevice : c.deviceIdentity = device.map Prod.fst)
    (htag : ∀ d ∈ device, d.2 ≠ "" ∧ d.2.length ≤ 65536) (k : KeyInputs)
    (sendKey receiveKey : Bytes) :
    ∃ p, (clientDeviceAuth F c k ⟨a, sendKey, 1, 0⟩ ⟨a, receiveKey, 0, 1⟩).Trace []
        ((authRecords F a sendKey k device).map frameOf) p ∧
      p.Trace (ackRecords F a receiveKey device) []
        (.ret (⟨a, sendKey, recordsOf device, 0⟩, ⟨a, receiveKey, 0, recordsOf device⟩,
          tagOf F device, publicKeyOf device)) := by
  rcases device with _ | ⟨d, tag⟩
  · rw [clientDeviceAuth, hdevice]
    exact ⟨_, .nil _, .nil _⟩
  · obtain ⟨htag, hlen⟩ := htag _ rfl
    obtain ⟨message, hdecode, haccepted, hget⟩ := decode_deviceAuthOk (F := F) htag hlen
    have hauth := frameable_deviceAuth (F := F) hC d k
    rw [clientDeviceAuth, hdevice]
    refine ⟨_, Conn.trace_sendRecord (c := ⟨a, sendKey, 1, 0⟩) ha (by norm_num) hauth.fits
      (.nil _), ?_⟩
    refine Conn.trace_recvRecord (c := ⟨a, receiveKey, 0, 1⟩) ha (by norm_num) ?_
    refine Conn.trace_lift hdecode ?_
    refine Conn.trace_lift (check_eq_ok.2 haccepted) ?_
    exact Conn.trace_lift hget (.nil _)

/-- The proof of a device, at the server. -/
theorem serverDeviceAuth_trace (hC : C.Correct) {a : Aead} (ha : a.Correct) {s : ServerEnd C}
    {device : Tagged C} (hdirectory : device = none → s.registerOrGet = none)
    (hregister : ∀ d ∈ device, d.2.length ≤ 65536 ∧ ∃ registerOrGet,
      s.registerOrGet = some registerOrGet ∧
        registerOrGet d.1.publicKeyBytes d.1.directPublicKeyBytes = .ok d.2)
    (k : KeyInputs) (sendKey receiveKey : Bytes) :
    (serverDeviceAuth F s k ⟨a, sendKey, 1, 0⟩ ⟨a, receiveKey, 0, 1⟩).Trace
      (authRecords F a receiveKey k device) ((ackRecords F a sendKey device).map frameOf)
      (.ret (⟨a, sendKey, recordsOf device, 0⟩, ⟨a, receiveKey, 0, recordsOf device⟩,
        tagOf F device, publicKeyOf device)) := by
  rcases device with _ | ⟨d, tag⟩
  · rw [serverDeviceAuth, hdirectory rfl]
    exact .nil _
  · obtain ⟨hlen, registerOrGet, hsome, htag⟩ := hregister _ rfl
    have hack := frameable_deviceAuthOk (F := F) hlen
    rw [serverDeviceAuth, hsome]
    refine Conn.trace_recvRecord (c := ⟨a, receiveKey, 0, 1⟩) ha (by norm_num) ?_
    refine Conn.trace_lift (readDeviceAuth_deviceAuth hC htag) ?_
    exact Conn.trace_sendRecord (c := ⟨a, sendKey, 1, 0⟩) ha (by norm_num) hack.fits (.nil _)

/-- The run of the client, up to its hello, to its proof, and to the end. -/
theorem clientHandshake_trace (hC : C.Correct) {a : Aead} (ha : a.Correct) {c : ClientEnd C}
    (hinit : ∀ key : Bytes, key.length = 32 →
      SessionCipher.init C.aead key c.cipher = .ok (.new a key))
    (hkx : c.keyExchange ∈ keyExchanges) (hcipher : c.cipher ∈ supportedCiphers)
    {payload hello : Dict F} {k : KeyInputs} {serverHelloBytes : Bytes} {vpnIp : String}
    (hpayload : clientKeyExchangeInit C c.mlKemAvailable c.ephemeral c.keyExchange = .ok payload)
    (hframe : (clientHello c payload).Frameable)
    (hread : readServerHello c payload (encodeMessage (clientHello c payload)) serverHelloBytes =
      .ok (hello, k))
    (hip : hello.getItem "vpn_ip" = .ok (.ofString vpnIp)) {device : Tagged C}
    (hdevice : c.deviceIdentity = device.map Prod.fst)
    (htag : ∀ d ∈ device, d.2 ≠ "" ∧ d.2.length ≤ 65536) {sendKey receiveKey : Bytes}
    (hkeys : deriveSessionKeys C k = (sendKey, receiveKey)) :
    ∃ p₁ p₂, (clientHandshake F c).Trace []
        ([encodeMessage (clientHello c payload)].map frameOf) p₁ ∧
      p₁.Trace
        [serverHelloBytes, SessionCipher.record a receiveKey 0 (finished (k.transcriptHash C))]
        ((SessionCipher.record a sendKey 0 (finished (k.transcriptHash C)) ::
          authRecords F a sendKey k device).map frameOf) p₂ ∧
      p₂.Trace (ackRecords F a receiveKey device) []
        (.ret (sessionOf F a sendKey receiveKey c.cipher c.keyExchange vpnIp device)) := by
  obtain ⟨hsend, hreceive⟩ := length_deriveSessionKeys hC k
  rw [hkeys] at hsend hreceive
  obtain ⟨p, hauth, hack⟩ := clientDeviceAuth_trace (F := F) hC ha hdevice htag k sendKey receiveKey
  refine ⟨clientAfterHello c payload (encodeMessage (clientHello c payload)),
    p >>= clientSession c hello, ?_, ?_, ?_⟩
  · rw [clientHandshake]
    refine Conn.trace_lift (validateChoice_of_mem hkx _) ?_
    refine Conn.trace_lift (validateChoice_of_mem hcipher _) ?_
    refine Conn.trace_lift hpayload ?_
    exact Conn.trace_sendFrame hframe.length_le (.nil _)
  · refine Conn.trace_recvFrame ?_
    refine Conn.trace_lift hread ?_
    simp only [hkeys]
    refine Conn.trace_lift (hinit sendKey hsend) ?_
    refine Conn.trace_lift (hinit receiveKey hreceive) ?_
    refine Conn.trace_recvRecord (c := .new a receiveKey) ha (by norm_num [SessionCipher.new]) ?_
    refine Conn.trace_lift (check_eq_ok.2 (decide_eq_true rfl)) ?_
    exact Conn.trace_sendRecord (c := .new a sendKey) ha (by norm_num [SessionCipher.new])
      (fits_finished hC k) (hauth.bind _)
  · have hreturn := hack.bind (clientSession c hello)
    rw [Process.ret_bind, clientSession, hip] at hreturn
    exact hreturn

/-- The run of the server, up to its Finished record, and to the end. -/
theorem serverHandshake_trace (hC : C.Correct) {a : Aead} (ha : a.Correct) {s : ServerEnd C}
    {message reply : Dict F} {keyExchange cipher : String}
    {shared clientNonce clientHelloBytes : Bytes}
    (hinit : ∀ key : Bytes, key.length = 32 →
      SessionCipher.init C.aead key cipher = .ok (.new a key))
    (hanswer : answerHello s clientHelloBytes = .ok ⟨message, keyExchange, cipher, shared, reply⟩)
    (hframe : reply.Frameable)
    (hnonce : message.getItem "client_nonce" = .ok (b64 clientNonce))
    {k : KeyInputs}
    (hk : ⟨shared, clientNonce, s.nonce, clientHelloBytes ++ encodeMessage reply⟩ = k)
    {device : Tagged C} (hdirectory : device = none → s.registerOrGet = none)
    (hregister : ∀ d ∈ device, d.2.length ≤ 65536 ∧ ∃ registerOrGet,
      s.registerOrGet = some registerOrGet ∧
        registerOrGet d.1.publicKeyBytes d.1.directPublicKeyBytes = .ok d.2)
    {sendKey receiveKey : Bytes} (hkeys : deriveSessionKeys C k = (receiveKey, sendKey)) :
    ∃ p, (serverHandshake F s).Trace [clientHelloBytes]
        ([encodeMessage reply,
          SessionCipher.record a sendKey 0 (finished (k.transcriptHash C))].map frameOf) p ∧
      p.Trace (SessionCipher.record a receiveKey 0 (finished (k.transcriptHash C)) ::
          authRecords F a receiveKey k device) ((ackRecords F a sendKey device).map frameOf)
        (.ret (sessionOf F a sendKey receiveKey cipher keyExchange s.vpnIp device)) := by
  obtain ⟨hreceive, hsend⟩ := length_deriveSessionKeys hC k
  rw [hkeys] at hsend hreceive
  have hauth := serverDeviceAuth_trace (F := F) hC ha hdirectory hregister k sendKey receiveKey
  refine ⟨serverAfterFinished s ⟨message, keyExchange, cipher, shared, reply⟩ k
    ⟨a, sendKey, 1, 0⟩ (.new a receiveKey), ?_, ?_⟩
  · refine Conn.trace_recvFrame ?_
    refine Conn.trace_lift hanswer ?_
    refine Conn.trace_sendFrame hframe.length_le ?_
    refine Conn.trace_lift hnonce ?_
    refine Conn.trace_lift (unb64_b64 clientNonce) ?_
    simp only [hk, hkeys]
    refine Conn.trace_lift (hinit sendKey hsend) ?_
    refine Conn.trace_lift (hinit receiveKey hreceive) ?_
    exact Conn.trace_sendRecord (c := .new a sendKey) ha (by norm_num [SessionCipher.new])
      (fits_finished hC k) (.nil _)
  · refine Conn.trace_recvRecord (c := .new a receiveKey) ha (by norm_num [SessionCipher.new]) ?_
    refine Conn.trace_lift (check_eq_ok.2 (decide_eq_true rfl)) ?_
    have hreturn := hauth.bind (serverSession s ⟨message, keyExchange, cipher, shared, reply⟩)
    rw [Process.ret_bind, serverSession] at hreturn
    exact hreturn

/-! ## Agreement -/

/-- A sender and a receiver of one direction: the same key, and the next number
    sent is the next one expected. -/
structure SessionCipher.Matches (sender receiver : SessionCipher) : Prop where
  aead : sender.aead = receiver.aead
  key : sender.key = receiver.key
  sequence : sender.sendSequence = receiver.receiveSequence

/-- The next record of the sender is accepted, with its packet. -/
def SessionCipher.Accepts (receiver sender : SessionCipher) (packet : Bytes) : Prop :=
  ∃ record, (sender.encrypt packet).1 = .ok record ∧ (receiver.decrypt record).1 = .ok packet

theorem SessionCipher.Matches.accepts {sender receiver : SessionCipher}
    (h : sender.Matches receiver) (ha : sender.aead.Correct) (hseq : sender.sendSequence < 2 ^ 64)
    (packet : Bytes) : receiver.Accepts sender packet := by
  refine ⟨_, congrArg Prod.fst (SessionCipher.encrypt_of_lt hseq packet), ?_⟩
  rw [h.aead, h.key, h.sequence,
    SessionCipher.decrypt_record (h.aead ▸ ha) (h.sequence ▸ hseq) packet]

/-- Two sessions, of the two ends of a connection, that agree. -/
structure Session.Agree (client server : Session F) : Prop where
  toServer : client.sendCipher.Matches server.receiveCipher
  toClient : server.sendCipher.Matches client.receiveCipher
  cipher : client.cipher = server.cipher
  keyExchange : client.keyExchange = server.keyExchange
  vpnIp : client.vpnIp = server.vpnIp
  deviceTag : client.deviceTag = server.deviceTag
  devicePublicKey : client.devicePublicKey = server.devicePublicKey

/-- The device of a client, with the tag that the directory has for it. -/
theorem Compatible.exists_tagged {c : ClientEnd C} {s : ServerEnd C} (h : Compatible c s) :
    ∃ device : Tagged C, c.deviceIdentity = device.map Prod.fst ∧
      (device = none → s.registerOrGet = none) ∧
      ∀ d ∈ device, (d.2 ≠ "" ∧ d.2.length ≤ 65536) ∧ ∃ registerOrGet,
        s.registerOrGet = some registerOrGet ∧
          registerOrGet d.1.publicKeyBytes d.1.directPublicKeyBytes = .ok d.2 := by
  have hdevice := h.device
  rcases hc : c.deviceIdentity with _ | d
  · rw [hc] at hdevice
    exact ⟨none, rfl, fun _ => Option.not_isSome_iff_eq_none.1 (ne_true_of_eq_false hdevice.symm),
      nofun⟩
  · rw [hc] at hdevice
    obtain ⟨registerOrGet, hs⟩ := Option.isSome_iff_exists.1 hdevice.symm
    obtain ⟨tag, htag, hne, hlen⟩ :=
      h.register registerOrGet hs d.publicKeyBytes d.directPublicKeyBytes
    refine ⟨some (d, tag), rfl, nofun, ?_⟩
    rintro _ ⟨rfl⟩
    exact ⟨⟨hne, hlen⟩, registerOrGet, hs, htag⟩

/-- The hellos of two ends that can make a session: their key exchanges agree on a secret,
    and they can be framed. -/
theorem Compatible.exists_hellos (hC : C.Correct) {c : ClientEnd C} {s : ServerEnd C}
    (h : Compatible c s) : ∃ (payload reply : Dict F) (shared : Bytes),
      clientKeyExchangeInit C c.mlKemAvailable c.ephemeral c.keyExchange = .ok payload ∧
      serverKeyExchangeResponse C s.mlKemAvailable s.ephemeral c.keyExchange (.obj payload) =
        .ok (shared, reply) ∧
      clientKeyExchangeFinish C c.keyExchange c.ephemeral payload (.obj reply) = .ok shared ∧
      (clientHello c payload).Frameable ∧
      (serverHello s c.keyExchange c.cipher reply).Frameable := by
  have hkx := mem_keyExchanges h.keyExchange_client
  obtain ⟨payload, reply, shared, hpayload, hresponse, hfinish, hsend, hsend'⟩ :=
    KeyExchange.agree (F := F) hC c.ephemeral s.ephemeral h.keyExchange_client h.keyExchange_server
  exact ⟨payload, reply, shared, hpayload, hresponse, hfinish,
    frameable_clientHello hkx h.cipher hsend, frameable_serverHello hkx h.cipher h.vpnIp hsend'⟩

/-- Every frame of the dialogue fits. -/
theorem dialogue_length_le (hC : C.Correct) {a : Aead} (ha : a.Correct) {device : Tagged C}
    (k : KeyInputs) (toServer toClient : Bytes) (hdevice : ∀ d ∈ device, d.2.length ≤ 65536)
    {clientHelloBytes serverHelloBytes : Bytes} (hclient : clientHelloBytes.length ≤ maxFrameSize)
    (hserver : serverHelloBytes.length ≤ maxFrameSize) :
    ∀ x ∈ [clientHelloBytes] ++
      [serverHelloBytes, SessionCipher.record a toClient 0 (finished (k.transcriptHash C))] ++
      (SessionCipher.record a toServer 0 (finished (k.transcriptHash C)) ::
        authRecords F a toServer k device) ++ ackRecords F a toClient device,
      x.length ≤ maxFrameSize := by
  have hfits : ∀ key n p, Fits p → (SessionCipher.record a key n p).length ≤ maxFrameSize :=
    fun key n p => (length_record_le ha n p).2
  intro x hx
  simp only [List.mem_append, List.mem_cons, List.not_mem_nil, or_false] at hx
  rcases hx with ((rfl | rfl | rfl) | rfl | hx) | hx
  · exact hclient
  · exact hserver
  · exact hfits _ _ _ (fits_finished hC k)
  · exact hfits _ _ _ (fits_finished hC k)
  · rcases device with _ | ⟨d, tag⟩
    · cases hx
    · obtain rfl := List.mem_singleton.1 hx
      exact hfits _ _ _ (frameable_deviceAuth hC d k).fits
  · rcases device with _ | ⟨d, tag⟩
    · cases hx
    · obtain rfl := List.mem_singleton.1 hx
      exact hfits _ _ _ (frameable_deviceAuthOk (hdevice _ rfl)).fits

/-- Two honest ends agree: in whatever order they take their steps, both return,
    with nothing left on the connection, and with sessions of the same keys,
    counters, names, address and device, so that the next record in each
    direction is accepted. -/
theorem handshake_agreement (hC : C.Correct) {c : ClientEnd C} {s : ServerEnd C}
    (h : Compatible c s) :
    ∃ client server : Session F,
      (Duplex.system frames (clientHandshake F c) (serverHandshake F s)).CompletesAt
        (.start (clientHandshake F c) (serverHandshake F s))
        ⟨.ret client, .ret server, [], []⟩ ∧
      client.Agree server ∧
      ∀ packet, server.receiveCipher.Accepts client.sendCipher packet ∧
        client.receiveCipher.Accepts server.sendCipher packet := by
  have hkx := mem_keyExchanges h.keyExchange_client
  obtain ⟨payload, reply, shared, hpayload, hresponse, hfinish, hhello, hhello'⟩ :=
    h.exists_hellos (F := F) hC
  obtain ⟨a, ha, hinit⟩ := init_of_mem hC h.cipher
  obtain ⟨device, hdevice, hdirectory, hregister⟩ := h.exists_tagged
  have hanswer :=
    answerHello_clientHello h (decodeMessage_encodeMessage hhello.canonical) hresponse
  have hread := readServerHello_serverHello (decodeMessage_encodeMessage hhello'.canonical) hfinish
    (encodeMessage (clientHello c payload))
  have hnonce : (clientHello c payload).getItem "client_nonce" = .ok (b64 c.nonce) :=
    Dict.getItem_ofList rfl
  have hip : (serverHello s c.keyExchange c.cipher reply).getItem "vpn_ip" =
      .ok (.ofString s.vpnIp) := Dict.getItem_ofList rfl
  generalize hk : (⟨shared, c.nonce, s.nonce, encodeMessage (clientHello c payload) ++
    encodeMessage (serverHello s c.keyExchange c.cipher reply)⟩ : KeyInputs) = k at hread
  rcases hkeys : deriveSessionKeys C k with ⟨toServer, toClient⟩
  obtain ⟨p₁, p₂, hclient₁, hclient₂, hclient₃⟩ := clientHandshake_trace hC ha hinit hkx h.cipher
    hpayload hhello hread hip hdevice (fun d hd => (hregister d hd).1) hkeys
  obtain ⟨q, hserver₁, hserver₂⟩ := serverHandshake_trace hC ha hinit hanswer hhello' hnonce
    hk hdirectory (fun d hd => ⟨(hregister d hd).1.2, (hregister d hd).2⟩) hkeys
  have hlen := dialogue_length_le (F := F) hC ha k toServer toClient
    (fun d hd => (hregister d hd).1.2) hhello.length_le hhello'.length_le
  have hagree : (sessionOf F a toServer toClient c.cipher c.keyExchange s.vpnIp device).Agree
      (sessionOf F a toClient toServer c.cipher c.keyExchange s.vpnIp device) :=
    ⟨⟨rfl, rfl, rfl⟩, ⟨rfl, rfl, rfl⟩, rfl, rfl, rfl, rfl, rfl⟩
  have hseq : recordsOf device < 2 ^ 64 := by
    rcases device with _ | d <;> norm_num [recordsOf]
  exact ⟨_, _, Duplex.completesAt_of_dialogue (fun x hx => frames_front_frame (hlen x hx)) hclient₁
      hserver₁ hclient₂ hserver₂ hclient₃, hagree, fun packet =>
    ⟨hagree.toServer.accepts ha hseq packet, hagree.toClient.accepts ha hseq packet⟩⟩

/-- A client with a device. -/
def plainClient : ClientEnd plainCrypto where
  keyExchange := "treekem"
  cipher := "chacha20-poly1305"
  deviceIdentity := some ⟨(5 : UInt8), (6 : UInt8)⟩
  mlKemAvailable := false
  ephemeral := ⟨(1 : UInt8), fun _ => (2 : UInt8), (3 : UInt8), (4 : UInt8)⟩
  nonce := List.replicate 16 7
  length_nonce := rfl

/-- A server that leaves the choices to its clients, and asks for a device. -/
def plainServer : ServerEnd plainCrypto where
  vpnIp := "10.8.0.2"
  keyExchange := "auto"
  cipher := "auto"
  registerOrGet := some fun _ _ => .ok "device-1"
  mlKemAvailable := true
  ephemeral := ⟨(11 : UInt8), fun _ => (12 : UInt8), List.replicate 32 13, rfl, [], []⟩
  nonce := List.replicate 16 17
  length_nonce := rfl

theorem plain_compatible : Compatible plainClient plainServer where
  keyExchange_client := by decide
  keyExchange_server := by decide
  cipher := by decide
  keyExchange_setting := .inl rfl
  cipher_setting := .inl rfl
  device := rfl
  register := by
    rintro _ ⟨rfl⟩ key encryptionKey
    exact ⟨"device-1", rfl, by decide, by decide⟩
  vpnIp := by decide

theorem handshake_agreement_plain : ∃ client server : Session (List Char),
    (Duplex.system frames (clientHandshake (List Char) plainClient)
      (serverHandshake (List Char) plainServer)).CompletesAt
      (.start (clientHandshake (List Char) plainClient) (serverHandshake (List Char) plainServer))
      ⟨.ret client, .ret server, [], []⟩ ∧
    client.Agree server ∧
    ∀ packet, server.receiveCipher.Accepts client.sendCipher packet ∧
      client.receiveCipher.Accepts server.sendCipher packet :=
  handshake_agreement plainCrypto_correct plain_compatible

end SecNet
