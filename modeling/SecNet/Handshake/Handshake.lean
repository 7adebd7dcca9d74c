import SecNet.Handshake.KeyExchange
import SecNet.Lib.Duplex
import SecNet.Record.Stream

/-!
# The handshake

`client_handshake` and `server_handshake`, as two processes on a connection that
is read frame by frame: what they send and receive, in the order of the code,
and the session they return.

An end (`ClientEnd`, `ServerEnd`) holds the arguments of its call and what it
draws at random. The hellos, and then the keys made of them (`KeyInputs`), come
first; the rest of the handshake is sent in the records of these keys.
-/

namespace SecNet

/-! ## Frames and records on a connection -/

/-- A process on a connection that is read frame by frame. -/
abbrev Conn (R : Type) := Process UInt8 Bytes Exn R

namespace Conn

/-- `send_frame(sock, data)`. -/
def sendFrame (data : Bytes) : Conn Unit := do
  Process.sendAll (← SecNet.sendFrame data)

/-- `recv_frame(sock)`. -/
def recvFrame : Conn Bytes := Process.recvItem

/-- `send_frame(sock, cipher.encrypt(plaintext))`. -/
def sendRecord (cipher : SessionCipher) (plaintext : Bytes) : Conn SessionCipher := do
  let (record, cipher) := cipher.encrypt plaintext
  sendFrame (← record)
  pure cipher

/-- `cipher.decrypt(recv_frame(sock))`. -/
def recvRecord (cipher : SessionCipher) : Conn (Bytes × SessionCipher) := do
  let (plaintext, cipher) := cipher.decrypt (← recvFrame)
  pure (← plaintext, cipher)

end Conn

/-- A check, with the text of the error where it fails. -/
def check (b : Bool) (text : String) : Except Exn Unit :=
  if b then .ok () else .error (.valueError text)

theorem check_eq_ok {b : Bool} {text : String} : check b text = .ok () ↔ b = true := by
  rw [check]
  split_ifs with hb
  · exact iff_of_true rfl hb
  · exact iff_of_false (by simp) hb

/-! ## Keys -/

/-- What the session keys are made of. -/
structure KeyInputs where
  shared : Bytes
  clientNonce : Bytes
  serverNonce : Bytes
  /-- The bytes of the two hellos. -/
  transcript : Bytes

variable (C : Crypto) {F : Type}

/-- The hash of the two hellos. -/
def KeyInputs.transcriptHash (k : KeyInputs) : Bytes := C.sha256 k.transcript

/-- `derive_session_keys`: the keys from the client to the server, and back. -/
def deriveSessionKeys (k : KeyInputs) : Bytes × Bytes :=
  let salt := C.sha256 (ascii "vpn session salt v1" ++ k.clientNonce ++ k.serverNonce)
  let material :=
    C.hkdf 64 (some salt) (ascii "vpn session keys v1" ++ k.transcriptHash C) k.shared
  (material.take 32, material.drop 32)

/-- `_finished`. -/
def finished (transcriptHash : Bytes) : Bytes := ascii "Finished" ++ transcriptHash

/-- `_device_auth_binding`. -/
def deviceAuthBinding (k : KeyInputs) : Bytes :=
  ascii "vpn1 device auth binding v1\x00" ++ k.transcriptHash C ++ k.clientNonce ++ k.serverNonce

/-! ## Devices -/

/-- `DeviceIdentity`: the keys of a device. -/
structure DeviceIdentity where
  privateKey : C.Ed25519Private
  directPrivateKey : C.X25519Private

variable {C} in
def DeviceIdentity.publicKeyBytes (d : DeviceIdentity C) : Bytes := C.ed25519Public d.privateKey

variable {C} in
def DeviceIdentity.directPublicKeyBytes (d : DeviceIdentity C) : Bytes :=
  C.x25519Public d.directPrivateKey

/-- `DEVICE_AUTH_CONTEXT`. -/
def deviceAuthContext : Bytes := ascii "vpn1 device authentication v1\x00"

variable {C} in
/-- `DeviceIdentity.sign`. -/
def DeviceIdentity.sign (d : DeviceIdentity C) (message : Bytes) : Bytes :=
  C.ed25519Sign d.privateKey (deviceAuthContext ++ message)

/-- `verify_device_signature`. -/
def verifyDeviceSignature (publicKeyBytes message signature : Bytes) : Except Exn Unit := do
  check (publicKeyBytes.length = 32) "device public key must be 32 bytes"
  C.ed25519Verify publicKeyBytes (deviceAuthContext ++ message) signature

/-! ## Ends -/

/-- The end of a client: the arguments of `client_handshake`, and what it draws. -/
structure ClientEnd where
  keyExchange : String
  cipher : String
  deviceIdentity : Option (DeviceIdentity C)
  mlKemAvailable : Bool
  ephemeral : ClientEphemeral C
  /-- `os.urandom(16)` -/
  nonce : Bytes
  length_nonce : nonce.length = 16

/-- The end of a server: the arguments of `server_handshake`, and what it draws. -/
structure ServerEnd where
  vpnIp : String
  keyExchange : String
  cipher : String
  /-- `register_or_get` of the device directory, if there is one. -/
  registerOrGet : Option ((publicKeyBytes encryptionPublicKey : Bytes) → Except Exn String)
  mlKemAvailable : Bool
  ephemeral : ServerEphemeral C
  /-- `os.urandom(16)` -/
  nonce : Bytes
  length_nonce : nonce.length = 16

/-- `Session`. -/
structure Session (F : Type) where
  sendCipher : SessionCipher
  receiveCipher : SessionCipher
  cipher : String
  keyExchange : String
  vpnIp : Json F
  deviceTag : Json F
  devicePublicKey : Option Bytes

/-- `PROTOCOL_VERSION`. -/
def protocolVersion : ℤ := 1

/-- `_validate_choice`, with the choice that is made. The text of the error goes
    on with the value that is none of them. -/
def validateChoice (name : Json F) (choices : List String) (label : String) : Except Exn String :=
  match choices.find? fun choice => name.isStr choice with
  | some choice => .ok choice
  | none => .error (.valueError s!"unsupported {label}")

variable {C} [PyFloat F]

/-! ## The client -/

/-- The hello of a client. -/
def clientHello (c : ClientEnd C) (clientKeyPayload : Dict F) : Dict F :=
  .ofList [
    ("type", .ofString "client_hello"),
    ("version", .int protocolVersion),
    ("key_exchange", .ofString c.keyExchange),
    ("cipher", .ofString c.cipher),
    ("client_nonce", b64 c.nonce),
    ("key_payload", .obj clientKeyPayload)]

/-- What the client does with the hello of the server, before it derives its keys. -/
def readServerHello (c : ClientEnd C) (clientKeyPayload : Dict F)
    (clientHelloBytes serverHelloBytes : Bytes) : Except Exn (Dict F × KeyInputs) := do
  let serverHello ← decodeMessage serverHelloBytes
  check ((serverHello.get "type").isStr "server_hello") "invalid server hello"
  check ((serverHello.get "version").isInt protocolVersion) "unsupported protocol version"
  check ((serverHello.get "key_exchange").isStr c.keyExchange)
    "server selected a different key exchange"
  check ((serverHello.get "cipher").isStr c.cipher) "server selected a different cipher"
  let serverNonce ← unb64 (← serverHello.getItem "server_nonce")
  let shared ← clientKeyExchangeFinish C c.keyExchange c.ephemeral clientKeyPayload
    (← serverHello.getItem "key_payload")
  .ok (serverHello, ⟨shared, c.nonce, serverNonce, clientHelloBytes ++ serverHelloBytes⟩)

/-- The message with which a device proves who it is. -/
def deviceAuth (d : DeviceIdentity C) (k : KeyInputs) : Dict F :=
  .ofList [
    ("type", .ofString "device_auth"),
    ("public_key", b64 d.publicKeyBytes),
    ("encryption_public_key", b64 d.directPublicKeyBytes),
    ("signature",
      b64 (d.sign (deviceAuthBinding C k ++ d.publicKeyBytes ++ d.directPublicKeyBytes)))]

/-- The end of `client_handshake`: the ciphers, and the tag of the device, if it has one. -/
def clientDeviceAuth (F : Type) [PyFloat F] (c : ClientEnd C) (k : KeyInputs)
    (sendCipher receiveCipher : SessionCipher) :
    Conn (SessionCipher × SessionCipher × Json F × Option Bytes) := do
  match c.deviceIdentity with
  | none => pure (sendCipher, receiveCipher, .null, none)
  | some d =>
    let sendCipher ← Conn.sendRecord sendCipher (encodeMessage (F := F) (deviceAuth d k))
    let (plaintext, receiveCipher) ← Conn.recvRecord receiveCipher
    let authAck ← decodeMessage (F := F) plaintext
    check ((authAck.get "type").isStr "device_auth_ok" && (authAck.get "device_tag").truth)
      "device authentication was rejected"
    let deviceTag ← authAck.getItem "device_tag"
    pure (sendCipher, receiveCipher, deviceTag, some d.publicKeyBytes)

/-- The session of the client. -/
def clientSession (c : ClientEnd C) (serverHello : Dict F) :
    SessionCipher × SessionCipher × Json F × Option Bytes → Conn (Session F)
  | (sendCipher, receiveCipher, deviceTag, devicePublicKey) => do
    let vpnIp ← serverHello.getItem "vpn_ip"
    pure ⟨sendCipher, receiveCipher, c.cipher, c.keyExchange, vpnIp, deviceTag, devicePublicKey⟩

/-- `client_handshake`, from the Finished record of the server on. -/
def clientAfterKeys (c : ClientEnd C) (serverHello : Dict F) (k : KeyInputs)
    (sendCipher receiveCipher : SessionCipher) : Conn (Session F) := do
  let (plaintext, receiveCipher) ← Conn.recvRecord receiveCipher
  check (plaintext = finished (k.transcriptHash C)) "server Finished verification failed"
  let sendCipher ← Conn.sendRecord sendCipher (finished (k.transcriptHash C))
  clientSession c serverHello (← clientDeviceAuth F c k sendCipher receiveCipher)

/-- `client_handshake`, after it has sent its hello. -/
def clientAfterHello (c : ClientEnd C) (clientKeyPayload : Dict F) (clientHelloBytes : Bytes) :
    Conn (Session F) := do
  let serverHelloBytes ← Conn.recvFrame
  let (serverHello, k) ← readServerHello c clientKeyPayload clientHelloBytes serverHelloBytes
  let (clientToServer, serverToClient) := deriveSessionKeys C k
  let sendCipher ← SessionCipher.init C.aead clientToServer c.cipher
  let receiveCipher ← SessionCipher.init C.aead serverToClient c.cipher
  clientAfterKeys c serverHello k sendCipher receiveCipher

/-- `client_handshake`. -/
def clientHandshake (F : Type) [PyFloat F] (c : ClientEnd C) : Conn (Session F) := do
  let _ ← validateChoice (F := F) (.ofString c.keyExchange) keyExchanges "key exchange"
  let _ ← validateChoice (F := F) (.ofString c.cipher) supportedCiphers "cipher"
  let clientKeyPayload : Dict F ←
    clientKeyExchangeInit C c.mlKemAvailable c.ephemeral c.keyExchange
  let clientHelloBytes := encodeMessage (clientHello c clientKeyPayload)
  Conn.sendFrame clientHelloBytes
  clientAfterHello c clientKeyPayload clientHelloBytes

/-! ## The server -/

/-- The answer of a server to a hello: what it has read, what it has chosen, the
    secret, and its own hello. -/
structure Answer (F : Type) where
  clientHello : Dict F
  keyExchange : String
  cipher : String
  shared : Bytes
  serverHello : Dict F

/-- The hello of a server. -/
def serverHello (s : ServerEnd C) (keyExchange cipher : String) (serverKeyPayload : Dict F) :
    Dict F :=
  .ofList [
    ("type", .ofString "server_hello"),
    ("version", .int protocolVersion),
    ("key_exchange", .ofString keyExchange),
    ("cipher", .ofString cipher),
    ("server_nonce", b64 s.nonce),
    ("vpn_ip", .ofString s.vpnIp),
    ("key_payload", .obj serverKeyPayload)]

/-- What the server does with the hello of the client, before it sends its own. -/
def answerHello (s : ServerEnd C) (clientHelloBytes : Bytes) : Except Exn (Answer F) := do
  let clientHello ← decodeMessage clientHelloBytes
  check ((clientHello.get "type").isStr "client_hello") "invalid client hello"
  check ((clientHello.get "version").isInt protocolVersion) "unsupported protocol version"
  let requestedKeyExchange ←
    validateChoice (clientHello.get "key_exchange") keyExchanges "key exchange"
  let requestedCipher ← validateChoice (clientHello.get "cipher") supportedCiphers "cipher"
  check (requestedKeyExchange ∈ availableKeyExchanges s.mlKemAvailable)
    "requested key exchange is unavailable on the server"
  check (s.keyExchange = "auto" ∨ s.keyExchange = requestedKeyExchange)
    "client and server key-exchange selections differ"
  check (s.cipher = "auto" ∨ s.cipher = requestedCipher)
    "client and server cipher selections differ"
  let (shared, serverKeyPayload) ← serverKeyExchangeResponse C s.mlKemAvailable s.ephemeral
    requestedKeyExchange (← clientHello.getItem "key_payload")
  .ok ⟨clientHello, requestedKeyExchange, requestedCipher, shared,
    serverHello s requestedKeyExchange requestedCipher serverKeyPayload⟩

/-- The message with which the server accepts a device. -/
def deviceAuthOk (deviceTag : String) : Dict F :=
  .ofList [("type", .ofString "device_auth_ok"), ("device_tag", .ofString deviceTag)]

variable (C) in
/-- What the server does with the proof of a device: its public key, and its tag. -/
def readDeviceAuth (F : Type) [PyFloat F] (registerOrGet : Bytes → Bytes → Except Exn String)
    (k : KeyInputs) (plaintext : Bytes) : Except Exn (Bytes × String) := do
  let authMessage ← decodeMessage (F := F) plaintext
  check ((authMessage.get "type").isStr "device_auth") "missing device authentication message"
  let devicePublicKey ← unb64 (← authMessage.getItem "public_key")
  let encryptionPublicKey ←
    unb64 ((authMessage.lookup (.ofString "encryption_public_key")).getD (.ofString ""))
  check (encryptionPublicKey.length = 32) "device encryption public key must be 32 bytes"
  let signature ← unb64 (← authMessage.getItem "signature")
  verifyDeviceSignature C devicePublicKey
    (deviceAuthBinding C k ++ devicePublicKey ++ encryptionPublicKey) signature
  let deviceTag ← registerOrGet devicePublicKey encryptionPublicKey
  .ok (devicePublicKey, deviceTag)

/-- The end of `server_handshake`: the ciphers, and the tag of the device, if it asks for one. -/
def serverDeviceAuth (F : Type) [PyFloat F] (s : ServerEnd C) (k : KeyInputs)
    (sendCipher receiveCipher : SessionCipher) :
    Conn (SessionCipher × SessionCipher × Json F × Option Bytes) := do
  match s.registerOrGet with
  | none => pure (sendCipher, receiveCipher, .null, none)
  | some registerOrGet =>
    let (plaintext, receiveCipher) ← Conn.recvRecord receiveCipher
    let (devicePublicKey, deviceTag) ← readDeviceAuth C F registerOrGet k plaintext
    let sendCipher ←
      Conn.sendRecord sendCipher (encodeMessage (F := F) (deviceAuthOk deviceTag))
    pure (sendCipher, receiveCipher, .ofString deviceTag, some devicePublicKey)

/-- The session of the server. -/
def serverSession (s : ServerEnd C) (answer : Answer F) :
    SessionCipher × SessionCipher × Json F × Option Bytes → Conn (Session F)
  | (sendCipher, receiveCipher, deviceTag, devicePublicKey) =>
    pure ⟨sendCipher, receiveCipher, answer.cipher, answer.keyExchange, .ofString s.vpnIp,
      deviceTag, devicePublicKey⟩

/-- `server_handshake`, after it has sent its Finished record. -/
def serverAfterFinished (s : ServerEnd C) (answer : Answer F) (k : KeyInputs)
    (sendCipher receiveCipher : SessionCipher) : Conn (Session F) := do
  let (plaintext, receiveCipher) ← Conn.recvRecord receiveCipher
  check (plaintext = finished (k.transcriptHash C)) "client Finished verification failed"
  serverSession s answer (← serverDeviceAuth F s k sendCipher receiveCipher)

/-- `server_handshake`. -/
def serverHandshake (F : Type) [PyFloat F] (s : ServerEnd C) : Conn (Session F) := do
  let clientHelloBytes ← Conn.recvFrame
  let answer : Answer F ← answerHello s clientHelloBytes
  let serverHelloBytes := encodeMessage answer.serverHello
  Conn.sendFrame serverHelloBytes
  let clientNonce ← unb64 (← answer.clientHello.getItem "client_nonce")
  let k : KeyInputs :=
    ⟨answer.shared, clientNonce, s.nonce, clientHelloBytes ++ serverHelloBytes⟩
  let (clientToServer, serverToClient) := deriveSessionKeys C k
  let sendCipher ← SessionCipher.init C.aead serverToClient answer.cipher
  let receiveCipher ← SessionCipher.init C.aead clientToServer answer.cipher
  let sendCipher ← Conn.sendRecord sendCipher (finished (k.transcriptHash C))
  serverAfterFinished s answer k sendCipher receiveCipher

end SecNet
