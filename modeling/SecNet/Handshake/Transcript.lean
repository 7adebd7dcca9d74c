import SecNet.Handshake.Agreement

/-!
# The transcript binds the hellos

An adversary may replace the two hellos of a handshake by any bytes. The hash of
the transcript is taken over the two frames as sent or received, one after the
other, with nothing between them. Still, when one end accepts a record that was
sealed by the other, both have decoded the same hellos.

* `of_trace_clientHandshake`, `of_trace_serverHandshake`: the runs of each end,
  up to its keys;
* `clientAfterKeys_sends`, `serverAfterKeys_sends`: from then on, all that it sends
  is sealed with its own key;
* `hellos_of_append`: bytes that are moved from one hello to the other can only
  be white space;
* `transcript_binding`: hence the hellos that the two ends decode are equal.
-/

namespace SecNet

variable {C : Crypto} {F : Type}

/-! ## Records on a connection -/

theorem frameOf_injective {data data' : Bytes} (h : frameOf data = frameOf data') :
    data = data' := by
  have hdrop := congrArg (List.drop 4) h
  rwa [frameOf, frameOf, List.drop_left' (length_packBE _ _), List.drop_left' (length_packBE _ _)]
    at hdrop

namespace SessionCipher

/-- The frame of a record that is sealed with the key of a cipher. -/
def Sealed (c : SessionCipher) (b : Bytes) : Prop :=
  ∃ n p, b = frameOf (record c.aead c.key n p)

theorem sealed_congr {c c' : SessionCipher} (haead : c'.aead = c.aead) (hkey : c'.key = c.key) :
    c'.Sealed = c.Sealed := by
  funext b
  rw [Sealed, Sealed, haead, hkey]

theorem encrypt_eq_ok {c : SessionCipher} {p r : Bytes} (h : (c.encrypt p).1 = .ok r) :
    c.sendSequence < 2 ^ 64 ∧ r = record c.aead c.key c.sendSequence p := by
  by_cases hlt : c.sendSequence < 2 ^ 64
  · rw [encrypt_of_lt hlt] at h
    exact ⟨hlt, (Except.ok.inj h).symm⟩
  · rw [encrypt_of_le (not_lt.1 hlt)] at h
    cases h

end SessionCipher

namespace Conn

variable {R : Type}

variable {c : SessionCipher}

/-- A process that sends the next record, and then others of the same key. -/
theorem sends_sendRecord {plaintext : Bytes} {f : SessionCipher → Conn R}
    (hf : ∀ c' : SessionCipher, c'.aead = c.aead → c'.key = c.key →
      (f c').Sends (c.Sealed ·)) : (sendRecord c plaintext >>= f).Sends (c.Sealed ·) := by
  rw [sendRecord_bind]
  refine .lift fun record hrecord => ?_
  rw [sendFrame_bind]
  refine .lift fun b hb => .send ?_ (hf _ rfl rfl)
  obtain ⟨hlt, rfl⟩ := SessionCipher.encrypt_eq_ok hrecord
  exact ⟨_, _, (sendFrame_eq_ok hb).2⟩

/-- A process that receives a record sends what it sends then. -/
theorem sends_recvRecord {P : Bytes → Prop} {f : Bytes × SessionCipher → Conn R}
    (hf : ∀ plaintext c', (f (plaintext, c')).Sends P) : (recvRecord c >>= f).Sends P := by
  rw [recvRecord_bind]
  exact .recv fun record => .lift fun plaintext _ => hf plaintext _

variable {f : SessionCipher → Conn R} {xs ys : List Bytes} {p : Conn R}

/-- A run that receives something, after it has sent a record. -/
theorem of_trace_sendRecord {plaintext x : Bytes}
    (h : (sendRecord c plaintext >>= f).Trace (x :: xs) ys p) :
    ∃ c' ys', (f c').Trace (x :: xs) ys' p := by
  rw [sendRecord_bind] at h
  obtain ⟨record, -, h⟩ := h.of_lift nofun
  rw [sendFrame_bind] at h
  obtain ⟨b, -, h⟩ := h.of_lift nofun
  obtain ⟨ys', -, h⟩ := h.of_send
  exact ⟨_, ys', h⟩

/-- A run that has received a record, and has not raised, has opened it. -/
theorem of_trace_recvRecord {f : Bytes × SessionCipher → Conn R} {record : Bytes}
    (h : (recvRecord c >>= f).Trace [record] ys p) (hp : ¬ p.Raised) :
    ∃ plaintext, (c.decrypt record).1 = .ok plaintext := by
  rw [recvRecord_bind] at h
  obtain ⟨plaintext, hplaintext, -⟩ := h.of_recv.of_lift fun _ _ => hp
  exact ⟨plaintext, hplaintext⟩

end Conn

/-! ## The hellos can be read back -/

theorem canonical_keyPayload {name key : String} {v : Json F} (hv : v.Canonical) :
    (keyPayload name key v).Canonical := by
  refine canonical_ofList ?_
  simp only [List.forall_mem_cons]
  exact ⟨canonical_ofString name, hv, nofun⟩

theorem canonical_arr_b64 {R : Type} (f : R → Bytes) (l : List R) :
    Json.Canonical (F := F) (.arr (l.map fun r => b64 (f r))) := by
  refine .arr fun v hv => ?_
  obtain ⟨r, -, rfl⟩ := List.mem_map.1 hv
  exact canonical_b64 _

theorem canonical_clientKeyExchangeInit {mlKemAvailable : Bool} {e : ClientEphemeral C}
    {name : String} {payload : Dict F}
    (h : clientKeyExchangeInit C mlKemAvailable e name = .ok payload) : payload.Canonical := by
  rw [clientKeyExchangeInit] at h
  split_ifs at h <;> obtain rfl := Except.ok.inj h
  · exact canonical_keyPayload (canonical_b64 _)
  · exact canonical_keyPayload (canonical_arr_b64 _ _)
  · exact canonical_keyPayload (canonical_b64 _)
  · exact canonical_keyPayload (canonical_b64 _)
  · exact canonical_keyPayload (canonical_b64 _)

theorem canonical_serverKeyExchangeResponse {mlKemAvailable : Bool} {e : ServerEphemeral C}
    {name : String} {payload : Json F} {shared : Bytes} {reply : Dict F}
    (h : serverKeyExchangeResponse C mlKemAvailable e name payload = .ok (shared, reply)) :
    reply.Canonical := by
  rw [serverKeyExchangeResponse] at h
  obtain ⟨payload, -, h⟩ := bind_eq_ok.1 h
  split_ifs at h
  · -- `ecdh`
    obtain ⟨encoded, -, h⟩ := bind_eq_ok.1 h
    obtain ⟨data, -, h⟩ := bind_eq_ok.1 h
    obtain ⟨key, -, h⟩ := bind_eq_ok.1 h
    rcases key with key | key | _
    · obtain ⟨secret, -, h⟩ := bind_eq_ok.1 h
      obtain ⟨-, rfl⟩ := Prod.mk.inj (Except.ok.inj h)
      exact canonical_keyPayload (canonical_b64 _)
    · cases h
    · cases h
  · -- `dh-chain`
    split at h
    · obtain ⟨secrets, -, h⟩ := bind_eq_ok.1 h
      obtain ⟨secret, -, h⟩ := bind_eq_ok.1 h
      obtain ⟨-, rfl⟩ := Prod.mk.inj (Except.ok.inj h)
      exact canonical_keyPayload (canonical_arr_b64 _ _)
    · cases h
  · -- `treekem` and `chained-kdf`
    obtain ⟨encoded, -, h⟩ := bind_eq_ok.1 h
    obtain ⟨data, -, h⟩ := bind_eq_ok.1 h
    obtain ⟨exchanged, -, h⟩ := bind_eq_ok.1 h
    obtain ⟨secret, -, h⟩ := bind_eq_ok.1 h
    obtain ⟨-, rfl⟩ := Prod.mk.inj (Except.ok.inj h)
    exact canonical_keyPayload (canonical_b64 _)
  · -- `rsa-oaep`
    obtain ⟨encoded, -, h⟩ := bind_eq_ok.1 h
    obtain ⟨data, -, h⟩ := bind_eq_ok.1 h
    obtain ⟨key, -, h⟩ := bind_eq_ok.1 h
    rcases key with key | key | _
    · cases h
    · obtain ⟨ciphertext, -, h⟩ := bind_eq_ok.1 h
      obtain ⟨-, rfl⟩ := Prod.mk.inj (Except.ok.inj h)
      exact canonical_keyPayload (canonical_b64 _)
    · cases h
  · -- `ml-kem`
    obtain ⟨encoded, -, h⟩ := bind_eq_ok.1 h
    obtain ⟨data, -, h⟩ := bind_eq_ok.1 h
    obtain ⟨⟨secret, ciphertext⟩, -, h⟩ := bind_eq_ok.1 h
    obtain ⟨-, rfl⟩ := Prod.mk.inj (Except.ok.inj h)
    exact canonical_keyPayload (canonical_b64 _)

theorem canonical_clientHello {c : ClientEnd C} {payload : Dict F} (h : payload.Canonical) :
    (clientHello c payload).Canonical := by
  refine canonical_ofList ?_
  simp only [List.forall_mem_cons]
  exact ⟨canonical_ofString _, .int (by decide), canonical_ofString _, canonical_ofString _,
    canonical_b64 _, h, nofun⟩

theorem canonical_serverHello {s : ServerEnd C} {keyExchange cipher : String} {reply : Dict F}
    (h : reply.Canonical) : (serverHello s keyExchange cipher reply).Canonical := by
  refine canonical_ofList ?_
  simp only [List.forall_mem_cons]
  exact ⟨canonical_ofString _, .int (by decide), canonical_ofString _, canonical_ofString _,
    canonical_b64 _, canonical_ofString _, h, nofun⟩

theorem validateChoice_eq_ok {v : Json F} {choices : List String} {label name : String}
    (h : validateChoice v choices label = .ok name) : v.isStr name = true := by
  rw [validateChoice] at h
  split at h
  · rename_i choice hfind
    rw [← Except.ok.inj h]
    exact List.find?_some hfind
  · cases h

/-- The names in the hello of a client. -/
theorem isStr_keyExchange {c : ClientEnd C} {payload : Dict F} {name : String}
    (h : ((clientHello c payload).get "key_exchange").isStr name = true) :
    c.keyExchange = name := by
  have hget : (clientHello c payload).get "key_exchange" = .ofString c.keyExchange :=
    Dict.get_ofList rfl
  rw [hget, Json.ofString, Json.isStr, decide_eq_true_eq] at h
  exact ofString_injective h

theorem isStr_cipher {c : ClientEnd C} {payload : Dict F} {name : String}
    (h : ((clientHello c payload).get "cipher").isStr name = true) : c.cipher = name := by
  have hget : (clientHello c payload).get "cipher" = .ofString c.cipher := Dict.get_ofList rfl
  rw [hget, Json.ofString, Json.isStr, decide_eq_true_eq] at h
  exact ofString_injective h

/-! ## What each end sends after it has its keys -/

variable [PyFloat F]

/-- All that the client sends is sealed with its own key. -/
theorem clientAfterKeys_sends (c : ClientEnd C) (hello : Dict F) (k : KeyInputs)
    (sendCipher receiveCipher : SessionCipher) :
    (clientAfterKeys c hello k sendCipher receiveCipher).Sends (sendCipher.Sealed ·) := by
  refine Conn.sends_recvRecord fun plaintext receiveCipher => ?_
  refine .lift fun _ _ => ?_
  refine Conn.sends_sendRecord fun sendCipher' haead hkey => ?_
  refine .bind ?_ fun r => .lift fun _ _ => .ret _
  rw [clientDeviceAuth]
  rcases c.deviceIdentity with _ | d
  · exact .ret _
  · rw [← SessionCipher.sealed_congr haead hkey]
    refine Conn.sends_sendRecord fun _ _ _ => Conn.sends_recvRecord fun _ _ => ?_
    exact .lift fun _ _ => .lift fun _ _ => .lift fun _ _ => .ret _

/-- So is all that the server sends. -/
theorem serverAfterKeys_sends (s : ServerEnd C) (answer : Answer F) (k : KeyInputs)
    (sendCipher receiveCipher : SessionCipher) :
    (Conn.sendRecord sendCipher (finished (k.transcriptHash C)) >>= fun sendCipher =>
      serverAfterFinished s answer k sendCipher receiveCipher).Sends (sendCipher.Sealed ·) := by
  refine Conn.sends_sendRecord fun sendCipher' haead hkey => ?_
  refine Conn.sends_recvRecord fun _ _ => .lift fun _ _ => .bind ?_ fun r => .ret _
  rw [serverDeviceAuth]
  rcases s.registerOrGet with _ | registerOrGet
  · exact .ret _
  · rw [← SessionCipher.sealed_congr haead hkey]
    refine Conn.sends_recvRecord fun _ _ => .lift fun _ _ => ?_
    exact Conn.sends_sendRecord fun _ _ _ => .ret _

/-! ## The runs of each end -/

/-- The choices of a server are those of the hello that it has read. -/
theorem answerHello_eq_ok {s : ServerEnd C} {clientHelloBytes : Bytes} {answer : Answer F}
    (h : answerHello s clientHelloBytes = .ok answer) :
    decodeMessage clientHelloBytes = .ok answer.clientHello ∧
      (answer.clientHello.get "key_exchange").isStr answer.keyExchange = true ∧
      (answer.clientHello.get "cipher").isStr answer.cipher = true ∧
      ∃ reply : Dict F, reply.Canonical ∧
        answer.serverHello = serverHello s answer.keyExchange answer.cipher reply := by
  rw [answerHello] at h
  obtain ⟨message, hdecode, h⟩ := bind_eq_ok.1 h
  obtain ⟨-, -, h⟩ := bind_eq_ok.1 h
  obtain ⟨-, -, h⟩ := bind_eq_ok.1 h
  obtain ⟨keyExchange, hkx, h⟩ := bind_eq_ok.1 h
  obtain ⟨cipher, hcipher, h⟩ := bind_eq_ok.1 h
  obtain ⟨-, -, h⟩ := bind_eq_ok.1 h
  obtain ⟨-, -, h⟩ := bind_eq_ok.1 h
  obtain ⟨-, -, h⟩ := bind_eq_ok.1 h
  obtain ⟨payload, -, h⟩ := bind_eq_ok.1 h
  obtain ⟨⟨shared, reply⟩, hresponse, h⟩ := bind_eq_ok.1 h
  obtain rfl := Except.ok.inj h
  dsimp only
  exact ⟨hdecode, validateChoice_eq_ok hkx, validateChoice_eq_ok hcipher, reply,
    canonical_serverKeyExchangeResponse hresponse, rfl⟩

/-- The keys of a client, by the hello that it receives. -/
def ClientEnd.keyInputs (F : Type) [PyFloat F] (c : ClientEnd C) (serverHelloBytes : Bytes) :
    Except Exn KeyInputs := do
  let payload : Dict F ← clientKeyExchangeInit C c.mlKemAvailable c.ephemeral c.keyExchange
  let (_, k) ←
    readServerHello c payload (encodeMessage (clientHello c payload)) serverHelloBytes
  .ok k

/-- The keys of a server, by the hello that it receives. -/
def ServerEnd.keyInputs (F : Type) [PyFloat F] (s : ServerEnd C) (clientHelloBytes : Bytes) :
    Except Exn KeyInputs := do
  let answer : Answer F ← answerHello s clientHelloBytes
  let clientNonce ← unb64 (← answer.clientHello.getItem "client_nonce")
  .ok ⟨answer.shared, clientNonce, s.nonce, clientHelloBytes ++ encodeMessage answer.serverHello⟩

theorem readServerHello_eq_ok {c : ClientEnd C} {payload hello : Dict F} {k : KeyInputs}
    {clientHelloBytes serverHelloBytes : Bytes}
    (h : readServerHello c payload clientHelloBytes serverHelloBytes = .ok (hello, k)) :
    decodeMessage serverHelloBytes = .ok hello ∧
      k.transcript = clientHelloBytes ++ serverHelloBytes := by
  rw [readServerHello] at h
  obtain ⟨message, hdecode, h⟩ := bind_eq_ok.1 h
  obtain ⟨-, -, h⟩ := bind_eq_ok.1 h
  obtain ⟨-, -, h⟩ := bind_eq_ok.1 h
  obtain ⟨-, -, h⟩ := bind_eq_ok.1 h
  obtain ⟨-, -, h⟩ := bind_eq_ok.1 h
  obtain ⟨_, -, h⟩ := bind_eq_ok.1 h
  obtain ⟨_, -, h⟩ := bind_eq_ok.1 h
  obtain ⟨_, -, h⟩ := bind_eq_ok.1 h
  obtain ⟨_, -, h⟩ := bind_eq_ok.1 h
  obtain ⟨rfl, rfl⟩ := Prod.mk.inj (Except.ok.inj h)
  exact ⟨hdecode, rfl⟩

variable {x b : Bytes} {xs ys : List Bytes} {p : Conn (Session F)}

/-- A run of the client that goes on after it has received a hello. -/
theorem of_trace_clientHandshake {c : ClientEnd C}
    (h : (clientHandshake F c).Trace (x :: xs) (frameOf b :: ys) p)
    (hp : xs = [] → ys = [] → ¬ p.Raised) :
    ∃ (payload hello : Dict F) (k : KeyInputs) (sendCipher receiveCipher : SessionCipher),
      payload.Canonical ∧ b = encodeMessage (clientHello c payload) ∧
      decodeMessage x = .ok hello ∧ k.transcript = b ++ x ∧ c.keyInputs F x = .ok k ∧
      SessionCipher.init C.aead (deriveSessionKeys C k).1 c.cipher = .ok sendCipher ∧
      SessionCipher.init C.aead (deriveSessionKeys C k).2 c.cipher = .ok receiveCipher ∧
      (clientAfterKeys c hello k sendCipher receiveCipher).Trace xs ys p := by
  obtain ⟨_, -, h⟩ := Process.Trace.of_lift h nofun
  obtain ⟨_, -, h⟩ := Process.Trace.of_lift h nofun
  obtain ⟨payload, hpayload, h⟩ := Process.Trace.of_lift h nofun
  simp only [Conn.sendFrame_bind] at h
  obtain ⟨frame, hframe, h⟩ := h.of_lift nofun
  obtain ⟨hb, hnext⟩ := h.of_send_cons
  obtain rfl := frameOf_injective (hb.trans (sendFrame_eq_ok hframe).2)
  rw [clientAfterHello, Conn.recvFrame_bind] at hnext
  obtain ⟨⟨hello, k⟩, hread, h⟩ := hnext.of_recv.of_lift hp
  obtain ⟨sendCipher, hsend, h⟩ := h.of_lift hp
  obtain ⟨receiveCipher, hreceive, h⟩ := h.of_lift hp
  obtain ⟨hdecode, htranscript⟩ := readServerHello_eq_ok hread
  refine ⟨payload, hello, k, sendCipher, receiveCipher, canonical_clientKeyExchangeInit hpayload,
    rfl, hdecode, htranscript, ?_, hsend, hreceive, h⟩
  have hpayload : clientKeyExchangeInit C c.mlKemAvailable c.ephemeral c.keyExchange =
    .ok payload := hpayload
  have hread : readServerHello c payload (encodeMessage (clientHello c payload)) x =
    .ok (hello, k) := hread
  rw [ClientEnd.keyInputs, hpayload]
  exact bind_eq_ok.2 ⟨_, rfl, bind_eq_ok.2 ⟨_, hread, rfl⟩⟩

/-- A run of the server that goes on after it has sent its hello. -/
theorem of_trace_serverHandshake {s : ServerEnd C}
    (h : (serverHandshake F s).Trace (x :: xs) (frameOf b :: ys) p)
    (hp : xs = [] → ys = [] → ¬ p.Raised) :
    ∃ (answer : Answer F) (k : KeyInputs) (sendCipher receiveCipher : SessionCipher),
      answerHello s x = .ok answer ∧ b = encodeMessage answer.serverHello ∧
      k.transcript = x ++ b ∧ s.keyInputs F x = .ok k ∧
      SessionCipher.init C.aead (deriveSessionKeys C k).2 answer.cipher = .ok sendCipher ∧
      SessionCipher.init C.aead (deriveSessionKeys C k).1 answer.cipher = .ok receiveCipher ∧
      (Conn.sendRecord sendCipher (finished (k.transcriptHash C)) >>= fun sendCipher =>
        serverAfterFinished s answer k sendCipher receiveCipher).Trace xs ys p := by
  rw [serverHandshake, Conn.recvFrame_bind] at h
  obtain ⟨answer, hanswer, h⟩ := h.of_recv.of_lift nofun
  simp only [Conn.sendFrame_bind] at h
  obtain ⟨frame, hframe, h⟩ := h.of_lift nofun
  obtain ⟨hb, hnext⟩ := h.of_send_cons
  obtain rfl := frameOf_injective (hb.trans (sendFrame_eq_ok hframe).2)
  obtain ⟨encoded, hencoded, h⟩ := hnext.of_lift hp
  obtain ⟨clientNonce, hnonce, h⟩ := h.of_lift hp
  obtain ⟨sendCipher, hsend, h⟩ := h.of_lift hp
  obtain ⟨receiveCipher, hreceive, h⟩ := h.of_lift hp
  refine ⟨answer, _, sendCipher, receiveCipher, hanswer, rfl, rfl, ?_, hsend, hreceive, h⟩
  have hanswer : answerHello s x = .ok answer := hanswer
  have hencoded : answer.clientHello.getItem "client_nonce" = .ok encoded := hencoded
  have hnonce : unb64 encoded = .ok clientNonce := hnonce
  rw [ServerEnd.keyInputs, hanswer]
  exact bind_eq_ok.2 ⟨_, rfl, bind_eq_ok.2 ⟨_, hencoded, bind_eq_ok.2 ⟨_, hnonce, rfl⟩⟩⟩

/-! ## Moving bytes from one hello to the other -/

/-- Bytes that are moved from one hello to the other can only be white space, so
    that what is decoded is what was sent. -/
theorem hellos_of_append {a b : Bytes} {m n m' n' : Dict F} (hm : m.Canonical) (hn : n.Canonical)
    (ha : decodeMessage a = .ok m') (hb : decodeMessage b = .ok n')
    (happ : encodeMessage m ++ b = a ++ encodeMessage n) : m' = m ∧ n' = n := by
  have hm' := decodeMessage_encodeMessage hm
  have hn' := decodeMessage_encodeMessage hn
  rcases List.append_eq_append_iff.1 happ with ⟨c, rfl, rfl⟩ | ⟨c, hc, hc'⟩
  · -- The server has read more than the client sent, and the client has read it again.
    obtain ⟨rfl, text, rfl, hspace⟩ := decodeMessage_append hm' ha
    rw [decodeMessage_space hspace hn'] at hb
    exact ⟨rfl, (Except.ok.inj hb).symm⟩
  · -- The server has read less: but nothing that is an object can be cut off.
    obtain rfl := append_of_decodeMessage ha hc.symm hm
    rw [List.append_nil] at hc
    rw [List.nil_append] at hc'
    rw [← hc, hm'] at ha
    rw [← hc', hn'] at hb
    exact ⟨(Except.ok.inj ha).symm, (Except.ok.inj hb).symm⟩

/-! ## Transcript binding -/

/-- What a key is derived from: the salt, the info and the secret of HKDF. -/
def KeyInputs.hkdf (C : Crypto) (k : KeyInputs) : Bytes × Bytes × Bytes :=
  (C.sha256 (ascii "vpn session salt v1" ++ k.clientNonce ++ k.serverNonce),
    ascii "vpn session keys v1" ++ k.transcriptHash C, k.shared)

/-- What is sealed under the key `key` with a cipher of the suite is opened under
    `key'` only if they are the same. -/
def AeadSuite.OpensOnlyUnder (suite : AeadSuite) (key key' : Bytes) : Prop :=
  ∀ cipher cipher' a a' n n' p p',
    makeAead suite cipher key = .ok a → makeAead suite cipher' key' = .ok a' →
    a'.decrypt key' (SessionCipher.nonceBytes n') (SessionCipher.ciphertext a key n p)
      (SessionCipher.aadBytes n') = .ok p' → key = key'

/-- What is assumed of the cryptography, for the keys of a client and those of a
    server: no collision of SHA-256, or of one of the two keys that HKDF returns,
    and records that are opened only under the key they were sealed with. -/
structure Crypto.Ideal (C : Crypto) (client server : KeyInputs) : Prop where
  sha256 : C.sha256 client.transcript = C.sha256 server.transcript →
    client.transcript = server.transcript
  hkdf_toServer : (deriveSessionKeys C client).1 = (deriveSessionKeys C server).1 →
    client.hkdf C = server.hkdf C
  hkdf_toClient : (deriveSessionKeys C client).2 = (deriveSessionKeys C server).2 →
    client.hkdf C = server.hkdf C
  record_toServer :
    C.aead.OpensOnlyUnder (deriveSessionKeys C client).1 (deriveSessionKeys C server).1
  record_toClient :
    C.aead.OpensOnlyUnder (deriveSessionKeys C server).2 (deriveSessionKeys C client).2

omit [PyFloat F] in
theorem Crypto.Ideal.refl (k : KeyInputs) : C.Ideal k k where
  sha256 _ := rfl
  hkdf_toServer _ := rfl
  hkdf_toClient _ := rfl
  record_toServer _ _ _ _ _ _ _ _ _ _ _ := rfl
  record_toClient _ _ _ _ _ _ _ _ _ _ _ := rfl

/-- A key of the one end that is a key of the other is made of the same transcript. -/
theorem Crypto.Ideal.transcript_eq {k k' : KeyInputs} (h : C.Ideal k k')
    (hkdf : k.hkdf C = k'.hkdf C) : k.transcript = k'.transcript :=
  h.sha256 (List.append_cancel_left (Prod.mk.inj (Prod.mk.inj hkdf).2).1)

theorem SessionCipher.init_eq_ok {suite : AeadSuite} {key : Bytes} {cipher : String}
    {c : SessionCipher} (h : SessionCipher.init suite key cipher = .ok c) :
    c.key = key ∧ makeAead suite cipher key = .ok c.aead := by
  rw [SessionCipher.init] at h
  obtain ⟨a, ha, h⟩ := bind_eq_ok.1 h
  obtain rfl := Except.ok.inj h
  exact ⟨rfl, ha⟩

/-- A record that is sealed with one cipher and opened by another. -/
theorem AeadSuite.OpensOnlyUnder.key_eq {suite : AeadSuite} {key key' : Bytes}
    (h : suite.OpensOnlyUnder key key') {cipher cipher' : String} {c c' : SessionCipher}
    (hc : SessionCipher.init suite key cipher = .ok c)
    (hc' : SessionCipher.init suite key' cipher' = .ok c') {r p : Bytes}
    (hsealed : c.Sealed (frameOf r)) (hopen : (c'.decrypt r).1 = .ok p) : key = key' := by
  obtain ⟨rfl, ha⟩ := SessionCipher.init_eq_ok hc
  obtain ⟨rfl, ha'⟩ := SessionCipher.init_eq_ok hc'
  obtain ⟨n, q, hr⟩ := hsealed
  obtain ⟨-, -, hdecrypt, -⟩ := SessionCipher.decrypt_eq_ok (Prod.ext hopen rfl)
  rw [frameOf_injective hr, SessionCipher.drop_record] at hdecrypt
  exact h _ _ _ _ _ _ _ _ ha ha' hdecrypt

/-- When one end accepts a record that was sealed by the other, the transcripts of the two
    ends are the same. -/
theorem transcript_eq_of_accept {c : ClientEnd C} {s : ServerEnd C} {hello : Dict F}
    {answer : Answer F} {k k' : KeyInputs} (hideal : C.Ideal k k')
    {sendCipher receiveCipher sendCipher' receiveCipher' : SessionCipher}
    (hsend : SessionCipher.init C.aead (deriveSessionKeys C k).1 c.cipher = .ok sendCipher)
    (hreceive : SessionCipher.init C.aead (deriveSessionKeys C k).2 c.cipher = .ok receiveCipher)
    (hsend' : SessionCipher.init C.aead (deriveSessionKeys C k').2 answer.cipher = .ok sendCipher')
    (hreceive' : SessionCipher.init C.aead (deriveSessionKeys C k').1 answer.cipher =
      .ok receiveCipher')
    {record : Bytes} {xs ys xs' ys' : List Bytes} {p q : Conn (Session F)}
    (hclient : (clientAfterKeys c hello k sendCipher receiveCipher).Trace xs ys p)
    (hserver : (Conn.sendRecord sendCipher' (finished (k'.transcriptHash C)) >>= fun sendCipher' =>
      serverAfterFinished s answer k' sendCipher' receiveCipher').Trace xs' ys' q)
    (haccept : (xs = [record] ∧ ¬ p.Raised ∧ frameOf record ∈ ys') ∨
      (xs' = [record] ∧ ¬ q.Raised ∧ frameOf record ∈ ys)) : k.transcript = k'.transcript := by
  refine hideal.transcript_eq ?_
  rcases haccept with ⟨rfl, hraised, hmem⟩ | ⟨rfl, hraised, hmem⟩
  · -- The client accepts a record of the server.
    obtain ⟨plaintext, hopen⟩ := Conn.of_trace_recvRecord hclient hraised
    have hsealed := (serverAfterKeys_sends s answer k' sendCipher' receiveCipher').of_mem hserver
      _ hmem
    exact hideal.hkdf_toClient (hideal.record_toClient.key_eq hsend' hreceive hsealed hopen).symm
  · -- The server accepts a record of the client.
    obtain ⟨c', ys', hserver⟩ := Conn.of_trace_sendRecord hserver
    obtain ⟨plaintext, hopen⟩ := Conn.of_trace_recvRecord hserver hraised
    have hsealed := (clientAfterKeys_sends c hello k sendCipher receiveCipher).of_mem hclient
      _ hmem
    exact hideal.hkdf_toServer (hideal.record_toServer.key_eq hsend hreceive' hsealed hopen)

/-- Transcript binding: whatever the two ends receive in place of the hellos, when
    one of them accepts a record that was sealed by the other after its hello,
    what each has decoded is the hello that the other one sent. -/
theorem transcript_binding {c : ClientEnd C} {s : ServerEnd C}
    {clientHelloBytes serverHelloBytes clientHelloBytes' serverHelloBytes' : Bytes}
    {xs ys xs' ys' : List Bytes} {p q : Conn (Session F)}
    (hclient : (clientHandshake F c).Trace (serverHelloBytes' :: xs)
      (frameOf clientHelloBytes :: ys) p)
    (hserver : (serverHandshake F s).Trace (clientHelloBytes' :: xs')
      (frameOf serverHelloBytes :: ys') q)
    (haccept : ∃ record, (xs = [record] ∧ ¬ p.Raised ∧ frameOf record ∈ ys') ∨
      (xs' = [record] ∧ ¬ q.Raised ∧ frameOf record ∈ ys))
    (hideal : ∀ k k', c.keyInputs F serverHelloBytes' = .ok k →
      s.keyInputs F clientHelloBytes' = .ok k' → C.Ideal k k') :
    ∃ payload reply : Dict F,
      clientHelloBytes = encodeMessage (clientHello c payload) ∧
      decodeMessage clientHelloBytes' = .ok (clientHello c payload) ∧
      serverHelloBytes = encodeMessage (serverHello s c.keyExchange c.cipher reply) ∧
      decodeMessage serverHelloBytes' = .ok (serverHello s c.keyExchange c.cipher reply) := by
  obtain ⟨record, haccept⟩ := haccept
  have hp : xs = [] → ys = [] → ¬ p.Raised := by
    rintro rfl rfl
    rcases haccept with ⟨hxs, -⟩ | ⟨-, -, hys⟩
    · cases hxs
    · cases hys
  have hq : xs' = [] → ys' = [] → ¬ q.Raised := by
    rintro rfl rfl
    rcases haccept with ⟨-, -, hys⟩ | ⟨hxs, -⟩
    · cases hys
    · cases hxs
  obtain ⟨payload, hello, k, sendCipher, receiveCipher, hpayload, rfl, hdecode, htranscript, hk,
    hsend, hreceive, hclient⟩ := of_trace_clientHandshake hclient hp
  obtain ⟨answer, k', sendCipher', receiveCipher', hanswer, rfl, htranscript', hk', hsend',
    hreceive', hserver⟩ := of_trace_serverHandshake hserver hq
  have heq := transcript_eq_of_accept (hideal k k' hk hk') hsend hreceive hsend' hreceive' hclient
    hserver haccept
  obtain ⟨hdecode', hkx, hcipher, reply, hreply, hhello⟩ := answerHello_eq_ok hanswer
  rw [hhello] at htranscript'
  obtain ⟨hmessage, hmessage'⟩ := hellos_of_append (canonical_clientHello hpayload)
    (canonical_serverHello hreply) hdecode' hdecode
    (htranscript.symm.trans (heq.trans htranscript'))
  rw [hmessage] at hkx hcipher
  rw [← isStr_keyExchange hkx, ← isStr_cipher hcipher] at hhello hmessage'
  refine ⟨payload, reply, rfl, ?_, congrArg _ hhello, ?_⟩
  · rw [hdecode', hmessage]
  · rw [hdecode, hmessage']

/-- The adversary moves white space: it is what the server reads after the hello of
    the client, and what the client reads before the one of the server. -/
theorem transcript_binding_space : ∃ payload reply : Dict (List Char),
    decodeMessage (encodeMessage (clientHello plainClient payload) ++ encodeUtf8 [' ']) =
      .ok (clientHello plainClient payload) ∧
    decodeMessage (encodeUtf8 [' '] ++ encodeMessage
      (serverHello plainServer plainClient.keyExchange plainClient.cipher reply)) =
      .ok (serverHello plainServer plainClient.keyExchange plainClient.cipher reply) := by
  have h := plain_compatible
  have hC := plainCrypto_correct
  have hkx := mem_keyExchanges h.keyExchange_client
  obtain ⟨payload, reply, shared, hpayload, hresponse, hfinish, hhello, hhello'⟩ :=
    h.exists_hellos (F := List Char) hC
  obtain ⟨a, ha, hinit⟩ := init_of_mem hC h.cipher
  obtain ⟨device, hdevice, hdirectory, hregister⟩ := h.exists_tagged
  have hspace : [' '].all Json.isSpace := rfl
  have hanswer := answerHello_clientHello h
    (decodeMessage_append_space (decodeMessage_encodeMessage hhello.canonical) hspace) hresponse
  have hread := readServerHello_serverHello
    (decodeMessage_space hspace (decodeMessage_encodeMessage hhello'.canonical)) hfinish
    (encodeMessage (clientHello plainClient payload))
  have hnonce : (clientHello plainClient payload).getItem "client_nonce" =
      .ok (b64 plainClient.nonce) := Dict.getItem_ofList rfl
  have hip : (serverHello plainServer plainClient.keyExchange plainClient.cipher reply).getItem
      "vpn_ip" = .ok (.ofString plainServer.vpnIp) := Dict.getItem_ofList rfl
  generalize hk : KeyInputs.mk shared plainClient.nonce plainServer.nonce _ = k at hread
  rcases hkeys : deriveSessionKeys plainCrypto k with ⟨toServer, toClient⟩
  obtain ⟨p₁, p₂, hclient₁, hclient₂, hclient₃⟩ := clientHandshake_trace hC ha hinit hkx h.cipher
    hpayload hhello hread hip hdevice (fun d hd => (hregister d hd).1) hkeys
  have hk' : KeyInputs.mk shared plainClient.nonce plainServer.nonce
      ((encodeMessage (clientHello plainClient payload) ++ encodeUtf8 [' ']) ++
        encodeMessage (serverHello plainServer plainClient.keyExchange plainClient.cipher reply)) =
      k := by
    rw [← hk, List.append_assoc]
  obtain ⟨q, hserver₁, hserver₂⟩ := serverHandshake_trace hC ha hinit hanswer hhello' hnonce
    hk' hdirectory (fun d hd => ⟨(hregister d hd).1.2, (hregister d hd).2⟩) hkeys
  have hraised : ¬ p₂.Raised := by
    rintro ⟨e, rfl⟩
    obtain ⟨-, -, e', hret⟩ := hclient₃.of_raise
    cases hret
  have hideal : ∀ k₁ k₂ x y, x = encodeUtf8 [' '] ++ encodeMessage
      (serverHello plainServer plainClient.keyExchange plainClient.cipher reply) →
      y = encodeMessage (clientHello plainClient payload) ++ encodeUtf8 [' '] →
      plainClient.keyInputs (List Char) x = .ok k₁ → plainServer.keyInputs (List Char) y = .ok k₂ →
      plainCrypto.Ideal k₁ k₂ := by
    rintro k₁ k₂ x y rfl rfl hk₁ hk₂
    rw [ClientEnd.keyInputs, hpayload] at hk₁
    rw [ServerEnd.keyInputs, hanswer] at hk₂
    obtain ⟨_, ⟨rfl⟩, hk₁⟩ := bind_eq_ok.1 hk₁
    obtain ⟨_, ⟨rfl⟩, hk₂⟩ := bind_eq_ok.1 hk₂
    rw [hread] at hk₁
    rw [hnonce] at hk₂
    have heq : k = k₂ := hk'.symm.trans (Except.ok.inj hk₂)
    obtain rfl := Except.ok.inj hk₁
    obtain rfl := heq
    exact .refl k
  obtain ⟨payload', reply', hpayload', hdecode, hreply', hdecode'⟩ := transcript_binding
    (hclient₁.append hclient₂) hserver₁ ⟨_, .inl ⟨rfl, hraised, List.mem_singleton_self _⟩⟩
    fun k₁ k₂ => hideal k₁ k₂ _ _ rfl rfl
  rw [hpayload'] at hdecode
  rw [hreply'] at hdecode'
  exact ⟨payload', reply', hdecode, hdecode'⟩

end SecNet
