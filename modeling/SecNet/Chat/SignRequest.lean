import SecNet.Chat.JsonValue
import SecNet.Handshake.DeviceAuth

/-!
# What the chat agent signs

The chat agent of a device signs the challenges with which the device logs in to the
chat (`POST /v1/sign`), with the key, and behind the context, with which the device
also proves who it is in a VPN handshake. What keeps the two apart is only what is in
the messages.

* `sign_domains`: no short challenge, and none without the label of the binding, is
  signed like the proof of a session;
* `sign_binding`: but a challenge that is such a proof is.
-/

namespace SecNet

variable {C : Crypto} {F : Type} [PyFloat F]

/-- `POST /v1/sign`: what is answered to a body. -/
def signRequest (d : DeviceIdentity C) (body : Json F) : Except Exn (Dict F) := do
  let challenge ← agentUnb64 (← body.getItem "challenge")
  return .ofList [("signature", b64 (d.sign challenge))]

/-- A challenge that cannot be the proof of a session: it is too short, like the 32 bytes
    of `/api/auth/challenge`, or it does not begin with the label. -/
def ChallengeOnly (challenge : Bytes) : Prop :=
  challenge.length < 140 ∨ ¬deviceAuthLabel <+: challenge

theorem ChallengeOnly.ne_deviceAuthMessage (hsha : ∀ data, (C.sha256 data).length = 32)
    {challenge : Bytes} (h : ChallengeOnly challenge) {k : KeyInputs}
    (hk : k.serverNonce.length = 16) {publicKey encryptionPublicKey : Bytes}
    (hpublic : publicKey.length = 32) (hencryption : encryptionPublicKey.length = 32) :
    challenge ≠ deviceAuthMessage C k publicKey encryptionPublicKey := by
  rintro rfl
  rcases h with hshort | hlabel
  · rw [length_deviceAuthMessage hsha hk hpublic hencryption] at hshort
    omega
  · rw [deviceAuthMessage_eq] at hlabel
    exact hlabel (List.prefix_append _ _)

/-- What the agent signs for a challenge is what a server verifies for a session just
    when the challenge is the message of that session. No other challenge gets a
    signature with which the device is authenticated, if a signature is verified only
    for what was signed. -/
theorem sign_domains (hsha : ∀ data, (C.sha256 data).length = 32) (d : DeviceIdentity C)
    {body : Json F} {response : Dict F} (hresponse : signRequest d body = .ok response) :
    ∃ challenge, body.getItem "challenge" >>= agentUnb64 = .ok challenge ∧ response = .ofList
        [("signature", b64 (C.ed25519Sign d.privateKey (deviceAuthContext ++ challenge)))] ∧
      (∀ k publicKey encryptionPublicKey,
        (deviceAuthContext ++ challenge =
          deviceAuthContext ++ deviceAuthMessage C k publicKey encryptionPublicKey ↔
            challenge = deviceAuthMessage C k publicKey encryptionPublicKey)) ∧
      (ChallengeOnly challenge →
        (∀ k publicKey encryptionPublicKey, k.serverNonce.length = 16 → publicKey.length = 32 →
          encryptionPublicKey.length = 32 → deviceAuthContext ++ challenge ≠
            deviceAuthContext ++ deviceAuthMessage C k publicKey encryptionPublicKey) ∧
        ((∀ k encryptionPublicKey, C.ed25519Verify d.publicKeyBytes (deviceAuthContext ++
            deviceAuthMessage C k d.publicKeyBytes encryptionPublicKey) (d.sign challenge) =
              .ok () → deviceAuthMessage C k d.publicKeyBytes encryptionPublicKey = challenge) →
          ∀ k plaintext proof, k.serverNonce.length = 16 →
            verifyDeviceAuth C F k plaintext = .ok proof →
            proof.publicKey = d.publicKeyBytes → proof.signature ≠ d.sign challenge)) := by
  obtain ⟨item, hitem, h⟩ := bind_eq_ok.1 hresponse
  obtain ⟨challenge, hchallenge, h⟩ := bind_eq_ok.1 h
  refine ⟨challenge, bind_eq_ok.2 ⟨item, hitem, hchallenge⟩, (Except.ok.inj h).symm,
    fun k publicKey encryptionPublicKey => ?_, fun honly => ⟨?_, ?_⟩⟩
  · exact ⟨List.append_cancel_left, congrArg _⟩
  · intro k publicKey encryptionPublicKey hk hpublic hencryption heq
    exact honly.ne_deviceAuthMessage hsha hk hpublic hencryption (List.append_cancel_left heq)
  · intro hsigned k plaintext proof hk hproof hpublic hsignature
    obtain ⟨hlength, hencryption, hverify⟩ := verifyDeviceAuth_eq_ok hproof
    rw [hsignature, hpublic] at hverify
    rw [hpublic] at hlength
    exact honly.ne_deviceAuthMessage hsha hk hlength hencryption (hsigned k _ hverify).symm

/-- The keys of a session of concrete runs. -/
def plainKeys : KeyInputs := ⟨[], List.replicate 16 1, List.replicate 16 2, []⟩

/-- The request of a challenge. -/
def challengeBody (challenge : Bytes) : Json (List Char) :=
  .obj (Dict.ofList [("challenge", b64 challenge)])

theorem challenge_challengeBody (challenge : Bytes) :
    (challengeBody challenge).getItem "challenge" >>= agentUnb64 = .ok challenge := by
  have hitem : (challengeBody challenge).getItem "challenge" = .ok (b64 challenge) :=
    Dict.getItem_ofList rfl
  exact bind_eq_ok.2 ⟨_, hitem, agentUnb64_b64 challenge⟩

theorem signRequest_challengeBody (d : DeviceIdentity C) (challenge : Bytes) :
    signRequest d (challengeBody challenge) =
      .ok (.ofList [("signature", b64 (d.sign challenge))]) := by
  obtain ⟨item, hitem, hchallenge⟩ := bind_eq_ok.1 (challenge_challengeBody challenge)
  exact bind_eq_ok.2 ⟨item, hitem, bind_eq_ok.2 ⟨challenge, hchallenge, rfl⟩⟩

/-- A challenge of 32 bytes. -/
theorem sign_domains_zeros :
    deviceAuthContext ++ List.replicate 32 0 ≠ deviceAuthContext ++ deviceAuthMessage plainCrypto
      plainKeys plainDevice.publicKeyBytes plainDevice.directPublicKeyBytes := by
  obtain ⟨challenge, hchallenge, -, -, honly⟩ := sign_domains plainCrypto_correct.length_sha256
    plainDevice (signRequest_challengeBody plainDevice (List.replicate 32 0))
  rw [challenge_challengeBody] at hchallenge
  obtain rfl := Except.ok.inj hchallenge
  exact (honly (.inl (by decide))).1 plainKeys _ _ rfl rfl rfl

/-- The agent signs, as a challenge, the proof of a session, and the server of that session
    takes the signature for the proof. -/
theorem sign_binding :
    let challenge := deviceAuthMessage plainCrypto plainKeys plainDevice.publicKeyBytes
      plainDevice.directPublicKeyBytes
    signRequest plainDevice (challengeBody challenge) =
        .ok (.ofList [("signature", b64 (plainDevice.sign challenge))]) ∧
      verifyDeviceSignature plainCrypto plainDevice.publicKeyBytes
        (deviceAuthMessage plainCrypto plainKeys plainDevice.publicKeyBytes
          plainDevice.directPublicKeyBytes) (plainDevice.sign challenge) = .ok () := by
  intro challenge
  refine ⟨signRequest_challengeBody plainDevice challenge, verifyDeviceSignature_eq_ok.2 ⟨rfl, ?_⟩⟩
  exact plainCrypto_correct.verify_sign _ _

end SecNet
