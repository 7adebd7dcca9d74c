import SecNet.Chat.Directory
import SecNet.Handshake.DeviceAuth

/-!
# The runs of `server_handshake` and the directory

Any number of runs of `server_handshake` share the device directory, each against a
client that sends what it likes. Between the steps of the runs the users of the chat
change their names.

* `DeviceSessions.Inv`: before it calls `register_or_get`, a run has followed its
  process on the frames of the stream of its client;
* `authenticated_of_called`: a run that calls it has been authenticated;
* `eq_of_signed`: with a signature that was made for this run;
* `directory_guarded`: so that the key of a device changes only with a signature of the
  device over the session that changes it.
-/

namespace SecNet

variable {C : Crypto} {F : Type} [PyFloat F] {ι : Type} [DecidableEq ι]

/-- `server_handshake`, whatever directory it is called with. -/
theorem serverHandshake_directory (s : ServerEnd C)
    (registerOrGet : Bytes → Bytes → Except Exn String) :
    serverHandshake F { s with registerOrGet := some registerOrGet } =
      (serverBeforeRegister F s >>= fun r =>
        Process.lift (registerOrGet r.proof.publicKey r.proof.encryptionPublicKey) >>=
          serverAfterRegister s r) :=
  serverHandshake_eq rfl

/-! ## The system -/

/-- Where a run of `server_handshake` is: before the call of `register_or_get`, or
    after it. -/
inductive DeviceRun (F : Type)
  | before (p : Conn (Registering F))
  | after (p : Conn (Session F))

/-- The directory, and the runs: where each is, what its client has sent, and what of it
    has not been received. -/
structure DeviceSessions (ι F : Type) where
  directory : Directory
  run : ι → DeviceRun F
  stream : ι → Bytes
  inbox : ι → Bytes

/-- What may happen: a chunk comes from a client, a run sends or receives, its connection
    breaks, it calls `register_or_get` (with the tag that may be drawn, and the outcome of
    the publish), or a user changes a name. -/
inductive DeviceEvent (ι : Type)
  | arrive (i : ι) (chunk : Bytes)
  | proceed (i : ι)
  | interrupt (i : ι) (e : Exn)
  | register (i : ι) (tag : String) (publish : Except Exn Unit)
  | updateUsername (deviceTag : String) (username : PyStr) (publish : Except Exn Unit)

/-- The run that a step is of, if it is of one. -/
def DeviceEvent.index {ι : Type} : DeviceEvent ι → Option ι
  | .arrive i _ => some i
  | .proceed i => some i
  | .interrupt i _ => some i
  | .register i _ _ => some i
  | .updateUsername _ _ _ => none

namespace DeviceSessions

variable (ends : ι → ServerEnd C)

/-- A step of a run that sends or receives. -/
def proceed (s : DeviceSessions ι F) (i : ι) : Option (DeviceSessions ι F) :=
  match s.run i with
  | .before p => do
    let (p, inbox, _) ← p.act frames (s.inbox i)
    some { s with
      run := Function.update s.run i (.before p)
      inbox := Function.update s.inbox i inbox }
  | .after p => do
    let (p, inbox, _) ← p.act frames (s.inbox i)
    some { s with
      run := Function.update s.run i (.after p)
      inbox := Function.update s.inbox i inbox }

/-- A run whose connection breaks. -/
def interrupt (s : DeviceSessions ι F) (i : ι) (e : Exn) : Option (DeviceSessions ι F) :=
  match s.run i with
  | .before p => do
    let p ← p.interrupt e
    some { s with run := Function.update s.run i (.before p) }
  | .after p => do
    let p ← p.interrupt e
    some { s with run := Function.update s.run i (.after p) }

/-- The call of `register_or_get`. -/
def register (s : DeviceSessions ι F) (i : ι) (tag : String) (publish : Except Exn Unit) :
    Option (DeviceSessions ι F) :=
  match s.run i with
  | .before (.ret r) =>
    let (directory, deviceTag) := Directory.registerOrGet C s.directory r.proof.publicKey
      r.proof.encryptionPublicKey tag publish
    some { s with
      directory := directory
      run := Function.update s.run i
        (.after (Process.lift deviceTag >>= serverAfterRegister (ends i) r)) }
  | _ => none

/-- A step. -/
def next (s : DeviceSessions ι F) : DeviceEvent ι → Option (DeviceSessions ι F)
  | .arrive i chunk => some { s with
      stream := Function.update s.stream i (s.stream i ++ chunk)
      inbox := Function.update s.inbox i (s.inbox i ++ chunk) }
  | .proceed i => s.proceed i
  | .interrupt i e => s.interrupt i e
  | .register i tag publish => s.register ends i tag publish
  | .updateUsername deviceTag username publish =>
    some { s with directory := (s.directory.updateUsername deviceTag username publish).1 }

/-- No run has received anything yet, with any directory. -/
def start (F : Type) [PyFloat F] (directory : Directory) : DeviceSessions ι F where
  directory := directory
  run i := .before (serverBeforeRegister F (ends i))
  stream _ := []
  inbox _ := []

/-- The system, with the directory of any snapshot at the start. -/
def system (F : Type) [PyFloat F] : System (DeviceSessions ι F) (DeviceEvent ι) :=
  .ofPartial (fun s => ∃ records directory, Directory.replay records = .ok directory ∧
    s = start ends F directory) (next ends)

/-! ## The invariant -/

/-- Before `register_or_get`, a run that has not raised has followed its process on the
    frames at the front of the stream of its client. -/
def Follows (s : DeviceSessions ι F) (i : ι) (p : Conn (Registering F)) : Prop :=
  p.Raised ∨ ∃ xs ys, (serverBeforeRegister F (ends i)).Trace xs ys p ∧
    s.stream i = xs.flatMap frameOf ++ s.inbox i

/-- What holds in every run of the system. -/
structure Inv (s : DeviceSessions ι F) : Prop where
  directory : s.directory.Inv
  follows : ∀ {i p}, s.run i = .before p → s.Follows ends i p

variable {ends}

theorem inv_of_init {s : DeviceSessions ι F} (h : (system ends F).init s) : s.Inv ends := by
  obtain ⟨records, directory, hreplay, rfl⟩ := h
  refine ⟨Directory.inv_replay hreplay, fun {i p} hp => ?_⟩
  obtain rfl := DeviceRun.before.inj hp
  exact .inr ⟨[], [], .nil _, rfl⟩

/-! ## The steps -/

variable {s s' : DeviceSessions ι F}

omit [PyFloat F] in
/-- What a run that sends or receives does, and where it came from if it is before
    `register_or_get`. -/
theorem proceed_eq_some {i : ι} (h : s.proceed i = some s') : ∃ q inbox,
    s' = { s with
      run := Function.update s.run i q
      inbox := Function.update s.inbox i inbox } ∧
    ∀ p', q = .before p' → ∃ p out, s.run i = .before p ∧
      p.act frames (s.inbox i) = some (p', inbox, out) := by
  rw [proceed] at h
  rcases hrun : s.run i with p | p <;> simp only [hrun] at h
  · obtain ⟨⟨p', inbox, out⟩, hact, h⟩ := Option.bind_eq_some_iff.1 h
    refine ⟨.before p', inbox, (Option.some.inj h).symm, fun q hq => ⟨p, out, rfl, ?_⟩⟩
    rw [hact, DeviceRun.before.inj hq]
  · obtain ⟨⟨p', inbox, out⟩, -, h⟩ := Option.bind_eq_some_iff.1 h
    exact ⟨_, inbox, (Option.some.inj h).symm, nofun⟩

omit [PyFloat F] in
/-- A run whose connection breaks raises. -/
theorem interrupt_eq_some {i : ι} {e : Exn} (h : s.interrupt i e = some s') : ∃ q,
    s' = { s with run := Function.update s.run i q } ∧
    ∀ p', q = .before p' → (∃ p, s.run i = .before p) ∧ p'.Raised := by
  rw [interrupt] at h
  rcases hrun : s.run i with p | p <;> simp only [hrun] at h
  · obtain ⟨p', hp', h⟩ := Option.bind_eq_some_iff.1 h
    refine ⟨_, (Option.some.inj h).symm, fun q hq => ⟨⟨p, rfl⟩, ?_⟩⟩
    rw [← DeviceRun.before.inj hq]
    exact Process.raised_of_interrupt hp'
  · obtain ⟨p', -, h⟩ := Option.bind_eq_some_iff.1 h
    exact ⟨_, (Option.some.inj h).symm, nofun⟩

/-- A run calls `register_or_get` when it has got to it. -/
theorem register_eq_some {i : ι} {tag : String} {publish : Except Exn Unit}
    (h : s.register ends i tag publish = some s') : ∃ r, s.run i = .before (.ret r) ∧
      s'.directory = (Directory.registerOrGet C s.directory r.proof.publicKey
        r.proof.encryptionPublicKey tag publish).1 ∧
      s'.run = Function.update s.run i (.after (Process.lift (Directory.registerOrGet C
        s.directory r.proof.publicKey r.proof.encryptionPublicKey tag publish).2 >>=
          serverAfterRegister (ends i) r)) ∧
      s'.stream = s.stream ∧ s'.inbox = s.inbox := by
  rw [register] at h
  split at h
  · rename_i r hrun
    obtain rfl := Option.some.inj h
    exact ⟨r, hrun, rfl, rfl, rfl, rfl⟩
  · cases h

omit [DecidableEq ι] in
/-- What a step of another run leaves. -/
theorem Follows.congr {i : ι} {p : Conn (Registering F)} (h : s.Follows ends i p)
    (hstream : s'.stream i = s.stream i) (hinbox : s'.inbox i = s.inbox i) :
    s'.Follows ends i p := by
  rwa [Follows, hstream, hinbox]

/-- A step of one run keeps the invariant, when the run still follows its process. -/
theorem Inv.of_run (hs : s.Inv ends) {i : ι} (hdirectory : s'.directory.Inv)
    (hrun : ∀ j ≠ i, s'.run j = s.run j) (hstream : ∀ j ≠ i, s'.stream j = s.stream j)
    (hinbox : ∀ j ≠ i, s'.inbox j = s.inbox j)
    (hi : ∀ p, s'.run i = .before p → s'.Follows ends i p) : s'.Inv ends := by
  refine ⟨hdirectory, fun {j p} hp => ?_⟩
  by_cases hj : j = i
  · subst hj
    exact hi p hp
  · rw [hrun j hj] at hp
    exact (hs.follows hp).congr (hstream j hj) (hinbox j hj)

theorem inv_proceed (hs : s.Inv ends) {i : ι} (h : s.proceed i = some s') : s'.Inv ends := by
  obtain ⟨q, inbox, rfl, hq⟩ := proceed_eq_some h
  refine hs.of_run hs.directory (fun j hj => Function.update_of_ne hj ..) (fun _ _ => rfl)
    (fun j hj => Function.update_of_ne hj ..) fun p' hp' => ?_
  simp only [Function.update_self] at hp'
  obtain ⟨p, out, hrun, hact⟩ := hq p' hp'
  rcases Process.trace_of_act eq_of_frames_front hact with hraised | ⟨xs, ys, htrace, hinbox⟩
  · exact .inl hraised
  rcases hs.follows hrun with ⟨e, rfl⟩ | ⟨xs₀, ys₀, htrace₀, hstream⟩
  · cases hact
  · refine .inr ⟨xs₀ ++ xs, ys₀ ++ ys, htrace₀.append htrace, ?_⟩
    simp only [Function.update_self]
    rw [hstream, hinbox, List.flatMap_append, List.append_assoc]

theorem inv_interrupt (hs : s.Inv ends) {i : ι} {e : Exn} (h : s.interrupt i e = some s') :
    s'.Inv ends := by
  obtain ⟨q, rfl, hq⟩ := interrupt_eq_some h
  refine hs.of_run hs.directory (fun j hj => Function.update_of_ne hj ..) (fun _ _ => rfl)
    (fun _ _ => rfl) fun p' hp' => ?_
  simp only [Function.update_self] at hp'
  exact .inl (hq p' hp').2

theorem inv_register (hs : s.Inv ends) {i : ι} {tag : String} {publish : Except Exn Unit}
    (h : s.register ends i tag publish = some s') : s'.Inv ends := by
  obtain ⟨r, -, hdirectory, hrun, hstream, hinbox⟩ := register_eq_some h
  refine hs.of_run (hdirectory ▸ Directory.inv_registerOrGet C hs.directory _ _ _ _)
    (fun j hj => hrun ▸ Function.update_of_ne hj ..) (fun j _ => congrFun hstream j)
    (fun j _ => congrFun hinbox j) fun q hq => ?_
  rw [hrun, Function.update_self] at hq
  cases hq

theorem inv_next (hs : s.Inv ends) {a : DeviceEvent ι} (h : s.next ends a = some s') :
    s'.Inv ends := by
  cases a with
  | arrive i chunk =>
    obtain rfl := Option.some.inj h
    refine hs.of_run hs.directory (fun _ _ => rfl) (fun j hj => Function.update_of_ne hj ..)
      (fun j hj => Function.update_of_ne hj ..) fun q hq => ?_
    rcases hs.follows hq with hraised | ⟨xs, ys, htrace, hstream⟩
    · exact .inl hraised
    · refine .inr ⟨xs, ys, htrace, ?_⟩
      simp only [Function.update_self]
      rw [hstream, List.append_assoc]
  | proceed i => exact inv_proceed hs h
  | interrupt i e => exact inv_interrupt hs h
  | register i tag publish => exact inv_register hs h
  | updateUsername deviceTag username publish =>
    obtain rfl := Option.some.inj h
    exact ⟨Directory.inv_updateUsername hs.directory _ _ _, hs.follows⟩

theorem inv_run {s₀ : DeviceSessions ι F} {as : List (DeviceEvent ι)}
    (h₀ : (system ends F).init s₀) (h : (system ends F).Run s₀ as s) : s.Inv ends :=
  h.invariant (I := fun s => s.Inv ends) (fun _ _ _ hs ha => inv_next hs ha) (inv_of_init h₀)

/-! ## Authentication -/

/-- A run that calls `register_or_get` has been authenticated: it has received a hello, a
    Finished record, and a proof whose signature is verified, under the public key of the
    proof, for the context, the hash of the transcript and the two nonces of this run, and
    the two keys of the proof. -/
structure Authenticated (ends : ι → ServerEnd C) (s : DeviceSessions ι F) (i : ι)
    (r : Registering F) : Prop where
  called : s.run i = .before (.ret r)
  received : ∃ clientHelloBytes finish auth receiveCipher plaintext,
    s.stream i = [clientHelloBytes, finish, auth].flatMap frameOf ++ s.inbox i ∧
    (ends i).keyInputs F clientHelloBytes = .ok r.keys ∧
    SessionCipher.init C.aead (deriveSessionKeys C r.keys).1 r.answer.cipher = .ok receiveCipher ∧
    (receiveCipher.decrypt finish).1 = .ok (finished (r.keys.transcriptHash C)) ∧
    ((receiveCipher.decrypt finish).2.decrypt auth).1 = .ok plaintext ∧
    verifyDeviceAuth C F r.keys plaintext = .ok r.proof
  nonce : r.keys.serverNonce = (ends i).nonce
  verified : C.ed25519Verify r.proof.publicKey (deviceAuthContext ++ deviceAuthLabel ++
    r.keys.transcriptHash C ++ r.keys.clientNonce ++ (ends i).nonce ++ r.proof.publicKey ++
      r.proof.encryptionPublicKey) r.proof.signature = .ok ()

/-- The keys of a session have the nonce of its server. -/
theorem serverNonce_keyInputs {e : ServerEnd C} {clientHelloBytes : Bytes} {k : KeyInputs}
    (h : e.keyInputs F clientHelloBytes = .ok k) : k.serverNonce = e.nonce := by
  rw [ServerEnd.keyInputs] at h
  obtain ⟨answer, -, h⟩ := bind_eq_ok.1 h
  obtain ⟨_, -, h⟩ := bind_eq_ok.1 h
  obtain ⟨clientNonce, -, h⟩ := bind_eq_ok.1 h
  obtain rfl := Except.ok.inj h
  rfl

omit [DecidableEq ι] in
theorem authenticated_of_called (hs : s.Inv ends) {i : ι} {r : Registering F}
    (hr : s.run i = .before (.ret r)) : s.Authenticated ends i r := by
  rcases hs.follows hr with hraised | ⟨xs, ys, htrace, hstream⟩
  · exact absurd hraised (Process.not_raised_ret r)
  obtain ⟨clientHelloBytes, finish, auth, receiveCipher, plaintext, rfl, hkeys, hinit, hfinish,
    hauth, hproof⟩ := of_trace_serverBeforeRegister htrace
  have hnonce := serverNonce_keyInputs hkeys
  obtain ⟨-, -, hverify⟩ := verifyDeviceAuth_eq_ok hproof
  rw [deviceAuthMessage_eq, hnonce] at hverify
  refine ⟨hr, ⟨clientHelloBytes, finish, auth, receiveCipher, plaintext, hstream, hkeys, hinit,
    hfinish, hauth, hproof⟩, hnonce, ?_⟩
  simpa only [List.append_assoc] using hverify

/-- What a step leaves before `register_or_get` was there before the step. -/
theorem before_of_next {a : DeviceEvent ι} (h : s.next ends a = some s') {i : ι}
    {p' : Conn (Registering F)} (hp' : s'.run i = .before p') :
    (∃ p, s.run i = .before p) ∧ ∀ tag publish, a ≠ .register i tag publish := by
  have hupdate {j : ι} {q : DeviceRun F} (hq : s'.run = Function.update s.run j q)
      (hj : ∀ q', q = .before q' → ∃ p, s.run j = .before p) : ∃ p, s.run i = .before p := by
    rw [hq] at hp'
    by_cases hij : i = j
    · subst hij
      rw [Function.update_self] at hp'
      exact hj _ hp'
    · rw [Function.update_of_ne hij] at hp'
      exact ⟨p', hp'⟩
  cases a with
  | arrive j chunk =>
    obtain rfl := Option.some.inj h
    exact ⟨⟨p', hp'⟩, fun _ _ => nofun⟩
  | proceed j =>
    obtain ⟨q, inbox, rfl, hq⟩ := proceed_eq_some h
    refine ⟨hupdate rfl fun p' hp' => ?_, fun _ _ => nofun⟩
    obtain ⟨p, -, hrun, -⟩ := hq p' hp'
    exact ⟨p, hrun⟩
  | interrupt j e =>
    obtain ⟨q, rfl, hq⟩ := interrupt_eq_some h
    exact ⟨hupdate rfl fun p' hp' => (hq p' hp').1, fun _ _ => nofun⟩
  | register j tag publish =>
    obtain ⟨r, -, -, hrun, -, -⟩ := register_eq_some h
    refine ⟨hupdate hrun nofun, fun tag' publish' heq => ?_⟩
    obtain ⟨rfl, -, -⟩ := DeviceEvent.register.inj heq
    rw [hrun, Function.update_self] at hp'
    cases hp'
  | updateUsername deviceTag username publish =>
    obtain rfl := Option.some.inj h
    exact ⟨⟨p', hp'⟩, fun _ _ => nofun⟩

/-- A run that has not got beyond `register_or_get` has not called it. -/
theorem not_registered {s₀ : DeviceSessions ι F} {as : List (DeviceEvent ι)}
    (h : (system ends F).Run s₀ as s) {i : ι} {p : Conn (Registering F)}
    (hp : s.run i = .before p) (tag : String) (publish : Except Exn Unit) :
    .register i tag publish ∉ as := by
  induction h generalizing p with
  | nil => exact List.not_mem_nil
  | snoc _ ha ih =>
    obtain ⟨⟨p₀, hp₀⟩, hne⟩ := before_of_next ha hp
    rw [List.mem_append, List.mem_singleton]
    rintro (hmem | heq)
    · exact ih hp₀ hmem
    · exact hne tag publish heq.symm

/-! ## The directory is guarded -/

variable (C) in
/-- What the runs accept are signatures that were made: `signed` is the message that a key
    has signed with a signature, and the message that is verified is this one. -/
def SignedOnly (signed : Bytes → Bytes → Option Bytes) (s : DeviceSessions ι F) : Prop :=
  ∀ i r, s.run i = .before (.ret r) →
    C.ed25519Verify r.proof.publicKey (deviceAuthContext ++
      deviceAuthMessage C r.keys r.proof.publicKey r.proof.encryptionPublicKey)
        r.proof.signature = .ok () →
    signed r.proof.publicKey r.proof.signature = some (deviceAuthContext ++
      deviceAuthMessage C r.keys r.proof.publicKey r.proof.encryptionPublicKey)

/-- A step that changes the directory registers a device, or changes a name. -/
theorem directory_of_next {a : DeviceEvent ι} (h : s.next ends a = some s')
    (hregister : ∀ i tag publish, a ≠ .register i tag publish) (ha : a.index ≠ none) :
    s'.directory = s.directory := by
  cases a with
  | arrive i chunk =>
    obtain rfl := Option.some.inj h
    rfl
  | proceed i =>
    obtain ⟨q, inbox, rfl, -⟩ := proceed_eq_some h
    rfl
  | interrupt i e =>
    obtain ⟨q, rfl, -⟩ := interrupt_eq_some h
    rfl
  | register i tag publish => exact absurd rfl (hregister i tag publish)
  | updateUsername deviceTag username publish => exact absurd rfl ha

omit [DecidableEq ι] in
/-- A signature that was made for the session of one run is not accepted in another. -/
theorem eq_of_signed (hsha : ∀ data, (C.sha256 data).length = 32)
    (hnonce : ∀ i j, (ends i).nonce = (ends j).nonce → i = j) (hs : s.Inv ends)
    {signed : Bytes → Bytes → Option Bytes} (hsigned : s.SignedOnly C signed) {i j : ι}
    {r : Registering F} (hr : s.run i = .before (.ret r)) {clientHelloBytes : Bytes}
    {k : KeyInputs} (hk : (ends j).keyInputs F clientHelloBytes = .ok k)
    {publicKey encryptionPublicKey : Bytes} (hpublic : publicKey.length = 32)
    (hencryption : encryptionPublicKey.length = 32)
    (hmade : signed r.proof.publicKey r.proof.signature = some (deviceAuthContext ++
      deviceAuthMessage C k publicKey encryptionPublicKey)) : i = j := by
  obtain ⟨-, ⟨_, _, _, _, _, -, -, -, -, -, hproof⟩, hnonce_i, -⟩ := authenticated_of_called hs hr
  obtain ⟨hpublic', hencryption', hverify⟩ := verifyDeviceAuth_eq_ok hproof
  have hmessage := Option.some.inj ((hsigned i r hr hverify).symm.trans hmade)
  have hnonce_j := serverNonce_keyInputs hk
  obtain ⟨-, -, hserver, -, -⟩ := deviceAuthMessage_injective hsha
    (hnonce_i ▸ (ends i).length_nonce) (hnonce_j ▸ (ends j).length_nonce) hpublic' hpublic
    hencryption' hencryption (List.append_cancel_left hmessage)
  exact hnonce i j (hnonce_i.symm.trans (hserver.trans hnonce_j))

/-- The encryption key of a device changes only when a run registers that device, with the
    key of its proof. -/
theorem registers_of_encryptionKey_ne (hs : s.Inv ends) {a : DeviceEvent ι} {id : String}
    (h : s.next ends a = some s')
    (hchange : s'.directory.encryptionKey id ≠ s.directory.encryptionKey id) :
    ∃ i tag publish r, a = .register i tag publish ∧ s.run i = .before (.ret r) ∧
      id = deviceId C r.proof.publicKey ∧
      s'.directory.encryptionKey id = some (some (b64Text r.proof.encryptionPublicKey)) := by
  by_cases hindex : a.index = none
  · -- A new name.
    cases a with
    | updateUsername deviceTag username publish =>
      obtain rfl := Option.some.inj h
      exact absurd (Directory.encryptionKey_updateUsername hs.directory ..) hchange
    | _ => cases hindex
  by_cases hregister : ∃ i tag publish, a = .register i tag publish
  · obtain ⟨i, tag, publish, rfl⟩ := hregister
    obtain ⟨r, hr, hdirectory, -⟩ := register_eq_some h
    rw [hdirectory] at hchange ⊢
    obtain ⟨hid, hkey⟩ := Directory.encryptionKey_registerOrGet C hs.directory hchange
    exact ⟨i, tag, publish, r, rfl, hr, hid, hkey⟩
  · push Not at hregister
    exact absurd (by rw [directory_of_next h hregister hindex]) hchange

/-- The directory is guarded, in every run of the system. A run calls `register_or_get`
    only when it has been authenticated, with the keys of its proof. The steps of a run
    that has not got beyond it, as one that has raised before, have left the directory as
    it was. No signature made for the session of one run is accepted in another. And the
    encryption key of a device changes only when a run registers that device, with a
    signature that its key has made for the session of this run. -/
theorem directory_guarded (hsha : ∀ data, (C.sha256 data).length = 32)
    (hinjective : ∀ key key' : Bytes, key.length = 32 → key'.length = 32 →
      C.sha256 key = C.sha256 key' → key = key')
    (hnonce : ∀ i j, (ends i).nonce = (ends j).nonce → i = j)
    {signed : Bytes → Bytes → Option Bytes} {s₀ : DeviceSessions ι F}
    {as : List (DeviceEvent ι)} (h₀ : (system ends F).init s₀)
    (hrun : (system ends F).Run s₀ as s) (hsigned : s.SignedOnly C signed) :
    (∀ i tag publish s', s.next ends (.register i tag publish) = some s' → ∃ r,
      s.Authenticated ends i r ∧ s'.directory = (Directory.registerOrGet C s.directory
        r.proof.publicKey r.proof.encryptionPublicKey tag publish).1) ∧
    (∀ i p, s.run i = .before p → ∀ as₁ a as₂ s₁ s₂, as = as₁ ++ a :: as₂ → a.index = some i →
      (system ends F).Run s₀ as₁ s₁ → s₁.next ends a = some s₂ →
        s₂.directory = s₁.directory) ∧
    (∀ i j r clientHelloBytes k publicKey encryptionPublicKey, s.run i = .before (.ret r) →
      (ends j).keyInputs F clientHelloBytes = .ok k → publicKey.length = 32 →
      encryptionPublicKey.length = 32 → signed r.proof.publicKey r.proof.signature =
        some (deviceAuthContext ++ deviceAuthMessage C k publicKey encryptionPublicKey) → i = j) ∧
    ∀ a s' id, s.next ends a = some s' →
      s'.directory.encryptionKey id ≠ s.directory.encryptionKey id →
      ∃ i tag publish r, a = .register i tag publish ∧ s.Authenticated ends i r ∧
        signed r.proof.publicKey r.proof.signature = some (deviceAuthContext ++
          deviceAuthMessage C r.keys r.proof.publicKey r.proof.encryptionPublicKey) ∧
        id = deviceId C r.proof.publicKey ∧
        (∀ publicKey, publicKey.length = 32 → deviceId C publicKey = id →
          publicKey = r.proof.publicKey) ∧
        s'.directory.encryptionKey id = some (some (b64Text r.proof.encryptionPublicKey)) := by
  have hs := inv_run h₀ hrun
  refine ⟨fun i tag publish s' h => ?_, fun i p hp as₁ a as₂ s₁ s₂ has hindex _ h => ?_,
    fun i j r x k publicKey encryptionPublicKey hr hk hpublic hencryption hmade =>
      eq_of_signed hsha hnonce hs hsigned hr hk hpublic hencryption hmade,
    fun a s' id h hchange => ?_⟩
  · obtain ⟨r, hr, hdirectory, -⟩ := register_eq_some h
    exact ⟨r, authenticated_of_called hs hr, hdirectory⟩
  · refine directory_of_next h ?_ (by simp [hindex])
    rintro j tag publish rfl
    obtain rfl := Option.some.inj hindex
    exact not_registered hrun hp tag publish (by simp [has])
  · obtain ⟨i, tag, publish, r, rfl, hr, hid, hkey⟩ := registers_of_encryptionKey_ne hs h hchange
    have hauth := authenticated_of_called hs hr
    obtain ⟨_, _, _, _, _, -, -, -, -, -, hproof⟩ := hauth.received
    obtain ⟨hpublic, -, hverify⟩ := verifyDeviceAuth_eq_ok hproof
    refine ⟨i, tag, publish, r, rfl, hauth, hsigned i r hr hverify, hid, ?_, hkey⟩
    intro publicKey hlength heq
    exact hinjective _ _ hlength hpublic (hexdigest_injective (heq.trans hid))

/-! ## A device is registered -/

/-- A run follows its process on what has come from its client. -/
theorem run_acts {i : ι} {p p' : Conn (Registering F)} {inbox inbox' out : Bytes}
    (h : p.Acts frames inbox p' inbox' out) (hp : s.run i = .before p)
    (hinbox : s.inbox i = inbox) : ∃ as s', (system ends F).Run s as s' ∧
      s'.run = Function.update s.run i (.before p') ∧ s'.directory = s.directory := by
  induction h generalizing s with
  | nil p inbox =>
    rw [← hp, Function.update_eq_self]
    exact ⟨[], s, .nil s, rfl, rfl⟩
  | @cons p p₁ p' inbox inbox₁ inbox' out₁ out hact _ ih =>
    have hnext : s.next ends (.proceed i) = some { s with
        run := Function.update s.run i (.before p₁)
        inbox := Function.update s.inbox i inbox₁ } := by
      rw [next, proceed, hp]
      simp only [hinbox, hact]
      rfl
    obtain ⟨as, s', hrun, hs', hdirectory⟩ := @ih { s with
      run := Function.update s.run i (.before p₁)
      inbox := Function.update s.inbox i inbox₁ } (Function.update_self ..)
      (Function.update_self ..)
    refine ⟨_, s', .cons hnext hrun, ?_, hdirectory⟩
    rw [hs', Function.update_idem]

/-- A device that proves who it is gets to be registered, whatever the other runs are. -/
theorem exists_run_called (hC : C.Correct) {i : ι} {c : ClientEnd C} (h : Compatible c (ends i))
    (d : DeviceIdentity C) (directory : Directory) :
    ∃ as s r, (system ends F).Run (start ends F directory) as s ∧
      s.run = Function.update (start ends F directory).run i (.before (.ret r)) ∧
      s.directory = directory ∧ r.proof.publicKey = d.publicKeyBytes ∧
      r.proof.encryptionPublicKey = d.directPublicKeyBytes := by
  obtain ⟨xs, ys, r, htrace, hlength, hpublic, hencryption⟩ :=
    serverBeforeRegister_trace (F := F) hC h d
  have hacts := htrace.acts (fun x hx => frames_front_frame (hlength x hx)) []
  rw [List.append_nil] at hacts
  obtain ⟨s₁, harrive, hs₁, hdirectory₁, hinbox⟩ : ∃ s₁,
      (start ends F directory).next ends (.arrive i (xs.flatMap frameOf)) = some s₁ ∧
        s₁.run = (start ends F directory).run ∧ s₁.directory = directory ∧
        s₁.inbox i = xs.flatMap frameOf :=
    ⟨_, rfl, rfl, rfl, Function.update_self ..⟩
  obtain ⟨as, s, hrun, hs, hdirectory⟩ := run_acts hacts (congrFun hs₁ i) hinbox
  rw [hs₁] at hs
  rw [hdirectory₁] at hdirectory
  exact ⟨_, s, r, .cons harrive hrun, hs, hdirectory, hpublic, hencryption⟩

/-- Two runs for concrete runs. -/
def plainEnds : Bool → ServerEnd plainCrypto
  | true => plainServer
  | false => { plainServer with nonce := List.replicate 16 18, length_nonce := rfl }

/-- A device is registered in the first of two runs, with its key, and it has been
    authenticated. -/
theorem directory_guarded_plain : ∃ as s s', ∃ r : Registering (List Char),
    (system plainEnds (List Char)).Run (start plainEnds (List Char) .empty) as s ∧
    s.next plainEnds (.register true "dev-1" (.ok ())) = some s' ∧
    s'.directory.encryptionKey (deviceId plainCrypto plainDevice.publicKeyBytes) =
      some (some (b64Text plainDevice.directPublicKeyBytes)) ∧
    s.Authenticated plainEnds true r := by
  have hcompatible : Compatible plainClient (plainEnds true) := plain_compatible
  obtain ⟨as, s, r, hrun, hs, hdirectory, hpublic, hencryption⟩ := exists_run_called
    (F := List Char) plainCrypto_correct hcompatible plainDevice .empty
  have hsigned : s.SignedOnly plainCrypto fun _ _ => some (deviceAuthContext ++
      deviceAuthMessage plainCrypto r.keys r.proof.publicKey r.proof.encryptionPublicKey) := by
    rintro (_ | _) r' hr' -
    · rw [hs, Function.update_of_ne (by decide)] at hr'
      cases hr'
    · rw [hs, Function.update_self] at hr'
      cases hr'
      rfl
  obtain ⟨s', hs'⟩ : ∃ s', s.next plainEnds (.register true "dev-1" (.ok ())) = some s' := by
    rw [next, register, hs, Function.update_self]
    exact ⟨_, rfl⟩
  have hguarded := directory_guarded plainCrypto_correct.length_sha256 (by
      intro key key' hkey hkey' heq
      rw [← take_fit hkey le_rfl, ← take_fit hkey' le_rfl]
      exact congrArg _ heq)
    (by decide) ⟨[], _, rfl, rfl⟩ hrun hsigned
  have hkey : s'.directory.encryptionKey (deviceId plainCrypto plainDevice.publicKeyBytes) =
      some (some (b64Text plainDevice.directPublicKeyBytes)) := by
    obtain ⟨r', hr', hdirectory', -⟩ := register_eq_some hs'
    rw [hs, Function.update_self] at hr'
    cases hr'
    rw [hdirectory', hdirectory, hpublic, hencryption]
    rfl
  have hnone : s.directory.encryptionKey (deviceId plainCrypto plainDevice.publicKeyBytes) =
      none := by
    rw [hdirectory]
    rfl
  have hchange : s'.directory.encryptionKey (deviceId plainCrypto plainDevice.publicKeyBytes) ≠
      s.directory.encryptionKey (deviceId plainCrypto plainDevice.publicKeyBytes) := by
    rw [hkey, hnone]
    nofun
  obtain ⟨i, tag, publish, r', heq, hauth, -⟩ := hguarded.2.2.2 _ _ _ hs' hchange
  obtain ⟨rfl, rfl, rfl⟩ := DeviceEvent.register.inj heq
  exact ⟨as, s, s', r', hrun, hs', hkey, hauth⟩

end DeviceSessions

end SecNet
