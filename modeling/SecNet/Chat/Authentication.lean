import SecNet.Chat.DirectoryCalls
import SecNet.Chat.SessionCookie

/-!
# Acting for a device

The whole way of an identity: a device is registered by a session of the VPN, it asks for a
challenge, its agent signs it, the signature is answered with a cookie, and with the cookie the
requests of the chat are made (`_authenticated_tag`, and the check of `websocket_endpoint`).
Meanwhile other devices register, take names, ask and log in.

* `Portal.next`: what a request does to the directory, the challenges and the cookies;
* `Granted`: a cookie goes back to a challenge that the device of its tag has signed;
* `granted_next`: every step keeps that of the cookies given out;
* `acting_sound`: so whoever acts for a tag has a cookie for which the device of the tag has
  signed a challenge, from the address of its session, within the last day;
* `login_completes`: and the device that asks for a challenge, which nobody else takes, and sends
  its signature in time, can act for its tag.
-/

namespace SecNet

/-- `_authenticated_tag`, and the check of `websocket_endpoint`. -/
def authenticatedTag (C : Crypto) (config : LoginConfig) (directory : Directory)
    (cookie : Option String) (now : ℚ) : Except Exn String := do
  match ← cookieTag C config.sessionSecret cookie now with
  | none => .error (.permissionError "chat authentication required")
  | some tag =>
    if tag = "" ∨ directory.byTag tag = none then
      .error (.permissionError "chat authentication required")
    else return tag

variable {ι F : Type} {C : Crypto} {config : LoginConfig}

theorem authenticatedTag_eq_ok {directory : Directory} {cookie : Option String} {now : ℚ}
    {tag : String} : authenticatedTag C config directory cookie now = .ok tag ↔
      cookieTag C config.sessionSecret cookie now = .ok (some tag) ∧ tag ≠ "" ∧
        ∃ record, directory.byTag tag = some record := by
  rw [authenticatedTag, bind_eq_ok]
  constructor
  · rintro ⟨result, hresult, h⟩
    cases result with
    | none => cases h
    | some tag' =>
      dsimp only at h
      split_ifs at h with hnone
      obtain rfl := Except.ok.inj h
      rw [not_or] at hnone
      exact ⟨hresult, hnone.1, Option.ne_none_iff_exists'.1 hnone.2⟩
  · rintro ⟨hresult, htag, record, hrecord⟩
    refine ⟨some tag, hresult, ?_⟩
    dsimp only
    rw [if_neg (not_or.2 ⟨htag, by rw [hrecord]; nofun⟩)]
    rfl

namespace Directory

variable {d : Directory} {c : DirectoryCall} {record : DeviceRecord} {publish : Except Exn Unit}

/-- The record of a call for a device that is known has its key. -/
theorem publicKey_record (hd : d.Indexed) (h : c.record C d = some record) {r : DeviceRecord}
    (hr : d.byId record.deviceId = some r) : record.publicKey = r.publicKey := by
  cases c with
  | register publicKeyBytes encryptionPublicKey tag =>
    rw [DirectoryCall.record] at h
    rcases hexisting : d.byId (deviceId C publicKeyBytes) with _ | existing
    · rw [hexisting] at h
      obtain rfl := Option.some.inj h
      cases hexisting.symm.trans hr
    · rw [hexisting] at h
      dsimp only at h
      split_ifs at h
      obtain rfl := Option.some.inj h
      obtain rfl := Option.some.inj ((hd.inv.id hexisting ▸ hexisting).symm.trans hr)
      rfl
  | rename deviceTag username =>
    rw [DirectoryCall.record] at h
    split_ifs at h
    obtain ⟨current, hcurrent, rfl⟩ := Option.map_eq_some_iff.1 h
    obtain rfl := Option.some.inj ((hd.inv.tag hcurrent).2.symm.trans hr)
    rfl

theorem indexed_call (hd : d.Indexed) : (d.call C publish c).1.Indexed := by
  rcases spec_call (C := C) hd publish c with
    ⟨-, hcall⟩ | ⟨-, e, hcall⟩ | ⟨record, answer, -, -, -, -, hd', -⟩
  · rwa [hcall]
  · rwa [hcall]
  · exact hd'

/-- A tag stays with its device, and the device with its key. -/
theorem byTag_call (hd : d.Indexed) {t : String} {r : DeviceRecord} (hr : d.byTag t = some r) :
    ∃ r', (d.call C publish c).1.byTag t = some r' ∧ r'.publicKey = r.publicKey := by
  obtain ⟨rfl, hbyId⟩ := hd.byTag_eq_some.1 hr
  rcases spec_call (C := C) hd publish c with
    ⟨-, hcall⟩ | ⟨-, e, hcall⟩ | ⟨record, answer, hrecord, -, -, -, hd', hbyId'⟩
  · exact ⟨r, by rw [hcall, hr], rfl⟩
  · exact ⟨r, by rw [hcall, hr], rfl⟩
  · by_cases hid : r.deviceId = record.deviceId
    · rw [hid] at hbyId
      refine ⟨record, ?_, publicKey_record hd hrecord hbyId⟩
      rw [hd'.byTag_eq_some, hbyId', Function.update_self]
      exact ⟨tag_record hd hrecord hbyId, rfl⟩
    · refine ⟨r, ?_, rfl⟩
      rw [hd'.byTag_eq_some, hbyId', Function.update_of_ne hid]
      exact ⟨rfl, hbyId⟩

end Directory

/-! ## The portal -/

/-- The chat, as far as devices log in to it. -/
structure Portal where
  directory : Directory
  challenges : Challenges
  /-- The cookies that have been given out. -/
  cookies : List String

/-- What happens. -/
inductive PortalAct (ι F : Type)
  /-- A session of the VPN registers its device, or a device takes a name. -/
  | device (call : DirectoryCall) (publish : Except Exn Unit)
  | challenge (q : ChallengeRequest ι)
  /-- A request to verify, whose cookie is minted at a time. -/
  | verify (r : VerifyRequest ι F) (time : ClockTime)
  /-- A request of a route that asks for a cookie. -/
  | act (cookie : Option String) (now : ClockTime)

/-- When the clock is read. -/
def PortalAct.times : PortalAct ι F → List ℚ
  | .device _ _ => []
  | .challenge q => [q.now]
  | .verify r time => [r.now, time.seconds]
  | .act _ now => [now.seconds]

namespace Portal

/-- Before anything has happened. -/
def new : Portal := ⟨.empty, fun _ => none, []⟩

/-- A request to verify finds the directory as it is. -/
def finding (s : Portal) (r : VerifyRequest ι F) (time : ClockTime) : VerifyRequest ι F :=
  { r with directory := s.directory, cookieTime := time.seconds }

/-- What is answered to a request to verify. -/
def reply (C : Crypto) (config : LoginConfig) (s : Portal) (r : VerifyRequest ι F)
    (time : ClockTime) : Except Exn (LoginReply F) :=
  (authVerify C config s.challenges (s.finding r time)).2

/-- The cookie of an answer. -/
def given : Except Exn (LoginReply F) → List String
  | .ok reply => [reply.cookie]
  | .error _ => []

/-- What a request does. -/
def next (C : Crypto) (config : LoginConfig) (s : Portal) : PortalAct ι F → Portal
  | .device call publish => { s with directory := (s.directory.call C publish call).1 }
  | .challenge q => { s with challenges := (authChallenge (F := F) config s.challenges q).1 }
  | .verify r time =>
    { s with
      challenges := (authVerify C config s.challenges (s.finding r time)).1
      cookies := s.cookies ++ given (s.reply C config r time) }
  | .act _ _ => s

/-- After some requests. -/
def after (C : Crypto) (config : LoginConfig) (acts : List (PortalAct ι F)) : Portal :=
  acts.foldl (next C config) new

/-- A cookie has an HMAC value over its text only where one that has been given out has it: what
    is said of the cookies that a client can send. -/
def Unforged (C : Crypto) (config : LoginConfig) (s : Portal) (cookie : String) : Prop :=
  ∀ encoded supplied, rsplit '.' cookie.toList = some (encoded, supplied) →
    urlsafeB64decode (padB64 supplied) =
      .ok (hmacSha256 C (encodeUtf8 config.sessionSecret.toList) (encodeUtf8 encoded)) →
    ∃ cookie' ∈ s.cookies, ∃ supplied', rsplit '.' cookie'.toList = some (encoded, supplied')

variable {s : Portal} {acts : List (PortalAct ι F)}

theorem after_concat (acts : List (PortalAct ι F)) (act : PortalAct ι F) :
    after C config (acts ++ [act]) = (after C config acts).next C config act := by
  rw [after, List.foldl_append, List.foldl_cons, List.foldl_nil, ← after]

/-- What has happened does to the directory. -/
theorem directory_next (C : Crypto) (config : LoginConfig) (hd : s.directory.Indexed)
    (act : PortalAct ι F) :
    (s.next C config act).directory.Indexed ∧
      ∀ {t r}, s.directory.byTag t = some r → ∃ r',
        (s.next C config act).directory.byTag t = some r' ∧ r'.publicKey = r.publicKey := by
  cases act with
  | device call publish =>
    exact ⟨Directory.indexed_call hd, fun hr => Directory.byTag_call hd hr⟩
  | challenge q => exact ⟨hd, fun hr => ⟨_, hr, rfl⟩⟩
  | verify r time => exact ⟨hd, fun hr => ⟨_, hr, rfl⟩⟩
  | act cookie now => exact ⟨hd, fun hr => ⟨_, hr, rfl⟩⟩

/-! ## Where a cookie comes from -/

/-- A challenge in the table has been issued, to a peer with a tag. -/
def Issued (acts : List (PortalAct ι F)) (id : PyStr) (text : String) (expiry : ℚ) : Prop :=
  ∃ before q since, acts = before ++ .challenge q :: since ∧ (∃ tag, q.caller.peerTag = .ok tag) ∧
    q.challengeId = id ∧ b64Text q.challenge = text ∧ q.now + 60 = expiry

/-- A signed challenge: it was issued to some peer; the request to verify comes from the address of
    the peer with the tag, and carries a signature of the challenge with a key, at most a minute
    after it was issued. -/
structure Signed (C : Crypto) (tag : String) (publicKey : Bytes) (q : ChallengeRequest ι)
    (r : VerifyRequest ι F) : Prop where
  issued : ∃ tag', q.caller.peerTag = .ok tag'
  peer : ∃ address peer, r.caller.host = some (.ok (.v4 address)) ∧
    r.caller.registry.get address = some peer ∧ peer.tag = some tag
  signature : ∃ (body : Dict F) (v : Json F) (signature : Bytes), r.body = .ok (.obj body) ∧
    body.get "challenge_id" = .str q.challengeId ∧ body.getItem "signature" = .ok v ∧
    decodeB64 v = .ok signature ∧
    verifyDeviceSignature C publicKey q.challenge signature = .ok ()
  inTime : r.now ≤ q.now + 60

/-- A cookie goes back to a challenge that was signed by the device which the directory has for
    its tag. -/
def Granted (C : Crypto) (config : LoginConfig) (acts : List (PortalAct ι F))
    (directory : Directory) (tag : String) (time : ClockTime) (cookie : String) : Prop :=
  cookie = makeCookie C config.sessionSecret tag time.seconds ∧
    ∃ before q between r since record publicKey,
      acts = before ++ .challenge q :: (between ++ .verify r time :: since) ∧
      directory.byTag tag = some record ∧ b64decodeText record.publicKey = .ok publicKey ∧
      Signed C tag publicKey q r

/-- What is known of the portal after some requests. -/
structure Inv (C : Crypto) (config : LoginConfig) (acts : List (PortalAct ι F)) (s : Portal) :
    Prop where
  directory : s.directory.Indexed
  issued : ∀ id text expiry, s.challenges id = some (text, expiry) → Issued acts id text expiry
  granted : ∀ cookie ∈ s.cookies, ∃ tag time, Granted C config acts s.directory tag time cookie

/-- A request for a challenge that is answered comes from a peer with a tag. -/
theorem exists_peerTag_of_issued {q : ChallengeRequest ι} {id : PyStr}
    (h : (LoginRequest.challenge (F := F) q).issued = some id) :
    ∃ tag, q.caller.peerTag = .ok tag := by
  rw [LoginRequest.issued] at h
  rcases hpeer : q.caller.peerTag with e | tag
  · rw [hpeer] at h
    cases h
  · exact ⟨tag, rfl⟩

/-- A table of challenges that has a ticket. -/
theorem issued_of_serve {request : LoginRequest ι F} {challenges : Challenges} {id : PyStr}
    {text : String} {expiry : ℚ}
    (h : request.serve C config challenges id = some (text, expiry)) :
    (∃ q, request = .challenge q ∧ (∃ tag, q.caller.peerTag = .ok tag) ∧ q.challengeId = id ∧
      b64Text q.challenge = text ∧ q.now + 60 = expiry) ∨ challenges id = some (text, expiry) := by
  rw [serve_eq] at h
  rcases hop : request.op with _ | op
  · rw [hop] at h
    exact .inr h
  · rw [hop] at h
    rcases Tickets.next_eq_some h with ⟨now, rfl⟩ | ⟨hticket, -⟩
    · obtain ⟨q, rfl, hissued, hid, -, htext, hexpiry⟩ := exists_of_op_issue hop
      exact .inl ⟨q, rfl, exists_peerTag_of_issued hissued, hid, htext, hexpiry⟩
    · exact .inr hticket

theorem issued_append {id : PyStr} {text : String} {expiry : ℚ} (h : Issued acts id text expiry)
    (act : PortalAct ι F) : Issued (acts ++ [act]) id text expiry := by
  obtain ⟨before, q, since, rfl, hq⟩ := h
  exact ⟨before, q, since ++ [act], by simp, hq⟩

/-- A cookie stays granted, as a tag stays with the key of its device. -/
theorem granted_append {directory directory' : Directory} {tag : String} {time : ClockTime}
    {cookie : String}
    (hkept : ∀ {t r}, directory.byTag t = some r → ∃ r',
      directory'.byTag t = some r' ∧ r'.publicKey = r.publicKey)
    (h : Granted C config acts directory tag time cookie) (act : PortalAct ι F) :
    Granted C config (acts ++ [act]) directory' tag time cookie := by
  obtain ⟨hcookie, before, q, between, r, since, record, publicKey, rfl, hrecord, hkey, hsigned⟩ :=
    h
  obtain ⟨record', hrecord', hkey'⟩ := hkept hrecord
  exact ⟨hcookie, before, q, between, r, since ++ [act], record', publicKey, by simp, hrecord',
    hkey' ▸ hkey, hsigned⟩

/-- A cookie that is given out is granted. -/
theorem granted_of_reply (h : Inv C config acts s) {r : VerifyRequest ι F} {time : ClockTime}
    {reply : LoginReply F} (hreply : s.reply C config r time = .ok reply) :
    ∃ tag, Granted C config (acts ++ [.verify r time]) s.directory tag time reply.cookie := by
  obtain ⟨body, tag, id, text, expiry, hcheck, hid, hticket, hanswer⟩ :=
    authVerify_eq_ok.1 hreply
  obtain ⟨before, q, since, rfl, hissued, rfl, rfl, rfl⟩ := h.issued id text expiry hticket
  obtain ⟨hexpiry, ⟨challenge, hchallenge, hsigns⟩, -, hcookie⟩ := answerChallenge_eq_ok hanswer
  rw [b64decodeText_b64Text] at hchallenge
  obtain rfl := Except.ok.inj hchallenge
  obtain ⟨hbody, hpeer, -⟩ := VerifyRequest.checkTag_eq_ok.1 hcheck
  obtain ⟨v, signature, record, publicKey, hv, hsignature, hrecord, hkey, hverify⟩ := hsigns
  exact ⟨tag, hcookie, before, q, since, r, [], record, publicKey, by simp, hrecord, hkey, hissued,
    Caller.peerTag_eq_ok.1 hpeer, ⟨body, v, signature, hbody, hid, hv, hsignature, hverify⟩,
    hexpiry⟩

theorem inv_next (h : Inv C config acts s) (act : PortalAct ι F) :
    Inv C config (acts ++ [act]) (s.next C config act) := by
  obtain ⟨hdirectory, hkept⟩ := directory_next C config h.directory act
  have hgranted : ∀ cookie ∈ s.cookies, ∃ tag time,
      Granted C config (acts ++ [act]) (s.next C config act).directory tag time cookie := by
    intro cookie hcookie
    obtain ⟨tag, time, hgranted⟩ := h.granted cookie hcookie
    exact ⟨tag, time, granted_append hkept hgranted act⟩
  refine ⟨hdirectory, fun id text expiry hticket => ?_, fun cookie hcookie => ?_⟩
  · cases act with
    | device call publish => exact issued_append (h.issued id text expiry hticket) _
    | challenge q =>
      have hserve : (LoginRequest.challenge (F := F) q).serve C config s.challenges id =
        some (text, expiry) := hticket
      rcases issued_of_serve hserve with ⟨q', hq', hissued⟩ | hticket
      · obtain rfl := LoginRequest.challenge.inj hq'
        exact ⟨acts, q, [], rfl, hissued⟩
      · exact issued_append (h.issued id text expiry hticket) _
    | verify r time =>
      have hserve : (LoginRequest.verify (s.finding r time)).serve C config s.challenges id =
        some (text, expiry) := hticket
      rcases issued_of_serve hserve with ⟨q', hq', -⟩ | hticket
      · cases hq'
      · exact issued_append (h.issued id text expiry hticket) _
    | act cookie now => exact issued_append (h.issued id text expiry hticket) _
  · cases act with
    | verify r time =>
      rcases List.mem_append.1 hcookie with hcookie | hcookie
      · exact hgranted cookie hcookie
      · rcases hreply : s.reply C config r time with e | reply
        · rw [hreply] at hcookie
          cases hcookie
        · rw [hreply] at hcookie
          obtain rfl := List.mem_singleton.1 hcookie
          obtain ⟨tag, hgranted⟩ := granted_of_reply h hreply
          exact ⟨tag, time, hgranted⟩
    | _ => exact hgranted cookie hcookie

theorem inv_after (acts : List (PortalAct ι F)) : Inv C config acts (after C config acts) := by
  induction acts using List.reverseRecOn with
  | nil => exact ⟨Directory.indexed_empty, nofun, nofun⟩
  | append_singleton acts act ih =>
    rw [after_concat]
    exact inv_next ih act

/-! ## Who can act -/

/-- The clock of the server does not go back. -/
def Clocked (acts : List (PortalAct ι F)) : Prop :=
  (acts.flatMap PortalAct.times).Pairwise (· ≤ ·)

/-- A request has to do with a challenge: it draws its identifier, or takes it. -/
def Uses (id : PyStr) : PortalAct ι F → Prop
  | .challenge q => q.challengeId = id
  | .verify r _ => r.takes = some id
  | _ => False

/-- A challenge that has not expired stays in the table until a request takes it. -/
theorem challenges_next {id : PyStr} {text : String} {expiry : ℚ}
    (hticket : s.challenges id = some (text, expiry)) {act : PortalAct ι F} (hact : ¬Uses id act)
    (htimes : ∀ now ∈ act.times, now ≤ expiry) :
    (s.next C config act).challenges id = some (text, expiry) := by
  cases act with
  | device call publish => exact hticket
  | challenge q =>
    rw [next, authChallenge]
    rcases q.caller.peerTag with e | tag
    · exact hticket
    · have hlive : Tickets.live q.now s.challenges id = some (text, expiry) :=
        Tickets.live_eq_some.2 ⟨hticket, not_lt.2 (htimes q.now (List.mem_singleton_self _))⟩
      exact (Function.update_of_ne (Ne.symm hact) _ _).trans hlive
  | verify r time =>
    have hnext : (s.next C config (.verify r time)).challenges =
      (LoginRequest.verify (s.finding r time)).serve C config s.challenges := rfl
    rw [hnext, serve_eq, LoginRequest.op]
    rcases htakes : (s.finding r time).takes with _ | id'
    · exact hticket
    · have hne : id ≠ id' := by
        rintro rfl
        exact hact htakes
      exact (Function.update_of_ne hne _ _).trans hticket
  | act cookie now => exact hticket

/-- Where only others log in, the challenge is there until it expires. -/
theorem challenges_foldl {id : PyStr} {text : String} {expiry : ℚ}
    (hticket : s.challenges id = some (text, expiry)) {acts : List (PortalAct ι F)}
    (hacts : ∀ act ∈ acts, ¬Uses id act ∧ ∀ now ∈ act.times, now ≤ expiry) :
    (acts.foldl (next C config) s).challenges id = some (text, expiry) := by
  induction acts generalizing s with
  | nil => exact hticket
  | cons act acts ih =>
    obtain ⟨hact, htimes⟩ := hacts act List.mem_cons_self
    exact ih (challenges_next hticket hact htimes)
      fun act' hact' => hacts act' (List.mem_cons_of_mem _ hact')

theorem directory_foldl (hd : s.directory.Indexed) {t : String} {r : DeviceRecord}
    (hr : s.directory.byTag t = some r) (acts : List (PortalAct ι F)) :
    ∃ r', (acts.foldl (next C config) s).directory.byTag t = some r' := by
  induction acts generalizing s r with
  | nil => exact ⟨r, hr⟩
  | cons act acts ih =>
    obtain ⟨hd', hkept⟩ := directory_next C config hd act
    obtain ⟨r', hr', -⟩ := hkept hr
    exact ih hd' hr'

/-- What `authenticate` of the browser has the agent sign. -/
def signBody (challenge : Dict F) : Json F :=
  .obj (Dict.ofList [("challenge", challenge.get "challenge")])

/-- And what it then posts. -/
def verifyBody (challenge signed : Dict F) : Dict F :=
  .ofList [("challenge_id", challenge.get "challenge_id"),
    ("device_tag", challenge.get "device_tag"), ("signature", signed.get "signature")]

theorem ofString_b64Text (data : Bytes) :
    (Json.ofString (b64Text data) : Json F) = b64 data := by
  rw [b64, Json.ofString, PyStr.ofString, b64Text, String.toList_ofList]

/-- The signature is found in the body. -/
theorem getItem_verifyBody (challenge : Dict F) (signature : Json F) :
    (verifyBody challenge (.ofList [("signature", signature)])).getItem "signature" =
      .ok signature := by
  rw [verifyBody, Dict.get_ofList rfl]
  exact Dict.getItem_ofList rfl

/-- What the agent answers to a challenge. -/
theorem signRequest_signBody (d : DeviceIdentity C) {challenge : Dict F} {data : Bytes}
    (h : challenge.get "challenge" = .ofString (b64Text data)) :
    signRequest d (signBody challenge) = .ok (.ofList [("signature", b64 (d.sign data))]) := by
  have hbody : (signBody challenge).getItem "challenge" = .ok (b64 data) := by
    rw [signBody, h, ofString_b64Text]
    exact Dict.getItem_ofList rfl
  exact bind_eq_ok.2 ⟨_, hbody, bind_eq_ok.2 ⟨data, agentUnb64_b64 data, rfl⟩⟩

/-- The answer to the request of a peer names the challenge, which is in the table from then on. -/
theorem exists_challenge_answer (C : Crypto) (config : LoginConfig) (s : Portal)
    {q : ChallengeRequest ι} {tag : String} (hpeer : q.caller.peerTag = .ok tag) :
    ∃ challenge : Dict F, (authChallenge config s.challenges q).2 = .ok challenge ∧
      challenge.get "challenge_id" = .str q.challengeId ∧
      challenge.get "challenge" = .ofString (b64Text q.challenge) ∧
      challenge.get "device_tag" = .ofString tag ∧
      (s.next C config (.challenge (F := F) q)).challenges q.challengeId =
        some (b64Text q.challenge, q.now + 60) := by
  rw [next, authChallenge, hpeer]
  exact ⟨_, rfl, Dict.get_ofList rfl, Dict.get_ofList rfl, Dict.get_ofList rfl,
    Function.update_self ..⟩

/-- A challenge that nobody else takes is there for a minute. -/
theorem challenges_after {before between : List (PortalAct ι F)} {q : ChallengeRequest ι}
    {r : VerifyRequest ι F} {time : ClockTime} {tag : String} (hpeer : q.caller.peerTag = .ok tag)
    (hclock : Clocked (between ++ [.verify r time]))
    (hbetween : ∀ act ∈ between, ¬Uses q.challengeId act) (hinTime : r.now ≤ q.now + 60) :
    (after C config (before ++ .challenge q :: between)).challenges q.challengeId =
      some (b64Text q.challenge, q.now + 60) := by
  obtain ⟨-, -, -, -, -, hticket⟩ :=
    exists_challenge_answer (F := F) C config (after C config before) hpeer
  rw [after, List.foldl_append, ← after, List.foldl_cons]
  refine challenges_foldl hticket fun act hact => ⟨hbetween act hact, fun t ht => ?_⟩
  have hle : t ≤ r.now := by
    rw [Clocked, List.flatMap_append, List.pairwise_append] at hclock
    exact hclock.2.2 t (List.mem_flatMap.2 ⟨act, hact, ht⟩) r.now (by simp [PortalAct.times])
  exact hle.trans hinTime

/-- The request for a challenge is answered, and the agent signs what is answered. The signature is
    answered with a cookie, as long as the challenge is there. -/
theorem exists_reply (hC : C.Correct) {before between : List (PortalAct ι F)}
    {q : ChallengeRequest ι} {r : VerifyRequest ι F} {time : ClockTime} {tag : String}
    {d : DeviceIdentity C} {record : DeviceRecord} (hpeer : q.caller.peerTag = .ok tag)
    (hrecord : (after C config (before ++ .challenge q :: between)).directory.byTag tag =
      some record)
    (hkey : record.publicKey = b64Text d.publicKeyBytes)
    (hclock : Clocked (between ++ [.verify r time]))
    (hbetween : ∀ act ∈ between, ¬Uses q.challengeId act) (hinTime : r.now ≤ q.now + 60)
    (hpeer' : r.caller.peerTag = .ok tag)
    (hrender : ∃ data, r.render (loginContent tag record) = .ok data) :
    ∃ challenge signed : Dict F,
      (authChallenge config (after C config before).challenges q).2 = .ok challenge ∧
      signRequest d (signBody challenge) = .ok signed ∧
      (r.body = .ok (.obj (verifyBody challenge signed)) →
        ∃ reply, (after C config (before ++ .challenge q :: between)).reply C config r time =
            .ok reply ∧ reply.cookie = makeCookie C config.sessionSecret tag time.seconds) := by
  obtain ⟨challenge, hchallenge, hid, htext, hdeviceTag, -⟩ :=
    exists_challenge_answer (F := F) C config (after C config before) hpeer
  refine ⟨challenge, _, hchallenge, signRequest_signBody d htext, fun hbody => ?_⟩
  -- The request to verify passes every check.
  have hticket : (after C config (before ++ .challenge q :: between)).challenges q.challengeId =
      some (b64Text q.challenge, q.now + 60) := challenges_after hpeer hclock hbetween hinTime
  have hcheck : ((after C config (before ++ .challenge q :: between)).finding r time).checkTag =
      .ok (verifyBody challenge (.ofList [("signature", b64 (d.sign q.challenge))]), tag) := by
    refine VerifyRequest.checkTag_eq_ok.2 ⟨hbody, hpeer', ?_⟩
    rw [verifyBody, Dict.get_ofList rfl, hdeviceTag]
    exact isStr_ofString tag
  have hsigns : ((after C config (before ++ .challenge q :: between)).finding r time).Signs C
      (verifyBody challenge (.ofList [("signature", b64 (d.sign q.challenge))])) tag
      q.challenge :=
    ⟨_, _, record, d.publicKeyBytes, getItem_verifyBody challenge _, decodeB64_b64 _, hrecord,
      hkey ▸ b64decodeText_b64Text _, verifyDeviceSignature_eq_ok.2
        ⟨hC.length_ed25519Public _, hC.verify_sign _ _⟩⟩
  have hchallengeId : (verifyBody challenge (.ofList [("signature", b64 (d.sign q.challenge))])).get
      "challenge_id" = .str q.challengeId := by
    rw [verifyBody, Dict.get_ofList rfl, hid]
  obtain ⟨reply, hanswer⟩ := exists_answerChallenge config
    (r := (after C config (before ++ .challenge q :: between)).finding r time) hinTime
    (b64decodeText_b64Text _) hsigns fun record' hrecord' => by
      obtain rfl := Option.some.inj (hrecord.symm.trans hrecord')
      exact hrender
  exact ⟨reply, authVerify_eq_ok.2 ⟨_, _, _, _, _, hcheck, hchallengeId, hticket, hanswer⟩,
    (answerChallenge_eq_ok hanswer).2.2.2⟩

/-- A device whose session has a tag gets a challenge, which its agent signs. Its signature is
    answered with a cookie within the minute, whatever others do meanwhile, as long as nobody else
    takes its challenge, and the answer can be rendered; and it can act for the tag with the cookie,
    whatever happens later, up to its expiry. -/
theorem login_completes (hC : C.Correct) {before between later : List (PortalAct ι F)}
    {q : ChallengeRequest ι} {r : VerifyRequest ι F} {time : ClockTime} {tag : String}
    {d : DeviceIdentity C} {record : DeviceRecord} (hpeer : q.caller.peerTag = .ok tag)
    (hrecord : (after C config (before ++ .challenge q :: between)).directory.byTag tag =
      some record)
    (hkey : record.publicKey = b64Text d.publicKeyBytes)
    (hclock : Clocked (between ++ [.verify r time]))
    (hbetween : ∀ act ∈ between, ¬Uses q.challengeId act) (hinTime : r.now ≤ q.now + 60)
    (hpeer' : r.caller.peerTag = .ok tag)
    (hrender : ∃ data, r.render (loginContent tag record) = .ok data)
    {now : ClockTime} (hnow : now.seconds ≤ cookieExpiry time) :
    ∃ challenge signed : Dict F,
      (authChallenge config (after C config before).challenges q).2 = .ok challenge ∧
      signRequest d (signBody challenge) = .ok signed ∧
      (r.body = .ok (.obj (verifyBody challenge signed)) →
        ∃ reply, (after C config (before ++ .challenge q :: between)).reply C config r time =
            .ok reply ∧
          authenticatedTag C config (after C config
            (before ++ .challenge q :: (between ++ .verify r time :: later))).directory
            (some reply.cookie) now.seconds = .ok tag) := by
  obtain ⟨challenge, signed, hchallenge, hsigned, hreply⟩ :=
    exists_reply hC hpeer hrecord hkey hclock hbetween hinTime hpeer' hrender
  refine ⟨challenge, signed, hchallenge, hsigned, fun hbody => ?_⟩
  obtain ⟨reply, hreply, hcookie⟩ := hreply hbody
  refine ⟨reply, hreply, authenticatedTag_eq_ok.2 ⟨?_, ?_, ?_⟩⟩
  · rw [hcookie]
    exact (cookieTag_makeCookie tag time now.seconds).trans (by rw [if_neg hnow.not_gt])
  · obtain ⟨address, peer, -, -, htag⟩ := Caller.peerTag_eq_ok.1 hpeer
    exact (PeerRegistry.tag_eq_some.1 htag).2
  · have hlater : before ++ .challenge q :: (between ++ .verify r time :: later) =
        (before ++ .challenge q :: between) ++ .verify r time :: later := by simp
    rw [hlater, after, List.foldl_append, ← after]
    exact directory_foldl (inv_after _).directory hrecord _

/-- The device of alice, whose agent signs her challenge. -/
def aliceDevice : DeviceIdentity plainCrypto := ⟨(1 : UInt8), (1 : UInt8)⟩

def aliceConfig : LoginConfig := ⟨"secret", 48271⟩

/-- A session of the VPN has registered it. -/
def aliceRegisters : List (PortalAct ℕ (List Char)) :=
  [.device (.register aliceDevice.publicKeyBytes [] "alice") (.ok ())]

/-- The answer to her request for a challenge. -/
def aliceAnswer : Dict (List Char) :=
  .ofList [("challenge_id", .str aliceChallenge.challengeId),
    ("challenge", .ofString (b64Text aliceChallenge.challenge)),
    ("device_tag", .ofString "alice"), ("agent_port", .int 48271)]

/-- Her request to verify. -/
def aliceLogin : VerifyRequest ℕ (List Char) :=
  { aliceVerify with
    body := .ok (.obj (verifyBody aliceAnswer
      (.ofList [("signature", b64 (aliceDevice.sign aliceChallenge.challenge))]))) }

def halfMinute : ClockTime := .ofSeconds 30 (by norm_num)

theorem peerTag_aliceCaller : aliceCaller.peerTag = .ok "alice" :=
  Caller.peerTag_eq_ok.2 ⟨_, _, rfl, rfl, by decide⟩

theorem signRequest_alice : signRequest aliceDevice (signBody aliceAnswer) =
    .ok (.ofList [("signature", b64 (aliceDevice.sign aliceChallenge.challenge))]) :=
  signRequest_signBody aliceDevice (Dict.get_ofList rfl)

theorem authChallenge_alice : (authChallenge aliceConfig
    (after plainCrypto aliceConfig aliceRegisters).challenges aliceChallenge).2 =
      .ok aliceAnswer := by
  rw [authChallenge, show aliceChallenge.caller.peerTag = .ok "alice" from peerTag_aliceCaller]
  rfl

theorem clocked_aliceLogin :
    Clocked (([] : List (PortalAct ℕ (List Char))) ++ [.verify aliceLogin halfMinute]) := by
  have hle : aliceLogin.now ≤ halfMinute.seconds := by
    norm_num [aliceLogin, aliceVerify, halfMinute, ClockTime.ofSeconds]
  exact List.pairwise_pair.2 hle

theorem byTag_alice : (after plainCrypto aliceConfig
    (aliceRegisters ++ .challenge aliceChallenge :: [])).directory.byTag "alice" =
      some (.new plainCrypto aliceDevice.publicKeyBytes [] "alice") := by
  have hregisters : (after plainCrypto aliceConfig aliceRegisters).directory.byTag "alice" =
      some (.new plainCrypto aliceDevice.publicKeyBytes [] "alice") := rfl
  rw [after_concat]
  exact hregisters

theorem inTime_aliceLogin : aliceLogin.now ≤ aliceChallenge.now + 60 := by
  norm_num [aliceLogin, aliceVerify, aliceChallenge]

theorem renders_aliceLogin : ∃ data, aliceLogin.render (loginContent "alice"
    (.new plainCrypto aliceDevice.publicKeyBytes [] "alice")) = .ok data := by
  have hrender : aliceLogin.render = fun content => jsonResponse (.obj content) := rfl
  rw [hrender]
  refine exists_jsonResponse_loginContent fun username husername => ?_
  rw [DeviceRecord.new] at husername
  cases husername

def anHour : ClockTime := .ofSeconds 3600 (by norm_num)

theorem anHour_le : anHour.seconds ≤ cookieExpiry halfMinute := by
  rw [halfMinute, cookieExpiry_ofSeconds, anHour]
  norm_num [ClockTime.ofSeconds]

/-- She can act for her tag an hour later. -/
theorem login_completes_alice : ∃ reply : LoginReply (List Char),
    authenticatedTag plainCrypto aliceConfig
      (after plainCrypto aliceConfig (aliceRegisters ++ .challenge aliceChallenge ::
        ([] ++ .verify aliceLogin halfMinute :: []))).directory (some reply.cookie)
          anHour.seconds = .ok "alice" := by
  obtain ⟨challenge, signed, hchallenge, hsigned, hreply⟩ := login_completes (d := aliceDevice)
    plainCrypto_correct peerTag_aliceCaller byTag_alice rfl clocked_aliceLogin
    (fun act hact => absurd hact List.not_mem_nil) inTime_aliceLogin peerTag_aliceCaller
    renders_aliceLogin anHour_le
  obtain rfl := Except.ok.inj (authChallenge_alice.symm.trans hchallenge)
  obtain rfl := Except.ok.inj (signRequest_alice.symm.trans hsigned)
  obtain ⟨reply, -, htag⟩ := hreply rfl
  exact ⟨reply, htag⟩

/-! ## Who acts -/

/-- Whoever gets a tag from the cookies has a cookie that was granted. -/
theorem exists_granted (h : Inv C config acts s) {cookie : String}
    (hforged : s.Unforged C config cookie) {now : ClockTime} {tag : String}
    (htag : cookieTag C config.sessionSecret (some cookie) now.seconds = .ok (some tag)) :
    ∃ time cookie', Granted C config acts s.directory tag time cookie' ∧
      now.seconds ≤ cookieExpiry time := by
  -- The cookies that have been minted, as far as they have to do with this one.
  obtain ⟨minted, hminted, hnot⟩ : ∃ minted : List (String × ClockTime),
      (∀ m ∈ minted, ∃ cookie', Granted C config acts s.directory m.1 m.2 cookie') ∧
        NotForged C config.sessionSecret minted cookie := by
    by_cases hsigned : ∃ encoded supplied, rsplit '.' cookie.toList = some (encoded, supplied) ∧
        urlsafeB64decode (padB64 supplied) =
          .ok (hmacSha256 C (encodeUtf8 config.sessionSecret.toList) (encodeUtf8 encoded))
    · obtain ⟨encoded, supplied, hcut, hsigned⟩ := hsigned
      obtain ⟨cookie', hcookie', supplied', hcut'⟩ := hforged encoded supplied hcut hsigned
      obtain ⟨tag', time, hgranted⟩ := h.granted cookie' hcookie'
      obtain rfl := hgranted.1
      rw [rsplit_makeCookie] at hcut'
      obtain ⟨rfl, -⟩ := Prod.mk.inj (Option.some.inj hcut')
      refine ⟨[(tag', time)], fun m hm => ?_, fun encoded' supplied' hcut' _ => ?_⟩
      · obtain rfl := List.mem_singleton.1 hm
        exact ⟨_, hgranted⟩
      · rw [hcut] at hcut'
        obtain ⟨rfl, -⟩ := Prod.mk.inj (Option.some.inj hcut')
        exact ⟨_, List.mem_singleton_self _, rfl⟩
    · exact ⟨[], nofun, fun encoded supplied hcut hsigned' =>
        absurd ⟨encoded, supplied, hcut, hsigned'⟩ hsigned⟩
  rcases spec_cookieTag hnot now.seconds with hnone | ⟨tag', time, supplied, hmem, -, hresult⟩
  · rw [htag] at hnone
    cases hnone
  · rw [htag] at hresult
    split_ifs at hresult with hexpiry
    · cases hresult
    · obtain rfl := Option.some.inj (Except.ok.inj hresult)
      obtain ⟨cookie', hgranted⟩ := hminted _ hmem
      exact ⟨time, cookie', hgranted, not_lt.1 hexpiry⟩

/-- Whoever is taken for a tag, with a cookie that is not forged, has it from a request to verify
    that came from the address of the session with that tag, with a signature by the device that
    the directory has for the tag, of a challenge that this service had issued to some peer within
    the minute before; the cookie was minted then, and has not expired. -/
theorem acting_sound {acts before since : List (PortalAct ι F)} {cookie : Option String}
    {now : ClockTime} {tag : String} (hclock : Clocked acts)
    (hacts : acts = before ++ .act cookie now :: since)
    (hforged : ∀ c, cookie = some c → (after C config before).Unforged C config c)
    (htag : authenticatedTag C config (after C config before).directory cookie now.seconds =
      .ok tag) :
    ∃ issued q between r time later record publicKey,
      before = issued ++ .challenge q :: (between ++ .verify r time :: later) ∧
      (after C config before).directory.byTag tag = some record ∧
      b64decodeText record.publicKey = .ok publicKey ∧ Signed C tag publicKey q r ∧
      q.now ≤ r.now ∧ r.now ≤ time.seconds ∧ time.seconds ≤ now.seconds ∧
      now.seconds ≤ cookieExpiry time := by
  obtain ⟨hcookieTag, -, -⟩ := authenticatedTag_eq_ok.1 htag
  cases cookie with
  | none => cases hcookieTag
  | some cookie =>
    obtain ⟨time, cookie', hgranted, hexpiry⟩ :=
      exists_granted (inv_after before) (hforged cookie rfl) hcookieTag
    obtain ⟨-, issued, q, between, r, later, record, publicKey, hbefore, hrecord, hkey, hsigned⟩ :=
      hgranted
    refine ⟨issued, q, between, r, time, later, record, publicKey, hbefore, hrecord, hkey, hsigned,
      ?_, ?_, ?_, hexpiry⟩
    all_goals
      rw [hacts, hbefore, Clocked] at hclock
      simp only [List.flatMap_append, List.flatMap_cons, PortalAct.times, List.pairwise_append,
        List.pairwise_cons, List.mem_append, List.mem_cons] at hclock
    · grind
    · grind
    · grind

/-- Her requests, up to her login. -/
def aliceActs : List (PortalAct ℕ (List Char)) :=
  aliceRegisters ++ [.challenge aliceChallenge] ++ [.verify aliceLogin halfMinute]

/-- When she acts an hour later, a challenge is found that her device has signed. -/
theorem acting_sound_alice : ∃ q r time publicKey, .challenge q ∈ aliceActs ∧
    .verify r time ∈ aliceActs ∧ Signed plainCrypto "alice" publicKey q r := by
  obtain ⟨challenge, signed, hchallenge, hsigned, hreply⟩ := exists_reply (d := aliceDevice)
    plainCrypto_correct peerTag_aliceCaller byTag_alice rfl clocked_aliceLogin
    (fun act hact => absurd hact List.not_mem_nil) inTime_aliceLogin peerTag_aliceCaller
    renders_aliceLogin
  obtain rfl := Except.ok.inj (authChallenge_alice.symm.trans hchallenge)
  obtain rfl := Except.ok.inj (signRequest_alice.symm.trans hsigned)
  obtain ⟨reply, hreply, hcookie⟩ := hreply rfl
  have hcookies : (after plainCrypto aliceConfig aliceActs).cookies = [reply.cookie] := by
    rw [aliceActs, after_concat]
    exact congrArg given hreply
  have hbyTag : (after plainCrypto aliceConfig aliceActs).directory.byTag "alice" =
      some (.new plainCrypto aliceDevice.publicKeyBytes [] "alice") := by
    rw [aliceActs, after_concat]
    exact byTag_alice
  have htag : authenticatedTag plainCrypto aliceConfig (after plainCrypto aliceConfig
      aliceActs).directory (some reply.cookie) anHour.seconds = .ok "alice" := by
    refine authenticatedTag_eq_ok.2 ⟨?_, by decide, _, hbyTag⟩
    rw [hcookie]
    exact (cookieTag_makeCookie "alice" halfMinute _).trans (by rw [if_neg anHour_le.not_gt])
  have hforged : (after plainCrypto aliceConfig aliceActs).Unforged plainCrypto aliceConfig
      reply.cookie := fun encoded supplied hcut _ =>
    ⟨reply.cookie, by rw [hcookies]; exact List.mem_singleton_self _, supplied, hcut⟩
  have hclock : Clocked (aliceActs ++ .act (some reply.cookie) anHour :: []) := by
    have htimes : [aliceChallenge.now, aliceLogin.now, halfMinute.seconds, anHour.seconds] =
        [(0 : ℚ), 30, 30, 3600] := by
      simp [aliceChallenge, aliceLogin, aliceVerify, halfMinute, anHour, ClockTime.ofSeconds]
    have hpairwise : [(0 : ℚ), 30, 30, 3600].Pairwise (· ≤ ·) := by norm_num
    rwa [← htimes] at hpairwise
  obtain ⟨issued, q, between, r, time, later, record, publicKey, hacts, -, -, hsigned, -⟩ :=
    acting_sound hclock rfl (fun c hc => Option.some.inj hc ▸ hforged) htag
  exact ⟨q, r, time, publicKey, by rw [hacts]; simp, by rw [hacts]; simp, hsigned⟩

end Portal

end SecNet
