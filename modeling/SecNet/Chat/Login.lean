import SecNet.Lib.Tickets
import SecNet.Chat.Directory
import SecNet.Chat.SignRequest
import SecNet.Server.Registry

/-!
# The login to the chat

A device asks the chat for a challenge (`GET /api/auth/challenge`), which its agent signs, and
sends the signature back (`POST /api/auth/verify`) for a session cookie. The challenges are
tickets (`Tickets`), which a request to verify takes from the table, whatever else it gets wrong.

* `authVerify_eq_ok`: when a cookie is issued;
* `op_challenges`: the requests, as what they do to the tickets;
* `login_sound`: a cookie is for the device that signs a challenge of this service, once, and
  pruning makes no difference to that.
-/

namespace SecNet

/-! ## The cookie -/

/-- `hmac.HMAC(key, message, hashlib.sha256).digest()`. -/
def hmacSha256 (C : Crypto) (key message : Bytes) : Bytes :=
  let key := if 64 < key.length then C.sha256 key else key
  let key := key ++ List.replicate (64 - key.length) 0
  C.sha256 (key.map (· ^^^ 0x5c) ++ C.sha256 (key.map (· ^^^ 0x36) ++ message))

/-- `base64.urlsafe_b64encode(data).decode("ascii").rstrip("=")`. -/
def urlsafeB64 (data : Bytes) : List Char :=
  ((b64encode data).map fun c => if c = '+' then '-' else if c = '/' then '_' else c).rdropWhile
    (· = '=')

/-- `_make_cookie`. -/
def makeCookie (C : Crypto) (sessionSecret tag : String) (time : ℚ) : String :=
  -- `int(time.time())` cuts towards zero.
  let payload := encodeUtf8 (tag ++ "." ++ toString (time.num.tdiv time.den + 86400)).toList
  let encoded := urlsafeB64 payload
  let signature := hmacSha256 C (encodeUtf8 sessionSecret.toList) (encodeUtf8 encoded)
  .ofList (encoded ++ '.' :: urlsafeB64 signature)

/-! ## The requests -/

variable {ι F : Type}

/-- Where a request comes from: `request.client`, with what `ip_address` makes of its host, and the
    registry of the peers. -/
structure Caller (ι : Type) where
  host : Option (Except Exn IPAddress)
  registry : PeerRegistry ι

/-- `_peer_tag`. -/
def Caller.peerTag (c : Caller ι) : Except Exn String :=
  match c.host with
  | none => .error (.permissionError "request has no peer address")
  | some (.error e) => .error e
  | some (.ok .v6) =>
    .error (.permissionError "request must originate from an authenticated VPN peer")
  | some (.ok (.v4 address)) =>
    match (c.registry.get address).bind PeerConnection.tag with
    | some tag => .ok tag
    | none => .error (.permissionError "request must originate from an authenticated VPN peer")

/-- A request for a challenge, with what is drawn. -/
structure ChallengeRequest (ι : Type) where
  caller : Caller ι
  now : ℚ
  challengeId : PyStr
  challenge : Bytes

/-- A request to verify, with what it finds. -/
structure VerifyRequest (ι F : Type) where
  caller : Caller ι
  /-- What `request.json()` returns or raises. -/
  body : Except Exn (Json F)
  now : ℚ
  directory : Directory
  /-- What `JSONResponse` makes of a content. -/
  render : Dict F → Except Exn Bytes
  /-- The time that `_make_cookie` reads. -/
  cookieTime : ℚ

/-- What is answered to a request to verify. -/
structure LoginReply (F : Type) where
  content : Dict F
  /-- `chat_session`. -/
  cookie : String

/-- The secret of the cookies, and the port of the agents. -/
structure LoginConfig where
  sessionSecret : String
  agentPort : ℤ

/-- `_challenges`: the texts of the challenges, and when they expire. -/
abbrev Challenges := Tickets PyStr String ℚ

/-- `GET /api/auth/challenge`. -/
def authChallenge (config : LoginConfig) (challenges : Challenges) (r : ChallengeRequest ι) :
    Challenges × Except Exn (Dict F) :=
  match r.caller.peerTag with
  | .error e => (challenges, .error e)
  | .ok tag =>
    (Function.update (challenges.live r.now) r.challengeId (some (b64Text r.challenge, r.now + 60)),
      .ok (.ofList [("challenge_id", .str r.challengeId),
        ("challenge", .ofString (b64Text r.challenge)), ("device_tag", .ofString tag),
        ("agent_port", .int config.agentPort)]))

/-- The part of `auth_verify` before the challenge is taken: the body and the tag. -/
def VerifyRequest.checkTag (r : VerifyRequest ι F) : Except Exn (Dict F × String) := do
  let body ← r.body
  let tag ← r.caller.peerTag
  let body ← body.asDict
  if (body.get "device_tag").isStr tag then return (body, tag)
  else .error (.permissionError "device tag does not match VPN session")

/-- `base64.b64decode(text)`. -/
def b64decodeText (text : String) : Except Exn Bytes :=
  if text.toList.all fun c => c.toNat < 128 then
    match b64decodeLax text.toList with
    | some data => .ok data
    | none => .error .binasciiError
  else .error (.valueError "string argument should contain only ASCII characters")

/-- `_decode_b64`, which does what `unb64` of the agent does. -/
def decodeB64 : Json F → Except Exn Bytes := agentUnb64

/-- The content of the answer to a request to verify. -/
def loginContent (tag : String) (record : DeviceRecord) : Dict F :=
  .ofList [("device_tag", .ofString tag), ("username",
    match record.username with
    | some username => .str username
    | none => .null)]

/-- The part of `auth_verify` after the challenge has been taken. -/
def answerChallenge (C : Crypto) (config : LoginConfig) (r : VerifyRequest ι F) (body : Dict F)
    (tag : String) (record : Option (String × ℚ)) : Except Exn (LoginReply F) := do
  match record with
  | none => .error (.permissionError "challenge expired")
  | some (text, expiry) =>
    if expiry < r.now then .error (.permissionError "challenge expired")
    else
      let challenge ← b64decodeText text
      let signature ← decodeB64 (← body.getItem "signature")
      match r.directory.byTag tag with
      | none => .error (.typeError "'NoneType' object is not subscriptable")
      | some record =>
        let publicKey ← b64decodeText record.publicKey
        verifyDeviceSignature C publicKey challenge signature
        let _ ← r.render (loginContent tag record)
        return ⟨loginContent tag record, makeCookie C config.sessionSecret tag r.cookieTime⟩

/-- `POST /api/auth/verify`. -/
def authVerify (C : Crypto) (config : LoginConfig) (challenges : Challenges)
    (r : VerifyRequest ι F) : Challenges × Except Exn (LoginReply F) :=
  match r.checkTag with
  | .error e => (challenges, .error e)
  | .ok (body, tag) =>
    match body.get "challenge_id" with
    | .str id =>
      (Function.update challenges id none, answerChallenge C config r body tag (challenges id))
    | .arr _ => (challenges, .error (.typeError "unhashable type: 'list'"))
    | .obj _ => (challenges, .error (.typeError "unhashable type: 'dict'"))
    | _ => (challenges, answerChallenge C config r body tag none)

/-- The challenge that a request takes from the table: it names it, and has passed the check of the
    tag. -/
def VerifyRequest.takes (r : VerifyRequest ι F) : Option PyStr :=
  match r.checkTag with
  | .error _ => none
  | .ok (body, _) =>
    match body.get "challenge_id" with
    | .str id => some id
    | _ => none

/-! ## When a cookie is issued -/

variable {C : Crypto} {config : LoginConfig} {challenges : Challenges} {r : VerifyRequest ι F}
  {body : Dict F} {tag : String} {reply : LoginReply F}

theorem Caller.peerTag_eq_ok {c : Caller ι} : c.peerTag = .ok tag ↔
    ∃ address peer, c.host = some (.ok (.v4 address)) ∧ c.registry.get address = some peer ∧
      peer.tag = some tag := by
  rw [Caller.peerTag]
  constructor
  · intro h
    split at h
    · cases h
    · cases h
    · cases h
    · rename_i address hhost
      split at h
      · rename_i tag' hpeer
        obtain rfl := Except.ok.inj h
        obtain ⟨peer, hget, htag⟩ := Option.bind_eq_some_iff.1 hpeer
        exact ⟨address, peer, hhost, hget, htag⟩
      · cases h
  · rintro ⟨address, peer, hhost, hget, htag⟩
    rw [hhost]
    simp only [hget, Option.bind_some, htag]

theorem VerifyRequest.checkTag_eq_ok : r.checkTag = .ok (body, tag) ↔
    r.body = .ok (.obj body) ∧ r.caller.peerTag = .ok tag ∧
      (body.get "device_tag").isStr tag = true := by
  rw [VerifyRequest.checkTag, bind_eq_ok]
  constructor
  · rintro ⟨v, hbody, h⟩
    obtain ⟨tag', hpeer, h⟩ := bind_eq_ok.1 h
    obtain ⟨d, hd, h⟩ := bind_eq_ok.1 h
    split_ifs at h with htag
    obtain ⟨rfl, rfl⟩ := Prod.mk.inj (Except.ok.inj h)
    have hv : v = .obj d := by
      cases v with
      | obj d' => rw [Except.ok.inj hd]
      | _ => cases hd
    exact ⟨hv ▸ hbody, hpeer, htag⟩
  · rintro ⟨hbody, hpeer, htag⟩
    refine ⟨_, hbody, bind_eq_ok.2 ⟨tag, hpeer, bind_eq_ok.2 ⟨body, rfl, ?_⟩⟩⟩
    rw [if_pos htag]
    rfl

/-- The request carries a signature of a challenge by the device of a tag. -/
def VerifyRequest.Signs (C : Crypto) (r : VerifyRequest ι F) (body : Dict F) (tag : String)
    (challenge : Bytes) : Prop :=
  ∃ v signature record publicKey, body.getItem "signature" = .ok v ∧
    decodeB64 v = .ok signature ∧ r.directory.byTag tag = some record ∧
    b64decodeText record.publicKey = .ok publicKey ∧
    verifyDeviceSignature C publicKey challenge signature = .ok ()

theorem answerChallenge_eq_ok {text : String} {expiry : ℚ}
    (h : answerChallenge C config r body tag (some (text, expiry)) = .ok reply) :
    r.now ≤ expiry ∧
      (∃ challenge, b64decodeText text = .ok challenge ∧ r.Signs C body tag challenge) ∧
      reply.content.get "device_tag" = .ofString tag ∧
      reply.cookie = makeCookie C config.sessionSecret tag r.cookieTime := by
  rw [answerChallenge] at h
  split_ifs at h with hexpired
  obtain ⟨challenge, hchallenge, h⟩ := bind_eq_ok.1 h
  obtain ⟨v, hv, h⟩ := bind_eq_ok.1 h
  obtain ⟨signature, hsignature, h⟩ := bind_eq_ok.1 h
  rcases hrecord : r.directory.byTag tag with _ | record
  · rw [hrecord] at h
    cases h
  rw [hrecord] at h
  obtain ⟨publicKey, hpublicKey, h⟩ := bind_eq_ok.1 h
  obtain ⟨⟨⟩, hverify, h⟩ := bind_eq_ok.1 h
  obtain ⟨text', -, h⟩ := bind_eq_ok.1 h
  obtain rfl := Except.ok.inj h
  exact ⟨not_lt.1 hexpired, ⟨challenge, hchallenge, v, signature, record, publicKey, hv, hsignature,
    hrecord, hpublicKey, hverify⟩, Dict.get_ofList rfl, rfl⟩

/-- A signed challenge that has not expired is answered with a cookie. -/
theorem exists_answerChallenge (config : LoginConfig) {text : String} {expiry : ℚ}
    {challenge : Bytes}
    (hexpiry : r.now ≤ expiry) (hchallenge : b64decodeText text = .ok challenge)
    (hsigns : r.Signs C body tag challenge)
    (hrender : ∀ record, r.directory.byTag tag = some record →
      ∃ data, r.render (loginContent tag record) = .ok data) :
    ∃ reply, answerChallenge C config r body tag (some (text, expiry)) = .ok reply := by
  obtain ⟨v, signature, record, publicKey, hv, hsignature, hrecord, hpublicKey, hverify⟩ := hsigns
  rw [answerChallenge, if_neg hexpiry.not_gt, hrecord]
  obtain ⟨data, hdata⟩ := hrender record hrecord
  exact ⟨_, bind_eq_ok.2 ⟨_, hchallenge, bind_eq_ok.2 ⟨_, hv, bind_eq_ok.2 ⟨_, hsignature,
    bind_eq_ok.2 ⟨_, hpublicKey, bind_eq_ok.2 ⟨(), hverify, bind_eq_ok.2 ⟨data, hdata, rfl⟩⟩⟩⟩⟩⟩⟩

/-- The content is rendered when the name of the device can be encoded. -/
theorem exists_jsonResponse_loginContent [PyFloat F] [PyFloatInt F] {record : DeviceRecord}
    (h : ∀ username, record.username = some username → ∃ text, username = .ofString text) :
    ∃ data, jsonResponse (F := F) (.obj (loginContent tag record)) = .ok data := by
  rw [loginContent]
  refine exists_jsonResponse.2 ⟨Json.leaves_ofList (fun _ _ => rfl) ?_,
    Json.leaves_ofList (fun item _ => Json.encodable_ofString item.1) ?_⟩
  · simp only [List.forall_mem_cons, List.not_mem_nil, false_imp_iff, implies_true, and_true]
    rcases record.username with _ | username <;> exact ⟨rfl, rfl⟩
  · simp only [List.forall_mem_cons, List.not_mem_nil, false_imp_iff, implies_true, and_true]
    refine ⟨Json.leaves_ofString.trans (Json.encodable_ofString tag), ?_⟩
    rcases husername : record.username with _ | username
    · rfl
    · obtain ⟨text, rfl⟩ := h username husername
      exact Json.leaves_ofString.trans (Json.encodable_ofString text)

/-- A cookie is issued for a challenge in the table, which the request takes. -/
theorem authVerify_eq_ok : (authVerify C config challenges r).2 = .ok reply ↔
    ∃ body tag id text expiry, r.checkTag = .ok (body, tag) ∧
      body.get "challenge_id" = .str id ∧ challenges id = some (text, expiry) ∧
      answerChallenge C config r body tag (some (text, expiry)) = .ok reply := by
  rw [authVerify]
  constructor
  · intro h
    rcases hcheck : r.checkTag with e | ⟨body, tag⟩
    · rw [hcheck] at h
      cases h
    rw [hcheck] at h
    dsimp only at h
    rcases hid : body.get "challenge_id" with _ | _ | _ | _ | id | _ | _
    case str =>
      rw [hid] at h
      dsimp only at h
      rcases hticket : challenges id with _ | ⟨text, expiry⟩
      · rw [hticket] at h
        cases h
      · rw [hticket] at h
        exact ⟨body, tag, id, text, expiry, rfl, hid, hticket, h⟩
    all_goals
      rw [hid] at h
      cases h
  · rintro ⟨body, tag, id, text, expiry, hcheck, hid, hticket, hanswer⟩
    rw [hcheck]
    simp only [hid, hticket, hanswer]

theorem VerifyRequest.takes_of_checkTag {id : PyStr} (hcheck : r.checkTag = .ok (body, tag))
    (hid : body.get "challenge_id" = .str id) : r.takes = some id := by
  rw [VerifyRequest.takes, hcheck]
  simp only [hid]

/-! ## Runs -/

/-- The requests. -/
inductive LoginRequest (ι F : Type)
  | challenge (r : ChallengeRequest ι)
  | verify (r : VerifyRequest ι F)

namespace LoginRequest

/-- The time of a request. -/
def now : LoginRequest ι F → ℚ
  | .challenge r => r.now
  | .verify r => r.now

/-- The identifier of the challenge that is issued. -/
def issued : LoginRequest ι F → Option PyStr
  | .challenge r => match r.caller.peerTag with
    | .ok _ => some r.challengeId
    | .error _ => none
  | .verify _ => none

/-- The challenges after a request. -/
def serve (C : Crypto) (config : LoginConfig) (challenges : Challenges) :
    LoginRequest ι F → Challenges
  | .challenge r => (authChallenge (F := F) config challenges r).1
  | .verify r => (authVerify C config challenges r).1

/-- What a request does to the tickets. -/
def op : LoginRequest ι F → Option (Tickets.Op PyStr String ℚ)
  | .challenge r => match r.caller.peerTag with
    | .ok _ => some (.issue r.now r.challengeId (b64Text r.challenge) (r.now + 60))
    | .error _ => none
  | .verify r => r.takes.map .redeem

end LoginRequest

/-- The challenges after requests to a new service. -/
def challengesAfter (C : Crypto) (config : LoginConfig) (requests : List (LoginRequest ι F)) :
    Challenges :=
  requests.foldl (LoginRequest.serve C config) fun _ => none

/-- A request does to the challenges what it does to tickets. -/
theorem serve_eq (request : LoginRequest ι F) :
    request.serve C config challenges = (request.op.map challenges.next).getD challenges := by
  cases request with
  | challenge r =>
    rw [LoginRequest.serve, LoginRequest.op, authChallenge]
    rcases r.caller.peerTag with e | tag <;> rfl
  | verify r =>
    rw [LoginRequest.serve, LoginRequest.op, authVerify, VerifyRequest.takes]
    rcases r.checkTag with e | ⟨body, tag⟩
    · rfl
    · dsimp only
      rcases body.get "challenge_id" with _ | _ | _ | _ | _ | _ | _ <;> rfl

theorem challengesAfter_eq (requests : List (LoginRequest ι F)) :
    challengesAfter C config requests = Tickets.run (requests.filterMap LoginRequest.op) := by
  induction requests using List.reverseRecOn with
  | nil => rfl
  | append_singleton requests request ih =>
    rw [challengesAfter, List.foldl_append, List.foldl_cons, List.foldl_nil, ← challengesAfter, ih,
      serve_eq, List.filterMap_append]
    rcases hop : request.op with _ | op
    · rw [List.filterMap_cons_none hop, List.filterMap_nil, List.append_nil]
      rfl
    · rw [List.filterMap_cons_some hop, List.filterMap_nil, Tickets.run_append]
      rfl

/-- A ticket is issued by a request for a challenge. -/
theorem exists_of_op_issue {request : LoginRequest ι F} {now expiry : ℚ} {id : PyStr}
    {text : String}
    (h : request.op = some (.issue now id text expiry)) :
    ∃ q, request = .challenge q ∧ request.issued = some id ∧ q.challengeId = id ∧ q.now = now ∧
      b64Text q.challenge = text ∧ q.now + 60 = expiry := by
  cases request with
  | challenge q =>
    rw [LoginRequest.op] at h
    rcases hpeer : q.caller.peerTag with e | tag
    · rw [hpeer] at h
      cases h
    · rw [hpeer] at h
      obtain ⟨rfl, rfl, rfl, rfl⟩ := Tickets.Op.issue.inj (Option.some.inj h)
      exact ⟨q, rfl, by rw [LoginRequest.issued, hpeer], rfl, rfl, rfl, rfl⟩
  | verify r =>
    rw [LoginRequest.op, Option.map_eq_some_iff] at h
    obtain ⟨id', -, hredeem⟩ := h
    cases hredeem

/-- A challenge in the table was issued, and no request has taken it since. -/
theorem exists_challenge {requests : List (LoginRequest ι F)} {id : PyStr} {text : String}
    {expiry : ℚ} (h : challengesAfter C config requests id = some (text, expiry)) :
    ∃ before q after, requests = before ++ .challenge q :: after ∧
      (LoginRequest.challenge (F := F) q).issued = some id ∧ q.challengeId = id ∧
      b64Text q.challenge = text ∧ q.now + 60 = expiry ∧
      ∀ r : VerifyRequest ι F, .verify r ∈ after → r.takes ≠ some id := by
  rw [challengesAfter_eq] at h
  obtain ⟨ops, now, ops', hops, hredeem⟩ := Tickets.exists_issue h
  obtain ⟨before, rest, rfl, rfl, hrest⟩ := List.filterMap_eq_append_iff.1 hops
  obtain ⟨skipped, request, after, rfl, -, hop, rfl⟩ := List.filterMap_eq_cons_iff.1 hrest
  obtain ⟨q, rfl, hissued, rfl, rfl, rfl, rfl⟩ := exists_of_op_issue hop
  refine ⟨before ++ skipped, q, after, by rw [List.append_assoc], hissued, rfl, rfl, rfl,
    fun r hr htakes => hredeem ?_⟩
  exact List.mem_filterMap.2 ⟨_, hr, by rw [LoginRequest.op, htakes]; rfl⟩

theorem decodeB64_b64 (data : Bytes) : decodeB64 (F := F) (b64 data) = .ok data :=
  agentUnb64_b64 data

/-- The text of a challenge is read back. -/
theorem b64decodeText_b64Text (data : Bytes) : b64decodeText (b64Text data) = .ok data := by
  have hascii : (b64Text data).toList.all fun c => c.toNat < 128 := by
    rw [b64Text, String.toList_ofList, List.all_eq_true]
    exact fun c hc => decide_eq_true (toNat_lt_of_mem_b64encode hc)
  rw [b64decodeText, if_pos hascii, b64Text, String.toList_ofList, b64decodeLax_b64encode]

/-- A login that is as it should be, after the requests before it: the request comes from the
    address of the peer with the tag, and carries a signature of a challenge by the device of the
    tag; the challenge was issued at most 60 seconds earlier, and no request has taken it since. -/
def LoginSound (C : Crypto) (config : LoginConfig) (before : List (LoginRequest ι F))
    (r : VerifyRequest ι F) (reply : LoginReply F) : Prop :=
  ∃ (tag : String) (body : Dict F) (issued : List (LoginRequest ι F)) (q : ChallengeRequest ι)
    (since : List (LoginRequest ι F)),
    (∃ address peer, r.caller.host = some (.ok (.v4 address)) ∧
      r.caller.registry.get address = some peer ∧ peer.tag = some tag) ∧
    r.body = .ok (.obj body) ∧ body.get "challenge_id" = .str q.challengeId ∧
    r.takes = some q.challengeId ∧ before = issued ++ .challenge q :: since ∧
    (LoginRequest.challenge (F := F) q).issued = some q.challengeId ∧
    q.now ≤ r.now ∧ r.now ≤ q.now + 60 ∧
    (∀ r' : VerifyRequest ι F, .verify r' ∈ since → r'.takes ≠ some q.challengeId) ∧
    r.Signs C body tag q.challenge ∧
    reply.content.get "device_tag" = .ofString tag ∧
    reply.cookie = makeCookie C config.sessionSecret tag r.cookieTime

/-- The requests come one after the other, and the identifiers that are drawn are distinct. -/
structure LoginRun (requests : List (LoginRequest ι F)) : Prop where
  clock : (requests.map LoginRequest.now).Pairwise (· ≤ ·)
  ids : (requests.filterMap LoginRequest.issued).Nodup

theorem loginSound_of_reply {before : List (LoginRequest ι F)}
    (hclock : ∀ request ∈ before, request.now ≤ r.now)
    (h : (authVerify C config (challengesAfter C config before) r).2 = .ok reply) :
    LoginSound C config before r reply := by
  obtain ⟨body, tag, id, text, expiry, hcheck, hid, hticket, hanswer⟩ :=
    authVerify_eq_ok.1 h
  obtain ⟨issued, q, since, rfl, hissued, rfl, rfl, rfl, hsince⟩ := exists_challenge hticket
  obtain ⟨hexpiry, ⟨challenge, hchallenge, hsigns⟩, hcontent, hcookie⟩ :=
    answerChallenge_eq_ok hanswer
  rw [b64decodeText_b64Text] at hchallenge
  obtain rfl := Except.ok.inj hchallenge
  obtain ⟨hbody, hpeer, -⟩ := VerifyRequest.checkTag_eq_ok.1 hcheck
  exact ⟨tag, body, issued, q, since, Caller.peerTag_eq_ok.1 hpeer, hbody, hid,
    VerifyRequest.takes_of_checkTag hcheck hid, rfl, hissued, hclock (.challenge q) (by simp),
    hexpiry, hsince, hsigns, hcontent, hcookie⟩

/-- Two cookies are for two challenges. -/
theorem takes_ne_of_loginSound {before between : List (LoginRequest ι F)}
    {r r' : VerifyRequest ι F} {reply reply' : LoginReply F}
    (hids : ((before ++ .verify r :: between).filterMap LoginRequest.issued).Nodup)
    (h : LoginSound C config before r reply)
    (h' : LoginSound C config (before ++ .verify r :: between) r' reply') : r.takes ≠ r'.takes := by
  obtain ⟨-, -, issued, q, since, -, -, -, htakes, rfl, hissued, -⟩ := h
  obtain ⟨-, -, issued', q', since', -, -, -, htakes', hbefore, hissued', -, -, hsince', -⟩ := h'
  intro heq
  have hid : q.challengeId = q'.challengeId :=
    Option.some.inj (htakes.symm.trans (heq.trans htakes'))
  -- It is the same challenge, which the first request has taken.
  rw [List.append_assoc, List.cons_append] at hids hbefore
  have hlast := eq_of_nodup_filterMap hids hissued (hid ▸ hissued') hbefore
  refine hsince' r ?_ (hid ▸ htakes)
  rw [← hlast]
  simp

/-! ## Pruning -/

/-- The challenges after requests, if none were pruned. -/
def keptAfter (requests : List (LoginRequest ι F)) : Challenges :=
  Tickets.runKept (requests.filterMap LoginRequest.op)

/-- What is answered depends on the challenges that have not expired only. -/
theorem answerChallenge_filter (record : Option (String × ℚ)) :
    answerChallenge C config r body tag
        (record.filter fun ticket => ¬Tickets.Expired r.now ticket) =
      answerChallenge C config r body tag record := by
  rcases record with _ | ⟨text, expiry⟩
  · rfl
  · by_cases hexpired : expiry < r.now
    · rw [Option.filter_some, if_neg (by simpa [Tickets.Expired] using hexpired), answerChallenge,
        answerChallenge]
      simp only [if_pos hexpired]
    · rw [Option.filter_some, if_pos (by simpa [Tickets.Expired] using hexpired)]

theorem authVerify_congr {challenges' : Challenges}
    (h : Tickets.live r.now challenges = Tickets.live r.now challenges') :
    (authVerify C config challenges r).2 = (authVerify C config challenges' r).2 := by
  rw [authVerify, authVerify]
  rcases r.checkTag with e | ⟨body, tag⟩
  · rfl
  dsimp only
  rcases body.get "challenge_id" with _ | _ | _ | _ | id | _ | _
  case str =>
    have hid := congrFun h id
    rw [Tickets.live, Tickets.live] at hid
    dsimp only
    rw [← answerChallenge_filter, hid, answerChallenge_filter]
  all_goals rfl

/-- A cookie for a tag is issued only as it should be, for every challenge at most once, and pruning
    makes no difference to what is answered. -/
theorem login_sound {requests : List (LoginRequest ι F)} (hrun : LoginRun requests) :
    (∀ before r after reply, requests = before ++ .verify r :: after →
      (authVerify C config (challengesAfter C config before) r).2 = .ok reply →
        LoginSound C config before r reply) ∧
    (∀ before r between r' after reply reply',
      requests = before ++ .verify r :: (between ++ .verify r' :: after) →
      (authVerify C config (challengesAfter C config before) r).2 = .ok reply →
      (authVerify C config (challengesAfter C config (before ++ .verify r :: between)) r').2 =
        .ok reply' → r.takes ≠ r'.takes) ∧
    ∀ before r after, requests = before ++ .verify r :: after →
      (authVerify C config (challengesAfter C config before) r).2 =
        (authVerify C config (keptAfter before) r).2 := by
  have hclock : ∀ before r after, requests = before ++ .verify r :: after →
      ∀ request ∈ before, request.now ≤ r.now := by
    rintro before r after rfl request hrequest
    have hpairwise := List.pairwise_map.1 hrun.clock
    exact (List.pairwise_append.1 hpairwise).2.2 request hrequest (.verify r) List.mem_cons_self
  refine ⟨fun before r after reply hrequests =>
      loginSound_of_reply (hclock before r after hrequests),
    fun before r between r' after reply reply' hrequests h h' => ?_,
    fun before r after hrequests => ?_⟩
  · have hrequests' : requests = (before ++ .verify r :: between) ++ .verify r' :: after := by
      rw [hrequests, List.append_assoc, List.cons_append]
    have hids := hrun.ids
    rw [hrequests', List.filterMap_append] at hids
    exact takes_ne_of_loginSound (List.nodup_append.1 hids).1
      (loginSound_of_reply (hclock before r _ hrequests) h)
      (loginSound_of_reply (hclock _ r' after hrequests') h')
  · refine authVerify_congr ?_
    rw [challengesAfter_eq, keptAfter]
    refine Tickets.live_run fun op hop => ?_
    obtain ⟨request, hrequest, hop⟩ := List.mem_filterMap.1 hop
    cases op with
    | issue now id text expiry =>
      obtain ⟨q, rfl, -, -, rfl, -⟩ := exists_of_op_issue hop
      exact hclock before r after hrequests _ hrequest
    | redeem id => trivial

theorem aliceAddress_lt : 0x0a080002 < 2 ^ 32 := by norm_num

/-- Alice, at an address of a small network. -/
def aliceCaller : Caller ℕ where
  host := some (.ok (.v4 ⟨0x0a080002, aliceAddress_lt⟩))
  registry := { PeerRegistry.smallRegistry with
    peers := fun _ => some ⟨0, ⟨0x0a080002, aliceAddress_lt⟩, some "alice"⟩ }

/-- Her device, in the directory. -/
def aliceDirectory : Directory where
  byId _ := none
  byTag _ := some ⟨"device_registered", "", "alice", b64Text (List.replicate 32 1), none, none⟩

def aliceChallenge : ChallengeRequest ℕ := ⟨aliceCaller, 0, .ofString "c", List.replicate 32 5⟩

/-- Her signature of the challenge, 30 seconds later. -/
def aliceSignature : Bytes :=
  (DeviceIdentity.sign (C := plainCrypto) ⟨(1 : UInt8), (1 : UInt8)⟩ (List.replicate 32 5))

def aliceBody : Dict (List Char) := .ofList [("device_tag", .ofString "alice"),
  ("challenge_id", .ofString "c"), ("signature", b64 aliceSignature)]

def aliceVerify : VerifyRequest ℕ (List Char) where
  caller := aliceCaller
  body := .ok (.obj aliceBody)
  now := 30
  directory := aliceDirectory
  render content := jsonResponse (.obj content)
  cookieTime := 30

theorem checkTag_aliceVerify : aliceVerify.checkTag = .ok (aliceBody, "alice") := by
  refine VerifyRequest.checkTag_eq_ok.2 ⟨rfl, Caller.peerTag_eq_ok.2 ⟨_, _, rfl, rfl, ?_⟩, ?_⟩
  · decide
  · rw [aliceBody, Dict.get_ofList rfl]
    exact isStr_ofString _

/-- She gets a cookie. -/
theorem exists_reply_aliceVerify (config : LoginConfig) : ∃ reply,
    (authVerify plainCrypto config (challengesAfter plainCrypto config
      [LoginRequest.challenge (F := List Char) aliceChallenge]) aliceVerify).2 = .ok reply := by
  have hticket : challengesAfter plainCrypto config
      [LoginRequest.challenge (F := List Char) aliceChallenge] (.ofString "c") =
        some (b64Text (List.replicate 32 5), 0 + 60) := by
    rw [challengesAfter_eq]
    rfl
  have hsigns : aliceVerify.Signs plainCrypto aliceBody "alice" (List.replicate 32 5) := by
    refine ⟨b64 aliceSignature, aliceSignature, _, List.replicate 32 1, Dict.getItem_ofList rfl,
      decodeB64_b64 _, rfl, b64decodeText_b64Text _, ?_⟩
    exact bind_eq_ok.2 ⟨(), check_eq_ok.2 (by decide),
      plainCrypto_correct.verify_sign (1 : UInt8) _⟩
  have hexpiry : aliceVerify.now ≤ 0 + 60 := by norm_num [aliceVerify]
  have hrender : ∀ record, aliceVerify.directory.byTag "alice" = some record →
      ∃ data, aliceVerify.render (loginContent "alice" record) = .ok data := by
    intro record hrecord
    refine exists_jsonResponse_loginContent fun username husername => ?_
    rw [← Option.some.inj hrecord] at husername
    cases husername
  obtain ⟨reply, hanswer⟩ := exists_answerChallenge config hexpiry (b64decodeText_b64Text _) hsigns
    hrender
  exact ⟨reply, authVerify_eq_ok.2 ⟨_, _, _, _, _, checkTag_aliceVerify, Dict.get_ofList rfl,
    hticket, hanswer⟩⟩

/-- The run of her two requests. -/
theorem loginRun_alice : LoginRun [LoginRequest.challenge (F := List Char) aliceChallenge,
    .verify aliceVerify] where
  clock := by
    refine List.pairwise_pair.2 ?_
    norm_num [LoginRequest.now, aliceChallenge, aliceVerify]
  ids := List.nodup_singleton (PyStr.ofString "c")

theorem login_sound_once : ∃ reply, LoginSound plainCrypto ⟨"", 48271⟩
    [.challenge aliceChallenge] aliceVerify reply := by
  obtain ⟨reply, hreply⟩ := exists_reply_aliceVerify ⟨"", 48271⟩
  exact ⟨reply, (login_sound loginRun_alice).1 [.challenge aliceChallenge] aliceVerify [] reply rfl
    hreply⟩

end SecNet
