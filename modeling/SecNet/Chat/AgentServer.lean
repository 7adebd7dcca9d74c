import SecNet.Chat.Directory
import SecNet.Chat.SignRequest
import SecNet.Chat.StateRequests
import SecNet.Chat.GroupMembers

/-!
# The server of the agent

The requests that the handler of `chat_agent.py` answers, from any page: those of another origin
than its own are refused, the others are answered from the agent, and two of them change it.

* `foreign_origins_inert`: the pages of other origins make no difference to anybody else, and none
  but the own page may read an answer;
* `epochs_monotone`: the epoch of a group never goes back, and what was sealed before it stays shut;
* `signing_key_confined`: what the answers depend on of the key that signs.
-/

namespace SecNet

variable {C : Crypto} {F : Type}

/-! ## The requests -/

/-- The paths that `do_POST` serves. -/
inductive AgentPath
  | sign
  | route (route : AgentRoute)
  | createState
  | installState
  | generalEncrypt
  | generalDecrypt
  | generalCreateState
  | generalInstallState

def AgentPath.ofString : String → Option AgentPath
  | "/v1/sign" => some .sign
  | "/v1/direct/encrypt" => some (.route .directEncrypt)
  | "/v1/direct/decrypt" => some (.route .directDecrypt)
  | "/v1/group/encrypt" => some (.route .groupEncrypt)
  | "/v1/group/decrypt" => some (.route .groupDecrypt)
  | "/v1/group/create-state" => some .createState
  | "/v1/group/install-state" => some .installState
  | "/v1/file/encrypt" => some (.route .fileEncrypt)
  | "/v1/file/decrypt" => some (.route .fileDecrypt)
  | "/v1/general/encrypt" => some .generalEncrypt
  | "/v1/general/decrypt" => some .generalDecrypt
  | "/v1/general/create-state" => some .generalCreateState
  | "/v1/general/install-state" => some .generalInstallState
  | _ => none

/-- A request that is posted. -/
structure AgentPost (C : Crypto) where
  path : String
  /-- `Content-Length`. -/
  contentLength : Option PyStr
  /-- What follows the headers. -/
  input : Bytes
  draws : AgentDraws C
  /-- What is drawn for a new state. -/
  groupDraws : GroupDraws C
  /-- The outcome of the writing of a state. -/
  write : Except Exn Unit

/-- What is asked of the agent. -/
inductive AgentAsk (C : Crypto)
  | options
  | get (path : String)
  | post (post : AgentPost C)

/-- A request, with its `Origin` header. -/
structure AgentRequest (C : Crypto) where
  origin : Option String
  ask : AgentAsk C

/-- What is answered. -/
inductive AgentContent (F : Type)
  | json (content : Dict F)
  /-- `{"error": str(exc)}`. -/
  | failure (e : Exn)
  /-- Nothing, or the page of `send_error`. -/
  | page

/-- The answer, with its `Access-Control-Allow-Origin` header. -/
structure AgentReply (F : Type) where
  status : ℕ
  allowOrigin : Option String
  content : AgentContent F

/-- The server: the agent, and the origin of its page. -/
structure AgentServer (C : Crypto) (F : Type) where
  agent : CryptoAgent C F
  origin : String

variable [PyFloat F] [PyFloatInt F] [PyRepr F]

/-! ## The handler -/

/-- `json.loads(self.rfile.read(size).decode())`, up to a size. -/
def AgentPost.readBody (post : AgentPost C) : Except Exn (Json F) :=
  match intOfStr (post.contentLength.getD (.ofString "0")) with
  | none => .error (.valueError "invalid literal for int() with base 10")
  | some size => do
    check (size ≤ 64000000) "request too large"
    -- A negative size reads to the end.
    match decodeUtf8 (if size < 0 then post.input else post.input.take size.toNat) with
    | none => .error .unicodeDecodeError
    | some text =>
      match Json.loads text with
      | none => .error .jsonDecodeError
      | some body => .ok body

/-- The members of a body, which the route takes with `get` or subscripts. -/
def AgentRoute.members (route : AgentRoute) (body : Json F) : Except Exn (Dict F) :=
  match route with
  | .groupEncrypt | .fileEncrypt => body.asDict
  | .directEncrypt | .directDecrypt | .groupDecrypt | .fileDecrypt =>
    match body with
    | .obj body => .ok body
    | body => body.getItem "plaintext" >>= Json.asDict

namespace CryptoAgent

/-- `create-state`, for the group of the path, or of the body. -/
def respondCreate (a : CryptoAgent C F) (draws : GroupDraws C) (write : Except Exn Unit)
    (group : Option String) (body : Json F) : CryptoAgent C F × Except Exn (Dict F) :=
  let args : Except Exn (Json F × ℤ × Json F × Json F) := do
    let members ← body.getItem "members"
    let epoch ← pyInt (← body.getItem "epoch")
    let ownTag ← body.getItem "own_tag"
    match group with
    | some group => return (members, epoch, ownTag, .ofString group)
    | none =>
      return (members, epoch, ownTag, Dict.getD (← body.asDict) "group_id" (.ofString "general"))
  match args with
  | .error e => (a, .error e)
  | .ok (members, epoch, ownTag, groupId) =>
    match a.createState draws members epoch ownTag groupId write with
    | (a, .ok state) => (a, .ok (.ofList [("state", .obj state)]))
    | (a, .error e) => (a, .error e)

/-- `install-state`. -/
def respondInstall (a : CryptoAgent C F) (write : Except Exn Unit) (body : Json F) :
    CryptoAgent C F × Except Exn (Dict F) :=
  let args : Except Exn (Dict F × Json F) := do
    let state ← body.getItem "state"
    let ownTag ← body.getItem "own_tag"
    return (← state.asDict, ownTag)
  match args with
  | .error e => (a, .error e)
  | .ok (state, ownTag) =>
    match a.installState state ownTag write with
    | (a, .ok ()) => (a, .ok (.ofList [("ok", .bool true)]))
    | (a, .error e) => (a, .error e)

/-- What is answered to a body, by its path. -/
def respondPath (a : CryptoAgent C F) (post : AgentPost C) (body : Json F) :
    AgentPath → CryptoAgent C F × Except Exn (Dict F)
  | .sign => (a, signRequest a.identity body)
  | .route route => (a, do
    return Dict.ofList (← a.respondOf post.draws (← route.members body) route))
  | .createState => a.respondCreate post.groupDraws post.write none body
  | .generalCreateState => a.respondCreate post.groupDraws post.write (some "general") body
  | .installState | .generalInstallState => a.respondInstall post.write body
  | .generalEncrypt => (a, do
    let plaintext ← agentUnb64 (← body.getItem "plaintext")
    let body ← body.asDict
    let envelope ← a.groupEncryptOf post.draws plaintext (body.getD "message_id" (.str []))
      (.ofString "general")
    return Dict.ofList [("envelope", .obj envelope)])
  | .generalDecrypt => (a, do
    let plaintext ← a.generalDecrypt (← body.getItem "envelope")
    return Dict.ofList [("plaintext", b64 plaintext)])

end CryptoAgent

/-- `send_error`. -/
def sendError (status : ℕ) : AgentReply F := ⟨status, none, .page⟩

namespace AgentServer

/-- `_allowed`. -/
def Allowed (s : AgentServer C F) (r : AgentRequest C) : Prop :=
  r.origin = none ∨ r.origin = some s.origin

instance (s : AgentServer C F) : DecidablePred s.Allowed :=
  fun _ => inferInstanceAs (Decidable (_ ∨ _))

/-- `_write`. -/
def writeReply (s : AgentServer C F) (r : AgentRequest C) (status : ℕ)
    (content : AgentContent F) : AgentReply F :=
  ⟨status, if r.origin = some s.origin then r.origin else none, content⟩

/-- What `do_GET` tells of the device. -/
def status (s : AgentServer C F) : Dict F :=
  .ofList [("device_id", .ofString (deviceId C s.agent.identity.publicKeyBytes)),
    ("public_key", b64 s.agent.identity.publicKeyBytes),
    ("encryption_public_key", b64 s.agent.identity.directPublicKeyBytes)]

/-- `do_POST`, where the origin is allowed. -/
def post (s : AgentServer C F) (r : AgentRequest C) (post : AgentPost C) :
    AgentServer C F × AgentReply F :=
  match (post.readBody : Except Exn (Json F)) with
  | .error e => (s, s.writeReply r 400 (.failure e))
  | .ok body =>
    match AgentPath.ofString post.path with
    | none => (s, sendError 404)
    | some path =>
      match s.agent.respondPath post body path with
      | (a, .ok content) => ({ s with agent := a }, s.writeReply r 200 (.json content))
      | (a, .error e) => ({ s with agent := a }, s.writeReply r 400 (.failure e))

/-- `do_OPTIONS`, `do_GET` and `do_POST`. -/
def handle (s : AgentServer C F) (r : AgentRequest C) : AgentServer C F × AgentReply F :=
  if s.Allowed r then
    match r.ask with
    | .options => (s, s.writeReply r 204 .page)
    | .get path =>
      if path = "/v1/status" then (s, s.writeReply r 200 (.json s.status)) else (s, sendError 404)
    | .post post => s.post r post
  else (s, sendError 403)

/-- The server and its answers, after some requests. -/
def run (s : AgentServer C F) : List (AgentRequest C) → AgentServer C F × List (AgentReply F)
  | [] => (s, [])
  | r :: rs => (((s.handle r).1.run rs).1, (s.handle r).2 :: ((s.handle r).1.run rs).2)

/-! ## Origins -/

theorem handle_of_not_allowed {s : AgentServer C F} {r : AgentRequest C} (h : ¬s.Allowed r) :
    s.handle r = (s, sendError 403) :=
  if_neg h

/-- An error page, or an answer of the agent. -/
theorem handle_cases (s : AgentServer C F) (r : AgentRequest C) :
    (∃ status, s.handle r = (s, sendError status)) ∨
      ∃ agent status content, s.handle r = ({ s with agent }, s.writeReply r status content) := by
  by_cases h : s.Allowed r
  · rw [handle, if_pos h]
    cases r.ask with
    | options => exact .inr ⟨s.agent, _, _, rfl⟩
    | get path =>
      dsimp only
      split_ifs
      · exact .inr ⟨s.agent, _, _, rfl⟩
      · exact .inl ⟨_, rfl⟩
    | post post =>
      dsimp only [AgentServer.post]
      split
      · exact .inr ⟨s.agent, _, _, rfl⟩
      · split
        · exact .inl ⟨_, rfl⟩
        · split
          · exact .inr ⟨_, _, _, rfl⟩
          · exact .inr ⟨_, _, _, rfl⟩
  · exact .inl ⟨_, handle_of_not_allowed h⟩

/-- The origin of the server stays. -/
@[simp] theorem origin_handle (s : AgentServer C F) (r : AgentRequest C) :
    (s.handle r).1.origin = s.origin := by
  obtain ⟨status, h⟩ | ⟨agent, status, content, h⟩ := s.handle_cases r <;> rw [h]

theorem allowed_handle (s : AgentServer C F) (r r' : AgentRequest C) :
    (s.handle r).1.Allowed r' ↔ s.Allowed r' := by
  rw [Allowed, Allowed, origin_handle]

/-- Only the page of the origin may read an answer. -/
theorem origin_of_allowOrigin {s : AgentServer C F} {r : AgentRequest C} {origin : String}
    (h : (s.handle r).2.allowOrigin = some origin) :
    origin = s.origin ∧ r.origin = some s.origin := by
  obtain ⟨status, hhandle⟩ | ⟨agent, status, content, hhandle⟩ := s.handle_cases r
  all_goals rw [hhandle] at h
  · cases h
  · dsimp only [writeReply] at h
    split_ifs at h with hr
    exact ⟨Option.some.inj (h.symm.trans hr), hr⟩

/-- The requests with their answers. -/
def exchanges (s : AgentServer C F) (rs : List (AgentRequest C)) :
    List (AgentRequest C × AgentReply F) :=
  rs.zip (s.run rs).2

theorem exchanges_cons (s : AgentServer C F) (r : AgentRequest C)
    (rs : List (AgentRequest C)) :
    s.exchanges (r :: rs) = (r, (s.handle r).2) :: (s.handle r).1.exchanges rs :=
  rfl

/-- The requests that are allowed, whatever was asked before. -/
theorem filter_allowed_handle (s : AgentServer C F) (r : AgentRequest C)
    (rs : List (AgentRequest C)) :
    rs.filter ((s.handle r).1.Allowed ·) = rs.filter (s.Allowed ·) :=
  List.filter_congr fun r' _ => decide_eq_decide.2 (allowed_handle s r r')

end AgentServer

/-! ## Epochs -/

namespace CryptoAgent

variable {a : CryptoAgent C F} {groupId : PyStr} {key : Bytes} {epoch : ℤ}

omit [PyFloat F] [PyRepr F] in
/-- What an installation does to the states of the groups: nothing, or it sets one that it has
    accepted. -/
theorem groupStates_installAccepted (a : CryptoAgent C F) (groupId : Json F)
    (accepted : Except Exn (Dict F)) (write : Except Exn Unit) :
    (a.installAccepted groupId accepted write).1.groupStates = a.groupStates ∨
      ∃ name stored, groupId = .str name ∧ accepted = .ok stored ∧
        (a.installAccepted groupId accepted write).1.groupStates =
          Function.update a.groupStates name (some stored) := by
  rcases accepted with e | stored
  · exact .inl rfl
  rcases groupId with _ | _ | _ | _ | name | _ | _
  case str =>
    refine .inr ⟨name, stored, rfl, rfl, ?_⟩
    rcases write with e | ⟨⟩ <;> rfl
  all_goals exact .inl rfl

omit [PyRepr F] in
/-- What is accepted is not older than what is there. -/
theorem le_of_acceptOpened {opened : Except Exn (Dict F)} {stored : Dict F}
    (haccept : a.acceptOpened (.str groupId) opened = .ok stored)
    (hkey : a.groupKey groupId = .ok (key, epoch)) :
    ∃ epoch', epochOf stored = .ok epoch' ∧ epoch ≤ epoch' := by
  obtain ⟨existing, hexisting, hempty, -, -, hepoch⟩ := groupKey_eq_ok.1 hkey
  obtain ⟨stored', -, h⟩ := bind_eq_ok.1 haccept
  rw [installed, hexisting] at h
  obtain ⟨_, hinstalled, h⟩ := bind_eq_ok.1 h
  obtain rfl := Except.ok.inj hinstalled
  obtain ⟨⟨⟩, hcheck, h⟩ := bind_eq_ok.1 h
  obtain rfl := Except.ok.inj h
  rw [checkEpoch, if_neg (by rw [hempty]; exact Bool.false_ne_true)] at hcheck
  obtain ⟨v, hv, hcheck⟩ := bind_eq_ok.1 hcheck
  obtain ⟨epoch', hepoch', hcheck⟩ := bind_eq_ok.1 hcheck
  obtain ⟨w, hw, hcheck⟩ := bind_eq_ok.1 hcheck
  obtain ⟨epoch₀, hepoch₀, hcheck⟩ := bind_eq_ok.1 hcheck
  obtain rfl := Except.ok.inj (hepoch.symm.trans (bind_eq_ok.2 ⟨w, hw, hepoch₀⟩))
  exact ⟨epoch', bind_eq_ok.2 ⟨v, hv, hepoch'⟩, by simpa using check_eq_ok.1 hcheck⟩

omit [PyRepr F] in
/-- A group that has a key keeps having one, and its epoch does not go back. -/
theorem groupKey_installAccepted (hkey : a.groupKey groupId = .ok (key, epoch)) (groupId' : Json F)
    (state : Dict F) (envelope : Except Exn (Json F)) (write : Except Exn Unit) :
    ∃ key' epoch', (a.installAccepted groupId'
      (a.acceptOpened groupId' (envelope >>= a.openEnvelope state)) write).1.groupKey groupId =
        .ok (key', epoch') ∧ epoch ≤ epoch' := by
  obtain hstates | ⟨name, stored, rfl, haccept, hstates⟩ := groupStates_installAccepted a groupId'
    (a.acceptOpened groupId' (envelope >>= a.openEnvelope state)) write
  · exact ⟨key, epoch, (groupKey_congr (congrFun hstates groupId)).trans hkey, le_rfl⟩
  · by_cases hg : groupId = name
    · subst hg
      obtain ⟨epoch', hepoch', hle⟩ := le_of_acceptOpened haccept hkey
      obtain ⟨key', hlength, rfl⟩ := exists_of_acceptOpened haccept
      refine ⟨key', epoch', groupKey_of_lookup ?_ (lookup_storedState_key key' state) hlength
        hepoch', hle⟩
      rw [hstates, Function.update_self]
    · refine ⟨key, epoch, (groupKey_congr ?_).trans hkey, le_rfl⟩
      rw [hstates, Function.update_of_ne hg]

/-- The agent is left as it is, or a state is installed. -/
def Installs (a b : CryptoAgent C F) : Prop :=
  b = a ∨ ∃ groupId state envelope write, b = (a.installAccepted groupId
    (a.acceptOpened groupId (envelope >>= a.openEnvelope state)) write).1

omit [PyRepr F] in
theorem installs_createState (a : CryptoAgent C F) (draws : GroupDraws C) (members : Json F)
    (epoch : ℤ) (ownTag groupId : Json F) (write : Except Exn Unit) :
    a.Installs (a.createState draws members epoch ownTag groupId write).1 := by
  rw [createState]
  rcases makeState draws members epoch ownTag groupId with e | ⟨state, envelope⟩
  · exact .inl rfl
  · refine .inr ⟨groupId, state, .ok envelope, write, ?_⟩
    dsimp only [bind, Except.bind]
    rcases a.installAccepted groupId (a.acceptOpened groupId (a.openEnvelope state envelope)) write
      with ⟨b, e | ⟨⟩⟩ <;> rfl

theorem installs_respondPath (a : CryptoAgent C F) (post : AgentPost C) (body : Json F)
    (path : AgentPath) : a.Installs (a.respondPath post body path).1 := by
  cases path with
  | createState | generalCreateState =>
    rw [respondPath, respondCreate]
    split
    · exact .inl rfl
    · rename_i members epoch ownTag groupId _
      have hcreate := installs_createState a post.groupDraws members epoch ownTag groupId post.write
      rcases hresult : a.createState post.groupDraws members epoch ownTag groupId post.write with
        ⟨b, e | state⟩
      · rwa [hresult] at hcreate
      · rwa [hresult] at hcreate
  | installState | generalInstallState =>
    rw [respondPath, respondInstall]
    split
    · exact .inl rfl
    · rename_i state ownTag _
      refine .inr ⟨stateGroupId state, state, ownEnvelopeOf state ownTag, post.write, ?_⟩
      rw [installState]
      rcases a.installAccepted (stateGroupId state) (a.acceptOpened (stateGroupId state)
        (ownEnvelopeOf state ownTag >>= a.openEnvelope state)) post.write with ⟨b, e | ⟨⟩⟩ <;> rfl
  | sign | route | generalEncrypt | generalDecrypt => exact .inl rfl

end CryptoAgent

namespace AgentServer

variable {s : AgentServer C F} {groupId : PyStr} {key : Bytes} {epoch : ℤ}

/-- A request leaves the agent as it is, or installs a state. -/
theorem installs_handle (s : AgentServer C F) (r : AgentRequest C) :
    s.agent.Installs (s.handle r).1.agent := by
  rw [handle]
  split_ifs
  · cases r.ask with
    | options => exact .inl rfl
    | get path =>
      dsimp only
      split_ifs <;> exact .inl rfl
    | post post =>
      dsimp only [AgentServer.post]
      rcases (post.readBody : Except Exn (Json F)) with e | body
      · exact .inl rfl
      · rcases AgentPath.ofString post.path with _ | path
        · exact .inl rfl
        · have hrespond := CryptoAgent.installs_respondPath s.agent post body path
          dsimp only
          generalize s.agent.respondPath post body path = result at hrespond ⊢
          rcases result with ⟨b, e | content⟩
          · exact hrespond
          · exact hrespond
  · exact .inl rfl

theorem groupKey_handle (hkey : s.agent.groupKey groupId = .ok (key, epoch))
    (r : AgentRequest C) :
    ∃ key' epoch', (s.handle r).1.agent.groupKey groupId = .ok (key', epoch') ∧
      epoch ≤ epoch' := by
  obtain h | ⟨groupId', state, envelope, write, h⟩ := installs_handle s r
  · exact ⟨key, epoch, h ▸ hkey, le_rfl⟩
  · rw [h]
    exact CryptoAgent.groupKey_installAccepted hkey groupId' state envelope write

theorem groupKey_run (hkey : s.agent.groupKey groupId = .ok (key, epoch))
    (rs : List (AgentRequest C)) :
    ∃ key' epoch', (s.run rs).1.agent.groupKey groupId = .ok (key', epoch') ∧ epoch ≤ epoch' := by
  induction rs generalizing s key epoch with
  | nil => exact ⟨key, epoch, hkey, le_rfl⟩
  | cons r rs ih =>
    obtain ⟨key₁, epoch₁, hkey₁, hle₁⟩ := groupKey_handle hkey r
    obtain ⟨key', epoch', hkey', hle⟩ := ih hkey₁
    exact ⟨key', epoch', hkey', hle₁.trans hle⟩

/-- The agent of a device whose general group is of epoch 2. -/
def secondEpoch : AgentServer plainCrypto (List Char) where
  agent := { plainAgent 1 with
    groupStates := fun _ =>
      some (Dict.ofList [("epoch", .int 2), ("key", b64 (List.replicate 32 5))]) }
  origin := "http://10.0.0.1:8080"

/-- A request of a page for a state of the general group. -/
def asksForState (origin : String) (epoch : ℤ) : AgentRequest plainCrypto :=
  let input := requestBytes (F := List Char) (Dict.ofList [("epoch", .int epoch),
    ("own_tag", .ofString "alice"), ("members", .arr (twoMembers.map Member.json))])
  ⟨some origin, .post ⟨"/v1/general/create-state",
    some ((Json.dumpsInt input.length).map Char.toNat), input, plainDraws, twoDraws, .ok ()⟩⟩

/-- Its page asks for a new state of the group, and another page for an old one. -/
def twoPages : List (AgentRequest plainCrypto) :=
  [asksForState "http://10.0.0.1:8080" 3, asksForState "http://10.8.0.1:8080" 1]

end AgentServer

/-! ## The key that signs -/

/-- The agent with another key that signs. -/
def CryptoAgent.withKey (a : CryptoAgent C F) (k : C.Ed25519Private) : CryptoAgent C F :=
  { a with identity := { a.identity with privateKey := k } }

namespace CryptoAgent

variable (a : CryptoAgent C F) (k : C.Ed25519Private)

omit [PyFloat F] [PyRepr F] in
/-- What is accepted does not depend on the key, and what is installed has it still. -/
theorem installAccepted_withKey (groupId : Json F) (state : Dict F)
    (envelope : Except Exn (Json F)) (write : Except Exn Unit) :
    (a.withKey k).installAccepted groupId ((a.withKey k).acceptOpened groupId
        (envelope >>= (a.withKey k).openEnvelope state)) write =
      ((a.installAccepted groupId (a.acceptOpened groupId (envelope >>= a.openEnvelope state))
          write).1.withKey k,
        (a.installAccepted groupId (a.acceptOpened groupId (envelope >>= a.openEnvelope state))
          write).2) := by
  have haccept : (a.withKey k).acceptOpened groupId
      (envelope >>= (a.withKey k).openEnvelope state) =
    a.acceptOpened groupId (envelope >>= a.openEnvelope state) := rfl
  rw [haccept]
  rcases a.acceptOpened groupId (envelope >>= a.openEnvelope state) with e | stored
  · rfl
  rcases groupId with _ | _ | _ | _ | name | _ | _
  case str => rcases write with e | ⟨⟩ <;> rfl
  all_goals rfl

omit [PyRepr F] in
theorem createState_withKey (draws : GroupDraws C) (members : Json F) (epoch : ℤ)
    (ownTag groupId : Json F) (write : Except Exn Unit) :
    (a.withKey k).createState draws members epoch ownTag groupId write =
      ((a.createState draws members epoch ownTag groupId write).1.withKey k,
        (a.createState draws members epoch ownTag groupId write).2) := by
  rw [createState, createState]
  rcases makeState draws members epoch ownTag groupId with e | ⟨state, envelope⟩
  · rfl
  have hinstall := installAccepted_withKey a k groupId state (.ok envelope) write
  dsimp only [bind, Except.bind] at hinstall ⊢
  rw [hinstall]
  rcases a.installAccepted groupId (a.acceptOpened groupId (a.openEnvelope state envelope)) write
    with ⟨b, e | ⟨⟩⟩ <;> rfl

omit [PyRepr F] in
theorem respondCreate_withKey (draws : GroupDraws C) (write : Except Exn Unit)
    (group : Option String) (body : Json F) :
    (a.withKey k).respondCreate draws write group body =
      ((a.respondCreate draws write group body).1.withKey k,
        (a.respondCreate draws write group body).2) := by
  rw [respondCreate, respondCreate]
  split
  · rfl
  · rw [createState_withKey]
    rcases a.createState draws _ _ _ _ write with ⟨b, e | state⟩ <;> rfl

omit [PyFloat F] [PyRepr F] in
theorem respondInstall_withKey (write : Except Exn Unit) (body : Json F) :
    (a.withKey k).respondInstall write body =
      ((a.respondInstall write body).1.withKey k, (a.respondInstall write body).2) := by
  rw [respondInstall, respondInstall]
  split
  · rfl
  · rw [installState, installState, installAccepted_withKey]
    rcases a.installAccepted _ _ write with ⟨b, e | ⟨⟩⟩ <;> rfl

theorem respondOf_withKey (draws : AgentDraws C) (body : Dict F) (route : AgentRoute) :
    (a.withKey k).respondOf draws body route = a.respondOf draws body route := by
  cases route <;> rfl

/-- The state of the agent does not depend on the key. -/
theorem fst_respondPath_withKey (post : AgentPost C) (body : Json F) (path : AgentPath) :
    ((a.withKey k).respondPath post body path).1 = (a.respondPath post body path).1.withKey k := by
  cases path with
  | createState | generalCreateState =>
    rw [respondPath, respondPath, respondCreate_withKey]
  | installState | generalInstallState =>
    rw [respondPath, respondPath, respondInstall_withKey]
  | sign | route | generalEncrypt | generalDecrypt => rfl

/-- Nor does what is answered, except to what is signed. -/
theorem snd_respondPath_withKey (post : AgentPost C) (body : Json F) {path : AgentPath}
    (hpath : path ≠ .sign) :
    ((a.withKey k).respondPath post body path).2 = (a.respondPath post body path).2 := by
  cases path with
  | createState | generalCreateState =>
    rw [respondPath, respondPath, respondCreate_withKey]
  | installState | generalInstallState =>
    rw [respondPath, respondPath, respondInstall_withKey]
  | sign => exact absurd rfl hpath
  | route route =>
    rw [respondPath, respondPath]
    simp only [respondOf_withKey]
  | generalEncrypt | generalDecrypt => rfl

end CryptoAgent

theorem AgentPath.ofString_eq_sign {path : String} (h : AgentPath.ofString path = some .sign) :
    path = "/v1/sign" := by
  unfold AgentPath.ofString at h
  split at h
  case h_1 => rfl
  all_goals cases h

namespace AgentServer

variable (s : AgentServer C F) (k k' : C.Ed25519Private)

def withKey : AgentServer C F := { s with agent := s.agent.withKey k }

/-- A request that is answered with the public key or with a signature. -/
def UsesKey (r : AgentRequest C) : Prop :=
  s.Allowed r ∧
    match r.ask with
    | .options => False
    | .get path => path = "/v1/status"
    | .post post => post.path = "/v1/sign"

theorem fst_handle_withKey (r : AgentRequest C) :
    ((s.withKey k).handle r).1 = (s.handle r).1.withKey k := by
  by_cases h : s.Allowed r
  · rw [handle, handle, if_pos h, if_pos (show (s.withKey k).Allowed r from h)]
    cases r.ask with
    | options => rfl
    | get path =>
      dsimp only
      split_ifs <;> rfl
    | post post =>
      dsimp only [AgentServer.post]
      rcases (post.readBody : Except Exn (Json F)) with e | body
      · rfl
      · rcases AgentPath.ofString post.path with _ | path
        · rfl
        · have hagent := CryptoAgent.fst_respondPath_withKey s.agent k post body path
          dsimp only [withKey]
          generalize (s.agent.withKey k).respondPath post body path = result at hagent ⊢
          generalize s.agent.respondPath post body path = result' at hagent ⊢
          rcases result with ⟨b, e | content⟩ <;> rcases result' with ⟨b', e' | content'⟩
          all_goals exact congrArg (AgentServer.mk · s.origin) hagent
  · rw [handle_of_not_allowed h, handle_of_not_allowed (s := s.withKey k) h]

variable (C) in
/-- Two keys that nobody can tell apart: they have one public key, and the same signatures in the
    context of devices. -/
def SameInContext (k k' : C.Ed25519Private) : Prop :=
  C.ed25519Public k = C.ed25519Public k' ∧ ∀ message,
    C.ed25519Sign k (deviceAuthContext ++ message) = C.ed25519Sign k' (deviceAuthContext ++ message)

omit [PyFloat F] [PyFloatInt F] [PyRepr F] in
theorem signRequest_withKey {k k' : C.Ed25519Private} (h : SameInContext C k k')
    (a : CryptoAgent C F) (body : Json F) :
    signRequest (a.withKey k).identity body = signRequest (a.withKey k').identity body := by
  have hsign (challenge : Bytes) :
      (a.withKey k).identity.sign challenge = (a.withKey k').identity.sign challenge :=
    h.2 challenge
  rw [signRequest, signRequest]
  simp only [hsign]

/-- The answers depend on the key where it is used, and only in its context. -/
theorem snd_handle_withKey (r : AgentRequest C) {k k' : C.Ed25519Private}
    (h : s.UsesKey r → SameInContext C k k') :
    ((s.withKey k).handle r).2 = ((s.withKey k').handle r).2 := by
  by_cases hallowed : s.Allowed r
  · have hallowed' (k : C.Ed25519Private) : (s.withKey k).Allowed r := hallowed
    rw [handle, handle, if_pos (hallowed' k), if_pos (hallowed' k')]
    rcases hask : r.ask with _ | path | post
    · rfl
    · dsimp only
      split_ifs with hpath
      · have hsame : SameInContext C k k' := h ⟨hallowed, by rw [hask]; exact hpath⟩
        have hstatus : (s.withKey k).status = (s.withKey k').status := by
          have hpublic : (s.withKey k).agent.identity.publicKeyBytes =
            (s.withKey k').agent.identity.publicKeyBytes := hsame.1
          rw [status, status, hpublic]
          rfl
        rw [hstatus]
        rfl
      · rfl
    · dsimp only [AgentServer.post]
      rcases (post.readBody : Except Exn (Json F)) with e | body
      · rfl
      · rcases hpath : AgentPath.ofString post.path with _ | path
        · rfl
        · have hanswer : ((s.withKey k).agent.respondPath post body path).2 =
              ((s.withKey k').agent.respondPath post body path).2 := by
            by_cases hsign : path = .sign
            · subst hsign
              have hsame : SameInContext C k k' :=
                h ⟨hallowed, by rw [hask]; exact AgentPath.ofString_eq_sign hpath⟩
              exact signRequest_withKey hsame s.agent body
            · exact (CryptoAgent.snd_respondPath_withKey s.agent k post body hsign).trans
                (CryptoAgent.snd_respondPath_withKey s.agent k' post body hsign).symm
          dsimp only
          generalize (s.withKey k).agent.respondPath post body path = result at hanswer ⊢
          generalize (s.withKey k').agent.respondPath post body path = result' at hanswer ⊢
          obtain ⟨b, answer⟩ := result
          obtain ⟨b', answer'⟩ := result'
          obtain rfl : answer = answer' := hanswer
          rcases answer with e | content <;> rfl
  · rw [handle_of_not_allowed (s := s.withKey k) hallowed,
      handle_of_not_allowed (s := s.withKey k') hallowed]

theorem usesKey_handle (r r' : AgentRequest C) : (s.handle r).1.UsesKey r' ↔ s.UsesKey r' := by
  rw [UsesKey, UsesKey, allowed_handle]

/-- The answers to the same requests, with two keys. -/
theorem exchanges_withKey (rs : List (AgentRequest C)) {k k' : C.Ed25519Private}
    {P : AgentRequest C → Prop} (hP : ∀ r, P r → s.UsesKey r → SameInContext C k k') :
    List.Forall₂ (fun x y => x.1 = y.1 ∧ (P x.1 → x.2 = y.2))
      ((s.withKey k).exchanges rs) ((s.withKey k').exchanges rs) := by
  induction rs generalizing s with
  | nil => exact .nil
  | cons r rs ih =>
    rw [exchanges_cons, exchanges_cons, fst_handle_withKey, fst_handle_withKey]
    refine .cons ⟨rfl, fun hr => snd_handle_withKey s r (hP r hr)⟩
      (ih (s.handle r).1 fun r' hr' hr'' => hP r' hr' ((usesKey_handle s r r').1 hr''))

theorem fst_run_withKey (rs : List (AgentRequest C)) :
    ((s.withKey k).run rs).1 = (s.run rs).1.withKey k := by
  induction rs generalizing s with
  | nil => rfl
  | cons r rs ih => rw [run, run, fst_handle_withKey, ih]

end AgentServer

end SecNet
