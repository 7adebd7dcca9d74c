import SecNet.Chat.AgentApi

/-!
# The browser

`app.js`: direct messages (`sendMessage`), files that are attached (`fileInput.onchange`),
what comes over the websocket (`socket.onmessage`), and files that are downloaded
(`downloadFile`). A property that an object does not have is `undefined`, which is a value
like any other until a property of it is read.

The values of JSON texts are those that the other side has written: a `TextDecoder` gets what a
`TextEncoder` has made, and an integer is one that a browser reads and writes as it is, like the
sizes of files and the epochs, which have come to the agent from a browser.

* `ScriptEngine.b64_eq_ok`: what an engine encodes in base64;
* `scriptUnb64_b64`: bytes go through base64 text;
* `scriptUnb64_undefined`: there are no bytes in what is not there;
* `parseBytes_encodeScript`: values go through their JSON text.
-/

namespace SecNet

/-- What a script throws: the error of an answer, or one of its own. -/
inductive ScriptError
  | answer (e : Exn)
  | error (message : String)
  | typeError
  | rangeError
  | invalidCharacterError
  | syntaxError
  deriving DecidableEq

variable {C : Crypto} {F : Type} [PyFloat F]

/-! ## Values -/

/-- A value of a script, which may be `undefined`. -/
abbrev Value (F : Type) := Option (Json F)

omit [PyFloat F] in
/-- `v.key`, of the properties that are not built in. -/
def property (v : Value F) (key : String) : Except ScriptError (Value F) :=
  match v with
  | none | some .null => .error .typeError
  | some (.obj d) => .ok (d.lookup (.ofString key))
  | some _ => .ok none

omit [PyFloat F] in
theorem property_ofList {items : List (String × Json F)} {key : String} {v : Value F}
    (h : items.reverse.lookup key = v) :
    property (some (.obj (Dict.ofList items))) key = .ok v := by
  rw [property, lookup_ofList, h]

/-- Whether a value is taken for true. -/
def isTrue : Value F → Bool
  | none | some .null => false
  | some (.bool b) => b
  | some (.int n) => n ≠ 0
  | some (.float x) => !PyFloat.eqInt x 0
  | some (.str s) => s ≠ []
  | some (.arr _) | some (.obj _) => true

mutual

/-- `String(v)`. -/
def scriptText : Json F → PyStr
  | .null => .ofString "null"
  | .bool b => .ofString (if b then "true" else "false")
  | .int n => (Json.dumpsInt n).map Char.toNat
  | .float x => (PyFloat.text x).map Char.toNat
  | .str s => s
  | .arr vs => scriptElements vs
  | .obj _ => .ofString "[object Object]"

/-- The elements of an array, with commas in between, where nothing stands for `null`. -/
def scriptElements : List (Json F) → PyStr
  | [] => []
  | [v] => match v with | .null => [] | v => scriptText v
  | v :: w :: vs =>
    (match v with | .null => [] | v => scriptText v) ++ .ofString "," ++ scriptElements (w :: vs)

end

/-- The engine that runs the script of a page. -/
structure ScriptEngine where
  /-- How many arguments a call may have. -/
  maxArguments : ℕ

omit [PyFloat F] in
/-- `b64`: the base64 text of bytes, which are the arguments of one call. -/
def ScriptEngine.b64 (engine : ScriptEngine) (data : Bytes) : Except ScriptError (Json F) :=
  if data.length ≤ engine.maxArguments then .ok (SecNet.b64 data) else .error .rangeError

omit [PyFloat F] in
theorem ScriptEngine.b64_eq_ok {engine : ScriptEngine} {data : Bytes} {text : Json F} :
    engine.b64 data = .ok text ↔ data.length ≤ engine.maxArguments ∧ text = SecNet.b64 data := by
  rw [ScriptEngine.b64]
  split_ifs with h
  · constructor
    · rintro ⟨rfl⟩
      exact ⟨h, rfl⟩
    · rintro ⟨-, rfl⟩
      rfl
  · exact iff_of_false nofun fun h' => h h'.1

/-- `unb64`: the bytes of a text. -/
def scriptUnb64 (v : Value F) : Except ScriptError Bytes :=
  let text := match v with | none => PyStr.ofString "undefined" | some v => scriptText v
  match atob (text.map Char.ofNat) with
  | some data => .ok data
  | none => .error .invalidCharacterError

/-- Bytes go through base64 text. -/
theorem scriptUnb64_b64 (data : Bytes) : scriptUnb64 (some (b64 (F := F) data)) = .ok data := by
  have hchars : ((b64encode data).map Char.toNat).map Char.ofNat = b64encode data := by
    rw [List.map_map]
    exact (List.map_congr_left fun c _ => Char.ofNat_toNat c).trans (List.map_id _)
  rw [scriptUnb64, b64]
  simp only [scriptText]
  rw [hchars, atob_b64encode]

/-- There are no bytes in what is not there: its text has a character too many. -/
theorem scriptUnb64_undefined : scriptUnb64 (F := F) none = .error .invalidCharacterError := rfl

omit [PyFloat F] in
/-- `{...v}`. No string or array is spread. -/
def spread : Value F → Dict F
  | some (.obj d) => d
  | _ => []

omit [PyFloat F] in
/-- `{...d, key: v}`. -/
def assign (d : Dict F) (key : String) (v : Json F) : Dict F := Json.insert (.ofString key) v d

omit [PyFloat F] in
theorem lookup_assign (d : Dict F) (key key' : String) (v : Json F) :
    (assign d key v).lookup (.ofString key') =
      if key' = key then some v else d.lookup (.ofString key') := by
  rw [assign, Json.lookup_insert]
  exact if_congr ⟨ofString_injective, congrArg _⟩ rfl rfl

omit [PyFloat F] in
/-- A member that is only there where its value is defined. -/
def definedItem (key : String) (v : Value F) : List (String × Json F) :=
  (v.map fun v => (key, v)).toList

/-- `JSON.stringify(v)`, in the bytes that encode it. -/
def encodeScript (v : Json F) : Bytes := encodeUtf8 (Json.script.write v)

/-- `JSON.parse(new TextDecoder().decode(data))`. -/
def parseBytes (data : Bytes) : Except ScriptError (Json F) :=
  match (decodeUtf8 data).bind Json.loads with
  | some v => .ok v
  | none => .error .syntaxError

theorem parseBytes_encodeScript {v : Json F} (h : v.Canonical) :
    parseBytes (encodeScript v) = .ok v := by
  rw [parseBytes, encodeScript, decodeUtf8_encodeUtf8, Option.bind_some, Json.loads_script h]

variable [PyFloatInt F]

/-- `agent(path, body)`. -/
def askAgent (a : CryptoAgent C F) (draws : AgentDraws C) (route : AgentRoute) (body : Dict F) :
    Except ScriptError (Value F) :=
  match a.post draws route body with
  | .ok answer => .ok (some (.obj answer))
  | .error e => .error (.answer e)

theorem askAgent_eq_ok {a : CryptoAgent C F} {draws : AgentDraws C} {route : AgentRoute}
    {body : Dict F} {v : Value F} :
    askAgent a draws route body = .ok v ↔
      ∃ answer, a.post draws route body = .ok answer ∧ v = some (.obj answer) := by
  rw [askAgent]
  rcases a.post draws route body with e | answer
  · exact iff_of_false nofun nofun
  · constructor
    · intro h
      exact ⟨answer, rfl, (Except.ok.inj h).symm⟩
    · rintro ⟨_, ⟨rfl⟩, rfl⟩
      rfl

/-! ## Direct messages -/

/-- A device in the directory of the browser. -/
structure DirectoryEntry where
  deviceTag : String
  encryptionPublicKey : String

/-- A request to the agent to encrypt for a device. -/
def directRequest (target : DirectoryEntry) (plaintext : Json F) (messageId : String) : Dict F :=
  Dict.ofList [("recipient_public_key", .ofString target.encryptionPublicKey),
    ("plaintext", plaintext), ("message_id", .ofString messageId)]

/-- `sendMessage` in a direct channel: what is posted to `/api/private` for the bytes of a
    text. -/
def sendDirect (engine : ScriptEngine) (a : CryptoAgent C F) (draws : AgentDraws C)
    (directory : List DirectoryEntry) (channel : String) (plaintext : Bytes) (messageId : String) :
    Except ScriptError (Dict F) := do
  let plaintext ← engine.b64 plaintext
  match directory.find? (·.deviceTag = channel) with
  | none => .error (.error "recipient not in directory")
  | some target => do
    let enc ← askAgent a draws .directEncrypt (directRequest target plaintext messageId)
    let envelope ← property enc "envelope"
    return Dict.ofList (("recipient_tag", .ofString channel) :: definedItem "envelope" envelope)

/-! ## Files that are attached -/

/-- A file. -/
structure AttachedFile where
  name : String
  data : Bytes

/-- Where messages are sent to. The server makes no empty ids. -/
inductive ChatChannel
  | general
  | group (id : String) (id_ne : id ≠ "")
  | dm (tag : String)

/-- The group of a channel: the general channel is one. -/
def ChatChannel.groupId : ChatChannel → Option String
  | .general => some "general"
  | .group id _ => some id
  | .dm _ => none

/-- What a run of `fileInput.onchange` draws: for the agent when it encrypts the file and when
    it encrypts the message, and the message ids. -/
structure AttachDraws (C : Crypto) where
  file : AgentDraws C
  message : AgentDraws C
  fileMessageId : String
  messageId : String

/-- The envelope of a file, and the bytes to upload. -/
def encryptFile (engine : ScriptEngine) (a : CryptoAgent C F) (draws : AttachDraws C)
    (directory : List DirectoryEntry) (channel : ChatChannel) (file : AttachedFile) :
    Except ScriptError (Value F × Bytes) := do
  let enc ← match channel with
    | .dm tag =>
      match directory.find? (·.deviceTag = tag) with
      | none => .error (.error "recipient not found")
      | some target => do
        askAgent a draws.file .directEncrypt
          (directRequest target (← engine.b64 file.data) draws.fileMessageId)
    | .general => do
      askAgent a draws.file .fileEncrypt (Dict.ofList [("plaintext", ← engine.b64 file.data),
        ("group_id", .ofString "general")])
    | .group id _ => do
      askAgent a draws.file .fileEncrypt (Dict.ofList [("plaintext", ← engine.b64 file.data),
        ("group_id", .ofString id)])
  let fileEnvelope ← property enc "envelope"
  return (fileEnvelope, ← scriptUnb64 (← property fileEnvelope "ciphertext"))

/-- `upload_file`, of the tag and the draw of the request, and what the store does: the key
    of the file. -/
def uploadFile (tag : Except Exn String) (uuid : String) (store : Except Exn Unit) (data : Bytes) :
    Except Exn String := do
  let tag ← tag
  check (data.length ≤ 64000000) "file too large (max 64 MB encrypted)"
  store
  return "uploads/" ++ tag ++ "/" ++ uuid

/-- The upload of the encrypted file. -/
def askUpload (upload : Bytes → Except Exn String) (data : Bytes) : Except ScriptError String :=
  match upload data with
  | .ok fileKey => .ok fileKey
  | .error e => .error (.answer e)

/-- `{file_key, filename, size}`. -/
def fileRef (fileKey : String) (file : AttachedFile) : Json F :=
  .obj (Dict.ofList [("file_key", .ofString fileKey), ("filename", .ofString file.name),
    ("size", .int file.data.length)])

/-- `msgEnvelope`. -/
def fileMessage (fileKey : String) (file : AttachedFile) (fileEnvelope : Value F) : Dict F :=
  Dict.ofList ([("type", .ofString "file"), ("file_key", .ofString fileKey),
    ("filename", .ofString file.name), ("size", .int file.data.length)] ++
    definedItem "file_envelope" fileEnvelope)

/-- A file that has been attached: the bytes that were uploaded, and the request that was
    posted. -/
structure Attached (F : Type) where
  uploaded : Bytes
  body : Dict F

/-- The announcement of a file in a group, with the hints at top level. -/
def announceInGroup (engine : ScriptEngine) (a : CryptoAgent C F) (draws : AttachDraws C)
    (groupId : String) (fileKey : String) (file : AttachedFile) (fileEnvelope : Value F) :
    Except ScriptError (Dict F) := do
  let enc ← askAgent a draws.message .groupEncrypt (Dict.ofList [
    ("plaintext", ← engine.b64 (encodeScript (.obj (fileMessage fileKey file fileEnvelope)))),
    ("message_id", .ofString draws.messageId), ("group_id", .ofString groupId)])
  match ← property enc "envelope" with
  | some (.obj envelope) =>
    return Dict.ofList [("envelope",
      .obj (assign (assign envelope "type" (.ofString "file")) "_file_ref" (fileRef fileKey file)))]
  | _ => .error .typeError

/-- The announcement of a file to a device. -/
def announceDirect (tag : String) (fileKey : String) (file : AttachedFile)
    (fileEnvelope : Value F) : Except ScriptError (Dict F) := do
  let alg ← property fileEnvelope "alg"
  let alg := if isTrue alg then alg else some (.ofString "x25519-chacha20poly1305-v1")
  return Dict.ofList [("recipient_tag", .ofString tag),
    ("envelope", .obj (assign (assign (assign (spread fileEnvelope) "alg" (alg.getD .null)) "type"
      (.ofString "file")) "_file_ref" (fileRef fileKey file)))]

/-- `fileInput.onchange`: the file is encrypted and uploaded, and then announced. -/
def attach (engine : ScriptEngine) (a : CryptoAgent C F) (draws : AttachDraws C)
    (upload : Bytes → Except Exn String) (directory : List DirectoryEntry) (channel : ChatChannel)
    (file : AttachedFile) : Except ScriptError (Attached F) := do
  let (fileEnvelope, encryptedBytes) ← encryptFile engine a draws directory channel file
  -- The metadata name the algorithm, or the kind of the envelope.
  let _ ← property fileEnvelope "alg"
  let fileKey ← askUpload upload encryptedBytes
  let body ← match channel with
    | .dm tag => announceDirect tag fileKey file fileEnvelope
    | .general => announceInGroup engine a draws "general" fileKey file fileEnvelope
    | .group id _ => announceInGroup engine a draws id fileKey file fileEnvelope
  return ⟨encryptedBytes, body⟩

/-! ## What comes over the websocket -/

/-- A message that is received: the bytes of its text, or a file. -/
inductive Received (F : Type)
  | text (data : Bytes)
  | file (fileKey filename size fileEnvelope : Value F)

/-- `socket.onmessage`, of a private message. -/
def receivePrivate (a : CryptoAgent C F) (draws : AgentDraws C) (message : Dict F) :
    Except ScriptError (Received F) := do
  let env ← property (some (.obj message)) "envelope"
  let ref ← property env "_file_ref"
  if isTrue ref then
    return .file (← property ref "file_key") (← property ref "filename") (← property ref "size") env
  else
    let dec ← askAgent a draws .directDecrypt (Dict.ofList (definedItem "envelope" env))
    return .text (← scriptUnb64 (← property dec "plaintext"))

/-- The plaintext of an envelope of a group. -/
def decryptGroup (a : CryptoAgent C F) (draws : AgentDraws C) (groupId : String) (env : Value F) :
    Except ScriptError Bytes := do
  let dec ← askAgent a draws .groupDecrypt (Dict.ofList [("envelope",
    .obj (assign (assign (spread env) "kind" (.ofString "group")) "group_id" (.ofString groupId)))])
  scriptUnb64 (← property dec "plaintext")

/-- `socket.onmessage`, of a message in the general channel or in a group. -/
def receiveInGroup (a : CryptoAgent C F) (draws : AgentDraws C) (groupId : String)
    (message : Dict F) : Except ScriptError (Received F) := do
  let env ← property (some (.obj message)) "envelope"
  let ref ← property env "_file_ref"
  if isTrue ref then
    -- An error leaves the envelope of the file undefined.
    let fileEnvelope : Except ScriptError (Value F) := do
      property (some (← parseBytes (← decryptGroup a draws groupId env))) "file_envelope"
    return .file (← property ref "file_key") (← property ref "filename") (← property ref "size")
      (fileEnvelope.toOption.join)
  else
    return .text (← decryptGroup a draws groupId env)

/-- What `downloadFile` makes of the envelope that it has put together. -/
def openFile (a : CryptoAgent C F) (draws : AgentDraws C) (envelope : Dict F) :
    Except ScriptError Bytes :=
  if (envelope.get "alg").isStr "chacha20poly1305-group-file-v1" then do
    let dec ← askAgent a draws .fileDecrypt (Dict.ofList [("envelope", .obj envelope)])
    scriptUnb64 (← property dec "plaintext")
  else if (envelope.get "alg").isStr "x25519-chacha20poly1305-v1" then do
    let dec ← askAgent a draws .directDecrypt (Dict.ofList [("envelope",
      .obj (Dict.ofList [("kind", .ofString "direct"), ("payload", .obj envelope)]))])
    scriptUnb64 (← property dec "plaintext")
  else .error (.error "unknown file envelope algorithm")

/-- `downloadFile`, of the bytes that have been fetched. -/
def downloadFile (engine : ScriptEngine) (a : CryptoAgent C F) (draws : AgentDraws C)
    (encBytes : Bytes) (fileEnvelope : Value F) : Except ScriptError Bytes := do
  openFile a draws (assign (spread fileEnvelope) "ciphertext" (← engine.b64 encBytes))

end SecNet
