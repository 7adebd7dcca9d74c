import SecNet.Chat.HistoryDecoding
import SecNet.Lib.Transition
import SecNet.Lib.Writers

/-!
# The lists of messages

The page puts what it receives into lists, one for each channel: what the websocket delivers, when
the agent has decrypted it, and what a history has that is not in the list when it is fetched. By
then a message may be on its way into the list, and what comes over the websocket is not looked up
at all. And the history of the general channel goes to a list of its own, which is not shown.

* `Page.Consistent`: the entries of a message and the decryptions that will add one are one at
  most, in the lists that are shown;
* `Page.listed_once_iff`: every message is listed once, whichever decryptions succeed, exactly when
  none is received twice but in the history of a group that has been listed, and the history of the
  general channel has nothing new;
* `history_not_listed`: a message of the general channel from its history, and one of a group that
  is opened twice.
-/

namespace SecNet

variable {F : Type} [PyFloat F]

/-! ## The page -/

/-- `channelKey`. -/
def channelKey : ChatChannel → String
  | .general => "general:general"
  | .group id _ => "group:" ++ id
  | .dm tag => "dm:" ++ tag

/-- A record of the server. -/
structure ChatRecord (F : Type) where
  messageId : String
  senderTag : String
  envelope : Dict F

/-- A message in a list. Its `_mid` is the id of the entry. -/
structure ListedMessage (F : Type) where
  sender : String
  received : Received F

/-- Where a message comes from. -/
structure Origin where
  channel : ChatChannel
  senderTag : String

/-- `messageHistory`, with the calls of the agent that are under way for it. -/
abbrev MessageHistory (F : Type) := Board String String (ListedMessage F) Origin

/-- The page: its messages, and the channels whose history is being fetched. What has been decoded
    is kept beside them, by channel, for the lists to be compared with. -/
structure Page (F : Type) where
  messageHistory : MessageHistory F
  fetches : List ChatChannel
  decoded : List (ChatChannel × String)

namespace Page

/-- The page when it is loaded. -/
def init : Page F := ⟨.empty, [], []⟩

omit [PyFloat F] in
/-- A message has been decoded, and is put into a list. -/
def append (channel : ChatChannel) (key : String) (p : Page F) (record : ChatRecord F)
    (received : Received F) : Page F :=
  { p with
    messageHistory := p.messageHistory.add key record.messageId ⟨record.senderTag, received⟩
    decoded := p.decoded ++ [(channel, record.messageId)] }

omit [PyFloat F] in
/-- The agent is called for a message. -/
def await (channel : ChatChannel) (key : String) (p : Page F) (record : ChatRecord F) : Page F :=
  { p with messageHistory :=
      p.messageHistory.start ⟨key, record.messageId, ⟨channel, record.senderTag⟩⟩ }

omit [PyFloat F] in
/-- A record is received, which is of a file that needs no call of the agent, or of a message that
    does. An error is caught. -/
def take (channel : ChatChannel) (key : String) (p : Page F) (record : ChatRecord F)
    (file : Except ScriptError (Option (Received F))) : Page F :=
  match file with
  | .error _ => p
  | .ok (some received) => p.append channel key record received
  | .ok none => p.await channel key record

omit [PyFloat F] in
/-- `decryptAndAppendHistory`, up to the call of the agent. -/
def decryptAndAppendHistory (channel : ChatChannel) (histKey : String) (p : Page F)
    (record : ChatRecord F) : Page F :=
  p.take channel histKey record (fileOfHistory (some (.obj record.envelope)))

omit [PyFloat F] in
/-- What `openChannel` does with the history that it has fetched. -/
def merge (channel : ChatChannel) (key : String) (p : Page F) (msgs : List (ChatRecord F)) :
    Page F :=
  let existing := (p.messageHistory.lists key).map Prod.fst
  msgs.foldl (fun p m =>
    if m.messageId ∈ existing then p else p.decryptAndAppendHistory channel key m) p

omit [PyFloat F] in
/-- A fetch comes to its end, with a history, if any. -/
def fetched (p : Page F) (n : ℕ) (msgs : Option (List (ChatRecord F))) : Page F :=
  match p.fetches[n]? with
  | none => p
  | some channel =>
    let p := { p with fetches := p.fetches.eraseIdx n }
    match msgs, channel with
    | none, _ => p
    | some msgs, .general => p.merge .general "general" msgs
    | some msgs, .group id hid => p.merge (.group id hid) ("group:" ++ id) msgs
    | some _, .dm _ => p

/-- `openChannel`, up to the fetch. -/
def openChannel (p : Page F) : ChatChannel → Page F
  | .general => { p with fetches := p.fetches ++ [.general] }
  | .group id hid => { p with fetches := p.fetches ++ [.group id hid] }
  | .dm _ => p

/-- The file that a private message is of. -/
def fileOfPrivate (env : Value F) : Except ScriptError (Option (Received F)) := do
  let ref ← property env "_file_ref"
  if isTrue ref then
    return some (.file (← property ref "file_key") (← property ref "filename")
      (← property ref "size") env)
  else return none

omit [PyFloat F] in
/-- The message of a group is decrypted, also when it is of a file. -/
def fileOfGroup (env : Value F) : Except ScriptError (Option (Received F)) := do
  let _ ← property env "_file_ref"
  return none

/-- `socket.onmessage`, up to the call of the agent. -/
def onmessage (p : Page F) (channel : ChatChannel) (m : ChatRecord F) : Page F :=
  match channel with
  | .general => p.take .general (channelKey .general) m (fileOfGroup (some (.obj m.envelope)))
  | .group id hid =>
    p.take (.group id hid) (channelKey (.group id hid)) m (fileOfGroup (some (.obj m.envelope)))
  | .dm tag => p.take (.dm tag) (channelKey (.dm tag)) m (fileOfPrivate (some (.obj m.envelope)))

omit [PyFloat F] in
/-- A call of the agent comes to its end: the message is decoded, or not. -/
def answer (p : Page F) (n : ℕ) (outcome : Option (Received F)) : Page F where
  messageHistory := p.messageHistory.finish n
    (outcome.map fun received w => ⟨w.source.senderTag, received⟩)
  fetches := p.fetches
  decoded := p.decoded ++ (p.messageHistory.writers[n]?.bind fun w =>
    outcome.map fun _ => (w.source.channel, w.id)).toList

end Page

/-- What happens to the page, in any order. -/
inductive PageEvent (F : Type)
  | opened (channel : ChatChannel)
  | fetched (n : ℕ) (msgs : Option (List (ChatRecord F)))
  | pushed (channel : ChatChannel) (m : ChatRecord F)
  | answered (n : ℕ) (outcome : Option (Received F))

namespace Page

/-- An event. -/
def step (p : Page F) : PageEvent F → Page F
  | .opened channel => p.openChannel channel
  | .fetched n msgs => p.fetched n msgs
  | .pushed channel m => p.onmessage channel m
  | .answered n outcome => p.answer n outcome

omit [PyFloat F] in
/-- The list that `renderMessages` shows. -/
def renderMessages (p : Page F) (channel : ChatChannel) : List (String × ListedMessage F) :=
  p.messageHistory.lists (channelKey channel)

/-! ## The lists -/

/-- What has been decoded of the general channel and of groups is listed once. -/
def ListedOnce (p : Page F) : Prop :=
  ∀ channel id, (channel, id) ∈ p.decoded → channel.groupId.isSome →
    ((p.renderMessages channel).map Prod.fst).count id = 1

/-- Calls of the agent come to their ends. -/
def settle (p : Page F) (answers : List (ℕ × Option (Received F))) : Page F :=
  answers.foldl (fun p a => p.answer a.1 a.2) p

/-- The records of a history that are not in its list. -/
def fresh (p : Page F) (key : String) (msgs : List (ChatRecord F)) : List (ChatRecord F) :=
  msgs.filter fun m => m.messageId ∉ (p.messageHistory.lists key).map Prod.fst

/-- An event brings no message again that is in its list or on the way into it, and no message of
    the general channel in a history only. -/
def Admits (p : Page F) : PageEvent F → Prop
  | .opened _ | .answered _ _ | .fetched _ none => True
  | .fetched n (some msgs) =>
    match p.fetches[n]? with
    | none | some (.dm _) => True
    | some .general => ∀ m ∈ p.fresh "general" msgs,
        0 < p.messageHistory.listed (channelKey .general) m.messageId
    | some (.group id _) => ((p.fresh ("group:" ++ id) msgs).map ChatRecord.messageId).Nodup ∧
        ∀ m ∈ p.fresh ("group:" ++ id) msgs,
          p.messageHistory.pending ("group:" ++ id) m.messageId = 0
  | .pushed channel m =>
    channel.groupId.isSome → p.messageHistory.weight (channelKey channel) m.messageId = 0

end Page

/-! ## Keys -/

/-- A key is of no other channel, of those that are shown. -/
def Owns (channel : ChatChannel) (key : String) : Prop :=
  ∀ c : ChatChannel, c.groupId.isSome → key = channelKey c → c = channel

theorem owns_channelKey (channel : ChatChannel) : Owns channel (channelKey channel) := by
  intro c hc h
  have h' := congrArg String.toList h
  cases c with
  | general =>
    cases channel with
    | general => rfl
    | group id hid => simp [channelKey, String.toList_append] at h'
    | dm tag => simp [channelKey, String.toList_append] at h'
  | group id hid =>
    cases channel with
    | general => simp [channelKey, String.toList_append] at h'
    | group id' hid' =>
      obtain rfl := (String.append_right_inj _).1 h
      rfl
    | dm tag => simp [channelKey, String.toList_append] at h'
  | dm tag => cases hc

/-- The history of the general channel has a key of its own. -/
theorem general_ne_channelKey (c : ChatChannel) : "general" ≠ channelKey c := by
  intro h
  have h' := congrArg String.toList h
  cases c <;> simp [channelKey, String.toList_append] at h'

theorem owns_general : Owns .general "general" := fun c _ h => absurd h (general_ne_channelKey c)

/-! ## What is decoded -/

omit [PyFloat F] in
/-- A history is read from an envelope that is an object. -/
theorem exists_fileOfHistory (env : Dict F) :
    ∃ file, fileOfHistory (some (.obj env)) = .ok file := by
  simp only [fileOfHistory, property, bind, Except.bind]
  split_ifs
  · exact ⟨_, rfl⟩
  · exact ⟨_, rfl⟩

namespace Page

variable {p : Page F} {channel : ChatChannel} {key : String}

omit [PyFloat F]

/-- Only what has been decoded is in the lists that are shown, and the calls under way will add to
    no list of another channel. -/
structure Sound (p : Page F) : Prop where
  writers : ∀ w ∈ p.messageHistory.writers, Owns w.source.channel w.key
  decoded : ∀ c : ChatChannel, c.groupId.isSome → ∀ id,
    0 < p.messageHistory.listed (channelKey c) id → (c, id) ∈ p.decoded

/-- Of the general channel and of groups, a message is listed once at most, and will be. What has
    been decoded is listed, and what is put into a list that is not shown is in the one that is. -/
structure Consistent (p : Page F) : Prop where
  once : ∀ c : ChatChannel, c.groupId.isSome → ∀ id, p.messageHistory.weight (channelKey c) id ≤ 1
  writers : ∀ w ∈ p.messageHistory.writers, w.source.channel.groupId.isSome →
    w.key = channelKey w.source.channel ∨
      0 < p.messageHistory.listed (channelKey w.source.channel) w.id
  decoded : ∀ c : ChatChannel, c.groupId.isSome → ∀ id, (c, id) ∈ p.decoded →
    0 < p.messageHistory.listed (channelKey c) id

theorem sound_init : (init (F := F)).Sound where
  writers _ hw := absurd hw List.not_mem_nil
  decoded _ _ _ hpos := absurd hpos (lt_irrefl 0)

theorem consistent_init : (init (F := F)).Consistent where
  once _ _ _ := Nat.zero_le 1
  writers _ hw := absurd hw List.not_mem_nil
  decoded _ _ _ h := absurd h List.not_mem_nil

/-- Then what has been decoded is listed once. -/
theorem Consistent.listedOnce (h : p.Consistent) : p.ListedOnce := by
  intro c id hdecoded hc
  rw [renderMessages, Board.count_map_fst]
  refine le_antisymm ?_ (h.decoded c hc id hdecoded)
  exact (Nat.le_add_right _ _).trans (h.once c hc id)

/-! ### A record is received -/

section

variable (p : Page F) (channel : ChatChannel) (key : String) (m : ChatRecord F)

theorem weight_take (file : Option (Received F)) (k id : String) :
    (p.take channel key m (.ok file)).messageHistory.weight k id =
      p.messageHistory.weight k id + if k = key ∧ id = m.messageId then 1 else 0 := by
  cases file with
  | none => exact Board.weight_start _
  | some received => exact Board.weight_add _

theorem weight_take_le (file : Except ScriptError (Option (Received F))) (k id : String) :
    (p.take channel key m file).messageHistory.weight k id ≤
      p.messageHistory.weight k id + if k = key ∧ id = m.messageId then 1 else 0 := by
  cases file with
  | error e => exact Nat.le_add_right _ _
  | ok file => exact (p.weight_take channel key m file k id).le

theorem listed_le_take (file : Except ScriptError (Option (Received F))) (k id : String) :
    p.messageHistory.listed k id ≤ (p.take channel key m file).messageHistory.listed k id := by
  rcases file with _ | (_ | received)
  · exact le_rfl
  · exact le_rfl
  · exact (Nat.le_add_right _ _).trans (Board.listed_add _).ge

theorem listed_take_of_ne (file : Except ScriptError (Option (Received F))) {k : String}
    (hk : k ≠ key) (id : String) :
    (p.take channel key m file).messageHistory.listed k id = p.messageHistory.listed k id := by
  rcases file with _ | (_ | received)
  · rfl
  · rfl
  · refine (Board.listed_add _).trans ?_
    rw [if_neg fun h => hk h.1, Nat.add_zero]

end

/-- The writers are those of before, and at most one that is of the record. -/
theorem mem_writers_take {m : ChatRecord F} {file : Except ScriptError (Option (Received F))}
    {w : Writer String String Origin}
    (hw : w ∈ (p.take channel key m file).messageHistory.writers) :
    w ∈ p.messageHistory.writers ∨ w = ⟨key, m.messageId, ⟨channel, m.senderTag⟩⟩ := by
  rcases file with _ | (_ | received)
  · exact .inl hw
  · exact (List.mem_append.1 hw).imp_right List.mem_singleton.1
  · exact .inl hw

theorem writers_subset_take {m : ChatRecord F} (file : Except ScriptError (Option (Received F))) :
    p.messageHistory.writers ⊆ (p.take channel key m file).messageHistory.writers := by
  rcases file with _ | (_ | received)
  · exact List.Subset.refl _
  · exact List.subset_append_left _ _
  · exact List.Subset.refl _

theorem decoded_subset_take {m : ChatRecord F} (file : Except ScriptError (Option (Received F))) :
    p.decoded ⊆ (p.take channel key m file).decoded := by
  rcases file with _ | (_ | received)
  · exact List.Subset.refl _
  · exact List.Subset.refl _
  · exact List.subset_append_left _ _

/-- What has been decoded was decoded before, or it is the record, which is listed then. -/
theorem mem_decoded_take {m : ChatRecord F} {file : Except ScriptError (Option (Received F))}
    {c : ChatChannel} {id : String} (h : (c, id) ∈ (p.take channel key m file).decoded) :
    (c, id) ∈ p.decoded ∨ (c = channel ∧ id = m.messageId ∧
      0 < (p.take channel key m file).messageHistory.listed key m.messageId) := by
  rcases file with _ | (_ | received)
  · exact .inl h
  · exact .inl h
  · refine (List.mem_append.1 h).imp_right fun h => ?_
    obtain ⟨rfl, rfl⟩ := Prod.mk.inj (List.mem_singleton.1 h)
    refine ⟨rfl, rfl, ?_⟩
    refine lt_of_lt_of_eq ?_ (Board.listed_add _).symm
    rw [if_pos ⟨rfl, rfl⟩]
    exact Nat.succ_pos _

theorem Sound.take (h : p.Sound) (howns : Owns channel key) (m : ChatRecord F)
    (file : Except ScriptError (Option (Received F))) : (p.take channel key m file).Sound where
  writers w hw := by
    rcases mem_writers_take hw with hw | rfl
    · exact h.writers w hw
    · exact howns
  decoded c hc id hpos := by
    rcases file with _ | (_ | received)
    · exact h.decoded c hc id hpos
    · exact h.decoded c hc id hpos
    · have hlisted := lt_of_lt_of_eq hpos (Board.listed_add _)
      split_ifs at hlisted with heq
      · obtain ⟨hkey, rfl⟩ := heq
        rw [howns c hc hkey.symm]
        exact List.mem_append_right _ List.mem_cons_self
      · exact List.mem_append_left _ (h.decoded c hc id hlisted)

/-- A record can be received: its list has no such message and will not, where it is one that is
    shown, or else the list that is shown has it. -/
def Ready (p : Page F) (channel : ChatChannel) (key id : String) : Prop :=
  channel.groupId.isSome →
    (key = channelKey channel ∧ p.messageHistory.weight key id = 0) ∨
      (key ≠ channelKey channel ∧ 0 < p.messageHistory.listed (channelKey channel) id)

theorem Consistent.take (h : p.Consistent) (howns : Owns channel key) {m : ChatRecord F}
    (hready : p.Ready channel key m.messageId) (file : Except ScriptError (Option (Received F))) :
    (p.take channel key m file).Consistent where
  once c hc id := by
    refine (p.weight_take_le channel key m file _ id).trans ?_
    split_ifs with heq
    · obtain ⟨hkey, rfl⟩ := heq
      obtain rfl := howns c hc hkey.symm
      rcases hready hc with ⟨-, hzero⟩ | ⟨hne, -⟩
      · rw [hkey, hzero]
      · exact absurd hkey.symm hne
    · exact h.once c hc id
  writers w hw hc := by
    rcases mem_writers_take hw with hw | rfl
    · exact (h.writers w hw hc).imp_right fun hpos =>
        hpos.trans_le (p.listed_le_take channel key m file _ _)
    · exact (hready hc).imp And.left fun hlisted =>
        hlisted.2.trans_le (p.listed_le_take channel key m file _ _)
  decoded c hc id hdecoded := by
    rcases mem_decoded_take hdecoded with hdecoded | ⟨rfl, rfl, hpos⟩
    · exact (h.decoded c hc id hdecoded).trans_le (p.listed_le_take channel key m file _ _)
    · rcases hready hc with ⟨hkey, -⟩ | ⟨-, hlisted⟩
      · rwa [← hkey]
      · exact hlisted.trans_le (p.listed_le_take c key m file _ _)

/-! ### A call of the agent comes to its end -/

/-- What has been decoded was decoded before, or it is what a call was under way for. -/
theorem mem_decoded_answer {n : ℕ} {outcome : Option (Received F)} {c : ChatChannel} {id : String} :
    (c, id) ∈ (p.answer n outcome).decoded ↔ (c, id) ∈ p.decoded ∨
      outcome.isSome ∧ ∃ w, p.messageHistory.writers[n]? = some w ∧ c = w.source.channel ∧
        id = w.id := by
  rw [answer, List.mem_append, Option.mem_toList, Option.bind_eq_some_iff]
  refine or_congr_right ⟨?_, ?_⟩
  · rintro ⟨w, hw, h⟩
    obtain ⟨received, rfl, heq⟩ := Option.map_eq_some_iff.1 h
    obtain ⟨rfl, rfl⟩ := Prod.mk.inj heq
    exact ⟨rfl, w, hw, rfl, rfl⟩
  · rintro ⟨hsome, w, hw, rfl, rfl⟩
    obtain ⟨received, rfl⟩ := Option.isSome_iff_exists.1 hsome
    exact ⟨w, hw, rfl⟩

theorem Sound.answer (h : p.Sound) (n : ℕ) (outcome : Option (Received F)) :
    (p.answer n outcome).Sound where
  writers w hw := h.writers w (Board.mem_of_mem_finish hw)
  decoded c hc id hpos := by
    rw [mem_decoded_answer]
    rcases hw : p.messageHistory.writers[n]? with _ | w
    · rw [Page.answer, Board.finish_of_none hw] at hpos
      exact .inl (h.decoded c hc id hpos)
    cases outcome with
    | none => exact .inl (h.decoded c hc id (lt_of_lt_of_eq hpos (Board.listed_finish_none n)))
    | some received =>
      have hlisted := lt_of_lt_of_eq hpos (Board.listed_finish hw _)
      split_ifs at hlisted with heq
      · have howns := h.writers w (List.mem_of_getElem? hw) c hc heq.1.symm
        exact .inr ⟨rfl, w, rfl, howns, heq.2⟩
      · exact .inl (h.decoded c hc id hlisted)

theorem Consistent.answer (h : p.Consistent) (n : ℕ) (outcome : Option (Received F)) :
    (p.answer n outcome).Consistent where
  once c hc id := (Board.weight_finish_le n _).trans (h.once c hc id)
  writers w hw hc := (h.writers w (Board.mem_of_mem_finish hw) hc).imp_right fun hpos =>
    hpos.trans_le (Board.listed_le_finish n _)
  decoded c hc id hdecoded := by
    rcases mem_decoded_answer.1 hdecoded with hdecoded | ⟨hsome, w, hw, rfl, rfl⟩
    · exact (h.decoded c hc id hdecoded).trans_le (Board.listed_le_finish n _)
    -- The writer adds to the list that is shown, or the message is there already.
    rcases h.writers w (List.mem_of_getElem? hw) hc with hkey | hpos
    · obtain ⟨received, rfl⟩ := Option.isSome_iff_exists.1 hsome
      rw [← hkey]
      exact lt_of_lt_of_eq (by rw [if_pos ⟨rfl, rfl⟩]; exact Nat.succ_pos _)
        (Board.listed_finish hw _).symm
    · exact hpos.trans_le (Board.listed_le_finish n _)

theorem Sound.settle (h : p.Sound) (answers : List (ℕ × Option (Received F))) :
    (p.settle answers).Sound := by
  induction answers generalizing p with
  | nil => exact h
  | cons a answers ih => exact ih (h.answer a.1 a.2)

theorem Consistent.settle (h : p.Consistent) (answers : List (ℕ × Option (Received F))) :
    (p.settle answers).Consistent := by
  induction answers generalizing p with
  | nil => exact h
  | cons a answers ih => exact ih (h.answer a.1 a.2)

/-- The writers of the lists finish with the calls. -/
theorem messageHistory_settle (answers : List (ℕ × Option (Received F))) :
    (p.settle answers).messageHistory = p.messageHistory.settle (answers.map fun a =>
      (a.1, a.2.map fun received w => ⟨w.source.senderTag, received⟩)) := by
  induction answers generalizing p with
  | nil => rfl
  | cons a answers ih => exact ih

/-- When all calls succeed, a message is listed as often as its weight says. -/
theorem Sound.weight_le (h : p.Sound) (hsafe : ∀ answers, (p.settle answers).ListedOnce)
    {c : ChatChannel} (hc : c.groupId.isSome) (id : String) :
    p.messageHistory.weight (channelKey c) id ≤ 1 := by
  obtain ⟨ns, hns⟩ := Board.exists_settle p.messageHistory (channelKey c) id
    fun w => ⟨w.source.senderTag, .text []⟩
  have hlisted : (p.settle (ns.map fun n => (n, some (.text [])))).messageHistory.listed
      (channelKey c) id = p.messageHistory.weight (channelKey c) id := by
    rw [messageHistory_settle, List.map_map, ← hns]
    rfl
  rcases Nat.eq_zero_or_pos (p.messageHistory.weight (channelKey c) id) with hzero | hpos
  · rw [hzero]
    exact Nat.zero_le 1
  · have honce := hsafe (ns.map fun n => (n, some (.text []))) c id
      ((h.settle _).decoded c hc id (hlisted ▸ hpos)) hc
    rw [renderMessages, Board.count_map_fst, hlisted] at honce
    exact honce.le

/-! ### A history is received -/

/-- The records of a history are received that are not in its list. -/
theorem merge_eq (msgs : List (ChatRecord F)) :
    p.merge channel key msgs =
      (p.fresh key msgs).foldl (decryptAndAppendHistory channel key) p := by
  rw [merge, fresh, List.foldl_filter]
  refine congrArg (fun f => msgs.foldl f p) ?_
  funext p' m
  by_cases h : m.messageId ∈ (p.messageHistory.lists key).map Prod.fst
  · simp [h]
  · simp [h]

theorem weight_decrypt (m : ChatRecord F) (k id : String) :
    (p.decryptAndAppendHistory channel key m).messageHistory.weight k id =
      p.messageHistory.weight k id + if k = key ∧ id = m.messageId then 1 else 0 := by
  obtain ⟨file, hfile⟩ := exists_fileOfHistory m.envelope
  rw [decryptAndAppendHistory, hfile, weight_take]

/-- Every record of a history adds to the weight of its message. -/
theorem weight_foldl (l : List (ChatRecord F)) (id : String) :
    (l.foldl (decryptAndAppendHistory channel key) p).messageHistory.weight key id =
      p.messageHistory.weight key id + (l.map ChatRecord.messageId).count id := by
  induction l generalizing p with
  | nil => rfl
  | cons m l ih =>
    rw [List.foldl_cons, ih, weight_decrypt, List.map_cons, List.count_cons, Nat.add_right_comm,
      Nat.add_assoc]
    simp only [true_and, beq_iff_eq, eq_comm (a := id)]

theorem listed_foldl_of_ne (l : List (ChatRecord F)) {k : String} (hk : k ≠ key) (id : String) :
    (l.foldl (decryptAndAppendHistory channel key) p).messageHistory.listed k id =
      p.messageHistory.listed k id := by
  induction l generalizing p with
  | nil => rfl
  | cons m l ih => rw [List.foldl_cons, ih, decryptAndAppendHistory, listed_take_of_ne _ _ _ _ _ hk]

/-- A record of a history is decoded, or the agent is called for it. -/
theorem mem_foldl {l : List (ChatRecord F)} {m : ChatRecord F} (hm : m ∈ l) :
    (channel, m.messageId) ∈ (l.foldl (decryptAndAppendHistory channel key) p).decoded ∨
      ∃ w ∈ (l.foldl (decryptAndAppendHistory channel key) p).messageHistory.writers,
        w.key = key ∧ w.id = m.messageId ∧ w.source.channel = channel := by
  induction l using List.reverseRecOn with
  | nil => cases hm
  | append_singleton l m' ih =>
    rw [List.foldl_append, List.foldl_cons, List.foldl_nil, decryptAndAppendHistory]
    obtain ⟨file, hfile⟩ := exists_fileOfHistory m'.envelope
    rw [hfile]
    rcases List.mem_append.1 hm with hm | hm
    · rcases ih hm with h | ⟨w, hw, h⟩
      · exact .inl (decoded_subset_take _ h)
      · exact .inr ⟨w, writers_subset_take _ hw, h⟩
    · obtain rfl := List.mem_singleton.1 hm
      cases file with
      | none => exact .inr ⟨_, List.mem_append_right _ List.mem_cons_self, rfl, rfl, rfl⟩
      | some received => exact .inl (List.mem_append_right _ List.mem_cons_self)

theorem Sound.foldl (h : p.Sound) (howns : Owns channel key) (l : List (ChatRecord F)) :
    (l.foldl (decryptAndAppendHistory channel key) p).Sound := by
  induction l generalizing p with
  | nil => exact h
  | cons m l ih => exact ih (h.take howns m _)

/-- Records of a history can be received that can each be received after the ones before it. -/
theorem Consistent.foldl (h : p.Consistent) (howns : Owns channel key) (l : List (ChatRecord F))
    (hready : ∀ l₁ m l₂, l = l₁ ++ m :: l₂ →
      (l₁.foldl (decryptAndAppendHistory channel key) p).Ready channel key m.messageId) :
    (l.foldl (decryptAndAppendHistory channel key) p).Consistent := by
  induction l using List.reverseRecOn with
  | nil => exact h
  | append_singleton l m ih =>
    have hl := ih fun l₁ m' l₂ heq => hready l₁ m' (l₂ ++ [m]) (by rw [heq]; simp)
    rw [List.foldl_append]
    exact hl.take howns (hready l m [] rfl) _

theorem mem_fresh {msgs : List (ChatRecord F)} {m : ChatRecord F} (hm : m ∈ p.fresh key msgs) :
    p.messageHistory.listed key m.messageId = 0 := by
  have hmem := of_decide_eq_true (List.mem_filter.1 hm).2
  rw [← Board.count_map_fst, List.count_eq_zero]
  exact hmem

/-- The history of a group can be received where no message is on its way into the list, and none
    is there twice. -/
theorem Consistent.merge_group (h : p.Consistent) (howns : Owns channel (channelKey channel))
    {msgs : List (ChatRecord F)}
    (hnodup : ((p.fresh (channelKey channel) msgs).map ChatRecord.messageId).Nodup)
    (hpending : ∀ m ∈ p.fresh (channelKey channel) msgs,
      p.messageHistory.pending (channelKey channel) m.messageId = 0) :
    (p.merge channel (channelKey channel) msgs).Consistent := by
  rw [merge_eq]
  refine h.foldl howns _ fun l₁ m l₂ heq _ => .inl ⟨rfl, ?_⟩
  have hm : m ∈ p.fresh (channelKey channel) msgs := by
    rw [heq]
    exact List.mem_append_right _ List.mem_cons_self
  rw [heq, List.map_append, List.map_cons] at hnodup
  have hcount : (l₁.map ChatRecord.messageId).count m.messageId = 0 :=
    List.count_eq_zero.2 fun hmem =>
      (List.nodup_append.1 hnodup).2.2 _ hmem _ List.mem_cons_self rfl
  rw [weight_foldl, hcount, Board.weight, mem_fresh hm, hpending m hm]

/-- The history of the general channel can be received where all its messages are listed. -/
theorem Consistent.merge_general (h : p.Consistent) {msgs : List (ChatRecord F)}
    (hlisted : ∀ m ∈ p.fresh "general" msgs,
      0 < p.messageHistory.listed (channelKey .general) m.messageId) :
    (p.merge .general "general" msgs).Consistent := by
  rw [merge_eq]
  refine h.foldl owns_general _ fun l₁ m l₂ heq _ => .inr ⟨general_ne_channelKey _, ?_⟩
  rw [listed_foldl_of_ne _ (general_ne_channelKey _).symm]
  refine hlisted m ?_
  rw [heq]
  exact List.mem_append_right _ List.mem_cons_self

end Page

/-! ### An event -/

namespace Page

variable {p : Page F}

/-- A message that is delivered is put into the list of its channel, and decrypted if that is a
    group. -/
theorem exists_onmessage (p : Page F) (channel : ChatChannel) (m : ChatRecord F) :
    ∃ file, p.onmessage channel m = p.take channel (channelKey channel) m file ∧
      (channel.groupId.isSome → file = .ok none) := by
  cases channel with
  | general => exact ⟨_, rfl, fun _ => rfl⟩
  | group id hid => exact ⟨_, rfl, fun _ => rfl⟩
  | dm tag => exact ⟨_, rfl, fun hc => nomatch hc⟩

omit [PyFloat F] in
/-- Fetching makes no difference to the lists. -/
theorem Sound.fetches (h : p.Sound) (l : List ChatChannel) : Sound { p with fetches := l } :=
  ⟨h.writers, h.decoded⟩

omit [PyFloat F] in
theorem Consistent.fetches (h : p.Consistent) (l : List ChatChannel) :
    Consistent { p with fetches := l } :=
  ⟨h.once, h.writers, h.decoded⟩

omit [PyFloat F] in
theorem Sound.merge (h : p.Sound) {channel : ChatChannel} {key : String} (howns : Owns channel key)
    (msgs : List (ChatRecord F)) : (p.merge channel key msgs).Sound := by
  rw [merge_eq]
  exact h.foldl howns _

theorem Sound.step (h : p.Sound) (event : PageEvent F) : (p.step event).Sound := by
  cases event with
  | opened channel =>
    cases channel with
    | general => exact h.fetches _
    | group id hid => exact h.fetches _
    | dm tag => exact h
  | fetched n msgs =>
    rw [Page.step, Page.fetched]
    rcases p.fetches[n]? with _ | channel
    · exact h
    cases msgs with
    | none => exact h.fetches _
    | some msgs =>
      cases channel with
      | general => exact (h.fetches _).merge owns_general msgs
      | group id hid => exact (h.fetches _).merge (owns_channelKey (.group id hid)) msgs
      | dm tag => exact h.fetches _
  | pushed channel m =>
    obtain ⟨file, hfile, -⟩ := p.exists_onmessage channel m
    rw [Page.step, hfile]
    exact h.take (owns_channelKey channel) m file
  | answered n outcome => exact h.answer n outcome

theorem Consistent.step (h : p.Consistent) {event : PageEvent F} (hadmits : p.Admits event) :
    (p.step event).Consistent := by
  cases event with
  | opened channel =>
    cases channel with
    | general => exact h.fetches _
    | group id hid => exact h.fetches _
    | dm tag => exact h
  | fetched n msgs =>
    cases msgs with
    | none =>
      rw [Page.step, Page.fetched]
      rcases p.fetches[n]? with _ | channel
      · exact h
      · exact h.fetches _
    | some msgs =>
      rw [Page.step, Page.fetched]
      rw [Admits] at hadmits
      rcases hn : p.fetches[n]? with _ | (_ | ⟨id, hid⟩ | tag) <;> rw [hn] at hadmits
      · exact h
      · exact (h.fetches _).merge_general hadmits
      · exact (h.fetches _).merge_group (owns_channelKey (.group id hid)) hadmits.1 hadmits.2
      · exact h.fetches _
  | pushed channel m =>
    obtain ⟨file, hfile, -⟩ := p.exists_onmessage channel m
    rw [Page.step, hfile]
    exact h.take (owns_channelKey channel) (fun hc => .inl ⟨rfl, hadmits hc⟩) file
  | answered n outcome => exact h.answer n outcome

omit [PyFloat F] in
/-- A message in the history of the general channel that is not listed can be decoded. -/
theorem listed_of_merge_general {msgs : List (ChatRecord F)}
    (hsafe : ∀ answers, ((p.merge .general "general" msgs).settle answers).ListedOnce)
    {m : ChatRecord F} (hm : m ∈ p.fresh "general" msgs) :
    0 < p.messageHistory.listed (channelKey .general) m.messageId := by
  rw [merge_eq] at hsafe
  have hne : channelKey .general ≠ "general" := (general_ne_channelKey _).symm
  rcases mem_foldl hm with hdecoded | ⟨w, hw, hkey, hid, hchannel⟩
  · have honce := hsafe [] .general m.messageId hdecoded rfl
    rw [settle, List.foldl_nil, renderMessages, Board.count_map_fst, listed_foldl_of_ne _ hne]
      at honce
    exact honce ▸ Nat.one_pos
  · obtain ⟨n, hn⟩ := List.getElem?_of_mem hw
    have honce := hsafe [(n, some (.text []))] .general m.messageId
      (mem_decoded_answer.2 (.inr ⟨rfl, w, hn, hchannel.symm, hid.symm⟩)) rfl
    rw [settle, List.foldl_cons, List.foldl_nil, renderMessages, Board.count_map_fst, answer,
      Option.map_some, Board.listed_finish hn, if_neg fun heq => hne (heq.1.trans hkey),
      Nat.add_zero, listed_foldl_of_ne _ hne] at honce
    exact honce ▸ Nat.one_pos

/-- Where whichever decryptions succeed lists every message once, the event brings none again. -/
theorem Sound.admits (h : p.Sound) {event : PageEvent F}
    (hsafe : ∀ answers, ((p.step event).settle answers).ListedOnce) : p.Admits event := by
  cases event with
  | opened channel => trivial
  | fetched n msgs =>
    cases msgs with
    | none => trivial
    | some msgs =>
      rw [Page.step, Page.fetched] at hsafe
      rw [Admits]
      rcases hn : p.fetches[n]? with _ | (_ | ⟨id, hid⟩ | tag) <;> rw [hn] at hsafe
      · trivial
      · exact fun m hm => listed_of_merge_general hsafe hm
      · have hsound := (h.fetches (p.fetches.eraseIdx n)).merge
          (owns_channelKey (.group id hid)) msgs
        have hle : ∀ i, p.messageHistory.weight ("group:" ++ id) i +
            ((p.fresh ("group:" ++ id) msgs).map ChatRecord.messageId).count i ≤ 1 := by
          intro i
          have hweight := hsound.weight_le hsafe (c := .group id hid) rfl i
          rw [merge_eq] at hweight
          rwa [channelKey, weight_foldl] at hweight
        refine ⟨List.nodup_iff_count_le_one.2 fun i => (Nat.le_add_left _ _).trans (hle i),
          fun m hm => ?_⟩
        have hcount := List.count_pos_iff.2 (List.mem_map_of_mem (f := ChatRecord.messageId) hm)
        have hm' := hle m.messageId
        rw [Board.weight] at hm'
        omega
      · trivial
  | pushed channel m =>
    intro hc
    obtain ⟨file, hfile, hnone⟩ := p.exists_onmessage channel m
    rw [Page.step, hfile] at hsafe
    have hweight := (h.take (owns_channelKey channel) m file).weight_le hsafe hc m.messageId
    rw [hnone hc, weight_take, if_pos ⟨rfl, rfl⟩] at hweight
    exact Nat.le_zero.1 (Nat.le_of_succ_le_succ hweight)
  | answered n outcome => trivial

/-- What has been decoded of the general channel and of groups is listed once, whichever
    decryptions succeed, and after every event, exactly when no event brings a message again. -/
theorem listed_once_iff (events : List (PageEvent F)) :
    System.AllSteps step (fun p event => ∀ answers, ((p.step event).settle answers).ListedOnce) init
        events ↔
      System.AllSteps step Admits init events := by
  refine System.AllSteps.iff (I := fun p => p.Sound ∧ p.Consistent) ?_ ?_
    ⟨sound_init, consistent_init⟩ events
  · rintro p event ⟨hsound, hconsistent⟩
    exact ⟨hsound.admits, fun hadmits answers =>
      ((hconsistent.step hadmits).settle answers).listedOnce⟩
  · rintro p event ⟨hsound, hconsistent⟩ hadmits
    exact ⟨hsound.step event, hconsistent.step hadmits⟩

/-- A text of two bytes. -/
def hiRecord (groupId : String) : ChatRecord (List Char) where
  messageId := "m"
  senderTag := "alice"
  envelope := textEnvelope groupId "m" 1 (List.replicate 12 7) (List.replicate 18 0)

/-- The general channel is opened, and the message of its history is decrypted. -/
def generalOpened : List (PageEvent (List Char)) :=
  [.opened .general, .fetched 0 (some [hiRecord "general"]),
    .answered 0 (some (.text (ascii "hi")))]

/-- A group. -/
def firstGroup : ChatChannel := .group "g" (by decide)

/-- A group is opened again before the message of its history is decrypted. -/
def groupOpenedTwice : List (PageEvent (List Char)) :=
  [.opened firstGroup, .opened firstGroup, .fetched 0 (some [hiRecord "g"]),
    .fetched 0 (some [hiRecord "g"]), .answered 0 (some (.text (ascii "hi"))),
    .answered 0 (some (.text (ascii "hi")))]

/-- Nothing is under way any more, and the message of the general channel is not listed, while the
    one of the group is listed twice. -/
theorem history_not_listed :
    ((generalOpened.foldl step init).fetches = [] ∧
        (generalOpened.foldl step init).messageHistory.writers = [] ∧
        (ChatChannel.general, "m") ∈ (generalOpened.foldl step init).decoded ∧
        ((generalOpened.foldl step init).renderMessages .general).map Prod.fst = []) ∧
      (groupOpenedTwice.foldl step init).fetches = [] ∧
        (groupOpenedTwice.foldl step init).messageHistory.writers = [] ∧
        (firstGroup, "m") ∈ (groupOpenedTwice.foldl step init).decoded ∧
        ((groupOpenedTwice.foldl step init).renderMessages firstGroup).map Prod.fst =
          ["m", "m"] := by
  refine ⟨⟨rfl, rfl, ?_, rfl⟩, rfl, rfl, ?_, rfl⟩
  · exact List.mem_cons_self
  · exact List.mem_cons_self

end Page

end SecNet
