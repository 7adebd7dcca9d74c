import SecNet.Chat.GroupMembers
import SecNet.Lib.FileMap
import SecNet.Lib.Transition

/-!
# The files of the states

The agent saves the state of a group to a file, whose name is made of the name of the group:
slashes and pairs of dots become underscores, and a surrogate that stands for a byte becomes the
byte. When it starts again, `_load_all_group_states`
reads all files, and takes the group from what it has read, without the default of
`install_group_state`.

* `groupStates_restart`: what is loaded, as a map that is saved to files;
* `persists_call_iff`: when the states are loaded as they were after a call;
* `states_persist_iff`: the calls after each of which they are;
* `rereadState_of_makeGroupState`: states that are created are read back from their files;
* `state_overwritten`: two groups that have one file.
-/

namespace SecNet

variable {C : Crypto} {F : Type} [PyFloat F] [PyFloatInt F]

/-! ## Loading -/

/-- What is read from the file of a state. -/
def rereadState (state : Dict F) : Option (Dict F) :=
  match Json.loads (Json.spaced.write (.obj state)) with
  | some (.obj state) => some state
  | _ => none

namespace CryptoAgent

/-- A file of `_load_all_group_states`, which goes on where it raises. -/
def loadGroupState (a : CryptoAgent C F) (name : Bytes) : CryptoAgent C F :=
  match (a.files name).bind rereadState with
  | none => a
  | some state =>
    let gid := state.get "group_id"
    if gid.truth then
      match a.installed gid with
      | .ok _ => a.hold gid state
      | .error _ => a
    else a

/-- A new agent with the files, which the directory lists by their names. -/
def restart (a : CryptoAgent C F) (names : List Bytes) : CryptoAgent C F :=
  names.foldl loadGroupState { a with groupStates := fun _ => none, otherStates := [] }

/-- A new agent has the states of the groups. -/
def Persists (a : CryptoAgent C F) : Prop :=
  ∀ names, FileMap.Lists a.files names →
    (a.restart names).groupStates = a.groupStates ∧ (a.restart names).otherStates = a.otherStates

/-- The states and the files of the groups. -/
def fileMap (a : CryptoAgent C F) : FileMap PyStr (Dict F) Bytes := ⟨a.groupStates, a.files⟩

end CryptoAgent

/-- The group and the state of a file. -/
def reloadState (state : Dict F) : Option (PyStr × Dict F) :=
  match rereadState state with
  | none => none
  | some state =>
    match state.get "group_id" with
    | .str gid => if gid = [] then none else some (gid, state)
    | _ => none

variable {a : CryptoAgent C F}

/-- Loading a file, as for the map. -/
theorem spec_loadGroupState (a : CryptoAgent C F) (name : Bytes) :
    (a.loadGroupState name).files = a.files ∧
      (a.loadGroupState name).groupStates =
        FileMap.loadFile reloadState a.files a.groupStates name ∧
      (((a.files name).bind reloadState).isSome →
        (a.loadGroupState name).otherStates = a.otherStates) := by
  rw [CryptoAgent.loadGroupState, FileMap.loadFile]
  rcases a.files name with _ | file
  · exact ⟨rfl, rfl, fun _ => rfl⟩
  simp only [Option.bind_some, reloadState]
  rcases rereadState file with _ | state
  · exact ⟨rfl, rfl, fun _ => rfl⟩
  dsimp only
  rcases hgid : Dict.get state "group_id" with _ | b | n | x | gid | vs | ms
  case str =>
    by_cases hnil : gid = []
    · subst hnil
      exact ⟨rfl, rfl, fun _ => rfl⟩
    · have htruth : (Json.str (F := F) gid).truth = true := decide_eq_true hnil
      rw [htruth, if_pos rfl]
      simp only [if_neg hnil]
      exact ⟨rfl, rfl, fun _ => rfl⟩
  all_goals
    split_ifs
    all_goals exact ⟨rfl, rfl, fun h => by cases h⟩

theorem files_restart (a : CryptoAgent C F) (names : List Bytes) :
    (a.restart names).files = a.files := by
  rw [CryptoAgent.restart]
  induction names using List.reverseRecOn with
  | nil => rfl
  | append_singleton names name ih =>
    rw [List.foldl_append, List.foldl_cons, List.foldl_nil]
    exact (spec_loadGroupState _ _).1.trans ih

/-- What is loaded, as the map that is saved to the files. -/
theorem groupStates_restart (a : CryptoAgent C F) (names : List Bytes) :
    (a.restart names).groupStates = FileMap.load reloadState a.files names := by
  induction names using List.reverseRecOn with
  | nil => rfl
  | append_singleton names name ih =>
    have hfiles := files_restart a names
    rw [CryptoAgent.restart] at ih hfiles ⊢
    rw [FileMap.load, List.foldl_append, List.foldl_append, List.foldl_cons, List.foldl_nil,
      List.foldl_cons, List.foldl_nil, (spec_loadGroupState _ _).2.1, hfiles, ih, FileMap.load]

/-- Groups that are named by strings are loaded as such. -/
theorem otherStates_restart {names : List Bytes}
    (h : ∀ name ∈ names, ((a.files name).bind reloadState).isSome) :
    (a.restart names).otherStates = [] := by
  induction names using List.reverseRecOn with
  | nil => rfl
  | append_singleton names name ih =>
    have hfiles := files_restart a names
    rw [CryptoAgent.restart] at ih hfiles ⊢
    rw [List.foldl_append, List.foldl_cons, List.foldl_nil, (spec_loadGroupState _ _).2.2]
    · exact ih fun name hname => h name (List.mem_append_left _ hname)
    · rw [hfiles]
      exact h name (by simp)

/-! ## The calls -/

/-- The calls that install a state. -/
inductive StateCall (C : Crypto) (F : Type)
  | install (state : Dict F) (ownTag : PyStr)
  | create (draws : GroupDraws C) (members : List Member) (epoch : ℤ) (ownTag groupId : PyStr)

/-- The state that is installed. -/
def StateCall.state : StateCall C F → Except Exn (Dict F)
  | .install state _ => .ok state
  | .create draws members epoch ownTag groupId => makeGroupState draws members epoch ownTag groupId

def StateCall.ownTag : StateCall C F → PyStr
  | .install _ ownTag => ownTag
  | .create _ _ _ ownTag _ => ownTag

/-- What the writing of the file of a group returns or raises, where nothing but the name is in the
    way: it can be encoded, and has no null byte. -/
def writeState (groupId : PyStr) : Except Exn Unit :=
  if !groupId.all fun u => u < 0xD800 ∨ 0xDC80 ≤ u ∧ u < 0xDD00 ∨ 0xE000 ≤ u ∧ u < 0x110000 then
    .error .unicodeEncodeError
  else if 0 ∈ groupId then .error (.valueError "embedded null byte")
  else .ok ()

/-- What the writing of the file returns or raises. -/
def StateCall.write : StateCall C F → Except Exn Unit
  | .install state _ =>
    match stateGroupId state with
    | .str groupId => writeState groupId
    | _ => .ok ()
  | .create _ _ _ _ groupId => writeState groupId

namespace CryptoAgent

/-- A call, when the file can be written that has the name. -/
def call (a : CryptoAgent C F) (c : StateCall C F) : CryptoAgent C F × Except Exn Unit :=
  match c with
  | .install state ownTag => a.installGroupState state ownTag c.write
  | .create draws members epoch ownTag groupId =>
    match a.createGroupState draws members epoch ownTag groupId c.write with
    | (a, .ok _) => (a, .ok ())
    | (a, .error e) => (a, .error e)

/-- The agent after a call. -/
def next (a : CryptoAgent C F) (c : StateCall C F) : CryptoAgent C F := (a.call c).1

/-- The call returns. -/
def Succeeds (a : CryptoAgent C F) (c : StateCall C F) : Prop := (a.call c).2 = .ok ()

/-- The state names its group, and not by the empty string; no other group has the file; and what
    is stored is read back from its text. -/
def Nameable (a : CryptoAgent C F) (c : StateCall C F) : Prop :=
  ∀ state groupId stored, c.state = .ok state → stateGroupId state = .str groupId →
    a.acceptGroupState state c.ownTag = .ok stored →
      (state.get "group_id").truth ∧ rereadState stored = some stored ∧
        ∀ groupId', (a.groupStates groupId').isSome →
          statePath groupId' = statePath groupId → groupId' = groupId

end CryptoAgent

omit [PyFloat F] in
/-- A call returns when its state is accepted, and then has installed and saved it. -/
theorem call_of_succeeds {c : StateCall C F} (h : a.Succeeds c) :
    ∃ state groupId stored, c.state = .ok state ∧ stateGroupId state = .str groupId ∧
      a.acceptGroupState state c.ownTag = .ok stored ∧
      (a.next c).fileMap = a.fileMap.set statePath groupId stored ∧
      (a.next c).otherStates = a.otherStates := by
  have hinstall : ∃ state, c.state = .ok state ∧
      a.installGroupState state c.ownTag c.write = (a.next c, .ok ()) := by
    cases c with
    | install state ownTag => exact ⟨state, rfl, Prod.ext rfl h⟩
    | create draws members epoch ownTag groupId =>
      rw [CryptoAgent.Succeeds, CryptoAgent.call, CryptoAgent.createGroupState] at h
      rw [CryptoAgent.next, CryptoAgent.call, CryptoAgent.createGroupState, StateCall.state]
      rcases hmake : makeGroupState draws members epoch ownTag groupId with e | state
      · rw [hmake] at h
        cases h
      · rw [hmake] at h
        refine ⟨state, rfl, ?_⟩
        dsimp only [StateCall.ownTag, StateCall.write] at h ⊢
        rcases hresult : a.installGroupState state ownTag (writeState groupId) with ⟨b, e | ⟨⟩⟩
        · rw [hresult] at h
          cases h
        · rfl
  obtain ⟨state, hstate, hinstall⟩ := hinstall
  obtain ⟨-, groupId, stored, hgroupId, haccept, hnext⟩ :=
    CryptoAgent.installGroupState_eq_ok.1 hinstall
  exact ⟨state, groupId, stored, hstate, hgroupId, haccept, by rw [hnext]; rfl, by rw [hnext]⟩

omit [PyFloatInt F] in
/-- What is stored is loaded for its group, when the state names it. -/
theorem reloadState_eq_iff {key : Bytes} {state : Dict F} {groupId : PyStr}
    (hgroupId : stateGroupId state = .str groupId) :
    reloadState (storedState key state) = some (groupId, storedState key state) ↔
      (state.get "group_id").truth ∧
        rereadState (storedState key state) = some (storedState key state) := by
  have hget : Dict.get (storedState key state) "group_id" = state.get "group_id" := by
    rw [Dict.get, Dict.get, lookup_storedState _ _ (by decide) (by decide)]
  have hgroup : state.get "group_id" = .str groupId ∨ state.get "group_id" = .null := by
    rw [stateGroupId, Dict.getD] at hgroupId
    rcases hlookup : state.lookup (.ofString "group_id") with _ | v
    · exact .inr (by rw [Dict.get, hlookup]; rfl)
    · rw [hlookup] at hgroupId
      exact .inl (by rw [Dict.get, hlookup]; exact hgroupId)
  rw [reloadState]
  constructor
  · intro h
    rcases hreread : rereadState (storedState key state) with _ | state'
    · rw [hreread] at h
      cases h
    rw [hreread] at h
    dsimp only at h
    rcases hgid : Dict.get state' "group_id" with _ | _ | _ | _ | gid | _ | _
    case str =>
      rw [hgid] at h
      dsimp only at h
      split_ifs at h with hnil
      obtain ⟨rfl, rfl⟩ := Prod.mk.inj (Option.some.inj h)
      rw [hget] at hgid
      rw [hgid]
      exact ⟨decide_eq_true hnil, rfl⟩
    all_goals
      rw [hgid] at h
      cases h
  · rintro ⟨htruth, hreread⟩
    rcases hgroup with hgroup | hgroup
    · rw [hgroup] at htruth hget
      rw [hreread]
      simp only [hget]
      rw [if_neg (of_decide_eq_true htruth)]
    · rw [hgroup] at htruth
      cases htruth

/-- A new agent has what is loaded. -/
theorem CryptoAgent.Persists.fileMap (h : a.Persists) : a.fileMap.Persists reloadState := by
  intro names hnames
  exact (groupStates_restart a names).symm.trans (h names hnames).1

/-- After a call that returns, a new agent has the states, exactly when the state names its group,
    whose file no other group has, and is read back from its text. -/
theorem persists_call_iff (hkept : a.fileMap.Kept statePath reloadState)
    (hother : a.otherStates = []) {c : StateCall C F} (h : a.Succeeds c) :
    (a.next c).Persists ↔ a.Nameable c := by
  obtain ⟨state, groupId, stored, hstate, hgroupId, haccept, hnext, hnextOther⟩ :=
    call_of_succeeds h
  obtain ⟨key, -, rfl⟩ := CryptoAgent.exists_of_acceptGroupState haccept
  have hset : FileMap.CanSet statePath reloadState a.fileMap groupId (storedState key state) ↔
      a.Nameable c := by
    rw [FileMap.CanSet, reloadState_eq_iff hgroupId, and_assoc]
    constructor
    · intro hcan state' groupId' stored' hstate' hgroupId' haccept'
      obtain rfl := Except.ok.inj (hstate.symm.trans hstate')
      obtain rfl := Json.str.inj (hgroupId.symm.trans hgroupId')
      obtain rfl := Except.ok.inj (haccept.symm.trans haccept')
      exact hcan
    · intro hname
      exact hname state groupId _ hstate hgroupId haccept
  rw [← hset, ← FileMap.persists_set_iff hkept, ← hnext]
  refine ⟨CryptoAgent.Persists.fileMap, fun hpersists names hnames => ?_⟩
  refine ⟨(groupStates_restart _ names).trans (hpersists names hnames), ?_⟩
  rw [hnextOther, hother]
  -- The files hold the states of groups, for which they are loaded.
  rw [hnext] at hpersists
  have hkept' := hkept.set ((FileMap.persists_set_iff hkept _ _).1 hpersists)
  rw [← hnext] at hkept'
  refine otherStates_restart fun name hname => ?_
  obtain ⟨stored, hstored⟩ := Option.isSome_iff_exists.1 ((hnames name).1 hname)
  obtain ⟨groupId', -, hvalue⟩ := hkept'.value hstored
  rw [hstored, Option.bind_some, (hkept'.file hvalue).2]
  rfl

/-- An agent that has not saved anything. -/
def CryptoAgent.fresh (identity : DeviceIdentity C) : CryptoAgent C F where
  identity := identity
  groupStates _ := none
  otherStates := []
  files _ := none

/-- Calls that return, after each of which a new agent has the states of all groups: exactly those
    whose states name their groups, where no two groups have one file, and the states are read
    back from their texts. -/
theorem states_persist_iff (identity : DeviceIdentity C) (calls : List (StateCall C F)) :
    System.AllSteps CryptoAgent.next (fun a c => a.Succeeds c ∧ (a.next c).Persists)
        (CryptoAgent.fresh identity) calls ↔
      System.AllSteps CryptoAgent.next (fun a c => a.Succeeds c ∧ a.Nameable c)
        (CryptoAgent.fresh identity) calls := by
  refine System.AllSteps.iff
    (I := fun a => a.fileMap.Kept statePath reloadState ∧ a.otherStates = []) ?_ ?_ ?_ calls
  · rintro a c ⟨hkept, hother⟩
    exact and_congr_right fun h => persists_call_iff hkept hother h
  · rintro a c ⟨hkept, hother⟩ ⟨hsucceeds, hname⟩
    obtain ⟨state, groupId, stored, hstate, hgroupId, haccept, hnext, hnextOther⟩ :=
      call_of_succeeds hsucceeds
    obtain ⟨key, -, rfl⟩ := CryptoAgent.exists_of_acceptGroupState haccept
    obtain ⟨htruth, hreread, hclash⟩ := hname state groupId _ hstate hgroupId haccept
    rw [hnext, hnextOther]
    exact ⟨hkept.set ⟨(reloadState_eq_iff hgroupId).2 ⟨htruth, hreread⟩, hclash⟩, hother⟩
  · exact ⟨FileMap.kept_empty, rfl⟩

omit [PyFloat F] [PyFloatInt F] in
/-- What is stored of a state is read back, when all but its envelopes is. -/
theorem canonical_storedState {state : Dict F} (hsorted : (state.map Prod.fst).Pairwise (· < ·))
    (h : ∀ m ∈ state, m.1 ≠ .ofString "envelopes" →
      (∀ u ∈ m.1, Json.IsScalar u) ∧ Json.Canonical m.2) (key : Bytes) :
    (storedState key state).Canonical := by
  have hmem : ∀ m ∈ storedState key state, (∀ u ∈ m.1, Json.IsScalar u) ∧ Json.Canonical m.2 := by
    intro m hm
    rw [storedState, Dict.pop, List.mem_filter, decide_eq_true_eq] at hm
    rcases Json.mem_insert hm.1 with rfl | hstate
    · exact ⟨fun u hu => isScalar_of_mem_map hu, canonical_b64 key⟩
    · exact h m hstate hm.2
  refine .obj ?_ (fun m hm => (hmem m hm).1) fun m hm => (hmem m hm).2
  exact (Json.pairwise_insert hsorted _ _).sublist (List.filter_sublist.map _)

omit [PyFloatInt F] in
/-- A state that is created for a group is read back from its text, where tags and the name of the
    group can be encoded. -/
theorem rereadState_of_makeGroupState {draws : GroupDraws C} {members : List Member} {epoch : ℤ}
    {ownTag groupId : PyStr} {state : Dict F}
    (hmake : makeGroupState draws members epoch ownTag groupId = .ok state)
    (hgroup : ∀ u ∈ groupId, Json.IsScalar u)
    (htags : ∀ member ∈ members, ∀ u ∈ member.deviceTag, Json.IsScalar u)
    (hdigits : (Nat.toDigits 10 epoch.natAbs).length ≤ Json.maxIntDigits) (key : Bytes) :
    rereadState (storedState key state) = some (storedState key state) := by
  obtain ⟨-, envelopes, -, -, rfl⟩ := makeGroupState_eq_ok.1 hmake
  have hcanonical : Dict.Canonical (storedState (F := F) key
      (.ofList [("kind", .ofString "tree-group-state-v1"), ("group_id", .str groupId),
        ("epoch", .int epoch), ("members", .arr (members.map fun m => .str m.deviceTag)),
        ("envelopes", .obj envelopes)])) := by
    refine canonical_storedState (pairwise_ofList _) (fun m hm henvelopes => ?_) key
    obtain ⟨item, hitem, rfl⟩ := mem_ofList hm
    refine ⟨fun u hu => isScalar_of_mem_map hu, ?_⟩
    simp only [List.mem_cons, List.not_mem_nil, or_false] at hitem
    rcases hitem with rfl | rfl | rfl | rfl | rfl
    · exact canonical_ofString _
    · exact .str hgroup
    · exact .int hdigits
    · refine .arr fun v hv => ?_
      obtain ⟨member, hmember, rfl⟩ := List.mem_map.1 hv
      exact .str (htags member hmember)
    · dsimp only at henvelopes
      exact absurd rfl henvelopes
  rw [rereadState, Json.loads_spaced hcanonical]

/-- Two groups, created by the first of two devices. -/
def overwritingCalls : List (StateCall plainCrypto (List Char)) :=
  [.create twoDraws twoMembers 1 (.ofString "alice") (.ofString "a/b"),
    .create twoDraws twoMembers 1 (.ofString "alice") (.ofString "a_b")]

/-- The agent of the first device, with a group it has not installed. -/
theorem spec_createTwo {a : CryptoAgent plainCrypto (List Char)}
    (hidentity : a.identity = (twoAgents (.ofString "alice")).identity) (groupId : PyStr)
    (hwrite : writeState groupId = .ok ()) (hnone : a.groupStates groupId = none) :
    ∃ stored, a.Succeeds (.create twoDraws twoMembers 1 (.ofString "alice") groupId) ∧
      (a.next (.create twoDraws twoMembers 1 (.ofString "alice") groupId)).fileMap =
        a.fileMap.set statePath groupId stored ∧
      (a.next (.create twoDraws twoMembers 1 (.ofString "alice") groupId)).identity =
        a.identity ∧
      ∀ groupId' ≠ groupId,
        (a.next (.create twoDraws twoMembers 1 (.ofString "alice") groupId)).groupStates groupId' =
          a.groupStates groupId' := by
  have halice : PyStr.ofString "alice" ∈ twoMembers.map Member.deviceTag := by decide
  obtain ⟨state, hmake, hopens⟩ := exists_makeGroupState (F := List Char) twoDraws
    plainCrypto_correct (by decide) ownKey_twoMembers halice 1 groupId
  have hopen := hopens (.ofString "alice") halice
  rw [← hidentity] at hopen
  have hinstall := CryptoAgent.installGroupState_of_opens hopen (CryptoAgent.notAhead_of_none hnone)
  have hcall : a.call (.create twoDraws twoMembers 1 (.ofString "alice") groupId) =
      a.installGroupState state (.ofString "alice") (.ok ()) := by
    rw [CryptoAgent.call, CryptoAgent.createGroupState, hmake]
    simp only [StateCall.write, hwrite, hinstall]
  refine ⟨storedState twoDraws.key state, ?_⟩
  rw [CryptoAgent.Succeeds, CryptoAgent.next, hcall, hinstall]
  exact ⟨rfl, rfl, rfl, fun groupId' hne => Function.update_of_ne hne ..⟩

/-- The groups have one file, from which only one of them is loaded. -/
theorem not_persists_of_two {a b c : CryptoAgent C F} (ha : a.files = fun _ => none)
    {stored stored' : Dict F}
    (hb : b.fileMap = a.fileMap.set statePath (.ofString "a/b") stored)
    (hc : c.fileMap = b.fileMap.set statePath (.ofString "a_b") stored') : ¬c.Persists := by
  intro hpersists
  have hsafe : statePath (.ofString "a/b") = statePath (.ofString "a_b") := by decide
  have hfiles : c.files = Function.update (fun _ => none) (statePath (.ofString "a_b"))
      (some stored') := by
    have hupdate := congrArg FileMap.files hc
    rw [hb, FileMap.set, FileMap.set, hsafe, CryptoAgent.fileMap, CryptoAgent.fileMap, ha]
      at hupdate
    dsimp only at hupdate
    rwa [Function.update_idem] at hupdate
  have hvalues : c.groupStates = Function.update (Function.update a.groupStates (.ofString "a/b")
      (some stored)) (.ofString "a_b") (some stored') := by
    have hupdate := congrArg FileMap.values hc
    rwa [hb] at hupdate
  have hlists : FileMap.Lists c.files [statePath (.ofString "a_b")] := by
    intro name
    rw [List.mem_singleton, hfiles]
    by_cases hname : name = statePath (.ofString "a_b")
    · simp [hname]
    · simp [hname]
  have hne : PyStr.ofString "a/b" ≠ .ofString "a_b" := by decide
  refine hne (hpersists.fileMap.eq_of_lists hlists ?_ ?_)
  · rw [CryptoAgent.fileMap, hvalues]
    dsimp only
    rw [Function.update_of_ne (by decide), Function.update_self, Option.isSome_some]
  · rw [CryptoAgent.fileMap, hvalues]
    dsimp only
    rw [Function.update_self, Option.isSome_some]

/-- The state of the second group overwrites the file of the first. -/
theorem state_overwritten :
    System.AllSteps CryptoAgent.next CryptoAgent.Succeeds
        (CryptoAgent.fresh (twoAgents (.ofString "alice")).identity) overwritingCalls ∧
      ¬System.AllSteps CryptoAgent.next (fun a c => a.Succeeds c ∧ (a.next c).Persists)
        (CryptoAgent.fresh (twoAgents (.ofString "alice")).identity) overwritingCalls := by
  obtain ⟨stored, hfirst, hmap, hidentity, hstates⟩ := spec_createTwo
    (a := CryptoAgent.fresh (twoAgents (.ofString "alice")).identity) rfl (.ofString "a/b")
    (by decide) rfl
  obtain ⟨stored', hsecond, hmap', -⟩ := spec_createTwo hidentity (.ofString "a_b") (by decide)
    (hstates (.ofString "a_b") (by decide))
  exact ⟨⟨hfirst, hsecond, trivial⟩, fun h => not_persists_of_two rfl hmap hmap' h.2.1.2⟩

end SecNet
