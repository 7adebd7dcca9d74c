import SecNet.Chat.GroupMembers

/-!
# Installations that raise

`install_group_state` raises before it changes anything when the state is not accepted: it is
of another kind, has no envelope for the device or none that opens, or is of an epoch that is
too old. But the state is in memory when the file is written, which can raise too, as for a
group that is not named by a string.

* `hold_eq_self_iff`: when holding a state changes nothing;
* `install_clean_iff`, `create_clean_iff`: when a call that raises changes nothing;
* `failed_install_kept`: a state that could not be written, in memory only.
-/

namespace SecNet

variable {C : Crypto} {F : Type} [PyFloatInt F] {a : CryptoAgent C F}

/-- When the call raises, the agent and its files are as before. -/
def RaisesCleanly {α : Type} (a : CryptoAgent C F) (result : CryptoAgent C F × Except Exn α) :
    Prop :=
  ∀ e, result.2 = .error e → result.1 = a

/-! ## The states in memory -/

/-- Setting a state changes nothing when it is there. -/
theorem holdOther_eq_self_iff (groupId : Json F) (stored : Dict F)
    (states : List (Json F × Dict F)) :
    CryptoAgent.holdOther groupId stored states = states ↔
      (states.find? fun m => m.1.sameKey groupId).map Prod.snd = some stored := by
  induction states with
  | nil =>
    constructor
    · intro h
      cases h
    · intro h
      cases h
  | cons m states ih =>
    rw [CryptoAgent.holdOther, List.find?_cons]
    cases hkey : m.1.sameKey groupId with
    | true =>
      rw [if_pos rfl, Option.map_some, Option.some_inj]
      constructor
      · intro h
        exact (congrArg Prod.snd (List.cons.inj h).1).symm
      · rintro rfl
        rfl
    | false =>
      rw [if_neg Bool.false_ne_true, List.cons_inj_right]
      exact ih

theorem groupStates_hold (a : CryptoAgent C F) (groupId : PyStr) (stored : Dict F) :
    (a.hold (.str groupId) stored).groupStates groupId = some stored :=
  Function.update_self ..

/-- Holding a state changes nothing when the agent holds it already. -/
theorem hold_eq_self_iff {groupId : Json F} {existing : Option (Dict F)}
    (hexisting : a.installed groupId = .ok existing) (stored : Dict F) :
    a.hold groupId stored = a ↔ existing = some stored := by
  have hother (groupId : Json F) :
      ({ a with otherStates := CryptoAgent.holdOther groupId stored a.otherStates } :
        CryptoAgent C F) = a ↔
      (a.otherStates.find? fun m => m.1.sameKey groupId).map Prod.snd = some stored := by
    rw [← holdOther_eq_self_iff]
    constructor
    · intro h
      exact congrArg CryptoAgent.otherStates h
    · intro h
      rw [h]
  cases groupId with
  | str groupId =>
    obtain rfl := Except.ok.inj hexisting
    rw [CryptoAgent.hold]
    constructor
    · intro h
      have hstates := congrFun (congrArg CryptoAgent.groupStates h) groupId
      dsimp only at hstates
      rw [← hstates, Function.update_self]
    · intro h
      rw [← h, Function.update_eq_self]
  | arr | obj => cases hexisting
  | null | bool | int | float =>
    obtain rfl := Except.ok.inj hexisting
    exact hother _

/-! ## The calls -/

/-- The file of a state is written: its group is named by a string, and no error occurs. -/
def FileWritten (state : Dict F) (write : Except Exn Unit) : Prop :=
  write = .ok () ∧ ∃ groupId, stateGroupId state = .str groupId

omit [PyFloatInt F] in
/-- The file of a state is written, or an error is raised. -/
theorem spec_saveGroupState (b : CryptoAgent C F) (state stored : Dict F)
    (write : Except Exn Unit) :
    (FileWritten state write ∧ (b.saveGroupState (stateGroupId state) stored write).2 = .ok ()) ∨
      ¬FileWritten state write ∧
        ∃ e, b.saveGroupState (stateGroupId state) stored write = (b, .error e) := by
  rcases hgroupId : stateGroupId state with _ | _ | _ | _ | groupId | _ | _
  case str =>
    rcases write with e | ⟨⟩
    · refine .inr ⟨fun h => ?_, e, rfl⟩
      cases h.1
    · exact .inl ⟨⟨rfl, groupId, hgroupId⟩, rfl⟩
  all_goals
    refine .inr ⟨fun ⟨_, groupId, h⟩ => ?_, _, rfl⟩
    rw [hgroupId] at h
    cases h

/-- An installation that raises changes nothing, exactly when the state is not accepted, or it
    can be written, or it is there already. -/
theorem install_clean_iff (a : CryptoAgent C F) (state : Dict F) (ownTag : PyStr)
    (write : Except Exn Unit) :
    RaisesCleanly a (a.installGroupState state ownTag write) ↔
      ∀ stored, a.acceptGroupState state ownTag = .ok stored →
        FileWritten state write ∨ a.installed (stateGroupId state) = .ok (some stored) := by
  rw [CryptoAgent.installGroupState]
  rcases haccept : a.acceptGroupState state ownTag with e | stored
  · rw [CryptoAgent.installAccepted]
    refine ⟨fun _ stored h => ?_, fun _ _ _ => rfl⟩
    cases h
  obtain ⟨_, -, h⟩ := bind_eq_ok.1 haccept
  obtain ⟨existing, hexisting, -⟩ := bind_eq_ok.1 h
  have hkept : (∀ stored', (.ok stored : Except Exn (Dict F)) = .ok stored' →
      FileWritten state write ∨ a.installed (stateGroupId state) = .ok (some stored')) ↔
      FileWritten state write ∨ existing = some stored := by
    rw [hexisting]
    constructor
    · intro h
      exact (h stored rfl).imp_right Except.ok.inj
    · intro h stored' heq
      obtain rfl := Except.ok.inj heq
      exact h.imp_right (congrArg Except.ok)
  rw [hkept, CryptoAgent.installAccepted]
  rcases spec_saveGroupState (a.hold (stateGroupId state) stored) state stored write with
    ⟨hwritten, hsave⟩ | ⟨hwritten, e, hsave⟩
  · refine ⟨fun _ => .inl hwritten, fun _ e he => ?_⟩
    rw [hsave] at he
    cases he
  · rw [hsave, or_iff_right hwritten, ← hold_eq_self_iff hexisting]
    exact ⟨fun h => h e rfl, fun h _ _ => h⟩

/-- A creation that raises changes nothing, exactly when no state can be made, or its
    installation is clean. -/
theorem create_clean_iff (a : CryptoAgent C F) (draws : GroupDraws C) (members : List Member)
    (epoch : ℤ) (ownTag groupId : PyStr) (write : Except Exn Unit) :
    RaisesCleanly a (a.createGroupState draws members epoch ownTag groupId write) ↔
      ∀ state, makeGroupState draws members epoch ownTag groupId = .ok state →
        RaisesCleanly a (a.installGroupState state ownTag write) := by
  rw [CryptoAgent.createGroupState]
  rcases makeGroupState draws members epoch ownTag groupId with e | state
  · refine ⟨fun _ state h => ?_, fun _ _ _ => rfl⟩
    cases h
  simp only [Except.ok.injEq, forall_eq']
  rcases a.installGroupState state ownTag write with ⟨b, e | ⟨⟩⟩
  · exact ⟨fun h e' _ => h e rfl, fun h e' _ => h e rfl⟩
  · refine ⟨fun _ e h => ?_, fun _ e h => ?_⟩ <;> cases h

/-- Calls that raise change nothing, neither in memory nor in the files, exactly when the state
    is not accepted, or it can be written, or it is there already. -/
theorem failed_calls_clean_iff (a : CryptoAgent C F) (write : Except Exn Unit) :
    (∀ state ownTag, RaisesCleanly a (a.installGroupState state ownTag write) ↔
      ∀ stored, a.acceptGroupState state ownTag = .ok stored →
        FileWritten state write ∨ a.installed (stateGroupId state) = .ok (some stored)) ∧
    ∀ draws members epoch ownTag groupId,
      RaisesCleanly a (a.createGroupState draws members epoch ownTag groupId write) ↔
        ∀ state stored, makeGroupState draws members epoch ownTag groupId = .ok state →
          a.acceptGroupState state ownTag = .ok stored →
            write = .ok () ∨ a.groupStates groupId = some stored := by
  refine ⟨fun state ownTag => install_clean_iff a state ownTag write,
    fun draws members epoch ownTag groupId => ?_⟩
  rw [create_clean_iff]
  refine forall_congr' fun state => ?_
  rw [install_clean_iff]
  constructor
  · intro h stored hmake haccept
    rcases h hmake stored haccept with hwritten | hheld
    · exact .inl hwritten.1
    · rw [makeGroupState_groupId hmake] at hheld
      exact .inr (Except.ok.inj hheld)
  · intro h hmake stored haccept
    have hgroupId := makeGroupState_groupId hmake
    rcases h stored hmake haccept with hwrite | hheld
    · exact .inl ⟨hwrite, groupId, hgroupId⟩
    · rw [hgroupId]
      exact .inr (congrArg Except.ok hheld)

/-- A state whose file cannot be written: the agent uses it, and the file of the group is the one
    of before. -/
theorem failed_install_kept : ∃ (state : Dict (List Char))
    (b : CryptoAgent plainCrypto (List Char)),
    (twoAgents (.ofString "alice")).installGroupState state (.ofString "alice")
      (.error (.osError "No space left on device")) =
        (b, .error (.osError "No space left on device")) ∧
      (twoAgents (.ofString "alice")).groupStates (.ofString "general") = none ∧
      b.groupKey (.ofString "general") = .ok (List.replicate 32 9, 1) ∧
      b.files = (twoAgents (.ofString "alice")).files := by
  have halice : PyStr.ofString "alice" ∈ twoMembers.map Member.deviceTag := by decide
  obtain ⟨state, -, hopens⟩ := exists_makeGroupState twoDraws plainCrypto_correct (by decide)
    ownKey_twoMembers halice 1 (.ofString "general")
  have hopen := hopens (.ofString "alice") halice
  have haccept := (CryptoAgent.acceptGroupState_eq_ok hopen).2 ⟨rfl, notAhead_twoAgents _ _⟩
  refine ⟨state, (twoAgents (.ofString "alice")).hold (.ofString "general")
    (storedState twoDraws.key state), ?_, rfl, ?_, rfl⟩
  · rw [CryptoAgent.installGroupState, haccept, hopen.groupId]
    rfl
  · exact (CryptoAgent.holds_of_groupStates hopen (groupStates_hold _ _ _)).groupKey
      List.length_replicate

end SecNet
