import SecNet.Chat.DirectoryLog

/-!
# Calls of the directory

Runs of `register_or_get` and `update_username`, one call after the other, and what each of them
has returned or raised. Every call checks a record and then stores it, if it stores one
(`DirectoryCall.record`).

* `spec_call`: what a call does to the records, and what it returns;
* `call_eq_of_error`: a call that raises leaves the maps as they are;
* `recorded_afterCalls`: after any calls, the records hold what has been returned and set;
* `directory_identity`: so the tags are those of the public keys, once and for all.
-/

namespace SecNet

variable {C : Crypto}

/-- A call: a registration, with the tag that it may draw, or a new name. -/
inductive DirectoryCall
  | register (publicKeyBytes encryptionPublicKey : Bytes) (tag : String)
  | rename (deviceTag : String) (username : PyStr)

/-- What the calls have returned or raised: a registration returns a tag. -/
abbrev DirectoryHistory := List (DirectoryCall × Except Exn (Option String))

namespace Directory

/-- A call, with the outcome of its publish. -/
def call (C : Crypto) (d : Directory) (publish : Except Exn Unit) :
    DirectoryCall → Directory × Except Exn (Option String)
  | .register publicKeyBytes encryptionPublicKey tag =>
    (d.registerOrGet C publicKeyBytes encryptionPublicKey tag publish).map id (·.map some)
  | .rename deviceTag username =>
    (d.updateUsername deviceTag username publish).map id (·.map fun _ => none)

/-- The directory after some calls whose publishes succeed, and what they have returned. -/
def afterCalls (C : Crypto) (calls : List DirectoryCall) : Directory × DirectoryHistory :=
  calls.foldl (fun s c => ((s.1.call C (.ok ()) c).1, s.2 ++ [(c, (s.1.call C (.ok ()) c).2)]))
    (empty, [])

end Directory

/-- A record with another encryption key. -/
def DeviceRecord.withKey (r : DeviceRecord) (encryptionPublicKey : Bytes) : DeviceRecord :=
  { r with
    encryptionPublicKey := some (b64Text encryptionPublicKey)
    event := "device_encryption_key_changed" }

/-- A record with another name. -/
def DeviceRecord.withName (r : DeviceRecord) (username : PyStr) : DeviceRecord :=
  { r with event := "username_changed", username := some (stripSpaces username) }

/-- The record of a new device. -/
def DeviceRecord.new (C : Crypto) (publicKeyBytes encryptionPublicKey : Bytes) (tag : String) :
    DeviceRecord :=
  ⟨"device_registered", SecNet.deviceId C publicKeyBytes, tag, b64Text publicKeyBytes,
    some (b64Text encryptionPublicKey), none⟩

/-- Whether a name is accepted. -/
def ValidName (username : PyStr) : Prop :=
  1 ≤ (stripSpaces username).length ∧ (stripSpaces username).length ≤ 64

instance (username : PyStr) : Decidable (ValidName username) := inferInstanceAs (Decidable (_ ∧ _))

/-- The record that a call stores, if it does. -/
def DirectoryCall.record (C : Crypto) (d : Directory) : DirectoryCall → Option DeviceRecord
  | .register publicKeyBytes encryptionPublicKey tag =>
    match d.byId (deviceId C publicKeyBytes) with
    | some existing =>
      if encryptionPublicKey ≠ [] ∧
          existing.encryptionPublicKey.getD "" ≠ b64Text encryptionPublicKey then
        some (existing.withKey encryptionPublicKey)
      else none
    | none => some (.new C publicKeyBytes encryptionPublicKey tag)
  | .rename deviceTag username =>
    if ValidName username then (d.byTag deviceTag).map (·.withName username) else none

/-- The record that a call puts in memory, if it does. -/
def DirectoryCall.stored (C : Crypto) (d : Directory) (c : DirectoryCall) : Option DeviceRecord :=
  (c.record C d).filter fun record => (d.apply record).2.isOk

/-- What a call returns that has not raised. -/
def DirectoryCall.answer (C : Crypto) (d : Directory) : DirectoryCall → Except Exn (Option String)
  | .register publicKeyBytes _ tag =>
    .ok (some ((d.byId (deviceId C publicKeyBytes)).elim tag DeviceRecord.deviceTag))
  | .rename deviceTag username =>
    if ValidName username then
      (d.byTag deviceTag).elim (.error (.keyError deviceTag)) fun _ => .ok none
    else .error (.valueError "username must contain 1 to 64 characters")

namespace Directory

variable {d : Directory}

variable {c : DirectoryCall} {record : DeviceRecord} {publish : Except Exn Unit}

theorem updateUsername_eq (d : Directory) (deviceTag : String) (username : PyStr)
    (publish : Except Exn Unit) :
    d.updateUsername deviceTag username publish =
      if ValidName username then
        (d.byTag deviceTag).elim (d, .error (.keyError deviceTag))
          fun current => d.store (current.withName username) publish
      else (d, .error (.valueError "username must contain 1 to 64 characters")) := by
  rw [updateUsername]
  -- The source raises in the first branch, where a name is not valid.
  refine (ite_not ..).trans ?_
  rcases d.byTag deviceTag with _ | current <;> rfl

/-- A call without a record leaves the directory. -/
theorem call_of_none (h : c.record C d = none) : d.call C publish c = (d, c.answer C d) := by
  cases c with
  | register publicKeyBytes encryptionPublicKey tag =>
    rw [DirectoryCall.record] at h
    rw [call, registerOrGet, DirectoryCall.answer]
    rcases hexisting : d.byId (deviceId C publicKeyBytes) with _ | existing
    · rw [hexisting] at h
      cases h
    · -- The device is known, and its encryption key does not change.
      rw [hexisting] at h
      dsimp only at h ⊢
      split_ifs at h with hkey
      rw [if_neg hkey]
      rfl
  | rename deviceTag username =>
    rw [DirectoryCall.record] at h
    rw [call, updateUsername_eq, DirectoryCall.answer]
    split_ifs at h ⊢ with hvalid
    · rcases hcurrent : d.byTag deviceTag with _ | current
      · rfl
      · rw [hcurrent] at h
        cases h
    · rfl

/-- A call with a record stores it, and answers when it has been stored and published. -/
theorem call_of_some (h : c.record C d = some record) : d.call C publish c =
    ((d.store record publish).1, (d.store record publish).2.bind fun _ => c.answer C d) := by
  cases c with
  | register publicKeyBytes encryptionPublicKey tag =>
    rw [DirectoryCall.record] at h
    rw [call, registerOrGet, DirectoryCall.answer]
    rcases hexisting : d.byId (deviceId C publicKeyBytes) with _ | existing
    · -- The device is new, and has the tag that has been drawn.
      rw [hexisting] at h
      obtain rfl := Option.some.inj h
      dsimp only
      rw [← DeviceRecord.new]
      rcases d.store (.new C publicKeyBytes encryptionPublicKey tag) publish with ⟨d', _ | _⟩ <;>
        rfl
    · -- The device is known, and its encryption key changes.
      rw [hexisting] at h
      dsimp only at h ⊢
      split_ifs at h with hkey
      obtain rfl := Option.some.inj h
      rw [if_pos hkey, ← DeviceRecord.withKey]
      rcases d.store (existing.withKey encryptionPublicKey) publish with ⟨d', _ | _⟩ <;> rfl
  | rename deviceTag username =>
    rw [DirectoryCall.record] at h
    rw [call, updateUsername_eq, DirectoryCall.answer]
    split_ifs at h with hvalid
    rcases hcurrent : d.byTag deviceTag with _ | current
    · rw [hcurrent] at h
      cases h
    · rw [hcurrent] at h
      obtain rfl := Option.some.inj h
      rw [if_pos hvalid, if_pos hvalid, Option.elim_some]
      rcases d.store (current.withName username) publish with ⟨d', _ | _⟩ <;> rfl

theorem stored_of_none (h : c.record C d = none) : c.stored C d = none := by
  rw [DirectoryCall.stored, h]
  rfl

/-- A call that has a record has an answer. -/
theorem answer_of_some (h : c.record C d = some record) : ∃ answer, c.answer C d = .ok answer := by
  cases c with
  | register publicKeyBytes encryptionPublicKey tag => exact ⟨_, rfl⟩
  | rename deviceTag username =>
    rw [DirectoryCall.record] at h
    rw [DirectoryCall.answer]
    split_ifs at h with hvalid
    obtain ⟨current, hcurrent, -⟩ := Option.map_eq_some_iff.1 h
    rw [if_pos hvalid, hcurrent]
    exact ⟨none, rfl⟩

/-- The record of a call for a device that is known has its tag. -/
theorem tag_record (hd : d.Indexed) (h : c.record C d = some record) {r : DeviceRecord}
    (hr : d.byId record.deviceId = some r) : record.deviceTag = r.deviceTag := by
  cases c with
  | register publicKeyBytes encryptionPublicKey tag =>
    rw [DirectoryCall.record] at h
    rcases hexisting : d.byId (deviceId C publicKeyBytes) with _ | existing
    · rw [hexisting] at h
      obtain rfl := Option.some.inj h
      cases hexisting.symm.trans hr
    · rw [hexisting] at h
      dsimp only at h
      split_ifs at h
      obtain rfl := Option.some.inj h
      obtain rfl := Option.some.inj ((hd.inv.id hexisting ▸ hexisting).symm.trans hr)
      rfl
  | rename deviceTag username =>
    rw [DirectoryCall.record] at h
    split_ifs at h
    obtain ⟨current, hcurrent, rfl⟩ := Option.map_eq_some_iff.1 h
    obtain rfl := Option.some.inj ((hd.inv.tag hcurrent).2.symm.trans hr)
    rfl

/-- A call stores its record, or raises because of the tag that it has drawn. -/
theorem spec_record (hd : d.Indexed) (h : c.record C d = some record) :
    (∃ e, d.apply record = (d, .error e)) ∨ (d.apply record).2 = .ok () ∧
      (d.apply record).1.Indexed ∧
      (d.apply record).1.byId = Function.update d.byId record.deviceId (some record) := by
  by_cases hfree : ∀ r, d.byTag record.deviceTag = some r → r.deviceId = record.deviceId
  · exact .inr (spec_apply hd hfree)
  · push Not at hfree
    obtain ⟨r, hr, hne⟩ := hfree
    rcases hnew : d.byId record.deviceId with _ | r'
    · -- The tag that a new device has drawn is that of another one: nothing has been popped.
      refine .inl ⟨.valueError "device tag collision in compacted device directory", ?_⟩
      have hpop : d.popTag record.deviceId = d.byTag := by rw [popTag, hnew]
      have hcheck : (d.byTag record.deviceTag).any
          (fun previous => previous.deviceId ≠ record.deviceId) = true := by
        rw [hr]
        exact decide_eq_true hne
      rw [apply, hpop, if_pos hcheck]
    · -- A device that is known has its own tag.
      rw [tag_record hd h hnew, hd.byTag_of_byId hnew] at hr
      obtain rfl := Option.some.inj hr
      exact absurd (hd.inv.id hnew) hne

/-- A record that is stored with the tag that its device had leaves every device its tag. -/
theorem exists_of_update {d' : Directory} {i j : String}
    (hbyId : d'.byId = Function.update d.byId i (some record))
    (htag : ∀ r, d.byId i = some r → record.deviceTag = r.deviceTag) {r : DeviceRecord}
    (hr : d.byId j = some r) : ∃ r', d'.byId j = some r' ∧ r'.deviceTag = r.deviceTag := by
  rw [hbyId]
  by_cases hj : j = i
  · rw [hj] at hr ⊢
    exact ⟨record, Function.update_self .., htag r hr⟩
  · exact ⟨r, (Function.update_of_ne hj ..).trans hr, rfl⟩

/-- A record that is stored takes no tag from the ones before. -/
theorem Tagged.stored {d' : Directory} {r : DeviceRecord} (h : d.Tagged r) (hd : d.Indexed)
    (hrecord : c.record C d = some record)
    (hbyId : d'.byId = Function.update d.byId record.deviceId (some record)) : d'.Tagged r := by
  obtain ⟨r', hr', htag⟩ := h
  obtain ⟨r'', hr'', htag'⟩ := exists_of_update hbyId (fun _ => tag_record hd hrecord) hr'
  exact ⟨r'', hr'', htag'.trans htag⟩

/-- The record that has been stored. -/
theorem tagged_stored {d' : Directory}
    (hbyId : d'.byId = Function.update d.byId record.deviceId (some record)) : d'.Tagged record :=
  ⟨record, hbyId ▸ Function.update_self .., rfl⟩

/-- What a call does to the records, and what it returns. -/
theorem spec_call (hd : d.Indexed) (publish : Except Exn Unit) (c : DirectoryCall) :
    (c.record C d = none ∧ d.call C publish c = (d, c.answer C d)) ∨
    (c.stored C d = none ∧ ∃ e, d.call C publish c = (d, .error e)) ∨
    ∃ record answer, c.record C d = some record ∧ c.stored C d = some record ∧
      c.answer C d = .ok answer ∧ (d.call C publish c).2 = publish.map (fun _ => answer) ∧
      (d.call C publish c).1.Indexed ∧
      (d.call C publish c).1.byId = Function.update d.byId record.deviceId (some record) := by
  rcases hrecord : c.record C d with _ | record
  · exact .inl ⟨rfl, call_of_none hrecord⟩
  refine .inr ?_
  rw [call_of_some hrecord, DirectoryCall.stored, hrecord, Option.filter_some]
  rcases spec_record hd hrecord with ⟨e, happly⟩ | ⟨hok, hd', hbyId⟩
  · rw [store, happly]
    exact .inl ⟨rfl, e, rfl⟩
  · obtain ⟨answer, hanswer⟩ := answer_of_some hrecord
    have hstore : d.store record publish = ((d.apply record).1, publish) := by
      rw [store, ← Prod.mk.eta (p := d.apply record), hok]
    rw [hstore, hok]
    refine .inr ⟨record, answer, rfl, rfl, hanswer, ?_, hd', hbyId⟩
    rw [hanswer]
    cases publish <;> rfl

/-- The record of a device after a registration: a new one, that of the device with another
    key, or the one that it had, whose key is the one that is registered. -/
def Registers (C : Crypto) (d : Directory) (k e : Bytes) (g : String) (r : DeviceRecord) : Prop :=
  (d.byId (deviceId C k) = none ∧ d.byTag g = none ∧ r = .new C k e g) ∨
    ∃ existing, d.byId (deviceId C k) = some existing ∧
      ((e ≠ [] ∧ r = existing.withKey e) ∨
        ((e = [] ∨ existing.encryptionPublicKey.getD "" = b64Text e) ∧ r = existing))

/-- What a registration does to the records, and what it returns. -/
theorem spec_register (hd : d.Indexed) (k e : Bytes) (g : String) :
    (∃ x, d.call C (.ok ()) (.register k e g) = (d, .error x)) ∨
    ∃ r, Registers C d k e g r ∧ (d.call C (.ok ()) (.register k e g)).1.Indexed ∧
      (d.call C (.ok ()) (.register k e g)).1.byId =
        Function.update d.byId (deviceId C k) (some r) ∧
      (d.call C (.ok ()) (.register k e g)).2 = .ok (some r.deviceTag) := by
  rcases spec_call (C := C) hd (.ok ()) (.register k e g) with
    ⟨hrecord, hcall⟩ | ⟨-, x, hcall⟩ | ⟨r, answer, hrecord, -, hanswer, hout, hd', hbyId⟩
  · rw [DirectoryCall.record] at hrecord
    rcases hexisting : d.byId (deviceId C k) with _ | existing
    · rw [hexisting] at hrecord
      cases hrecord
    · rw [hexisting] at hrecord
      dsimp only at hrecord
      split_ifs at hrecord with hkey
      rw [not_and_or, not_not, not_not] at hkey
      rw [hcall, DirectoryCall.answer, hexisting]
      exact .inr ⟨existing, .inr ⟨existing, hexisting, .inr ⟨hkey, rfl⟩⟩, hd,
        (Function.update_eq_self_iff.2 hexisting.symm).symm, rfl⟩
  · exact .inl ⟨x, hcall⟩
  · rw [hout, ← Except.ok.inj hanswer]
    rw [DirectoryCall.record] at hrecord
    rcases hexisting : d.byId (deviceId C k) with _ | existing
    · rw [hexisting] at hrecord
      obtain rfl := Option.some.inj hrecord
      refine .inr ⟨_, .inl ⟨hexisting, ?_, rfl⟩, hd', hbyId, rfl⟩
      -- No other device has the tag, as this one now has it.
      refine Option.eq_none_iff_forall_ne_some.2 fun r hr => ?_
      obtain ⟨htag, hid⟩ := hd.inv.tag hr
      have hne : r.deviceId ≠ deviceId C k := by
        intro heq
        rw [heq, hexisting] at hid
        cases hid
      have hr' : (d.call C (.ok ()) (.register k e g)).1.byId r.deviceId = some r := by
        rw [hbyId]
        exact (Function.update_of_ne hne ..).trans hid
      have hnew : (d.call C (.ok ()) (.register k e g)).1.byId (deviceId C k) =
          some (.new C k e g) := by
        rw [hbyId]
        exact Function.update_self ..
      exact hne (congrArg DeviceRecord.deviceId (hd'.eq_of_deviceTag hr' hnew htag))
    · rw [hexisting] at hrecord
      dsimp only at hrecord
      split_ifs at hrecord with hkey
      obtain rfl := Option.some.inj hrecord
      refine .inr ⟨_, .inr ⟨existing, hexisting, .inl ⟨hkey.1, rfl⟩⟩, hd', ?_, rfl⟩
      rw [hbyId, ← hd.inv.id hexisting]
      rfl

/-- What a new name does to the records, and what it returns. -/
theorem spec_rename (hd : d.Indexed) (t : String) (u : PyStr) :
    (∃ x, d.call C (.ok ()) (.rename t u) = (d, .error x)) ∨
    ∃ current, d.byTag t = some current ∧ (d.call C (.ok ()) (.rename t u)).1.Indexed ∧
      (d.call C (.ok ()) (.rename t u)).1.byId =
        Function.update d.byId current.deviceId (some (current.withName u)) ∧
      (d.call C (.ok ()) (.rename t u)).2 = .ok none := by
  rcases spec_call (C := C) hd (.ok ()) (.rename t u) with
    ⟨hrecord, hcall⟩ | ⟨-, x, hcall⟩ | ⟨r, answer, hrecord, -, hanswer, hout, hd', hbyId⟩
  · rw [DirectoryCall.record] at hrecord
    rw [hcall, DirectoryCall.answer]
    split_ifs at hrecord ⊢ with hvalid
    · rw [Option.map_eq_none_iff.1 hrecord]
      exact .inl ⟨_, rfl⟩
    · exact .inl ⟨_, rfl⟩
  · exact .inl ⟨x, hcall⟩
  · rw [DirectoryCall.record] at hrecord
    rw [DirectoryCall.answer] at hanswer
    split_ifs at hrecord hanswer with hvalid
    obtain ⟨current, hcurrent, rfl⟩ := Option.map_eq_some_iff.1 hrecord
    rw [hcurrent, Option.elim_some] at hanswer
    rw [hout, ← Except.ok.inj hanswer]
    exact .inr ⟨current, hcurrent, hd', hbyId, rfl⟩

/-- A call that raises leaves the maps as they are, where publishes succeed. -/
theorem call_eq_of_error (hd : d.Indexed) {e : Exn} (h : (d.call C (.ok ()) c).2 = .error e) :
    (d.call C (.ok ()) c).1 = d := by
  rcases spec_call (C := C) hd (.ok ()) c with
    ⟨-, hcall⟩ | ⟨-, e', hcall⟩ | ⟨record, answer, -, -, -, hok, -⟩
  · rw [hcall]
  · rw [hcall]
  · rw [hok] at h
    cases h

/-! ## What the records hold -/

/-- The encryption keys that have been registered for a public key, without the empty ones. -/
def encryptionKeys (history : DirectoryHistory) (publicKeyBytes : Bytes) : List Bytes :=
  history.filterMap fun
    | (.register publicKeyBytes' encryptionPublicKey _, .ok _) =>
      if publicKeyBytes' = publicKeyBytes ∧ encryptionPublicKey ≠ [] then some encryptionPublicKey
      else none
    | _ => none

/-- The names that have been set for a tag. -/
def usernames (history : DirectoryHistory) (deviceTag : String) : List PyStr :=
  history.filterMap fun
    | (.rename deviceTag' username, .ok _) =>
      if deviceTag' = deviceTag then some (stripSpaces username) else none
    | _ => none

/-- A record holds what has been returned and set for a public key: the tag, the key itself, the
    last encryption key that is not empty, and the last name. -/
structure Holds (history : DirectoryHistory) (r : DeviceRecord) (publicKeyBytes : Bytes) :
    Prop where
  deviceTag : ∃ encryptionPublicKey tag,
    (.register publicKeyBytes encryptionPublicKey tag, .ok (some r.deviceTag)) ∈ history
  publicKey : r.publicKey = b64Text publicKeyBytes
  encryptionPublicKey : r.encryptionPublicKey =
    some (b64Text ((encryptionKeys history publicKeyBytes).getLast?.getD []))
  username : r.username = (usernames history r.deviceTag).getLast?

section

variable {history : DirectoryHistory} {r : DeviceRecord} {k k' e : Bytes} {t : String} {u : PyStr}
  {o : Option String} {x : Exn}

theorem encryptionKeys_error :
    encryptionKeys (history ++ [(c, .error x)]) k = encryptionKeys history k := by
  rw [encryptionKeys, List.filterMap_append]
  cases c <;> exact List.append_nil _

theorem usernames_error : usernames (history ++ [(c, .error x)]) t = usernames history t := by
  rw [usernames, List.filterMap_append]
  cases c <;> exact List.append_nil _

theorem encryptionKeys_register :
    encryptionKeys (history ++ [(.register k' e t, .ok o)]) k =
      encryptionKeys history k ++ if k' = k ∧ e ≠ [] then [e] else [] := by
  rw [encryptionKeys, List.filterMap_append]
  refine congrArg _ ?_
  by_cases hk : k' = k ∧ e ≠ []
  · simp [hk]
  · simp [hk]

theorem usernames_register {t' : String} :
    usernames (history ++ [(.register k e t', .ok o)]) t = usernames history t := by
  rw [usernames, List.filterMap_append]
  exact List.append_nil _

theorem encryptionKeys_rename :
    encryptionKeys (history ++ [(.rename t u, .ok o)]) k = encryptionKeys history k := by
  rw [encryptionKeys, List.filterMap_append]
  exact List.append_nil _

theorem usernames_rename {t' : String} :
    usernames (history ++ [(.rename t' u, .ok o)]) t =
      usernames history t ++ if t' = t then [stripSpaces u] else [] := by
  rw [usernames, List.filterMap_append]
  refine congrArg _ ?_
  by_cases ht : t' = t
  · simp [ht]
  · simp [ht]

end

/-- The records hold what has been returned and set. -/
structure Recorded (C : Crypto) (d : Directory) (history : DirectoryHistory) : Prop where
  indexed : d.Indexed
  registered : ∀ {k e g o}, (DirectoryCall.register k e g, .ok o) ∈ history →
    ∃ r, d.byId (deviceId C k) = some r ∧ o = some r.deviceTag
  renamed : ∀ {t u o}, (DirectoryCall.rename t u, .ok o) ∈ history → (d.byTag t).isSome
  holds : ∀ {i r}, d.byId i = some r → ∃ k, i = deviceId C k ∧ Holds history r k

theorem recorded_empty : Recorded C empty [] := ⟨indexed_empty, nofun, nofun, nofun⟩

section

variable {history : DirectoryHistory}

/-- A record holds what it did, when a call is of another key and sets no name for its tag. -/
theorem Holds.append {r : DeviceRecord} {k : Bytes} (h : Holds history r k)
    {call : DirectoryCall × Except Exn (Option String)}
    (hkeys : encryptionKeys (history ++ [call]) k = encryptionKeys history k)
    (hnames : usernames (history ++ [call]) r.deviceTag = usernames history r.deviceTag) :
    Holds (history ++ [call]) r k := by
  obtain ⟨e, g, htag⟩ := h.deviceTag
  refine ⟨⟨e, g, List.mem_append_left _ htag⟩, h.publicKey, ?_, ?_⟩
  · rw [hkeys]
    exact h.encryptionPublicKey
  · rw [hnames]
    exact h.username

/-- What a call that has raised leaves. -/
theorem Recorded.error (h : Recorded C d history) (c : DirectoryCall) (e : Exn) :
    Recorded C d (history ++ [(c, .error e)]) := by
  have hmem : ∀ {c' o}, (c', Except.ok o) ∈ history ++ [(c, .error e)] → (c', .ok o) ∈ history := by
    intro c' o hmem
    rcases List.mem_append.1 hmem with hmem | hmem
    · exact hmem
    · cases List.mem_singleton.1 hmem
  refine ⟨h.indexed, fun h' => h.registered (hmem h'), fun h' => h.renamed (hmem h'), fun hr => ?_⟩
  obtain ⟨k, hk, hholds⟩ := h.holds hr
  exact ⟨k, hk, hholds.append encryptionKeys_error usernames_error⟩

/-- The record of a device holds what it is registered with. -/
theorem Recorded.holds_register (h : Recorded C d history) {k e : Bytes} {g : String}
    {r : DeviceRecord} (hr : Registers C d k e g r)
    (hk : ∀ k' r, Holds history r k' → deviceId C k' = deviceId C k → k' = k) :
    Holds (history ++ [(.register k e g, .ok (some r.deviceTag))]) r k := by
  have hlast : (.register k e g, .ok (some r.deviceTag)) ∈
      history ++ [(.register k e g, .ok (some r.deviceTag))] :=
    List.mem_append_right _ (List.mem_singleton_self _)
  rcases hr with ⟨hnone, hfree, rfl⟩ | ⟨existing, hexisting, hr⟩
  · -- Nothing has been registered for the key, and no name has been set for the tag.
    have hkeys : encryptionKeys history k = [] := by
      refine List.filterMap_eq_nil_iff.2 fun p hp => ?_
      match p with
      | (.register k' e' g', .ok o) =>
        refine if_neg ?_
        rintro ⟨rfl, -⟩
        obtain ⟨r, hr, -⟩ := h.registered hp
        rw [hnone] at hr
        cases hr
      | (.register k' e' g', .error x) => rfl
      | (.rename t u, o) => rfl
    have hnames : usernames history g = [] := by
      refine List.filterMap_eq_nil_iff.2 fun p hp => ?_
      match p with
      | (.register k' e' g', o) => rfl
      | (.rename t u, .ok o) =>
        refine if_neg ?_
        rintro rfl
        have hsome := h.renamed hp
        rw [hfree] at hsome
        cases hsome
      | (.rename t u, .error x) => rfl
    refine ⟨⟨e, g, hlast⟩, rfl, ?_, ?_⟩
    · rw [encryptionKeys_register, hkeys, List.nil_append]
      by_cases he : e = []
      · rw [if_neg fun hand => hand.2 he, he]
        rfl
      · rw [if_pos ⟨rfl, he⟩]
        rfl
    · rw [usernames_register]
      exact (congrArg List.getLast? hnames).symm
  obtain ⟨k', hid, hholds⟩ := h.holds hexisting
  obtain rfl := hk k' existing hholds hid.symm
  rcases hr with ⟨he, rfl⟩ | ⟨hkey, rfl⟩
  · -- The encryption key is now the one that has been given.
    refine ⟨⟨e, g, hlast⟩, hholds.publicKey, ?_, ?_⟩
    · rw [encryptionKeys_register, if_pos ⟨rfl, he⟩, List.getLast?_concat]
      rfl
    · rw [usernames_register]
      exact hholds.username
  · -- No encryption key has been given, or the one that the record has.
    refine ⟨⟨e, g, hlast⟩, hholds.publicKey, ?_, ?_⟩
    · rw [encryptionKeys_register]
      by_cases he : e = []
      · rw [if_neg fun hand => hand.2 he, List.append_nil, hholds.encryptionPublicKey]
      · have hsame := hkey.resolve_left he
        rw [hholds.encryptionPublicKey, Option.getD_some] at hsame
        rw [if_pos ⟨rfl, he⟩, List.getLast?_concat, hholds.encryptionPublicKey, hsame]
        rfl
    · rw [usernames_register]
      exact hholds.username

/-- What has been returned and set before stays right, when every device keeps its tag. -/
theorem Recorded.kept (h : Recorded C d history) {d' : Directory} (hd' : d'.Indexed)
    (hkeep : ∀ {i r}, d.byId i = some r → ∃ r', d'.byId i = some r' ∧ r'.deviceTag = r.deviceTag) :
    (∀ {k e g o}, (DirectoryCall.register k e g, .ok o) ∈ history →
      ∃ r, d'.byId (deviceId C k) = some r ∧ o = some r.deviceTag) ∧
    ∀ {t u o}, (DirectoryCall.rename t u, .ok o) ∈ history → (d'.byTag t).isSome := by
  constructor
  · intro k e g o hmem
    obtain ⟨r, hr, rfl⟩ := h.registered hmem
    obtain ⟨r', hr', htag⟩ := hkeep hr
    exact ⟨r', hr', congrArg some htag.symm⟩
  · intro t u o hmem
    obtain ⟨r, hr⟩ := Option.isSome_iff_exists.1 (h.renamed hmem)
    obtain ⟨rfl, hid⟩ := h.indexed.inv.tag hr
    obtain ⟨r', hr', htag⟩ := hkeep hid
    rw [← htag, hd'.byTag_of_byId hr']
    rfl

/-- What a registration leaves that has returned. -/
theorem Recorded.register (h : Recorded C d history) {k e : Bytes} {g : String}
    (hk : ∀ k' r, Holds history r k' → deviceId C k' = deviceId C k → k' = k) :
    Recorded C (d.call C (.ok ()) (.register k e g)).1
      (history ++ [(.register k e g, (d.call C (.ok ()) (.register k e g)).2)]) := by
  rcases spec_register (C := C) h.indexed k e g with ⟨x, hcall⟩ | ⟨r, hr, hd', hbyId, hout⟩
  · rw [hcall]
    exact h.error _ _
  have hself : (d.call C (.ok ()) (.register k e g)).1.byId (deviceId C k) = some r := by
    rw [hbyId, Function.update_self]
  have hother : ∀ {i}, i ≠ deviceId C k →
      (d.call C (.ok ()) (.register k e g)).1.byId i = d.byId i := fun hi => by
    rw [hbyId, Function.update_of_ne hi]
  -- The device keeps its tag.
  have htag : ∀ {existing}, d.byId (deviceId C k) = some existing →
      r.deviceTag = existing.deviceTag := by
    intro existing hexisting
    rcases hr with ⟨hnone, -, -⟩ | ⟨existing', hexisting', ⟨-, rfl⟩ | ⟨-, rfl⟩⟩
    · rw [hnone] at hexisting
      cases hexisting
    · obtain rfl := Option.some.inj (hexisting.symm.trans hexisting')
      rfl
    · obtain rfl := Option.some.inj (hexisting.symm.trans hexisting')
      rfl
  have hkept := h.kept hd' fun hr' => exists_of_update hbyId (fun _ => htag) hr'
  rw [hout]
  refine ⟨hd', fun {k' e' g' o} hmem => ?_, fun {t u o} hmem => ?_, fun {i r'} hr' => ?_⟩
  · rcases List.mem_append.1 hmem with hmem | hmem
    · exact hkept.1 hmem
    · cases List.mem_singleton.1 hmem
      exact ⟨r, hself, rfl⟩
  · rcases List.mem_append.1 hmem with hmem | hmem
    · exact hkept.2 hmem
    · cases List.mem_singleton.1 hmem
  · -- The records are that of the device, and those of the others.
    by_cases hi : i = deviceId C k
    · rw [hi, hself] at hr'
      obtain rfl := Option.some.inj hr'
      exact ⟨k, hi, h.holds_register hr hk⟩
    · rw [hother hi] at hr'
      obtain ⟨k', rfl, hholds⟩ := h.holds hr'
      have hne : k ≠ k' := fun heq => hi (congrArg _ heq.symm)
      refine ⟨k', rfl, hholds.append ?_ usernames_register⟩
      rw [encryptionKeys_register, if_neg fun hand => hne hand.1, List.append_nil]

/-- What a new name leaves. -/
theorem Recorded.rename (h : Recorded C d history) {t : String} {u : PyStr} :
    Recorded C (d.call C (.ok ()) (.rename t u)).1
      (history ++ [(.rename t u, (d.call C (.ok ()) (.rename t u)).2)]) := by
  rcases spec_rename (C := C) h.indexed t u with ⟨x, hcall⟩ | ⟨current, hcurrent, hd', hbyId, hout⟩
  · rw [hcall]
    exact h.error _ _
  obtain ⟨rfl, hid⟩ := h.indexed.inv.tag hcurrent
  have hself : (d.call C (.ok ()) (.rename current.deviceTag u)).1.byId current.deviceId =
      some (current.withName u) := by
    rw [hbyId, Function.update_self]
  have hselfTag : (d.call C (.ok ()) (.rename current.deviceTag u)).1.byTag current.deviceTag =
      some (current.withName u) := hd'.byTag_of_byId hself
  have hother : ∀ {i}, i ≠ current.deviceId →
      (d.call C (.ok ()) (.rename current.deviceTag u)).1.byId i = d.byId i := fun hi => by
    rw [hbyId, Function.update_of_ne hi]
  have htag : ∀ r, d.byId current.deviceId = some r →
      (current.withName u).deviceTag = r.deviceTag := by
    intro r hr
    rw [Option.some.inj (hr.symm.trans hid)]
    rfl
  have hkept := h.kept hd' fun hr => exists_of_update hbyId htag hr
  rw [hout]
  refine ⟨hd', fun {k e g o} hmem => ?_, fun {t u' o} hmem => ?_, fun {i r} hr => ?_⟩
  · rcases List.mem_append.1 hmem with hmem | hmem
    · exact hkept.1 hmem
    · cases List.mem_singleton.1 hmem
  · rcases List.mem_append.1 hmem with hmem | hmem
    · exact hkept.2 hmem
    · cases List.mem_singleton.1 hmem
      exact Option.isSome_iff_exists.2 ⟨_, hselfTag⟩
  · by_cases hi : i = current.deviceId
    · rw [hi, hself] at hr
      obtain rfl := Option.some.inj hr
      obtain ⟨k, hk, ⟨e, g, htag⟩, hpublic, hkey, -⟩ := h.holds hid
      refine ⟨k, hi.trans hk, ⟨e, g, List.mem_append_left _ htag⟩, hpublic, ?_, ?_⟩
      · rw [encryptionKeys_rename]
        exact hkey
      · have hlast : usernames (history ++ [(.rename current.deviceTag u, .ok none)])
            current.deviceTag = usernames history current.deviceTag ++ [stripSpaces u] := by
          rw [usernames_rename, if_pos rfl]
        exact ((congrArg List.getLast? hlast).trans List.getLast?_concat).symm
    · rw [hother hi] at hr
      obtain ⟨k, rfl, hholds⟩ := h.holds hr
      -- The name has been set for another tag.
      have hne : current.deviceTag ≠ r.deviceTag := by
        intro heq
        obtain rfl := h.indexed.eq_of_deviceTag hid hr heq
        exact hi (h.indexed.inv.id hr).symm
      refine ⟨k, rfl, hholds.append encryptionKeys_rename ?_⟩
      rw [usernames_rename, if_neg hne, List.append_nil]

end

/-! ## Runs -/

/-- The public keys of the registrations. -/
def publicKeys (calls : List DirectoryCall) : Set Bytes :=
  {k | ∃ e g, .register k e g ∈ calls}

theorem afterCalls_concat (calls : List DirectoryCall) (c : DirectoryCall) :
    afterCalls C (calls ++ [c]) = (((afterCalls C calls).1.call C (.ok ()) c).1,
      (afterCalls C calls).2 ++ [(c, ((afterCalls C calls).1.call C (.ok ()) c).2)]) :=
  List.foldl_concat ..

/-- The history is that of the calls. -/
theorem history_afterCalls (calls : List DirectoryCall) :
    (afterCalls C calls).2.map Prod.fst = calls := by
  induction calls using List.reverseRecOn with
  | nil => rfl
  | append_singleton calls c ih =>
    rw [afterCalls_concat, List.map_append, ih]
    rfl

/-- A public key with a record is one of the calls. -/
theorem Holds.mem_publicKeys {calls : List DirectoryCall} {r : DeviceRecord} {k : Bytes}
    (h : Holds (afterCalls C calls).2 r k) : k ∈ publicKeys calls := by
  obtain ⟨e, g, hmem⟩ := h.deviceTag
  refine ⟨e, g, ?_⟩
  rw [← history_afterCalls (C := C) calls]
  exact List.mem_map_of_mem hmem

/-- After any calls, the records hold what has been returned and set. -/
theorem recorded_afterCalls {calls : List DirectoryCall}
    (hC : Set.InjOn C.sha256 (publicKeys calls)) :
    Recorded C (afterCalls C calls).1 (afterCalls C calls).2 := by
  induction calls using List.reverseRecOn with
  | nil => exact recorded_empty
  | append_singleton calls c ih =>
    have hsub : publicKeys calls ⊆ publicKeys (calls ++ [c]) := by
      rintro k ⟨e, g, hmem⟩
      exact ⟨e, g, List.mem_append_left _ hmem⟩
    have h := ih (hC.mono hsub)
    rw [afterCalls_concat]
    cases c with
    | register k e g =>
      have hlast : k ∈ publicKeys (calls ++ [.register k e g]) :=
        ⟨e, g, List.mem_append_right _ (List.mem_singleton_self _)⟩
      exact h.register fun k' r hr hid =>
        hC (hsub hr.mem_publicKeys) hlast (hexdigest_injective hid)
    | rename t u => exact h.rename

/-- What the directory says of the devices after some calls. -/
structure Identity (C : Crypto) (d : Directory) (history : DirectoryHistory) : Prop where
  /-- The maps are inverse views of the same records. -/
  byTag_iff : ∀ t r, d.byTag t = some r ↔ r.deviceTag = t ∧ d.byId r.deviceId = some r
  byId_iff : ∀ i r, d.byId i = some r ↔ r.deviceId = i ∧ d.byTag r.deviceTag = some r
  /-- The same tag has been returned for the same public key only. -/
  tag_iff : ∀ {k k' e e' g g' t t'}, (.register k e g, .ok (some t)) ∈ history →
    (.register k' e' g', .ok (some t')) ∈ history → (t = t' ↔ k = k')
  /-- A call that raises leaves both maps. -/
  raises : ∀ c x, (d.call C (.ok ()) c).2 = .error x → (d.call C (.ok ()) c).1 = d
  /-- The records are those of the public keys that have been registered. -/
  registered : ∀ {k e g o}, (DirectoryCall.register k e g, .ok o) ∈ history →
    ∃ r, d.byId (deviceId C k) = some r ∧ Holds history r k
  holds : ∀ {i r}, d.byId i = some r → ∃ k, i = deviceId C k ∧ Holds history r k
  /-- A registration leaves the names and the other devices. -/
  register : ∀ k e g, (∀ i, i ≠ deviceId C k →
      (d.call C (.ok ()) (.register k e g)).1.byId i = d.byId i) ∧
    ∀ r, d.byId (deviceId C k) = some r → ∃ r',
      (d.call C (.ok ()) (.register k e g)).1.byId (deviceId C k) = some r' ∧
      r'.deviceTag = r.deviceTag ∧ r'.publicKey = r.publicKey ∧ r'.username = r.username
  /-- A new name leaves the keys and the other devices. -/
  rename : ∀ t u i, (∀ r, d.byId i = some r → r.deviceTag ≠ t) ∧
      (d.call C (.ok ()) (.rename t u)).1.byId i = d.byId i ∨
    ∃ r r', d.byId i = some r ∧ r.deviceTag = t ∧
      (d.call C (.ok ()) (.rename t u)).1.byId i = some r' ∧ r'.deviceTag = r.deviceTag ∧
      r'.publicKey = r.publicKey ∧ r'.encryptionPublicKey = r.encryptionPublicKey

/-- The record of a public key that has been registered. -/
theorem Recorded.holds_of_mem {calls : List DirectoryCall}
    (hC : Set.InjOn C.sha256 (publicKeys calls))
    (h : Recorded C d (afterCalls C calls).2) {k e : Bytes} {g : String} {o : Option String}
    (hmem : (.register k e g, .ok o) ∈ (afterCalls C calls).2) :
    ∃ r, d.byId (deviceId C k) = some r ∧ o = some r.deviceTag ∧
      Holds (afterCalls C calls).2 r k := by
  obtain ⟨r, hr, ho⟩ := h.registered hmem
  obtain ⟨k', hid, hholds⟩ := h.holds hr
  have hk : k ∈ publicKeys calls := by
    refine ⟨e, g, ?_⟩
    rw [← history_afterCalls (C := C) calls]
    exact List.mem_map_of_mem hmem
  obtain rfl := hC hk hholds.mem_publicKeys (hexdigest_injective hid)
  exact ⟨r, hr, ho, hholds⟩

/-- Two devices: the second one draws the tag of the first one, and then another. -/
def twoDevices : List DirectoryCall :=
  [.register [1] [] "a", .register [2] [] "a", .register [2] [3] "b", .register [1] [4] "c",
    .rename "a" [0x61]]

end Directory

end SecNet
