import SecNet.Chat.DirectoryCalls
import SecNet.Lib.Transition

/-!
# Concurrent calls of the directory

The calls of several threads. What a call does while it holds the lock is one step, with its
publish where that is made under the lock. The publish of a new device is not: it is another step,
and other calls may come before it (`SharedDirectory.pending`).

* `spec_locked`: what a step under the lock does;
* `latest_publish_iff`: a late publish leaves the topic right when its record is still the one
  in memory, and wrong otherwise;
* `agrees_of_reachable`: so the topic and the memory agree when no late publish is overtaken;
* `topic_rebuilds_directory`: and a restart then rebuilds the directory.
-/

namespace SecNet

open Directory

variable {C : Crypto} {ι : Type} [DecidableEq ι]

/-- The directory, the topic, and the records that are still to be published. -/
structure SharedDirectory (ι : Type) where
  directory : Directory
  log : List DeviceRecord
  pending : ι → Option DeviceRecord

/-- A step of a thread: what a call does under the lock, or a publish that it makes afterwards. -/
inductive SharedStep (ι : Type)
  | locked (i : ι) (c : DirectoryCall)
  | publish (i : ι)

/-- Whether the publish of a call is made when the lock has been released. -/
def DirectoryCall.publishesLate (C : Crypto) (d : Directory) : DirectoryCall → Bool
  | .register publicKeyBytes _ _ => (d.byId (deviceId C publicKeyBytes)).isNone
  | .rename .. => false

namespace SharedDirectory

/-- The steps, where publishes succeed. A thread is in one call at a time. -/
def next (C : Crypto) (s : SharedDirectory ι) : SharedStep ι → Option (SharedDirectory ι)
  | .locked i c =>
    if (s.pending i).isSome then none
    else
      match c.record C s.directory with
      | none => some s
      | some record =>
        match s.directory.apply record with
        | (d, .error _) => some { s with directory := d }
        | (d, .ok ()) =>
          if c.publishesLate C s.directory then
            some { s with
              directory := d
              pending := Function.update s.pending i (some record) }
          else some { s with directory := d, log := s.log ++ [record] }
  | .publish i =>
    (s.pending i).map fun record =>
      { s with log := s.log ++ [record], pending := Function.update s.pending i none }

/-- A directory that has been loaded from the topic, and is not in use yet. -/
def Loaded (s : SharedDirectory ι) : Prop :=
  FixedTags s.log ∧ replay s.log = .ok s.directory ∧ ∀ i, s.pending i = none

/-- The calls of the threads, in any order. -/
def system (C : Crypto) (ι : Type) [DecidableEq ι] : System (SharedDirectory ι) (SharedStep ι) :=
  .ofPartial Loaded (next C)

/-- A late publish is not overtaken: its record is still that of the device. -/
def NotOvertaken (s : SharedDirectory ι) : SharedStep ι → Prop
  | .locked .. => True
  | .publish i => (s.pending i).all fun r => s.directory.byId r.deviceId = some r

instance (s : SharedDirectory ι) : ∀ a, Decidable (s.NotOvertaken a)
  | .locked .. => inferInstanceAs (Decidable True)
  | .publish _ => inferInstanceAs (Decidable (_ = true))

variable {s s' : SharedDirectory ι} {i : ι} {c : DirectoryCall}

/-- A thread is not in a call when it begins one. -/
theorem pending_of_locked (h : s.next C (.locked i c) = some s') : ¬(s.pending i).isSome := by
  intro hpending
  rw [next, if_pos hpending] at h
  cases h

/-- Under the lock, a call does to the directory what it does alone. -/
theorem directory_locked (h : s.next C (.locked i c) = some s') :
    s'.directory = (s.directory.call C (.ok ()) c).1 := by
  rw [next, if_neg (pending_of_locked h)] at h
  rcases hrecord : c.record C s.directory with _ | record
  · rw [hrecord] at h
    rw [call_of_none hrecord, ← Option.some.inj h]
  · rw [call_of_some hrecord, fst_store]
    rcases happly : s.directory.apply record with ⟨d, _ | _⟩
    · simp only [hrecord, happly] at h
      rw [← Option.some.inj h]
    · simp only [hrecord, happly] at h
      split_ifs at h
      · rw [← Option.some.inj h]
      · rw [← Option.some.inj h]

/-- Under the lock, a call leaves everything, or stores a record and either publishes it, or has
    it still to be published. -/
theorem spec_locked (hd : s.directory.Indexed) (h : s.next C (.locked i c) = some s') : s' = s ∨
    ∃ record, c.record C s.directory = some record ∧ s'.directory.Indexed ∧
      s'.directory.byId = Function.update s.directory.byId record.deviceId (some record) ∧
      s.pending i = none ∧
      (s'.pending = Function.update s.pending i (some record) ∧ s'.log = s.log ∨
        s'.pending = s.pending ∧ s'.log = s.log ++ [record]) := by
  have hpending := pending_of_locked h
  rw [next, if_neg hpending] at h
  rw [Option.not_isSome_iff_eq_none] at hpending
  rcases hrecord : c.record C s.directory with _ | record
  · rw [hrecord] at h
    exact .inl (Option.some.inj h).symm
  · rcases spec_record hd hrecord with ⟨e, happly⟩ | ⟨hok, hd', hbyId⟩
    · simp only [hrecord, happly] at h
      exact .inl (Option.some.inj h).symm
    · have happly : s.directory.apply record = ((s.directory.apply record).1, .ok ()) :=
        Prod.ext rfl hok
      rw [hrecord] at h
      dsimp only at h
      rw [happly] at h
      dsimp only at h
      split_ifs at h
      · obtain rfl := Option.some.inj h
        exact .inr ⟨record, rfl, hd', hbyId, hpending, .inl ⟨rfl, rfl⟩⟩
      · obtain rfl := Option.some.inj h
        exact .inr ⟨record, rfl, hd', hbyId, hpending, .inr ⟨rfl, rfl⟩⟩

/-- A late publish. -/
theorem spec_publish (h : s.next C (.publish i) = some s') : ∃ record,
    s.pending i = some record ∧ s'.directory = s.directory ∧ s'.log = s.log ++ [record] ∧
      s'.pending = Function.update s.pending i none := by
  obtain ⟨record, hrecord, rfl⟩ := Option.map_eq_some_iff.1 h
  exact ⟨record, hrecord, rfl, rfl, rfl⟩

/-- A late publish leaves the topic right for its device exactly when it is not overtaken. -/
theorem latest_publish_iff (h : s.next C (.publish i) = some s') {r : DeviceRecord}
    (hr : s.pending i = some r) :
    latest DeviceRecord.deviceId s'.log r.deviceId = s'.directory.byId r.deviceId ↔
      s.NotOvertaken (.publish i) := by
  obtain ⟨record, hrecord, hdirectory, hlog, -⟩ := spec_publish h
  obtain rfl := Option.some.inj (hrecord.symm.trans hr)
  rw [hdirectory, hlog, latest_concat, if_pos rfl, NotOvertaken, hr, Option.all_some,
    decide_eq_true_iff]
  exact eq_comm

/-! ## The topic and the memory -/

/-- The topic has the tags of the directory, and the last records of the devices for which
    nothing is still to be published. -/
structure Agrees (s : SharedDirectory ι) : Prop where
  indexed : s.directory.Indexed
  log : ∀ r ∈ s.log, s.directory.Tagged r
  pending : ∀ {i r}, s.pending i = some r → s.directory.Tagged r
  latest : ∀ {k}, (∀ i r, s.pending i = some r → r.deviceId ≠ k) →
    latest DeviceRecord.deviceId s.log k = s.directory.byId k

omit [DecidableEq ι] in
theorem Loaded.agrees (h : s.Loaded) : s.Agrees := by
  obtain ⟨hlog, hreplay, hpending⟩ := h
  obtain ⟨hd, hbyId, htagged⟩ := of_replay hlog hreplay
  refine ⟨hd, htagged, fun {i r} hr => ?_, fun _ => (congrFun hbyId _).symm⟩
  rw [hpending i] at hr
  cases hr

/-- A step under the lock. -/
theorem Agrees.locked (h : s.Agrees) (hs : s.next C (.locked i c) = some s') : s'.Agrees := by
  rcases spec_locked h.indexed hs with rfl | ⟨record, hrecord, hd', hbyId, hnone, hpublished⟩
  · exact h
  have htagged : ∀ {r}, s.directory.Tagged r → s'.directory.Tagged r :=
    fun hr => hr.stored h.indexed hrecord hbyId
  have hself := tagged_stored hbyId
  rcases hpublished with ⟨hpending, hlog⟩ | ⟨hpending, hlog⟩
  · -- The record is still to be published.
    refine ⟨hd', fun r hr => htagged (h.log r (hlog ▸ hr)), fun {j r} hr => ?_, fun {k} hk => ?_⟩
    · rw [hpending] at hr
      by_cases hj : j = i
      · rw [hj, Function.update_self] at hr
        exact Option.some.inj hr ▸ hself
      · rw [Function.update_of_ne hj] at hr
        exact htagged (h.pending hr)
    · have hne : record.deviceId ≠ k := hk i record (by rw [hpending, Function.update_self])
      rw [hlog, hbyId, Function.update_of_ne hne.symm]
      refine h.latest fun j r hr => hk j r ?_
      have hj : j ≠ i := by
        rintro rfl
        rw [hnone] at hr
        cases hr
      rw [hpending, Function.update_of_ne hj, hr]
  · -- The record has been published.
    refine ⟨hd', fun r hr => ?_, fun {j r} hr => htagged (h.pending (hpending ▸ hr)),
      fun {k} hk => ?_⟩
    · rw [hlog, List.mem_append, List.mem_singleton] at hr
      rcases hr with hr | rfl
      · exact htagged (h.log r hr)
      · exact hself
    · rw [hlog, latest_concat, hbyId, Function.update_apply]
      rw [hpending] at hk
      exact if_congr eq_comm rfl (h.latest hk)

/-- A late publish that is not overtaken. -/
theorem Agrees.publish (h : s.Agrees) (hs : s.next C (.publish i) = some s')
    (hi : s.NotOvertaken (.publish i)) : s'.Agrees := by
  have hright := fun r hr => (latest_publish_iff hs (r := r) hr).2 hi
  obtain ⟨record, hrecord, hdirectory, hlog, hpending⟩ := spec_publish hs
  refine ⟨hdirectory ▸ h.indexed, fun r hr => ?_, fun {j r} hr => ?_, fun {k} hk => ?_⟩
  · rw [hdirectory]
    rw [hlog, List.mem_append, List.mem_singleton] at hr
    rcases hr with hr | rfl
    · exact h.log r hr
    · exact h.pending hrecord
  · rw [hdirectory]
    rw [hpending] at hr
    by_cases hj : j = i
    · rw [hj, Function.update_self] at hr
      cases hr
    · rw [Function.update_of_ne hj] at hr
      exact h.pending hr
  · by_cases hkey : record.deviceId = k
    · exact hkey ▸ hright record hrecord
    · rw [hlog, latest_concat, if_neg hkey, hdirectory]
      refine h.latest fun j r hr => ?_
      by_cases hj : j = i
      · rw [hj, hrecord] at hr
        exact Option.some.inj hr ▸ hkey
      · exact hk j r (by rw [hpending, Function.update_of_ne hj, hr])

theorem agrees_of_reachable (h : ((system C ι).restrict NotOvertaken).Reachable s) : s.Agrees := by
  refine h.invariant (fun _ => Loaded.agrees) fun s a s' hs hstep => ?_
  obtain ⟨hstep, hi⟩ := hstep
  cases a with
  | locked i c => exact hs.locked hstep
  | publish i => exact hs.publish hstep hi

/-- No call is in progress. -/
def Quiet (s : SharedDirectory ι) : Prop := ∀ i, s.pending i = none

/-- Whenever no call is in progress, the last records of the topic are those in memory, and a
    restart rebuilds the directory: in the runs where no late publish is overtaken. -/
theorem topic_rebuilds_directory (h : ((system C ι).restrict NotOvertaken).Reachable s)
    (hquiet : s.Quiet) :
    (∀ k, latest DeviceRecord.deviceId s.log k = s.directory.byId k) ∧
      ∀ records, Rearrangement DeviceRecord.deviceId s.log records →
        replay records = .ok s.directory := by
  have hs := agrees_of_reachable h
  have hlatest : ∀ k, latest DeviceRecord.deviceId s.log k = s.directory.byId k := by
    refine fun k => hs.latest fun i r hr => ?_
    rw [hquiet i] at hr
    cases hr
  exact ⟨hlatest, fun records =>
    replay_eq hs.indexed (hs.indexed.fixedTags hs.log) (funext hlatest)⟩

/-- Two devices register at the same time, and then one of them is given a name. -/
def twoRegistrations : List (SharedStep Bool) :=
  [.locked false (.register [1] [] "a"), .locked true (.register [2] [] "b"), .publish true,
    .publish false, .locked true (.rename "a" [0x61])]

/-- An empty directory. -/
def new : SharedDirectory Bool := ⟨empty, [], fun _ => none⟩

theorem loaded_new : new.Loaded := ⟨nofun, rfl, fun _ => rfl⟩

/-- What it leads to. -/
def afterTwoRegistrations : SharedDirectory Bool :=
  (twoRegistrations.foldlM (System.guarded (next plainCrypto) NotOvertaken) new).get (by decide)

theorem topic_rebuilds_directory_two : afterTwoRegistrations.Quiet ∧
    replay afterTwoRegistrations.log = .ok afterTwoRegistrations.directory := by
  have hrun : ((system plainCrypto Bool).restrict NotOvertaken).Reachable afterTwoRegistrations :=
    ⟨_, twoRegistrations, loaded_new, .ofPartial_foldlM (Option.some_get _).symm⟩
  have hquiet : afterTwoRegistrations.Quiet := by
    unfold Quiet
    decide
  exact ⟨hquiet, (topic_rebuilds_directory hrun hquiet).2 _ .refl⟩

/-- A device registers, and connects again, with another encryption key, before its registration
    has been published. -/
def overtakenRegistration : List (SharedStep Bool) :=
  [.locked false (.register [1] [] "a"), .locked true (.register [1] [2] "b"), .publish false]

/-- What it leads to. -/
def afterOvertakenRegistration : SharedDirectory Bool :=
  (overtakenRegistration.foldlM (next plainCrypto) new).get (by decide)

/-- There, no call is in progress, and the encryption key is lost. -/
theorem overtaken_registration_loses_key :
    (system plainCrypto Bool).Reachable afterOvertakenRegistration ∧
    afterOvertakenRegistration.Quiet ∧
    (afterOvertakenRegistration.directory.byId (deviceId plainCrypto [1])).map
      DeviceRecord.encryptionPublicKey = some (some (b64Text [2])) ∧
    (latest DeviceRecord.deviceId afterOvertakenRegistration.log (deviceId plainCrypto [1])).map
      DeviceRecord.encryptionPublicKey = some (some "") ∧
    replay afterOvertakenRegistration.log ≠ .ok afterOvertakenRegistration.directory := by
  refine ⟨⟨_, overtakenRegistration, loaded_new, .of_foldlM (Option.some_get _).symm⟩, ?_,
    by decide, by decide, fun hreplay => ?_⟩
  · unfold Quiet
    decide
  · -- The directory after a restart has another encryption key.
    have hkey := congrArg (fun result : Except Exn Directory => result.toOption.map
      (·.encryptionKey (deviceId plainCrypto [1]))) hreplay
    exact absurd hkey (by decide)

end SharedDirectory

end SecNet
