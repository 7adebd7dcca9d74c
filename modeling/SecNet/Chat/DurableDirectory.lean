import SecNet.Chat.DirectoryCalls
import SecNet.Lib.Transition

/-!
# The directory when publishes raise

Calls of the directory, one after the other, any of whose publishes may raise. A record is put in
memory before it is published: a publish that raises leaves it there.

* `call_eq_of_ok`, `byId_call`, `tag_register`: what a call returns and leaves, whatever its publish
  does;
* `durable_iff`: a call leaves the memory when it raises, and the topic rebuilds the memory and
  the tags, exactly when it does not raise after it has changed a record;
* `returned_tags_durable`: and so along every run.
-/

namespace SecNet

open Directory

variable {C : Crypto}

/-- The directory, its topic, and what the calls have returned. -/
structure DurableDirectory where
  directory : Directory
  log : List DeviceRecord
  history : DirectoryHistory

namespace DurableDirectory

/-- A call, with the outcome of its publish. -/
def next (C : Crypto) (s : DurableDirectory) (a : DirectoryCall × Except Exn Unit) :
    DurableDirectory where
  directory := (s.directory.call C a.2 a.1).1
  log := s.log ++ if a.2.isOk then (a.1.stored C s.directory).toList else []
  history := s.history ++ [(a.1, (s.directory.call C a.2 a.1).2)]

/-- A directory that has been loaded from the topic. -/
def Loaded (s : DurableDirectory) : Prop :=
  FixedTags s.log ∧ replay s.log = .ok s.directory ∧ s.history = []

/-- The tag of a public key, as long as publishes succeed. -/
def IsTagOf (C : Crypto) (d : Directory) (publicKeyBytes : Bytes) (tag : String) : Prop :=
  ∀ encryptionPublicKey draw,
    (d.registerOrGet C publicKeyBytes encryptionPublicKey draw (.ok ())).2 = .ok tag

/-- What is promised of a call: when it raises, it leaves the memory, and after it, a restart
    rebuilds the memory, and the tags that have been returned. -/
structure Durable (C : Crypto) (s : DurableDirectory) (a : DirectoryCall × Except Exn Unit) :
    Prop where
  raises : ∀ e, (s.directory.call C a.2 a.1).2 = .error e → (s.next C a).directory = s.directory
  replay : replay (s.next C a).log = .ok (s.next C a).directory
  tags : ∀ k e g tag, (.register k e g, .ok (some tag)) ∈ (s.next C a).history →
    ∃ d, Directory.replay (s.next C a).log = .ok d ∧ IsTagOf C d k tag

/-- The publish of a call succeeds, if the call has put in memory a record that was not there. -/
def NoneLost (C : Crypto) (s : DurableDirectory) (a : DirectoryCall × Except Exn Unit) : Prop :=
  ∀ record ∈ a.1.stored C s.directory, s.directory.byId record.deviceId ≠ some record → a.2.isOk

instance (s : DurableDirectory) (a : DirectoryCall × Except Exn Unit) :
    Decidable (s.NoneLost C a) :=
  inferInstanceAs (Decidable (∀ record ∈ _, _))

end DurableDirectory

namespace Directory

variable {d : Directory} {c : DirectoryCall} {publish : Except Exn Unit}

/-- A call that returns has published what it has to. -/
theorem call_eq_of_ok (h : (d.call C publish c).2.isOk) :
    d.call C publish c = d.call C (.ok ()) c := by
  rcases hrecord : c.record C d with _ | record
  · rw [call_of_none hrecord, call_of_none hrecord]
  · -- The record has been stored, and then the publish has returned.
    rw [call_of_some hrecord] at h ⊢
    rw [call_of_some hrecord]
    rcases happly : d.apply record with ⟨d', e | _⟩
    · simp only [store, happly]
    · simp only [store, happly] at h ⊢
      rcases publish with e | _
      · cases h
      · rfl

/-- A device that is known keeps its tag. -/
theorem byId_call (hd : d.Indexed) {i : String} {r : DeviceRecord} (hr : d.byId i = some r) :
    ∃ r', (d.call C publish c).1.byId i = some r' ∧ r'.deviceTag = r.deviceTag := by
  rcases spec_call (C := C) hd publish c with
    ⟨-, hcall⟩ | ⟨-, e, hcall⟩ | ⟨record, answer, hrecord, -, -, -, -, hbyId⟩
  · rw [hcall]
    exact ⟨r, hr, rfl⟩
  · rw [hcall]
    exact ⟨r, hr, rfl⟩
  · obtain rfl := hd.inv.id hr
    exact Tagged.stored ⟨r, hr, rfl⟩ hd hrecord hbyId

/-- A registration that returns, returns the tag of its device. -/
theorem tag_register (hd : d.Indexed) {k e : Bytes} {g : String} {o : Option String}
    (h : (d.call C publish (.register k e g)).2 = .ok o) :
    ∃ r, (d.call C publish (.register k e g)).1.byId (deviceId C k) = some r ∧
      o = some r.deviceTag := by
  have hok : (d.call C publish (.register k e g)).2.isOk := by
    rw [h]
    rfl
  rw [call_eq_of_ok hok] at h ⊢
  rcases spec_register (C := C) hd k e g with ⟨x, hcall⟩ | ⟨r, -, -, hbyId, hout⟩
  · rw [hcall] at h
    cases h
  · rw [hout] at h
    refine ⟨r, ?_, (Except.ok.inj h).symm⟩
    rw [hbyId, Function.update_self]

/-- The tag of a device that is known. -/
theorem isTagOf_of_byId (hd : d.Indexed) {k : Bytes} {r : DeviceRecord}
    (hr : d.byId (deviceId C k) = some r) : DurableDirectory.IsTagOf C d k r.deviceTag := by
  intro e g
  -- The tag is that of the device, so that no other record is in the way.
  have hfree : ∀ r', d.byTag (r.withKey e).deviceTag = some r' →
      r'.deviceId = (r.withKey e).deviceId := by
    intro r' hr'
    rw [← Option.some.inj ((hd.byTag_of_byId hr).symm.trans hr')]
    rfl
  rw [registerOrGet, hr]
  dsimp only
  split_ifs
  · have hok : (d.apply (r.withKey e)).2 = .ok () := (spec_apply hd hfree).1
    have happly : d.apply (r.withKey e) = ((d.apply (r.withKey e)).1, .ok ()) :=
      Prod.ext rfl hok
    rw [← DeviceRecord.withKey, store, happly]
    rfl
  · rfl

end Directory

namespace DurableDirectory

variable {s : DurableDirectory} {a : DirectoryCall × Except Exn Unit}

/-- The topic has the last records of the devices, and the devices have the tags that have been
    returned. -/
structure Logged (C : Crypto) (s : DurableDirectory) : Prop where
  indexed : s.directory.Indexed
  log : ∀ r ∈ s.log, s.directory.Tagged r
  latest : ∀ k, latest DeviceRecord.deviceId s.log k = s.directory.byId k
  tags : ∀ {k e g tag}, (.register k e g, .ok (some tag)) ∈ s.history →
    ∃ r, s.directory.byId (deviceId C k) = some r ∧ r.deviceTag = tag

theorem Loaded.logged (h : s.Loaded) : s.Logged C := by
  obtain ⟨hlog, hreplay, hhistory⟩ := h
  obtain ⟨hd, hbyId, htagged⟩ := of_replay hlog hreplay
  refine ⟨hd, htagged, fun k => by rw [hbyId], fun {k e g tag} hmem => ?_⟩
  rw [hhistory] at hmem
  cases hmem

/-- The tags that have been returned, after another call. -/
theorem Logged.tags_next (h : s.Logged C) {k e : Bytes} {g tag : String}
    (hmem : (.register k e g, .ok (some tag)) ∈ (s.next C a).history) :
    ∃ r, (s.next C a).directory.byId (deviceId C k) = some r ∧ r.deviceTag = tag := by
  rcases List.mem_append.1 hmem with hmem | hmem
  · obtain ⟨r, hr, rfl⟩ := h.tags hmem
    exact byId_call h.indexed hr
  · obtain ⟨hcall, hout⟩ := Prod.mk.inj (List.mem_singleton.1 hmem)
    rw [next, ← hcall]
    rw [← hcall] at hout
    obtain ⟨r, hr, htag⟩ := tag_register h.indexed hout.symm
    exact ⟨r, hr, (Option.some.inj htag).symm⟩

/-- A call that loses nothing leaves the memory and the topic, or stores a record in both and
    returns. -/
theorem Logged.next_cases (h : s.Logged C) (hlost : s.NoneLost C a) :
    ((s.next C a).directory = s.directory ∧ (s.next C a).log = s.log) ∨
    ∃ record answer, a.1.record C s.directory = some record ∧
      (s.directory.call C a.2 a.1).2 = .ok answer ∧ (s.next C a).directory.Indexed ∧
      (s.next C a).directory.byId =
        Function.update s.directory.byId record.deviceId (some record) ∧
      (s.next C a).log = s.log ++ [record] := by
  have hlog : a.1.stored C s.directory = none → (s.next C a).log = s.log := by
    intro hnone
    rw [next, hnone, Option.toList_none, ite_self]
    exact List.append_nil _
  rcases spec_call (C := C) h.indexed a.2 a.1 with
    ⟨hnone, hcall⟩ | ⟨hnone, e, hcall⟩ | ⟨record, answer, hrecord, hstored, -, hout, hd', hbyId⟩
  · exact .inl ⟨congrArg Prod.fst hcall, hlog (stored_of_none hnone)⟩
  · exact .inl ⟨congrArg Prod.fst hcall, hlog hnone⟩
  rcases hpublish : a.2 with e | _
  · -- The record was there before.
    have hthere : s.directory.byId record.deviceId = some record := by
      by_contra hne
      have hok := hlost record hstored hne
      rw [hpublish] at hok
      cases hok
    refine .inl ⟨hd'.eq_of_byId h.indexed ?_, ?_⟩
    · rw [hbyId, ← hthere, Function.update_eq_self]
    · rw [next, hpublish]
      exact List.append_nil _
  · refine .inr ⟨record, answer, hrecord, ?_, hd', hbyId, ?_⟩
    · rw [← hpublish, hout, hpublish]
      rfl
    · rw [next, hstored, hpublish]
      rfl

/-- A call that loses nothing keeps the topic and the memory together. -/
theorem Logged.next (h : s.Logged C) (hlost : s.NoneLost C a) : (s.next C a).Logged C := by
  rcases h.next_cases hlost with ⟨hd, hlog⟩ | ⟨record, answer, hrecord, -, hd', hbyId, hlog⟩
  · refine ⟨hd ▸ h.indexed, ?_, ?_, h.tags_next⟩
    · rw [hd, hlog]
      exact h.log
    · rw [hd, hlog]
      exact h.latest
  · refine ⟨hd', fun r hr => ?_, fun k => ?_, h.tags_next⟩
    · rw [hlog, List.mem_append, List.mem_singleton] at hr
      rcases hr with hr | rfl
      · exact (h.log r hr).stored h.indexed hrecord hbyId
      · exact tagged_stored hbyId
    · rw [hlog, latest_concat, hbyId, Function.update_apply]
      exact if_congr eq_comm rfl (h.latest k)

/-- A restart rebuilds the memory. -/
theorem Logged.replay (h : s.Logged C) : replay s.log = .ok s.directory :=
  replay_eq h.indexed (h.indexed.fixedTags h.log) (funext h.latest) .refl

/-- What is promised of a call is kept exactly when it loses nothing. -/
theorem durable_iff (h : s.Logged C) : s.Durable C a ↔ s.NoneLost C a := by
  constructor
  · intro hdurable record hstored hne
    rcases spec_call (C := C) h.indexed a.2 a.1 with
      ⟨hnone, -⟩ | ⟨hnone, -⟩ | ⟨record', answer, -, hstored', -, hout, -, hbyId⟩
    · rw [stored_of_none hnone] at hstored
      cases hstored
    · rw [hnone] at hstored
      cases hstored
    · obtain rfl := Option.some.inj (hstored'.symm.trans hstored)
      rcases hpublish : a.2 with e | _
      · -- The call has raised, and the record is in memory.
        have hraise : (s.directory.call C a.2 a.1).2 = .error e := by
          rw [hout, hpublish]
          rfl
        have hsame := congrArg (Directory.byId · record'.deviceId) (hdurable.raises e hraise)
        refine absurd (hsame.symm.trans ?_) hne
        exact congrFun hbyId _ |>.trans (Function.update_self ..)
      · rfl
  · intro hlost
    have hnext := h.next hlost
    refine ⟨fun e hout => ?_, hnext.replay, fun k e g tag hmem => ?_⟩
    · rcases h.next_cases hlost with ⟨hd, -⟩ | ⟨record, answer, -, hok, -⟩
      · exact hd
      · rw [hok] at hout
        cases hout
    · obtain ⟨r, hr, rfl⟩ := hnext.tags hmem
      exact ⟨_, hnext.replay, isTagOf_of_byId hnext.indexed hr⟩

/-- Calls that raise leave the memory, and a restart rebuilds it with the tags that have been
    returned: along a run, exactly when no publish raises after its call has changed a record. -/
theorem returned_tags_durable (h : s.Loaded) (as : List (DirectoryCall × Except Exn Unit)) :
    System.AllSteps (DurableDirectory.next C) (Durable C) s as ↔
      System.AllSteps (DurableDirectory.next C) (NoneLost C) s as :=
  System.AllSteps.iff (I := Logged C) (fun _ _ => durable_iff) (fun _ _ => Logged.next) h.logged as

/-- An empty directory. -/
def new : DurableDirectory := ⟨empty, [], []⟩

theorem loaded_new : new.Loaded := ⟨nofun, rfl, rfl⟩

/-- What a publish raises when the queue of the producer is full. -/
def queueFull : Except Exn Unit := .error (.runtimeError "Local: Queue full")

/-- A registration, and a second one that has nothing to publish. -/
def registersTwice : List (DirectoryCall × Except Exn Unit) :=
  [(.register [1] [] "a", .ok ()), (.register [1] [] "b", queueFull)]

theorem returned_tags_durable_twice :
    System.AllSteps (DurableDirectory.next plainCrypto) (Durable plainCrypto) new registersTwice :=
  (returned_tags_durable loaded_new registersTwice).2 (by decide)

/-- A registration whose publish raises, and another one. -/
def retriesRegistration : List (DirectoryCall × Except Exn Unit) :=
  [(.register [1] [] "a", queueFull), (.register [1] [] "b", .ok ())]

/-- The second registration returns a tag that is not on the topic: after a restart, the device
    gets another one. -/
theorem retried_registration_loses_tag :
    ¬System.AllSteps (DurableDirectory.next plainCrypto) (Durable plainCrypto) new
      retriesRegistration ∧
    (retriesRegistration.foldl (DurableDirectory.next plainCrypto) new).history.map Prod.snd =
      [.error (.runtimeError "Local: Queue full"), .ok (some "a")] ∧
    ∃ d, Directory.replay
        (retriesRegistration.foldl (DurableDirectory.next plainCrypto) new).log = .ok d ∧
      (d.registerOrGet plainCrypto [1] [] "c" (.ok ())).2 = .ok "c" := by
  refine ⟨fun h => ?_, rfl, empty, rfl, rfl⟩
  -- The first registration has raised, and the device is in memory.
  have hsame := congrArg (Directory.encryptionKey · (deviceId plainCrypto [1])) (h.1.raises _ rfl)
  exact absurd hsame (by decide)

end DurableDirectory

end SecNet
