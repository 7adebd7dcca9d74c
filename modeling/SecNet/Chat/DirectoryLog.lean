import SecNet.Chat.Directory
import SecNet.Lib.KeyedLog

/-!
# The log of the directory

The topic of the directory is a log of records with the identifiers of the devices as keys, and
is compacted. What a snapshot makes of it depends on the last record of each device only, as long
as a device keeps its tag and no two devices have the same one.

* `Indexed`: the two maps are views of the same records;
* `spec_apply`: a record whose tag is free, or that of its device, is applied;
* `spec_replay`: the records of a snapshot are the last ones of the devices;
* `replay_of_rearrangement`: so neither compaction nor the order of the partitions matters;
* `Tagged`: the tags of a log are fixed when they are those of its directory.
-/

namespace SecNet

namespace Directory

/-- The two maps are views of the same records. -/
structure Indexed (d : Directory) : Prop where
  inv : d.Inv
  byTag_of_byId : ∀ {i r}, d.byId i = some r → d.byTag r.deviceTag = some r

/-- In a log, a device keeps one tag, and different devices have different ones. -/
def FixedTags (records : List DeviceRecord) : Prop :=
  ∀ r ∈ records, ∀ r' ∈ records, r.deviceId = r'.deviceId ↔ r.deviceTag = r'.deviceTag

variable {d d' : Directory}

theorem indexed_empty : empty.Indexed := ⟨inv_empty, nofun⟩

/-- What is found under a tag is told by what is found under the identifiers. -/
theorem Indexed.byTag_eq_some (hd : d.Indexed) {t : String} {r : DeviceRecord} :
    d.byTag t = some r ↔ r.deviceTag = t ∧ d.byId r.deviceId = some r := by
  constructor
  · exact hd.inv.tag
  · rintro ⟨rfl, hr⟩
    exact hd.byTag_of_byId hr

/-- No two records have the same tag. -/
theorem Indexed.eq_of_deviceTag (hd : d.Indexed) {i j : String} {r r' : DeviceRecord}
    (hr : d.byId i = some r) (hr' : d.byId j = some r') (h : r.deviceTag = r'.deviceTag) :
    r = r' := by
  have htag := hd.byTag_of_byId hr
  rw [h, hd.byTag_of_byId hr'] at htag
  exact (Option.some.inj htag).symm

theorem Indexed.eq_of_byId (hd : d.Indexed) (hd' : d'.Indexed) (h : d.byId = d'.byId) :
    d = d' := by
  refine Directory.ext h ?_
  funext t
  refine Option.ext fun r => ?_
  rw [hd.byTag_eq_some, hd'.byTag_eq_some, h]

/-- The record of another device is not popped. -/
theorem Indexed.popTag_of_ne (hd : d.Indexed) {i : String} {r : DeviceRecord}
    (hr : d.byId r.deviceId = some r) (hi : r.deviceId ≠ i) : d.popTag i r.deviceTag = some r := by
  have htag := hd.byTag_of_byId hr
  rcases hprevious : d.byId i with _ | previous
  · simp only [popTag, hprevious]
    exact htag
  · have hne : r.deviceTag ≠ previous.deviceTag := by
      intro heq
      obtain rfl := hd.eq_of_deviceTag hr hprevious heq
      exact hi (hd.inv.id hprevious)
    simp only [popTag, hprevious]
    rw [Function.update_of_ne hne, htag]

/-- A record whose tag is free, or that of its device, is applied. -/
theorem spec_apply (hd : d.Indexed) {record : DeviceRecord}
    (hfree : ∀ r, d.byTag record.deviceTag = some r → r.deviceId = record.deviceId) :
    (d.apply record).2 = .ok () ∧ (d.apply record).1.Indexed ∧
      (d.apply record).1.byId = Function.update d.byId record.deviceId (some record) := by
  have hcheck : (d.popTag record.deviceId record.deviceTag).any
      (fun previous => previous.deviceId ≠ record.deviceId) = false := by
    rcases hpop : d.popTag record.deviceId record.deviceTag with _ | previous
    · rfl
    · exact absurd (hfree previous (hd.inv.of_popTag hpop).1) (hd.inv.of_popTag hpop).2
  have hinv := inv_apply hd.inv record
  rw [apply, if_neg (Bool.eq_false_iff.1 hcheck)] at hinv ⊢
  refine ⟨rfl, ⟨hinv, fun {i r} hr => ?_⟩, rfl⟩
  dsimp only at hr ⊢
  by_cases hi : i = record.deviceId
  · rw [hi, Function.update_self] at hr
    obtain rfl := Option.some.inj hr
    exact Function.update_self ..
  · rw [Function.update_of_ne hi] at hr
    obtain rfl := hd.inv.id hr
    -- The record of another device has another tag, and has not been popped.
    have hne : r.deviceTag ≠ record.deviceTag := by
      intro heq
      have htag := hd.byTag_of_byId hr
      rw [heq] at htag
      exact hi (hfree r htag)
    rw [Function.update_of_ne hne, hd.popTag_of_ne hr hi]

/-- The records of a snapshot are the last ones of the devices. -/
theorem spec_replay {records : List DeviceRecord} (h : FixedTags records) :
    ∃ d, replay records = .ok d ∧ d.Indexed ∧ d.byId = latest DeviceRecord.deviceId records := by
  induction records using List.reverseRecOn with
  | nil => exact ⟨empty, rfl, indexed_empty, rfl⟩
  | append_singleton records record ih =>
    have hmem : ∀ r ∈ records, r ∈ records ++ [record] := fun r hr => List.mem_append_left _ hr
    have hlast := List.mem_append_right records (List.mem_singleton_self record)
    obtain ⟨d, hreplay, hd, hbyId⟩ := ih fun r hr r' hr' => h r (hmem r hr) r' (hmem r' hr')
    have hfree : ∀ r, d.byTag record.deviceTag = some r → r.deviceId = record.deviceId := by
      intro r hr
      obtain ⟨htag, hr⟩ := hd.byTag_eq_some.1 hr
      rw [hbyId] at hr
      exact (h r (hmem r (mem_of_latest hr).1) record hlast).2 htag
    obtain ⟨hok, hd', hbyId'⟩ := spec_apply hd hfree
    refine ⟨(d.apply record).1, ?_, hd', ?_⟩
    · rw [replay, List.foldlM_append]
      have hstep := congrArg (Except.map fun _ => (d.apply record).1) hok
      exact bind_eq_ok.2 ⟨d, hreplay, bind_eq_ok.2 ⟨_, hstep, rfl⟩⟩
    · rw [hbyId', hbyId]
      funext i
      rw [latest_concat, Function.update_apply]
      exact if_congr eq_comm rfl rfl

/-- A snapshot of a log rebuilds the directory whose records are the last ones of the log. -/
theorem replay_eq (hd : d.Indexed) {log records : List DeviceRecord} (hlog : FixedTags log)
    (hlatest : latest DeviceRecord.deviceId log = d.byId)
    (h : Rearrangement DeviceRecord.deviceId log records) : replay records = .ok d := by
  obtain ⟨d', hreplay, hd', hbyId⟩ :=
    spec_replay fun r hr r' hr' => hlog r (h.subset hr) r' (h.subset hr')
  rw [hreplay, hd'.eq_of_byId hd]
  rw [hbyId, h.latest_eq, hlatest]

/-- Neither compaction nor the order of the partitions matters: a snapshot of a rearrangement
    never raises, and ends with the same maps. -/
theorem replay_of_rearrangement {log records : List DeviceRecord} (hlog : FixedTags log)
    (h : Rearrangement DeviceRecord.deviceId log records) :
    ∃ d, replay log = .ok d ∧ replay records = .ok d := by
  obtain ⟨d, hreplay, hd, hbyId⟩ := spec_replay hlog
  exact ⟨d, hreplay, replay_eq hd hlog hbyId.symm h⟩

/-! ## The log of a directory -/

/-- A record has the tag that its device has. -/
def Tagged (d : Directory) (r : DeviceRecord) : Prop :=
  ∃ r', d.byId r.deviceId = some r' ∧ r'.deviceTag = r.deviceTag

/-- A log fixes the tags when they are those that the devices have. -/
theorem Indexed.fixedTags (hd : d.Indexed) {log : List DeviceRecord} (h : ∀ r ∈ log, d.Tagged r) :
    FixedTags log := by
  intro r hr r' hr'
  obtain ⟨a, ha, htag⟩ := h r hr
  obtain ⟨a', ha', htag'⟩ := h r' hr'
  rw [← htag, ← htag']
  constructor
  · intro hid
    rw [hid, ha'] at ha
    exact congrArg _ (Option.some.inj ha).symm
  · intro heq
    obtain rfl := hd.eq_of_deviceTag ha ha' heq
    exact (hd.inv.id ha).symm.trans (hd.inv.id ha')

/-- The directory of a log that fixes the tags. -/
theorem of_replay {log : List DeviceRecord} (hlog : FixedTags log) (h : replay log = .ok d) :
    d.Indexed ∧ d.byId = latest DeviceRecord.deviceId log ∧ ∀ r ∈ log, d.Tagged r := by
  obtain ⟨d', hreplay, hd, hbyId⟩ := spec_replay hlog
  obtain rfl := Except.ok.inj (h.symm.trans hreplay)
  refine ⟨hd, hbyId, fun r hr => ?_⟩
  -- The device has a last record, whose tag is that of all its records.
  have hne : latest DeviceRecord.deviceId log r.deviceId ≠ none :=
    fun hnone => latest_eq_none.1 hnone r hr rfl
  obtain ⟨r', hr'⟩ := Option.ne_none_iff_exists'.1 hne
  obtain ⟨hmem, hid⟩ := mem_of_latest hr'
  exact ⟨r', by rw [hbyId, hr'], (hlog r' hmem r hr).1 hid⟩

/-- A record of a device, with a name. -/
def namedRecord (deviceId deviceTag : String) (username : Option PyStr) : DeviceRecord :=
  ⟨"username_changed", deviceId, deviceTag, "", none, username⟩

/-- The first record of a device is dropped, and then the other device is read first. -/
theorem replay_of_rearrangement_two :
    ∃ d, replay [namedRecord "1" "a" none, namedRecord "2" "b" none,
        namedRecord "1" "a" (some [0x61])] = .ok d ∧
      replay [namedRecord "1" "a" (some [0x61]), namedRecord "2" "b" none] = .ok d := by
  have hdrop : Rearrangement DeviceRecord.deviceId [namedRecord "1" "a" none,
      namedRecord "2" "b" none, namedRecord "1" "a" (some [0x61])]
      ([] ++ [namedRecord "2" "b" none, namedRecord "1" "a" (some [0x61])]) :=
    .drop .refl ⟨namedRecord "1" "a" (some [0x61]), by decide⟩
  refine replay_of_rearrangement (by unfold FixedTags; decide) (hdrop.reorder fun i => ?_)
  by_cases hi : i = "1"
  · subst hi
    rfl
  · have hfalse : decide ("1" = i) = false := decide_eq_false (Ne.symm hi)
    simp only [List.nil_append, List.filter_cons, namedRecord, hfalse, Bool.false_eq_true, if_false]

end Directory

end SecNet
