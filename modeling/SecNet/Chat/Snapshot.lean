import SecNet.Chat.DirectoryLog
import SecNet.Lib.Transition

/-!
# The snapshot of the directory

`_load_snapshot` polls the topic of the directory, whose records come from several partitions, and
applies them, until it has been quiet for two seconds. `_apply` pops the tag that a device had
before it checks that the new one is free.

* `apply_atomic_iff`: the calls of `_apply` that raise without a trace;
* `tag_lost`: a call that raises with one;
* `loadSnapshot_eq_returned`: where the loop ends;
* `snapshot_complete_iff`: when all records have been applied by then;
* `slow_partition`: a record that comes after the loop has ended.
-/

namespace SecNet

namespace Directory

variable {d : Directory} {record : DeviceRecord}

/-! ## Applying a record -/

/-- The maps after a call of `_apply`. -/
def next (d : Directory) (record : DeviceRecord) : Directory := (d.apply record).1

/-- The call returns, or raises and leaves the maps as they were. -/
def Atomic (d : Directory) (record : DeviceRecord) : Prop :=
  (d.apply record).2 = .ok () ∨ d.next record = d

/-- Every record of a device is found under its tag. -/
def Findable (d : Directory) : Prop := ∀ i r, d.byId i = some r → d.byTag r.deviceTag = some r

/-- A known device is not moved to a tag under which another device is found. -/
def Movable (d : Directory) (record : DeviceRecord) : Prop :=
  (∀ r, d.byTag record.deviceTag = some r → r.deviceId = record.deviceId) ∨
    d.byId record.deviceId = none

/-- A record whose tag another device has is not applied. -/
theorem apply_of_taken (hd : d.Indexed) {r : DeviceRecord}
    (htag : d.byTag record.deviceTag = some r) (hne : r.deviceId ≠ record.deviceId) :
    ∃ e, d.apply record = (⟨d.byId, d.popTag record.deviceId⟩, .error e) := by
  have hpop : d.popTag record.deviceId record.deviceTag = some r := by
    obtain ⟨heq, hr⟩ := hd.inv.tag htag
    rw [← heq]
    exact hd.popTag_of_ne hr hne
  rw [apply, if_pos (by rw [hpop]; exact decide_eq_true hne)]
  exact ⟨_, rfl⟩

/-- The tag of a known device is popped. -/
theorem popTag_ne (hd : d.Indexed) {previous : DeviceRecord}
    (h : d.byId record.deviceId = some previous) : d.popTag record.deviceId ≠ d.byTag := by
  intro heq
  have htag := congrFun heq previous.deviceTag
  rw [popTag, h, hd.byTag_of_byId h] at htag
  simp only [Function.update_self] at htag
  cases htag

/-- A call is atomic, and leaves the records where they are found, exactly when it does not move a
    known device to the tag of another one. -/
theorem atomic_iff (hd : d.Indexed) :
    (d.Atomic record ∧ (d.next record).Findable) ↔ d.Movable record := by
  by_cases hfree : ∀ r, d.byTag record.deviceTag = some r → r.deviceId = record.deviceId
  · obtain ⟨hok, hindexed, -⟩ := spec_apply hd hfree
    exact iff_of_true ⟨.inl hok, fun _ _ => hindexed.byTag_of_byId⟩ (.inl hfree)
  push Not at hfree
  obtain ⟨r, htag, hne⟩ := hfree
  obtain ⟨e, happly⟩ := apply_of_taken hd htag hne
  have hnext : d.next record = ⟨d.byId, d.popTag record.deviceId⟩ := by rw [next, happly]
  rcases hknown : d.byId record.deviceId with _ | previous
  · have hsame : d.next record = d := by
      rw [hnext, popTag, hknown]
    refine iff_of_true ⟨.inr hsame, ?_⟩ (.inr hknown)
    rw [hsame]
    exact fun _ _ => hd.byTag_of_byId
  · refine iff_of_false ?_ ?_
    · rintro ⟨hok | hsame, -⟩
      · rw [happly] at hok
        cases hok
      · rw [hnext] at hsame
        exact popTag_ne hd hknown (congrArg byTag hsame)
    · rintro (hfree | hnone)
      · exact hne (hfree r htag)
      · rw [hknown] at hnone
        cases hnone

/-- The maps stay views of the same records. -/
theorem Movable.indexed (h : d.Movable record) (hd : d.Indexed) : (d.next record).Indexed :=
  ⟨inv_apply hd.inv record, ((atomic_iff hd).2 h).2 _ _⟩

/-- Calls of `_apply`, each of which is atomic and leaves every record where it is found: exactly
    those that do not move a known device to the tag of another one. -/
theorem apply_atomic_iff (records : List DeviceRecord) :
    System.AllSteps next (fun d record => d.Atomic record ∧ (d.next record).Findable) empty
        records ↔
      System.AllSteps next Movable empty records :=
  System.AllSteps.iff (I := Indexed) (fun _ _ hd => atomic_iff hd) (fun _ _ hd h => h.indexed hd)
    indexed_empty records

/-- A device that is moved to the tag of another one cannot be found any more. -/
theorem tag_lost :
    let d := (empty.next (namedRecord "1" "a" none)).next (namedRecord "2" "b" none)
    (∃ e, (d.apply (namedRecord "1" "b" none)).2 = .error e) ∧
      d.next (namedRecord "1" "b" none) ≠ d ∧
      (d.next (namedRecord "1" "b" none)).byId "1" = some (namedRecord "1" "a" none) ∧
      (d.next (namedRecord "1" "b" none)).byTag "a" = none := by
  intro d
  refine ⟨⟨_, rfl⟩, fun heq => ?_, rfl, rfl⟩
  have htag := congrFun (congrArg byTag heq) "a"
  exact absurd htag (by decide)

end Directory

/-! ## The loop -/

/-- What `consumer.poll` returns: a record of a partition, with what `decode` makes of it, the end
    of a partition, an error, or nothing. -/
inductive PollResult
  | record (part : ℕ) (value : Except Exn DeviceRecord)
  | partitionEof
  | error (e : Exn)
  | empty

/-- A pass of the loop: whether the consumer has an assignment after the poll, and what the first
    and the second call of `time.monotonic()` return. -/
structure Poll where
  assignment : Bool
  result : PollResult
  time : ℚ
  now : ℚ

/-- The state of the loop. -/
structure SnapshotState where
  directory : Directory
  assigned : Bool
  quietSince : Option ℚ

/-- How the loop ends, with the polls that are not made any more, or where it is. -/
inductive SnapshotResult
  | polling (s : SnapshotState)
  | returned (d : Directory) (unread : List Poll)
  | raised (e : Exn)

/-- The loop of `_load_snapshot`. -/
def loadSnapshot (s : SnapshotState) : List Poll → SnapshotResult
  | [] => .polling s
  | poll :: polls =>
    let assigned := s.assigned || poll.assignment
    match poll.result with
    | .empty =>
      let quietSince :=
        if assigned ∧ s.quietSince = none then some poll.time else s.quietSince
      if assigned ∧ quietSince.any fun since => 2 < poll.now - since then
        .returned s.directory polls
      else loadSnapshot ⟨s.directory, assigned, quietSince⟩ polls
    | .partitionEof =>
      loadSnapshot ⟨s.directory, true, some (s.quietSince.getD poll.time)⟩ polls
    | .error e => .raised e
    | .record _ (.error e) => .raised e
    | .record _ (.ok record) =>
      match s.directory.apply record with
      | (d, .ok ()) => loadSnapshot ⟨d, true, none⟩ polls
      | (_, .error e) => .raised e

/-- At the start of the loop. -/
def SnapshotState.start : SnapshotState := ⟨.empty, false, none⟩

/-! ## Silence -/

/-- The record of a poll. -/
def Poll.record (poll : Poll) : Option DeviceRecord :=
  match poll.result with
  | .record _ (.ok record) => some record
  | _ => none

/-- The record of a poll, of a partition. -/
def Poll.recordOf (part : ℕ) (poll : Poll) : Option DeviceRecord :=
  match poll.result with
  | .record part' (.ok record) => if part' = part then some record else none
  | _ => none

/-- After the poll the consumer is known to have an assignment. -/
def Poll.Assigns (poll : Poll) : Prop :=
  poll.assignment = true ∨ poll.result = .partitionEof ∨ poll.record.isSome

/-- Silence may begin with the poll: a partition has ended, or nothing has come to a consumer that
    is known to have an assignment. -/
def BeginsSilence (before : List Poll) (poll : Poll) : Prop :=
  poll.result = .partitionEof ∨ poll.result = .empty ∧ ∃ x ∈ before ++ [poll], x.Assigns

/-- Nothing has come since some poll, which was more than two seconds ago. -/
def TimesOut (before : List Poll) (poll : Poll) : Prop :=
  poll.result = .empty ∧ ∃ earlier first since, before ++ [poll] = earlier ++ first :: since ∧
    (∀ x ∈ first :: since, x.record = none) ∧ BeginsSilence earlier first ∧
    2 < poll.now - first.time

/-- The state of the loop after some polls. -/
structure SnapshotState.After (read : List Poll) (s : SnapshotState) : Prop where
  directory : Directory.replay (read.filterMap Poll.record) = .ok s.directory
  assigned : s.assigned = true ↔ ∃ x ∈ read, x.Assigns
  /-- The silence has begun with some poll. -/
  quiet : ∀ {t}, s.quietSince = some t → ∃ earlier first since, read = earlier ++ first :: since ∧
    (∀ x ∈ first :: since, x.record = none) ∧ BeginsSilence earlier first ∧ first.time = t
  /-- It has begun with the first one with which it may. -/
  quiet_le : ∀ {earlier first since}, read = earlier ++ first :: since →
    (∀ x ∈ first :: since, x.record = none) → BeginsSilence earlier first →
      ∃ t, s.quietSince = some t ∧ t ≤ first.time

theorem after_start : SnapshotState.start.After [] where
  directory := rfl
  assigned := iff_of_false nofun nofun
  quiet h := by cases h
  quiet_le h := by simp at h

variable {read : List Poll} {s : SnapshotState} {x : Poll}

theorem exists_assigns_append (read : List Poll) (x : Poll) :
    (∃ y ∈ read ++ [x], y.Assigns) ↔ (∃ y ∈ read, y.Assigns) ∨ x.Assigns := by
  simp only [List.mem_append, List.mem_singleton, or_and_right, exists_or, exists_eq_left]

/-- What is before the last poll, or is the last poll. -/
theorem append_singleton_eq_append_cons {α : Type*} {l a b : List α} {x y : α}
    (h : l ++ [x] = a ++ y :: b) :
    (a = l ∧ y = x ∧ b = []) ∨ ∃ b', b = b' ++ [x] ∧ l = a ++ y :: b' := by
  rcases List.eq_nil_or_concat' b with rfl | ⟨b', z, rfl⟩
  · obtain ⟨rfl, hx⟩ := List.append_inj' h rfl
    exact .inl ⟨rfl, (List.cons.inj hx).1.symm, rfl⟩
  · rw [← List.cons_append, ← List.append_assoc] at h
    obtain ⟨rfl, hx⟩ := List.append_inj' h rfl
    exact .inr ⟨b', by rw [(List.cons.inj hx).1], rfl⟩

/-- A pass in which no record comes. -/
theorem SnapshotState.After.silent (h : s.After read) (hx : x.record = none)
    (htime : ∀ y ∈ read, y.time ≤ x.time) {assigned : Bool} {quietSince : Option ℚ}
    (hassigned : assigned = true ↔ ∃ y ∈ read ++ [x], y.Assigns)
    (hbegins : BeginsSilence read x → quietSince = some (s.quietSince.getD x.time))
    (hnot : ¬BeginsSilence read x → quietSince = s.quietSince) :
    After (read ++ [x]) ⟨s.directory, assigned, quietSince⟩ where
  directory := by
    rw [List.filterMap_append, List.filterMap_cons_none hx, List.filterMap_nil, List.append_nil]
    exact h.directory
  assigned := hassigned
  quiet {t} ht := by
    dsimp only at ht
    -- The silence had begun before, or begins now.
    have hold : s.quietSince = some t → ∃ earlier first since,
        read ++ [x] = earlier ++ first :: since ∧
        (∀ y ∈ first :: since, y.record = none) ∧ BeginsSilence earlier first ∧ first.time = t := by
      intro hquiet
      obtain ⟨earlier, first, since, rfl, hsilent, hfirst, rfl⟩ := h.quiet hquiet
      refine ⟨earlier, first, since ++ [x], by simp, fun y hy => ?_, hfirst, rfl⟩
      rw [← List.cons_append, List.mem_append, List.mem_singleton] at hy
      rcases hy with hy | rfl
      · exact hsilent y hy
      · exact hx
    by_cases hx' : BeginsSilence read x
    · rw [hbegins hx'] at ht
      rcases hquiet : s.quietSince with _ | t'
      · rw [hquiet] at ht
        exact ⟨read, x, [], rfl, by simpa using hx, hx', Option.some.inj ht⟩
      · rw [hquiet] at ht
        exact hold (hquiet.trans ht)
    · exact hold ((hnot hx').symm.trans ht)
  quiet_le {earlier first since} hread hsilent hfirst := by
    dsimp only
    rcases append_singleton_eq_append_cons hread with ⟨rfl, rfl, rfl⟩ | ⟨since, rfl, rfl⟩
    · refine ⟨_, hbegins hfirst, ?_⟩
      rcases hquiet : s.quietSince with _ | t
      · exact le_rfl
      · obtain ⟨earlier', first', since', rfl, -, -, rfl⟩ := h.quiet hquiet
        exact htime first' (by simp)
    · obtain ⟨t, hquiet, ht⟩ := h.quiet_le rfl
        (fun y hy => hsilent y (List.mem_append_left _ hy)) hfirst
      refine ⟨t, ?_, ht⟩
      by_cases hx' : BeginsSilence (earlier ++ first :: since) x
      · rw [hbegins hx', hquiet, Option.getD_some]
      · rw [hnot hx', hquiet]

/-- A pass in which a record comes. -/
theorem SnapshotState.After.record (h : s.After read) {part : ℕ} {record : DeviceRecord}
    (hx : x.result = .record part (.ok record)) {d : Directory}
    (happly : s.directory.apply record = (d, .ok ())) : After (read ++ [x]) ⟨d, true, none⟩ := by
  have hrecord : x.record = some record := by rw [Poll.record, hx]
  refine ⟨?_, iff_of_true rfl ⟨x, by simp, ?_⟩, fun ht => ?_, fun hread hsilent hfirst => ?_⟩
  · rw [List.filterMap_append, List.filterMap_cons_some hrecord, List.filterMap_nil,
      Directory.replay, List.foldlM_append, bind_eq_ok]
    refine ⟨s.directory, h.directory, ?_⟩
    rw [List.foldlM_cons, happly]
    rfl
  · rw [Poll.Assigns, hrecord]
    exact .inr (.inr rfl)
  · cases ht
  · rcases append_singleton_eq_append_cons hread with ⟨-, rfl, -⟩ | ⟨since, rfl, -⟩
    · cases hrecord.symm.trans (hsilent _ (by simp))
    · cases hrecord.symm.trans (hsilent x (by simp))

/-- A pass at the end of a partition. -/
theorem SnapshotState.After.partitionEof (h : s.After read) (hx : x.result = .partitionEof)
    (htime : ∀ y ∈ read, y.time ≤ x.time) :
    After (read ++ [x]) ⟨s.directory, true, some (s.quietSince.getD x.time)⟩ := by
  refine h.silent (by rw [Poll.record, hx]) htime (iff_of_true rfl ?_) (fun _ => rfl)
    fun hnot => absurd (.inl hx) hnot
  exact ⟨x, by simp, .inr (.inl hx)⟩

/-- When the silence has begun, after a pass in which nothing comes. -/
def quietAfter (s : SnapshotState) (poll : Poll) : Option ℚ :=
  if (s.assigned || poll.assignment) ∧ s.quietSince = none then some poll.time else s.quietSince

/-- A pass in which nothing comes. -/
theorem SnapshotState.After.empty (h : s.After read) (hx : x.result = .empty)
    (htime : ∀ y ∈ read, y.time ≤ x.time) :
    After (read ++ [x]) ⟨s.directory, s.assigned || x.assignment, quietAfter s x⟩ := by
  have hrecord : x.record = none := by rw [Poll.record, hx]
  have hassigns : x.Assigns ↔ x.assignment = true := by
    rw [Poll.Assigns, hx, hrecord]
    simp
  have hassigned : (s.assigned || x.assignment) = true ↔ ∃ y ∈ read ++ [x], y.Assigns := by
    rw [Bool.or_eq_true, exists_assigns_append, h.assigned, hassigns]
  have hbegins : BeginsSilence read x ↔ (s.assigned || x.assignment) = true := by
    rw [BeginsSilence, hx, hassigned]
    simp
  refine h.silent hrecord htime hassigned (fun hx' => ?_) fun hx' => ?_
  · rw [quietAfter]
    rcases s.quietSince with _ | t
    · rw [if_pos ⟨hbegins.1 hx', rfl⟩, Option.getD_none]
    · rw [if_neg fun hnone => nomatch hnone.2]
      rfl
  · rw [quietAfter, if_neg fun hassigned => hx' (hbegins.2 hassigned.1)]

/-- The loop ends at a poll when it has been quiet for two seconds. -/
theorem timesOut_iff (h : s.After read) (hx : x.result = .empty)
    (htime : ∀ y ∈ read, y.time ≤ x.time) :
    TimesOut read x ↔ (s.assigned || x.assignment) = true ∧
      (quietAfter s x).any (fun since => 2 < x.now - since) = true := by
  have hafter := h.empty hx htime
  rw [TimesOut, and_iff_right hx]
  constructor
  · rintro ⟨earlier, first, since, hread, hsilent, hfirst, htwo⟩
    obtain ⟨t, ht, hle⟩ := hafter.quiet_le hread hsilent hfirst
    have hassigns : ∃ y ∈ read ++ [x], y.Assigns := by
      rw [hread]
      rcases hfirst with heof | ⟨-, y, hy, hassigns⟩
      · exact ⟨first, by simp, .inr (.inl heof)⟩
      · refine ⟨y, ?_, hassigns⟩
        rw [List.mem_append, List.mem_singleton] at hy
        rcases hy with hy | rfl
        · exact List.mem_append_left _ hy
        · simp
    refine ⟨hafter.assigned.2 hassigns, ?_⟩
    rw [show quietAfter s x = some t from ht, Option.any_some, decide_eq_true_eq]
    linarith
  · rintro ⟨-, hany⟩
    rcases hquiet : quietAfter s x with _ | t
    · rw [hquiet] at hany
      cases hany
    · rw [hquiet, Option.any_some, decide_eq_true_eq] at hany
      obtain ⟨earlier, first, since, hread, hsilent, hfirst, rfl⟩ := hafter.quiet hquiet
      exact ⟨earlier, first, since, hread, hsilent, hfirst, hany⟩

/-- The loop returns at the first poll at which it has been quiet for two seconds, with the records
    of the polls before it. -/
structure ReturnsAt (read rest unread : List Poll) (d : Directory) (more : List Poll) (x : Poll) :
    Prop where
  split : rest = more ++ x :: unread
  timesOut : TimesOut (read ++ more) x
  first : ∀ a y b, more = a ++ y :: b → ¬TimesOut (read ++ a) y
  replay : Directory.replay ((read ++ more).filterMap Poll.record) = .ok d

/-- One more poll before. -/
theorem ReturnsAt.cons {rest unread more : List Poll} {d : Directory} {y : Poll}
    (h : ReturnsAt (read ++ [x]) rest unread d more y) (hx : ¬TimesOut read x) :
    ReturnsAt read (x :: rest) unread d (x :: more) y := by
  have happend : read ++ [x] ++ more = read ++ x :: more := by
    rw [List.append_assoc, List.singleton_append]
  refine ⟨by rw [h.split, List.cons_append], happend ▸ h.timesOut, fun a z b hab => ?_,
    happend ▸ h.replay⟩
  cases a with
  | nil =>
    obtain ⟨rfl, -⟩ := List.cons.inj hab
    rwa [List.append_nil]
  | cons w a =>
    rw [List.cons_append, List.cons.injEq] at hab
    obtain ⟨rfl, hab⟩ := hab
    have hfirst := h.first a z b hab
    rwa [List.append_assoc, List.singleton_append] at hfirst

theorem loadSnapshot_eq_returned {rest unread : List Poll} {d : Directory} (h : s.After read)
    (hclock : ((read ++ rest).map Poll.time).Pairwise (· ≤ ·))
    (hreturned : loadSnapshot s rest = .returned d unread) :
    ∃ more x, ReturnsAt read rest unread d more x := by
  induction rest generalizing read s with
  | nil => cases hreturned
  | cons x rest ih =>
    have htime : ∀ y ∈ read, y.time ≤ x.time := by
      intro y hy
      rw [List.map_append, List.map_cons, List.pairwise_append] at hclock
      exact hclock.2.2 y.time (List.mem_map_of_mem hy) x.time List.mem_cons_self
    have hclock' : ((read ++ [x] ++ rest).map Poll.time).Pairwise (· ≤ ·) := by
      rwa [List.append_assoc, List.singleton_append]
    have hnot : x.result ≠ .empty → ¬TimesOut read x := fun hx htimes => hx htimes.1
    rw [loadSnapshot] at hreturned
    rcases hresult : x.result with ⟨part, e | record⟩ | _ | e | _
    case record.error | error =>
      rw [hresult] at hreturned
      cases hreturned
    case record.ok =>
      rw [hresult] at hreturned
      dsimp only at hreturned
      rcases happly : s.directory.apply record with ⟨d', e | ⟨⟩⟩
      · rw [happly] at hreturned
        cases hreturned
      · rw [happly] at hreturned
        obtain ⟨more, y, hat⟩ := ih (h.record hresult happly) hclock' hreturned
        exact ⟨_, y, hat.cons (hnot (by rw [hresult]; exact nofun))⟩
    case partitionEof =>
      rw [hresult] at hreturned
      obtain ⟨more, y, hat⟩ := ih (h.partitionEof hresult htime) hclock' hreturned
      exact ⟨_, y, hat.cons (hnot (by rw [hresult]; exact nofun))⟩
    case empty =>
      rw [hresult] at hreturned
      dsimp only at hreturned
      rw [← quietAfter] at hreturned
      split_ifs at hreturned with htimes
      all_goals rw [← timesOut_iff h hresult htime] at htimes
      · obtain ⟨rfl, rfl⟩ := SnapshotResult.returned.inj hreturned
        refine ⟨[], x, rfl, by rwa [List.append_nil], fun a y b hab => ?_, ?_⟩
        · simp at hab
        · rw [List.append_nil]
          exact h.directory
      · obtain ⟨more, y, hat⟩ := ih (h.empty hresult htime) hclock' hreturned
        exact ⟨_, y, hat.cons htimes⟩

/-! ## Completeness -/

/-- The records of the topic, by their partitions, are among those of the polls. -/
def Delivered (topic : ℕ → List DeviceRecord) (read : List Poll) : Prop :=
  ∀ part, topic part <+: read.filterMap (Poll.recordOf part)

theorem Delivered.append {topic : ℕ → List DeviceRecord} (h : Delivered topic read)
    (more : List Poll) : Delivered topic (read ++ more) := by
  intro part
  rw [List.filterMap_append]
  exact (h part).trans (List.prefix_append _ _)

/-- The directory is that of polls with all records of the topic, after which no poll is made but
    the last one. -/
def SnapshotComplete (topic : ℕ → List DeviceRecord) (polls unread : List Poll) (d : Directory) :
    Prop :=
  ∃ read x, polls = read ++ x :: unread ∧
    Directory.replay (read.filterMap Poll.record) = .ok d ∧ Delivered topic read

/-- When the loop returns, all records of the topic have been applied exactly when they all come
    before the first time that nothing has come for two seconds. -/
theorem snapshot_complete_iff (topic : ℕ → List DeviceRecord) {polls unread : List Poll}
    {d : Directory} (hclock : (polls.map Poll.time).Pairwise (· ≤ ·))
    (hreturned : loadSnapshot .start polls = .returned d unread) :
    SnapshotComplete topic polls unread d ↔
      ∀ read x rest, polls = read ++ x :: rest → TimesOut read x → Delivered topic read := by
  obtain ⟨read, x, hsplit, htimes, hfirst, hreplay⟩ :=
    loadSnapshot_eq_returned after_start hclock hreturned
  rw [List.nil_append] at htimes hreplay
  constructor
  · rintro ⟨read', x', hsplit', -, hdelivered⟩ read'' y rest hsplit'' htimes''
    obtain ⟨rfl, -⟩ := List.append_inj' (hsplit.symm.trans hsplit') rfl
    -- The loop has returned at the first poll at which it has been quiet for two seconds.
    rcases List.append_eq_append_iff.1 (hsplit.symm.trans hsplit'') with
      ⟨more, rfl, -⟩ | ⟨more, rfl, hmore⟩
    · exact hdelivered.append more
    · rcases more with _ | ⟨z, more⟩
      · rwa [List.append_nil] at hdelivered
      · obtain ⟨rfl, -⟩ := List.cons.inj hmore
        exact absurd (by rwa [List.nil_append]) (hfirst read'' y more rfl)
  · intro h
    exact ⟨read, x, hsplit, hreplay, h read x unread hsplit htimes⟩

/-- A key of a device, which is in the second partition of the topic. -/
def knownKey : Bytes := List.replicate 32 1

def knownTopic : ℕ → List DeviceRecord
  | 1 => [Directory.namedRecord (deviceId plainCrypto knownKey) "a" none]
  | _ => []

/-- The first partition ends at once, and the record of the second one takes four seconds. -/
def slowPolls : List Poll :=
  [⟨true, .partitionEof, 0, 0⟩, ⟨true, .empty, 1, 1⟩, ⟨true, .empty, 2, 2⟩, ⟨true, .empty, 3, 3⟩,
    ⟨true, .record 1 (.ok (Directory.namedRecord (deviceId plainCrypto knownKey) "a" none)), 4, 4⟩,
    ⟨true, .partitionEof, 4, 4⟩]

theorem loadSnapshot_slowPolls : loadSnapshot .start slowPolls =
    .returned .empty (slowPolls.drop 4) := by
  have htwo : ¬(3 : ℚ) ≤ 2 := by norm_num
  simp [loadSnapshot, slowPolls, SnapshotState.start, htwo]

theorem snapshot_complete_iff_slow :
    SnapshotComplete knownTopic slowPolls (slowPolls.drop 4) .empty ↔
      ∀ read x rest, slowPolls = read ++ x :: rest → TimesOut read x → Delivered knownTopic read :=
  snapshot_complete_iff knownTopic (by norm_num [slowPolls]) loadSnapshot_slowPolls

/-- A record comes after the loop has returned, and the device gets a second tag. -/
theorem slow_partition : Delivered knownTopic slowPolls ∧ ∃ d unread,
    loadSnapshot .start slowPolls = .returned d unread ∧
      ¬SnapshotComplete knownTopic slowPolls unread d ∧
      (d.registerOrGet plainCrypto knownKey [] "b" (.ok ())).2 = .ok "b" := by
  refine ⟨fun part => ?_, .empty, slowPolls.drop 4, loadSnapshot_slowPolls, ?_, rfl⟩
  · by_cases hpart : part = 1
    · subst hpart
      exact List.prefix_refl _
    · rw [knownTopic.eq_2 part hpart]
      exact List.nil_prefix
  · rintro ⟨read, x, hsplit, -, hdelivered⟩
    have hread : slowPolls.take 3 = read :=
      (List.append_inj' ((List.take_append_drop 3 slowPolls).trans hsplit) rfl).1
    have hrecord := hdelivered 1
    rw [← hread] at hrecord
    exact absurd (List.prefix_nil.1 hrecord) (List.cons_ne_nil _ _)

end SecNet
