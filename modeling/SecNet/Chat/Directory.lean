import SecNet.Chat.JsonValue
import SecNet.Handshake.Crypto

/-!
# The device directory

`KafkaDeviceDirectory`: the records of the devices, found by the identifier of a device
(the hash of its public key) and by its tag. A record is applied to both maps, and then
published.

* `Directory.Inv`: what is found under a tag is the record of a device with that tag;
* `inv_apply`, `inv_replay`, `inv_registerOrGet`, `inv_updateUsername`: it is kept, and
  also by a call that raises;
* `registerOrGet_byId_of_ne`: a registration is about one device;
* `encryptionKey_updateUsername`: a new name changes no key.
-/

namespace SecNet

/-- `hexdigest()` of a hash. -/
def hexdigest (data : Bytes) : String :=
  .ofList (data.flatMap fun b => [Nat.digitChar (b.toNat / 16), Nat.digitChar (b.toNat % 16)])

theorem hexdigest_injective : Function.Injective hexdigest := by
  have hdigit : ∀ m n : Fin 16, Nat.digitChar m = Nat.digitChar n → m = n := by decide
  intro data data' h
  replace h := String.ofList_injective h
  induction data generalizing data' with
  | nil =>
    cases data' with
    | nil => rfl
    | cons b' data' => cases h
  | cons b data ih =>
    cases data' with
    | nil => cases h
    | cons b' data' =>
      simp only [List.flatMap_cons, List.cons_append, List.nil_append, List.cons.injEq] at h
      obtain ⟨hhigh, hlow, hrest⟩ := h
      have hb := b.toNat_lt
      have hb' := b'.toNat_lt
      have hhigh := hdigit ⟨b.toNat / 16, by omega⟩ ⟨b'.toNat / 16, by omega⟩ hhigh
      have hlow := hdigit ⟨b.toNat % 16, by omega⟩ ⟨b'.toNat % 16, by omega⟩ hlow
      simp only [Fin.mk.injEq] at hhigh hlow
      rw [ih hrest, UInt8.toNat.inj (show b.toNat = b'.toNat by omega)]

/-- `base64.b64encode(data).decode("ascii")`. -/
def b64Text (data : Bytes) : String := .ofList (b64encode data)

/-- The identifier of a device. -/
def deviceId (C : Crypto) (publicKeyBytes : Bytes) : String := hexdigest (C.sha256 publicKeyBytes)

/-- A record of the directory, without `updated_at`, which is not read. The encryption key is `none`
    where there is no such member. -/
structure DeviceRecord where
  event : String
  deviceId : String
  deviceTag : String
  publicKey : String
  encryptionPublicKey : Option String
  username : Option PyStr
  deriving DecidableEq

/-- The two maps, `_records_by_id` and `_records_by_tag`. -/
@[ext]
structure Directory where
  byId : String → Option DeviceRecord
  byTag : String → Option DeviceRecord

/-- White space, as `str.strip` knows it. -/
def isSpace (u : ℕ) : Bool := (9 ≤ u ∧ u ≤ 13) ∨ (28 ≤ u ∧ u ≤ 32) ∨ u ∈ unicodeSpaces

/-- `s.strip()`. -/
def stripSpaces (s : PyStr) : PyStr := ((s.dropWhile isSpace).reverse.dropWhile isSpace).reverse

namespace Directory

/-- A directory without devices. -/
def empty : Directory := ⟨fun _ => none, fun _ => none⟩

/-- The tags, without the one that a device had before. -/
def popTag (d : Directory) (deviceId : String) : String → Option DeviceRecord :=
  match d.byId deviceId with
  | some previous => Function.update d.byTag previous.deviceTag none
  | none => d.byTag

/-- `_apply`: the maps that it leaves, and how it ends. -/
def apply (d : Directory) (record : DeviceRecord) : Directory × Except Exn Unit :=
  -- The tag that the device had before is gone, also when the check then raises.
  let byTag := d.popTag record.deviceId
  if (byTag record.deviceTag).any fun previous => previous.deviceId ≠ record.deviceId then
    (⟨d.byId, byTag⟩, .error (.valueError "device tag collision in compacted device directory"))
  else
    (⟨Function.update d.byId record.deviceId (some record),
      Function.update byTag record.deviceTag (some record)⟩, .ok ())

/-- `_load_snapshot`: the records of the topic are applied, one after the other. -/
def replay (records : List DeviceRecord) : Except Exn Directory :=
  records.foldlM (fun d record => (d.apply record).2.map fun _ => (d.apply record).1) empty

/-- A record is applied, and then published. -/
def store (d : Directory) (record : DeviceRecord) (publish : Except Exn Unit) :
    Directory × Except Exn Unit :=
  match d.apply record with
  | (d, .ok ()) => (d, publish)
  | (d, .error e) => (d, .error e)

/-- `register_or_get`, with the tag that it may draw, and the outcome of its publish. No
    encryption key is the empty one. -/
def registerOrGet (C : Crypto) (d : Directory) (publicKeyBytes encryptionPublicKey : Bytes)
    (tag : String) (publish : Except Exn Unit) : Directory × Except Exn String :=
  match d.byId (deviceId C publicKeyBytes) with
  | some existing =>
    -- The device is known: all that may change is its encryption key.
    if encryptionPublicKey ≠ [] ∧
        existing.encryptionPublicKey.getD "" ≠ b64Text encryptionPublicKey then
      let record := { existing with
        encryptionPublicKey := some (b64Text encryptionPublicKey)
        event := "device_encryption_key_changed" }
      let (d, stored) := d.store record publish
      (d, stored.map fun _ => record.deviceTag)
    else (d, .ok existing.deviceTag)
  | none =>
    -- `_tag_from_random` draws the tag.
    let record : DeviceRecord := ⟨"device_registered", deviceId C publicKeyBytes, tag,
      b64Text publicKeyBytes, some (b64Text encryptionPublicKey), none⟩
    let (d, stored) := d.store record publish
    (d, stored.map fun _ => record.deviceTag)

/-- `update_username`, with the outcome of its publish. -/
def updateUsername (d : Directory) (deviceTag : String) (username : PyStr)
    (publish : Except Exn Unit) : Directory × Except Exn Unit :=
  let username := stripSpaces username
  if ¬(1 ≤ username.length ∧ username.length ≤ 64) then
    (d, .error (.valueError "username must contain 1 to 64 characters"))
  else
    match d.byTag deviceTag with
    | none => (d, .error (.keyError deviceTag))
    | some current =>
      d.store { current with event := "username_changed", username := some username } publish

/-- The encryption key that is recorded for a device. -/
def encryptionKey (d : Directory) (deviceId : String) : Option (Option String) :=
  (d.byId deviceId).map DeviceRecord.encryptionPublicKey

/-! ## What is found under a tag -/

/-- The records are found under their identifiers, and what is found under a tag is the
    record of a device with that tag. -/
structure Inv (d : Directory) : Prop where
  id : ∀ {i r}, d.byId i = some r → r.deviceId = i
  tag : ∀ {t r}, d.byTag t = some r → r.deviceTag = t ∧ d.byId r.deviceId = some r

theorem inv_empty : empty.Inv := ⟨nofun, nofun⟩

variable {d : Directory}

/-- What is left under a tag was there, and is not the record of the device. -/
theorem Inv.of_popTag (hd : d.Inv) {i t : String} {r : DeviceRecord} (h : d.popTag i t = some r) :
    d.byTag t = some r ∧ r.deviceId ≠ i := by
  rw [popTag] at h
  rcases hprevious : d.byId i with _ | previous
  · rw [hprevious] at h
    refine ⟨h, ?_⟩
    rintro rfl
    rw [(hd.tag h).2] at hprevious
    cases hprevious
  · simp only [hprevious] at h
    by_cases ht : t = previous.deviceTag
    · rw [ht, Function.update_self] at h
      cases h
    · rw [Function.update_of_ne ht] at h
      refine ⟨h, ?_⟩
      rintro rfl
      obtain ⟨rfl, hr⟩ := hd.tag h
      rw [hr] at hprevious
      exact ht (congrArg _ (Option.some.inj hprevious))

/-- A record is applied to both maps, or to none of them but for the tag that is popped. -/
theorem apply_cases (d : Directory) (record : DeviceRecord) :
    (d.apply record = (⟨Function.update d.byId record.deviceId (some record),
      Function.update (d.popTag record.deviceId) record.deviceTag (some record)⟩, .ok ())) ∨
    ∃ e, d.apply record = (⟨d.byId, d.popTag record.deviceId⟩, .error e) := by
  rw [apply]
  split_ifs
  · exact .inr ⟨_, rfl⟩
  · exact .inl rfl

theorem inv_apply (hd : d.Inv) (record : DeviceRecord) : (d.apply record).1.Inv := by
  rcases d.apply_cases record with h | ⟨e, h⟩
  · rw [h]
    refine ⟨fun {i r} hr => ?_, fun {t r} hr => ?_⟩ <;> dsimp only at hr
    · by_cases hi : i = record.deviceId
      · subst hi
        rw [Function.update_self] at hr
        exact congrArg _ (Option.some.inj hr).symm
      · rw [Function.update_of_ne hi] at hr
        exact hd.id hr
    · by_cases ht : t = record.deviceTag
      · subst ht
        rw [Function.update_self] at hr
        obtain rfl := Option.some.inj hr
        exact ⟨rfl, Function.update_self ..⟩
      · rw [Function.update_of_ne ht] at hr
        obtain ⟨hr, hne⟩ := hd.of_popTag hr
        exact ⟨(hd.tag hr).1, (Function.update_of_ne hne ..).trans (hd.tag hr).2⟩
  · rw [h]
    exact ⟨hd.id, fun hr => hd.tag (hd.of_popTag hr).1⟩

/-- The directory of a snapshot. -/
theorem inv_replay {records : List DeviceRecord} (h : replay records = .ok d) : d.Inv := by
  induction records using List.reverseRecOn generalizing d with
  | nil =>
    obtain rfl := Except.ok.inj h
    exact inv_empty
  | append_singleton records record ih =>
    rw [replay, List.foldlM_append, bind_eq_ok] at h
    obtain ⟨d', hd', h⟩ := h
    rw [List.foldlM_cons, bind_eq_ok] at h
    obtain ⟨d'', hd'', h⟩ := h
    obtain rfl := Except.ok.inj h
    have hinv := inv_apply (ih hd') record
    rcases happly : (d'.apply record).2 with e | u
    · rw [happly] at hd''
      cases hd''
    · rw [happly] at hd''
      obtain rfl := Except.ok.inj hd''
      exact hinv

/-! ## What a call does to the records -/

theorem fst_store (d : Directory) (record : DeviceRecord) (publish : Except Exn Unit) :
    (d.store record publish).1 = (d.apply record).1 := by
  rw [store]
  rcases d.apply_cases record with h | ⟨e, h⟩
  · rw [h]
  · rw [h]

/-- A registration leaves the directory, or stores a record of its device. -/
theorem registerOrGet_cases (C : Crypto) (hd : d.Inv) (publicKeyBytes encryptionPublicKey : Bytes)
    (tag : String) (publish : Except Exn Unit) :
    (registerOrGet C d publicKeyBytes encryptionPublicKey tag publish).1 = d ∨
    ∃ record : DeviceRecord, record.deviceId = SecNet.deviceId C publicKeyBytes ∧
      record.encryptionPublicKey = some (b64Text encryptionPublicKey) ∧
      (registerOrGet C d publicKeyBytes encryptionPublicKey tag publish).1 =
        (d.apply record).1 := by
  rw [registerOrGet]
  rcases hexisting : d.byId (SecNet.deviceId C publicKeyBytes) with _ | existing
  · exact .inr ⟨_, rfl, rfl, fst_store ..⟩
  · dsimp only
    split_ifs
    · have hid : existing.deviceId = SecNet.deviceId C publicKeyBytes := hd.id hexisting
      exact .inr ⟨{ existing with
        encryptionPublicKey := some (b64Text encryptionPublicKey)
        event := "device_encryption_key_changed" }, hid, rfl, fst_store ..⟩
    · exact .inl rfl

/-- A new name leaves the directory, or stores the record that is found under the tag,
    with the new name. -/
theorem updateUsername_cases (d : Directory) (deviceTag : String) (username : PyStr)
    (publish : Except Exn Unit) :
    (d.updateUsername deviceTag username publish).1 = d ∨
    ∃ current, d.byTag deviceTag = some current ∧
      (d.updateUsername deviceTag username publish).1 = (d.apply { current with
        event := "username_changed", username := some (stripSpaces username) }).1 := by
  rw [updateUsername]
  split_ifs
  · rcases hcurrent : d.byTag deviceTag with _ | current
    · exact .inl rfl
    · exact .inr ⟨current, rfl, fst_store ..⟩
  · exact .inl rfl

theorem inv_registerOrGet (C : Crypto) (hd : d.Inv) (publicKeyBytes encryptionPublicKey : Bytes)
    (tag : String) (publish : Except Exn Unit) :
    (registerOrGet C d publicKeyBytes encryptionPublicKey tag publish).1.Inv := by
  rcases registerOrGet_cases C hd publicKeyBytes encryptionPublicKey tag publish with
    h | ⟨record, -, -, h⟩
  · rwa [h]
  · rw [h]
    exact inv_apply hd record

theorem inv_updateUsername (hd : d.Inv) (deviceTag : String) (username : PyStr)
    (publish : Except Exn Unit) : (d.updateUsername deviceTag username publish).1.Inv := by
  rcases d.updateUsername_cases deviceTag username publish with h | ⟨current, -, h⟩
  · rwa [h]
  · rw [h]
    exact inv_apply hd _

/-- The records after one has been applied. -/
theorem byId_apply (d : Directory) (record : DeviceRecord) :
    (d.apply record).1.byId = Function.update d.byId record.deviceId (some record) ∨
      (d.apply record).1.byId = d.byId := by
  rcases d.apply_cases record with h | ⟨e, h⟩
  · exact .inl (by rw [h])
  · exact .inr (by rw [h])

theorem byId_apply_of_ne {record : DeviceRecord} {i : String} (hi : i ≠ record.deviceId) :
    (d.apply record).1.byId i = d.byId i := by
  rcases d.byId_apply record with h | h
  · rw [h, Function.update_of_ne hi]
  · rw [h]

/-- A registration is about one device. -/
theorem registerOrGet_byId_of_ne (C : Crypto) (hd : d.Inv)
    {publicKeyBytes encryptionPublicKey : Bytes} {tag : String} {publish : Except Exn Unit}
    {i : String} (hi : i ≠ SecNet.deviceId C publicKeyBytes) :
    (registerOrGet C d publicKeyBytes encryptionPublicKey tag publish).1.byId i = d.byId i := by
  rcases registerOrGet_cases C hd publicKeyBytes encryptionPublicKey tag publish with
    h | ⟨record, hrecord, -, h⟩
  · rw [h]
  · rw [h]
    exact byId_apply_of_ne (hrecord ▸ hi)

/-- The key that a registration changes is the one that it has been given. -/
theorem encryptionKey_registerOrGet (C : Crypto) (hd : d.Inv)
    {publicKeyBytes encryptionPublicKey : Bytes} {tag : String} {publish : Except Exn Unit}
    {i : String}
    (h : (registerOrGet C d publicKeyBytes encryptionPublicKey tag publish).1.encryptionKey i ≠
      d.encryptionKey i) :
    i = SecNet.deviceId C publicKeyBytes ∧
      (registerOrGet C d publicKeyBytes encryptionPublicKey tag publish).1.encryptionKey i =
        some (some (b64Text encryptionPublicKey)) := by
  have hi : i = SecNet.deviceId C publicKeyBytes := by
    by_contra hi
    exact h (congrArg _ (registerOrGet_byId_of_ne C hd hi))
  refine ⟨hi, ?_⟩
  rcases registerOrGet_cases C hd publicKeyBytes encryptionPublicKey tag publish with
    hsame | ⟨record, hrecord, hkey, hsame⟩
  · exact absurd (by rw [hsame]) h
  · rw [hsame, encryptionKey, encryptionKey] at h
    rw [hsame, encryptionKey]
    rcases d.byId_apply record with happly | happly
    · rw [happly, hi, ← hrecord, Function.update_self]
      exact congrArg some hkey
    · exact absurd (by rw [happly]) h

/-- A new name changes no key. -/
theorem encryptionKey_updateUsername (hd : d.Inv) (deviceTag : String) (username : PyStr)
    (publish : Except Exn Unit) (i : String) :
    (d.updateUsername deviceTag username publish).1.encryptionKey i = d.encryptionKey i := by
  rcases d.updateUsername_cases deviceTag username publish with h | ⟨current, hcurrent, h⟩
  · rw [h]
  rw [h, encryptionKey, encryptionKey]
  by_cases hi : i = current.deviceId
  · subst hi
    rw [(hd.tag hcurrent).2]
    rcases d.byId_apply _ with happly | happly
    · rw [happly, Function.update_self]
      rfl
    · rw [happly, (hd.tag hcurrent).2]
  · exact congrArg _ (byId_apply_of_ne hi)

end Directory

end SecNet
