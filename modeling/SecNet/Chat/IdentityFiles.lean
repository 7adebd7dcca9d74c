import SecNet.Handshake.Handshake
import SecNet.Lib.OnceFile
import SecNet.Lib.Transition

/-!
# The files of a device

The client and the agent of a device load its keys from the same two files, or create them
(`load_or_create`), each as one of several processes that may be interrupted anywhere. What a key
draws is an argument of it.

* `loadOrCreate_run`: the function is what a process does that is alone;
* `identities_agree`: in whatever order the processes go on, those that return have one identity;
* `identity_durable`: where writes are whole, what is returned is loaded from then on; and it is
  made impossible to load an identity by a process that is interrupted between creating a file and
  writing to it, and by nothing else.
-/

namespace SecNet

open OnceFile

variable {C : Crypto} {ι : Type}

/-- The raw encodings of private keys. -/
structure KeyCodes (C : Crypto) where
  ed25519 : FixedCode C.Ed25519Private UInt8
  x25519 : FixedCode C.X25519Private UInt8
  size_ed25519 : ed25519.size = 32
  size_x25519 : x25519.size = 32

/-- The contents of `key_path` and of `direct_path`. -/
structure KeyFiles where
  seed : Option Bytes
  direct : Option Bytes
  deriving DecidableEq

/-- The keys that are drawn where there is no file. -/
structure DrawnKeys (C : Crypto) where
  seed : C.Ed25519Private
  direct : C.X25519Private

/-! ## A process that is alone -/

/-- One key of `load_or_create`, and its file: what the file has, or else what is drawn. -/
def loadKey {K : Type} (code : FixedCode K UInt8) (text : String) (drawn : K) :
    Option Bytes → Except Exn K × Option Bytes
  | some raw =>
    (if raw.length ≠ code.size then .error (.valueError text) else .ok (code.decode raw), some raw)
  | none => (.ok drawn, some (code.encode drawn))

/-- What is raised for a file of the wrong size. -/
def seedError (keyPath : String) : String :=
  s!"device key must contain a 32-byte seed: {keyPath}"

/-- What is raised for a second file of the wrong size. -/
def directError (keyPath : String) : String :=
  s!"direct encryption key must contain 32 bytes: {keyPath}.direct"

/-- `DeviceIdentity.load_or_create`, with the files after it. -/
def loadOrCreate (codes : KeyCodes C) (keyPath : String) (drawn : DrawnKeys C) (files : KeyFiles) :
    Except Exn (DeviceIdentity C) × KeyFiles :=
  match loadKey codes.ed25519 (seedError keyPath) drawn.seed files.seed with
  | (.error e, seed) => (.error e, { files with seed })
  | (.ok privateKey, seed) =>
    match loadKey codes.x25519 (directError keyPath) drawn.direct files.direct with
    | (.error e, direct) => (.error e, ⟨seed, direct⟩)
    | (.ok directPrivate, direct) => (.ok ⟨privateKey, directPrivate⟩, ⟨seed, direct⟩)

/-- A file is broken: it has something else than a key. -/
def Broken (file : Option Bytes) : Prop := ∃ raw, file = some raw ∧ raw.length ≠ 32

section Alone

variable (codes : KeyCodes C) (keyPath : String) (drawn : DrawnKeys C) {files : KeyFiles}

theorem loadOrCreate_fst : (loadOrCreate codes keyPath drawn files).1 = (do
    let privateKey ← (loadKey codes.ed25519 (seedError keyPath) drawn.seed files.seed).1
    let directPrivate ← (loadKey codes.x25519 (directError keyPath) drawn.direct files.direct).1
    return ⟨privateKey, directPrivate⟩) := by
  rw [loadOrCreate]
  rcases loadKey codes.ed25519 (seedError keyPath) drawn.seed files.seed with ⟨e | k, seed⟩
  · rfl
  · rcases loadKey codes.x25519 (directError keyPath) drawn.direct files.direct with
      ⟨e | k', direct⟩ <;> rfl

theorem loadKey_of_broken {K : Type} {code : FixedCode K UInt8} (hcode : code.size = 32)
    (text : String) (drawn : K) {file : Option Bytes} (h : Broken file) :
    (loadKey code text drawn file).1 = .error (.valueError text) := by
  obtain ⟨raw, rfl, hraw⟩ := h
  rw [loadKey, if_pos (hcode ▸ hraw)]

theorem loadKey_of_not_broken {K : Type} {code : FixedCode K UInt8} (hcode : code.size = 32)
    (text : String) (drawn : K) {file : Option Bytes} (h : ¬Broken file) :
    ∃ k, (loadKey code text drawn file).1 = .ok k := by
  rcases file with _ | raw
  · exact ⟨drawn, rfl⟩
  · refine ⟨code.decode raw, if_neg fun hraw => h ⟨raw, rfl, hcode ▸ hraw⟩⟩

/-- A broken file is never repaired. -/
theorem loadOrCreate_of_broken (h : Broken files.seed ∨ Broken files.direct) :
    (loadOrCreate codes keyPath drawn files).1 = .error (.valueError (seedError keyPath)) ∨
      (loadOrCreate codes keyPath drawn files).1 = .error (.valueError (directError keyPath)) := by
  rw [loadOrCreate_fst]
  by_cases hseed : Broken files.seed
  · rw [loadKey_of_broken codes.size_ed25519 _ _ hseed]
    exact .inl rfl
  · obtain ⟨k, hk⟩ := loadKey_of_not_broken codes.size_ed25519 (seedError keyPath) drawn.seed hseed
    rw [hk, loadKey_of_broken codes.size_x25519 _ _ (h.resolve_left hseed)]
    exact .inr rfl

theorem loadOrCreate_of_not_broken (hseed : ¬Broken files.seed) (hdirect : ¬Broken files.direct) :
    ∃ d, (loadOrCreate codes keyPath drawn files).1 = .ok d := by
  obtain ⟨k, hk⟩ := loadKey_of_not_broken codes.size_ed25519 (seedError keyPath) drawn.seed hseed
  obtain ⟨k', hk'⟩ :=
    loadKey_of_not_broken codes.size_x25519 (directError keyPath) drawn.direct hdirect
  rw [loadOrCreate_fst, hk, hk']
  exact ⟨⟨k, k'⟩, rfl⟩

/-- Where both files have keys, they are loaded, and the files are left as they are. -/
theorem loadOrCreate_whole {seed direct : Bytes} (hseed : seed.length = codes.ed25519.size)
    (hdirect : direct.length = codes.x25519.size) :
    loadOrCreate codes keyPath drawn ⟨some seed, some direct⟩ =
      (.ok ⟨codes.ed25519.decode seed, codes.x25519.decode direct⟩, ⟨some seed, some direct⟩) := by
  rw [loadOrCreate, loadKey, if_neg (not_not.2 hseed)]
  dsimp only
  rw [loadKey, if_neg (not_not.2 hdirect)]

end Alone

/-! ## Several processes -/

/-- Where a process is with the two files. -/
structure Loading (C : Crypto) where
  seed : Pc C.Ed25519Private
  direct : Pc C.X25519Private

def Loading.start : Loading C := ⟨.looking, .looking⟩

/-- What a process has returned. -/
def Loading.returned (p : Loading C) : Option (DeviceIdentity C) :=
  match p.seed, p.direct with
  | .obtained privateKey, .obtained directPrivate => some ⟨privateKey, directPrivate⟩
  | _, _ => none

theorem Loading.returned_eq_some {p : Loading C} {d : DeviceIdentity C} :
    p.returned = some d ↔
      p.seed = .obtained d.privateKey ∧ p.direct = .obtained d.directPrivateKey := by
  constructor
  · intro h
    rw [returned] at h
    split at h
    case h_1 k k' hseed hdirect =>
      obtain rfl := Option.some.inj h
      exact ⟨hseed, hdirect⟩
    case h_2 => cases h
  · rintro ⟨hseed, hdirect⟩
    rw [returned, hseed, hdirect]

/-- A process is writing to a file. -/
def Loading.Writing (p : Loading C) : Prop :=
  (∃ k, p.seed = .writing k) ∨ ∃ k, p.direct = .writing k

/-- A process has been interrupted between creating a file and writing to it. -/
def Loading.Interrupted (p : Loading C) : Prop := p.seed = .abandoned ∨ p.direct = .abandoned

/-- What a process does. -/
inductive LoadAct (C : Crypto)
  | seed (act : Act C.Ed25519Private)
  | direct (act : Act C.X25519Private)

/-- A write writes all of the key. -/
def LoadAct.Whole : LoadAct C → Prop
  | .seed (.write n) | .direct (.write n) => 32 ≤ n
  | _ => True

instance : DecidablePred (LoadAct.Whole (C := C))
  | .seed (.write _) | .direct (.write _) => inferInstanceAs (Decidable (_ ≤ _))
  | .seed (.look _) | .seed .read | .seed .create | .seed .raise => .isTrue trivial
  | .direct (.look _) | .direct .read | .direct .create | .direct .raise => .isTrue trivial

/-- Each file is absent, or has a key. -/
def KeyFiles.Sound (files : KeyFiles) : Prop :=
  (∀ raw, files.seed = some raw → raw.length = 32) ∧
    ∀ raw, files.direct = some raw → raw.length = 32

/-- The files of a device, and the processes that load its keys. -/
structure DeviceFiles (C : Crypto) (ι : Type) where
  files : KeyFiles
  pc : ι → Loading C

namespace DeviceFiles

variable [DecidableEq ι]

/-- The first file, and the process with it, have changed. -/
def withSeed (s : DeviceFiles C ι) (i : ι) (r : Option Bytes × Pc C.Ed25519Private) :
    DeviceFiles C ι :=
  ⟨{ s.files with seed := r.1 }, Function.update s.pc i { s.pc i with seed := r.2 }⟩

/-- The second file, and the process with it, have changed. -/
def withDirect (s : DeviceFiles C ι) (i : ι) (r : Option Bytes × Pc C.X25519Private) :
    DeviceFiles C ι :=
  ⟨{ s.files with direct := r.1 }, Function.update s.pc i { s.pc i with direct := r.2 }⟩

variable (codes : KeyCodes C)

/-- A process does something; it comes to the second file when it has the key of the first. -/
def step (s : DeviceFiles C ι) : ι × LoadAct C → Option (DeviceFiles C ι)
  | (i, .seed act) =>
    (next codes.ed25519 s.files.seed (s.pc i).seed act).map (s.withSeed i)
  | (i, .direct act) =>
    match (s.pc i).seed with
    | .obtained _ => (next codes.x25519 s.files.direct (s.pc i).direct act).map (s.withDirect i)
    | _ => none

/-- The processes that start with some files. -/
def system (files : KeyFiles) : System (DeviceFiles C ι) (ι × LoadAct C) :=
  .ofPartial (· = ⟨files, fun _ => .start⟩) (step codes)

variable {codes} {s s' : DeviceFiles C ι} {i : ι}

@[simp] theorem pc_withSeed (r : Option Bytes × Pc C.Ed25519Private) :
    (s.withSeed i r).pc i = { s.pc i with seed := r.2 } :=
  Function.update_self ..

@[simp] theorem pc_withDirect (r : Option Bytes × Pc C.X25519Private) :
    (s.withDirect i r).pc i = { s.pc i with direct := r.2 } :=
  Function.update_self ..

@[simp] theorem withSeed_withSeed (r r' : Option Bytes × Pc C.Ed25519Private) :
    (s.withSeed i r).withSeed i r' = s.withSeed i r' := by
  simp only [withSeed, Function.update_self, Function.update_idem]

@[simp] theorem withDirect_withDirect (r r' : Option Bytes × Pc C.X25519Private) :
    (s.withDirect i r).withDirect i r' = s.withDirect i r' := by
  simp only [withDirect, Function.update_self, Function.update_idem]

theorem withSeed_self {p : Pc C.Ed25519Private} (hp : (s.pc i).seed = p) :
    s.withSeed i (s.files.seed, p) = s := by
  subst hp
  exact congrArg (DeviceFiles.mk s.files) (Function.update_eq_self i s.pc)

theorem withDirect_self {p : Pc C.X25519Private} (hp : (s.pc i).direct = p) :
    s.withDirect i (s.files.direct, p) = s := by
  subst hp
  exact congrArg (DeviceFiles.mk s.files) (Function.update_eq_self i s.pc)

/-- One of the two files is stepped, and the other one is left alone. -/
theorem step_cases {act : LoadAct C} (h : step codes s (i, act) = some s') :
    (∃ a file p, act = .seed a ∧
      next codes.ed25519 s.files.seed (s.pc i).seed a = some (file, p) ∧
      s'.files = { s.files with seed := file } ∧
      Loading.seed ∘ s'.pc = Function.update (Loading.seed ∘ s.pc) i p ∧
      Loading.direct ∘ s'.pc = Loading.direct ∘ s.pc) ∨
    ∃ a file p, act = .direct a ∧
      next codes.x25519 s.files.direct (s.pc i).direct a = some (file, p) ∧
      s'.files = { s.files with direct := file } ∧
      Loading.seed ∘ s'.pc = Loading.seed ∘ s.pc ∧
      Loading.direct ∘ s'.pc = Function.update (Loading.direct ∘ s.pc) i p := by
  cases act with
  | seed a =>
    obtain ⟨⟨file, p⟩, hnext, rfl⟩ := Option.map_eq_some_iff.1 h
    refine .inl ⟨a, file, p, rfl, hnext, rfl, Function.comp_update .., ?_⟩
    rw [withSeed, Function.comp_update]
    exact Function.update_eq_self ..
  | direct a =>
    rw [step] at h
    split at h
    · obtain ⟨⟨file, p⟩, hnext, rfl⟩ := Option.map_eq_some_iff.1 h
      refine .inr ⟨a, file, p, rfl, hnext, rfl, ?_, Function.comp_update ..⟩
      rw [withDirect, Function.comp_update]
      exact Function.update_eq_self ..
    · cases h

/-! ## Agreement -/

/-- The processes agree on both keys. -/
def Agree (codes : KeyCodes C) (s : DeviceFiles C ι) : Prop :=
  Agrees codes.ed25519 s.files.seed (Loading.seed ∘ s.pc) ∧
    Agrees codes.x25519 s.files.direct (Loading.direct ∘ s.pc)

theorem Agree.step {act : LoadAct C} (h : s.Agree codes)
    (hstep : DeviceFiles.step codes s (i, act) = some s') : s'.Agree codes := by
  obtain ⟨a, file, p, -, hnext, hfiles, hseed, hdirect⟩ |
    ⟨a, file, p, -, hnext, hfiles, hseed, hdirect⟩ := step_cases hstep
  all_goals rw [Agree, hfiles, hseed, hdirect]
  · exact ⟨h.1.next hnext, h.2⟩
  · exact ⟨h.1, h.2.next hnext⟩

/-- Both files settle. -/
def Settled (codes : KeyCodes C) (s : DeviceFiles C ι) : Prop :=
  Settles codes.ed25519 s.files.seed (Loading.seed ∘ s.pc) ∧
    Settles codes.x25519 s.files.direct (Loading.direct ∘ s.pc)

theorem Settled.step {act : LoadAct C} (h : s.Settled codes)
    (hstep : DeviceFiles.step codes s (i, act) = some s') (hact : act.Whole) :
    s'.Settled codes := by
  obtain ⟨a, file, p, rfl, hnext, hfiles, hseed, hdirect⟩ |
    ⟨a, file, p, rfl, hnext, hfiles, hseed, hdirect⟩ := step_cases hstep
  all_goals rw [Settled, hfiles, hseed, hdirect]
  · refine ⟨h.1.next hnext ?_, h.2⟩
    rintro n rfl
    exact codes.size_ed25519.trans_le hact
  · refine ⟨h.1, h.2.next hnext ?_⟩
    rintro n rfl
    exact codes.size_x25519.trans_le hact

theorem agree_reachable {files : KeyFiles} (h : (system codes files).Reachable s) :
    s.Agree codes :=
  h.invariant (fun _ hinit => hinit ▸ ⟨agrees_looking fun _ => rfl, agrees_looking fun _ => rfl⟩)
    fun _ _ _ hagree hstep => hagree.step hstep

/-- The processes whose writes are whole. -/
abbrev wholeSystem (codes : KeyCodes C) (files : KeyFiles) :
    System (DeviceFiles C ι) (ι × LoadAct C) :=
  (system codes files).restrict fun _ l => l.2.Whole

theorem settled_reachable {files : KeyFiles} (hfiles : files.Sound)
    (h : (wholeSystem codes files).Reachable s) : s.Settled codes := by
  refine h.invariant (fun _ hinit => hinit ▸ ?_) fun _ _ _ hsettled hstep =>
    hsettled.step hstep.1 hstep.2
  refine ⟨settles_looking ?_ fun _ => rfl, settles_looking ?_ fun _ => rfl⟩
  · rw [codes.size_ed25519]
    exact hfiles.1
  · rw [codes.size_x25519]
    exact hfiles.2

/-! ## A process alone -/

/-- The steps of one process with the first file. -/
theorem run_seed (files : KeyFiles) {acts : List (Act C.Ed25519Private)}
    (hacts : ∀ a ∈ acts, (LoadAct.seed a : LoadAct C).Whole)
    {r r' : Option Bytes × Pc C.Ed25519Private}
    (h : acts.foldlM (fun r a => next codes.ed25519 r.1 r.2 a) r = some r') :
    (wholeSystem codes files).Run (s.withSeed i r) (acts.map fun a => (i, .seed a))
      (s.withSeed i r') := by
  induction acts generalizing r with
  | nil =>
    obtain rfl := Option.some.inj h
    exact .nil _
  | cons a acts ih =>
    rw [List.foldlM_cons, Option.bind_eq_bind, Option.bind_eq_some_iff] at h
    obtain ⟨r₁, hnext, h⟩ := h
    rw [List.forall_mem_cons] at hacts
    have hstep : step codes (s.withSeed i r) (i, .seed a) = some (s.withSeed i r₁) := by
      rw [step, pc_withSeed]
      exact (congrArg (Option.map _) hnext).trans (congrArg some (withSeed_withSeed r r₁))
    exact .cons ⟨hstep, hacts.1⟩ (ih hacts.2 h)

/-- The steps of one process with the second file. -/
theorem run_direct (files : KeyFiles) {acts : List (Act C.X25519Private)}
    (hacts : ∀ a ∈ acts, (LoadAct.direct a : LoadAct C).Whole)
    {k : C.Ed25519Private} (hk : (s.pc i).seed = .obtained k)
    {r r' : Option Bytes × Pc C.X25519Private}
    (h : acts.foldlM (fun r a => next codes.x25519 r.1 r.2 a) r = some r') :
    (wholeSystem codes files).Run (s.withDirect i r) (acts.map fun a => (i, .direct a))
      (s.withDirect i r') := by
  induction acts generalizing r with
  | nil =>
    obtain rfl := Option.some.inj h
    exact .nil _
  | cons a acts ih =>
    rw [List.foldlM_cons, Option.bind_eq_bind, Option.bind_eq_some_iff] at h
    obtain ⟨r₁, hnext, h⟩ := h
    rw [List.forall_mem_cons] at hacts
    have hstep : step codes (s.withDirect i r) (i, .direct a) = some (s.withDirect i r₁) := by
      rw [step, pc_withDirect, hk]
      exact (congrArg (Option.map _) hnext).trans (congrArg some (withDirect_withDirect r r₁))
    exact .cons ⟨hstep, hacts.1⟩ (ih hacts.2 h)

end DeviceFiles

/-- Where a process is that has one key. -/
def outcome {K : Type} : Except Exn K → Pc K
  | .ok k => .obtained k
  | .error _ => .failed

/-- The steps of a process that loads one key: it reads the file, or creates it and writes. -/
def loadActs {K : Type} (code : FixedCode K UInt8) (drawn : K) : Option Bytes → List (Act K)
  | some _ => [.look drawn, .read]
  | none => [.look drawn, .create, .write code.size]

theorem loadKey_run {K : Type} (code : FixedCode K UInt8) (text : String) (drawn : K)
    (file : Option Bytes) :
    (loadActs code drawn file).foldlM (fun r a => next code r.1 r.2 a) (file, .looking) =
      some ((loadKey code text drawn file).2, outcome (loadKey code text drawn file).1) := by
  rcases file with _ | raw
  · have htake : (code.encode drawn).take code.size = code.encode drawn :=
      List.take_of_length_le (code.length_encode drawn).le
    simp [loadActs, loadKey, outcome, next, htake]
  · by_cases hsize : raw.length = code.size
    · simp [loadActs, loadKey, outcome, next, hsize]
    · simp [loadActs, loadKey, outcome, next, hsize]

variable [DecidableEq ι] (codes : KeyCodes C) (keyPath : String) (drawn : DrawnKeys C)

theorem whole_loadActs_seed (file : Option Bytes) :
    ∀ a ∈ loadActs codes.ed25519 drawn.seed file, (LoadAct.seed a : LoadAct C).Whole := by
  rcases file with _ | raw <;> simp [loadActs, LoadAct.Whole, codes.size_ed25519]

theorem whole_loadActs_direct (file : Option Bytes) :
    ∀ a ∈ loadActs codes.x25519 drawn.direct file, (LoadAct.direct a : LoadAct C).Whole := by
  rcases file with _ | raw <;> simp [loadActs, LoadAct.Whole, codes.size_x25519]

/-- A process that goes on alone does what `load_or_create` does. -/
theorem loadOrCreate_run (files : KeyFiles) {s : DeviceFiles C ι} {i : ι} (hi : s.pc i = .start) :
    ∃ (acts : List (LoadAct C)) (p : Loading C),
      (DeviceFiles.wholeSystem codes files).Run s (acts.map fun a => (i, a))
        ⟨(loadOrCreate codes keyPath drawn s.files).2, Function.update s.pc i p⟩ ∧
      p.returned = (loadOrCreate codes keyPath drawn s.files).1.toOption := by
  have hseed := DeviceFiles.run_seed (s := s) (i := i) files
    (whole_loadActs_seed codes drawn s.files.seed)
    (loadKey_run codes.ed25519 (seedError keyPath) drawn.seed s.files.seed)
  rw [DeviceFiles.withSeed_self (by rw [hi]; rfl)] at hseed
  rw [loadOrCreate]
  rcases hload : loadKey codes.ed25519 (seedError keyPath) drawn.seed s.files.seed with
    ⟨e | privateKey, seed⟩
  all_goals rw [hload] at hseed
  · refine ⟨(loadActs codes.ed25519 drawn.seed s.files.seed).map .seed,
      { s.pc i with seed := .failed }, ?_, rfl⟩
    rw [List.map_map]
    exact hseed
  · -- The process goes on with the second file.
    set s₁ := s.withSeed i (seed, .obtained privateKey)
    have hpc₁ : s₁.pc i = ⟨.obtained privateKey, .looking⟩ := by
      rw [DeviceFiles.pc_withSeed, hi]
      rfl
    have hs₁ : s₁.withDirect i (s.files.direct, .looking) = s₁ :=
      DeviceFiles.withDirect_self (by rw [hpc₁])
    have hdirect := DeviceFiles.run_direct (s := s₁) (i := i) files
      (whole_loadActs_direct codes drawn s.files.direct) (by rw [hpc₁])
      (loadKey_run codes.x25519 (directError keyPath) drawn.direct s.files.direct)
    have hs₂ (r : Option Bytes × Pc C.X25519Private) : s₁.withDirect i r =
        ⟨⟨seed, r.1⟩, Function.update s.pc i ⟨.obtained privateKey, r.2⟩⟩ := by
      rw [DeviceFiles.withDirect, hpc₁]
      exact congrArg (DeviceFiles.mk _) (Function.update_idem ..)
    rw [hs₁, hs₂] at hdirect
    have hrun := hseed.append hdirect
    refine ⟨(loadActs codes.ed25519 drawn.seed s.files.seed).map .seed ++
      (loadActs codes.x25519 drawn.direct s.files.direct).map .direct,
      ⟨.obtained privateKey,
        outcome (loadKey codes.x25519 (directError keyPath) drawn.direct s.files.direct).1⟩, ?_⟩
    rw [List.map_append, List.map_map, List.map_map]
    dsimp only
    generalize loadKey codes.x25519 (directError keyPath) drawn.direct s.files.direct = r at hrun ⊢
    rcases r with ⟨e | directPrivate, direct⟩
    · exact ⟨hrun, rfl⟩
    · exact ⟨hrun, rfl⟩

/-! ## The identity -/

omit [DecidableEq ι] in
theorem DeviceFiles.Settled.broken_iff {s : DeviceFiles C ι} (h : s.Settled codes)
    (hquiet : ∀ i, ¬(s.pc i).Writing) :
    (Broken s.files.seed ∨ Broken s.files.direct) ↔ ∃ i, (s.pc i).Interrupted := by
  have hseed := h.1.broken_iff fun i k hi => hquiet i (.inl ⟨k, hi⟩)
  have hdirect := h.2.broken_iff fun i k hi => hquiet i (.inr ⟨k, hi⟩)
  rw [codes.size_ed25519] at hseed
  rw [codes.size_x25519] at hdirect
  rw [Broken, hseed, Broken, hdirect, ← exists_or]
  rfl

/-- Wherever the processes are interrupted, and whatever they find, those that return have the
    same identity. -/
theorem identities_agree (files : KeyFiles) {s : DeviceFiles C ι}
    (h : (DeviceFiles.system codes files).Reachable s) {i j : ι} {d d' : DeviceIdentity C}
    (hi : (s.pc i).returned = some d) (hj : (s.pc j).returned = some d') : d = d' := by
  obtain ⟨hseed, hdirect⟩ := DeviceFiles.agree_reachable h
  obtain ⟨hi, hi'⟩ := Loading.returned_eq_some.1 hi
  obtain ⟨hj, hj'⟩ := Loading.returned_eq_some.1 hj
  calc d = ⟨d.privateKey, d.directPrivateKey⟩ := rfl
    _ = ⟨d'.privateKey, d'.directPrivateKey⟩ := by
      rw [hseed.obtained i j _ _ hi hj, hdirect.obtained i j _ _ hi' hj']
    _ = d' := rfl

omit [DecidableEq ι] in
/-- The identity that a process has returned is the one that is loaded. -/
theorem DeviceFiles.Settled.load_of_returned {s : DeviceFiles C ι} (h : s.Settled codes) {i : ι}
    {d : DeviceIdentity C} (hi : (s.pc i).returned = some d) :
    loadOrCreate codes keyPath drawn s.files = (.ok d, s.files) := by
  obtain ⟨hseed, hdirect⟩ := Loading.returned_eq_some.1 hi
  obtain ⟨seed, hseedFile, hseedSize, hseed⟩ := h.1.file_eq hseed
  obtain ⟨direct, hdirectFile, hdirectSize, hdirect⟩ := h.2.file_eq hdirect
  have hfiles : s.files = ⟨some seed, some direct⟩ := by rw [← hseedFile, ← hdirectFile]
  rw [hfiles, loadOrCreate_whole codes keyPath drawn hseedSize hdirectSize, hseed, hdirect]

omit [DecidableEq ι] in
/-- Where a process has been interrupted, none has returned. -/
theorem DeviceFiles.Settled.returned_of_interrupted {s : DeviceFiles C ι} (h : s.Settled codes)
    {i : ι} (hi : (s.pc i).Interrupted) (j : ι) : (s.pc j).returned = none := by
  rw [Option.eq_none_iff_forall_ne_some]
  intro d hj
  obtain ⟨hseed, hdirect⟩ := Loading.returned_eq_some.1 hj
  obtain ⟨seed, hseedFile, hseedSize, -⟩ := h.1.file_eq hseed
  obtain ⟨direct, hdirectFile, hdirectSize, -⟩ := h.2.file_eq hdirect
  rcases hi with hi | hi
  · rw [h.1.abandoned i hi] at hseedFile
    cases hseedFile
    exact codes.ed25519.size_pos.ne hseedSize
  · rw [h.2.abandoned i hi] at hdirectFile
    cases hdirectFile
    exact codes.x25519.size_pos.ne hdirectSize

/-- Keys of one byte, which it is repeated in. -/
def plainCode : FixedCode UInt8 UInt8 where
  size := 32
  size_pos := by norm_num
  encode k := k :: List.replicate 31 k
  decode raw := raw.headD 0
  length_encode k := by simp
  decode_encode _ := rfl

def plainCodes : KeyCodes plainCrypto := ⟨plainCode, plainCode, rfl, rfl⟩

/-- The client creates the first file before the agent does, which is started again while the
    client creates the second one. -/
def startedTwice : List (Fin 3 × LoadAct plainCrypto) :=
  [(0, .seed (.look (1 : UInt8))), (1, .seed (.look (2 : UInt8))), (0, .seed .create),
    (1, .seed .create), (0, .seed (.write 32)), (2, .seed (.look (3 : UInt8))), (2, .seed .read),
    (0, .direct (.look (4 : UInt8))), (0, .direct .create), (0, .direct (.write 32)),
    (2, .direct (.look (5 : UInt8))), (2, .direct .read)]

theorem isSome_startedTwice : (startedTwice.foldlM
    (System.guarded (DeviceFiles.step plainCodes) fun _ l => l.2.Whole)
      ⟨⟨none, none⟩, fun _ => .start⟩).isSome := by
  decide

/-- Where they are then. -/
def afterStartedTwice : DeviceFiles plainCrypto (Fin 3) := Option.get _ isSome_startedTwice

theorem reachable_afterStartedTwice :
    (DeviceFiles.wholeSystem plainCodes ⟨none, none⟩).Reachable afterStartedTwice :=
  ⟨_, startedTwice, rfl, .ofPartial_foldlM (Option.some_get isSome_startedTwice).symm⟩

theorem identities_agree_startedTwice : ∃ d, (afterStartedTwice.pc 0).returned = some d ∧
    (afterStartedTwice.pc 2).returned = some d := by
  have hclient : (afterStartedTwice.pc 0).returned.isSome := by decide
  have hagent : (afterStartedTwice.pc 2).returned.isSome := by decide
  obtain ⟨d, hd⟩ := Option.isSome_iff_exists.1 hclient
  obtain ⟨d', hd'⟩ := Option.isSome_iff_exists.1 hagent
  obtain rfl := identities_agree plainCodes ⟨none, none⟩ (.of_restrict reachable_afterStartedTwice)
    hd hd'
  exact ⟨d, hd, hd'⟩

/-- Where writes are whole, and the files have been absent or whole: the identity that a process
    has returned is loaded from then on. One that has been interrupted between creating a file and
    writing to it makes it impossible to load one; and while nobody is writing, nothing else
    does. -/
theorem identity_durable {files : KeyFiles} (hfiles : files.Sound) {s : DeviceFiles C ι}
    (h : (DeviceFiles.wholeSystem codes files).Reachable s) :
    (∀ i d, (s.pc i).returned = some d →
      loadOrCreate codes keyPath drawn s.files = (.ok d, s.files)) ∧
    ((∃ i, (s.pc i).Interrupted) → (∀ j, (s.pc j).returned = none) ∧
      ((loadOrCreate codes keyPath drawn s.files).1 = .error (.valueError (seedError keyPath)) ∨
        (loadOrCreate codes keyPath drawn s.files).1 =
          .error (.valueError (directError keyPath)))) ∧
    ((∀ i, ¬(s.pc i).Writing ∧ ¬(s.pc i).Interrupted) →
      ∃ d, (loadOrCreate codes keyPath drawn s.files).1 = .ok d) := by
  have hsettled := DeviceFiles.settled_reachable hfiles h
  refine ⟨fun i d hi => hsettled.load_of_returned codes keyPath drawn hi, ?_, fun hquiet => ?_⟩
  · rintro ⟨i, hi⟩
    refine ⟨hsettled.returned_of_interrupted codes hi,
      loadOrCreate_of_broken codes keyPath drawn ?_⟩
    exact hi.imp (fun hi => ⟨[], hsettled.1.abandoned i hi, by simp⟩)
      fun hi => ⟨[], hsettled.2.abandoned i hi, by simp⟩
  · have hbroken := hsettled.broken_iff codes fun i => (hquiet i).1
    have hnone : ¬∃ i, (s.pc i).Interrupted := fun ⟨i, hi⟩ => (hquiet i).2 hi
    rw [← hbroken, not_or] at hnone
    exact loadOrCreate_of_not_broken codes keyPath drawn hnone.1 hnone.2

/-- The client is killed between creating the first file and writing to it. -/
def killed : List (Fin 3 × LoadAct plainCrypto) :=
  [(0, .seed (.look (1 : UInt8))), (0, .seed .create), (1, .seed (.look (2 : UInt8))),
    (1, .seed .read), (0, .seed .raise)]

theorem isSome_killed : (killed.foldlM
    (System.guarded (DeviceFiles.step plainCodes) fun _ l => l.2.Whole)
      ⟨⟨none, none⟩, fun _ => .start⟩).isSome := by
  decide

/-- The files then. -/
def afterKilled : DeviceFiles plainCrypto (Fin 3) := Option.get _ isSome_killed

/-- No device is made of the files any more; where nobody was killed, one is. -/
theorem identity_durable_killed :
    (∃ e, (loadOrCreate plainCodes "device.key" ⟨(3 : UInt8), (4 : UInt8)⟩
      afterKilled.files).1 = .error e) ∧
    ∃ d, loadOrCreate plainCodes "device.key" ⟨(3 : UInt8), (4 : UInt8)⟩ afterStartedTwice.files =
      (.ok d, afterStartedTwice.files) := by
  have hsound : (⟨none, none⟩ : KeyFiles).Sound := ⟨by simp, by simp⟩
  have hkilled : (DeviceFiles.wholeSystem plainCodes ⟨none, none⟩).Reachable afterKilled :=
    ⟨_, killed, rfl, .ofPartial_foldlM (Option.some_get isSome_killed).symm⟩
  have hinterrupted : (afterKilled.pc 0).seed = .abandoned := rfl
  obtain ⟨-, hlost, -⟩ :=
    identity_durable plainCodes "device.key" ⟨(3 : UInt8), (4 : UInt8)⟩ hsound hkilled
  obtain ⟨hkept, -, -⟩ := identity_durable plainCodes "device.key" ⟨(3 : UInt8), (4 : UInt8)⟩
    hsound reachable_afterStartedTwice
  have hclient : (afterStartedTwice.pc 0).returned.isSome := by decide
  obtain ⟨d, hd⟩ := Option.isSome_iff_exists.1 hclient
  exact ⟨(hlost ⟨0, .inl hinterrupted⟩).2.elim (⟨_, ·⟩) (⟨_, ·⟩), d, hkept 0 d hd⟩

end SecNet
