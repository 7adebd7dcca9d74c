import Mathlib.Tactic

/-!
# A map that is saved to files

Each value of a map is written to a file when it is set. The name of the file is made of the key,
not always a different one for each key, and when the files are loaded the key is read from the
value.

* `load_eq_some`: what is loaded is read from some file;
* `Kept.persists`: a map whose values are all in the files of their keys is loaded as it is;
* `persists_set_iff`: setting a value keeps this so, exactly when the value is read back with its
  key, and no other key has the name of its file.
-/

namespace SecNet

variable {K V N : Type*}

/-- A map, and its files by their names. -/
structure FileMap (K V N : Type*) where
  values : K → Option V
  files : N → Option V

namespace FileMap

/-- The names of the files. -/
def Lists (files : N → Option V) (names : List N) : Prop := ∀ n, n ∈ names ↔ (files n).isSome

variable [DecidableEq K] (reload : V → Option (K × V))

/-- The map, when a file has been loaded. -/
def loadFile (files : N → Option V) (values : K → Option V) (n : N) : K → Option V :=
  match (files n).bind reload with
  | some (k, v) => Function.update values k (some v)
  | none => values

/-- The map of some files, loaded in the order of their names. -/
def load (files : N → Option V) (names : List N) : K → Option V :=
  names.foldl (loadFile reload files) fun _ => none

/-- In whatever order, the files are loaded as the map. -/
def Persists (m : FileMap K V N) : Prop :=
  ∀ names, Lists m.files names → load reload m.files names = m.values

variable {reload} {files : N → Option V} {values : K → Option V}

theorem loadFile_eq_some {n : N} {k : K} {v : V}
    (h : loadFile reload files values n k = some v) :
    (files n).bind reload = some (k, v) ∨ values k = some v := by
  rw [loadFile] at h
  rcases hfile : (files n).bind reload with _ | ⟨k', v'⟩
  · rw [hfile] at h
    exact .inr h
  · rw [hfile] at h
    dsimp only at h
    by_cases hk : k = k'
    · subst hk
      rw [Function.update_self] at h
      exact .inl (by rw [Option.some.inj h])
    · rw [Function.update_of_ne hk] at h
      exact .inr h

theorem isSome_loadFile {n : N} {k : K}
    (h : (∃ v, (files n).bind reload = some (k, v)) ∨ (values k).isSome) :
    (loadFile reload files values n k).isSome := by
  rw [loadFile]
  rcases h with ⟨v, hfile⟩ | hvalue
  · rw [hfile]
    dsimp only
    rw [Function.update_self, Option.isSome_some]
  · rcases (files n).bind reload with _ | ⟨k', v'⟩
    · exact hvalue
    · dsimp only
      by_cases hk : k = k'
      · subst hk
        rw [Function.update_self, Option.isSome_some]
      · rwa [Function.update_of_ne hk]

/-- What is loaded is read from a file. -/
theorem load_eq_some {names : List N} {k : K} {v : V} (h : load reload files names k = some v) :
    ∃ n ∈ names, (files n).bind reload = some (k, v) := by
  rw [load] at h
  induction names using List.reverseRecOn with
  | nil => cases h
  | append_singleton names n ih =>
    rw [List.foldl_append, List.foldl_cons, List.foldl_nil] at h
    rcases loadFile_eq_some h with hfile | h
    · exact ⟨n, by simp, hfile⟩
    · obtain ⟨n', hn', hfile⟩ := ih h
      exact ⟨n', List.mem_append_left _ hn', hfile⟩

/-- The key of every file has a value. -/
theorem isSome_load {names : List N} {n : N} (hn : n ∈ names) {k : K} {v : V}
    (hfile : (files n).bind reload = some (k, v)) : (load reload files names k).isSome := by
  rw [load]
  induction names using List.reverseRecOn with
  | nil => cases hn
  | append_singleton names n' ih =>
    rw [List.foldl_append, List.foldl_cons, List.foldl_nil]
    rcases List.mem_append.1 hn with hn | hn
    · exact isSome_loadFile (.inr (ih hn))
    · obtain rfl := List.mem_singleton.1 hn
      exact isSome_loadFile (.inl ⟨v, hfile⟩)

/-- A map that is loaded from one file has at most one value. -/
theorem Persists.eq_of_lists {m : FileMap K V N} (h : m.Persists reload) {n : N}
    (hn : Lists m.files [n]) {k k' : K} (hk : (m.values k).isSome) (hk' : (m.values k').isSome) :
    k = k' := by
  have hfile : ∀ k, (m.values k).isSome → ∃ v, (m.files n).bind reload = some (k, v) := by
    intro k hk
    obtain ⟨v, hv⟩ := Option.isSome_iff_exists.1 hk
    rw [← h [n] hn] at hv
    obtain ⟨n', hn', hfile⟩ := load_eq_some hv
    obtain rfl := List.mem_singleton.1 hn'
    exact ⟨v, hfile⟩
  obtain ⟨v, hv⟩ := hfile k hk
  obtain ⟨v', hv'⟩ := hfile k' hk'
  exact (Prod.mk.inj (Option.some.inj (hv.symm.trans hv'))).1

/-! ## Setting a value -/

variable (name : K → N)

/-- Setting a value writes the file of its key. -/
def set [DecidableEq N] (m : FileMap K V N) (k : K) (v : V) : FileMap K V N :=
  ⟨Function.update m.values k (some v), Function.update m.files (name k) (some v)⟩

/-- Every value is in the file of its key, and is read back with it. -/
structure Kept (reload : V → Option (K × V)) (m : FileMap K V N) : Prop where
  file : ∀ {k v}, m.values k = some v → m.files (name k) = some v ∧ reload v = some (k, v)
  value : ∀ {n v}, m.files n = some v → ∃ k, name k = n ∧ m.values k = some v
  listed : ∃ names, Lists m.files names

variable {name} {m : FileMap K V N}

omit [DecidableEq K] in
theorem kept_empty : Kept name reload ⟨fun _ => none, fun _ => none⟩ where
  file h := by cases h
  value h := by cases h
  listed := ⟨[], fun n => by simp⟩

omit [DecidableEq K] in
/-- What is in a file is read back as the value of its key. -/
theorem Kept.reload_eq (hm : m.Kept name reload) {n : N} {k : K} {v : V}
    (hfile : (m.files n).bind reload = some (k, v)) :
    name k = n ∧ m.values k = some v := by
  obtain ⟨w, hw, hreload⟩ := Option.bind_eq_some_iff.1 hfile
  obtain ⟨k', hname, hvalue⟩ := hm.value hw
  obtain ⟨rfl, rfl⟩ := Prod.mk.inj (Option.some.inj ((hm.file hvalue).2.symm.trans hreload))
  exact ⟨hname, hvalue⟩

/-- A map whose values are all in the files of their keys is loaded as it is. -/
theorem Kept.persists (hm : m.Kept name reload) : m.Persists reload := by
  intro names hnames
  funext k
  ext v
  constructor
  · intro h
    obtain ⟨n, -, hfile⟩ := load_eq_some h
    exact (hm.reload_eq hfile).2
  · intro hvalue
    obtain ⟨hfile, hreload⟩ := hm.file hvalue
    have hbind : (m.files (name k)).bind reload = some (k, v) := by
      rw [hfile, Option.bind_some, hreload]
    have hname : name k ∈ names := (hnames _).2 (by rw [hfile, Option.isSome_some])
    obtain ⟨v', hv'⟩ := Option.isSome_iff_exists.1 (isSome_load hname hbind)
    obtain ⟨n, -, hfile'⟩ := load_eq_some hv'
    rw [hv', ← (hm.reload_eq hfile').2, hvalue]

variable [DecidableEq N]

/-- A value that is read back with its key, whose file no other key has. -/
def CanSet (name : K → N) (reload : V → Option (K × V)) (m : FileMap K V N) (k : K) (v : V) :
    Prop :=
  reload v = some (k, v) ∧ ∀ k', (m.values k').isSome → name k' = name k → k' = k

/-- The file of the key has been added to the listing. -/
theorem Kept.listed_set (hm : m.Kept name reload) (k : K) (v : V) :
    ∃ names, Lists (m.set name k v).files names := by
  obtain ⟨names, hnames⟩ := hm.listed
  refine ⟨name k :: names, fun n => ?_⟩
  rw [List.mem_cons, hnames, FileMap.set]
  dsimp only
  by_cases hn : n = name k
  · subst hn
    rw [Function.update_self]
    exact iff_of_true (.inl rfl) rfl
  · rw [Function.update_of_ne hn]
    exact or_iff_right hn

theorem Kept.set (hm : m.Kept name reload) {k : K} {v : V} (h : m.CanSet name reload k v) :
    (m.set name k v).Kept name reload where
  file {k' v'} hvalue := by
    rw [FileMap.set] at hvalue ⊢
    dsimp only at hvalue ⊢
    by_cases hk : k' = k
    · subst hk
      rw [Function.update_self] at hvalue ⊢
      obtain rfl := Option.some.inj hvalue
      exact ⟨rfl, h.1⟩
    · rw [Function.update_of_ne hk] at hvalue
      rw [Function.update_of_ne fun hname => hk (h.2 k' (by rw [hvalue]; rfl) hname)]
      exact hm.file hvalue
  value {n v'} hfile := by
    rw [FileMap.set] at hfile ⊢
    dsimp only at hfile ⊢
    by_cases hn : n = name k
    · subst hn
      rw [Function.update_self] at hfile
      exact ⟨k, rfl, by rw [Function.update_self, hfile]⟩
    · rw [Function.update_of_ne hn] at hfile
      obtain ⟨k', rfl, hvalue⟩ := hm.value hfile
      exact ⟨k', rfl, by rw [Function.update_of_ne fun hk => hn (congrArg name hk), hvalue]⟩
  listed := hm.listed_set k v

/-- What a file holds after a value was set. -/
theorem Kept.reload_set (hm : m.Kept name reload) {k k' : K} {n : N} {v v' : V}
    (hfile : ((m.set name k v).files n).bind reload = some (k', v')) :
    (n = name k ∧ reload v = some (k', v')) ∨ name k' = n ∧ n ≠ name k ∧ m.values k' = some v' := by
  rw [FileMap.set] at hfile
  dsimp only at hfile
  by_cases hn : n = name k
  · subst hn
    rw [Function.update_self, Option.bind_some] at hfile
    exact .inl ⟨rfl, hfile⟩
  · rw [Function.update_of_ne hn] at hfile
    obtain ⟨hname, hvalue⟩ := hm.reload_eq hfile
    exact .inr ⟨hname, hn, hvalue⟩

/-- After a value was set, the files are loaded as the map exactly when the value is read back with
    its key, and no other key has the name of its file. -/
theorem persists_set_iff (hm : m.Kept name reload) (k : K) (v : V) :
    (m.set name k v).Persists reload ↔ m.CanSet name reload k v := by
  refine ⟨fun h => ?_, fun h => (hm.set h).persists⟩
  obtain ⟨names, hnames⟩ := hm.listed_set k v
  have hload := h names hnames
  -- The value itself is read back from the file of its key: the other files hold other values.
  have hself : reload v = some (k, v) := by
    have hvalue : load reload (m.set name k v).files names k = some v := by
      rw [hload]
      exact Function.update_self ..
    obtain ⟨n, -, hfile⟩ := load_eq_some hvalue
    rcases hm.reload_set hfile with ⟨-, hreload⟩ | ⟨hname, hn, -⟩
    · exact hreload
    · exact absurd hname.symm hn
  refine ⟨hself, fun k' hk' hname => ?_⟩
  by_contra hne
  obtain ⟨v', hv'⟩ := Option.isSome_iff_exists.1 hk'
  have hvalue : load reload (m.set name k v).files names k' = some v' := by
    rw [hload, FileMap.set]
    exact (Function.update_of_ne hne ..).trans hv'
  obtain ⟨n, -, hfile⟩ := load_eq_some hvalue
  rcases hm.reload_set hfile with ⟨-, hreload⟩ | ⟨hname', hn, -⟩
  · exact hne (Prod.mk.inj (Option.some.inj (hreload.symm.trans hself))).1
  · exact hn (hname'.symm.trans hname)

end FileMap

end SecNet
