import Mathlib.Tactic

/-!
# A file that is created once

Processes that share a value, which the first of them draws and the others read: a process looks
whether there is a file, and reads it; or else it draws a value, creates the file, which fails when
another process has been faster, and writes the value to it. A process may be interrupted wherever
it is, and a write may write less than it is given.

* `Agrees`: nobody changes what one process has written, so the processes that obtain a value obtain
  the same;
* `Settles`: where writes are whole, the file is absent, or it has the value that the processes have
  obtained, or a process is writing to it, or has been interrupted before it has;
* `Settles.broken_iff`: so when nobody is writing, it is broken just when one has been interrupted.
-/

namespace SecNet

/-- The values of a type as lists of one length. -/
structure FixedCode (K α : Type) where
  size : ℕ
  size_pos : 0 < size
  encode : K → List α
  decode : List α → K
  length_encode : ∀ k, (encode k).length = size
  decode_encode : ∀ k, decode (encode k) = k

namespace OnceFile

variable {ι K α : Type} [DecidableEq ι]

/-- Where a process is. -/
inductive Pc (K : Type)
  | looking
  | reading
  | creating (k : K)
  | writing (k : K)
  | obtained (k : K)
  | failed
  /-- It has been interrupted after it had created the file, and before it had written to it. -/
  | abandoned
  deriving DecidableEq

/-- What a process does. -/
inductive Act (K : Type)
  /-- It looks whether there is a file, and draws a value if there is none. -/
  | look (drawn : K)
  | read
  | create
  /-- It writes so much of its value. -/
  | write (n : ℕ)
  /-- A call raises, or the process is killed. -/
  | raise

/-- The file and the process after a step. -/
def next (code : FixedCode K α) (file : Option (List α)) :
    Pc K → Act K → Option (Option (List α) × Pc K)
  | .looking, .look drawn => some (file, if file.isSome then .reading else .creating drawn)
  | .reading, .read => some (file, match file with
    | some raw => if raw.length = code.size then .obtained (code.decode raw) else .failed
    | none => .failed)
  | .creating k, .create => match file with
    | some _ => some (file, .failed)
    | none => some (some [], .writing k)
  | .writing k, .write n => some (file.map (· ++ (code.encode k).take n), .obtained k)
  | .writing _, .raise => some (file, .abandoned)
  | .looking, .raise | .reading, .raise | .creating _, .raise => some (file, .failed)
  | _, _ => none

/-! ## Agreement -/

/-- A process has not come to the file, or has found another one there. -/
def Pc.Before : Pc K → Prop
  | .writing _ | .obtained _ | .abandoned => False
  | _ => True

/-- What a step does: it keeps away from the file, or reads it, creates it, writes it, or is
    interrupted before it has written it. -/
inductive Step (code : FixedCode K α) (act : Act K) :
    Option (List α) → Pc K → Option (List α) → Pc K → Prop
  | away {file : Option (List α)} {p p' : Pc K} : p.Before → p'.Before →
    Step code act file p file p'
  | read {raw : List α} : raw.length = code.size →
    Step code act (some raw) .reading (some raw) (.obtained (code.decode raw))
  | create {k : K} : Step code act none (.creating k) (some []) (.writing k)
  | write {file : Option (List α)} {k : K} {n : ℕ} : act = .write n →
    Step code act file (.writing k) (file.map (· ++ (code.encode k).take n)) (.obtained k)
  | abandon {file : Option (List α)} {k : K} : Step code act file (.writing k) file .abandoned

variable {code : FixedCode K α} {file file' : Option (List α)} {p' : Pc K} {act : Act K}

omit [DecidableEq ι] in
theorem step_of_next {p : Pc K} (h : next code file p act = some (file', p')) :
    Step code act file p file' p' := by
  revert h
  fun_cases next code file p act
  all_goals intro h
  all_goals simp only [Option.some.injEq, Prod.mk.injEq, reduceCtorEq] at h
  all_goals obtain ⟨rfl, rfl⟩ := h
  case case1 drawn =>
    refine .away trivial ?_
    split_ifs <;> trivial
  case case2 =>
    rcases file with _ | raw
    · exact .away trivial trivial
    · dsimp only
      split_ifs with hsize
      · exact .read hsize
      · exact .away trivial trivial
  case case4 => exact .create
  case case5 => exact .write rfl
  case case6 => exact .abandon
  all_goals exact .away trivial trivial

/-- One process writes to the file while the others keep away from it, and those that obtain a
    value obtain the same, which the file has if it is whole. -/
structure Agrees (code : FixedCode K α) (file : Option (List α)) (pc : ι → Pc K) : Prop where
  absent : file = none → ∀ i, (pc i).Before
  writing : ∀ i k, pc i = .writing k → file = some [] ∧ ∀ j, j ≠ i → (pc j).Before
  obtained : ∀ i j k k', pc i = .obtained k → pc j = .obtained k' → k = k'
  decoded : ∀ raw i k, file = some raw → raw.length = code.size → pc i = .obtained k →
    k = code.decode raw

variable {pc : ι → Pc K} {i : ι}

theorem update_eq {p : Pc K} {j : ι} (h : Function.update pc i p' j = p) (hp : p' ≠ p) :
    pc j = p := by
  by_cases hj : j = i
  · subst hj
    exact absurd (Function.update_self j p' pc ▸ h) hp
  · rwa [Function.update_of_ne hj] at h

theorem before_update {j : ι} (h : (pc j).Before) (hp' : p'.Before) :
    (Function.update pc i p' j).Before := by
  rw [Function.update_apply]
  split_ifs
  · exact hp'
  · exact h

omit [DecidableEq ι] in
/-- At the start. -/
theorem agrees_looking (h : ∀ i, pc i = .looking) : Agrees code file pc where
  absent _ i := h i ▸ trivial
  writing i _ hi := nomatch (h i).symm.trans hi
  obtained i _ _ _ hi _ := nomatch (h i).symm.trans hi
  decoded _ i _ _ _ hi := nomatch (h i).symm.trans hi

/-- A process that keeps away from the file. -/
theorem Agrees.away (h : Agrees code file pc) (hp' : p'.Before) :
    Agrees code file (Function.update pc i p') := by
  have hobtained (k : K) : p' ≠ .obtained k := by
    rintro rfl
    exact hp'
  have hwriting (k : K) : p' ≠ .writing k := by
    rintro rfl
    exact hp'
  exact {
    absent := fun hfile j => before_update (h.absent hfile j) hp'
    writing := fun j k hj => by
      obtain ⟨hfile, hothers⟩ := h.writing j k (update_eq hj (hwriting k))
      exact ⟨hfile, fun j' hj' => before_update (hothers j' hj') hp'⟩
    obtained := fun j j' k k' hj hj' =>
      h.obtained j j' k k' (update_eq hj (hobtained k)) (update_eq hj' (hobtained k'))
    decoded := fun raw j k hfile hsize hj =>
      h.decoded raw j k hfile hsize (update_eq hj (hobtained k)) }

theorem Agrees.read {raw : List α} (h : Agrees code (some raw) pc)
    (hsize : raw.length = code.size) :
    Agrees code (some raw) (Function.update pc i (.obtained (code.decode raw))) := by
  have hdecoded (j : ι) (k : K)
      (hj : Function.update pc i (.obtained (code.decode raw)) j = .obtained k) :
      k = code.decode raw := by
    by_cases hk : k = code.decode raw
    · exact hk
    · exact h.decoded raw j k rfl hsize (update_eq hj fun heq => hk (Pc.obtained.inj heq).symm)
  exact {
    absent := nofun
    writing := fun j k hj => by
      -- The file would be empty.
      obtain ⟨hfile, -⟩ := h.writing j k (update_eq hj nofun)
      rw [Option.some.inj hfile] at hsize
      exact absurd hsize code.size_pos.ne
    obtained := fun j j' k k' hj hj' => (hdecoded j k hj).trans (hdecoded j' k' hj').symm
    decoded := fun raw' j k hfile _ hj => Option.some.inj hfile ▸ hdecoded j k hj }

theorem Agrees.create {k : K} (h : Agrees code (none : Option (List α)) pc) :
    Agrees code (some []) (Function.update pc i (.writing k)) := by
  have hbefore := h.absent rfl
  have hobtained (j : ι) (k' : K) : Function.update pc i (.writing k) j ≠ .obtained k' := by
    intro hj
    have hj' := hbefore j
    rw [update_eq hj nofun] at hj'
    exact hj'
  exact {
    absent := nofun
    writing := fun j k' hj => by
      refine ⟨rfl, fun j' hj' => ?_⟩
      by_cases hji : j' = i
      · subst hji
        have hj'' := hbefore j
        rw [Function.update_of_ne hj'.symm] at hj
        rw [hj] at hj''
        exact hj''.elim
      · rw [Function.update_of_ne hji]
        exact hbefore j'
    obtained := fun j _ k' _ hj _ => absurd hj (hobtained j k')
    decoded := fun _ j k' _ _ hj => absurd hj (hobtained j k') }

theorem Agrees.write {k : K} {n : ℕ} (h : Agrees code file pc) (hi : pc i = .writing k) :
    Agrees code (file.map (· ++ (code.encode k).take n)) (Function.update pc i (.obtained k)) := by
  obtain ⟨rfl, hothers⟩ := h.writing i k hi
  -- No other process has obtained a value.
  have honly (j : ι) (k' : K) (hj : Function.update pc i (.obtained k) j = .obtained k') :
      k' = k := by
    by_contra hne
    have hji : j ≠ i := by
      rintro rfl
      rw [Function.update_self] at hj
      exact hne (Pc.obtained.inj hj).symm
    have hbefore := hothers j hji
    rw [← Function.update_of_ne hji (.obtained k) pc, hj] at hbefore
    exact hbefore
  exact {
    absent := nofun
    writing := fun j k' hj => by
      have hji : j ≠ i := by
        rintro rfl
        rw [Function.update_self] at hj
        cases hj
      have hbefore := hothers j hji
      rw [update_eq hj nofun] at hbefore
      exact hbefore.elim
    obtained := fun j j' k' k'' hj hj' => (honly j k' hj).trans (honly j' k'' hj').symm
    decoded := fun raw j k' hraw hsize hj => by
      obtain rfl : (code.encode k).take n = raw := Option.some.inj hraw
      rw [honly j k' hj]
      have htake : (code.encode k).take n = code.encode k := by
        rw [List.take_eq_self_iff]
        rw [List.length_take, code.length_encode] at hsize
        rw [code.length_encode]
        omega
      rw [htake, code.decode_encode] }

theorem Agrees.abandon {k : K} (h : Agrees code file pc) (hi : pc i = .writing k) :
    Agrees code file (Function.update pc i .abandoned) := by
  obtain ⟨rfl, hothers⟩ := h.writing i k hi
  exact {
    absent := nofun
    writing := fun j k' hj => by
      have hbefore := hothers j fun hji => by
        rw [hji, Function.update_self] at hj
        cases hj
      rw [update_eq hj nofun] at hbefore
      exact hbefore.elim
    obtained := fun j j' k' k'' hj hj' =>
      h.obtained j j' k' k'' (update_eq hj nofun) (update_eq hj' nofun)
    decoded := fun raw j k' hraw hsize hj => h.decoded raw j k' hraw hsize (update_eq hj nofun) }

/-- Every step keeps the agreement. -/
theorem Agrees.next (h : Agrees code file pc)
    (hnext : OnceFile.next code file (pc i) act = some (file', p')) :
    Agrees code file' (Function.update pc i p') := by
  have hstep := step_of_next hnext
  generalize hp : pc i = p at hstep
  cases hstep with
  | away _ hbefore' => exact h.away hbefore'
  | read hsize => exact h.read hsize
  | create => exact h.create
  | write _ => exact h.write hp
  | abandon => exact h.abandon hp

/-! ## Where writes are whole -/

/-- The file is absent, or whole, or a process is writing to it, or has been interrupted before it
    has. -/
structure Settles (code : FixedCode K α) (file : Option (List α)) (pc : ι → Pc K) : Prop extends
    Agrees code file pc where
  whole : ∀ i k, pc i = .obtained k → ∃ raw, file = some raw ∧ raw.length = code.size
  abandoned : ∀ i, pc i = .abandoned → file = some []
  present : ∀ raw, file = some raw →
    raw.length = code.size ∨ (∃ i k, pc i = .writing k) ∨ ∃ i, pc i = .abandoned

omit [DecidableEq ι] in
/-- At the start, with a file that is absent or whole. -/
theorem settles_looking (hfile : ∀ raw, file = some raw → raw.length = code.size)
    (h : ∀ i, pc i = .looking) : Settles code file pc where
  toAgrees := agrees_looking h
  whole i _ hi := nomatch (h i).symm.trans hi
  abandoned i hi := nomatch (h i).symm.trans hi
  present raw hraw := .inl (hfile raw hraw)

/-- A process that keeps away from the file. -/
theorem Settles.away (h : Settles code file pc) (hp : (pc i).Before) (hp' : p'.Before) :
    Settles code file (Function.update pc i p') where
  toAgrees := h.toAgrees.away hp'
  whole j k hj := h.whole j k (update_eq hj fun heq => by rw [heq] at hp'; exact hp')
  abandoned j hj := h.abandoned j (update_eq hj fun heq => by rw [heq] at hp'; exact hp')
  present raw hraw := by
    have hne {j : ι} (hj : ¬(pc j).Before) : Function.update pc i p' j = pc j :=
      Function.update_of_ne (fun hji : j = i => hj (hji ▸ hp)) ..
    rcases h.present raw hraw with hsize | ⟨j, k, hj⟩ | ⟨j, hj⟩
    · exact .inl hsize
    · exact .inr (.inl ⟨j, k, (hne (by rw [hj]; exact id)).trans hj⟩)
    · exact .inr (.inr ⟨j, (hne (by rw [hj]; exact id)).trans hj⟩)

theorem Settles.read {raw : List α} (h : Settles code (some raw) pc)
    (hsize : raw.length = code.size) :
    Settles code (some raw) (Function.update pc i (.obtained (code.decode raw))) where
  toAgrees := h.toAgrees.read hsize
  whole _ _ _ := ⟨raw, rfl, hsize⟩
  abandoned j hj := h.abandoned j (update_eq hj nofun)
  present _ hraw := .inl (Option.some.inj hraw ▸ hsize)

theorem Settles.create {k : K} (h : Settles code (none : Option (List α)) pc) :
    Settles code (some []) (Function.update pc i (.writing k)) where
  toAgrees := h.toAgrees.create
  whole j k' hj := by
    have hj' := h.absent rfl j
    rw [update_eq hj nofun] at hj'
    exact hj'.elim
  abandoned _ _ := rfl
  present _ _ := .inr (.inl ⟨i, k, Function.update_self ..⟩)

theorem Settles.write {k : K} {n : ℕ} (h : Settles code file pc) (hi : pc i = .writing k)
    (hn : code.size ≤ n) : Settles code (file.map (· ++ (code.encode k).take n))
      (Function.update pc i (.obtained k)) := by
  have hagrees := h.toAgrees.write (n := n) hi
  obtain ⟨rfl, hothers⟩ := h.writing i k hi
  have htake : (code.encode k).take n = code.encode k :=
    List.take_of_length_le (by rwa [code.length_encode])
  exact {
    toAgrees := hagrees
    whole := fun _ _ _ => ⟨_, rfl, by rw [htake]; exact code.length_encode k⟩
    abandoned := fun j hj => by
      have hj' := hothers j fun hji => by
        rw [hji, Function.update_self] at hj
        cases hj
      rw [update_eq hj nofun] at hj'
      exact hj'.elim
    present := fun raw hraw => by
      obtain rfl : (code.encode k).take n = raw := Option.some.inj hraw
      exact .inl (by rw [htake, code.length_encode]) }

theorem Settles.abandon {k : K} (h : Settles code file pc) (hi : pc i = .writing k) :
    Settles code file (Function.update pc i .abandoned) where
  toAgrees := h.toAgrees.abandon hi
  whole j k' hj := h.whole j k' (update_eq hj nofun)
  abandoned _ _ := (h.writing i k hi).1
  present _ _ := .inr (.inr ⟨i, Function.update_self ..⟩)

/-- Every step whose write is whole keeps this. -/
theorem Settles.next (h : Settles code file pc)
    (hnext : OnceFile.next code file (pc i) act = some (file', p'))
    (hact : ∀ n, act = .write n → code.size ≤ n) :
    Settles code file' (Function.update pc i p') := by
  have hstep := step_of_next hnext
  generalize hp : pc i = p at hstep
  cases hstep with
  | away hbefore hbefore' => exact h.away (hp ▸ hbefore) hbefore'
  | read hsize => exact h.read hsize
  | create => exact h.create
  | write hwrite => exact h.write hp (hact _ hwrite)
  | abandon => exact h.abandon hp

omit [DecidableEq ι] in
/-- The file has the value that a process has obtained. -/
theorem Settles.file_eq {k : K} (h : Settles code file pc) (hi : pc i = .obtained k) :
    ∃ raw, file = some raw ∧ raw.length = code.size ∧ code.decode raw = k := by
  obtain ⟨raw, hraw, hsize⟩ := h.whole i k hi
  exact ⟨raw, hraw, hsize, (h.decoded raw i k hraw hsize hi).symm⟩

omit [DecidableEq ι] in
/-- When nobody is writing, the file is broken just when somebody has been interrupted. -/
theorem Settles.broken_iff (h : Settles code file pc) (hquiet : ∀ i k, pc i ≠ .writing k) :
    (∃ raw, file = some raw ∧ raw.length ≠ code.size) ↔ ∃ i, pc i = .abandoned := by
  constructor
  · rintro ⟨raw, hraw, hsize⟩
    rcases h.present raw hraw with hsize' | ⟨i, k, hi⟩ | habandoned
    · exact absurd hsize' hsize
    · exact absurd hi (hquiet i k)
    · exact habandoned
  · rintro ⟨i, hi⟩
    exact ⟨[], h.abandoned i hi, code.size_pos.ne⟩

end OnceFile

end SecNet
