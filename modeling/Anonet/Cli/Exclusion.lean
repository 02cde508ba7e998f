import Anonet.Cli.InstanceLock

/-!
# One instance at a time

Two launches that both read the PID file before either has written it both end up with
a guard.  Launches take over as `acquire` means them to where none writes the file after
another has since it read it.

* `Exclusive` — at most one live instance holds a guard, and the PID file names it.
* `overtaken` — the launches that others have overtaken; a history variable.
* `Uncrossed` — what launches must respect.
* `TakesTurns` — the invariant, which says nothing of a launch that is overtaken.
* `exclusive_of_uncrossed` — **every run of launches, exits and deaths in which no launch
  that was overtaken writes the PID file is exclusive.**
-/

namespace Anonet.Cli

/-- In `acquire`, from the read of the PID file on. -/
def Pc.inside : Pc → Bool
  | .read _ | .check _ | .signal _ _ | .poll _ _ _ | .recheck _ _ | .openWrite | .write _ => true
  | .createDir | .openRead | .holding | .released | .failed _ => false

/-- In front of one of the two system calls of `read_to_string`. -/
def Pc.reads : Pc → Bool
  | .openRead | .read _ => true
  | _ => false

/-- In front of one of the two system calls of `fs::write`. -/
def Pc.writes : Pc → Bool
  | .openWrite | .write _ => true
  | _ => false

/-- At most one live instance holds a guard, and the PID file names the one that does. -/
def Exclusive (s : Host) : Prop :=
  (∀ x ∈ s.instances, ∀ y ∈ s.instances, x.pc = .holding → y.pc = .holding → x.pid = y.pid) ∧
    ∀ x ∈ s.instances, x.pc = .holding → s.named = some x.pid

instance (s : Host) : Decidable (Exclusive s) := inferInstanceAs (Decidable (_ ∧ _))

/-- Where the instance with this PID is. -/
def Host.pcOf (s : Host) (pid : UInt32) : Option Pc :=
  (s.procs.get pid).bind fun p =>
    match p.running with
    | some (.anonet pc) => some pc
    | _ => none

/-- The other launches that have opened the PID file for reading and not yet written it. -/
def Host.others (s : Host) (pid : UInt32) : List UInt32 :=
  (s.instances.filter fun y => y.pc.inside = true ∧ y.pid ≠ pid).map (·.pid)

/-- The launches that are overtaken: another one has opened the PID file for writing, or has
written to it, since they opened it for reading. -/
def overtaken (s : Host) (a : Action) (_s' : Host) (before : List UInt32) : List UInt32 :=
  match a with
  | .advance pid ok =>
    match s.pcOf pid, ok with
    | some .openRead, _ => before.filter (· ≠ pid)
    | some .openWrite, true | some (.write _), true => before ++ s.others pid
    | _, _ => before
  | _ => before

/-- A launch that is overtaken does not write the PID file, and reading the file does not
fail while an instance holds a guard. -/
def Uncrossed (p : Host × List UInt32) : Action → Prop
  | .advance pid ok => ∀ x ∈ p.1.instances, x.pid = pid →
    (x.pc.writes → ok = true → pid ∉ p.2) ∧
      (x.pc.reads → ok = false → ∀ y ∈ p.1.instances, y.pc ≠ .holding)
  | _ => True

instance (p : Host × List UInt32) : ∀ a, Decidable (Uncrossed p a)
  | .advance _ _ => inferInstanceAs (Decidable (∀ _ ∈ _, _))
  | .start _ _ _ | .die _ | .reap _ => inferInstanceAs (Decidable True)

/-! ## The invariant -/

/-- What an instance in `acquire` knows of an instance that holds a guard: it has opened
the file that names it, or has read its PID, and it is not about to write. -/
def Pc.Faces (path : Option ℕ) (holder : UInt32) : Pc → Prop
  | .read file => path = some file
  | .check oldPid | .signal _ oldPid | .poll _ oldPid _ | .recheck _ oldPid => oldPid = holder
  | .openWrite | .write _ => False
  | _ => True

structure TakesTurns (s : Host) (late : List UInt32) : Prop where
  one_holder : ∀ x ∈ s.instances, ∀ y ∈ s.instances,
    x.pc = .holding → y.pc = .holding → x.pid = y.pid
  named : ∀ x ∈ s.instances, x.pc = .holding → s.named = some x.pid
  faces : ∀ x ∈ s.instances, x.pid ∉ late → ∀ y ∈ s.instances,
    y.pc = .holding → x.pc.Faces s.file.path y.pid
  emptied : ∀ x ∈ s.instances, x.pid ∉ late → ∀ file, x.pc = .write file →
    s.file.path = some file ∧ s.file.contents file = []

section Steps

variable {s s' : Host} {x y : Instance} {ok : Bool} {a : Action} {pc : Pc} {late : List UInt32}

theorem faces_of_inside_eq_false {path : Option ℕ} {holder : UInt32} (h : pc.inside = false) :
    pc.Faces path holder := by
  cases pc <;> first | exact trivial | cases h

theorem named_congr (h : s'.file = s.file) : s'.named = s.named := by
  rw [Host.named, Host.named, h]
  unfold Host.parsed
  rw [h]

/-! ### Who is overtaken -/

theorem pcOf_of_mem (hx : x ∈ s.instances) : s.pcOf x.pid = some x.pc := by
  rw [Host.pcOf, Host.mem_instances.mp hx]
  rfl

theorem overtaken_openRead (hx : x ∈ s.instances) (hpc : x.pc = .openRead) :
    overtaken s (.advance x.pid ok) s' late = late.filter (· ≠ x.pid) := by
  simp only [overtaken, pcOf_of_mem hx, hpc]

theorem overtaken_writes (hx : x ∈ s.instances) (hpc : x.pc.writes = true) :
    overtaken s (.advance x.pid true) s' late = late ++ s.others x.pid := by
  simp only [overtaken, pcOf_of_mem hx]
  cases hplace : x.pc with
  | openWrite | write => rfl
  | _ =>
    rw [hplace] at hpc
    cases hpc

theorem overtaken_of_not (hx : x ∈ s.instances) (hread : x.pc ≠ .openRead)
    (hwrite : x.pc.writes = true → ok = false) :
    overtaken s (.advance x.pid ok) s' late = late := by
  simp only [overtaken, pcOf_of_mem hx]
  cases hplace : x.pc with
  | openRead => exact absurd hplace hread
  | openWrite | write =>
    rw [hplace] at hwrite
    rw [hwrite rfl]
  | _ => rfl

/-- Whoever writes overtakes all that are in `acquire`. -/
theorem inside_eq_false_of_not_mem {pid : UInt32} (hy : y ∈ s.instances) (hne : y.pid ≠ pid)
    (hlate : y.pid ∉ late ++ s.others pid) : y.pc.inside = false := by
  by_contra hin
  refine hlate (List.mem_append_right _ (List.mem_map.mpr ⟨y, List.mem_filter.mpr ⟨hy, ?_⟩, rfl⟩))
  exact decide_eq_true ⟨by simpa using hin, hne⟩

/-! ### What a step leaves -/

/-- Without a change to the file, with no instance new in `acquire` or with a guard. -/
theorem TakesTurns.mono (hinv : TakesTurns s late) (hfile : s'.file = s.file)
    (hsub : ∀ y ∈ s'.instances, y ∈ s.instances ∨ y.pc.inside = false ∧ y.pc ≠ .holding) :
    TakesTurns s' late := by
  have hholder : ∀ y ∈ s'.instances, y.pc = .holding → y ∈ s.instances := by
    intro y hy hhold
    rcases hsub y hy with h | ⟨-, h⟩
    · exact h
    · exact absurd hhold h
  constructor
  · intro x hx y hy hxh hyh
    exact hinv.one_holder x (hholder x hx hxh) y (hholder y hy hyh) hxh hyh
  · intro x hx hxh
    rw [named_congr hfile]
    exact hinv.named x (hholder x hx hxh) hxh
  · intro x hx hlate y hy hyh
    rw [hfile]
    rcases hsub x hx with h | ⟨h, -⟩
    · exact hinv.faces x h hlate y (hholder y hy hyh) hyh
    · exact faces_of_inside_eq_false h
  · intro x hx hlate file hpc
    rw [hfile]
    rcases hsub x hx with h | ⟨h, -⟩
    · exact hinv.emptied x h hlate file hpc
    · rw [hpc] at h
      cases h

/-- The moves that end outside of `acquire` without a guard and without a change to the
file. -/
theorem TakesTurns.outside (hinv : TakesTurns s late) (hx : x ∈ s.instances)
    (hfile : (s.perform x ok).file = s.file)
    (hout : ∀ pc, (s.perform x ok).next = some pc → pc.inside = false ∧ pc ≠ .holding) :
    TakesTurns (s.performed x ok) late := by
  refine hinv.mono hfile ?_
  intro y hy
  rcases (Host.mem_instances_performed hx).mp hy with ⟨pc, hnext, rfl⟩ | ⟨-, hy⟩
  · exact .inr (hout pc hnext)
  · exact .inl hy

/-- The moves that go on in `acquire` up to the write. -/
theorem TakesTurns.inside {late' : List UInt32} (hinv : TakesTurns s late) (hx : x ∈ s.instances)
    (pc : Pc) (hfile : (s.perform x ok).file = s.file) (hnext : (s.perform x ok).next = some pc)
    (hwrite : ∀ file, pc ≠ .write file) (hholding : pc ≠ .holding)
    (hlate : ∀ pid, pid ≠ x.pid → pid ∉ late' → pid ∉ late)
    (hfaces : x.pid ∉ late' → ∀ y ∈ s.instances, y.pc = .holding → pc.Faces s.file.path y.pid) :
    TakesTurns (s.performed x ok) late' := by
  have hfile' : (s.performed x ok).file = s.file := hfile
  have hcases : ∀ y ∈ (s.performed x ok).instances,
      y = { x with pc := pc } ∨ y.pid ≠ x.pid ∧ y ∈ s.instances := by
    intro y hy
    exact Host.mem_instances_moved hx hnext hy
  have hhold : ∀ y ∈ (s.performed x ok).instances, y.pc = .holding → y ∈ s.instances := by
    intro y hy hyh
    rcases hcases y hy with rfl | ⟨-, hy⟩
    · exact absurd hyh hholding
    · exact hy
  constructor
  · intro y hy z hz hyh hzh
    exact hinv.one_holder y (hhold y hy hyh) z (hhold z hz hzh) hyh hzh
  · intro y hy hyh
    rw [named_congr hfile']
    exact hinv.named y (hhold y hy hyh) hyh
  · intro y hy hylate z hz hzh
    rw [hfile']
    rcases hcases y hy with rfl | ⟨hne, hy⟩
    · exact hfaces hylate z (hhold z hz hzh) hzh
    · exact hinv.faces y hy (hlate y.pid hne hylate) z (hhold z hz hzh) hzh
  · intro y hy hylate file hpc
    rw [hfile']
    rcases hcases y hy with rfl | ⟨hne, hy⟩
    · exact absurd hpc (hwrite file)
    · exact hinv.emptied y hy (hlate y.pid hne hylate) file hpc

/-- The PID file is opened for writing: nobody holds a guard. -/
theorem TakesTurns.opened (hinv : TakesTurns s late) (hx : x ∈ s.instances)
    (hpc : x.pc = .openWrite) (hxlate : x.pid ∉ late) :
    TakesTurns (s.performed x true) (late ++ s.others x.pid) := by
  obtain ⟨pid, pgid, pc⟩ := x
  obtain rfl : pc = .openWrite := hpc
  have hnone : ∀ y ∈ s.instances, y.pc ≠ .holding := by
    intro y hy hyh
    exact hinv.faces _ hx hxlate y hy hyh
  have hcases : ∀ y ∈ (s.performed ⟨pid, pgid, .openWrite⟩ true).instances,
      y = ⟨pid, pgid, .write s.file.openedFile⟩ ∨ y.pid ≠ pid ∧ y ∈ s.instances := by
    intro y hy
    exact Host.mem_instances_moved hx rfl hy
  have hnone' : ∀ y ∈ (s.performed ⟨pid, pgid, .openWrite⟩ true).instances,
      y.pc ≠ .holding := by
    intro y hy
    rcases hcases y hy with rfl | ⟨-, hy⟩
    · simp
    · exact hnone y hy
  constructor
  · intro y hy z hz hyh
    exact absurd hyh (hnone' y hy)
  · intro y hy hyh
    exact absurd hyh (hnone' y hy)
  · intro y hy _ z hz hzh
    exact absurd hzh (hnone' z hz)
  · intro y hy hylate file hyw
    rcases hcases y hy with rfl | ⟨hne, hy⟩
    · obtain rfl : s.file.openedFile = file := Pc.write.inj hyw
      refine ⟨rfl, ?_⟩
      show s.file.openTruncated.contents _ = []
      rw [PathFile.contents_openTruncated, if_pos rfl]
    · have hout := inside_eq_false_of_not_mem hy hne hylate
      rw [hyw] at hout
      cases hout

/-- The PID has been written: this instance holds the only guard. -/
theorem TakesTurns.wrote {file : ℕ} (hinv : TakesTurns s late) (hx : x ∈ s.instances)
    (hpc : x.pc = .write file) (hxlate : x.pid ∉ late) :
    TakesTurns (s.performed x true) (late ++ s.others x.pid) := by
  obtain ⟨pid, pgid, pc⟩ := x
  obtain rfl : pc = .write file := hpc
  obtain ⟨hpath, hempty⟩ := hinv.emptied _ hx hxlate file rfl
  have hnone : ∀ y ∈ s.instances, y.pc ≠ .holding := by
    intro y hy hyh
    exact hinv.faces _ hx hxlate y hy hyh
  have hcases : ∀ y ∈ (s.performed ⟨pid, pgid, .write file⟩ true).instances,
      y = ⟨pid, pgid, .holding⟩ ∨ y.pid ≠ pid ∧ y ∈ s.instances := by
    intro y hy
    exact Host.mem_instances_moved hx rfl hy
  -- those still in `acquire` have been overtaken
  have hout : ∀ y ∈ (s.performed ⟨pid, pgid, .write file⟩ true).instances,
      y.pid ∉ late ++ s.others pid → y.pc.inside = false := by
    intro y hy hylate
    rcases hcases y hy with rfl | ⟨hne, hy⟩
    · rfl
    · exact inside_eq_false_of_not_mem hy hne hylate
  have hnamed : (s.performed ⟨pid, pgid, .write file⟩ true).named = some pid := by
    have hwritten : (s.file.writeStart file (Text.digits pid.toNat)).contents file =
        Text.digits pid.toNat := by
      rw [PathFile.contents_writeStart (s.file.path_lt file hpath), if_pos rfl,
        PathFile.overwrite_of_length_le (by simp [hempty])]
    show s.file.path.bind _ = some pid
    rw [hpath]
    show Text.parseU32 (Text.trim ((s.file.writeStart file _).contents file)) = some pid
    rw [hwritten, Text.parseU32_trim_digits]
  constructor
  · intro y hy z hz hyh hzh
    rcases hcases y hy with rfl | ⟨-, hy⟩
    · rcases hcases z hz with rfl | ⟨-, hz⟩
      · rfl
      · exact absurd hzh (hnone z hz)
    · exact absurd hyh (hnone y hy)
  · intro y hy hyh
    rcases hcases y hy with rfl | ⟨-, hy⟩
    · exact hnamed
    · exact absurd hyh (hnone y hy)
  · intro y hy hylate z hz hzh
    exact faces_of_inside_eq_false (hout y hy hylate)
  · intro y hy hylate i hyw
    have hyout := hout y hy hylate
    rw [hyw] at hyout
    cases hyout

/-- The guard is dropped and the PID file removed: nobody holds a guard. -/
theorem TakesTurns.dropped (hinv : TakesTurns s late) (hx : x ∈ s.instances)
    (hpc : x.pc = .holding) : TakesTurns (s.performed x true) late := by
  obtain ⟨pid, pgid, pc⟩ := x
  obtain rfl : pc = .holding := hpc
  have hcases : ∀ y ∈ (s.performed ⟨pid, pgid, .holding⟩ true).instances,
      y = ⟨pid, pgid, .released⟩ ∨ y.pid ≠ pid ∧ y ∈ s.instances := by
    intro y hy
    exact Host.mem_instances_moved hx rfl hy
  have hnone : ∀ y ∈ (s.performed ⟨pid, pgid, .holding⟩ true).instances, y.pc ≠ .holding := by
    intro y hy hyh
    rcases hcases y hy with rfl | ⟨hne, hy⟩
    · cases hyh
    · exact hne (hinv.one_holder y hy _ hx hyh rfl)
  constructor
  · intro y hy z hz hyh
    exact absurd hyh (hnone y hy)
  · intro y hy hyh
    exact absurd hyh (hnone y hy)
  · intro y hy _ z hz hzh
    exact absurd hzh (hnone z hz)
  · intro y hy hylate file hyw
    rcases hcases y hy with rfl | ⟨-, hy⟩
    · cases hyw
    · -- nobody else is about to write while a guard is held
      have hfaces := hinv.faces y hy hylate _ hx rfl
      rw [hyw] at hfaces
      exact hfaces.elim

/-! ### One step -/

/-- On to the write, when nobody holds a guard. -/
theorem TakesTurns.toWrite {late' : List UInt32} (hinv : TakesTurns s late)
    (hx : x ∈ s.instances) (hfile : (s.perform x ok).file = s.file)
    (hnext : (s.perform x ok).next = some .openWrite)
    (hlate : ∀ pid, pid ≠ x.pid → pid ∉ late' → pid ∉ late)
    (hnone : x.pid ∉ late' → ∀ y ∈ s.instances, y.pc ≠ .holding) :
    TakesTurns (s.performed x ok) late' := by
  refine hinv.inside hx .openWrite hfile hnext (by simp) (by simp) hlate ?_
  intro hxlate y hy hyh
  exact hnone hxlate y hy hyh

/-- A holder of a guard is alive. -/
theorem not_holding_of_dead {oldPid : UInt32}
    (hfaced : ∀ y ∈ s.instances, y.pc = .holding → oldPid = y.pid)
    (hdead : s.processAlive oldPid = false) : ∀ y ∈ s.instances, y.pc ≠ .holding := by
  intro y hy hyh
  rw [hfaced y hy hyh, Host.processAlive, ProcessTable.hasEntry, Host.mem_instances.mp hy] at hdead
  cases hdead

/-- The PID file is opened for reading: from now on the launch is not overtaken. -/
theorem TakesTurns.openedRead (hinv : TakesTurns s late) (hx : x ∈ s.instances)
    (hpc : x.pc = .openRead) (huncrossed : Uncrossed (s, late) (.advance x.pid ok)) :
    TakesTurns (s.performed x ok) (late.filter (· ≠ x.pid)) := by
  have hreads := (huncrossed x hx rfl).2
  have hlate : ∀ pid, pid ≠ x.pid → pid ∉ late.filter (· ≠ x.pid) → pid ∉ late := by
    intro pid hne hnot hmem
    exact hnot (List.mem_filter.mpr ⟨hmem, decide_eq_true hne⟩)
  cases ok with
  | false =>
    refine hinv.toWrite hx ?_ ?_ hlate fun _ => hreads (by rw [hpc]; rfl) rfl
    · simp [Host.perform, hpc]
    · simp [Host.perform, hpc]
  | true =>
    cases hpath : s.file.path with
    | none =>
      refine hinv.toWrite hx ?_ ?_ hlate ?_
      · simp [Host.perform, hpc, hpath]
      · simp [Host.perform, hpc, hpath]
      · intro _ y hy hyh
        have hname := hinv.named y hy hyh
        rw [Host.named, hpath] at hname
        cases hname
    | some file =>
      refine hinv.inside hx (.read file) ?_ ?_ (by simp) (by simp) hlate ?_
      · simp [Host.perform, hpc, hpath]
      · simp [Host.perform, hpc, hpath]
      · intro _ y hy hyh
        exact hpath

/-- The PID file is read; if anybody holds a guard, it is the one named there. -/
theorem TakesTurns.readFile {file : ℕ} (hinv : TakesTurns s late) (hx : x ∈ s.instances)
    (hpc : x.pc = .read file) (huncrossed : Uncrossed (s, late) (.advance x.pid ok)) :
    TakesTurns (s.performed x ok) late := by
  have hread : x.pid ∉ late → ∀ y ∈ s.instances, y.pc = .holding → s.parsed file = some y.pid := by
    intro hxlate y hy hyh
    have hfaced := hinv.faces x hx hxlate y hy hyh
    rw [hpc] at hfaced
    have hpath : s.file.path = some file := hfaced
    have hname := hinv.named y hy hyh
    rw [Host.named, hpath] at hname
    exact hname
  cases ok with
  | false =>
    have hreads := (huncrossed x hx rfl).2
    refine hinv.toWrite hx ?_ ?_ (fun _ _ h => h) fun _ => hreads (by rw [hpc]; rfl) rfl
    · simp [Host.perform, hpc]
    · simp [Host.perform, hpc]
  | true =>
    cases hparsed : s.parsed file with
    | none =>
      refine hinv.toWrite hx ?_ ?_ (fun _ _ h => h) ?_
      · simp [Host.perform, hpc, hparsed]
      · simp [Host.perform, hpc, hparsed]
      · intro hxlate y hy hyh
        have hname := hread hxlate y hy hyh
        rw [hparsed] at hname
        cases hname
    | some oldPid =>
      refine hinv.inside hx (.check oldPid) ?_ ?_ (by simp) (by simp) (fun _ _ h => h) ?_
      · simp [Host.perform, hpc, hparsed]
      · simp [Host.perform, hpc, hparsed]
      · intro hxlate y hy hyh
        exact Option.some.inj (hparsed.symm.trans (hread hxlate y hy hyh))

/-- A step of an instance. -/
theorem TakesTurns.performed (hinv : TakesTurns s late) (hx : x ∈ s.instances)
    (huncrossed : Uncrossed (s, late) (.advance x.pid ok)) :
    TakesTurns (s.performed x ok) (overtaken s (.advance x.pid ok) (s.performed x ok) late) := by
  by_cases hread : x.pc = .openRead
  · rw [overtaken_openRead hx hread]
    exact hinv.openedRead hx hread huncrossed
  by_cases hwrite : x.pc.writes = true ∧ ok = true
  · obtain ⟨hwrites, rfl⟩ := hwrite
    have hxlate := (huncrossed x hx rfl).1 hwrites rfl
    rw [overtaken_writes hx hwrites]
    cases hpc : x.pc with
    | openWrite => exact hinv.opened hx hpc hxlate
    | write file => exact hinv.wrote hx hpc hxlate
    | _ =>
      rw [hpc] at hwrites
      cases hwrites
  have hfails : x.pc.writes = true → ok = false := by
    intro hwrites
    simpa [hwrites] using hwrite
  rw [overtaken_of_not hx hread hfails]
  have hfaced := hinv.faces x hx
  have hsame : ∀ pid, pid ≠ x.pid → pid ∉ late → pid ∉ late := fun _ _ h => h
  obtain ⟨pid, pgid, pc⟩ := x
  cases pc with
  | openRead => exact absurd rfl hread
  | createDir =>
    refine hinv.outside hx rfl ?_
    intro pc hnext
    obtain rfl := Option.some.inj hnext
    cases ok <;> simp [Pc.inside]
  | read file => exact hinv.readFile hx rfl huncrossed
  | check oldPid =>
    cases hold : s.processAlive oldPid with
    | true =>
      refine hinv.inside hx (.signal .term oldPid) rfl ?_ (by simp) (by simp) hsame hfaced
      simp [Host.perform, hold]
    | false =>
      refine hinv.toWrite hx rfl ?_ hsame fun hlate => not_holding_of_dead (hfaced hlate) hold
      simp [Host.perform, hold]
  | signal sig oldPid =>
    exact hinv.inside hx (.poll sig oldPid 0) rfl rfl (by simp) (by simp) hsame hfaced
  | poll sig oldPid round =>
    by_cases hround : round < sig.polls ∧ s.processAlive oldPid
    · refine hinv.inside hx (.poll sig oldPid (round + 1)) rfl ?_ (by simp) (by simp) hsame hfaced
      simp [Host.perform, hround]
    · refine hinv.inside hx (.recheck sig oldPid) rfl ?_ (by simp) (by simp) hsame hfaced
      simp only [Host.perform]
      rw [if_neg hround]
  | recheck sig oldPid =>
    cases hold : s.processAlive oldPid with
    | false =>
      refine hinv.toWrite hx ?_ ?_ hsame fun hlate => not_holding_of_dead (hfaced hlate) hold
      · cases sig <;> rfl
      · cases sig <;> simp [Host.perform, hold]
    | true =>
      cases sig with
      | term =>
        refine hinv.inside hx (.signal .kill oldPid) rfl ?_ (by simp) (by simp) hsame hfaced
        simp [Host.perform, hold]
      | kill =>
        refine hinv.outside hx rfl ?_
        intro pc hnext
        simp only [Host.perform, hold, if_true, Option.some.injEq] at hnext
        subst hnext
        exact ⟨rfl, by simp⟩
  | openWrite | write =>
    obtain rfl := hfails rfl
    refine hinv.outside hx rfl ?_
    intro pc hnext
    obtain rfl := Option.some.inj hnext
    exact ⟨rfl, by simp⟩
  | holding =>
    cases ok with
    | true => exact hinv.dropped hx rfl
    | false =>
      refine hinv.outside hx rfl ?_
      intro pc hnext
      obtain rfl := Option.some.inj hnext
      exact ⟨rfl, by simp⟩
  | released | failed =>
    refine hinv.outside hx rfl ?_
    intro pc hnext
    cases hnext

/-- **The step lemma.** -/
theorem TakesTurns.step (hinv : TakesTurns s late) (huncrossed : Uncrossed (s, late) a)
    (h : s.step a = some s') : TakesTurns s' (overtaken s a s' late) := by
  rcases Host.step_cases h with ⟨pid, pgid, program, hcan, rfl, rfl⟩ | ⟨x, ok, rfl, hx, rfl⟩ |
    ⟨pid, p, rfl, hget, rfl⟩ | ⟨pid, pgid, rfl, hget, rfl⟩
  · refine hinv.mono rfl ?_
    intro y hy
    rcases (Host.mem_instances_start program hcan).mp hy with ⟨-, rfl⟩ | hy
    · exact .inr ⟨rfl, by simp⟩
    · exact .inl hy
  · exact hinv.performed hx huncrossed
  · refine hinv.mono rfl ?_
    intro y hy
    exact .inl ((Host.mem_instances_stop hget).mp hy).2
  · refine hinv.mono rfl ?_
    intro y hy
    exact .inl ((Host.mem_instances_reap hget).mp hy)

end Steps

/-! ## Every run -/

/-- **One instance at a time.**  From any state without instances, whatever the PID file
says: in every run of launches, clean exits, deaths and other processes in which no launch
opens the PID file for writing, or writes to it, when another has since it opened the file
for reading, and in which reading the file does not fail while a guard is held, at most one
live instance holds a guard and the PID file names it. -/
theorem exclusive_of_uncrossed {s₀ s : Host} {late : List UInt32} (h₀ : s₀.instances = [])
    (h : (hosting.watch overtaken).Reach Uncrossed (s₀, []) (s, late)) : Exclusive s := by
  have hinv : TakesTurns s late := by
    refine h.invariant (I := fun p => TakesTurns p.1 p.2) ?_ ?_
    · constructor <;> simp [h₀]
    · rintro ⟨s, late⟩ a ⟨s', late'⟩ hinv huncrossed hs
      obtain ⟨hstep, hnote⟩ := Machine.watch_step.mp hs
      obtain rfl : late' = overtaken s a s' late := hnote
      exact hinv.step huncrossed hstep
  exact ⟨hinv.one_holder, hinv.named⟩

/-! ## Runs -/

/-- Instance 200 takes over from instance 100, which SIGTERM ends; a launch at the same time
has read the PID file and ends before it writes. -/
def takenOver : List Action :=
  launched 100 :: advances 100 4 ++ [launched 200, launched 300] ++ advances 200 3 ++
    advances 300 4 ++ advances 200 3 ++ killed 100 ++ killed 300 ++ advances 200 4

/-- Both read the PID file before either has written it. -/
def bothLaunched : List Action :=
  [launched 100, launched 200] ++ advances 100 2 ++ advances 200 2 ++ advances 100 2 ++
    advances 200 2

/-- After a takeover, one instance holds a guard, and the only one. -/
theorem exclusive_takenOver : ∃ s : Host, s.instances = [⟨200, 200, .holding⟩] ∧ Exclusive s := by
  obtain ⟨⟨s, late⟩, hreach, hinstances⟩ := Machine.exists_reach_of_exec
    (m := hosting.watch overtaken) (G := Uncrossed) (s := (.fresh, []))
    (P := fun p => p.1.instances = [⟨200, 200, .holding⟩]) takenOver (by decide +kernel)
  exact ⟨s, hinstances, exclusive_of_uncrossed (by decide) hreach⟩

/-- Two launches at once end up with a guard each; and when the first of them exits, it
removes the PID file of the one that goes on. -/
theorem not_exclusive_bothLaunched :
    (∃ s : Host, hosting.Reach Machine.anyStep .fresh s ∧
      (s.instances.filter (·.pc = .holding)).length = 2 ∧ ¬ Exclusive s) ∧
    ∃ s : Host, hosting.Reach Machine.anyStep .fresh s ∧
      s.instances = [⟨200, 200, .holding⟩] ∧ s.named = none ∧ ¬ Exclusive s := by
  constructor
  · exact Machine.exists_reach_of_exec (m := hosting) (G := Machine.anyStep) (s := .fresh)
      (P := fun s => (s.instances.filter (·.pc = .holding)).length = 2 ∧ ¬ Exclusive s)
      bothLaunched (by decide +kernel)
  · exact Machine.exists_reach_of_exec (m := hosting) (G := Machine.anyStep) (s := .fresh)
      (P := fun s => s.instances = [⟨200, 200, .holding⟩] ∧ s.named = none ∧ ¬ Exclusive s)
      (bothLaunched ++ advances 100 2 ++ [.reap 100]) (by decide +kernel)

end Anonet.Cli
