import Anonet.Cli.InstanceLock

/-!
# Whom `acquire` signals

`acquire` takes the process with the PID in the file for an earlier instance.  The PID may
have been given to another process since, or to the launch itself, and two launches can
write a number into the file that is the PID of neither.

* `Sent.Rightful` — the signal went to the group of another live instance, or to nobody.
* `Orderly` — what the operating system and the launches must respect for that.
* `rightful_of_orderly` — **in every orderly run every signal is rightful.**
-/

namespace Anonet.Cli

def Activity.isAnonet : Activity → Bool
  | .unrelated => false
  | .anonet _ => true

/-- A signal that reaches anybody reaches the group that another live instance leads, and
not its sender. -/
def Sent.Rightful (e : Sent) : Prop :=
  e.reached ≠ [] → ∃ y ∈ e.reached, y.2.running.any Activity.isAnonet ∧ y.1 ≠ e.sender ∧
    ∀ z ∈ e.reached, z.2.pgid = y.1 ∧ z.1 ≠ e.sender

instance (e : Sent) : Decidable e.Rightful := inferInstanceAs (Decidable (_ → _))

/-! ## What is remembered of earlier instances -/

/-- The process that `acquire` may still send a signal to. -/
def Pc.target : Pc → Option UInt32
  | .check oldPid | .signal _ oldPid | .poll .term oldPid _ | .recheck .term oldPid => some oldPid
  | _ => none

/-- In `acquire`, up to the read of the PID file. -/
def Pc.unread : Pc → Bool
  | .createDir | .openRead | .read _ => true
  | _ => false

/-- The file that an instance has opened. -/
def Pc.file : Pc → Option ℕ
  | .read file | .write file => some file
  | _ => none

namespace Host

/-- The files that a launch can read: the one at the path, and those being read. -/
def readable (s : Host) : List ℕ :=
  s.file.path.toList ++ s.instances.filterMap fun x =>
    match x.pc with
    | .read file => some file
    | _ => none

/-- A launch can read this PID. -/
def Names (s : Host) (pid : UInt32) : Prop := ∃ file ∈ s.readable, s.parsed file = some pid

/-- An unrelated process runs under this PID. -/
def Reused (s : Host) (pid : UInt32) : Prop :=
  (s.procs.get pid).any (·.running = some .unrelated) = true

instance (s : Host) (pid : UInt32) : Decidable (s.Names pid) :=
  inferInstanceAs (Decidable (∃ _ ∈ _, _))

instance (s : Host) (pid : UInt32) : Decidable (s.Reused pid) :=
  inferInstanceAs (Decidable (_ = true))

end Host

/-- No launch opens the PID file to write while another, whose PID has a different number
of digits, is about to write to it; and when a signal is sent, the process found alive
before is still running and its PID not that of an unrelated process, or the signal reaches
nobody. -/
def Instance.Orderly (s : Host) (x : Instance) : Prop :=
  match x.pc with
  | .openWrite => ∀ y ∈ s.instances, y.pc = .write s.file.openedFile →
      (Text.digits y.pid.toNat).length = (Text.digits x.pid.toNat).length
  | .signal _ oldPid =>
    s.procs.isRunning oldPid ∧ ¬ s.Reused oldPid ∨ s.procs.signalled x.pgid oldPid = []
  | _ => True

instance (s : Host) (x : Instance) : Decidable (x.Orderly s) := by
  unfold Instance.Orderly
  split <;> infer_instance

/-- The operating system gives no PID to an instance that a launch can read; an instance is
not process 1, and starts in a group of its own or in one that neither the PID file nor
another instance has for its PID. -/
def Orderly (s : Host) : Action → Prop
  | .start pid pgid .anonet =>
    pid ≠ 1 ∧ ¬ s.Names pid ∧
      (pgid = pid ∨ ¬ s.Names pgid ∧ ∀ y ∈ s.instances, y.pid ≠ pgid)
  | .advance pid _ => ∀ x ∈ s.instances, x.pid = pid → x.Orderly s
  | _ => True

instance (s : Host) : ∀ a, Decidable (Orderly s a)
  | .start _ _ .anonet => inferInstanceAs (Decidable (_ ∧ _))
  | .advance _ _ => inferInstanceAs (Decidable (∀ _ ∈ _, _))
  | .start _ _ .unrelated | .die _ | .reap _ => inferInstanceAs (Decidable True)

/-! ## The invariant -/

structure Unmistaken (s : Host) : Prop where
  /-- No instance is in the group of another. -/
  apart : ∀ x ∈ s.instances, ∀ y ∈ s.instances, y.pid ≠ x.pid → y.pgid ≠ x.pid
  not_init : ∀ x ∈ s.instances, x.pid ≠ 1
  /-- Only instances have written to the files. -/
  names : ∀ pid, s.Names pid → pid ≠ 1
  unread : ∀ x ∈ s.instances, x.pc.unread → ∀ pid, s.Names pid → x.pid ≠ pid ∧ x.pgid ≠ pid
  target : ∀ x ∈ s.instances, ∀ pid, x.pc.target = some pid →
    pid ≠ 1 ∧ x.pid ≠ pid ∧ x.pgid ≠ pid
  opened : ∀ x ∈ s.instances, ∀ file, x.pc.file = some file → file < s.file.files.length
  /-- A write covers all that the file holds. -/
  covers : ∀ x ∈ s.instances, ∀ file, x.pc = .write file →
    (s.file.contents file).length ≤ (Text.digits x.pid.toNat).length
  same_length : ∀ x ∈ s.instances, ∀ y ∈ s.instances, ∀ file, x.pc = .write file →
    y.pc = .write file → (Text.digits x.pid.toNat).length = (Text.digits y.pid.toNat).length
  rightful : ∀ e ∈ s.sent, e.Rightful

section Steps

variable {s s' : Host} {x y : Instance} {ok : Bool} {a : Action} {pc : Pc} {pid pgid g : UInt32}

theorem mem_readable {file : ℕ} :
    file ∈ s.readable ↔ s.file.path = some file ∨ ∃ x ∈ s.instances, x.pc = .read file := by
  have hreading : file ∈ (s.instances.filterMap fun x =>
      match x.pc with
      | .read file => some file
      | _ => none) ↔ ∃ x ∈ s.instances, x.pc = .read file := by
    rw [List.mem_filterMap]
    constructor
    · rintro ⟨x, hx, hfound⟩
      split at hfound
      · rename_i file' hpc
        obtain rfl := Option.some.inj hfound
        exact ⟨x, hx, hpc⟩
      · cases hfound
    · rintro ⟨x, hx, hpc⟩
      exact ⟨x, hx, by rw [hpc]⟩
  rw [Host.readable, List.mem_append, hreading, Option.mem_toList]

/-- Without a change to the file, and with no other file opened for reading. -/
theorem names_mono (hfile : s'.file = s.file)
    (hread : ∀ y ∈ s'.instances, ∀ file, y.pc = .read file → file ∈ s.readable)
    (h : s'.Names g) : s.Names g := by
  obtain ⟨file, hmem, hparsed⟩ := h
  refine ⟨file, ?_, ?_⟩
  · rcases mem_readable.mp hmem with hpath | ⟨y, hy, hpc⟩
    · rw [hfile] at hpath
      exact mem_readable.mpr (.inl hpath)
    · exact hread y hy file hpc
  · rw [Host.parsed, hfile] at hparsed
    exact hparsed

/-- An empty file names nobody. -/
theorem parsed_eq_none {file : ℕ} (h : s.file.contents file = []) : s.parsed file = none := by
  rw [Host.parsed, h]
  rfl

/-- With no file opened by the step, whoever has one open had it before. -/
theorem mem_of_opened {file : ℕ} (hx : x ∈ s.instances) (hnext : (s.perform x ok).next = some pc)
    (hpc : pc.file = none) (hy : y ∈ (s.performed x ok).instances) (hfile : y.pc.file = some file) :
    y ∈ s.instances := by
  rcases Host.mem_instances_moved hx hnext hy with rfl | ⟨-, hy⟩
  · rw [hpc] at hfile
    cases hfile
  · exact hy

/-- **Whom a signal reaches.** -/
theorem Unmistaken.rightful_signal {sig : Signal} (hinv : Unmistaken s) (hx : x ∈ s.instances)
    (hpc : x.pc = .signal sig g) (horderly : x.Orderly s) :
    Sent.Rightful ⟨sig, x.pid, g, s.procs.signalled x.pgid g⟩ := by
  have htarget : x.pc.target = some g := by
    rw [hpc]
    rfl
  obtain ⟨hne, hpid, hpgid⟩ := hinv.target x hx g htarget
  rw [Instance.Orderly, hpc] at horderly
  intro hreached
  rcases horderly with ⟨hrunning, hreused⟩ | hnobody
  · obtain ⟨p, hget, hsome⟩ := Option.any_eq_true _ _ |>.mp hrunning
    obtain ⟨activity, hactivity⟩ := Option.isSome_iff_exists.mp hsome
    have hanonet : p.running.any Activity.isAnonet := by
      cases activity with
      | unrelated => exact absurd (by simp [Host.Reused, hget, hactivity]) hreused
      | anonet pc => simp [hactivity, Activity.isAnonet]
    have hgroup : s.procs.signalled x.pgid g = s.procs.group g :=
      ProcessTable.signalled_of_ne (s.procs.pid_ne_zero g p hget) hne
    -- whoever is in the group, the process with its ID leads it
    obtain ⟨z, hz⟩ := List.exists_mem_of_ne_nil _ hreached
    have hz' : z ∈ s.procs.group g := hgroup ▸ hz
    obtain ⟨hzget, -, hzpgid⟩ := ProcessTable.mem_group.mp hz'
    have hleads : p.pgid = g := s.procs.leads g p z.1 z.2 hget hzget hzpgid
    refine ⟨⟨g, p⟩, ?_, hanonet, Ne.symm hpid, ?_⟩
    · show _ ∈ s.procs.signalled x.pgid g
      rw [hgroup]
      exact ProcessTable.mem_group.mpr ⟨hget, hsome, hleads⟩
    · intro w hw
      have hw' : w ∈ s.procs.group g := hgroup ▸ hw
      obtain ⟨hwget, -, hwpgid⟩ := ProcessTable.mem_group.mp hw'
      refine ⟨hwpgid, ?_⟩
      intro hself
      have hsender := Host.mem_instances.mp hx
      rw [hself] at hwget
      have hsame : x.process = w.2 := Option.some.inj (hsender.symm.trans hwget)
      rw [← hsame] at hwpgid
      exact hpgid hwpgid
  · exact absurd hnobody hreached

/-! ### What a step leaves -/

/-- With no new instance and no change to the file. -/
theorem Unmistaken.mono (hinv : Unmistaken s) (hfile : s'.file = s.file)
    (hsent : s'.sent = s.sent) (hsub : ∀ y ∈ s'.instances, y ∈ s.instances) : Unmistaken s' := by
  have hnames : ∀ g, s'.Names g → s.Names g := by
    intro g hg
    refine names_mono hfile ?_ hg
    intro y hy file hpc
    exact mem_readable.mpr (.inr ⟨y, hsub y hy, hpc⟩)
  constructor
  · intro x hx y hy hne
    exact hinv.apart x (hsub x hx) y (hsub y hy) hne
  · intro x hx
    exact hinv.not_init x (hsub x hx)
  · intro g hg
    exact hinv.names g (hnames g hg)
  · intro x hx hunread g hg
    exact hinv.unread x (hsub x hx) hunread g (hnames g hg)
  · intro x hx
    exact hinv.target x (hsub x hx)
  · intro x hx
    rw [hfile]
    exact hinv.opened x (hsub x hx)
  · intro x hx
    rw [hfile]
    exact hinv.covers x (hsub x hx)
  · intro x hx y hy
    exact hinv.same_length x (hsub x hx) y (hsub y hy)
  · rw [hsent]
    exact hinv.rightful

/-- A launch, with a PID and in a group that no earlier instance left behind. -/
theorem Unmistaken.launched (hinv : Unmistaken s) (hcan : s.procs.CanStart pid pgid)
    (horderly : Orderly s (.start pid pgid .anonet))
    (hs : s' = { s with procs := s.procs.start pid pgid (.anonet .createDir) hcan }) :
    Unmistaken s' := by
  obtain ⟨hinit, hpid, hpgid⟩ := horderly
  have hfile : s'.file = s.file := by rw [hs]
  have hsent : s'.sent = s.sent := by rw [hs]
  have hcases : ∀ y ∈ s'.instances, y = ⟨pid, pgid, .createDir⟩ ∨ y ∈ s.instances := by
    intro y hy
    rw [hs] at hy
    rcases (Host.mem_instances_start .anonet hcan).mp hy with ⟨-, rfl⟩ | hy
    · exact .inl rfl
    · exact .inr hy
  have hold : ∀ y ∈ s'.instances, y.pc ≠ .createDir → y ∈ s.instances := by
    intro y hy hpc
    rcases hcases y hy with rfl | hy
    · exact absurd rfl hpc
    · exact hy
  have hnames : ∀ g, s'.Names g → s.Names g := by
    intro g hg
    refine names_mono hfile ?_ hg
    intro y hy file hpc
    exact mem_readable.mpr (.inr ⟨y, hold y hy (by simp [hpc]), hpc⟩)
  have hnewgroup : ∀ y ∈ s.instances, y.pid ≠ pgid := by
    intro y hy
    rcases hpgid with rfl | ⟨-, hothers⟩
    · exact Host.pid_ne_of_canStart hcan hy
    · exact hothers y hy
  constructor
  · intro x hx y hy hne
    rcases hcases y hy with rfl | hy
    · rcases hcases x hx with rfl | hx
      · exact absurd rfl hne
      · exact (hnewgroup x hx).symm
    · rcases hcases x hx with rfl | hx
      · exact hcan.pgid_ne (Host.mem_instances.mp hy)
      · exact hinv.apart x hx y hy hne
  · intro x hx
    rcases hcases x hx with rfl | hx
    · exact hinit
    · exact hinv.not_init x hx
  · intro g hg
    exact hinv.names g (hnames g hg)
  · intro x hx hunread g hg
    rcases hcases x hx with rfl | hx
    · refine ⟨?_, ?_⟩
      · rintro rfl
        exact hpid (hnames _ hg)
      · rintro rfl
        rcases hpgid with rfl | ⟨hnot, -⟩
        · exact hpid (hnames _ hg)
        · exact hnot (hnames _ hg)
    · exact hinv.unread x hx hunread g (hnames g hg)
  · intro x hx g hg
    rcases hcases x hx with rfl | hx
    · cases hg
    · exact hinv.target x hx g hg
  · intro x hx file hopen
    rw [hfile]
    rcases hcases x hx with rfl | hx
    · cases hopen
    · exact hinv.opened x hx file hopen
  · intro x hx file hpc
    rw [hfile]
    exact hinv.covers x (hold x hx (by simp [hpc])) file hpc
  · intro x hx y hy file hxw hyw
    exact hinv.same_length x (hold x hx (by simp [hxw])) y (hold y hy (by simp [hyw])) file hxw hyw
  · rw [hsent]
    exact hinv.rightful

/-- A step of instance `x`, from what it does to the PIDs that can be read, to the place
of `x` and to the files that are open. -/
theorem Unmistaken.of_performed (hinv : Unmistaken s) (hx : x ∈ s.instances)
    (hs : s' = s.performed x ok)
    (hnames : ∀ g, s'.Names g → s.Names g ∨ g = x.pid ∧ x.pc.unread = false)
    (hunread : ∀ pc, (s.perform x ok).next = some pc → pc.unread → x.pc.unread)
    (htarget : ∀ pc g, (s.perform x ok).next = some pc → pc.target = some g →
      x.pc.target = some g ∨ x.pc.unread ∧ s.Names g)
    (hsent : ∀ e ∈ (s.perform x ok).sent, e.Rightful)
    (hopened : ∀ y ∈ s'.instances, ∀ file, y.pc.file = some file → file < s'.file.files.length)
    (hcovers : ∀ y ∈ s'.instances, ∀ file, y.pc = .write file →
      (s'.file.contents file).length ≤ (Text.digits y.pid.toNat).length)
    (hlength : ∀ y ∈ s'.instances, ∀ z ∈ s'.instances, ∀ file, y.pc = .write file →
      z.pc = .write file → (Text.digits y.pid.toNat).length = (Text.digits z.pid.toNat).length) :
    Unmistaken s' := by
  have hcases : ∀ y ∈ s'.instances,
      (∃ pc, (s.perform x ok).next = some pc ∧ y = { x with pc := pc }) ∨
        y.pid ≠ x.pid ∧ y ∈ s.instances := by
    intro y hy
    rw [hs] at hy
    exact (Host.mem_instances_performed hx).mp hy
  -- the place of an instance may have changed, its process and group IDs have not
  have hids : ∀ y ∈ s'.instances, ∃ z ∈ s.instances, z.pid = y.pid ∧ z.pgid = y.pgid := by
    intro y hy
    rcases hcases y hy with ⟨pc, -, rfl⟩ | ⟨-, hy⟩
    · exact ⟨x, hx, rfl, rfl⟩
    · exact ⟨y, hy, rfl, rfl⟩
  constructor
  · intro y hy z hz hne
    obtain ⟨y₀, hy₀, hypid, -⟩ := hids y hy
    obtain ⟨z₀, hz₀, hzpid, hzpgid⟩ := hids z hz
    rw [← hypid, ← hzpgid]
    exact hinv.apart y₀ hy₀ z₀ hz₀ (by rw [hypid, hzpid]; exact hne)
  · intro y hy
    obtain ⟨y₀, hy₀, hypid, -⟩ := hids y hy
    rw [← hypid]
    exact hinv.not_init y₀ hy₀
  · intro g hg
    rcases hnames g hg with hg | ⟨rfl, -⟩
    · exact hinv.names g hg
    · exact hinv.not_init x hx
  · intro y hy hyunread g hg
    rcases hcases y hy with ⟨pc, hnext, rfl⟩ | ⟨hne, hy⟩
    · have hxunread := hunread pc hnext hyunread
      rcases hnames g hg with hg | ⟨-, hread⟩
      · exact hinv.unread x hx hxunread g hg
      · rw [hread] at hxunread
        cases hxunread
    · rcases hnames g hg with hg | ⟨rfl, -⟩
      · exact hinv.unread y hy hyunread g hg
      · exact ⟨hne, hinv.apart x hx y hy hne⟩
  · intro y hy g hg
    rcases hcases y hy with ⟨pc, hnext, rfl⟩ | ⟨-, hy⟩
    · rcases htarget pc g hnext hg with hg | ⟨hxunread, hg⟩
      · exact hinv.target x hx g hg
      · exact ⟨hinv.names g hg, hinv.unread x hx hxunread g hg⟩
    · exact hinv.target y hy g hg
  · exact hopened
  · exact hcovers
  · exact hlength
  · intro e he
    rw [hs] at he
    rcases List.mem_append.mp he with he | he
    · exact hinv.rightful e he
    · exact hsent e he

/-- The moves that leave the file alone. -/
theorem Unmistaken.moved (hinv : Unmistaken s) (hx : x ∈ s.instances)
    (hfile : (s.perform x ok).file = s.file)
    (hunread : ∀ pc, (s.perform x ok).next = some pc → pc.unread → x.pc.unread)
    (htarget : ∀ pc g, (s.perform x ok).next = some pc → pc.target = some g →
      x.pc.target = some g ∨ x.pc.unread ∧ s.Names g)
    (hopen : ∀ pc file, (s.perform x ok).next = some pc → pc.file = some file →
      pc = .read file ∧ s.file.path = some file)
    (hsent : ∀ e ∈ (s.perform x ok).sent, e.Rightful) : Unmistaken (s.performed x ok) := by
  have hfile' : (s.performed x ok).file = s.file := hfile
  have hwriting : ∀ y ∈ (s.performed x ok).instances, ∀ file, y.pc = .write file →
      y ∈ s.instances := by
    intro y hy file hpc
    rcases (Host.mem_instances_performed hx).mp hy with ⟨pc, hnext, rfl⟩ | ⟨-, hy⟩
    · obtain rfl : pc = .write file := hpc
      have hread := (hopen _ file hnext rfl).1
      cases hread
    · exact hy
  refine hinv.of_performed hx rfl ?_ hunread htarget hsent ?_ ?_ ?_
  · intro g hg
    refine .inl (names_mono hfile' ?_ hg)
    intro y hy file hpc
    rcases (Host.mem_instances_performed hx).mp hy with ⟨pc, hnext, rfl⟩ | ⟨-, hy⟩
    · obtain rfl : pc = .read file := hpc
      exact mem_readable.mpr (.inl (hopen _ file hnext rfl).2)
    · exact mem_readable.mpr (.inr ⟨y, hy, hpc⟩)
  · intro y hy file hyfile
    rw [hfile']
    rcases (Host.mem_instances_performed hx).mp hy with ⟨pc, hnext, rfl⟩ | ⟨-, hy⟩
    · exact s.file.path_lt file (hopen pc file hnext hyfile).2
    · exact hinv.opened y hy file hyfile
  · intro y hy file hpc
    rw [hfile']
    exact hinv.covers y (hwriting y hy file hpc) file hpc
  · intro y hy z hz file hyw hzw
    exact hinv.same_length y (hwriting y hy file hyw) z (hwriting z hz file hzw) file hyw hzw

/-- The file at the path is opened for reading. -/
theorem Unmistaken.openedRead (hinv : Unmistaken s) (hx : x ∈ s.instances)
    (hpc : x.pc = .openRead) : Unmistaken (s.performed x ok) := by
  have hnext : ∀ pc, (s.perform x ok).next = some pc →
      pc = .openWrite ∨ ∃ file, pc = .read file ∧ s.file.path = some file := by
    intro pc hnext
    simp only [Host.perform, hpc] at hnext
    split at hnext
    · rename_i file hpath
      exact .inr ⟨file, (Option.some.inj hnext).symm, hpath⟩
    · exact .inl (Option.some.inj hnext).symm
  refine hinv.moved hx ?_ ?_ ?_ ?_ ?_
  · simp only [Host.perform, hpc]
    split <;> rfl
  · intro pc _ _
    rw [hpc]
    rfl
  · intro pc g h htarget
    rcases hnext pc h with rfl | ⟨file, rfl, -⟩ <;> cases htarget
  · intro pc file h hopen
    rcases hnext pc h with rfl | ⟨file', rfl, hpath⟩
    · cases hopen
    · obtain rfl : file' = file := Option.some.inj hopen
      exact ⟨rfl, hpath⟩
  · simp only [Host.perform, hpc]
    split <;> simp

/-- The PID to look at comes from a file that can be read. -/
theorem Unmistaken.readFile {file : ℕ} (hinv : Unmistaken s) (hx : x ∈ s.instances)
    (hpc : x.pc = .read file) : Unmistaken (s.performed x ok) := by
  have hnext : ∀ pc, (s.perform x ok).next = some pc →
      pc = .openWrite ∨ ∃ oldPid, pc = .check oldPid ∧ s.parsed file = some oldPid := by
    intro pc hnext
    simp only [Host.perform, hpc] at hnext
    split at hnext
    · rename_i oldPid hparsed
      exact .inr ⟨oldPid, (Option.some.inj hnext).symm, hparsed⟩
    · exact .inl (Option.some.inj hnext).symm
  refine hinv.moved hx ?_ ?_ ?_ ?_ ?_
  · simp only [Host.perform, hpc]
    split <;> rfl
  · intro pc _ _
    rw [hpc]
    rfl
  · intro pc g h htarget
    rcases hnext pc h with rfl | ⟨oldPid, rfl, hparsed⟩
    · cases htarget
    · obtain rfl : oldPid = g := Option.some.inj htarget
      exact .inr ⟨by rw [hpc]; rfl, file, mem_readable.mpr (.inr ⟨x, hx, hpc⟩), hparsed⟩
  · intro pc file' h hopen
    rcases hnext pc h with rfl | ⟨oldPid, rfl, -⟩ <;> cases hopen
  · simp only [Host.perform, hpc]
    split <;> simp

/-- The moves of an instance that has read the PID file and leaves it alone, or is done
with it: it keeps the process it looks at, or gives it up. -/
theorem Unmistaken.wentOn (hinv : Unmistaken s) (hx : x ∈ s.instances)
    (hfile : (s.perform x ok).file = s.file)
    (hnext : ∀ pc, (s.perform x ok).next = some pc →
      pc.unread = false ∧ pc.file = none ∧ (pc.target = x.pc.target ∨ pc.target = none))
    (hsent : ∀ e ∈ (s.perform x ok).sent, e.Rightful) : Unmistaken (s.performed x ok) := by
  refine hinv.moved hx hfile ?_ ?_ ?_ hsent
  · intro pc h hunread
    rw [(hnext pc h).1] at hunread
    cases hunread
  · intro pc g h htarget
    rcases (hnext pc h).2.2 with hsame | hnone
    · exact .inl (hsame.symm.trans htarget)
    · rw [hnone] at htarget
      cases htarget
  · intro pc file h hopen
    rw [(hnext pc h).2.1] at hopen
    cases hopen

/-- The moves that touch the PID file: the instance is past reading it, and signals nobody
any more. -/
theorem Unmistaken.touched (hinv : Unmistaken s) (hx : x ∈ s.instances)
    (hnext : (s.perform x ok).next = some pc) (hread : pc.unread = false)
    (htarget : pc.target = none) (hsent : (s.perform x ok).sent = [])
    (hnames : ∀ g, (s.performed x ok).Names g → s.Names g ∨ g = x.pid ∧ x.pc.unread = false)
    (hopened : ∀ y ∈ (s.performed x ok).instances, ∀ file, y.pc.file = some file →
      file < (s.performed x ok).file.files.length)
    (hcovers : ∀ y ∈ (s.performed x ok).instances, ∀ file, y.pc = .write file →
      ((s.performed x ok).file.contents file).length ≤ (Text.digits y.pid.toNat).length)
    (hlength : ∀ y ∈ (s.performed x ok).instances, ∀ z ∈ (s.performed x ok).instances, ∀ file,
      y.pc = .write file → z.pc = .write file →
        (Text.digits y.pid.toNat).length = (Text.digits z.pid.toNat).length) :
    Unmistaken (s.performed x ok) := by
  refine hinv.of_performed hx rfl hnames ?_ ?_ ?_ hopened hcovers hlength
  · intro pc' h hunread
    obtain rfl : pc = pc' := Option.some.inj (hnext.symm.trans h)
    rw [hread] at hunread
    cases hunread
  · intro pc' g h hg
    obtain rfl : pc = pc' := Option.some.inj (hnext.symm.trans h)
    rw [htarget] at hg
    cases hg
  · simp [hsent]

/-- The ones among them after which the instance has the PID file open no more; what they
do to the file is then a matter of those who had it open before. -/
theorem Unmistaken.closed (hinv : Unmistaken s) (hx : x ∈ s.instances)
    (hnext : (s.perform x ok).next = some pc) (hread : pc.unread = false)
    (htarget : pc.target = none) (hclosed : pc.file = none) (hsent : (s.perform x ok).sent = [])
    (hnames : ∀ file g, ((s.performed x ok).file.path = some file ∨
      ∃ y ∈ s.instances, y.pc = .read file) → (s.performed x ok).parsed file = some g →
        s.Names g ∨ g = x.pid ∧ x.pc.unread = false)
    (hopened : ∀ y ∈ s.instances, ∀ file, y.pc.file = some file →
      file < (s.performed x ok).file.files.length)
    (hcovers : ∀ y ∈ s.instances, ∀ file, y.pc = .write file →
      ((s.performed x ok).file.contents file).length ≤ (Text.digits y.pid.toNat).length) :
    Unmistaken (s.performed x ok) := by
  have hopen : ∀ y ∈ (s.performed x ok).instances, ∀ i, y.pc.file = some i → y ∈ s.instances := by
    intro y hy i hyfile
    exact mem_of_opened hx hnext hclosed hy hyfile
  refine hinv.touched hx hnext hread htarget hsent ?_ ?_ ?_ ?_
  · rintro g ⟨i, hreadable, hparsed⟩
    refine hnames i g ((mem_readable.mp hreadable).imp_right ?_) hparsed
    rintro ⟨y, hy, hyr⟩
    exact ⟨y, hopen y hy i (by rw [hyr]; rfl), hyr⟩
  · intro y hy i hyfile
    exact hopened y (hopen y hy i hyfile) i hyfile
  · intro y hy i hyw
    exact hcovers y (hopen y hy i (by rw [hyw]; rfl)) i hyw
  · intro y hy z hz i hyw hzw
    exact hinv.same_length y (hopen y hy i (by rw [hyw]; rfl)) z (hopen z hz i (by rw [hzw]; rfl))
      i hyw hzw

/-- A system call fails, and the instance is done with the PID file. -/
theorem Unmistaken.failedCall (hinv : Unmistaken s) (hx : x ∈ s.instances) (pc : Pc)
    (hnext : (s.perform x ok).next = some pc) (hfile : (s.perform x ok).file = s.file)
    (hsent : (s.perform x ok).sent = []) (hread : pc.unread = false) (hopen : pc.file = none)
    (htarget : pc.target = none) : Unmistaken (s.performed x ok) := by
  refine hinv.wentOn hx hfile ?_ ?_
  · intro pc' h
    obtain rfl : pc = pc' := Option.some.inj (hnext.symm.trans h)
    exact ⟨hread, hopen, .inr htarget⟩
  · simp [hsent]

/-- The PID file is opened for writing, and emptied. -/
theorem Unmistaken.openedWrite (hinv : Unmistaken s) (hx : x ∈ s.instances)
    (hpc : x.pc = .openWrite) (horderly : x.Orderly s) : Unmistaken (s.performed x true) := by
  rw [Instance.Orderly, hpc] at horderly
  have hnext : (s.perform x true).next = some (.write s.file.openedFile) := by
    simp [Host.perform, hpc]
  have hfile : (s.performed x true).file = s.file.openTruncated := by
    simp [Host.performed, Host.perform, hpc]
  have hsent : (s.perform x true).sent = [] := by
    simp [Host.perform, hpc]
  have hcases : ∀ y ∈ (s.performed x true).instances,
      y = { x with pc := .write s.file.openedFile } ∨ y.pid ≠ x.pid ∧ y ∈ s.instances := by
    intro y hy
    exact Host.mem_instances_moved hx hnext hy
  refine hinv.touched hx hnext rfl rfl hsent ?_ ?_ ?_ ?_
  · rintro g ⟨file, hreadable, hparsed⟩
    have hne : file ≠ s.file.openedFile := by
      rintro rfl
      have hnone : (s.performed x true).parsed s.file.openedFile = none := by
        refine parsed_eq_none ?_
        rw [hfile, PathFile.contents_openTruncated, if_pos rfl]
      rw [hnone] at hparsed
      cases hparsed
    have hsame : (s.performed x true).parsed file = s.parsed file := by
      rw [Host.parsed, Host.parsed, hfile, PathFile.contents_openTruncated, if_neg hne]
    rw [hsame] at hparsed
    refine .inl ⟨file, ?_, hparsed⟩
    rcases mem_readable.mp hreadable with hpath | ⟨y, hy, hyr⟩
    · rw [hfile, PathFile.path_openTruncated] at hpath
      exact absurd (Option.some.inj hpath).symm hne
    · rcases hcases y hy with rfl | ⟨-, hy⟩
      · cases hyr
      · exact mem_readable.mpr (.inr ⟨y, hy, hyr⟩)
  · intro y hy file hyfile
    rw [hfile]
    rcases hcases y hy with rfl | ⟨-, hy⟩
    · obtain rfl : s.file.openedFile = file := Option.some.inj hyfile
      exact PathFile.openedFile_lt
    · exact Nat.lt_of_lt_of_le (hinv.opened y hy file hyfile) PathFile.length_le_openTruncated
  · intro y hy file hyw
    rw [hfile, PathFile.contents_openTruncated]
    split
    · simp
    · rename_i hne
      rcases hcases y hy with rfl | ⟨-, hy⟩
      · exact absurd (Pc.write.inj hyw).symm hne
      · exact hinv.covers y hy file hyw
  · intro y hy z hz file hyw hzw
    rcases hcases y hy with rfl | ⟨-, hy⟩
    · obtain rfl : s.file.openedFile = file := Pc.write.inj hyw
      rcases hcases z hz with rfl | ⟨-, hz⟩
      · rfl
      · exact (horderly z hz hzw).symm
    · rcases hcases z hz with rfl | ⟨-, hz⟩
      · obtain rfl : s.file.openedFile = file := Pc.write.inj hzw
        exact horderly y hy hyw
      · exact hinv.same_length y hy z hz file hyw hzw

/-- The PID is written, over nothing or over one with as many digits. -/
theorem Unmistaken.wrote {file : ℕ} (hinv : Unmistaken s) (hx : x ∈ s.instances)
    (hpc : x.pc = .write file) : Unmistaken (s.performed x true) := by
  have hnext : (s.perform x true).next = some .holding := by
    simp [Host.perform, hpc]
  have hfile : (s.performed x true).file =
      s.file.writeStart file (Text.digits x.pid.toNat) := by
    simp [Host.performed, Host.perform, hpc]
  have hsent : (s.perform x true).sent = [] := by
    simp [Host.perform, hpc]
  have hlt : file < s.file.files.length := hinv.opened x hx file (by rw [hpc]; rfl)
  have hcontents : ∀ i, (s.performed x true).file.contents i =
      if i = file then Text.digits x.pid.toNat else s.file.contents i := by
    intro i
    rw [hfile, PathFile.contents_writeStart hlt,
      PathFile.overwrite_of_length_le (hinv.covers x hx file hpc)]
  refine hinv.closed hx hnext rfl rfl rfl hsent ?_ ?_ ?_
  · intro i g hreadable hparsed
    rw [Host.parsed, hcontents] at hparsed
    split at hparsed
    · rw [Text.parseU32_trim_digits] at hparsed
      exact .inr ⟨(Option.some.inj hparsed).symm, by rw [hpc]; rfl⟩
    · rw [hfile, PathFile.path_writeStart] at hreadable
      exact .inl ⟨i, mem_readable.mpr hreadable, hparsed⟩
  · intro y hy i hyfile
    rw [hfile, PathFile.length_writeStart]
    exact hinv.opened y hy i hyfile
  · intro y hy i hyw
    rw [hcontents]
    split
    · rename_i hi
      subst hi
      exact Nat.le_of_eq (hinv.same_length x hx y hy i hpc hyw)
    · exact hinv.covers y hy i hyw

/-- The guard is dropped, and the PID file removed. -/
theorem Unmistaken.dropped (hinv : Unmistaken s) (hx : x ∈ s.instances) (hpc : x.pc = .holding) :
    Unmistaken (s.performed x true) := by
  have hnext : (s.perform x true).next = some .released := by
    simp [Host.perform, hpc]
  have hfile : (s.performed x true).file = s.file.unlink := by
    simp [Host.performed, Host.perform, hpc]
  have hsent : (s.perform x true).sent = [] := by
    simp [Host.perform, hpc]
  refine hinv.closed hx hnext rfl rfl rfl hsent ?_ ?_ ?_
  · intro i g hreadable hparsed
    rw [Host.parsed, hfile] at hparsed
    rw [hfile] at hreadable
    rcases hreadable with hpath | hread
    · cases hpath
    · exact .inl ⟨i, mem_readable.mpr (.inr hread), hparsed⟩
  · intro y hy i hyfile
    rw [hfile]
    exact hinv.opened y hy i hyfile
  · intro y hy i hyw
    rw [hfile]
    exact hinv.covers y hy i hyw

/-! ### One step -/

/-- A step of an instance. -/
theorem Unmistaken.performed (hinv : Unmistaken s) (hx : x ∈ s.instances)
    (horderly : x.Orderly s) : Unmistaken (s.performed x ok) := by
  cases hpc : x.pc with
  | createDir =>
    refine hinv.moved hx ?_ ?_ ?_ ?_ ?_ <;> simp only [Host.perform, hpc]
    · intro pc hnext hunread
      rfl
    · intro pc g hnext htarget
      cases ok <;> obtain rfl := Option.some.inj hnext <;> cases htarget
    · intro pc file hnext hopen
      cases ok <;> obtain rfl := Option.some.inj hnext <;> cases hopen
    · simp
  | openRead => exact hinv.openedRead hx hpc
  | read file => exact hinv.readFile hx hpc
  | check oldPid =>
    refine hinv.wentOn hx ?_ ?_ ?_ <;> simp only [Host.perform, hpc]
    · intro pc hnext
      split at hnext <;> obtain rfl := Option.some.inj hnext
      · exact ⟨rfl, rfl, .inl rfl⟩
      · exact ⟨rfl, rfl, .inr rfl⟩
    · simp
  | signal sig oldPid =>
    refine hinv.wentOn hx ?_ ?_ ?_ <;> simp only [Host.perform, hpc]
    · intro pc hnext
      obtain rfl := Option.some.inj hnext
      cases sig with
      | term => exact ⟨rfl, rfl, .inl rfl⟩
      | kill => exact ⟨rfl, rfl, .inr rfl⟩
    · intro e he
      cases ok with
      | false => cases he
      | true =>
        obtain rfl := List.mem_singleton.mp he
        exact hinv.rightful_signal hx hpc horderly
  | poll sig oldPid round =>
    refine hinv.wentOn hx ?_ ?_ ?_ <;> simp only [Host.perform, hpc]
    · intro pc hnext
      split at hnext <;> obtain rfl := Option.some.inj hnext <;> cases sig <;>
        exact ⟨rfl, rfl, .inl rfl⟩
    · simp
  | recheck sig oldPid =>
    cases sig with
    | term =>
      refine hinv.wentOn hx ?_ ?_ ?_ <;> simp only [Host.perform, hpc]
      · intro pc hnext
        split at hnext <;> obtain rfl := Option.some.inj hnext
        · exact ⟨rfl, rfl, .inl rfl⟩
        · exact ⟨rfl, rfl, .inr rfl⟩
      · simp
    | kill =>
      refine hinv.wentOn hx ?_ ?_ ?_ <;> simp only [Host.perform, hpc]
      · intro pc hnext
        split at hnext <;> obtain rfl := Option.some.inj hnext <;> exact ⟨rfl, rfl, .inr rfl⟩
      · simp
  | openWrite =>
    cases ok with
    | true => exact hinv.openedWrite hx hpc horderly
    | false =>
      refine hinv.failedCall hx (.failed .write) ?_ ?_ ?_ rfl rfl rfl <;> simp [Host.perform, hpc]
  | write file =>
    cases ok with
    | true => exact hinv.wrote hx hpc
    | false =>
      refine hinv.failedCall hx (.failed .write) ?_ ?_ ?_ rfl rfl rfl <;> simp [Host.perform, hpc]
  | holding =>
    cases ok with
    | true => exact hinv.dropped hx hpc
    | false =>
      refine hinv.failedCall hx .released ?_ ?_ ?_ rfl rfl rfl <;> simp [Host.perform, hpc]
  | released | failed =>
    refine hinv.wentOn hx ?_ ?_ ?_ <;> simp [Host.perform, hpc]

/-- **The step lemma.** -/
theorem Unmistaken.step (hinv : Unmistaken s) (horderly : Orderly s a) (h : s.step a = some s') :
    Unmistaken s' := by
  rcases Host.step_cases h with ⟨pid, pgid, program, hcan, rfl, hs⟩ | ⟨x, ok, rfl, hx, rfl⟩ |
    ⟨pid, p, -, hget, hs⟩ | ⟨pid, pgid, -, hget, hs⟩
  · cases program with
    | anonet => exact hinv.launched hcan horderly hs
    | unrelated =>
      refine hinv.mono (by rw [hs]) (by rw [hs]) ?_
      intro y hy
      rw [hs] at hy
      rcases (Host.mem_instances_start .unrelated hcan).mp hy with ⟨h, -⟩ | hy
      · cases h
      · exact hy
  · exact hinv.performed hx (horderly x hx rfl)
  · refine hinv.mono (by rw [hs]) (by rw [hs]) ?_
    intro y hy
    rw [hs] at hy
    exact ((Host.mem_instances_stop hget).mp hy).2
  · refine hinv.mono (by rw [hs]) (by rw [hs]) ?_
    intro y hy
    rw [hs] at hy
    exact (Host.mem_instances_reap hget).mp hy

end Steps

/-! ## Every run -/

/-- **Only earlier instances are signalled.**  In every history of launches, clean exits,
deaths and unrelated processes that starts before the first launch and is orderly, every
TERM and KILL that `acquire` has sent went to the group that another live instance leads,
and not to the sender, or reached nobody. -/
theorem rightful_of_orderly {s₀ s : Host} (h₀ : s₀.instances = []) (hfile : s₀.file.path = none)
    (hsent : s₀.sent = []) (h : hosting.Reach Orderly s₀ s) : ∀ e ∈ s.sent, e.Rightful := by
  have hinv : Unmistaken s := by
    refine h.invariant (I := Unmistaken) ?_ ?_
    · have hnames : ∀ pid, ¬ s₀.Names pid := by
        rintro pid ⟨file, hreadable, -⟩
        rcases mem_readable.mp hreadable with hpath | ⟨y, hy, -⟩
        · rw [hfile] at hpath
          cases hpath
        · rw [h₀] at hy
          cases hy
      constructor
      case names => exact fun pid hpid => absurd hpid (hnames pid)
      all_goals simp [h₀, hsent]
    · intro s a s' hinv horderly hs
      exact hinv.step horderly hs
  exact hinv.rightful

/-! ## Runs -/

/-- A holder that a signal ends, so that its PID file stays. -/
def leftBehind : List Action := launched 100 :: advances 100 4 ++ killed 100

/-- An unrelated process has the PID in the file for a while; then instance 200 with its
`tor`, and a launch up to its first signal. -/
def signalledOnce : List Action :=
  leftBehind ++ .start 100 100 .unrelated :: killed 100 ++ launched 200 :: advances 200 6 ++
    [.start 201 200 .unrelated, launched 300] ++ advances 300 5

/-- Two launches with the PID file open for writing at once. -/
def overwritten : List Action :=
  [.start 9934 9934 .unrelated, launched 1234, launched 99] ++ advances 1234 2 ++ advances 99 2 ++
    advances 1234 1 ++ advances 99 1 ++ advances 1234 1 ++ advances 99 1

/-- The signal reaches the instance and its `tor`. -/
theorem rightful_signalledOnce : ∃ s : Host, s.sent.map (·.reached.length) = [2] ∧
    ∀ e ∈ s.sent, e.Rightful := by
  obtain ⟨s, hreach, hreached⟩ := Machine.exists_reach_of_exec (m := hosting) (G := Orderly)
    (s := .fresh) (P := fun s => s.sent.map (·.reached.length) = [2]) signalledOnce
    (by decide +kernel)
  exact ⟨s, hreached, rightful_of_orderly (by decide) (by rfl) (by rfl) hreach⟩

/-- With the PID of an ended holder given to an unrelated process, that process is
signalled; given to the next launch, the launch signals itself; and two writes at once
leave the PID of a process that was never an instance. -/
theorem not_rightful_leftBehind :
    (∃ s : Host, hosting.Reach Machine.anyStep .fresh s ∧ ∃ e ∈ s.sent, ¬ e.Rightful ∧
      e.reached = [⟨100, ⟨100, some .unrelated⟩⟩]) ∧
    (∃ s : Host, hosting.Reach Machine.anyStep .fresh s ∧ ∃ e ∈ s.sent, ¬ e.Rightful ∧
      ∃ y ∈ e.reached, y.1 = e.sender) ∧
    ∃ s : Host, hosting.Reach Machine.anyStep .fresh s ∧ ∃ e ∈ s.sent, ¬ e.Rightful ∧
      e.reached = [⟨9934, ⟨9934, some .unrelated⟩⟩] := by
  refine ⟨?_, ?_, ?_⟩
  · exact Machine.exists_reach_of_exec (m := hosting) (G := Machine.anyStep) (s := .fresh)
      (P := fun s => ∃ e ∈ s.sent, ¬ e.Rightful ∧ e.reached = [⟨100, ⟨100, some .unrelated⟩⟩])
      (leftBehind ++ [.start 100 100 .unrelated, launched 200] ++ advances 200 5)
      (by decide +kernel)
  · exact Machine.exists_reach_of_exec (m := hosting) (G := Machine.anyStep) (s := .fresh)
      (P := fun s => ∃ e ∈ s.sent, ¬ e.Rightful ∧ ∃ y ∈ e.reached, y.1 = e.sender)
      (leftBehind ++ launched 100 :: advances 100 5) (by decide +kernel)
  · exact Machine.exists_reach_of_exec (m := hosting) (G := Machine.anyStep) (s := .fresh)
      (P := fun s => ∃ e ∈ s.sent, ¬ e.Rightful ∧ e.reached = [⟨9934, ⟨9934, some .unrelated⟩⟩])
      (overwritten ++ launched 200 :: advances 200 5) (by decide +kernel)

end Anonet.Cli
