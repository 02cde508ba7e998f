import Anonet.Library.Machine
import Anonet.Library.PathFile
import Anonet.Library.ProcessTable
import Anonet.Library.Text

/-!
# The instance lock

`acquire` reads the PID file, stops the process it names, and writes its own PID; the
guard it returns removes the file when it is dropped.  Nothing locks the file, and
all that is known of the process to be stopped is its number.

* `Pc` — where an `anonet run` is in `acquire`, or after it.
* `Host.perform` — what it does there: one system call, or one look at `/proc`.
* `hosting` — **the machine**: processes, `anonet run` or not, that start, move on,
  die and are waited for.
* `step_cases` — what a step is, and what becomes of the instances.
-/

namespace Anonet.Cli

/-- The directory that `pid_path` is in, in the user's data directory. -/
def pidDir (dataDir : Option String) : String := dataDir.getD "." ++ "/anonet"

def pidPath (dataDir : Option String) : String := pidDir dataDir ++ "/anonet.pid"

inductive Signal
  | term | kill
  deriving DecidableEq

/-- How often `acquire` looks, 100 ms apart, whether the process has gone. -/
def Signal.polls : Signal → ℕ
  | .term => 50
  | .kill => 20

/-- Why `acquire` fails. -/
inductive AcquireError
  | createDir
  | wouldNotDie (oldPid : UInt32)
  | write
  deriving DecidableEq

def AcquireError.message (dataDir : Option String) : AcquireError → String
  | .createDir => s!"failed to create {pidDir dataDir}"
  | .wouldNotDie oldPid =>
    s!"PID {oldPid} would not die even after SIGKILL; stop it manually and retry."
  | .write => s!"failed to write {pidPath dataDir}"

/-! ## Processes -/

/-- Where an `anonet run` is; each place but `holding` is in front of one system call. -/
inductive Pc
  /-- `create_dir_all`. -/
  | createDir
  /-- `read_to_string` opens the PID file. -/
  | openRead
  /-- `read_to_string` reads the file it has opened. -/
  | read (file : ℕ)
  /-- `process_alive(old_pid)`, for the first time. -/
  | check (oldPid : UInt32)
  /-- `kill -TERM` or `kill -KILL`. -/
  | signal (sig : Signal) (oldPid : UInt32)
  /-- `process_alive(old_pid)`, after `round` rounds of the loop. -/
  | poll (sig : Signal) (oldPid : UInt32) (round : ℕ)
  /-- `process_alive(old_pid)`, after the loop. -/
  | recheck (sig : Signal) (oldPid : UInt32)
  /-- `fs::write` opens the PID file, which empties it. -/
  | openWrite
  /-- `fs::write` writes to the file it has opened. -/
  | write (file : ℕ)
  /-- `acquire` has returned the guard; `run` runs until the guard is dropped. -/
  | holding
  /-- The guard has been dropped. -/
  | released
  /-- `acquire` has returned an error. -/
  | failed (e : AcquireError)
  deriving DecidableEq

/-- What a process is doing. -/
inductive Activity
  | unrelated
  | anonet (pc : Pc)
  deriving DecidableEq

/-- What a process is started as. -/
inductive Program
  | unrelated | anonet
  deriving DecidableEq

def Program.entry : Program → Activity
  | .unrelated => .unrelated
  | .anonet => .anonet .createDir

/-- A live `anonet run`. -/
structure Instance where
  pid : UInt32
  pgid : UInt32
  pc : Pc
  deriving DecidableEq

def Instance.process (x : Instance) : Process Activity := ⟨x.pgid, some (.anonet x.pc)⟩

/-- A signal that `acquire` has sent, with the processes it reached. -/
structure Sent where
  signal : Signal
  sender : UInt32
  group : UInt32
  reached : List (Σ _ : UInt32, Process Activity)

/-- A host: its processes, the PID file, and the signals sent so far, which no step reads. -/
structure Host where
  procs : ProcessTable Activity
  file : PathFile Char
  sent : List Sent := []

namespace Host

/-- No process and no PID file. -/
def fresh : Host := ⟨.empty, .empty, []⟩

/-- `process_alive`. -/
def processAlive (s : Host) (pid : UInt32) : Bool := s.procs.hasEntry pid

/-- The PID that a file holds. -/
def parsed (s : Host) (file : ℕ) : Option UInt32 :=
  Text.parseU32 (Text.trim (s.file.contents file))

/-- The PID that the PID file names. -/
def named (s : Host) : Option UInt32 := s.file.path.bind s.parsed

/-- The live instances. -/
def instances (s : Host) : List Instance :=
  s.procs.entries.filterMap fun e =>
    match e.2 with
    | ⟨pgid, some (.anonet pc)⟩ => some ⟨e.1, pgid, pc⟩
    | _ => none

end Host

/-! ## Steps -/

/-- What a step of an instance leads to: its next place, which is `none` when it exits,
the file, and a signal sent. -/
structure Effect where
  next : Option Pc
  file : PathFile Char
  sent : List Sent := []

/-- One step of `acquire`, of the guard's `drop`, or the exit; `ok` tells whether a system
call that can fail succeeds. -/
def Host.perform (s : Host) (x : Instance) (ok : Bool) : Effect :=
  match x.pc with
  | .createDir => ⟨some (if ok then .openRead else .failed .createDir), s.file, []⟩
  | .openRead =>
    match ok, s.file.path with
    | true, some file => ⟨some (.read file), s.file, []⟩
    | _, _ => ⟨some .openWrite, s.file, []⟩
  | .read file =>
    match ok, s.parsed file with
    | true, some oldPid => ⟨some (.check oldPid), s.file, []⟩
    | _, _ => ⟨some .openWrite, s.file, []⟩
  | .check oldPid =>
    ⟨some (if s.processAlive oldPid then .signal .term oldPid else .openWrite), s.file, []⟩
  -- the status of `kill` is ignored, also when there is no `kill` to run
  | .signal sig oldPid =>
    ⟨some (.poll sig oldPid 0), s.file,
      if ok then [⟨sig, x.pid, oldPid, s.procs.signalled x.pgid oldPid⟩] else []⟩
  | .poll sig oldPid round =>
    ⟨some (if round < sig.polls ∧ s.processAlive oldPid then .poll sig oldPid (round + 1)
      else .recheck sig oldPid), s.file, []⟩
  | .recheck .term oldPid =>
    ⟨some (if s.processAlive oldPid then .signal .kill oldPid else .openWrite), s.file, []⟩
  | .recheck .kill oldPid =>
    ⟨some (if s.processAlive oldPid then .failed (.wouldNotDie oldPid) else .openWrite),
      s.file, []⟩
  | .openWrite =>
    if ok then ⟨some (.write s.file.openedFile), s.file.openTruncated, []⟩
    else ⟨some (.failed .write), s.file, []⟩
  | .write file =>
    if ok then ⟨some .holding, s.file.writeStart file (Text.digits x.pid.toNat), []⟩
    else ⟨some (.failed .write), s.file, []⟩
  -- `drop` ignores that the file cannot be removed
  | .holding => ⟨some .released, if ok then s.file.unlink else s.file, []⟩
  | .released | .failed _ => ⟨none, s.file, []⟩

/-- What happens on a host. -/
inductive Action
  /-- A process starts, with the IDs that the operating system gives it. -/
  | start (pid pgid : UInt32) (program : Program)
  /-- An instance takes a step; the guard is dropped at any time. -/
  | advance (pid : UInt32) (ok : Bool)
  /-- A process ends: an unrelated one exits, or a signal ends it. -/
  | die (pid : UInt32)
  /-- A process that has ended is waited for, and its ID is free again. -/
  | reap (pid : UInt32)

namespace Host

/-- The state after instance `x` has taken a step. -/
def performed (s : Host) (x : Instance) (ok : Bool) : Host where
  procs := s.procs.become x.pid ((s.perform x ok).next.map .anonet)
  file := (s.perform x ok).file
  sent := s.sent ++ (s.perform x ok).sent

def step (s : Host) : Action → Option Host
  | .start pid pgid program =>
    if h : s.procs.CanStart pid pgid then
      some { s with procs := s.procs.start pid pgid program.entry h }
    else none
  | .advance pid ok =>
    match s.procs.get pid with
    | some ⟨pgid, some (.anonet pc)⟩ => some (s.performed ⟨pid, pgid, pc⟩ ok)
    | _ => none
  | .die pid =>
    match s.procs.get pid with
    | some ⟨_, some _⟩ => some { s with procs := s.procs.stop pid }
    | _ => none
  | .reap pid =>
    match s.procs.get pid with
    | some ⟨_, none⟩ => some { s with procs := s.procs.reap pid }
    | _ => none

end Host

/-- Any number of processes, in any order. -/
def hosting : Machine Host Action where
  step := Host.step

/-! ## Schedules -/

/-- A launch by a shell that makes each job a group of its own. -/
def launched (pid : UInt32) : Action := .start pid pid .anonet

/-- So many steps of an instance, with every system call succeeding. -/
def advances (pid : UInt32) (n : ℕ) : List Action := List.replicate n (.advance pid true)

/-- A process ends and is waited for. -/
def killed (pid : UInt32) : List Action := [.die pid, .reap pid]

/-- The first launch takes four steps to its guard. -/
example : (hosting.guardedExec Machine.anyStep .fresh (launched 100 :: advances 100 4)).map
    (fun s => (s.instances, s.named)) = some ([⟨100, 100, .holding⟩], some 100) := by
  decide +kernel

/-! ## The instances after a step -/

namespace Host

variable {s s' : Host} {x y : Instance} {a : Action} {pid pgid : UInt32}

theorem mem_instances : x ∈ s.instances ↔ s.procs.get x.pid = some x.process := by
  constructor
  · intro hx
    obtain ⟨e, he, hfound⟩ := List.mem_filterMap.mp hx
    have hget := s.procs.mem_entries.mp he
    split at hfound
    · rename_i pgid pc hp
      obtain rfl := Option.some.inj hfound
      rw [hget, hp]
      rfl
    · cases hfound
  · intro hget
    refine List.mem_filterMap.mpr ⟨⟨x.pid, x.process⟩, s.procs.mem_entries.mpr hget, ?_⟩
    rfl

theorem pid_ne_of_canStart (h : s.procs.CanStart pid pgid) (hx : x ∈ s.instances) :
    x.pid ≠ pid := by
  rintro rfl
  have hget := mem_instances.mp hx
  rw [h.get_eq_none] at hget
  cases hget

/-- After a start. -/
theorem mem_instances_start (program : Program) (h : s.procs.CanStart pid pgid) :
    y ∈ instances { s with procs := s.procs.start pid pgid program.entry h } ↔
      program = .anonet ∧ y = ⟨pid, pgid, .createDir⟩ ∨ y ∈ s.instances := by
  rw [mem_instances, mem_instances, ProcessTable.get_start]
  obtain ⟨pid', pgid', pc⟩ := y
  cases program <;> simp [Instance.process, Program.entry]

/-- After instance `x` has taken a step. -/
theorem mem_instances_performed {ok : Bool} (hx : x ∈ s.instances) :
    y ∈ (s.performed x ok).instances ↔
      (∃ pc, (s.perform x ok).next = some pc ∧ y = { x with pc := pc }) ∨
        y.pid ≠ x.pid ∧ y ∈ s.instances := by
  rw [mem_instances, mem_instances, performed, ProcessTable.get_become (mem_instances.mp hx)]
  obtain ⟨pid, pgid, pc⟩ := x
  obtain ⟨pid', pgid', pc'⟩ := y
  cases hnext : (s.perform ⟨pid, pgid, pc⟩ ok).next with
  | none => simp [Instance.process]
  | some next =>
    simp only [Instance.process, Option.map_some, Process.mk.injEq, Option.some.injEq,
      Activity.anonet.injEq, Instance.mk.injEq, exists_eq_left']

/-- After instance `x` has moved to `pc`. -/
theorem mem_instances_moved {ok : Bool} {pc : Pc} (hx : x ∈ s.instances)
    (hnext : (s.perform x ok).next = some pc) (hy : y ∈ (s.performed x ok).instances) :
    y = { x with pc := pc } ∨ y.pid ≠ x.pid ∧ y ∈ s.instances := by
  rcases (mem_instances_performed hx).mp hy with ⟨pc', hnext', rfl⟩ | h
  · obtain rfl : pc = pc' := Option.some.inj (hnext.symm.trans hnext')
    exact .inl rfl
  · exact .inr h

/-- After the end of a process. -/
theorem mem_instances_stop {p : Process Activity} (h : s.procs.get pid = some p) :
    y ∈ instances { s with procs := s.procs.stop pid } ↔ y.pid ≠ pid ∧ y ∈ s.instances := by
  rw [mem_instances, mem_instances, ProcessTable.stop, ProcessTable.get_become h]
  simp [Instance.process]

/-- After a process has been waited for. -/
theorem mem_instances_reap (h : s.procs.get pid = some ⟨pgid, none⟩) :
    y ∈ instances { s with procs := s.procs.reap pid } ↔ y ∈ s.instances := by
  rw [mem_instances, mem_instances, ProcessTable.get_reap]
  refine ⟨And.right, fun hy => ⟨?_, hy⟩⟩
  rintro rfl
  rw [h] at hy
  cases hy

/-- **What a step is.** -/
theorem step_cases (h : s.step a = some s') :
    (∃ pid pgid program, ∃ hcan : s.procs.CanStart pid pgid, a = .start pid pgid program ∧
      s' = { s with procs := s.procs.start pid pgid program.entry hcan }) ∨
    (∃ x ok, a = .advance x.pid ok ∧ x ∈ s.instances ∧ s' = s.performed x ok) ∨
    (∃ pid p, a = .die pid ∧ s.procs.get pid = some p ∧
      s' = { s with procs := s.procs.stop pid }) ∨
    ∃ pid pgid, a = .reap pid ∧ s.procs.get pid = some ⟨pgid, none⟩ ∧
      s' = { s with procs := s.procs.reap pid } := by
  cases a with
  | start pid pgid program =>
    simp only [step] at h
    split at h
    · rename_i hcan
      exact .inl ⟨pid, pgid, program, hcan, rfl, (Option.some.inj h).symm⟩
    · cases h
  | advance pid ok =>
    simp only [step] at h
    split at h
    · rename_i pgid pc hget
      exact .inr (.inl ⟨⟨pid, pgid, pc⟩, ok, rfl, mem_instances.mpr hget, (Option.some.inj h).symm⟩)
    · cases h
  | die pid =>
    simp only [step] at h
    split at h
    · rename_i hget
      exact .inr (.inr (.inl ⟨pid, _, rfl, hget, (Option.some.inj h).symm⟩))
    · cases h
  | reap pid =>
    simp only [step] at h
    split at h
    · rename_i hget
      exact .inr (.inr (.inr ⟨pid, _, rfl, hget, (Option.some.inj h).symm⟩))
    · cases h

end Host

end Anonet.Cli
