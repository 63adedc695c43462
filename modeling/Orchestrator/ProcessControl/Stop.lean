import Orchestrator.ProcessControl.PidFile

/-! # Stopping the recorded daemon

A stop runs while the processes of its host exit beside it, so each of its calls is answered by the
host of its own moment. What it did is a list of effects; what is asked of them is that a signal
reaches the recorded daemon and agent only, as far as their start tokens tell, and that the files go
only once the daemon is gone or was killed.
-/

namespace Orchestrator.ProcessControl

open Orchestrator.Foundation

/-! ## The host -/

/-- A process: its group, the token of its start where one can be read, and whether the caller may
signal it. -/
structure HostProcess where
  pid : Nat
  pgid : Nat
  startTime : Option PyText
  signalable : Bool
  deriving DecidableEq

abbrev Host := List HostProcess

namespace Host

variable (host : Host)

def process (pid : Nat) : Option HostProcess := host.find? fun process => process.pid = pid

/-- `os.kill`. -/
def kill (pid : Nat) : Signalled :=
  if pidLimit ≤ pid then .overflow
  else
    match host.process pid with
    | none => .noSuchProcess
    | some process => if process.signalable then .sent else .notPermitted

/-- `os.killpg`: some process of the group is signalled, or an error is raised. -/
def killpg (pgid : Nat) : Signalled :=
  if pidLimit ≤ pgid then .overflow
  else if host.all fun process => process.pgid ≠ pgid then .noSuchProcess
  else if host.any fun process => process.pgid = pgid && process.signalable then .sent
  else .notPermitted

end Host

inductive Platform where
  | linux
  | otherPosix
  | windows
  deriving DecidableEq

/-- `_can_signal`. -/
def canSignal (platform : Platform) : Bool := platform ≠ .windows

/-- `_read_proc_start_time`: only Linux has one to read. -/
def readProcStartTime (platform : Platform) (host : Host) (pid : Nat) : Option PyText :=
  if platform = .linux then (host.process pid).bind HostProcess.startTime else none

/-! ## The call -/

/-- A recorded agent. -/
structure ChildHandle where
  pid : Nat
  pgid : Nat
  startTime : Option PyText

inductive StopLevel where
  | soft
  | full
  deriving DecidableEq

/-- What a stop is called with, and what it meets: the records as read, and for each moment the
host, whether the pid file is there, and the clock. -/
structure StopCall where
  platform : Platform
  level : StopLevel
  record : Option ProcessIdentity
  handle : Option ChildHandle
  world : Nat → Host
  marker : Nat → Bool
  clock : Nat → Nat
  timeout : Nat
  stopFile : Bool
  childrenFile : Bool
  subtreeKill : Bool
  hardKill : Bool

/-- What a stop does to the host and the files. A group is killed for the process that led to it. -/
inductive StopEffect where
  | writeStop
  | terminate (pid : Nat)
  | wake (pid : Nat)
  | killGroup (pid pgid : Nat)
  | reap (pid pgid : Nat)
  | killTree (pid : Nat)
  | unlinkPid
  | unlinkStop
  | unlinkChildren
  deriving DecidableEq

/-- `StopOutcome`. -/
structure StopOutcome where
  found : Bool
  pid : Option Nat
  signaled : Bool
  killed : Bool
  alreadyDead : Bool
  timedOut : Bool := false
  groupKilled : Bool := false
  treeKilled : Bool := false
  degradedToSoft : Bool := false

/-- A stop returns, or raises, or polls still. -/
inductive StopEnding where
  | returned (outcome : StopOutcome)
  | raised
  | polling

structure StopRun where
  effects : List (Nat × StopEffect)
  ending : StopEnding

namespace StopCall

variable (call : StopCall) (record : ProcessIdentity)

/-- `is_running`, whose signal and whose reading are a moment apart. -/
def isRunningAt (moment : Nat) : Option Bool :=
  isRunning (call.world moment).kill (readProcStartTime call.platform (call.world (moment + 1)))
    record

/-- `_write_stop_file`, where there is one. -/
def asked : List (Nat × StopEffect) := if call.stopFile then [(0, .writeStop)] else []

/-- The files of a stop that is through. -/
def unlinks (moment : Nat) (children : Bool) : List (Nat × StopEffect) :=
  (moment, .unlinkPid) :: ((if call.stopFile then [(moment, .unlinkStop)] else []) ++
    if children && call.childrenFile then [(moment, .unlinkChildren)] else [])

/-! ### The hard stop of POSIX -/

/-- The group that the daemon was killed with, none where it was dead already, and nothing where the
probe or the signal raises. -/
def groupKill : Option (Option Nat) :=
  match call.isRunningAt record 0 with
  | none => none
  | some false => some none
  | some true =>
      match (call.world 2).process record.pid with
      | none => some none
      | some process =>
          match (call.world 3).killpg process.pgid with
          | .sent => some (some process.pgid)
          | .noSuchProcess => some none
          | .notPermitted | .overflow => none

/-- `read_children_record`, where there is a file for it. -/
def activeHandle : Option ChildHandle := if call.childrenFile then call.handle else none

/-- `kill_agent_subtree` of the recorded agent: its group and its descendants, or nothing where the
signal to the group raises. -/
def reapAgent : Option (List (Nat × StopEffect)) :=
  match call.activeHandle with
  | none => some []
  | some handle =>
      if call.subtreeKill then
        match (call.world 4).killpg handle.pgid with
        | .sent | .noSuchProcess => some [(4, .reap handle.pid handle.pgid)]
        | .notPermitted | .overflow => none
      else some []

/-- The signal to the daemon's group, where one was sent. -/
def groupSignals (group : Option Nat) : List (Nat × StopEffect) :=
  group.toList.map fun pgid => (3, .killGroup record.pid pgid)

/-- `_stop_via_group_kill`. -/
def stopViaGroupKill : StopRun :=
  match call.groupKill record with
  | none => ⟨call.asked, .raised⟩
  | some group =>
      let signalled := call.asked ++ groupSignals record group
      match call.reapAgent with
      | none => ⟨signalled, .raised⟩
      | some reaped =>
          ⟨signalled ++ reaped ++ call.unlinks 5 true, .returned
            { found := true, pid := some record.pid, signaled := group.isSome,
              killed := group.isSome, alreadyDead := group.isNone, groupKilled := group.isSome }⟩

/-! ### The hard stop of Windows -/

/-- `_stop_via_tree_kill`. -/
def stopViaTreeKill : StopRun :=
  ⟨(0, .killTree record.pid) ::
      (call.activeHandle.toList.map (fun handle => (1, .killTree handle.pid)) ++
        call.unlinks 5 true),
    .returned { found := true, pid := some record.pid, signaled := true, killed := true,
                alreadyDead := false, treeKilled := true }⟩

/-! ### The soft stops -/

/-- The polls of a signalled daemon. -/
def pollSignal : Nat → Nat → StopRun
  | 0, _ => ⟨[], .polling⟩
  | fuel + 1, poll =>
      match call.isRunningAt record (4 + 2 * poll) with
      | none => ⟨[], .raised⟩
      | some false =>
          ⟨call.unlinks (6 + 2 * poll) false, .returned
            { found := true, pid := some record.pid, signaled := true, killed := false,
              alreadyDead := false }⟩
      | some true =>
          if call.clock 0 + call.timeout ≤ call.clock (poll + 1) then
            ⟨[], .returned { found := true, pid := some record.pid, signaled := true,
                             killed := false, alreadyDead := false, timedOut := true }⟩
          else pollSignal fuel (poll + 1)

/-- A daemon that exited before it could be signalled. -/
def alreadyDead (effects : List (Nat × StopEffect)) : StopRun :=
  ⟨effects ++ call.unlinks 5 false, .returned
    { found := true, pid := some record.pid, signaled := false, killed := false,
      alreadyDead := true }⟩

/-- `_stop_via_signal`. -/
def stopViaSignal (fuel : Nat) : StopRun :=
  match call.isRunningAt record 0 with
  | none => ⟨[], .raised⟩
  | some false => call.alreadyDead record []
  | some true =>
      match (call.world 2).kill record.pid with
      | .notPermitted | .overflow => ⟨call.asked, .raised⟩
      | .noSuchProcess => call.alreadyDead record call.asked
      | .sent =>
          let termed := call.asked ++ [(2, .terminate record.pid)]
          match (call.world 3).kill record.pid with
          | .notPermitted | .overflow => ⟨termed, .raised⟩
          | .noSuchProcess => call.alreadyDead record termed
          | .sent =>
              let polled := call.pollSignal record fuel 0
              ⟨termed ++ (3, .wake record.pid) :: polled.effects, polled.ending⟩

/-- The polls of a pid file that its daemon is to remove. -/
def pollMarker (degraded : Bool) : Nat → Nat → StopRun
  | 0, _ => ⟨[], .polling⟩
  | fuel + 1, poll =>
      if call.marker poll then
        if call.clock 0 + call.timeout ≤ call.clock (poll + 1) then
          ⟨[], .returned { found := true, pid := some record.pid, signaled := true, killed := false,
                           alreadyDead := false, timedOut := true, degradedToSoft := degraded }⟩
        else pollMarker degraded fuel (poll + 1)
      else
        ⟨if call.stopFile then [(poll, .unlinkStop)] else [], .returned
          { found := true, pid := some record.pid, signaled := true, killed := false,
            alreadyDead := false, degradedToSoft := degraded }⟩

/-- `_stop_via_pid_file`. -/
def stopViaPidFile (degraded : Bool) (fuel : Nat) : StopRun :=
  let polled := call.pollMarker record degraded fuel 0
  ⟨call.asked ++ polled.effects, polled.ending⟩

/-- `stop_process`, up to a number of polls. -/
def stopProcess (fuel : Nat) : StopRun :=
  match call.record with
  | none =>
      ⟨if canSignal call.platform then
          (if call.stopFile then [(0, .unlinkStop)] else []) ++
            if call.childrenFile then [(0, .unlinkChildren)] else []
        else [],
        .returned { found := false, pid := none, signaled := false, killed := false,
                    alreadyDead := false }⟩
  | some record =>
      if call.level = .full ∧ canSignal call.platform = true then call.stopViaGroupKill record
      else if canSignal call.platform then call.stopViaSignal record fuel
      else if call.level = .full ∧ call.hardKill = true then call.stopViaTreeKill record
      else call.stopViaPidFile record (decide (call.level = .full)) fuel

end StopCall

/-! ## What is asked of a stop -/

/-- The numbers that an effect terminates a process, a group or a subtree under. -/
def StopEffect.targets : StopEffect → List Nat
  | .terminate pid | .killGroup pid _ | .killTree pid => [pid]
  | .reap pid pgid => [pid, pgid]
  | .writeStop | .wake _ | .unlinkPid | .unlinkStop | .unlinkChildren => []

def StopEffect.removes : StopEffect → Bool
  | .unlinkPid | .unlinkStop | .unlinkChildren => true
  | _ => false

/-- An effect kills a process that it may signal. -/
def StopEffect.Kills (process : HostProcess) : StopEffect → Prop
  | .killGroup _ pgid => process.pgid = pgid ∧ process.signalable = true
  | .killTree pid => process.pid = pid ∧ process.signalable = true
  | _ => False

namespace StopCall

variable (call : StopCall)

/-- The recorded identities. -/
def identities : List ProcessIdentity :=
  call.record.toList ++ call.handle.toList.map fun handle => ⟨handle.pid, handle.startTime⟩

/-- The start token of a pid tells that its process is not the recorded one. -/
def Foreign (moment : Nat) (identity : ProcessIdentity) : Prop :=
  ∃ expected actual, identity.startTime = some expected ∧
    readProcStartTime call.platform (call.world moment) identity.pid = some actual ∧
    actual ≠ expected

/-- The process under a number, if any, is the daemon or the agent as far as its start tells. -/
def Known (moment number : Nat) : Prop :=
  (call.world moment).process number = none ∨
    ∃ identity ∈ call.identities, identity.pid = number ∧ ¬ call.Foreign moment identity

/-- No process is the recorded daemon. -/
def Gone (moment : Nat) (record : ProcessIdentity) : Prop :=
  (call.world moment).process record.pid = none ∨ call.Foreign moment record

/-- A daemon is gone, was killed or, on Windows, has removed its own pid file. -/
def Confirmed (effects : List (Nat × StopEffect)) (moment : Nat) (record : ProcessIdentity) :
    Prop :=
  call.Gone moment record ∨
    (∃ entry ∈ effects, entry.1 ≤ moment ∧
      ∃ process, (call.world entry.1).process record.pid = some process ∧
        entry.2.Kills process) ∨
    (call.platform = .windows ∧ ∃ poll ≤ moment, call.marker poll = false)

/-- Only the recorded processes are terminated, and the files go only once it is confirmed that the
daemon is no more. -/
structure Lawful (run : StopRun) : Prop where
  spares : ∀ entry ∈ run.effects, ∀ number ∈ entry.2.targets, call.Known entry.1 number
  keeps : ∀ entry ∈ run.effects, entry.2.removes = true → ∀ record ∈ call.record,
    call.Confirmed run.effects entry.1 record

/-- While the call runs the recorded daemon may exit, but its pid is not given to another. -/
def Settled : Prop :=
  ∀ record ∈ call.record, ∀ moment process,
    (call.world (moment + 1)).process record.pid = some process →
      (call.world moment).process record.pid = some process

/-- A signal to a group raises nothing but that the group is empty. -/
def Passes (signalled : Signalled) : Prop := signalled = .sent ∨ signalled = .noSuchProcess

/-- The kill of the daemon's group lets the stop on. -/
def GroupPasses (record : ProcessIdentity) : Prop :=
  call.isRunningAt record 0 = some false ∨ call.isRunningAt record 0 = some true ∧
    ∀ process, (call.world 2).process record.pid = some process →
      Passes ((call.world 3).killpg process.pgid)

/-- So does the kill of the agent's. -/
def AgentPasses : Prop :=
  call.subtreeKill = true → ∀ handle ∈ call.activeHandle,
    Passes ((call.world 4).killpg handle.pgid)

/-- The numbers of an agent that is reaped are not those of another process. -/
def AgentKnown : Prop :=
  call.subtreeKill = true → ∀ handle ∈ call.activeHandle,
    Passes ((call.world 4).killpg handle.pgid) →
      call.Known 4 handle.pid ∧ call.Known 4 handle.pgid

/-- A daemon's pid under which a process may not be signalled, though its group may be, is not that
of another process, and that process exits by itself. -/
def GroupKnown (record : ProcessIdentity) : Prop :=
  call.isRunningAt record 0 = some true →
    ∀ process, (call.world 3).process record.pid = some process → process.signalable = false →
      (call.world 3).killpg process.pgid = .sent →
        call.Known 3 record.pid ∧ (call.AgentPasses → call.Gone 5 record)

/-- A daemon of Windows that may not be killed exits by itself. -/
def TreeKnown (record : ProcessIdentity) : Prop :=
  ∀ process, (call.world 0).process record.pid = some process → process.signalable = false →
    call.Confirmed [] 5 record

/-- The condition on the hosts that a hard stop meets. -/
structure Sound : Prop where
  agent : call.level = .full → canSignal call.platform = true → ∀ record ∈ call.record,
    call.GroupPasses record → call.AgentKnown
  group : call.level = .full → canSignal call.platform = true → ∀ record ∈ call.record,
    call.GroupKnown record
  tree : call.level = .full → canSignal call.platform = false → call.hardKill = true →
    ∀ record ∈ call.record, call.TreeKnown record

/-! ## Moments -/

section Moments

variable {call : StopCall} {record : ProcessIdentity} {moment later : Nat}

/-- What runs under the daemon's pid ran under it before. -/
theorem process_of_le (settled : call.Settled) (recorded : record ∈ call.record)
    (before : moment ≤ later) {process : HostProcess}
    (runs : (call.world later).process record.pid = some process) :
    (call.world moment).process record.pid = some process := by
  induction later, before using Nat.le_induction with
  | base => exact runs
  | succ later _ ih => exact ih (settled record recorded later process runs)

/-- A daemon that is gone stays so. -/
theorem Gone.mono (settled : call.Settled) (recorded : record ∈ call.record)
    (gone : call.Gone moment record) (before : moment ≤ later) : call.Gone later record := by
  cases runs : (call.world later).process record.pid with
  | none => exact .inl runs
  | some process =>
      have earlier := process_of_le settled recorded before runs
      rcases gone with absent | ⟨expected, actual, known, reads, unlike⟩
      · rw [absent] at earlier
        cases earlier
      · refine .inr ⟨expected, actual, known, ?_, unlike⟩
        rw [readProcStartTime, earlier] at reads
        rwa [readProcStartTime, runs]

theorem process_of_kill_eq_noSuchProcess {host : Host} {pid : Nat}
    (killed : host.kill pid = .noSuchProcess) : host.process pid = none := by
  rw [Host.kill] at killed
  split at killed
  · cases killed
  · split at killed
    · assumption
    · split at killed
      · cases killed
      · cases killed

theorem process_of_kill_eq_sent {host : Host} {pid : Nat} (killed : host.kill pid = .sent) :
    ∃ process, host.process pid = some process ∧ process.signalable = true := by
  rw [Host.kill] at killed
  split at killed
  · cases killed
  · split at killed
    · cases killed
    · next process runs =>
        split at killed
        · next signalable => exact ⟨process, runs, signalable⟩
        · cases killed

/-- A daemon that does not run is gone. -/
theorem gone_of_isRunningAt (settled : call.Settled) (recorded : record ∈ call.record)
    (dead : call.isRunningAt record moment = some false) : call.Gone (moment + 1) record := by
  rw [isRunningAt, isRunning] at dead
  split at dead
  · cases dead
  · next absent =>
      have none : call.Gone moment record := .inl (process_of_kill_eq_noSuchProcess absent)
      exact none.mono settled recorded (Nat.le_succ moment)
  · cases dead
  · split at dead
    · cases dead
    · next expected known =>
        split at dead
        · cases dead
        · next actual reads =>
            exact .inr ⟨expected, actual, known, reads, of_decide_eq_false (Option.some.inj dead)⟩

/-- A daemon that runs and may be signalled is the recorded one. -/
theorem not_foreign_of_isRunningAt (settled : call.Settled) (recorded : record ∈ call.record)
    (alive : call.isRunningAt record moment = some true) (after : moment < later)
    {process : HostProcess} (runs : (call.world later).process record.pid = some process)
    (signalable : process.signalable = true) : ¬ call.Foreign later record := by
  rintro ⟨expected, actual, known, reads, unlike⟩
  have first := process_of_le settled recorded (Nat.le_of_lt after) runs
  have second := process_of_le settled recorded after runs
  rw [isRunningAt, isRunning, Host.kill, first] at alive
  have same : readProcStartTime call.platform (call.world (moment + 1)) record.pid =
    some actual := by
    rw [readProcStartTime, runs] at reads
    rwa [readProcStartTime, second]
  split at alive
  · next killed =>
      split at killed
      · cases killed
      · simp [signalable] at killed
  · cases alive
  · cases alive
  · simp only [known, same, Option.some.injEq, decide_eq_true_eq] at alive
    exact unlike alive

/-- So is one that may be signalled by its own number. -/
theorem known_of_isRunningAt (settled : call.Settled) (recorded : record ∈ call.record)
    (alive : call.isRunningAt record moment = some true) (after : moment < later)
    (signalable : ∀ process, (call.world later).process record.pid = some process →
      process.signalable = true) : call.Known later record.pid := by
  cases runs : (call.world later).process record.pid with
  | none => exact .inl runs
  | some process =>
      refine .inr ⟨record, ?_, rfl, ?_⟩
      · exact List.mem_append_left _ (Option.mem_toList.mpr recorded)
      · exact not_foreign_of_isRunningAt settled recorded alive after runs (signalable process runs)

end Moments

/-! ## The stops -/

section Stops

variable {call : StopCall} {record : ProcessIdentity} {entry : Nat × StopEffect}

theorem mem_asked (among : entry ∈ call.asked) : entry.2 = .writeStop := by
  rw [asked] at among
  split at among
  · rw [List.mem_singleton.mp among]
  · cases among

theorem mem_unlinks {moment : Nat} {children : Bool}
    (among : entry ∈ call.unlinks moment children) :
    entry.1 = moment ∧ entry.2.targets = [] := by
  rw [unlinks] at among
  rcases List.mem_cons.mp among with rfl | among
  · exact ⟨rfl, rfl⟩
  · rcases List.mem_append.mp among with stop | children
    · split at stop
      · rw [List.mem_singleton.mp stop]
        exact ⟨rfl, rfl⟩
      · cases stop
    · split at children
      · rw [List.mem_singleton.mp children]
        exact ⟨rfl, rfl⟩
      · cases children

/-- An effect that is no removal and terminates nothing but what is recorded. -/
def Spares (call : StopCall) (entry : Nat × StopEffect) : Prop :=
  entry.2.removes = false ∧ ∀ number ∈ entry.2.targets, call.Known entry.1 number

theorem spares_asked (among : entry ∈ call.asked) : call.Spares entry := by
  have write := mem_asked among
  rw [Spares, write]
  exact ⟨rfl, fun _ among => absurd among List.not_mem_nil⟩

/-- A stop that spares what it should and then removes the files of a daemon that is gone. -/
theorem lawful_of_gone {run : StopRun} {before after : List (Nat × StopEffect)}
    (shape : run.effects = before ++ after) (spares : ∀ entry ∈ before, call.Spares entry)
    (gone : ∀ entry ∈ after, entry.2.targets = [] ∧
      ∀ record ∈ call.record, call.Confirmed run.effects entry.1 record) : call.Lawful run := by
  refine ⟨?_, ?_⟩
  · intro entry among number target
    rcases List.mem_append.mp (shape ▸ among) with early | late
    · exact (spares entry early).2 number target
    · rw [(gone entry late).1] at target
      cases target
  · intro entry among removes record recorded
    rcases List.mem_append.mp (shape ▸ among) with early | late
    · rw [(spares entry early).1] at removes
      cases removes
    · exact (gone entry late).2 record recorded

/-- Without removals only the numbers matter. -/
theorem lawful_of_spares {run : StopRun} (spares : ∀ entry ∈ run.effects, call.Spares entry) :
    call.Lawful run :=
  lawful_of_gone (List.append_nil _).symm spares fun _ among => absurd among List.not_mem_nil

theorem gone_unlinks (recorded : call.record = some record) {moment : Nat} {children : Bool}
    (gone : call.Gone moment record) (among : entry ∈ call.unlinks moment children) :
    entry.2.targets = [] ∧ ∀ record ∈ call.record, call.Gone entry.1 record := by
  obtain ⟨same, none⟩ := mem_unlinks among
  refine ⟨none, ?_⟩
  intro other known
  obtain rfl := Option.some.inj (recorded.symm.trans known)
  rwa [same]

/-! ### The soft stops -/

/-- The polls of a signalled daemon remove its files only once it is gone. -/
theorem gone_pollSignal (settled : call.Settled) (recorded : call.record = some record)
    (fuel : Nat) :
    ∀ poll, ∀ entry ∈ (call.pollSignal record fuel poll).effects,
      entry.2.targets = [] ∧ ∀ record ∈ call.record, call.Gone entry.1 record := by
  induction fuel with
  | zero => exact fun _ _ among => absurd among List.not_mem_nil
  | succ fuel ih =>
      intro poll entry among
      rw [pollSignal] at among
      split at among
      · cases among
      · next dead =>
          have gone := gone_of_isRunningAt settled recorded dead
          exact gone_unlinks recorded (gone.mono settled recorded (by omega)) among
      · split at among
        · cases among
        · exact ih (poll + 1) entry among

theorem lawful_alreadyDead {effects : List (Nat × StopEffect)}
    (recorded : call.record = some record)
    (spares : ∀ entry ∈ effects, call.Spares entry) (gone : call.Gone 5 record) :
    call.Lawful (call.alreadyDead record effects) := by
  refine lawful_of_gone rfl spares ?_
  intro entry among
  obtain ⟨none, away⟩ := gone_unlinks recorded gone among
  exact ⟨none, fun record known => .inl (away record known)⟩

/-- A soft stop of POSIX asks the recorded daemon only. -/
theorem lawful_stopViaSignal (settled : call.Settled) (recorded : call.record = some record)
    (fuel : Nat) : call.Lawful (call.stopViaSignal record fuel) := by
  rw [stopViaSignal]
  split
  · exact lawful_of_spares fun _ among => absurd among List.not_mem_nil
  · next dead =>
      have gone := gone_of_isRunningAt settled recorded dead
      exact lawful_alreadyDead recorded (fun _ among => absurd among List.not_mem_nil)
        (gone.mono settled recorded (by decide))
  · next alive =>
      split
      · exact lawful_of_spares fun _ => spares_asked
      · exact lawful_of_spares fun _ => spares_asked
      · next absent =>
          have gone : call.Gone 2 record := .inl (process_of_kill_eq_noSuchProcess absent)
          exact lawful_alreadyDead recorded (fun _ => spares_asked)
            (gone.mono settled recorded (by decide))
      · next sent =>
          obtain ⟨process, runs, signalable⟩ := process_of_kill_eq_sent sent
          have known : call.Known 2 record.pid := by
            apply known_of_isRunningAt settled recorded alive (by decide)
            intro other same
            rwa [Option.some.inj (same.symm.trans runs)]
          have termed : ∀ entry ∈ call.asked ++ [(2, .terminate record.pid)],
              call.Spares entry := by
            intro entry among
            rcases List.mem_append.mp among with asked | term
            · exact spares_asked asked
            · rw [List.mem_singleton.mp term]
              refine ⟨rfl, ?_⟩
              intro number target
              rwa [List.mem_singleton.mp target]
          split
          · exact lawful_of_spares termed
          · exact lawful_of_spares termed
          · next absent =>
              have gone : call.Gone 3 record := .inl (process_of_kill_eq_noSuchProcess absent)
              exact lawful_alreadyDead recorded termed (gone.mono settled recorded (by decide))
          · refine lawful_of_gone (List.append_cons _ _ _) ?_ ?_
            · intro entry among
              rcases List.mem_append.mp among with term | wake
              · exact termed entry term
              · rw [List.mem_singleton.mp wake]
                exact ⟨rfl, fun _ none => absurd none List.not_mem_nil⟩
            · intro entry among
              obtain ⟨none, away⟩ := gone_pollSignal settled recorded fuel 0 entry among
              exact ⟨none, fun record known => .inl (away record known)⟩

/-- The polls of a pid file remove the sentinel only once it is gone. -/
theorem confirmed_pollMarker (windows : call.platform = .windows) {degraded : Bool}
    {effects : List (Nat × StopEffect)} (fuel : Nat) :
    ∀ poll, ∀ entry ∈ (call.pollMarker record degraded fuel poll).effects,
      entry.2.targets = [] ∧ ∀ record ∈ call.record, call.Confirmed effects entry.1 record := by
  induction fuel with
  | zero => exact fun _ _ among => absurd among List.not_mem_nil
  | succ fuel ih =>
      intro poll entry among
      rw [pollMarker] at among
      split at among
      · split at among
        · cases among
        · exact ih (poll + 1) entry among
      · next absent =>
          dsimp only at among
          split at among
          · rw [List.mem_singleton.mp among]
            refine ⟨rfl, fun _ _ => .inr (.inr ⟨windows, poll, le_refl poll, ?_⟩)⟩
            exact Bool.eq_false_iff.mpr absent
          · cases among

theorem lawful_stopViaPidFile (windows : call.platform = .windows) (degraded : Bool) (fuel : Nat) :
    call.Lawful (call.stopViaPidFile record degraded fuel) :=
  lawful_of_gone rfl (fun _ => spares_asked) (confirmed_pollMarker windows fuel 0)

/-! ### The hard stops -/

theorem pid_of_process {host : Host} {pid : Nat} {process : HostProcess}
    (runs : host.process pid = some process) : process.pid = pid := by
  have found : decide (process.pid = pid) = true :=
    List.find?_some (p := fun other : HostProcess => decide (other.pid = pid)) runs
  exact of_decide_eq_true found

/-- A process that may not be signalled is confirmed to be gone by itself only. -/
theorem confirmed_nil (settled : call.Settled) (recorded : record ∈ call.record)
    {process : HostProcess}
    (runs : (call.world 0).process record.pid = some process)
    (shielded : process.signalable = false)
    {effects : List (Nat × StopEffect)} {moment : Nat}
    (confirmed : call.Confirmed effects moment record) : call.Confirmed [] moment record := by
  rcases confirmed with gone | ⟨entry, -, -, other, still, kills⟩ | windows
  · exact .inl gone
  · have same := process_of_le settled recorded (Nat.zero_le _) still
    obtain rfl := Option.some.inj (runs.symm.trans same)
    cases effect : entry.2 with
    | killGroup pid pgid =>
        rw [effect] at kills
        exact absurd kills.2 (Bool.eq_false_iff.mp shielded)
    | killTree pid =>
        rw [effect] at kills
        exact absurd kills.2 (Bool.eq_false_iff.mp shielded)
    | writeStop | terminate _ | wake _ | reap _ _ | unlinkPid | unlinkStop | unlinkChildren =>
        rw [effect] at kills
        exact kills.elim
  · exact .inr (.inr windows)

theorem Confirmed.of_nil {effects : List (Nat × StopEffect)} {moment : Nat}
    (confirmed : call.Confirmed [] moment record) : call.Confirmed effects moment record := by
  rcases confirmed with gone | ⟨entry, none, -⟩ | windows
  · exact .inl gone
  · exact absurd none List.not_mem_nil
  · exact .inr (.inr windows)

theorem unlinkPid_mem {moment : Nat} {children : Bool} :
    (moment, StopEffect.unlinkPid) ∈ call.unlinks moment children := List.mem_cons_self

theorem confirmed_unlinks (recorded : call.record = some record)
    {effects : List (Nat × StopEffect)} {moment : Nat} {children : Bool}
    (confirmed : call.Confirmed effects moment record)
    (among : entry ∈ call.unlinks moment children) :
    entry.2.targets = [] ∧ ∀ record ∈ call.record, call.Confirmed effects entry.1 record := by
  obtain ⟨same, none⟩ := mem_unlinks among
  refine ⟨none, ?_⟩
  intro other known
  obtain rfl := Option.some.inj (recorded.symm.trans known)
  rwa [same]

theorem mem_identities_of_activeHandle {handle : ChildHandle}
    (active : handle ∈ call.activeHandle) :
    (⟨handle.pid, handle.startTime⟩ : ProcessIdentity) ∈ call.identities := by
  apply List.mem_append_right
  rw [List.mem_map]
  refine ⟨handle, Option.mem_toList.mpr ?_, rfl⟩
  rw [activeHandle] at active
  split at active
  · exact active
  · cases active

/-- Windows has no start tokens to tell processes apart. -/
theorem known_of_windows (windows : canSignal call.platform = false) {identity : ProcessIdentity}
    (among : identity ∈ call.identities) (moment : Nat) : call.Known moment identity.pid := by
  refine .inr ⟨identity, among, rfl, ?_⟩
  rintro ⟨expected, actual, -, reads, -⟩
  have other : call.platform ≠ .linux := by
    intro linux
    rw [linux] at windows
    cases windows
  rw [readProcStartTime, if_neg other] at reads
  cases reads

/-- A hard stop of Windows removes the files as asked exactly where the daemon may be killed, or
exits by itself. -/
theorem lawful_stopViaTreeKill_iff (settled : call.Settled) (recorded : call.record = some record)
    (windows : canSignal call.platform = false) :
    call.Lawful (call.stopViaTreeKill record) ↔ call.TreeKnown record := by
  constructor
  · intro law process runs shielded
    have among : (5, StopEffect.unlinkPid) ∈ (call.stopViaTreeKill record).effects :=
      List.mem_cons_of_mem _ (List.mem_append_right _ unlinkPid_mem)
    exact confirmed_nil settled recorded runs shielded (law.keeps _ among rfl record recorded)
  · intro known
    refine lawful_of_gone (List.cons_append).symm ?_ ?_
    · intro entry among
      rcases List.mem_cons.mp among with rfl | agent
      · refine ⟨rfl, fun number target => ?_⟩
        rw [List.mem_singleton.mp target]
        exact known_of_windows windows
          (List.mem_append_left _ (Option.mem_toList.mpr recorded)) 0
      · obtain ⟨handle, active, rfl⟩ := List.mem_map.mp agent
        refine ⟨rfl, fun number target => ?_⟩
        rw [List.mem_singleton.mp target]
        exact known_of_windows windows
          (mem_identities_of_activeHandle (Option.mem_toList.mp active)) 1
    · intro entry
      apply confirmed_unlinks recorded
      cases runs : (call.world 0).process record.pid with
      | none =>
          have gone : call.Gone 0 record := .inl runs
          exact .inl (gone.mono settled recorded (Nat.zero_le 5))
      | some process =>
          cases may : process.signalable with
          | true =>
              exact .inr (.inl ⟨_, List.mem_cons_self, Nat.zero_le 5, process, runs,
                pid_of_process runs, may⟩)
          | false => exact (known process runs may).of_nil

theorem passes_iff {signalled : Signalled} :
    Passes signalled ↔ signalled ≠ .notPermitted ∧ signalled ≠ .overflow := by
  cases signalled <;> simp [Passes]

/-- An agent whose group may not be signalled is left alone, and the stop raises. -/
theorem reapAgent_eq_none (raises : call.reapAgent = none) :
    ¬ call.AgentPasses ∧ call.AgentKnown := by
  rw [reapAgent] at raises
  split at raises
  · cases raises
  · next handle active =>
      split at raises
      · next kills =>
          have stuck : ¬ Passes ((call.world 4).killpg handle.pgid) := by
            rw [passes_iff]
            rintro ⟨permitted, fits⟩
            split at raises
            · cases raises
            · cases raises
            · exact permitted ‹_›
            · exact fits ‹_›
          refine ⟨fun passes => stuck (passes kills handle active), ?_⟩
          intro _ other same passes
          obtain rfl := Option.some.inj (active.symm.trans same)
          exact absurd passes stuck
      · cases raises

/-- What is done to the agent spares others exactly where its numbers are known. -/
theorem reapAgent_eq_some {reaped : List (Nat × StopEffect)}
    (reaps : call.reapAgent = some reaped) :
    call.AgentPasses ∧ (∀ entry ∈ reaped, entry.2.removes = false) ∧
      ((∀ entry ∈ reaped, ∀ number ∈ entry.2.targets, call.Known entry.1 number) ↔
        call.AgentKnown) := by
  have idle : (call.subtreeKill = true → ∀ handle, handle ∉ call.activeHandle) → [] = reaped →
      call.AgentPasses ∧ (∀ entry ∈ reaped, entry.2.removes = false) ∧
        ((∀ entry ∈ reaped, ∀ number ∈ entry.2.targets, call.Known entry.1 number) ↔
          call.AgentKnown) := by
    rintro away rfl
    refine ⟨fun kills handle active => absurd active (away kills handle), ?_, ?_⟩
    · exact fun _ among => absurd among List.not_mem_nil
    · exact ⟨fun _ kills handle active => absurd active (away kills handle),
        fun _ _ among => absurd among List.not_mem_nil⟩
  rw [reapAgent] at reaps
  split at reaps
  · next none =>
      refine idle (fun _ handle active => ?_) (Option.some.inj reaps)
      cases none.symm.trans active
  · next handle active =>
      split at reaps
      · next kills =>
          have passes : Passes ((call.world 4).killpg handle.pgid) ∧
              [(4, StopEffect.reap handle.pid handle.pgid)] = reaped := by
            rw [Passes]
            split at reaps
            · exact ⟨.inl ‹_›, Option.some.inj reaps⟩
            · exact ⟨.inr ‹_›, Option.some.inj reaps⟩
            · cases reaps
            · cases reaps
          obtain ⟨passes, rfl⟩ := passes
          have only : ∀ other ∈ call.activeHandle, other = handle := fun other same =>
            Option.some.inj (same.symm.trans active)
          refine ⟨fun _ other same => only other same ▸ passes, ?_, ?_, ?_⟩
          · intro entry among
            rw [List.mem_singleton.mp among]
            rfl
          · intro spares _ other same _
            rw [only other same]
            have known := spares _ (List.mem_singleton_self _)
            exact ⟨known _ List.mem_cons_self,
              known _ (List.mem_cons_of_mem _ (List.mem_singleton_self _))⟩
          · intro known entry among
            obtain ⟨pid, pgid⟩ := known kills handle active passes
            rw [List.mem_singleton.mp among]
            intro number target
            rcases List.mem_cons.mp target with rfl | target
            · exact pid
            · rwa [List.mem_singleton.mp target]
      · next none => exact idle (fun kills => absurd kills none) (Option.some.inj reaps)

/-- A group that may not be signalled makes the stop raise. -/
theorem groupKill_eq_none (raises : call.groupKill record = none) : ¬ call.GroupPasses record := by
  rw [groupKill] at raises
  rintro (dead | ⟨alive, passes⟩)
  · rw [dead] at raises
    cases raises
  · rw [alive] at raises
    dsimp only at raises
    split at raises
    · cases raises
    · next process runs =>
        have allowed := passes_iff.mp (passes process runs)
        split at raises
        · cases raises
        · cases raises
        · exact allowed.1 ‹_›
        · exact allowed.2 ‹_›

/-- A group that is empty holds no daemon. -/
theorem process_of_empty (settled : call.Settled) (recorded : record ∈ call.record)
    {process : HostProcess} (runs : (call.world 2).process record.pid = some process)
    (empty : (call.world 3).killpg process.pgid = .noSuchProcess) :
    (call.world 3).process record.pid = none := by
  cases later : (call.world 3).process record.pid with
  | none => rfl
  | some other =>
      have same := process_of_le settled recorded (Nat.le_succ 2) later
      obtain rfl := Option.some.inj (runs.symm.trans same)
      have listed : process ∈ call.world 3 := List.mem_of_find?_eq_some later
      rw [Host.killpg] at empty
      split at empty
      · cases empty
      · split at empty
        · next none =>
            have outside := List.all_eq_true.mp none process listed
            exact absurd rfl (of_decide_eq_true outside)
        · split at empty
          · cases empty
          · cases empty

/-- Where no group is signalled the stop goes on, and the daemon is gone or its group is empty. -/
theorem groupKill_eq_some_none (settled : call.Settled) (recorded : record ∈ call.record)
    (spared : call.groupKill record = some none) :
    call.GroupPasses record ∧ call.Gone 3 record := by
  rw [groupKill] at spared
  split at spared
  · cases spared
  · next dead =>
      have gone := gone_of_isRunningAt settled recorded dead
      exact ⟨.inl dead, gone.mono settled recorded (by decide)⟩
  · next alive =>
      split at spared
      · next absent =>
          have gone : call.Gone 2 record := .inl absent
          refine ⟨.inr ⟨alive, ?_⟩, gone.mono settled recorded (by decide)⟩
          intro process runs
          rw [absent] at runs
          cases runs
      · next process runs =>
          split at spared
          · cases spared
          · next empty =>
              refine ⟨.inr ⟨alive, ?_⟩, .inl (process_of_empty settled recorded runs empty)⟩
              intro other same
              obtain rfl := Option.some.inj (runs.symm.trans same)
              exact .inr empty
          · cases spared
          · cases spared

/-- A group that is signalled was read from the daemon's process. -/
theorem groupKill_eq_some_some {pgid : Nat} (killed : call.groupKill record = some (some pgid)) :
    call.GroupPasses record ∧ call.isRunningAt record 0 = some true ∧
      ∃ process, (call.world 2).process record.pid = some process ∧ process.pgid = pgid ∧
        (call.world 3).killpg pgid = .sent := by
  rw [groupKill] at killed
  split at killed
  · cases killed
  · cases killed
  · next alive =>
      split at killed
      · cases killed
      · next process runs =>
          split at killed
          · next sent =>
              have same := Option.some.inj (Option.some.inj killed)
              refine ⟨.inr ⟨alive, ?_⟩, alive, process, runs, same, same ▸ sent⟩
              intro other same
              obtain rfl := Option.some.inj (runs.symm.trans same)
              exact .inl sent
          · cases killed
          · cases killed
          · cases killed

/-- A process that may not be signalled in a group that may be has that group killed. -/
theorem groupKill_of_shielded (settled : call.Settled) (recorded : record ∈ call.record)
    (alive : call.isRunningAt record 0 = some true) {process : HostProcess}
    (runs : (call.world 3).process record.pid = some process)
    (sent : (call.world 3).killpg process.pgid = .sent) :
    call.groupKill record = some (some process.pgid) := by
  have earlier := process_of_le settled recorded (Nat.le_succ 2) runs
  rw [groupKill, alive]
  dsimp only
  rw [earlier]
  dsimp only
  rw [sent]

/-- A stop that signals no group asks nothing of the daemon's. -/
theorem groupKnown_of_spared (settled : call.Settled) (recorded : record ∈ call.record)
    (spared : ∀ pgid, call.groupKill record ≠ some (some pgid)) : call.GroupKnown record := by
  intro alive process runs _ sent
  exact absurd (groupKill_of_shielded settled recorded alive runs sent) (spared _)

/-- A group that is signalled is the daemon's, and kills it, exactly where its number is known. -/
theorem groupKnown_iff (settled : call.Settled) (recorded : call.record = some record)
    (posix : canSignal call.platform = true) {group : Option Nat}
    (killed : call.groupKill record = some group) {effects : List (Nat × StopEffect)}
    (included : ∀ entry ∈ groupSignals record group, entry ∈ effects) :
    call.GroupKnown record ↔
      (∀ entry ∈ groupSignals record group, ∀ number ∈ entry.2.targets,
          call.Known entry.1 number) ∧
        (call.AgentPasses → call.Confirmed effects 5 record) := by
  cases group with
  | none =>
      obtain ⟨-, gone⟩ := groupKill_eq_some_none settled recorded killed
      refine iff_of_true ?_ ⟨fun _ among => absurd among List.not_mem_nil, fun _ => ?_⟩
      · exact groupKnown_of_spared settled recorded fun pgid => by simp [killed]
      · exact .inl (gone.mono settled recorded (by decide))
  | some pgid =>
      have targets : (∀ entry ∈ groupSignals record (some pgid), ∀ number ∈ entry.2.targets,
          call.Known entry.1 number) ↔ call.Known 3 record.pid := by
        simp [groupSignals, StopEffect.targets]
      have among : (3, .killGroup record.pid pgid) ∈ effects :=
        included _ (List.mem_singleton_self _)
      rw [targets]
      obtain ⟨-, alive, process, runs, rfl, sent⟩ := groupKill_eq_some_some killed
      cases later : (call.world 3).process record.pid with
      | none =>
          have gone : call.Gone 3 record := .inl later
          refine iff_of_true ?_ ⟨.inl later, fun _ => .inl (gone.mono settled recorded (by decide))⟩
          intro _ other same
          cases later.symm.trans same
      | some other =>
          have earlier := process_of_le settled recorded (Nat.le_succ 2) later
          obtain rfl := Option.some.inj (runs.symm.trans earlier)
          have only : ∀ other, (call.world 3).process record.pid = some other → other = process :=
            fun other same => Option.some.inj (same.symm.trans later)
          cases may : process.signalable with
          | true =>
              refine iff_of_true ?_ ⟨?_, fun _ => ?_⟩
              · intro _ other same shielded
                rw [only other same, may] at shielded
                cases shielded
              · apply known_of_isRunningAt settled recorded alive (Nat.succ_pos 2)
                intro other same
                rwa [only other same]
              · exact .inr (.inl ⟨_, among, Nat.le_add_right 3 2, process, later, rfl, may⟩)
          | false =>
              constructor
              · intro known
                obtain ⟨number, gone⟩ := known alive process later may sent
                exact ⟨number, fun passes => .inl (gone passes)⟩
              · rintro ⟨number, confirmed⟩ _ _ _ _ _
                refine ⟨number, fun passes => ?_⟩
                have first := process_of_le settled recorded (Nat.zero_le 3) later
                rcases confirmed_nil settled recorded first may (confirmed passes) with
                  gone | ⟨_, none, -⟩ | ⟨windows, -⟩
                · exact gone
                · exact absurd none List.not_mem_nil
                · rw [windows] at posix
                  cases posix

theorem removes_groupSignals {group : Option Nat} (among : entry ∈ groupSignals record group) :
    entry.2.removes = false := by
  obtain ⟨pgid, -, rfl⟩ := List.mem_map.mp among
  rfl

/-- The files of a hard stop. -/
theorem lawful_unlinks_iff (recorded : call.record = some record)
    {before : List (Nat × StopEffect)} {ending : StopEnding}
    (kept : ∀ entry ∈ before, entry.2.removes = false) :
    call.Lawful ⟨before ++ call.unlinks 5 true, ending⟩ ↔
      (∀ entry ∈ before, ∀ number ∈ entry.2.targets, call.Known entry.1 number) ∧
        call.Confirmed (before ++ call.unlinks 5 true) 5 record := by
  constructor
  · intro law
    refine ⟨fun entry among => law.spares entry (List.mem_append_left _ among), ?_⟩
    exact law.keeps _ (List.mem_append_right _ unlinkPid_mem) rfl record recorded
  · rintro ⟨spares, confirmed⟩
    exact lawful_of_gone rfl (fun entry among => ⟨kept entry among, spares entry among⟩)
      fun entry => confirmed_unlinks recorded confirmed

/-- A hard stop of POSIX is as asked exactly where its numbers are known. -/
theorem lawful_stopViaGroupKill_iff (settled : call.Settled) (recorded : call.record = some record)
    (posix : canSignal call.platform = true) :
    call.Lawful (call.stopViaGroupKill record) ↔
      (call.GroupPasses record → call.AgentKnown) ∧ call.GroupKnown record := by
  rw [stopViaGroupKill]
  cases killed : call.groupKill record with
  | none =>
      refine iff_of_true (lawful_of_spares fun _ => spares_asked) ⟨?_, ?_⟩
      · exact fun passes => absurd passes (groupKill_eq_none killed)
      · exact groupKnown_of_spared settled recorded fun pgid => by simp [killed]
  | some group =>
      have passes : call.GroupPasses record := by
        cases group with
        | none => exact (groupKill_eq_some_none settled recorded killed).1
        | some pgid => exact (groupKill_eq_some_some killed).1
      rw [forall_prop_of_true passes]
      have asks : ∀ entry ∈ call.asked, ∀ number ∈ entry.2.targets, call.Known entry.1 number :=
        fun _ among => (spares_asked among).2
      have kept : ∀ entry ∈ call.asked ++ groupSignals record group, entry.2.removes = false :=
        List.forall_mem_append.mpr ⟨fun _ among => (spares_asked among).1,
          fun _ => removes_groupSignals⟩
      cases reaps : call.reapAgent with
      | none =>
          obtain ⟨stuck, known⟩ := reapAgent_eq_none reaps
          rw [groupKnown_iff settled recorded posix killed
            fun _ among => List.mem_append_right call.asked among]
          constructor
          · intro law
            refine ⟨known, ?_, fun passes => absurd passes stuck⟩
            exact fun entry among => law.spares entry (List.mem_append_right _ among)
          · rintro ⟨-, signals, -⟩
            refine lawful_of_spares fun entry among => ⟨kept entry among, ?_⟩
            exact List.forall_mem_append.mpr ⟨asks, signals⟩ entry among
      | some reaped =>
          obtain ⟨agent, clean, known⟩ := reapAgent_eq_some reaps
          dsimp only
          rw [lawful_unlinks_iff recorded (List.forall_mem_append.mpr ⟨kept, clean⟩),
            List.forall_mem_append, List.forall_mem_append, known,
            groupKnown_iff settled recorded posix killed fun _ among =>
              List.mem_append_left (call.unlinks 5 true)
                (List.mem_append_left reaped (List.mem_append_right call.asked among)),
            forall_prop_of_true agent]
          constructor
          · rintro ⟨⟨⟨-, signals⟩, reaped⟩, confirmed⟩
            exact ⟨reaped, signals, confirmed⟩
          · rintro ⟨reaped, signals, confirmed⟩
            exact ⟨⟨⟨asks, signals⟩, reaped⟩, confirmed⟩

/-! ### Returning -/

theorem ending_pollSignal {last : Nat} (late : call.clock 0 + call.timeout ≤ call.clock (last + 1))
    (fuel : Nat) : ∀ poll, poll ≤ last → last < poll + fuel →
      (call.pollSignal record fuel poll).ending ≠ .polling := by
  induction fuel with
  | zero => exact fun poll before after => absurd after (by omega)
  | succ fuel ih =>
      intro poll before after
      rw [pollSignal]
      split
      · exact fun raised => by cases raised
      · exact fun returned => by cases returned
      · split
        · exact fun returned => by cases returned
        · next early =>
            have further : poll ≠ last := fun same => early (same ▸ late)
            exact ih (poll + 1) (by omega) (by omega)

theorem ending_pollMarker {last : Nat} {degraded : Bool}
    (late : call.clock 0 + call.timeout ≤ call.clock (last + 1)) (fuel : Nat) :
    ∀ poll, poll ≤ last → last < poll + fuel →
      (call.pollMarker record degraded fuel poll).ending ≠ .polling := by
  induction fuel with
  | zero => exact fun poll before after => absurd after (by omega)
  | succ fuel ih =>
      intro poll before after
      rw [pollMarker]
      split
      · split
        · exact fun returned => by cases returned
        · next early =>
            have further : poll ≠ last := fun same => early (same ▸ late)
            exact ih (poll + 1) (by omega) (by omega)
      · exact fun returned => by cases returned

end Stops

/-- A stop signals the recorded processes only, and removes their files only as asked, exactly under
the condition on a hard stop. -/
theorem lawful_iff (call : StopCall) (fuel : Nat) (settled : call.Settled) :
    call.Lawful (call.stopProcess fuel) ↔ call.Sound := by
  rw [stopProcess]
  cases recorded : call.record with
  | none =>
      refine iff_of_true ⟨?_, ?_⟩ ⟨?_, ?_, ?_⟩
      · intro entry among number target
        have unlinked : ∀ {given : Bool} {effect : StopEffect}, effect.targets = [] →
            entry ∈ (if given then [(0, effect)] else []) → entry.2.targets = [] := by
          intro given effect none among
          split at among
          · rwa [List.mem_singleton.mp among]
          · cases among
        have none : entry.2.targets = [] := by
          dsimp only at among
          split at among
          · rcases List.mem_append.mp among with stop | children
            · exact unlinked rfl stop
            · exact unlinked rfl children
          · cases among
        rw [none] at target
        cases target
      · intro _ _ _ record known
        cases recorded.symm.trans known
      · intro _ _ record known
        cases recorded.symm.trans known
      · intro _ _ record known
        cases recorded.symm.trans known
      · intro _ _ _ record known
        cases recorded.symm.trans known
  | some record =>
      have only : ∀ {other}, other ∈ call.record → other = record := fun same =>
        Option.some.inj (same.symm.trans recorded)
      dsimp only
      by_cases hard : call.level = .full ∧ canSignal call.platform = true
      · rw [if_pos hard, lawful_stopViaGroupKill_iff settled recorded hard.2]
        constructor
        · rintro ⟨agent, group⟩
          refine ⟨?_, ?_, ?_⟩
          · intro _ _ other same
            rwa [only same]
          · intro _ _ other same
            rwa [only same]
          · intro _ windows
            cases hard.2.symm.trans windows
        · intro sound
          exact ⟨sound.agent hard.1 hard.2 record recorded,
            sound.group hard.1 hard.2 record recorded⟩
      · rw [if_neg hard]
        by_cases posix : canSignal call.platform = true
        · rw [if_pos posix]
          have soft : call.level ≠ .full := fun full => hard ⟨full, posix⟩
          refine iff_of_true (lawful_stopViaSignal settled recorded fuel) ⟨?_, ?_, ?_⟩
          · exact fun full => absurd full soft
          · exact fun full => absurd full soft
          · exact fun full => absurd full soft
        · rw [if_neg posix]
          have windows : canSignal call.platform = false := Bool.eq_false_iff.mpr posix
          by_cases tree : call.level = .full ∧ call.hardKill = true
          · rw [if_pos tree, lawful_stopViaTreeKill_iff settled recorded windows]
            constructor
            · intro known
              refine ⟨?_, ?_, ?_⟩
              · exact fun _ signals => absurd signals posix
              · exact fun _ signals => absurd signals posix
              · intro _ _ _ other same
                rwa [only same]
            · intro sound
              exact sound.tree tree.1 windows tree.2 record recorded
          · rw [if_neg tree]
            have name : call.platform = .windows := by
              simpa [canSignal] using windows
            refine iff_of_true (lawful_stopViaPidFile name _ fuel) ⟨?_, ?_, ?_⟩
            · exact fun _ signals => absurd signals posix
            · exact fun _ signals => absurd signals posix
            · exact fun full _ kills => absurd ⟨full, kills⟩ tree

/-- A hard stop of a daemon and an agent that both run. -/
theorem lawful_iff_running :
    let token : PyText := PyText.ofString "5000"
    let call : StopCall :=
      { platform := .linux, level := .full, record := some ⟨100, some token⟩,
        handle := some ⟨200, 200, some token⟩,
        world := fun _ => [⟨100, 100, some token, true⟩, ⟨200, 200, some token, true⟩],
        marker := fun _ => true, clock := id, timeout := 30, stopFile := true, childrenFile := true,
        subtreeKill := true, hardKill := true }
    call.Settled ∧ call.Lawful (call.stopProcess 0) := by
  intro token call
  have settled : call.Settled := by
    intro record recorded moment process runs
    exact runs
  refine ⟨settled, (lawful_iff call 0 settled).mpr ⟨?_, ?_, ?_⟩⟩
  · intro _ _ record recorded _ _ handle active _
    obtain rfl : handle = ⟨200, 200, some token⟩ := (Option.some.inj active).symm
    have known : call.Known 4 200 := by
      refine .inr ⟨⟨200, some token⟩, List.mem_cons_of_mem _ (List.mem_singleton_self _), rfl, ?_⟩
      rintro ⟨expected, actual, recorded, reads, unlike⟩
      have same : readProcStartTime call.platform (call.world 4) 200 = some token := by
        decide +kernel
      exact unlike (Option.some.inj (reads.symm.trans (same.trans recorded)))
    exact ⟨known, known⟩
  · intro _ _ record recorded _ process runs shielded
    obtain rfl : record = ⟨100, some token⟩ := (Option.some.inj recorded).symm
    have stands : (call.world 3).process 100 = some ⟨100, 100, some token, true⟩ := by
      decide +kernel
    rw [← Option.some.inj (stands.symm.trans runs)] at shielded
    cases shielded
  · intro _ windows
    cases windows

/-- A daemon that has exited leaves the handle of its agent behind. Where the agent has exited too
and its number is that of another process, that one is reaped. -/
theorem not_lawful_recycled_agent :
    let token : PyText := PyText.ofString "5000"
    let other : PyText := PyText.ofString "9000"
    let call : StopCall :=
      { platform := .linux, level := .full, record := some ⟨100, some token⟩,
        handle := some ⟨200, 200, some token⟩, world := fun _ => [⟨200, 200, some other, true⟩],
        marker := fun _ => true, clock := id, timeout := 30, stopFile := true, childrenFile := true,
        subtreeKill := true, hardKill := true }
    call.Settled ∧ (4, .reap 200 200) ∈ (call.stopProcess 0).effects ∧
      ¬ call.Lawful (call.stopProcess 0) := by
  intro token other call
  have reaped : (4, .reap 200 200) ∈ (call.stopProcess 0).effects := by decide +kernel
  refine ⟨?_, reaped, ?_⟩
  · intro record recorded moment process runs
    exact runs
  · intro law
    rcases law.spares _ reaped 200 List.mem_cons_self with absent | ⟨identity, among, same, unlike⟩
    · exact absurd absent (by decide +kernel)
    · have agent : identity = ⟨200, some token⟩ := by
        rcases List.mem_cons.mp among with rfl | listed
        · cases same
        · exact List.mem_singleton.mp listed
      refine unlike ⟨token, other, ?_, ?_, ?_⟩
      · rw [agent]
      · rw [agent]
        decide +kernel
      · decide +kernel

end StopCall

end Orchestrator.ProcessControl
