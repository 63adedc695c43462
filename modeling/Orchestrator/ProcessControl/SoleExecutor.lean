import Orchestrator.ProcessControl.ExecutorClaim

/-! # One executor of a clone

As long as no replacement takes the path from a live process, the file at the path is that of
the only live process that has one there, and at most one live process holds the marker. A
replacement that takes it makes two holders.
-/

namespace Orchestrator.ProcessControl

open Orchestrator.Foundation

namespace Process

/-- A live process has put a file at the path, and not released it. -/
def Claims (process : Process) (inode : Nat) : Prop :=
  process.alive = true ∧ process.phase.ownFile = some inode

/-- What a process has written of its payload. -/
def text (process : Process) : PyText :=
  match process.phase with
  | .writing _ written => process.credentials.payload.take written
  | _ => process.credentials.payload

end Process

namespace State

def ClaimsAt (state : State) (index inode : Nat) : Prop :=
  ∃ process : Process, state.processes[index]? = some process ∧ process.Claims inode

/-- A live process has returned from its claim, and not released it. -/
def Holds (state : State) (index : Nat) : Prop :=
  ∃ process : Process, state.processes[index]? = some process ∧ process.alive = true ∧
    ∃ inode, process.phase = .holding inode

/-- At most one live process holds the marker. -/
def Exclusive (state : State) : Prop :=
  ∀ first second, state.Holds first → state.Holds second → first = second

/-- The live processes have different pids. -/
def DistinctPids (state : State) : Prop :=
  ∀ (first second : Nat) (process other : Process), state.processes[first]? = some process →
    state.processes[second]? = some other → process.alive = true → other.alive = true →
      process.credentials.pid = other.credentials.pid → first = second

/-- No process has begun a claim; any file may be at the path. -/
def Fresh (state : State) : Prop :=
  state.DistinctPids ∧ ∀ process ∈ state.processes, process.phase = .idle

/-- The file at the path is that of the only live process that has one there. -/
structure Consistent (state : State) : Prop where
  distinct : state.DistinctPids
  placed : ∀ (index : Nat) (process : Process) (inode : Nat),
    state.processes[index]? = some process → process.Claims inode →
      state.marker = some ⟨inode, some process.text⟩
  single : ∀ first second inode number, state.ClaimsAt first inode →
    state.ClaimsAt second number → first = second

theorem Consistent.exclusive {state : State} (consistent : state.Consistent) :
    state.Exclusive := by
  intro first second ⟨process, found, alive, inode, phase⟩ ⟨other, found', alive', number, phase'⟩
  refine consistent.single first second inode number ⟨process, found, alive, ?_⟩
    ⟨other, found', alive', ?_⟩
  · rw [phase]
    rfl
  · rw [phase']
    rfl

end State

/-- A replacement takes the path from no live process: the file there is not one that a live
process has put there. -/
def SparesLive (transition : Transition State Event) : Prop :=
  ∀ index, transition.event = .act index .replace →
    ∀ place, ∀ file ∈ transition.before.marker, ¬ transition.before.ClaimsAt place file.inode

/-! ## What an operation does -/

section Operations

variable {state : State} {index : Nat} {process : Process} {phase : Phase}

theorem getElem?_enter (state : State) (index place : Nat) (phase : Phase) :
    (state.enter index phase).processes[place]? =
      if index = place then state.processes[place]?.map fun process => { process with phase }
      else state.processes[place]? := by
  rw [State.enter, List.getElem?_modify]
  split <;> simp [*]

/-- A process after another phase was entered is the one that entered it, or as it was. -/
theorem enter_cases {place : Nat} {other : Process}
    (here : state.processes[index]? = some process)
    (found : (state.enter index phase).processes[place]? = some other) :
    (place = index ∧ other = { process with phase }) ∨
      (place ≠ index ∧ state.processes[place]? = some other) := by
  rw [getElem?_enter] at found
  by_cases same : index = place
  · subst same
    rw [if_pos rfl, here] at found
    cases found
    exact .inl ⟨rfl, rfl⟩
  · rw [if_neg same] at found
    exact .inr ⟨Ne.symm same, found⟩

/-- A phase says nothing of who is alive. -/
theorem distinctPids_enter (here : state.processes[index]? = some process)
    (distinct : state.DistinctPids) : (state.enter index phase).DistinctPids := by
  have before : ∀ (place : Nat) (other : Process),
      (state.enter index phase).processes[place]? = some other →
        ∃ earlier : Process, state.processes[place]? = some earlier ∧
          earlier.alive = other.alive ∧ earlier.credentials.pid = other.credentials.pid := by
    intro place other found
    rcases enter_cases here found with ⟨rfl, rfl⟩ | ⟨-, earlier⟩
    · exact ⟨process, here, rfl, rfl⟩
    · exact ⟨other, earlier, rfl, rfl⟩
  intro first second one two isFirst isSecond firstAlive secondAlive pids
  obtain ⟨one', found, alive, pid⟩ := before first one isFirst
  obtain ⟨two', found', alive', pid'⟩ := before second two isSecond
  exact distinct first second one' two' found found' (alive.trans firstAlive)
    (alive'.trans secondAlive) (by rw [pid, pid', pids])

/-- A process that is not at the path enters a phase that is not at it. -/
theorem consistent_enter (here : state.processes[index]? = some process)
    (quiet : phase.ownFile = none) (consistent : state.Consistent) :
    (state.enter index phase).Consistent := by
  have earlier : ∀ (place : Nat) (other : Process) (inode : Nat),
      (state.enter index phase).processes[place]? = some other → other.Claims inode →
        state.processes[place]? = some other := by
    intro place other inode found claims
    rcases enter_cases here found with ⟨-, rfl⟩ | ⟨-, earlier⟩
    · exact absurd (quiet.symm.trans claims.2) (Option.some_ne_none _).symm
    · exact earlier
  refine ⟨distinctPids_enter here consistent.distinct, ?_, ?_⟩
  · intro place other inode found claims
    exact consistent.placed place other inode (earlier place other inode found claims) claims
  · intro first second inode number ⟨one, found, claims⟩ ⟨two, found', claims'⟩
    exact consistent.single first second inode number
      ⟨one, earlier first one inode found claims, claims⟩
      ⟨two, earlier second two number found' claims', claims'⟩

/-- The only process that may be at the path puts its file there, or changes it. -/
theorem consistent_sole {marker : Option File} {next : Nat}
    (here : state.processes[index]? = some process)
    (placed : ∀ inode, phase.ownFile = some inode →
      marker = some ⟨inode, some ({ process with phase } : Process).text⟩)
    (sole : ∀ place inode, state.ClaimsAt place inode → place = index)
    (distinct : state.DistinctPids) :
    (State.enter ⟨marker, next, state.processes⟩ index phase).Consistent := by
  let changed : State := ⟨marker, next, state.processes⟩
  have here' : changed.processes[index]? = some process := here
  have mine : ∀ (place : Nat) (other : Process) (inode : Nat),
      (changed.enter index phase).processes[place]? = some other → other.Claims inode →
        place = index ∧ other = { process with phase } := by
    intro place other inode found claims
    rcases enter_cases here' found with same | ⟨elsewhere, earlier⟩
    · exact same
    · exact absurd (sole place inode ⟨other, earlier, claims⟩) elsewhere
  refine ⟨distinctPids_enter here' distinct, ?_, ?_⟩
  · intro place other inode found claims
    obtain ⟨-, rfl⟩ := mine place other inode found claims
    exact placed inode claims.2
  · intro first second inode number ⟨one, found, claims⟩ ⟨two, found', claims'⟩
    rw [(mine first one inode found claims).1, (mine second two number found' claims').1]

/-- A process that dies leaves its file behind. -/
theorem consistent_kill (consistent : state.Consistent) : (state.kill index).Consistent := by
  have earlier : ∀ (place : Nat) (other : Process),
      (state.kill index).processes[place]? = some other → other.alive = true →
        state.processes[place]? = some other := by
    intro place other found alive
    rw [State.kill, List.getElem?_modify] at found
    obtain ⟨before, was, rfl⟩ := Option.map_eq_some_iff.mp found
    by_cases same : index = place
    · rw [if_pos same] at alive
      cases alive
    · rw [if_neg same]
      exact was
  refine ⟨?_, ?_, ?_⟩
  · intro first second one two isFirst isSecond alive alive' pids
    exact consistent.distinct first second one two (earlier first one isFirst alive)
      (earlier second two isSecond alive') alive alive' pids
  · intro place other inode found claims
    exact consistent.placed place other inode (earlier place other found claims.1) claims
  · intro first second inode number ⟨one, found, claims⟩ ⟨two, found', claims'⟩
    exact consistent.single first second inode number
      ⟨one, earlier first one found claims.1, claims⟩
      ⟨two, earlier second two found' claims'.1, claims'⟩

/-- A path where no live process has its file belongs to no live process. -/
theorem not_claimsAt_of_free (consistent : state.Consistent)
    (free : ∀ place, ∀ file ∈ state.marker, ¬ state.ClaimsAt place file.inode)
    (place inode : Nat) : ¬ state.ClaimsAt place inode := by
  intro ⟨process, found, claims⟩
  have there := consistent.placed place process inode found claims
  exact free place ⟨inode, some process.text⟩ there ⟨process, found, claims⟩

/-- A new file at a path where no live process has one. -/
theorem consistent_putFile {text : PyText} (here : state.processes[index]? = some process)
    (consistent : state.Consistent)
    (free : ∀ place, ∀ file ∈ state.marker, ¬ state.ClaimsAt place file.inode)
    (own : phase.ownFile = some state.nextInode)
    (written : ({ process with phase } : Process).text = text) :
    ((state.putFile text).enter index phase).Consistent := by
  refine consistent_sole here ?_ ?_ consistent.distinct
  · intro inode claimed
    rw [own] at claimed
    cases claimed
    rw [written]
  · intro place inode claims
    exact absurd claims (not_claimsAt_of_free consistent free place inode)

/-- A process goes on with the file that it has put at the path. -/
theorem consistent_write {inode written : Nat} {text : PyText}
    (here : state.processes[index]? = some process) (alive : process.alive = true)
    (writing : process.phase = .writing inode written) (consistent : state.Consistent)
    (own : phase.ownFile = some inode)
    (wrote : ({ process with phase } : Process).text = text) :
    ((state.writeFile inode text).enter index phase).Consistent := by
  have claims : process.Claims inode := ⟨alive, by rw [writing]; rfl⟩
  have there := consistent.placed index process inode here claims
  refine consistent_sole here ?_ ?_ consistent.distinct
  · intro number claimed
    rw [own] at claimed
    cases claimed
    rw [there, wrote, Option.map_some, if_pos rfl]
  · intro place number others
    exact consistent.single place index number inode others ⟨process, here, claims⟩

/-- The only process at the path takes its file away. -/
theorem consistent_unlink {inode : Nat} (here : state.processes[index]? = some process)
    (alive : process.alive = true) (holding : process.phase = .holding inode)
    (consistent : state.Consistent) :
    (State.enter { state with marker := none } index .released).Consistent := by
  have claims : process.Claims inode := ⟨alive, by rw [holding]; rfl⟩
  refine consistent_sole here ?_ ?_ consistent.distinct
  · intro number claimed
    cases claimed
  · intro place number others
    exact consistent.single place index number inode others ⟨process, here, claims⟩

theorem ownFile_afterRead (canSignal : Bool) (marker : Option File) :
    (afterRead canSignal marker).ownFile = none := by
  rw [afterRead]
  split
  · rfl
  · rfl
  · split <;> rfl

theorem ownFile_afterProbe (state : State) (record : ProcessIdentity) :
    (afterProbe state record).ownFile = none := by
  rw [afterProbe]
  split <;> rfl

/-- Every operation but a replacement of a live file keeps the path with its only process. -/
theorem consistent_act {canSignal : Bool} {operation : Operation} {after : State}
    (here : state.processes[index]? = some process) (alive : process.alive = true)
    (moved : act canSignal index process state operation = some after)
    (spares : operation = .replace →
      ∀ place, ∀ file ∈ state.marker, ¬ state.ClaimsAt place file.inode)
    (consistent : state.Consistent) : after.Consistent := by
  cases operation with
  | createExclusively =>
      rw [act] at moved
      split at moved
      · split at moved
        · cases moved
          exact consistent_enter here rfl consistent
        · next absent =>
          cases moved
          have nothing : process.credentials.payload.take 0 = [] := List.take_zero
          refine consistent_putFile here consistent ?_ rfl nothing
          intro place file there
          rw [absent] at there
          cases there
      · cases moved
  | write count =>
      rw [act] at moved
      split at moved
      · next inode written writing =>
        dsimp only at moved
        split at moved
        · next complete =>
          cases moved
          refine consistent_write here alive writing consistent rfl ?_
          exact (List.take_of_length_le complete).symm
        · cases moved
          exact consistent_write here alive writing consistent rfl rfl
      · cases moved
  | readRecord =>
      rw [act] at moved
      split at moved
      · cases moved
        exact consistent_enter here (ownFile_afterRead canSignal state.marker) consistent
      · cases moved
  | probe =>
      rw [act] at moved
      split at moved
      · next record _ =>
        cases moved
        exact consistent_enter here (ownFile_afterProbe state record) consistent
      · cases moved
  | writeTemporary =>
      rw [act] at moved
      split at moved
      · cases moved
        exact consistent_enter here rfl consistent
      · cases moved
  | replace =>
      rw [act] at moved
      split at moved
      · cases moved
        exact consistent_putFile here consistent (spares rfl) rfl rfl
      · cases moved
  | raise =>
      rw [act] at moved
      split at moved
      · cases moved
        exact consistent_enter here rfl consistent
      · cases moved
  | unlink =>
      rw [act] at moved
      split at moved
      · next inode holding =>
        cases moved
        exact consistent_unlink here alive holding consistent
      · cases moved
  | die =>
      cases moved
      exact consistent_kill consistent

/-- A process starts with a pid of its own. -/
theorem consistent_spawn {credentials : Credentials}
    (free : state.running credentials.pid = none) (consistent : state.Consistent) :
    State.Consistent { state with
      processes := state.processes ++ [⟨credentials, true, .idle⟩] } := by
  have earlier : ∀ (place : Nat) (other : Process),
      (state.processes ++ [⟨credentials, true, .idle⟩])[place]? = some other →
        state.processes[place]? = some other ∨
          (place = state.processes.length ∧ other = ⟨credentials, true, .idle⟩) := by
    intro place other found
    rw [List.getElem?_append] at found
    split at found
    · exact .inl found
    · next beyond =>
      rw [List.getElem?_singleton] at found
      split at found
      · next isLast =>
        cases found
        exact .inr ⟨by omega, rfl⟩
      · cases found
  have unused : ∀ (place : Nat) (other : Process), state.processes[place]? = some other →
      other.alive = true → other.credentials.pid ≠ credentials.pid := by
    intro place other found alive same
    have passes := List.find?_eq_none.mp free other (List.mem_of_getElem? found)
    exact passes (by rw [alive, decide_eq_true same]; rfl)
  have old : ∀ (place : Nat) (other : Process) (inode : Nat),
      (state.processes ++ [⟨credentials, true, .idle⟩])[place]? = some other →
        other.Claims inode → state.processes[place]? = some other := by
    intro place other inode found claims
    rcases earlier place other found with before | ⟨-, rfl⟩
    · exact before
    · cases claims.2
  refine ⟨?_, ?_, ?_⟩
  · intro first second one two isFirst isSecond alive alive' pids
    rcases earlier first one isFirst with before | ⟨isLast, rfl⟩
    · rcases earlier second two isSecond with before' | ⟨isLast', rfl⟩
      · exact consistent.distinct first second one two before before' alive alive' pids
      · exact absurd pids (unused first one before alive)
    · rcases earlier second two isSecond with before' | ⟨isLast', -⟩
      · exact absurd pids.symm (unused second two before' alive')
      · rw [isLast, isLast']
  · intro place other inode found claims
    exact consistent.placed place other inode (old place other inode found claims) claims
  · intro first second inode number ⟨one, found, claims⟩ ⟨two, found', claims'⟩
    exact consistent.single first second inode number
      ⟨one, old first one inode found claims, claims⟩
      ⟨two, old second two number found' claims', claims'⟩

end Operations

/-! ## Runs -/

section Runs

variable {canSignal : Bool}

theorem consistent_step {transition : Transition State Event}
    (moved : step canSignal transition.event transition.before = some transition.after)
    (spares : SparesLive transition) (consistent : transition.before.Consistent) :
    transition.after.Consistent := by
  obtain ⟨before, event, after⟩ := transition
  dsimp only at moved consistent ⊢
  cases event with
  | spawn credentials =>
      rw [step] at moved
      split at moved
      · next free =>
        cases moved
        exact consistent_spawn free consistent
      · cases moved
  | act index operation =>
      rw [step] at moved
      split at moved
      · next process here =>
        split at moved
        · next alive =>
          refine consistent_act here alive moved ?_ consistent
          rintro rfl
          exact spares index rfl
        · cases moved
      · cases moved

theorem State.Fresh.consistent {state : State} (fresh : state.Fresh) : state.Consistent := by
  have idle : ∀ (index : Nat) (process : Process) (inode : Nat),
      state.processes[index]? = some process → ¬ process.Claims inode := by
    intro index process inode found claims
    have phase := fresh.2 process (List.mem_of_getElem? found)
    rw [Process.Claims, phase] at claims
    cases claims.2
  refine ⟨fresh.1, ?_, ?_⟩
  · intro index process inode found claims
    exact absurd claims (idle index process inode found)
  · intro first second inode number ⟨one, found, claims⟩
    exact absurd claims (idle first one inode found)

/-- Where no replacement takes the path from a live process, at most one live process holds
the marker at any time. -/
theorem exclusive_of_sparesLive {start last : State}
    {transitions : List (Transition State Event)} (fresh : start.Fresh)
    (run : Run (step canSignal) start transitions last)
    (spares : ∀ transition ∈ transitions, SparesLive transition) :
    (∀ transition ∈ transitions, transition.before.Exclusive) ∧ last.Exclusive := by
  obtain ⟨before, here⟩ := run.invariant fresh.consistent
    (fun _ moved spares consistent => consistent_step moved spares consistent) spares
  exact ⟨fun transition among => (before transition among).exclusive, here.exclusive⟩

end Runs

/-! ## A marker that is left behind -/

def Event.replaces : Event → Bool
  | .act _ .replace => true
  | _ => false

/-- No live process has a file at the path. -/
def State.unclaimed (state : State) : Bool :=
  state.processes.all fun process => !process.alive || process.phase.ownFile.isNone

theorem sparesLive_of_unclaimed {transition : Transition State Event}
    (unclaimed : (!transition.event.replaces || transition.before.unclaimed) = true) :
    SparesLive transition := by
  intro index replaces place file _ ⟨process, here, alive, own⟩
  rw [replaces] at unclaimed
  have quiet := List.all_eq_true.mp unclaimed process (List.mem_of_getElem? here)
  rw [alive, own] at quiet
  cases quiet

/-- A process of a pid, without a start token. -/
def claimant (pid : Nat) (positive : 0 < pid) (bounded : pid < pidLimit) : Credentials :=
  ⟨pid, positive, bounded, none, fun _ among => absurd among (Option.not_mem_none _), true⟩

def emptyPath : State := ⟨none, 0, []⟩

theorem fresh_emptyPath : emptyPath.Fresh :=
  ⟨fun _ _ _ _ found => absurd found (by intro found; cases found),
    fun _ among => absurd among List.not_mem_nil⟩

/-- A process dies before it has written its marker, and another one claims it. -/
def leftBehind : List Event :=
  [.spawn (claimant 1 (by decide) (by decide)), .spawn (claimant 2 (by decide) (by decide)),
    .act 0 .createExclusively, .act 0 .die, .act 1 .createExclusively, .act 1 .readRecord,
    .act 1 .writeTemporary, .act 1 .replace]

theorem left_behind_marker_held_once :
    ∃ transitions last, Run (step true) emptyPath transitions last ∧
      (transitions.any fun transition => transition.event.replaces) = true ∧
        (∀ transition ∈ transitions, transition.before.Exclusive) ∧ last.Exclusive := by
  have replayed : (replay (step true) emptyPath leftBehind).any (fun replayed =>
      (replayed.1.any fun transition => transition.event.replaces) &&
        replayed.1.all fun transition =>
          !transition.event.replaces || transition.before.unclaimed) = true := by
    decide
  obtain ⟨⟨transitions, last⟩, replayed, both⟩ := (Option.any_eq_true _ _).mp replayed
  rw [Bool.and_eq_true] at both
  exact ⟨transitions, last, run_of_replay replayed, both.1,
    exclusive_of_sparesLive fresh_emptyPath (run_of_replay replayed) fun transition among =>
      sparesLive_of_unclaimed (List.all_eq_true.mp both.2 transition among)⟩

/-! ## The probe -/

section Probe

variable {canSignal : Bool} {state : State}

/-- A live process is the one that its pid finds. -/
theorem running_of_alive {index : Nat} {process : Process} (distinct : state.DistinctPids)
    (here : state.processes[index]? = some process) (alive : process.alive = true) :
    state.running process.credentials.pid = some process := by
  have passes : (process.alive && decide (process.credentials.pid = process.credentials.pid)) =
      true := by rw [alive, decide_eq_true rfl]; rfl
  cases found : state.running process.credentials.pid with
  | none => exact absurd passes (List.find?_eq_none.mp found _ (List.mem_of_getElem? here))
  | some other =>
      have same := List.find?_some found
      rw [Bool.and_eq_true, decide_eq_true_eq] at same
      obtain ⟨place, there⟩ := List.mem_iff_getElem?.mp (List.mem_of_find?_eq_some found)
      have places := distinct place index other process there here same.1 alive same.2
      rw [places, here] at there
      exact there.symm

/-- A process that runs is running by its own record. -/
theorem isRunning_identity {index : Nat} {process : Process} (distinct : state.DistinctPids)
    (here : state.processes[index]? = some process) (alive : process.alive = true) :
    state.isRunning process.credentials.identity = some true := by
  have found := running_of_alive distinct here alive
  have fits : ¬ pidLimit ≤ process.credentials.pid :=
    Nat.not_le.mpr process.credentials.bounded
  have signalled : state.signal process.credentials.pid =
      if process.credentials.signalable then .sent else .notPermitted := by
    rw [State.signal, if_neg fits, found]
  have started : state.startTime process.credentials.pid = process.credentials.startTime := by
    rw [State.startTime, found, Option.bind_some]
  rw [State.isRunning, isRunning, Credentials.identity]
  dsimp only
  rw [signalled]
  cases process.credentials.signalable with
  | false => rfl
  | true =>
      rw [if_pos rfl]
      dsimp only
      rw [started]
      cases process.credentials.startTime with
      | none => rfl
      | some token => exact congrArg some (decide_eq_true rfl)

/-- Where the probe, asked again, finds nobody and no live process is still writing its file,
the file at the path is not that of a live process. -/
theorem not_claimsAt_of_probed (consistent : state.Consistent)
    (nobody : runningDaemonPid canSignal state = some none)
    (written : ∀ (index : Nat) (process : Process), state.processes[index]? = some process →
      process.alive = true → ∀ inode count, process.phase ≠ .writing inode count)
    (index inode : Nat) : ¬ state.ClaimsAt index inode := by
  intro ⟨process, here, alive, own⟩
  have there := consistent.placed index process inode here ⟨alive, own⟩
  have holding : process.phase = .holding inode := by
    cases phase : process.phase with
    | writing number count => exact absurd phase (written index process here alive number count)
    | holding number =>
        rw [phase] at own
        rw [Option.some.inj own]
    | _ =>
        rw [phase] at own
        cases own
  have payload : process.text = process.credentials.payload := by rw [Process.text, holding]
  have record : readMarker state.marker = some (some process.credentials.identity) := by
    rw [there, payload, readMarker, Option.map_some, Credentials.readPidRecord_payload]
  rw [runningDaemonPid, record] at nobody
  dsimp only at nobody
  cases canSignal with
  | false => cases nobody
  | true =>
      rw [isRunning_identity consistent.distinct here alive] at nobody
      cases nobody

end Probe

/-- Where no replacement takes the path from a live process, the probe names the process that holds
the marker. -/
theorem probe_finds_holder {canSignal : Bool} {start last : State}
    {transitions : List (Transition State Event)} (fresh : start.Fresh)
    (run : Run (step canSignal) start transitions last)
    (spares : ∀ transition ∈ transitions, SparesLive transition)
    {index inode : Nat} {process : Process} (here : last.processes[index]? = some process)
    (alive : process.alive = true) (holding : process.phase = .holding inode) :
    runningDaemonPid canSignal last = some (some process.credentials.pid) := by
  obtain ⟨-, consistent⟩ := run.invariant fresh.consistent
    (fun _ moved spares consistent => consistent_step moved spares consistent) spares
  have there := consistent.placed index process inode here ⟨alive, by rw [holding]; rfl⟩
  have payload : process.text = process.credentials.payload := by rw [Process.text, holding]
  have record : readMarker last.marker = some (some process.credentials.identity) := by
    rw [there, payload, readMarker, Option.map_some, Credentials.readPidRecord_payload]
  rw [runningDaemonPid, record]
  dsimp only
  cases canSignal with
  | false => rfl
  | true =>
      rw [if_pos rfl, isRunning_identity consistent.distinct here alive]
      rfl

theorem probe_finds_second : ∃ transitions last,
    Run (step true) emptyPath transitions last ∧ runningDaemonPid true last = some (some 2) := by
  have replayed : (replay (step true) emptyPath leftBehind).any (fun replayed =>
      (replayed.1.all fun transition =>
          !transition.event.replaces || transition.before.unclaimed) &&
        replayed.2.processes[1]?.any fun process => process.alive &&
          process.credentials.pid = 2 && process.phase = .holding 1) = true := by
    decide
  obtain ⟨⟨transitions, last⟩, replayed, both⟩ := (Option.any_eq_true _ _).mp replayed
  rw [Bool.and_eq_true] at both
  obtain ⟨process, here, found⟩ := (Option.any_eq_true _ _).mp both.2
  rw [Bool.and_eq_true, Bool.and_eq_true, decide_eq_true_eq, decide_eq_true_eq] at found
  have named := probe_finds_holder fresh_emptyPath (run_of_replay replayed)
    (fun transition among => sparesLive_of_unclaimed (List.all_eq_true.mp both.1 transition among))
    here found.1.1 found.2
  exact ⟨transitions, last, run_of_replay replayed, by rw [named, found.1.2]⟩

/-! ## Two holders -/

/-- A replacement of the marker while another process holds it leaves two holders. -/
theorem not_exclusive_of_replace {canSignal : Bool} {before after : State} {index holder : Nat}
    (moved : step canSignal (.act index .replace) before = some after)
    (held : before.Holds holder) : ¬ after.Exclusive := by
  obtain ⟨other, there, alive', inode, holding⟩ := held
  rw [step] at moved
  split at moved
  · next process here =>
    split at moved
    · next alive =>
      rw [act] at moved
      split at moved
      · next staged =>
        cases moved
        have different : index ≠ holder := by
          rintro rfl
          rw [here] at there
          cases there
          rw [staged] at holding
          cases holding
        intro exclusive
        let holds : Process := { process with phase := .holding before.nextInode }
        refine different (exclusive index holder ⟨holds, ?_, alive, before.nextInode, rfl⟩
          ⟨other, ?_, alive', inode, holding⟩)
        · rw [getElem?_enter, if_pos rfl]
          exact congrArg _ here
        · rw [getElem?_enter, if_neg different]
          exact there
      · cases moved
    · cases moved
  · cases moved

/-- A marker is replaced after its exclusive create and before its text is written. -/
def halfWritten : List Event :=
  [.spawn (claimant 1 (by decide) (by decide)), .spawn (claimant 2 (by decide) (by decide)),
    .act 0 .createExclusively, .act 1 .createExclusively, .act 1 .readRecord,
    .act 1 .writeTemporary, .act 1 .replace, .act 0 (.write 40)]

/-- Two live processes hold the marker: one created it, the other found it empty. -/
theorem half_written_marker_held_twice :
    ∃ transitions last, Run (step true) emptyPath transitions last ∧ emptyPath.Fresh ∧
      ¬ last.Exclusive := by
  have held : (replay (step true) emptyPath halfWritten).any (fun replayed =>
      (replayed.2.processes.map fun process => (process.alive, process.phase)) =
        [(true, .holding 0), (true, .holding 1)]) = true := by
    decide +kernel
  obtain ⟨⟨transitions, last⟩, replayed, both⟩ := (Option.any_eq_true _ _).mp held
  have phases := of_decide_eq_true both
  have holds : ∀ index inode,
      (last.processes.map fun process => (process.alive, process.phase))[index]? =
        some (true, .holding inode) → last.Holds index := by
    intro index inode found
    rw [List.getElem?_map] at found
    obtain ⟨process, here, shape⟩ := Option.map_eq_some_iff.mp found
    exact ⟨process, here, congrArg Prod.fst shape, inode, congrArg Prod.snd shape⟩
  refine ⟨transitions, last, run_of_replay replayed, fresh_emptyPath, fun exclusive => ?_⟩
  have same := exclusive 0 1 (holds 0 0 (by rw [phases]; rfl)) (holds 1 1 (by rw [phases]; rfl))
  cases same

end Orchestrator.ProcessControl
