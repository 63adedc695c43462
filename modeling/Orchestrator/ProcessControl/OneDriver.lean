import Orchestrator.Foundation.Transitions

/-! # The executor slot of a home

The commands that drive the pipeline in one clone: `run` and `rerun` claim the runner's marker, the
daemon claims its own, and a single pass claims none. Each command looks at both markers before it
claims one, and the claim of one marker is taken as one atomic step.
-/

namespace Orchestrator.ProcessControl

open Orchestrator.Foundation

/-- A file that names the process that holds it. -/
inductive SlotMarker where
  | daemon
  | runner
  deriving DecidableEq

/-- The commands that drive tasks: `run` or `rerun`, the `watch` daemon, and `watch` in a single
pass. -/
inductive DriverCommand where
  | run
  | watch
  | singlePass
  deriving DecidableEq

/-- The marker that a command claims. -/
def DriverCommand.marker : DriverCommand → Option SlotMarker
  | .run => some .runner
  | .watch => some .daemon
  | .singlePass => none

/-- How far a command has come. -/
inductive DriverStage where
  | started
  | daemonProbed
  | slotFree
  | refused
  | driving
  | finished
  deriving DecidableEq

structure Driver where
  command : DriverCommand
  alive : Bool := true
  stage : DriverStage := .started

/-- A live process that is between its claim and its release. -/
def Driver.drives (driver : Driver) : Bool := driver.alive && driver.stage = .driving

/-- The processes that were started in a home, and which of them each marker names. -/
structure Slot where
  holder : SlotMarker → Option Nat := fun _ => none
  drivers : List Driver := []

inductive SlotEvent where
  | spawn (command : DriverCommand)
  | advance (index : Nat)
  | die (index : Nat)
  deriving DecidableEq

namespace Slot

def enter (index : Nat) (stage : DriverStage) (slot : Slot) : Slot :=
  { slot with drivers := slot.drivers.modify index fun driver => { driver with stage } }

def kill (index : Nat) (slot : Slot) : Slot :=
  { slot with drivers := slot.drivers.modify index fun driver => { driver with alive := false } }

/-- `running_daemon_pid` of a marker: a holder that is probed, where the platform can. -/
def running (canSignal : Bool) (marker : SlotMarker) (slot : Slot) : Bool :=
  (slot.holder marker).any fun index =>
    !canSignal || slot.drivers[index]?.any Driver.alive

/-- `write_pid_file(path, exclusive=True)`, in one step. -/
def claim (canSignal : Bool) (index : Nat) (marker : SlotMarker) (slot : Slot) : Slot :=
  if slot.running canSignal marker then slot.enter index .refused
  else { slot with holder := Function.update slot.holder marker (some index) }.enter index .driving

/-- The marker of a command that ends is removed. -/
def release (index : Nat) (command : DriverCommand) (slot : Slot) : Slot :=
  match command.marker with
  | some marker =>
    { slot with holder := Function.update slot.holder marker none }.enter index .finished
  | none => slot.enter index .finished

/-- A look at a marker, before the claim. -/
def probe (canSignal : Bool) (index : Nat) (marker : SlotMarker) (next : DriverStage)
    (slot : Slot) : Slot :=
  if slot.running canSignal marker then slot.enter index .refused else slot.enter index next

/-- The next step of `cmd_run`, `cmd_rerun` or `cmd_watch`. -/
def advance (canSignal : Bool) (index : Nat) (driver : Driver) (slot : Slot) : Option Slot :=
  match driver.stage, driver.command.marker with
  | .started, none => some (slot.enter index .driving)
  | .started, some _ => some (slot.probe canSignal index .daemon .daemonProbed)
  | .daemonProbed, _ => some (slot.probe canSignal index .runner .slotFree)
  | .slotFree, some marker => some (slot.claim canSignal index marker)
  | .driving, _ => some (slot.release index driver.command)
  | _, _ => none

def step (canSignal : Bool) : SlotEvent → Slot → Option Slot
  | .spawn command, slot => some { slot with drivers := slot.drivers ++ [{ command }] }
  | .advance index, slot =>
      match slot.drivers[index]? with
      | some driver => if driver.alive then slot.advance canSignal index driver else none
      | none => none
  | .die index, slot => if index < slot.drivers.length then some (slot.kill index) else none

end Slot

end Orchestrator.ProcessControl

/-! ## One driver of a home

Two holders of one marker are told apart by its claim. The commands that claim different markers,
and the single pass that claims none, are told apart only by their looks at the markers, which come
earlier.
-/

namespace Orchestrator.ProcessControl

open Orchestrator.Foundation

namespace Slot

/-- A process is between its claim and its release. -/
def DrivesAt (slot : Slot) (index : Nat) (driver : Driver) : Prop :=
  slot.drivers[index]? = some driver ∧ driver.drives = true

/-- At most one process drives tasks. -/
def OneDriver (slot : Slot) : Prop :=
  ∀ first second driver other, slot.DrivesAt first driver → slot.DrivesAt second other →
    first = second

/-- The marker of a process that drives names it. -/
def Marked (slot : Slot) : Prop :=
  ∀ index driver marker, slot.DrivesAt index driver → driver.command.marker = some marker →
    slot.holder marker = some index

/-- The next step of a process lets it drive: its claim succeeds, or it claims nothing. -/
def begins (canSignal : Bool) (driver : Driver) (slot : Slot) : Bool :=
  match driver.stage, driver.command.marker with
  | .started, none => true
  | .slotFree, some marker => !slot.running canSignal marker
  | _, _ => false

variable {canSignal : Bool} {slot after : Slot} {index place : Nat} {driver other : Driver}
  {stage : DriverStage}

/-! ## Steps -/

theorem getElem?_enter (slot : Slot) (index place : Nat) (stage : DriverStage) :
    (slot.enter index stage).drivers[place]? =
      if index = place then slot.drivers[place]?.map fun driver => { driver with stage }
      else slot.drivers[place]? := by
  rw [enter, List.getElem?_modify]
  split
  · rfl
  · exact id_map _

/-- Who drives after a stage was entered is the process that entered it, or drove before. -/
theorem drivesAt_enter (here : slot.drivers[index]? = some driver)
    (drives : (slot.enter index stage).DrivesAt place other) :
    (place = index ∧ other = { driver with stage } ∧ stage = .driving ∧ driver.alive = true) ∨
      place ≠ index ∧ slot.DrivesAt place other := by
  obtain ⟨found, driving⟩ := drives
  rw [getElem?_enter] at found
  by_cases same : index = place
  · subst same
    rw [if_pos rfl, here] at found
    cases found
    rw [Driver.drives, Bool.and_eq_true, decide_eq_true_eq] at driving
    exact .inl ⟨rfl, rfl, driving.2, driving.1⟩
  · rw [if_neg same] at found
    exact .inr ⟨Ne.symm same, found, driving⟩

/-- Another process drives on when a stage is entered. -/
theorem DrivesAt.enter (drives : slot.DrivesAt place other) (apart : place ≠ index) :
    (slot.enter index stage).DrivesAt place other := by
  refine ⟨?_, drives.2⟩
  rw [getElem?_enter, if_neg (Ne.symm apart)]
  exact drives.1

theorem drivesAt_enter_self (here : slot.drivers[index]? = some driver)
    (alive : driver.alive = true) :
    (slot.enter index .driving).DrivesAt index { driver with stage := .driving } := by
  constructor
  · rw [getElem?_enter, if_pos rfl, here]
    rfl
  · rw [Driver.drives, alive]
    rfl

/-- Who drives after a death drove before. -/
theorem drivesAt_kill (drives : (slot.kill index).DrivesAt place other) :
    slot.DrivesAt place other := by
  obtain ⟨found, driving⟩ := drives
  rw [kill, List.getElem?_modify] at found
  obtain ⟨before, isBefore, same⟩ := Option.map_eq_some_iff.mp found
  split at same
  · subst same
    rw [Driver.drives, Bool.false_and] at driving
    cases driving
  · subst same
    exact ⟨isBefore, driving⟩

theorem drivesAt_spawn {command : DriverCommand}
    (drives : DrivesAt { slot with drivers := slot.drivers ++ [{ command }] } place other) :
    slot.DrivesAt place other := by
  obtain ⟨found, driving⟩ := drives
  rw [List.getElem?_append] at found
  split at found
  · exact ⟨found, driving⟩
  · obtain ⟨within, same⟩ := List.getElem?_eq_some_iff.mp found
    rw [List.getElem_singleton] at same
    subst same
    cases driving

/-- The holder of a marker that drives is seen by a look at the marker. -/
theorem Marked.running {marker : SlotMarker} (marked : slot.Marked)
    (drives : slot.DrivesAt index driver) (own : driver.command.marker = some marker) :
    slot.running canSignal marker = true := by
  have alive := drives.2
  rw [Driver.drives, Bool.and_eq_true] at alive
  rw [Slot.running, marked index driver marker drives own, Option.any_some, drives.1,
    Option.any_some, alive.1, Bool.or_true]

/-- A stage that lets nobody drive keeps the markers right. -/
theorem Marked.enter (marked : slot.Marked) (here : slot.drivers[index]? = some driver)
    (quiet : stage ≠ .driving) : (slot.enter index stage).Marked := by
  intro place other marker drives own
  rcases drivesAt_enter here drives with ⟨-, -, driving, -⟩ | ⟨-, before⟩
  · exact absurd driving quiet
  · exact marked place other marker before own

theorem Marked.claim {marker : SlotMarker} (marked : slot.Marked)
    (here : slot.drivers[index]? = some driver) (own : driver.command.marker = some marker) :
    (slot.claim canSignal index marker).Marked := by
  rw [Slot.claim]
  split
  · exact marked.enter here (nomatch ·)
  · next free =>
    intro place other named drives isNamed
    rcases drivesAt_enter here drives with ⟨rfl, rfl, -, -⟩ | ⟨-, before⟩
    · cases own.symm.trans isNamed
      exact Function.update_self _ _ _
    · have held : slot.DrivesAt place other := before
      have differ : named ≠ marker := by
        rintro rfl
        exact free (marked.running held isNamed)
      exact (Function.update_of_ne differ _ _).trans (marked place other named held isNamed)

theorem Marked.release (marked : slot.Marked) (drives : slot.DrivesAt index driver) :
    (slot.release index driver.command).Marked := by
  rw [Slot.release]
  split
  · next marker own =>
    intro place other named still isNamed
    rcases drivesAt_enter drives.1 still with ⟨-, -, driving, -⟩ | ⟨apart, before⟩
    · cases driving
    · have held : slot.DrivesAt place other := before
      have differ : named ≠ marker := by
        rintro rfl
        have isOther := marked place other named held isNamed
        rw [marked index driver named drives own] at isOther
        exact apart (Option.some_inj.mp isOther).symm
      exact (Function.update_of_ne differ _ _).trans (marked place other named held isNamed)
  · exact marked.enter drives.1 (nomatch ·)

theorem Marked.probe {marker : SlotMarker} (marked : slot.Marked)
    (here : slot.drivers[index]? = some driver) (quiet : stage ≠ .driving) :
    (slot.probe canSignal index marker stage).Marked := by
  rw [Slot.probe]
  split
  · exact marked.enter here (nomatch ·)
  · exact marked.enter here quiet

/-- What a process does next, where it is about to drive, is to drive. -/
theorem advance_of_begins (begun : slot.begins canSignal driver = true)
    (moved : slot.advance canSignal index driver = some after) :
    ∃ holder, after = ({ slot with holder } : Slot).enter index .driving := by
  obtain ⟨command, alive, stage⟩ := driver
  rw [begins] at begun
  dsimp only at begun
  split at begun
  · next isCommand =>
    rw [advance] at moved
    dsimp only at moved
    rw [isCommand] at moved
    cases moved
    exact ⟨slot.holder, rfl⟩
  · next marker isCommand =>
    rw [advance] at moved
    dsimp only at moved
    rw [isCommand] at moved
    cases moved
    have free : ¬ slot.running canSignal marker = true := by
      rw [Bool.not_eq_true]
      exact Bool.not_eq_true' _ |>.mp begun
    rw [Slot.claim, if_neg free]
    exact ⟨_, rfl⟩
  · cases begun

/-- A process that is about to drive does not drive yet, and finds its marker free. -/
theorem not_drives_of_begins (begun : slot.begins canSignal driver = true) :
    driver.drives = false := by
  rw [Driver.drives, Bool.and_eq_false_iff, decide_eq_false_iff_not]
  refine .inr fun driving => ?_
  rw [begins, driving] at begun
  cases begun

theorem free_of_begins {marker : SlotMarker} (begun : slot.begins canSignal driver = true)
    (own : driver.command.marker = some marker) : slot.running canSignal marker = false := by
  rw [begins, own] at begun
  split at begun
  · next isNone => cases isNone
  · next isMarker =>
    cases isMarker
    exact Bool.not_eq_true' _ |>.mp begun
  · cases begun

/-- Who drives after a step that lets nobody begin drove before. -/
theorem drivesAt_advance_of_not_begins (here : slot.drivers[index]? = some driver)
    (waits : slot.begins canSignal driver = false)
    (moved : slot.advance canSignal index driver = some after)
    (drives : after.DrivesAt place other) :
    slot.DrivesAt place other := by
  have quiet : ∀ stage holder,
    (({ slot with holder } : Slot).enter index stage).DrivesAt place other →
      stage ≠ .driving → slot.DrivesAt place other := by
    intro stage holder drives quiet
    rcases drivesAt_enter here drives with ⟨-, -, driving, -⟩ | ⟨-, before⟩
    · exact absurd driving quiet
    · exact before
  rw [begins] at waits
  rw [advance] at moved
  split at moved
  · next isStage isMarker =>
    rw [isStage, isMarker] at waits
    cases waits
  · cases moved
    rw [probe] at drives
    split at drives
    · exact quiet _ slot.holder drives (nomatch ·)
    · exact quiet _ slot.holder drives (nomatch ·)
  · cases moved
    rw [probe] at drives
    split at drives
    · exact quiet _ slot.holder drives (nomatch ·)
    · exact quiet _ slot.holder drives (nomatch ·)
  · next marker isStage isMarker =>
    rw [isStage, isMarker] at waits
    dsimp only at waits
    have held : slot.running canSignal marker = true := Bool.not_eq_false' .. |>.mp waits
    cases moved
    rw [Slot.claim, if_pos held] at drives
    exact quiet _ slot.holder drives (nomatch ·)
  · cases moved
    rw [Slot.release] at drives
    split at drives
    · exact quiet _ _ drives (nomatch ·)
    · exact quiet _ slot.holder drives (nomatch ·)
  · cases moved

theorem Marked.step {event : SlotEvent} (marked : slot.Marked)
    (moved : Slot.step canSignal event slot = some after) : after.Marked := by
  cases event with
  | spawn command =>
      cases moved
      exact fun place other marker drives own =>
        marked place other marker (drivesAt_spawn drives) own
  | die index =>
      rw [Slot.step] at moved
      split at moved <;> cases moved
      exact fun place other marker drives own =>
        marked place other marker (drivesAt_kill drives) own
  | advance index =>
      rw [Slot.step] at moved
      split at moved
      · next driver here =>
        split at moved
        · next alive =>
          rw [advance] at moved
          split at moved
          · next isStage isMarker =>
            cases moved
            intro place other marker drives own
            rcases drivesAt_enter here drives with ⟨rfl, rfl, -, -⟩ | ⟨-, before⟩
            · cases isMarker.symm.trans own
            · exact marked place other marker before own
          · cases moved
            exact marked.probe here (nomatch ·)
          · cases moved
            exact marked.probe here (nomatch ·)
          · next marker isStage isMarker =>
            cases moved
            exact marked.claim here isMarker
          · next isStage =>
            cases moved
            refine marked.release ⟨here, ?_⟩
            rw [Driver.drives, alive, isStage]
            rfl
          · cases moved
        · cases moved
      · cases moved

end Slot

/-- A process that begins to drive does so while no process drives that holds another marker than
the one it claims, or none. -/
def Unraced (canSignal : Bool) (transition : Transition Slot SlotEvent) : Prop :=
  ∀ index driver, transition.event = .advance index →
    transition.before.drivers[index]? = some driver →
      transition.before.begins canSignal driver = true →
        ∀ place other, transition.before.DrivesAt place other →
          ∃ marker, driver.command.marker = some marker ∧ other.command.marker = some marker

namespace Slot

variable {canSignal : Bool} {transition : Transition Slot SlotEvent}

/-- With its marker free, a process begins alone exactly when nobody drives. -/
theorem oneDriver_step (marked : transition.before.Marked) (one : transition.before.OneDriver)
    (moved : step canSignal transition.event transition.before = some transition.after) :
    transition.after.OneDriver ↔ Unraced canSignal transition := by
  obtain ⟨slot, event, after⟩ := transition
  dsimp only at marked one moved
  cases event with
  | spawn command =>
      cases moved
      refine ⟨fun _ _ _ isAdvance => (nomatch isAdvance), fun _ => ?_⟩
      exact fun first second driver other drives also =>
        one first second driver other (drivesAt_spawn drives) (drivesAt_spawn also)
  | die index =>
      rw [step] at moved
      split at moved <;> cases moved
      refine ⟨fun _ _ _ isAdvance => (nomatch isAdvance), fun _ => ?_⟩
      exact fun first second driver other drives also =>
        one first second driver other (drivesAt_kill drives) (drivesAt_kill also)
  | advance index =>
      rw [step] at moved
      split at moved
      · next driver here =>
        split at moved
        · next alive =>
          cases begun : slot.begins canSignal driver with
          | false =>
              have before : ∀ place other, after.DrivesAt place other → slot.DrivesAt place other :=
                fun place other drives => drivesAt_advance_of_not_begins here begun moved drives
              refine ⟨fun _ at_ same isAdvance isHere begins => ?_, fun _ => ?_⟩
              · cases isAdvance
                cases here.symm.trans isHere
                rw [begun] at begins
                cases begins
              · exact fun first second driver other drives also =>
                  one first second driver other (before _ _ drives) (before _ _ also)
          | true =>
              obtain ⟨holder, rfl⟩ := advance_of_begins begun moved
              refine ⟨fun single _ _ isAdvance isHere _ place other drives => ?_, fun unraced => ?_⟩
              · cases isAdvance
                cases here.symm.trans isHere
                have apart : place ≠ index := by
                  rintro rfl
                  cases here.symm.trans drives.1
                  exact absurd drives.2 (Bool.eq_false_iff.mp (not_drives_of_begins begun))
                have still : DrivesAt { slot with holder } place other := drives
                have itself : DrivesAt _ index { driver with stage := .driving } :=
                  @drivesAt_enter_self { slot with holder } index driver here alive
                exact absurd (single _ _ _ _ (still.enter apart) itself) apart
              · have alone : ∀ place other, ¬ slot.DrivesAt place other := by
                  intro place other drives
                  obtain ⟨marker, own, isOther⟩ :=
                    unraced index driver rfl here begun place other drives
                  have held : slot.running canSignal marker = true := marked.running drives isOther
                  rw [free_of_begins begun own] at held
                  cases held
                have sole : ∀ place other,
                    (({ slot with holder } : Slot).enter index .driving).DrivesAt place other →
                      place = index := by
                  intro place other drives
                  rcases drivesAt_enter here drives with ⟨same, -⟩ | ⟨-, before⟩
                  · exact same
                  · exact absurd before (alone place other)
                exact fun first second driver other drives also =>
                  (sole first driver drives).trans (sole second other also).symm
        · cases moved
      · cases moved

end Slot

theorem unraced_of_idle {canSignal : Bool} {transition : Transition Slot SlotEvent}
    (idle : ∀ other ∈ transition.before.drivers, other.drives = false) :
    Unraced canSignal transition := by
  intro index driver _ _ _ place other drives
  have still := idle other (List.mem_of_getElem? drives.1)
  rw [drives.2] at still
  cases still

end Orchestrator.ProcessControl
