import Orchestrator.Foundation.Digraph

/-! # Process tables and their containment

The processes of a host fork, exit and leave their group; the children of one that exits become
those of init. Beside them runs the containment of a launched child: its tracker collects the
descendants that it sees, and a proof probes those and the group. Init itself is not listed.
-/

namespace Orchestrator.ProcessControl

open Orchestrator.Foundation

/-- A process. Kept beside are whether it comes from the launched child, whether it was in the
group, or not yet forked, at the last snapshot attempt, and whether a chain of parents led from the
child to it at some time since. -/
structure ProcessRow where
  pid : Nat
  ppid : Nat
  pgid : Nat
  descends : Bool
  attached : Bool
  wasLinked : Bool
  deriving DecidableEq

abbrev ProcessTable := List ProcessRow

/-- The parent of those whose parent exited. -/
def initPid : Nat := 1

namespace ProcessTable

variable (table : ProcessTable) (root : Nat)

def pids : List Nat := table.map ProcessRow.pid

def childrenOf (pid : Nat) : List Nat :=
  (table.filter fun row => row.ppid = pid).map ProcessRow.pid

/-- The `children` of the listing. -/
def childGraph : SuccessorGraph Nat where
  next := table.childrenOf
  sources := table.map ProcessRow.ppid
  next_eq_nil := by
    intro pid unlisted
    rw [childrenOf, List.map_eq_nil_iff, List.filter_eq_nil_iff]
    intro row among isParent
    exact unlisted (List.mem_map.mpr ⟨row, among, of_decide_eq_true isParent⟩)

/-- `_posix_descendants`, of one listing. -/
def posixDescendants : List Nat :=
  (table.childGraph.reachableFrom (table.childrenOf root).reverse).filter (· ≠ root)

/-- A chain of parents leads from the root to a process. -/
def isLinked (pid : Nat) : Bool := pid = root || pid ∈ table.posixDescendants root

/-- A process that left the group and that no chain of parents leads to. -/
def Escaped (row : ProcessRow) : Prop := row.pgid ≠ root ∧ table.isLinked root row.pid = false

instance (row : ProcessRow) : Decidable (table.Escaped root row) :=
  inferInstanceAs (Decidable (_ ∧ _))

/-- A child of a process, which is in its group. -/
def forkedBy (parent : ProcessRow) (child : Nat) : ProcessRow where
  pid := child
  ppid := parent.pid
  pgid := parent.pgid
  descends := parent.descends
  attached := true
  wasLinked := table.isLinked root parent.pid

/-- The table without a process, whose children are those of init. -/
def exit (pid : Nat) : ProcessTable :=
  (table.filter fun row => row.pid ≠ pid).map fun row =>
    if row.ppid = pid then { row with ppid := initPid } else row

/-- `setsid`, or another way into a group of its own. -/
def setsid (pid : Nat) : ProcessTable :=
  table.map fun row => if row.pid = pid then { row with pgid := pid } else row

/-- A snapshot attempt begins a new gap for every process that has not escaped. -/
def attempted : ProcessTable :=
  table.map fun row =>
    if table.Escaped root row then row
    else { row with attached := row.pgid = root, wasLinked := table.isLinked root row.pid }

end ProcessTable

/-! ## The containment -/

/-- Where the containment stands: it tracks, proves, probes its candidates, has the survivors and is
to probe the group, or has returned. -/
inductive ContainmentStage where
  | tracking
  | proving
  | probing (left alive : List Nat)
  | checked (survivors : List Nat)
  | proven
  | unproven (survivors : List Nat)

/-- The processes, the next number to give, the numbers tracked and the stage. -/
structure Containment where
  table : ProcessTable
  nextPid : Nat
  tracked : List Nat := []
  stage : ContainmentStage := .tracking

/-- What happens: a process forks, exits or leaves its group; a snapshot is attempted; some of what
is killed dies; the proof begins, collects its candidates, probes one and probes the group. -/
inductive ContainmentEvent where
  | fork (parent child : Nat)
  | exit (pid : Nat)
  | setsid (pid : Nat)
  | attempt (listed : Bool)
  | killAll (dying : List Nat)
  | prove
  | candidates (listed : Bool)
  | probe
  | probeGroup (late : Bool)

namespace Containment

variable (root : Nat)

/-- What a snapshot gives: nothing when the listing fails. -/
def snapshot (listed : Bool) (state : Containment) : List Nat :=
  if listed then state.table.posixDescendants root else []

/-- What `_kill_all` signals. -/
def isTarget (state : Containment) (pid : Nat) : Bool :=
  pid ∈ state.tracked || state.table.any fun row => row.pid = pid && row.pgid = root

/-- One step of a process or of the containment of a child whose pid is the root's. -/
def step (event : ContainmentEvent) (state : Containment) : Option Containment :=
  match event, state.stage with
  | .fork parent child, _ =>
      if child < state.nextPid then none
      else
        (state.table.find? fun row => row.pid = parent).map fun row =>
          { state with
            table := state.table ++ [state.table.forkedBy root row child]
            nextPid := child + 1 }
  | .exit pid, _ => some { state with table := state.table.exit pid }
  | .setsid pid, _ =>
      if state.table.all (fun row => row.pid ≠ pid || row.pgid ≠ pid) then
        some { state with table := state.table.setsid pid }
      else none
  | .attempt listed, .tracking =>
      some { state with
        table := state.table.attempted root
        tracked := state.tracked ∪ state.snapshot root listed }
  | .killAll dying, .tracking | .killAll dying, .proving =>
      if dying.all (state.isTarget root) then
        some { state with table := dying.foldl ProcessTable.exit state.table }
      else none
  | .prove, .tracking => some { state with stage := .proving }
  | .candidates listed, .proving =>
      some { state with stage := .probing (state.tracked ∪ state.snapshot root listed) [] }
  | .probe, .probing (pid :: left) alive =>
      let alive := if pid ∈ state.table.pids then alive ++ [pid] else alive
      some { state with stage := .probing left alive }
  | .probe, .probing [] alive => some { state with stage := .checked alive }
  | .probeGroup late, .checked survivors =>
      if survivors = [] ∧ ¬ state.table.any (fun row => row.pgid = root) then
        some { state with stage := .proven }
      else if late then some { state with stage := .unproven survivors }
      else some { state with stage := .proving }
  | _, _ => none

/-- The child has just been launched: it leads its group, has no children yet, and no other process
comes from it. -/
structure Launched (state : Containment) : Prop where
  leads : ∃ row ∈ state.table, row.pid = root ∧ row.pgid = root
  alone : ∀ row ∈ state.table, row.ppid ≠ root ∧ (row.pid ≠ root → row.descends = false)
  group : ∀ row ∈ state.table, row.pid = root → row.pgid = root ∧ row.wasLinked = true
  attached : ∀ row ∈ state.table, row.pgid = root → row.attached = true
  below : ∀ row ∈ state.table, row.pid < state.nextPid ∧ row.ppid < state.nextPid
  init : root ≠ initPid ∧ initPid < state.nextPid ∧ ∀ row ∈ state.table, row.pid ≠ initPid
  tracking : state.tracked = [] ∧ state.stage = .tracking

/-- Everything alive that comes from the child detached and lost its parent link between two
snapshot attempts. -/
def Quiet (state : Containment) : Prop :=
  ∀ row ∈ state.table, row.descends = true →
    state.table.Escaped root row ∧ row.attached = true ∧ row.wasLinked = true

/-- What is asked of a step. A process that escaped forks no more, a process leaves the group only
in a gap in which a chain of parents led to it, and a listing that fails misses no process that left
the group: unless the process is tracked. -/
def Fits (state : Containment) : ContainmentEvent → Prop
  | .fork parent _ => ∀ row ∈ state.table, row.pid = parent → row.descends = true →
      ¬ state.table.Escaped root row
  | .setsid pid => ∀ row ∈ state.table, row.pid = pid → row.descends = true →
      row.wasLinked = true ∨ row.pid ∈ state.tracked
  | .attempt false => ∀ row ∈ state.table, row.descends = true → row.pgid ≠ root →
      state.table.isLinked root row.pid = true → row.pid ∈ state.tracked
  | _ => True

instance (state : Containment) (event : ContainmentEvent) : Decidable (state.Fits root event) :=
  match event with
  | .fork .. | .setsid _ | .attempt false => inferInstanceAs (Decidable (∀ row ∈ state.table, _))
  | .exit _ | .attempt true | .killAll _ | .prove | .candidates _ | .probe | .probeGroup _ =>
      inferInstanceAs (Decidable True)

end Containment

end Orchestrator.ProcessControl
