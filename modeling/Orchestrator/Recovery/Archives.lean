import Orchestrator.Foundation.FileNodes
import Orchestrator.Recovery.Terminals

/-! # The archives of a task's attempts

The directory of one task id under `logs`. Its attempts write files there, and a rerun moves the
entries of the attempt before it into an archive, whose number is the count of ledger records. What
each attempt wrote is kept beside, and which attempts reached a terminal.
-/

namespace Orchestrator.Recovery

open Orchestrator.Foundation
open Orchestrator.Store (Ledger LedgerRecord)

/-- A file of a task: the attempt that wrote it and its text. -/
structure Artifact where
  attempt : Nat
  text : String

/-- The directory of a task. -/
abbrev TaskDir := FileTree String Artifact

/-- An entry that a rerun leaves in its place. -/
def isArchive (name : String) : Bool := Text.startsWith name "attempt-"

/-- The archive of a number. -/
def archiveName (attempt : Nat) : String := "attempt-" ++ toString attempt

/-- A path of what an attempt sees. -/
def isLive : List String → Bool
  | [] => false
  | first :: _ => !isArchive first

/-- The entries that a rerun moves. -/
def liveNames (dir : TaskDir) : List String := dir.names.filter fun name => !isArchive name

/-- The entries of an archive. -/
def heldNames (dest : String) (dir : TaskDir) : List String :=
  match dir.find? dest with
  | some (.dir held) => held.names
  | _ => []

/-- One entry moved into an archive, unless the archive has an entry of its name. -/
def archiveEntry (dest : String) (dir : TaskDir) (name : String) : TaskDir :=
  match dir.find? dest, dir.find? name with
  | some (.dir held), some node =>
      if name ∈ held.names then dir else (dir.erase name).set dest (.dir (held.set name node))
  | _, _ => dir

/-- `archive_task_artifacts`, which lists the entries in some order and stops after a number of
them; none when the archive cannot be made. -/
def archiveTaskArtifacts (listing : List String) (stop attempt : Nat) (dir : TaskDir) :
    Option TaskDir :=
  if listing = [] then some dir
  else
    (dir.makeDirs [archiveName attempt]).map
      ((listing.take stop).foldl (archiveEntry (archiveName attempt)))

/-- `RERUN_ELIGIBLE_STATUSES`. -/
def rerunEligible : List Flow.Status := [.failed, .manualActionRequired, .running]

/-- The directory of a task, the ledger, the status of the task and its attempt. Kept beside are
what each attempt wrote, the attempts that reached a terminal, and whether a rerun was killed. -/
structure TaskLogs where
  dir : TaskDir := .empty
  ledger : Ledger := []
  status : Flow.Status := .new
  attempt : Nat := 1
  written : Nat → List String → Option String := fun _ _ => none
  terminals : List Nat := []
  killed : Bool := false

/-- What happens to a task: its attempt writes and removes files, changes its status and reaches a
terminal, a record is appended, and a rerun, fresh or in place, archives all or is killed. -/
inductive LogEvent where
  | enter (status : Flow.Status)
  | write (parent : List String) (last text : String)
  | remove (parent : List String) (last : String)
  | conclude (status : Flow.Status)
  | append (record : LedgerRecord)
  | rerun (listing : List String)
  | killedRerun (listing : List String) (stop : Nat)

/-- What an attempt wrote, with a path of it changed. -/
def rewrite (attempt : Nat) (path : List String) (text : Option String)
    (written : Nat → List String → Option String) : Nat → List String → Option String :=
  fun other place => if other = attempt ∧ place = path then text else written other place

namespace TaskLogs

variable (taskId : String) (logs : TaskLogs)

/-- The number of the archive. -/
def prior : Nat := ledgerAttemptCount logs.ledger taskId

/-- The archive of a rerun. -/
def destination : String := archiveName (logs.prior taskId)

/-- A rerun is admitted, and lists the entries in some order. -/
def MayRerun (listing : List String) : Prop :=
  logs.status ∈ rerunEligible ∧ listing.Perm (liveNames logs.dir)

instance (listing : List String) : Decidable (logs.MayRerun listing) :=
  inferInstanceAs (Decidable (_ ∧ _))

/-- What a rerun is to leave: nothing but archives, every file of an earlier attempt unchanged in
exactly one of them, and no archive with files of two attempts that reached a terminal. -/
structure Isolated : Prop where
  clean : ∀ name ∈ logs.dir.names, isArchive name = true
  kept : ∀ attempt < logs.attempt, ∀ path text, logs.written attempt path = some text →
    ∃! archive, isArchive archive = true ∧ logs.dir.read (archive :: path) = some ⟨attempt, text⟩
  apart : ∀ archive path other, ∀ first ∈ logs.dir.read (archive :: path),
    ∀ second ∈ logs.dir.read (archive :: other), isArchive archive = true →
      first.attempt ∈ logs.terminals → second.attempt ∈ logs.terminals →
        first.attempt = second.attempt

/-- No entry has a name in the archive that it is to go to. -/
def Vacant : Prop :=
  ∀ name ∈ liveNames logs.dir, name ∉ heldNames (logs.destination taskId) logs.dir

/-- An attempt that reached a terminal goes to an archive without files of another that did. -/
def Unshared : Prop :=
  logs.attempt ∈ logs.terminals → ∀ path,
    ∀ artifact ∈ logs.dir.read (logs.destination taskId :: path),
    artifact.attempt ∈ logs.terminals → artifact.attempt = logs.attempt

/-- What is asked of a step: that an archive keeps attempts apart, and of a rerun that is not
killed, that no name is taken. -/
def Fits : LogEvent → Prop
  | .rerun _ => logs.Vacant taskId ∧ logs.Unshared taskId
  | .killedRerun .. => logs.Unshared taskId
  | _ => True

end TaskLogs

/-- One step. A killed rerun is invoked again before the attempt does anything else, and no writer
uses the name of an archive. -/
def TaskLogs.step (taskId : String) (event : LogEvent) (logs : TaskLogs) : Option TaskLogs :=
  match event with
  | .enter status =>
      if logs.killed ∨ status.isTerminal then none else some { logs with status }
  | .write parent last text =>
      if logs.killed ∨ isLive (parent ++ [last]) = false then none
      else
        (logs.dir.makeDirs parent).bind fun made =>
          if made.isDir (parent ++ [last]) then none
          else some { logs with
            dir := made.place ⟨logs.attempt, text⟩ last parent
            written := rewrite logs.attempt (parent ++ [last]) (some text) logs.written }
  | .remove parent last =>
      if logs.killed ∨ isLive (parent ++ [last]) = false ∨ logs.dir.isDir parent = false ∨
          logs.dir.isDir (parent ++ [last]) = true then none
      else some { logs with
        dir := logs.dir.remove last parent
        written := rewrite logs.attempt (parent ++ [last]) none logs.written }
  | .conclude status =>
      if logs.killed ∨ status.isTerminal = false then none
      else some { logs with status, terminals := logs.attempt :: logs.terminals }
  | .append record => some { logs with ledger := logs.ledger ++ [record] }
  | .rerun listing =>
      if logs.MayRerun listing then
        (archiveTaskArtifacts listing listing.length (logs.prior taskId) logs.dir).map fun dir =>
          { logs with dir, attempt := logs.attempt + 1, killed := false }
      else none
  | .killedRerun listing stop =>
      if logs.MayRerun listing then
        (archiveTaskArtifacts listing stop (logs.prior taskId) logs.dir).map fun dir =>
          { logs with dir, killed := true }
      else none

end Orchestrator.Recovery
