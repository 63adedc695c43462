import Orchestrator.Foundation.Transitions
import Orchestrator.ProcessControl.PidFile

/-! # Claims on the executor marker

Processes claim one marker in any interleaving of their file operations. Only the exclusive
create is atomic: a claim that finds the marker taken probes what it read and replaces the
marker later, when another process may hold it.
-/

namespace Orchestrator.ProcessControl

open Orchestrator.Foundation PyText

/-- What the system says of a process: its pid, its start token and whether it can be signalled. -/
structure Credentials where
  pid : Nat
  positive : 0 < pid
  bounded : pid < pidLimit
  startTime : Option PyText
  encodable : ∀ token ∈ startTime, PyText.encodable token = true
  signalable : Bool

namespace Credentials

def identity (credentials : Credentials) : ProcessIdentity :=
  ⟨credentials.pid, credentials.startTime⟩

def payload (credentials : Credentials) : PyText := markerPayload credentials.identity

/-- What a process writes about itself is read back. -/
@[simp] theorem readPidRecord_payload (credentials : Credentials) :
    readPidRecord credentials.payload = some credentials.identity :=
  readPidRecord_markerPayload credentials.positive credentials.bounded credentials.encodable

end Credentials

/-- Where a process is within `write_pid_file`, with the file it has put at the path. -/
inductive Phase where
  | idle
  | writing (inode written : Nat)
  | collided
  | probing (record : ProcessIdentity)
  | reclaiming
  | staged
  | holding (inode : Nat)
  | busy
  | failed
  | released
  deriving DecidableEq

namespace Phase

/-- Whether a claim may begin. -/
def atRest : Phase → Bool
  | idle | busy | failed | released => true
  | _ => false

/-- Whether a file operation of the claim is still to come. -/
def underWay : Phase → Bool
  | writing _ _ | collided | probing _ | reclaiming | staged => true
  | _ => false

/-- The file that a process has put at the path. -/
def ownFile : Phase → Option Nat
  | writing inode _ | holding inode => some inode
  | _ => none

end Phase

structure Process where
  credentials : Credentials
  alive : Bool
  phase : Phase

/-- A file: its inode, and its text where the bytes are UTF-8. -/
structure File where
  inode : Nat
  text : Option PyText

/-- The file at the marker's path, and the processes that ever ran. -/
structure State where
  marker : Option File
  nextInode : Nat
  processes : List Process

/-- One operation of a process. -/
inductive Operation where
  | createExclusively
  | write (count : Nat)
  | readRecord
  | probe
  | writeTemporary
  | replace
  | raise
  | unlink
  | die

inductive Event where
  | spawn (credentials : Credentials)
  | act (index : Nat) (operation : Operation)

namespace State

def enter (state : State) (index : Nat) (phase : Phase) : State :=
  { state with processes := state.processes.modify index fun process =>
      { process with phase := phase } }

def kill (state : State) (index : Nat) : State :=
  { state with processes := state.processes.modify index fun process =>
      { process with alive := false } }

/-- The live process of a pid. -/
def running (state : State) (pid : Nat) : Option Process :=
  state.processes.find? fun process => process.alive && process.credentials.pid = pid

/-- `os.kill(pid, 0)`. -/
def signal (state : State) (pid : Nat) : Signalled :=
  if pidLimit ≤ pid then .overflow
  else
    match state.running pid with
    | none => .noSuchProcess
    | some process => if process.credentials.signalable then .sent else .notPermitted

def startTime (state : State) (pid : Nat) : Option PyText :=
  (state.running pid).bind fun process => process.credentials.startTime

def isRunning (state : State) (record : ProcessIdentity) : Option Bool :=
  ProcessControl.isRunning state.signal state.startTime record

/-- A text at the path, for the process that writes the file. -/
def writeFile (state : State) (inode : Nat) (text : PyText) : State :=
  { state with marker := state.marker.map fun file =>
      if file.inode = inode then { file with text := some text } else file }

/-- A new file at the path, in place of the one that is there. -/
def putFile (state : State) (text : PyText) : State :=
  { state with marker := some ⟨state.nextInode, some text⟩, nextInode := state.nextInode + 1 }

end State

/-- What `read_pid_record` finds: nothing, a record, or bytes that do not decode. -/
def readMarker : Option File → Option (Option ProcessIdentity)
  | none => some none
  | some file => file.text.map readPidRecord

/-- The pid of the live process that the marker records, where nothing else steps in between. -/
def runningDaemonPid (canSignal : Bool) (state : State) : Option (Option Nat) :=
  match readMarker state.marker with
  | none => none
  | some none => some none
  | some (some record) =>
      if canSignal then
        (state.isRunning record).map fun alive => if alive then some record.pid else none
      else some (some record.pid)

/-- The claim after the marker has been read. -/
def afterRead (canSignal : Bool) (marker : Option File) : Phase :=
  match readMarker marker with
  | none => .failed
  | some none => .reclaiming
  | some (some record) => if canSignal then .probing record else .busy

/-- The claim after the recorded process has been probed. -/
def afterProbe (state : State) (record : ProcessIdentity) : Phase :=
  match state.isRunning record with
  | none => .failed
  | some true => .busy
  | some false => .reclaiming

/-- One operation of `write_pid_file(path, exclusive=True)`, of the exit, or of the system. -/
def act (canSignal : Bool) (index : Nat) (process : Process) (state : State) :
    Operation → Option State
  | .createExclusively =>
      if process.phase.atRest then
        match state.marker with
        | some _ => some (state.enter index .collided)
        | none => some ((state.putFile []).enter index (.writing state.nextInode 0))
      else none
  | .write count =>
      match process.phase with
      | .writing inode written =>
          let payload := process.credentials.payload
          let state := state.writeFile inode (payload.take (written + count))
          if payload.length ≤ written + count then some (state.enter index (.holding inode))
          else some (state.enter index (.writing inode (written + count)))
      | _ => none
  | .readRecord =>
      if process.phase = .collided then some (state.enter index (afterRead canSignal state.marker))
      else none
  | .probe =>
      match process.phase with
      | .probing record => some (state.enter index (afterProbe state record))
      | _ => none
  | .writeTemporary =>
      if process.phase = .reclaiming then some (state.enter index .staged) else none
  | .replace =>
      if process.phase = .staged then
        some ((state.putFile process.credentials.payload).enter index (.holding state.nextInode))
      else none
  | .raise => if process.phase.underWay then some (state.enter index .failed) else none
  | .unlink =>
      match process.phase with
      | .holding _ => some ({ state with marker := none }.enter index .released)
      | _ => none
  | .die => some (state.kill index)

/-- A live process acts, or a process starts with a pid that no live one has. -/
def step (canSignal : Bool) : Event → State → Option State
  | .spawn credentials, state =>
      if state.running credentials.pid = none then
        some { state with processes := state.processes ++ [⟨credentials, true, .idle⟩] }
      else none
  | .act index operation, state =>
      match state.processes[index]? with
      | some process =>
          if process.alive then act canSignal index process state operation else none
      | none => none

end Orchestrator.ProcessControl
