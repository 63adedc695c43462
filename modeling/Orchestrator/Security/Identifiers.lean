import Mathlib.Tactic.Common
import Orchestrator.Foundation.Text

/-! # Portable identifiers and path segments

A node id is one lowercase segment that is writable on every host and usable as
a prompt token. Names are rejected, never rewritten.
-/

namespace Orchestrator.Security

open Orchestrator.Foundation

/-- The device names Windows reserves, with or without an extension. -/
def windowsReservedStems : List String :=
  ["CON", "PRN", "AUX", "NUL", "COM1", "COM2", "COM3", "COM4", "COM5", "COM6", "COM7", "COM8",
    "COM9", "LPT1", "LPT2", "LPT3", "LPT4", "LPT5", "LPT6", "LPT7", "LPT8", "LPT9"]

/-- The stem before the first dot is a reserved device name, in any case. -/
def isWindowsReservedName (name : String) : Bool :=
  decide (Text.upper (Text.partition name '.').1 ∈ windowsReservedStems)

/-- A lowercase letter or a digit. -/
def isIdHead (letter : Char) : Bool :=
  ('a' ≤ letter && letter ≤ 'z') || ('0' ≤ letter && letter ≤ '9')

/-- A character of a node id after the first. -/
def isIdTail (letter : Char) : Bool := isIdHead letter || letter = '_' || letter = '-'

/-- `NODE_ID_PATTERN.fullmatch`: `^[a-z0-9][a-z0-9_-]{0,63}$`. -/
def matchesNodeIdPattern (nodeId : String) : Bool :=
  match nodeId.toList with
  | [] => false
  | head :: tail => isIdHead head && tail.all isIdTail && tail.length ≤ 63

/-- A portable one-segment lowercase token that is not a device name. -/
def isValidNodeId (nodeId : String) : Bool :=
  matchesNodeIdPattern nodeId && !isWindowsReservedName nodeId

/-- The separators, the drive colon and the characters Windows forbids in a filename. -/
def forbiddenSegmentChars : List Char := ['/', '\\', ':', '<', '>', '"', '|', '?', '*']

/-- Safe as one component of a path on every host. -/
def isPortablePathSegment (segment : String) : Bool :=
  !(segment = "" || segment = "." || segment = "..") &&
    !(Text.endsWith segment "." || Text.endsWith segment " ") &&
    !(segment.toList.any fun letter =>
      decide (letter ∈ forbiddenSegmentChars) || letter.toNat < 32 || letter.toNat = 127) &&
    !isWindowsReservedName segment

/-- Node ids are made of pattern characters only. -/
theorem isIdTail_of_mem {nodeId : String} (valid : isValidNodeId nodeId = true) {letter : Char}
    (member : letter ∈ nodeId.toList) : isIdTail letter = true := by
  unfold isValidNodeId matchesNodeIdPattern at valid
  cases shape : nodeId.toList with
  | nil => rw [shape] at member; cases member
  | cons head tail =>
      simp only [shape, Bool.and_eq_true, List.all_eq_true] at valid
      obtain ⟨⟨⟨first, rest⟩, _⟩, _⟩ := valid
      rw [shape] at member
      rcases List.mem_cons.mp member with rfl | later
      · simp only [isIdTail, first, Bool.true_or]
      · exact rest letter later

/-- A character outside the pattern does not occur in a node id. -/
theorem not_mem_of_isIdTail_eq_false {nodeId : String} (valid : isValidNodeId nodeId = true)
    {letter : Char} (outside : isIdTail letter = false) : letter ∉ nodeId.toList := by
  intro member
  rw [isIdTail_of_mem valid member] at outside
  cases outside

/-! ## Arguments that bypass the sandbox or the approvals -/

open Orchestrator.Foundation

/-- The sandbox value that must never be selected. -/
def forbiddenSandboxValue : String := "danger-full-access"

/-- Standalone flags that disable the sandbox or the approvals. -/
def forbiddenFlags : List String :=
  ["--yolo", "--ignore-rules", "--allow-dangerously-skip-permissions"]

/-- Flags that select the sandbox mode, in long and short form. -/
def sandboxFlags : List String := ["--sandbox", "-s"]

def permissionModeFlag : String := "--permission-mode"

def bypassPermissionMode : String := "bypassPermissions"

def bypassReason : String := "may not disable the sandbox/approvals"

/-- The token at a position, or the empty string past the end. -/
def peek (args : List String) (index : Nat) : String := args.getD index ""

/-- The reason one token is refused, if it is. -/
def forbiddenReason (args : List String) (index : Nat) (token : String) : Option String :=
  let (flag, separator, inline) := Text.partition token '='
  let value := if separator then inline else peek args (index + 1)
  if Text.startsWith flag "--dangerously" || decide (flag ∈ forbiddenFlags) then
    some s!"flag {Text.repr token} {bypassReason}"
  else if flag ∈ sandboxFlags then
    if value = forbiddenSandboxValue then
      some s!"--sandbox {Text.repr forbiddenSandboxValue} grants full access (no isolation)"
    else if value = "" then
      some s!"{flag} requires a sandbox value (none given)"
    else none
  else if flag = permissionModeFlag && value = bypassPermissionMode then
    some (s!"--permission-mode {Text.repr bypassPermissionMode} disables permission prompts " ++
      "(no isolation)")
  else none

/-- A reason per offending token; an empty list means the arguments are safe. -/
def findForbiddenArgs (args : List String) : List String :=
  args.zipIdx.filterMap fun (token, index) => forbiddenReason args index token

/-! ## Strictness of permission profiles -/

/-- A lower rank is stricter; an unknown profile has no rank. -/
def profileStrictness (profile : String) : Option Nat :=
  if profile = "read-only" then some 0
  else if profile = "workspace-write" then some 1
  else none

/-- The candidate is at least as strict as the reference. An unknown profile on either side fails
closed. -/
def isSameOrStricter (candidate reference : String) : Bool :=
  match profileStrictness candidate, profileStrictness reference with
  | some candidateRank, some referenceRank => candidateRank ≤ referenceRank
  | _, _ => false

end Orchestrator.Security
