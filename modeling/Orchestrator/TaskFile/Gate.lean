import Orchestrator.TaskFile.Parser

/-! # The validation gate

A task file is rejected for the first reason that is found, or gives a normalized task.
-/

namespace Orchestrator.TaskFile

open Orchestrator.Foundation
open Orchestrator.Foundation.PyText (ofString strip)

/-- `ValidationReason`, those of the gate. -/
inductive ValidationReason where
  | fileTooLarge
  | notUtf8
  | binaryOrControlChars
  | tooLong
  | frontmatterMissing
  | frontmatterMalformed
  | unknownTopLevelField
  | missingRequiredField
  | invalidFieldType
  | invalidTaskId
  | invalidBranchName
  | invalidBranchMode
  | duplicateTaskId
  | invalidNodeOverride
  | invalidDependsOn
  | invalidReferences
  | injectionSuspected
  | invalidSubtasks
  deriving DecidableEq

/-- Why there is no task: a rejection, or an exception. -/
inductive GateStop where
  | rejected (reason : ValidationReason) (detail : PyText)
  | raised
  deriving DecidableEq

/-- The bounds of `config.validation`; the ratio is compared as a float. -/
structure ValidationConfig where
  maxTaskBytes : Int
  maxTaskLines : Int
  maxLineBytes : Int
  exceedsControlRatio : Nat → Nat → Bool

/-- What the gate is built with. -/
structure ValidationGate where
  validation : ValidationConfig
  baseBranch : PyText
  branchMode : BranchMode
  storeHasTaskId : PyText → Bool
  ledgerHasTaskId : PyText → Bool
  isRecoveryRerun : PyText → Bool
  ledgerOnlyValidationRejects : PyText → Bool
  yaml : PyText → YamlResult
  wording : Wording

/-- `_rej`. -/
def reject {α : Type} (reason : ValidationReason) (detail : PyText) : Except GateStop α :=
  .error (.rejected reason detail)

/-- A rejection with a text of its own, unless a test passes. -/
def require (passes : Bool) (reason : ValidationReason) (detail : String) :
    Except GateStop Unit :=
  if passes then .ok () else reject reason (ofString detail)

/-! ## Bytes and lines -/

namespace ValidationGate

variable (gate : ValidationGate)

/-- A control character that is neither a tab nor the end of a line. -/
def isControl (point : CodePoint) : Bool :=
  (point.val < 0x20 || point.val = 0x7F) && point.val ≠ 9 && point.val ≠ 10 && point.val ≠ 13

/-- `_check_control_chars`. -/
def checkControlChars (text : PyText) : Except GateStop Unit :=
  let control := text.countP isControl
  if 0 ∈ text then reject .binaryOrControlChars (ofString "NUL byte")
  else if text ≠ [] ∧ gate.validation.exceedsControlRatio control text.length = true then
    reject .binaryOrControlChars
      (ofString "control-char ratio " ++ gate.wording.controlRatio control text.length)
  else .ok ()

/-- `len(line.encode("utf-8"))` of a decoded line. -/
def lineBytes (line : PyText) : Int := ((line.flatMap PyText.utf8Bytes).length : Nat)

/-- `_check_length`. -/
def checkLength (text : PyText) : Except GateStop Unit :=
  let lines := PyText.splitLines text
  let bound := gate.validation
  if bound.maxTaskLines < lines.length then
    reject .tooLong (ofString s!"{lines.length} lines > {bound.maxTaskLines}")
  else
    match lines.find? fun line => bound.maxLineBytes < lineBytes line with
    | some line =>
        reject .tooLong (ofString s!"line of {lineBytes line} bytes > {bound.maxLineBytes}")
    | none => .ok ()

end ValidationGate

/-! ## Types of fields -/

section Fields

variable (frontmatter : Frontmatter)

/-- A field that is a string, when it is there. -/
def optionalText (key : String) : Except GateStop Unit :=
  let value := frontmatter.field key
  require (value.isNone || value.text?.isSome) .invalidFieldType s!"{key} must be a string"

/-- A field that is a boolean, when it is there. -/
def optionalBool (key : String) : Except GateStop Unit :=
  let value := frontmatter.field key
  require (value.isNone || value.bool?.isSome) .invalidFieldType s!"{key} must be a boolean"

/-- A field that is one of the sorted choices, when it is there. -/
def optionalChoice (key : String) (choices : List String) : Except GateStop Unit :=
  let value := frontmatter.field key
  require
    (value.isNone || value.text?.any fun letters => decide (strip letters ∈ choices.map ofString))
    .invalidFieldType s!"{key} must be one of {Text.bracketed (choices.map Text.repr)}"

/-- A field that is a list of strings, when it is there at all. -/
def optionalTexts (key : String) (reason : ValidationReason) (test : PyText → Bool)
    (items : String) : Except GateStop Unit :=
  match OrderedDict.get? frontmatter (ofString key) with
  | none => .ok ()
  | some (.list values) =>
      require (values.all fun value => value.text?.any test) reason
        s!"{key} must be a list of {items}"
  | some _ => reject reason (ofString s!"{key} must be a list")

/-- A string that is not blank. -/
def filled (letters : PyText) : Bool := strip letters ≠ []

/-- The queue is a string that is not blank, when it is there at all. -/
def checkQueue : Except GateStop Unit :=
  match OrderedDict.get? frontmatter (ofString "queue") with
  | none => .ok ()
  | some (.text letters) =>
      require (filled letters) .invalidFieldType "queue must be a non-empty string"
  | some _ => reject .invalidFieldType (ofString "queue must be a string")

/-- One entry of `references`. -/
def checkReference (index : Nat) (entry : Value) : Except GateStop Unit :=
  match entry with
  | .text letters => do
      require (filled letters) .invalidReferences s!"references[{index}] must be a non-empty string"
      require (letters.length ≤ referenceMaxChars) .invalidReferences
        (s!"references[{index}] must be at most {referenceMaxChars} characters " ++
          s!"(got {letters.length})")
      require (decide (10 ∉ letters ∧ 13 ∉ letters)) .invalidReferences
        s!"references[{index}] must be a single line"
  | _ => reject .invalidReferences (ofString s!"references[{index}] must be a non-empty string")

/-- The entries of `references`, from a position on. -/
def checkEntries : Nat → List Value → Except GateStop Unit
  | _, [] => .ok ()
  | index, entry :: entries => do
      checkReference index entry
      checkEntries (index + 1) entries

/-- `_check_references`. -/
def checkReferences : Except GateStop Unit :=
  match OrderedDict.get? frontmatter (ofString "references") with
  | none => .ok ()
  | some (.list values) => do
      require (!values.isEmpty) .invalidReferences "references must not be empty when present"
      require (values.length ≤ referencesMaxItems) .invalidReferences
        s!"references must hold at most {referencesMaxItems} entries (got {values.length})"
      checkEntries 0 values
  | some _ => reject .invalidReferences (ofString "references must be a list")

/-- `_check_field_types`. -/
def checkFieldTypes : Except GateStop Unit := do
  require (frontmatter.field "title").text?.isSome .invalidFieldType "title must be a string"
  optionalText frontmatter "branch_name"
  optionalText frontmatter "task_type"
  optionalText frontmatter "branch_mode"
  optionalText frontmatter "branch_ref"
  optionalText frontmatter "publish"
  checkQueue frontmatter
  optionalBool frontmatter "auto_merge"
  optionalBool frontmatter "prompt_audit"
  optionalBool frontmatter "decomposition"
  optionalChoice frontmatter "trust_level" trustLevels
  optionalChoice frontmatter "commit_type" commitTypes
  optionalTexts frontmatter "contacts" .invalidFieldType (fun _ => true) "strings"
  optionalTexts frontmatter "depends_on" .invalidDependsOn filled "non-empty strings"
  optionalTexts frontmatter "subtasks" .invalidSubtasks filled "non-empty path strings"
  checkReferences frontmatter

end Fields

/-! ## Branches -/

namespace ValidationGate

variable (gate : ValidationGate)

/-- `_branch_name`. -/
def branchName (raw : Value) : Except GateStop (Option PyText) :=
  match raw with
  | .none => .ok none
  | .text letters =>
      if filled letters then
        match isValidBranchName letters with
        | none => .error .raised
        | some false =>
            reject .invalidBranchName (ofString "branch_name must be a valid Git branch name")
        | some true =>
            if branchNameMaxLen < letters.length then .ok none
            else if letters = gate.baseBranch then
              reject .invalidBranchName (ofString "branch_name must not equal repo.base_branch")
            else .ok (some letters)
      else .ok none
  | _ => .error .raised

/-- `_parse_enum`: none when the value is no member. -/
def parseEnum {ε : Type} (value : ε → String) (all : List ε) (raw : Value) :
    Option (Option ε) :=
  match raw.text?.filter filled with
  | none => some none
  | some letters => (member value all (strip letters)).map some

/-- The resolved branch fields. -/
structure BranchFields where
  branchMode : Option BranchMode
  branchRef : Option PyText
  publish : Option PublishScope
  branchName : Option PyText

/-- The branch to work in, if it has a name that is valid. -/
def branchRef (raw : Value) : Except GateStop (Option PyText) :=
  match raw.text?.filter filled with
  | none => .ok none
  | some letters =>
      match isValidBranchName (strip letters) with
      | none => .error .raised
      | some false =>
          reject .invalidBranchMode (ofString "branch_ref must be a valid Git branch name")
      | some true => .ok (some (strip letters))

/-- `_branch_fields`. -/
def branchFields (frontmatter : Frontmatter) (branchName : Option PyText) :
    Except GateStop BranchFields := do
  match parseEnum BranchMode.value BranchMode.all (frontmatter.field "branch_mode") with
  | none =>
      reject .invalidBranchMode
        (ofString s!"branch_mode ∈ {Text.reprSorted (BranchMode.all.map BranchMode.value)}")
  | some branchMode =>
      match parseEnum PublishScope.value PublishScope.all (frontmatter.field "publish") with
      | none =>
          reject .invalidBranchMode
            (ofString s!"publish ∈ {Text.reprSorted (PublishScope.all.map PublishScope.value)}")
      | some publish => do
          let branchRef ← branchRef (frontmatter.field "branch_ref")
          let effective := branchMode.getD gate.branchMode
          require (effective ≠ .existing || branchRef.isSome) .invalidBranchMode
            "branch_mode 'existing' requires branch_ref (the branch to work in)"
          require (branchRef.isNone || effective = .existing) .invalidBranchMode
            s!"branch_ref requires branch_mode 'existing' (got '{effective.value}')"
          return ⟨branchMode, branchRef, publish, if effective = .new then branchName else none⟩

/-! ## Nodes -/

/-- The keys of an override. -/
def overrideKeys : List PyText :=
  [ofString "enabled", ofString "model", ofString "reasoning", ofString "provider"]

/-- A text of an override. -/
def overrideText (nodeId : PyText) (key : String) (raw : Value) :
    Except GateStop (Option PyText) :=
  match raw with
  | .none => .ok none
  | .text letters =>
      if filled letters then .ok (some (strip letters))
      else reject .invalidNodeOverride
        (ofString "nodes." ++ nodeId ++ ofString s!".{key} must be a non-empty string")
  | _ => reject .invalidNodeOverride
      (ofString "nodes." ++ nodeId ++ ofString s!".{key} must be a non-empty string")

/-- The override of one node. -/
def nodeOverride (nodeId : PyText) (value : Value) : Except GateStop NodeOverride :=
  match value with
  | .none => .ok {}
  | .mapping entries =>
      let unknown := (entries.map fun entry => entry.1.printed).filter (· ∉ overrideKeys)
      let enabled := Value.entry "enabled" entries
      if unknown ≠ [] then
        reject .invalidNodeOverride (ofString "nodes." ++ nodeId ++ ofString ": unknown keys [" ++
          (ofString ", ").intercalate ((unknown.dedup.insertionSort (· ≤ ·)).map fun key =>
            gate.wording.repr (.text key)) ++ ofString "]")
      else if enabled.isNone || enabled.bool?.isSome then do
        let model ← overrideText nodeId "model" (Value.entry "model" entries)
        let reasoning ← overrideText nodeId "reasoning" (Value.entry "reasoning" entries)
        let provider ← overrideText nodeId "provider" (Value.entry "provider" entries)
        return ⟨enabled.bool?, model, reasoning, provider⟩
      else reject .invalidNodeOverride
        (ofString "nodes." ++ nodeId ++ ofString " enabled must be a boolean")
  | _ => reject .invalidNodeOverride
      (ofString "nodes." ++ nodeId ++ ofString " must be a mapping")

/-- `_build_node_overrides`. -/
def buildNodeOverrides (raw : Value) :
    Except GateStop (OrderedDict PyText NodeOverride) :=
  match raw with
  | .none => .ok OrderedDict.empty
  | .mapping entries =>
      OrderedDict.ofItems <$> entries.mapM fun entry =>
        (entry.1.printed, ·) <$> gate.nodeOverride entry.1.printed entry.2
  | _ => reject .invalidNodeOverride (ofString "nodes must be a mapping")

/-! ## Phases -/

/-- The texts of a field that is a list of strings. -/
def textsOf (raw : Value) : List PyText :=
  match raw with
  | .list values => values.filterMap Value.text?
  | _ => []

/-- The description section, or the whole body. -/
def extractDescription (body : PyText) : PyText :=
  (extractSection body "Description").getD body

/-- The id is known from another task. -/
def isDuplicate (id : PyText) : Bool :=
  let stored := gate.storeHasTaskId id
  let ledgerBlocks :=
    gate.ledgerHasTaskId id && !(gate.ledgerOnlyValidationRejects id && !stored)
  !gate.isRecoveryRerun id && (stored || ledgerBlocks)

/-- The queue of a task: the default when it names none. -/
def queueOf (raw : Value) : Queue :=
  match raw with
  | .text letters => if named : strip letters ≠ [] then ⟨strip letters, named⟩ else defaultQueue
  | _ => defaultQueue

/-- The checks of an id. -/
def checkId (raw : Value) : Except GateStop PyText :=
  let refused := reject .invalidTaskId (gate.wording.repr raw ++ ofString
    (" is not a portable task id: expected ^[a-z0-9][a-z0-9._-]\x7b0,63\x7d$, no trailing dot, " ++
      "and not a Windows device name (con, nul, com1-9, lpt1-9, …)"))
  match raw with
  | .text letters => if isValidTaskId letters then .ok letters else refused
  | _ => refused

/-- What is there has to be known, and what is required there. -/
def checkPresence (frontmatter : Frontmatter) (body : PyText) : Except GateStop Unit := do
  match frontmatter.items.find? fun item => item.1 ∉ allowedTaskKeys.map ofString with
  | some item =>
      reject .unknownTopLevelField (ofString "key " ++ gate.wording.repr (.text item.1))
  | none =>
      match requiredTaskFields.find? fun key =>
          (OrderedDict.get? frontmatter (ofString key)).isNone with
      | some key => reject .missingRequiredField (ofString key)
      | none => do
          require ((frontmatter.field "title").text?.all filled) .missingRequiredField "title"
          require (filled (extractDescription body)) .missingRequiredField "description"

/-- `_validate_fields`. -/
def validateFields (frontmatter : Frontmatter) (body : PyText) :
    Except GateStop NormalizedTask := do
  gate.checkPresence frontmatter body
  checkFieldTypes frontmatter
  let id ← gate.checkId (frontmatter.field "id")
  let dependsOn := (textsOf (frontmatter.field "depends_on")).map strip
  if id ∈ dependsOn then
    reject .invalidDependsOn (gate.wording.repr (.text id) ++ ofString " depends on itself")
  else if gate.isDuplicate id then reject .duplicateTaskId id
  else do
    let nodeOverrides ← gate.buildNodeOverrides (frontmatter.field "nodes")
    match scanFrontmatter frontmatter with
    | some finding => reject .injectionSuspected finding.detail
    | none => do
        let branchName ← gate.branchName (frontmatter.field "branch_name")
        let branch ← gate.branchFields frontmatter branchName
        return {
          id := id
          title := (frontmatter.field "title").text?.getD []
          description := strip body
          taskType := ((frontmatter.field "task_type").text?.filter filled).map strip
          branchName := branch.branchName
          branchMode := branch.branchMode
          branchRef := branch.branchRef
          publish := branch.publish
          autoMerge := (frontmatter.field "auto_merge").bool?
          promptAudit := (frontmatter.field "prompt_audit").bool?
          decomposition := (frontmatter.field "decomposition").bool?
          trustLevel := (frontmatter.field "trust_level").text?.map strip
          commitType := (frontmatter.field "commit_type").text?.map strip
          contacts := textsOf (frontmatter.field "contacts")
          dependsOn := dependsOn
          priority := normalizePriority (frontmatter.field "priority").text?
          queue := queueOf (frontmatter.field "queue")
          subtasks := (textsOf (frontmatter.field "subtasks")).map strip
          references := textsOf (frontmatter.field "references")
          nodeOverrides := nodeOverrides }

/-- The front matter and the body of a task file, unless it is refused before. -/
def readFile (suffix : String) (bytes : List UInt8) : Except GateStop (Frontmatter × PyText) :=
  if gate.validation.maxTaskBytes < bytes.length then
    reject .fileTooLarge
      (ofString s!"{bytes.length} > {gate.validation.maxTaskBytes} bytes")
  else
    match PyText.decodeUtf8 bytes with
    | none => reject .notUtf8 (gate.wording.decodeError bytes)
    | some text => do
        gate.checkControlChars text
        gate.checkLength text
        match splitFrontmatter gate.yaml gate.wording suffix text with
        | none => .error .raised
        | some .missing => reject .frontmatterMissing (ofString "no front matter")
        | some (.malformed detail) => reject .frontmatterMalformed detail
        | some (.split frontmatter body) => return (frontmatter, body)

/-- `_phase_a`. -/
def phaseA (suffix : String) (bytes : List UInt8) : Except GateStop NormalizedTask := do
  let (frontmatter, body) ← gate.readFile suffix bytes
  gate.validateFields frontmatter body

/-- `Completeness`. -/
inductive Completeness where
  | complete
  | needsEnrichment
  deriving DecidableEq

/-- `phase_b`. -/
def phaseB (task : NormalizedTask) : Completeness :=
  if filled task.description && (extractSection task.description "Acceptance criteria").isSome then
    .complete
  else .needsEnrichment

/-- `validate`. -/
def validate (suffix : String) (bytes : List UInt8) :
    Except GateStop (NormalizedTask × Completeness) := do
  let task ← gate.phaseA suffix bytes
  return (task, phaseB task)

end ValidationGate

end Orchestrator.TaskFile
