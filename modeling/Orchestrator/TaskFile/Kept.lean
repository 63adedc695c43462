import Orchestrator.TaskFile.Gate
import Orchestrator.TaskFile.Reload

/-! # What is kept of a task file

The texts of an accepted task are the texts of its file that the gate keeps, up to blanks around
them, and others that are within ASCII or were encoded by a check.
-/

namespace Orchestrator.TaskFile

open Orchestrator.Foundation
open Orchestrator.Foundation.PyText (ofString encodable strip)
open Orchestrator.Foundation.Fallible (bind_eq_ok map_eq_ok)

/-- The texts of the override of a node. -/
def overrideTexts : Value → List PyText
  | .mapping entries =>
      (Value.entry "model" entries).text?.toList ++
        (Value.entry "reasoning" entries).text?.toList ++
        (Value.entry "provider" entries).text?.toList
  | _ => []

/-- The ids and the texts of the nodes: the last override of a node counts. -/
def nodeTexts : Value → List PyText
  | .mapping entries =>
      (OrderedDict.ofItems (entries.map fun entry =>
        (entry.1.printed, overrideTexts entry.2))).items.flatMap fun item => item.1 :: item.2
  | _ => []

/-- The texts of the front matter and the body that the task keeps. -/
def keptTexts (frontmatter : Frontmatter) (body : PyText) : List PyText :=
  (frontmatter.field "title").text?.toList ++ [body] ++
    (frontmatter.field "task_type").text?.toList ++
    ValidationGate.textsOf (frontmatter.field "contacts") ++
    ValidationGate.textsOf (frontmatter.field "depends_on") ++
    (frontmatter.field "queue").text?.toList ++
    ValidationGate.textsOf (frontmatter.field "subtasks") ++
    ValidationGate.textsOf (frontmatter.field "references") ++ nodeTexts (frontmatter.field "nodes")

/-- The kept texts of a file, if it is read at all. -/
def ValidationGate.fileTexts (gate : ValidationGate) (suffix : String) (bytes : List UInt8) :
    List PyText :=
  match gate.readFile suffix bytes with
  | .ok (frontmatter, body) => keptTexts frontmatter body
  | .error _ => []

/-! ## Names that have an encoding -/

theorem encodable_of_isValidTaskId {taskId : PyText} (valid : isValidTaskId taskId = true) :
    encodable taskId = true := by
  rw [isValidTaskId, Bool.and_eq_true, Bool.and_eq_true] at valid
  have pattern := valid.1.1
  cases taskId with
  | nil => rfl
  | cons head tail =>
      rw [matchesTaskIdPattern, Bool.and_eq_true, Bool.and_eq_true] at pattern
      obtain ⟨⟨first, -⟩, rest⟩ := pattern
      refine List.all_eq_true.mpr fun point among => ?_
      have plain : point.val < 0xD800 := by
        rcases List.mem_cons.mp among with rfl | later
        · simp only [Bool.or_eq_true, Bool.and_eq_true, decide_eq_true_eq] at first
          omega
        · have tailed := List.all_eq_true.mp rest point later
          simp only [isTaskIdTail, Bool.or_eq_true, Bool.and_eq_true, decide_eq_true_eq] at tailed
          rcases tailed with ((letter | same) | same) | same
          · omega
          all_goals
            rw [same]
            decide
      rw [PyText.isSurrogate, decide_eq_false (Nat.not_le.mpr plain)]
      rfl

theorem encodable_of_isValidBranchName {branchName : PyText}
    (valid : isValidBranchName branchName = some true) : encodable branchName = true := by
  unfold isValidBranchName PyText.encodeUtf8 at valid
  by_contra lone
  rw [if_neg lone] at valid
  split at valid <;> cases valid

theorem encodable_of_mem_choices {letters : PyText} {choices : List String}
    (among : strip letters ∈ choices.map ofString) : encodable letters = true := by
  obtain ⟨choice, -, same⟩ := List.mem_map.mp among
  rw [← PyText.encodable_strip, ← same]
  exact PyText.encodable_ofString choice

/-- Texts that are stripped keep or lose no surrogate. -/
theorem all_encodable_map_strip (texts : List PyText) :
    (texts.map strip).all encodable = texts.all encodable := by
  rw [List.all_map]
  exact congrArg texts.all (funext PyText.encodable_strip)

/-! ## Checks that pass -/

theorem require_eq_ok {passes : Bool} {reason : ValidationReason} {detail : String} {done : Unit} :
    require passes reason detail = .ok done ↔ passes = true := by
  cases passes with
  | false => exact iff_of_false nofun nofun
  | true => exact iff_of_true rfl rfl

/-- A choice that passes is within ASCII. -/
theorem encodable_of_optionalChoice {frontmatter : Frontmatter} {key : String}
    {choices : List String} {done : Unit}
    (passed : optionalChoice frontmatter key choices = .ok done) :
    (((frontmatter.field key).text?.map strip).toList.all encodable) = true := by
  have found := require_eq_ok.mp passed
  cases value : (frontmatter.field key).text? with
  | none => rfl
  | some letters =>
      have named : (frontmatter.field key).isNone = false := by
        cases field : frontmatter.field key with
        | none =>
            rw [field] at value
            cases value
        | _ => rfl
      rw [value, named, Bool.false_or, Option.any_some, decide_eq_true_eq] at found
      rw [Option.map_some, Option.toList_some, List.all_cons, PyText.encodable_strip,
        encodable_of_mem_choices found]
      rfl

namespace ValidationGate

variable {gate : ValidationGate}

theorem encodable_of_branchName {raw : Value} {name : Option PyText}
    (passed : gate.branchName raw = .ok name) : name.toList.all encodable = true := by
  unfold branchName at passed
  split at passed
  case h_1 =>
    cases passed
    rfl
  case h_2 letters =>
    split at passed
    · split at passed
      case h_3 valid =>
        split at passed
        · cases passed
          rfl
        · split at passed
          · cases passed
          · cases passed
            exact (Bool.and_true _).trans (encodable_of_isValidBranchName valid)
      all_goals cases passed
    · cases passed
      rfl
  case h_3 => cases passed

theorem encodable_of_branchRef {raw : Value} {ref : Option PyText}
    (passed : branchRef raw = .ok ref) : ref.toList.all encodable = true := by
  unfold branchRef at passed
  split at passed
  · cases passed
    rfl
  · split at passed
    case h_3 valid =>
      cases passed
      exact (Bool.and_true _).trans (encodable_of_isValidBranchName valid)
    all_goals cases passed

theorem encodable_of_branchFields {frontmatter : Frontmatter} {name : Option PyText}
    {fields : BranchFields} (named : name.toList.all encodable = true)
    (passed : gate.branchFields frontmatter name = .ok fields) :
    fields.branchName.toList.all encodable = true ∧
      fields.branchRef.toList.all encodable = true := by
  unfold branchFields at passed
  split at passed
  · cases passed
  · split at passed
    · cases passed
    · obtain ⟨ref, found, rest⟩ := bind_eq_ok.mp passed
      obtain ⟨_, _, rest⟩ := bind_eq_ok.mp rest
      obtain ⟨_, _, rest⟩ := bind_eq_ok.mp rest
      cases rest
      refine ⟨?_, encodable_of_branchRef found⟩
      dsimp only
      split
      · exact named
      · rfl

/-! ## Nodes -/

theorem overrideText_eq_ok {nodeId : PyText} {key : String} {raw : Value} {text : Option PyText}
    (passed : overrideText nodeId key raw = .ok text) : text = raw.text?.map strip := by
  unfold overrideText at passed
  split at passed
  · cases passed
    rfl
  · split at passed
    · cases passed
      rfl
    · cases passed
  · cases passed

theorem texts_of_nodeOverride {nodeId : PyText} {value : Value} {override : NodeOverride}
    (passed : gate.nodeOverride nodeId value = .ok override) :
    override.texts = (overrideTexts value).map strip := by
  unfold nodeOverride at passed
  split at passed
  · cases passed
    rfl
  · dsimp only at passed
    split at passed
    · cases passed
    · split at passed
      · obtain ⟨model, modelRead, rest⟩ := bind_eq_ok.mp passed
        obtain ⟨reasoning, reasoningRead, rest⟩ := bind_eq_ok.mp rest
        obtain ⟨provider, providerRead, rest⟩ := bind_eq_ok.mp rest
        cases rest
        rw [overrideTexts, NodeOverride.texts, overrideText_eq_ok modelRead,
          overrideText_eq_ok reasoningRead, overrideText_eq_ok providerRead, List.map_append,
          List.map_append, Option.toList_map, Option.toList_map, Option.toList_map]
      · cases passed
  · cases passed

/-- The overrides that are read have the texts of the values. -/
theorem map_texts_of_mapM {entries : List (Key × Value)} {overrides : List (PyText × NodeOverride)}
    (passed : (entries.mapM fun entry =>
      (entry.1.printed, ·) <$> gate.nodeOverride entry.1.printed entry.2) = .ok overrides) :
    overrides.map (fun item => (item.1, item.2.texts)) =
      entries.map fun entry => (entry.1.printed, (overrideTexts entry.2).map strip) := by
  induction entries generalizing overrides with
  | nil =>
      cases passed
      rfl
  | cons entry entries ih =>
      rw [List.mapM_cons] at passed
      obtain ⟨first, read, rest⟩ := bind_eq_ok.mp passed
      obtain ⟨others, reads, rest⟩ := bind_eq_ok.mp rest
      obtain ⟨override, found, rfl⟩ := map_eq_ok.mp read
      cases rest
      rw [List.map_cons, List.map_cons, ih reads, texts_of_nodeOverride found]

theorem encodable_of_buildNodeOverrides {raw : Value} {nodes : OrderedDict PyText NodeOverride}
    (passed : gate.buildNodeOverrides raw = .ok nodes) :
    (nodes.items.flatMap fun item => item.1 :: item.2.texts).all encodable =
      (nodeTexts raw).all encodable := by
  unfold buildNodeOverrides at passed
  split at passed
  · cases passed
    rfl
  · rename_i entries
    obtain ⟨overrides, read, rfl⟩ := map_eq_ok.mp passed
    have same : (OrderedDict.ofItems overrides).mapValues NodeOverride.texts =
        (OrderedDict.ofItems (entries.map fun entry =>
          (entry.1.printed, overrideTexts entry.2))).mapValues (List.map strip) := by
      rw [← OrderedDict.ofItems_map, ← OrderedDict.ofItems_map, map_texts_of_mapM read,
        List.map_map]
      rfl
    have items : (OrderedDict.ofItems overrides).items.map (fun item => (item.1, item.2.texts)) =
        (OrderedDict.ofItems (entries.map fun entry =>
          (entry.1.printed, overrideTexts entry.2))).items.map
            fun item => (item.1, item.2.map strip) := congrArg OrderedDict.items same
    let whole : PyText × List PyText → Bool := fun item => (item.1 :: item.2).all encodable
    calc ((OrderedDict.ofItems overrides).items.flatMap fun item =>
          item.1 :: item.2.texts).all encodable
        = ((OrderedDict.ofItems overrides).items.map
            fun item => (item.1, item.2.texts)).all whole := by
          rw [List.all_flatMap, List.all_map]
          rfl
      _ = ((OrderedDict.ofItems (entries.map fun entry =>
            (entry.1.printed, overrideTexts entry.2))).items.map
              fun item => (item.1, item.2.map strip)).all whole := by rw [items]
      _ = (nodeTexts (.mapping entries)).all encodable := by
          rw [nodeTexts, List.all_flatMap, List.all_map]
          refine congrArg (List.all _) (funext fun item => ?_)
          dsimp only [whole, Function.comp_apply]
          rw [List.all_cons, List.all_cons, all_encodable_map_strip]
  · cases passed

/-! ## Tasks -/

theorem encodable_of_checkId {raw : Value} {id : PyText} (passed : gate.checkId raw = .ok id) :
    encodable id = true := by
  unfold checkId at passed
  dsimp only at passed
  split at passed
  · split at passed
    · rename_i valid
      cases passed
      exact encodable_of_isValidTaskId valid
    · cases passed
  · cases passed

theorem choices_of_checkFieldTypes {frontmatter : Frontmatter} {done : Unit}
    (passed : checkFieldTypes frontmatter = .ok done) :
    ((frontmatter.field "trust_level").text?.map strip).toList.all encodable = true ∧
      ((frontmatter.field "commit_type").text?.map strip).toList.all encodable = true := by
  unfold checkFieldTypes at passed
  obtain ⟨_, -, rest⟩ := bind_eq_ok.mp passed
  obtain ⟨_, -, rest⟩ := bind_eq_ok.mp rest
  obtain ⟨_, -, rest⟩ := bind_eq_ok.mp rest
  obtain ⟨_, -, rest⟩ := bind_eq_ok.mp rest
  obtain ⟨_, -, rest⟩ := bind_eq_ok.mp rest
  obtain ⟨_, -, rest⟩ := bind_eq_ok.mp rest
  obtain ⟨_, -, rest⟩ := bind_eq_ok.mp rest
  obtain ⟨_, -, rest⟩ := bind_eq_ok.mp rest
  obtain ⟨_, -, rest⟩ := bind_eq_ok.mp rest
  obtain ⟨_, -, rest⟩ := bind_eq_ok.mp rest
  obtain ⟨_, trust, rest⟩ := bind_eq_ok.mp rest
  obtain ⟨_, commit, -⟩ := bind_eq_ok.mp rest
  exact ⟨encodable_of_optionalChoice trust, encodable_of_optionalChoice commit⟩

theorem encodable_getD (text : Option PyText) :
    encodable (text.getD []) = text.toList.all encodable := by
  cases text with
  | none => rfl
  | some letters => exact (Bool.and_true _).symm

/-- A blank text has an encoding. -/
theorem encodable_of_blank {letters : PyText} (blank : strip letters = []) :
    encodable letters = true := by
  rw [← PyText.encodable_strip, blank]
  rfl

theorem all_encodable_filled (text : Option PyText) :
    ((text.filter filled).map strip).toList.all encodable = text.toList.all encodable := by
  cases text with
  | none => rfl
  | some letters =>
      by_cases named : filled letters = true
      · rw [Option.filter_some_pos named, Option.map_some, Option.toList_some, Option.toList_some,
          List.all_cons, List.all_cons, PyText.encodable_strip]
      · have blank : strip letters = [] := by
          by_contra other
          exact named (decide_eq_true other)
        rw [Option.filter_some_neg (Bool.eq_false_of_not_eq_true named), Option.toList_some,
          List.all_cons,
          encodable_of_blank blank]
        rfl

theorem encodable_queueOf (raw : Value) :
    encodable (queueOf raw).val = raw.text?.toList.all encodable := by
  unfold queueOf
  split
  · rename_i letters
    have whole : (Value.text letters).text?.toList.all encodable = encodable letters :=
      Bool.and_true _
    rw [whole]
    split
    · exact PyText.encodable_strip letters
    · rename_i blank
      rw [encodable_of_blank (not_not.mp blank)]
      rfl
  · rename_i other
    have missing : raw.text? = none := by
      cases raw with
      | text letters => exact absurd rfl (other letters)
      | _ => rfl
    rw [missing]
    rfl

/-- The texts of a task have an encoding exactly when the texts that are kept do. -/
theorem encodable_of_validateFields {frontmatter : Frontmatter} {body : PyText}
    {task : NormalizedTask} (accepted : gate.validateFields frontmatter body = .ok task) :
    task.texts.all encodable = (keptTexts frontmatter body).all encodable := by
  unfold validateFields at accepted
  obtain ⟨_, -, rest⟩ := bind_eq_ok.mp accepted
  obtain ⟨_, types, rest⟩ := bind_eq_ok.mp rest
  obtain ⟨id, valid, rest⟩ := bind_eq_ok.mp rest
  dsimp only at rest
  split at rest
  · cases rest
  · split at rest
    · cases rest
    · obtain ⟨nodes, built, rest⟩ := bind_eq_ok.mp rest
      split at rest
      · cases rest
      · obtain ⟨name, named, rest⟩ := bind_eq_ok.mp rest
        obtain ⟨fields, resolved, rest⟩ := bind_eq_ok.mp rest
        cases rest
        obtain ⟨trust, commit⟩ := choices_of_checkFieldTypes types
        obtain ⟨nameFine, refFine⟩ :=
          encodable_of_branchFields (encodable_of_branchName named) resolved
        rw [NormalizedTask.texts, keptTexts]
        simp only [List.all_append, List.all_cons, List.all_nil, encodable_of_checkId valid,
          encodable_getD, PyText.encodable_strip, all_encodable_filled, nameFine, refFine, trust,
          commit, all_encodable_map_strip, encodable_queueOf, encodable_of_buildNodeOverrides built,
          Bool.and_true, Bool.true_and]

/-- An accepted task is reloaded exactly when the texts that are kept of its file have an
encoding. -/
theorem accepted_reload_iff {suffix : String} {bytes : List UInt8} {task : NormalizedTask}
    {completeness : Completeness}
    (accepted : gate.validate suffix bytes = .ok (task, completeness)) :
    reload task = .ok task ↔ ∀ text ∈ gate.fileTexts suffix bytes, encodable text = true := by
  obtain ⟨found, phased, rest⟩ := bind_eq_ok.mp accepted
  cases rest
  obtain ⟨⟨frontmatter, body⟩, read, validated⟩ := bind_eq_ok.mp phased
  rw [reload_eq_ok_iff, encodable_of_validateFields validated, fileTexts, read]
  exact List.all_eq_true

end ValidationGate

/-- A gate of an empty store. -/
def emptyGate : ValidationGate where
  validation := ⟨262144, 5000, 8192, fun control length => decide (length < 100 * control)⟩
  baseBranch := ofString "main"
  branchMode := .new
  storeHasTaskId := fun _ => false
  ledgerHasTaskId := fun _ => false
  isRecoveryRerun := fun _ => false
  ledgerOnlyValidationRejects := fun _ => false
  yaml := fun _ => .raised
  wording := ⟨fun _ => [], fun _ => [], fun _ => [], fun _ _ => []⟩

/-- A task with a title and a description only. -/
def plainTask (title : PyText) : NormalizedTask where
  id := ofString "t1"
  title := title
  description := ofString "d"
  taskType := none
  branchName := none
  branchMode := none
  branchRef := none
  publish := none
  autoMerge := none
  promptAudit := none
  decomposition := none
  trustLevel := none
  commitType := none
  contacts := []
  dependsOn := []
  priority := .mid
  queue := defaultQueue
  subtasks := []
  references := []
  nodeOverrides := OrderedDict.empty

/-- The bytes of a file within ASCII. -/
def fileBytes (text : String) : List UInt8 := (PyText.encodeUtf8 (ofString text)).getD []

theorem accepted_reload_iff_plain :
    reload (plainTask (ofString "x")) = .ok (plainTask (ofString "x")) ↔
      ∀ text ∈ emptyGate.fileTexts ".json"
          (fileBytes "\x7b\"id\":\"t1\",\"title\":\"x\",\"description\":\"d\"\x7d"),
        encodable text = true := by
  have accepted : emptyGate.validate ".json"
      (fileBytes "\x7b\"id\":\"t1\",\"title\":\"x\",\"description\":\"d\"\x7d") =
        .ok (plainTask (ofString "x"), .needsEnrichment) := by decide +kernel
  exact ValidationGate.accepted_reload_iff accepted

/-- A title of one escaped surrogate is accepted, and cannot be written. -/
theorem surrogate_title_lost :
    ¬ ∀ (gate : ValidationGate) (suffix : String) (bytes : List UInt8) (task : NormalizedTask)
        (completeness : ValidationGate.Completeness),
      gate.validate suffix bytes = .ok (task, completeness) → reload task = .ok task := by
  intro always
  have accepted : emptyGate.validate ".json"
      (fileBytes "\x7b\"id\":\"t1\",\"title\":\"\\ud800\",\"description\":\"d\"\x7d") =
        .ok (plainTask [0xD800], .needsEnrichment) := by decide +kernel
  have written := (reload_eq_ok_iff _).mp (always _ _ _ _ _ accepted)
  revert written
  decide +kernel

end Orchestrator.TaskFile
