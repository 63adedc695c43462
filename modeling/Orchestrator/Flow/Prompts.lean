import Orchestrator.Foundation.PyText
import Orchestrator.Foundation.Scanning

/-! # Prompts

A role's text is rendered in two passes: its blocks are kept or dropped, and then its placeholders
are replaced. A value is never read again, but what the first pass leaves can have a placeholder
that the text did not have.
-/

namespace Orchestrator.Flow

open Orchestrator.Foundation
open Orchestrator.Foundation.PyText (ofString)

/-! ## Marks -/

/-- A character of `[a-z0-9_-]`. -/
def isTokenPoint (point : CodePoint) : Bool :=
  (97 ≤ point.val && point.val ≤ 122) || (48 ≤ point.val && point.val ≤ 57) || point = 95 ||
    point = 45

/-- A name and a closing brace at the start of a text, and what is after them. -/
def readToken (text : PyText) : Option (PyText × PyText) :=
  match text.dropWhile isTokenPoint with
  | [] => none
  | point :: rest =>
      if point = 125 ∧ text.takeWhile isTokenPoint ≠ [] then
        some (text.takeWhile isTokenPoint, rest)
      else none

theorem readToken_eq_some {text name rest : PyText} (read : readToken text = some (name, rest)) :
    text = name ++ 125 :: rest := by
  have whole := List.takeWhile_append_dropWhile (p := isTokenPoint) (l := text)
  rw [readToken] at read
  split at read
  · cases read
  · next point after split_ =>
      split at read
      · next closed =>
          cases read
          rw [split_, closed.1] at whole
          exact whole.symm
      · cases read

/-- What is before the first occurrence of a mark, and what is after it. -/
def untilMark (mark : PyText) : PyText → Option (PyText × PyText)
  | [] => if mark = [] then some ([], []) else none
  | point :: rest =>
      if mark.isPrefixOf (point :: rest) then some ([], (point :: rest).drop mark.length)
      else (untilMark mark rest).map fun parts => (point :: parts.1, parts.2)

theorem untilMark_eq_some {mark text front rest : PyText}
    (read : untilMark mark text = some (front, rest)) : text = front ++ (mark ++ rest) := by
  induction text generalizing front with
  | nil =>
      rw [untilMark] at read
      split at read
      · next empty =>
          cases read
          rw [empty]
          rfl
      · cases read
  | cons point after ih =>
      rw [untilMark] at read
      split at read
      · next here =>
          cases read
          exact List.prefix_iff_eq_append.mp (List.isPrefixOf_iff_prefix.mp here) |>.symm
      · obtain ⟨parts, found, same⟩ := Option.map_eq_some_iff.mp read
        cases same
        rw [List.cons_append, ← ih found]

/-- `_VAR_RE` at the start of a text. -/
def readPlaceholder : PyText → Option (PyText × PyText)
  | [] => none
  | point :: rest => if point = 123 then readToken rest else none

/-- `{name}`. -/
def placeholder (name : PyText) : PyText := 123 :: (name ++ [125])

/-- `{name}`, read and written. -/
def placeholders : Marks CodePoint PyText where
  read := readPlaceholder
  written := placeholder
  whole := by
    intro text name rest read
    cases text with
    | nil => cases read
    | cons point after =>
        rw [readPlaceholder] at read
        split at read
        · next opened =>
            rw [opened, readToken_eq_some read, placeholder, List.cons_append, List.append_assoc]
            rfl
        · cases read
  filled := fun _ => List.cons_ne_nil _ _

/-- `{/name}`. -/
def blockEnd (name : PyText) : PyText := 123 :: 47 :: (name ++ [125])

/-- `_BLOCK_RE` at the start of a text: the name and the body. -/
def readBlock : PyText → Option ((PyText × PyText) × PyText)
  | point :: mark :: rest =>
      if point = 123 ∧ mark = 63 then
        (readToken rest).bind fun opening =>
          (untilMark (blockEnd opening.1) opening.2).map fun parts =>
            ((opening.1, parts.1), parts.2)
      else none
  | _ => none

/-- `{?name}body{/name}`. -/
def block (parts : PyText × PyText) : PyText :=
  123 :: 63 :: (parts.1 ++ 125 :: (parts.2 ++ blockEnd parts.1))

theorem readBlock_eq_some {text rest : PyText} {parts : PyText × PyText}
    (read : readBlock text = some (parts, rest)) : text = block parts ++ rest := by
  match text with
  | [] => cases read
  | [_] => cases read
  | point :: mark :: after =>
      rw [readBlock] at read
      split at read
      · next opened =>
          obtain ⟨opening, named, closed⟩ := Option.bind_eq_some_iff.mp read
          obtain ⟨body, found, same⟩ := Option.map_eq_some_iff.mp closed
          cases same
          rw [opened.1, opened.2, readToken_eq_some named, untilMark_eq_some found, block]
          simp only [List.cons_append, List.append_assoc]
      · cases read

/-- `{?name}body{/name}`, read and written. -/
def blocks : Marks CodePoint (PyText × PyText) where
  read := readBlock
  written := block
  whole := readBlock_eq_some
  filled := fun _ => List.cons_ne_nil _ _

/-! ## Rendering -/

/-- A value of a variable: a text, or another object and what `str` makes of it. -/
inductive PromptValue where
  | text (letters : PyText)
  | object (shown : PyText)
  deriving DecidableEq

/-- The variables of a prompt; a name that is missing and one that is `None` are read alike. -/
abbrev PromptVariables := PyText → Option PromptValue

/-- `"" if value is None else str(value)`. -/
def promptText : Option PromptValue → PyText
  | none => []
  | some (.text letters) => letters
  | some (.object shown) => shown

/-- `not (value is None or value == "")`. -/
def isPresent : Option PromptValue → Bool
  | none => false
  | some (.text letters) => !letters.isEmpty
  | some (.object _) => true

/-- `ALLOWED_PROMPT_VARS`. -/
def allowedPromptVars : List PyText :=
  ["task_id", "stage", "repo_path", "repo", "task_path", "plan_path", "diff_path",
    "change_overview_path", "diff_base", "checks_path", "review_path", "subtask_order",
    "subtask_count", "subtask_spec_path", "memory_path", "predecessor_context", "conflicts_path",
    "report_dir"].map ofString

/-- `_resolve_block`. -/
def resolveBlock (allowed : List PyText) (vars : PromptVariables) (parts : PyText × PyText) :
    PyText :=
  if parts.1 ∈ allowed then if isPresent (vars parts.1) then parts.2 else []
  else block parts

/-- `_replace`. -/
def replaceName (allowed : List PyText) (vars : PromptVariables) (name : PyText) : PyText :=
  if name ∈ allowed then promptText (vars name) else placeholder name

/-- `render_prompt`. -/
def renderPrompt (allowed : List PyText) (vars : PromptVariables) (template : PyText) :
    PyText :=
  placeholders.sub (replaceName allowed vars)
    (blocks.sub (resolveBlock allowed vars) template)

/-- `referenced_variables`. -/
def referencedVariables (template : PyText) : List PyText :=
  placeholders.found template ++ (blocks.found template).map Prod.fst

/-! ## What a prompt depends on -/

/-- The text of a template once its blocks are resolved, when a choice of names is present. -/
def resolved (allowed : List PyText) (kept : PyText → Bool) (template : PyText) : PyText :=
  blocks.sub (fun parts =>
    if parts.1 ∈ allowed then if kept parts.1 then parts.2 else [] else block parts) template

/-- Whichever blocks are kept, no placeholder is formed that is replaced and not in the template. -/
def FormsNothing (allowed : List PyText) (template : PyText) : Prop :=
  ∀ kept : PyText → Bool, ∀ name ∈ placeholders.found (resolved allowed kept template),
    name ∈ allowed → name ∈ referencedVariables template

/-- A part of a prompt: a text of the template, or the value of a name. -/
inductive PromptPart where
  | text (letters : PyText)
  | value (name : PyText)

def PromptPart.shown (vars : PromptVariables) : PromptPart → PyText
  | .text letters => letters
  | .value name => promptText (vars name)

/-- A prompt is made of what its template references, and of values as they are. -/
structure RendersReferences (allowed : List PyText) (template : PyText) : Prop where
  /-- Variables that agree on the references of a template give the same prompt. -/
  references : ∀ vars other : PromptVariables,
    (∀ name ∈ referencedVariables template, vars name = other name) →
      renderPrompt allowed vars template = renderPrompt allowed other template
  /-- The parts of a prompt are the same for all values of the names that are present. -/
  verbatim : ∀ kept : PyText → Bool, ∃ parts : List PromptPart,
    (∀ name, .value name ∈ parts → name ∈ allowed) ∧
      ∀ vars : PromptVariables, (∀ name ∈ allowed, isPresent (vars name) = kept name) →
        renderPrompt allowed vars template = parts.flatMap (PromptPart.shown vars)

variable {allowed : List PyText} {template : PyText}

/-- A resolved block depends on which of the allowed names are present. -/
theorem sub_resolveBlock {vars : PromptVariables} {kept : PyText → Bool}
    (present : ∀ parts ∈ blocks.found template, parts.1 ∈ allowed →
      isPresent (vars parts.1) = kept parts.1) :
    blocks.sub (resolveBlock allowed vars) template = resolved allowed kept template := by
  apply Marks.sub_congr
  intro parts among
  rw [resolveBlock]
  by_cases known : parts.1 ∈ allowed
  · rw [if_pos known, if_pos known, present parts among known]
  · rw [if_neg known, if_neg known]

/-- The parts of a text whose blocks are resolved. -/
def partOf (allowed : List PyText) : MarkPiece CodePoint PyText → PromptPart
  | .plain letter => .text [letter]
  | .found name => if name ∈ allowed then .value name else .text (placeholder name)

theorem shown_partOf (vars : PromptVariables) (piece : MarkPiece CodePoint PyText) :
    (partOf allowed piece).shown vars =
      Marks.shown (replaceName allowed vars) piece := by
  cases piece with
  | plain letter => rfl
  | found name =>
      rw [partOf, Marks.shown, replaceName]
      split
      · rfl
      · rfl

/-- The value of a name goes into the prompt as it is. -/
theorem renderPrompt_verbatim (allowed : List PyText) (template : PyText) (kept : PyText → Bool) :
    ∃ parts : List PromptPart, (∀ name, .value name ∈ parts → name ∈ allowed) ∧
      ∀ vars : PromptVariables, (∀ name ∈ allowed, isPresent (vars name) = kept name) →
        renderPrompt allowed vars template = parts.flatMap (PromptPart.shown vars) := by
  refine ⟨(placeholders.pieces (resolved allowed kept template)).map (partOf allowed), ?_, ?_⟩
  · intro name among
    obtain ⟨piece, _, same⟩ := List.mem_map.mp among
    cases piece with
    | plain letter => cases same
    | found other =>
        rw [partOf] at same
        split at same
        · next known =>
            cases same
            exact known
        · cases same
  · intro vars present
    rw [renderPrompt, sub_resolveBlock fun parts _ known => present parts.1 known, Marks.sub,
      List.flatMap_map]
    apply List.flatMap_congr
    intro piece _
    exact (shown_partOf vars piece).symm

/-- Where no placeholder is formed, a prompt depends on the references of its template. -/
theorem FormsNothing.renderPrompt_congr (forms : FormsNothing allowed template)
    {vars other : PromptVariables}
    (agree : ∀ name ∈ referencedVariables template, vars name = other name) :
    renderPrompt allowed vars template = renderPrompt allowed other template := by
  have named {parts : PyText × PyText} (among : parts ∈ blocks.found template) :
      vars parts.1 = other parts.1 :=
    agree _ (List.mem_append_right _ (List.mem_map_of_mem among))
  have left : blocks.sub (resolveBlock allowed vars) template =
      resolved allowed (fun name => isPresent (other name)) template :=
    sub_resolveBlock fun parts among _ => congrArg isPresent (named among)
  have right : blocks.sub (resolveBlock allowed other) template =
      resolved allowed (fun name => isPresent (other name)) template :=
    sub_resolveBlock fun parts _ _ => rfl
  rw [renderPrompt, renderPrompt, left, right]
  apply Marks.sub_congr
  intro name among
  rw [replaceName, replaceName]
  by_cases known : name ∈ allowed
  · rw [if_pos known, if_pos known, agree name (forms _ name among known)]
  · rw [if_neg known, if_neg known]

/-- A placeholder that is formed makes the prompt depend on a name that is not referenced. -/
theorem exists_renderPrompt_ne {kept : PyText → Bool} {name : PyText}
    (formed : name ∈ placeholders.found (resolved allowed kept template)) (known : name ∈ allowed)
    (unreferenced : name ∉ referencedVariables template) :
    ∃ vars other : PromptVariables,
      (∀ name ∈ referencedVariables template, vars name = other name) ∧
        renderPrompt allowed vars template ≠ renderPrompt allowed other template := by
  let choice : PromptVariables := fun other => if kept other then some (.text [120]) else none
  let long : PromptValue := .text [120, 120]
  refine ⟨Function.update choice name none, Function.update choice name (some long), ?_, ?_⟩
  · intro other among
    have different : other ≠ name := fun same => unreferenced (same ▸ among)
    rw [Function.update_of_ne different, Function.update_of_ne different]
  · have settled (value : Option PromptValue) :
        blocks.sub (resolveBlock allowed (Function.update choice name value)) template =
          resolved allowed kept template := by
      apply sub_resolveBlock
      intro parts among _
      have different : parts.1 ≠ name := fun same =>
        unreferenced (same ▸ List.mem_append_right _ (List.mem_map_of_mem among))
      rw [Function.update_of_ne different]
      change isPresent (if kept parts.1 then _ else _) = _
      cases kept parts.1 with
      | true => rfl
      | false => rfl
    rw [renderPrompt, renderPrompt, settled, settled]
    intro same
    refine absurd (congrArg List.length same) (Nat.ne_of_lt ?_)
    apply Marks.length_sub_lt ?_ formed ?_
    · intro other
      by_cases same : other = name
      · subst same
        rw [replaceName, replaceName, if_pos known, if_pos known, Function.update_self]
        exact Nat.zero_le _
      · apply Nat.le_of_eq
        rw [replaceName, replaceName, Function.update_of_ne same, Function.update_of_ne same]
    · rw [replaceName, replaceName, if_pos known, if_pos known, Function.update_self,
        Function.update_self]
      exact Nat.zero_lt_two

/-- A prompt is made of what its template references exactly when no placeholder is formed. -/
theorem rendersReferences_iff (allowed : List PyText) (template : PyText) :
    RendersReferences allowed template ↔ FormsNothing allowed template := by
  constructor
  · intro renders kept name formed known
    by_contra unreferenced
    obtain ⟨vars, other, agree, differ⟩ :=
      exists_renderPrompt_ne formed known unreferenced
    exact differ (renders.references vars other agree)
  · intro forms
    exact ⟨fun _ _ agree => forms.renderPrompt_congr agree,
      renderPrompt_verbatim allowed template⟩

/-- A block inside a placeholder hides the name that is left when it is dropped. -/
theorem not_rendersReferences_hidden :
    ¬ RendersReferences allowedPromptVars
      (ofString "\x7bta\x7b?stage\x7dx\x7b/stage\x7dsk_id\x7d") := by
  intro renders
  have same := renders.references
    (fun name => if name = ofString "task_id" then some (.text (ofString "first")) else none)
    (fun name => if name = ofString "task_id" then some (.text (ofString "second")) else none)
    (by decide +kernel)
  exact absurd same (by decide +kernel)

end Orchestrator.Flow
