import Orchestrator.Foundation.Nested

/-! # Config upgrade

What the packaged template has and the operator's file lacks is added; what the operator has is
kept, but for the keys that a past version removed.
-/

namespace Orchestrator.Config

open Orchestrator.Foundation
open Orchestrator.Foundation.Nested (setEntry removeAt)

/-! ## Merging -/

/-- A parsed value: a scalar or a list is a leaf. The version is a leaf of its own kind. -/
abbrev ConfigValue (α : Type) := Nested String (Nat ⊕ α)

/-- The entries of a mapping. -/
abbrev ConfigEntries (α : Type) := List (String × ConfigValue α)

variable {α : Type}

/-- What the operator set and the template does not mention. -/
def onlyOperator (template operator : ConfigEntries α) : ConfigEntries α :=
  operator.filter fun entry => (template.lookup entry.1).isNone

mutual

/-- A key that both have: two mappings are merged, and any other value is the operator's. -/
def mergeValue (path : String) : ConfigValue α → ConfigValue α → ConfigValue α × List String
  | .mapping template, .mapping operator =>
      let merged := mergeEntries (path ++ ".") operator template
      (.mapping (merged.1 ++ onlyOperator template operator), merged.2)
  | .mapping _, .leaf value => (.leaf value, [])
  | .leaf _, value => (value, [])

/-- The entries of the template in their order, and the paths of those that are added. -/
def mergeEntries (start : String) (operator : ConfigEntries α) :
    ConfigEntries α → ConfigEntries α × List String
  | [] => ([], [])
  | entry :: template =>
      let first := mergeEntry start operator entry
      let rest := mergeEntries start operator template
      (first.1 :: rest.1, first.2 ++ rest.2)

/-- An entry of the template. -/
def mergeEntry (start : String) (operator : ConfigEntries α) :
    String × ConfigValue α → (String × ConfigValue α) × List String
  | (key, value) =>
      match operator.lookup key with
      | none => ((key, value), [start ++ key])
      | some own =>
          let merged := mergeValue (start ++ key) value own
          ((key, merged.1), merged.2)

end

/-- `_merge`. -/
def merge (start : String) (template operator : ConfigEntries α) :
    ConfigEntries α × List String :=
  let merged := mergeEntries start operator template
  (merged.1 ++ onlyOperator template operator, merged.2)

/-! ## Upgrading -/

/-- `_REMOVED_KEYS`. -/
def removedKeys : List (String × String) :=
  [("", "prompts"), ("agents", "skip_stages"), ("agents", "routing"),
    ("agents", "allow_review_skip"), ("git", "auto_merge_allow_per_task"),
    ("agents.decomposition", "min_size_signal"), ("agents.decomposition", "commit_per_subtask"),
    ("agents.providers.claude", "max_budget_usd"), ("agents.providers.codex", "max_budget_usd"),
    ("checks", "discovery"), ("checks", "commands"),
    ("security", "deletion_approval_exempt_paths"), ("supervisor", "model"),
    ("supervisor", "reasoning"), ("validation", "required_fields"),
    ("validation", "reject_unknown_fields")]

/-- `parent.split(".")`, and no part of an empty parent. -/
def parentParts (parent : String) : List String :=
  if parent = "" then [] else (parent.toList.splitOn '.').map String.ofList

/-- `f"{parent}.{key}" if parent else key`. -/
def removedLabel (removed : String × String) : String :=
  if removed.1 = "" then removed.2 else removed.1 ++ "." ++ removed.2

/-- One key of `strip_removed_keys`. -/
def stripKey (state : ConfigEntries α × List String) (removed : String × String) :
    ConfigEntries α × List String :=
  match removeAt removed.2 (parentParts removed.1) state.1 with
  | some left => (left, state.2 ++ [removedLabel removed])
  | none => state

/-- `strip_removed_keys`. -/
def stripRemovedKeys (merged : ConfigEntries α) : ConfigEntries α × List String :=
  removedKeys.foldl stripKey (merged, [])

/-- `CONFIG_SCHEMA_VERSION`. -/
def configSchemaVersion : Nat := 41

/-- `upgrade_config_mapping`. -/
def upgradeConfigMapping (template operator : ConfigEntries α) :
    ConfigEntries α × List String × List String :=
  let merged := merge "" template operator
  let stripped := stripRemovedKeys merged.1
  (setEntry "schema_version" (.leaf (.inl configSchemaVersion)) stripped.1, merged.2, stripped.2)

example : upgradeConfigMapping
    [("a", .mapping [("b", .leaf (.inr "new")), ("c", .leaf (.inr "new"))])]
    [("a", .mapping [("b", .leaf (.inr "own"))]), ("prompts", .leaf (.inr "old"))] =
    ([("a", .mapping [("b", .leaf (.inr "own")), ("c", .leaf (.inr "new"))]),
      ("schema_version", .leaf (.inl configSchemaVersion))], ["a.c"], ["prompts"]) := by rfl

end Orchestrator.Config
