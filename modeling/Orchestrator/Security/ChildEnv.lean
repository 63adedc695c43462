import Orchestrator.Foundation.OrderedDict
import Orchestrator.Security.Redaction

/-! # The environment of a child

What of its own environment the orchestrator forwards to a child and what it assigns, and which of
the values it holds back are redacted. Names are the same up to case where the host has it so.
-/

namespace Orchestrator.Security

open Orchestrator.Foundation
open Orchestrator.Foundation.PyText (ofString startsWith endsWith)

/-- A host: its rule for names, what `str.upper` makes of what is not ASCII, and the names that the
loaded env-file defines. -/
structure EnvHost where
  windows : Bool
  upperOther : CodePoint → PyText
  envFileNames : List PyText

/-- The part of `SecurityConfig` that an environment is built from. -/
structure EnvPolicy where
  strictIsolation : Bool
  allowedEnvironment : List PyText
  extraEnvironment : OrderedDict PyText PyText

abbrev Environment := OrderedDict PyText PyText

/-- The names of an environment. -/
def environmentNames (environment : Environment) : List PyText := environment.items.map Prod.fst

namespace EnvHost

variable (host : EnvHost)

theorem upperCase_lt (point : CodePoint) (low : 97 ≤ point.val ∧ point.val ≤ 122) :
    point.val - 32 < 0x110000 := by
  omega

/-- A letter of ASCII in upper case. -/
def upperAscii (point : CodePoint) : CodePoint :=
  if low : 97 ≤ point.val ∧ point.val ≤ 122 then ⟨point.val - 32, upperCase_lt point low⟩
  else point

/-- `name.upper()`. -/
def upperName (name : PyText) : PyText :=
  name.flatMap fun point => if point.val < 128 then [upperAscii point] else host.upperOther point

/-- `_name_identity`. -/
def nameIdentity (name : PyText) : PyText := if host.windows then host.upperName name else name

end EnvHost

/-! ## The allowlist -/

/-- `env_pattern_prefix`. -/
def envPatternPrefix (entry : PyText) : Option PyText :=
  if entry = ofString "*" then none
  else if endsWith entry (ofString "*") then some entry.dropLast
  else none

/-- What one prefix pattern matched. -/
structure PatternExpansion where
  pattern : PyText
  kept : List PyText
  dropped : List PyText

section Building

variable (host : EnvHost)

/-- A name after those that are forwarded, unless it is one of them. -/
def addName (effective : List PyText) (name : PyText) : List PyText :=
  if host.nameIdentity name ∈ effective.map host.nameIdentity then effective
  else effective ++ [name]

/-- The spelling of a plain entry in the environment. -/
def actualName (names : List PyText) (entry : PyText) : PyText :=
  if host.windows then
    (names.reverse.find? fun name => host.upperName name = host.upperName entry).getD entry
  else entry

/-- The names that a pattern matches, sorted. -/
def matchedNames (names : List PyText) (stem : PyText) : List PyText :=
  (names.filter fun name =>
    startsWith (host.nameIdentity name) (host.nameIdentity stem)).insertionSort (· ≤ ·)

/-- One entry of the allowlist. -/
def expandEntry (names : List PyText) (state : List PyText × List PatternExpansion)
    (entry : PyText) : List PyText × List PatternExpansion :=
  match envPatternPrefix entry with
  | none => (addName host state.1 (actualName host names entry), state.2)
  | some stem =>
      let matched := matchedNames host names stem
      let kept := matched.filter fun name => !isSensitiveKey name
      (kept.foldl (addName host) state.1, state.2 ++ [⟨entry, kept, matched.filter isSensitiveKey⟩])

/-- `expand_allowed_environment`. -/
def expandAllowedEnvironment (entries names : List PyText) :
    List PyText × List PatternExpansion :=
  entries.foldl (expandEntry host names) ([], [])

/-- `_allowlisted_names`, for a child of an agent. -/
def allowlistedNames (policy : EnvPolicy) (names : List PyText) : List PyText :=
  let explicit := (policy.allowedEnvironment.filter fun entry =>
    (envPatternPrefix entry).isNone).map host.nameIdentity
  let withheld := (host.envFileNames.map host.nameIdentity).filter fun name => name ∉ explicit
  (expandAllowedEnvironment host policy.allowedEnvironment names).1.filter fun name =>
    host.nameIdentity name ∉ withheld

/-! ## Assembling -/

/-- What is forwarded of an environment. -/
def forwardItems (source : Environment) (forwarded : List PyText) : Environment :=
  .ofItems (forwarded.filterMap fun name => (source.get? name).map (name, ·))

/-- One assigned variable. -/
def assign (child : Environment) (item : PyText × PyText) : Environment :=
  if host.windows then
    match child.items.reverse.find? fun other =>
        host.upperName other.1 = host.upperName item.1 with
    | some existing => child.set existing.1 item.2
    | none => child.set item.1 item.2
  else child.set item.1 item.2

/-- `_assemble`. -/
def assembleEnv (policy : EnvPolicy) (source : Environment) (forwarded : List PyText) :
    Environment :=
  policy.extraEnvironment.items.foldl (assign host) (forwardItems source forwarded)

/-- The names that a child of an agent is forwarded. -/
def forwardedNames (policy : EnvPolicy) (names : List PyText) : List PyText :=
  if policy.strictIsolation then allowlistedNames host policy names
  else
    (names.filter fun name =>
      host.nameIdentity name ∉ host.envFileNames.map host.nameIdentity).insertionSort (· ≤ ·)

/-- `build_child_env`. -/
def buildChildEnv (policy : EnvPolicy) (source : Environment) : Environment :=
  assembleEnv host policy source (forwardedNames host policy (environmentNames source))

end Building

/-! ## The redaction harvest -/

/-- `_HARVEST_EXEMPT_NAMES`. -/
def harvestExemptNames : List PyText := [ofString "PWD", ofString "OLDPWD"]

/-- `_MIN_DENIED_SECRET_LEN`. -/
def minDeniedSecretLen : Nat := 8

/-- `secret_env_values`. -/
def secretEnvValues (allowedEnvironment : List PyText) (exemptAllowlisted : Bool)
    (source : Environment) : List PyText :=
  let allowed := if exemptAllowlisted then allowedEnvironment else []
  (source.items.filter fun item =>
    item.1 ∉ allowed && item.1 ∉ harvestExemptNames && minDeniedSecretLen ≤ item.2.length &&
      isSensitiveKey item.1).map Prod.snd

/-! ## Accepted policies -/

/-- `[A-Za-z_][A-Za-z0-9_]*`. -/
def isEnvName (name : PyText) : Bool :=
  name.head?.any (fun point => !(48 ≤ point.val && point.val ≤ 57)) &&
    name.all fun point => (65 ≤ point.val && point.val ≤ 90) ||
      (97 ≤ point.val && point.val ≤ 122) ||
      (48 ≤ point.val && point.val ≤ 57) || point.val = 95

/-- `env_name_is_covered`. -/
def envNameIsCovered (entries : List PyText) (name : PyText) : Bool :=
  entries.any fun entry =>
    match envPatternPrefix entry with
    | none => entry = name
    | some stem => startsWith name stem

/-- `_validate_allowed_environment` has no issue with the entries. -/
def acceptsAllowedEnvironment (entries : List PyText) : Bool :=
  (entries.all fun entry => entry ≠ ofString "*" &&
    match envPatternPrefix entry with
    | none => 42 ∉ entry
    | some stem => isEnvName stem && !isSensitiveKey stem) &&
  envNameIsCovered entries (ofString "PATH")

/-- `_validate_extra_environment` has no issue with the names. -/
def acceptsExtraEnvironment (host : EnvHost) (names : List PyText) : Bool :=
  (names.all fun name =>
    host.upperName name ≠ ofString "PATH" && !isSensitiveKey name && isEnvName name) &&
  decide ((names.map host.upperName).Nodup)

/-- A policy that the validation of a configuration lets through. -/
structure EnvPolicy.Accepted (host : EnvHost) (policy : EnvPolicy) : Prop where
  allowed : acceptsAllowedEnvironment policy.allowedEnvironment = true
  extra : acceptsExtraEnvironment host (environmentNames policy.extraEnvironment) = true

/-! ## What a policy asks of a child -/

section Law

variable (host : EnvHost) (policy : EnvPolicy) (source : Environment)

/-- A name is assigned, up to case where names are the same up to it. -/
def IsAssigned (name : PyText) : Prop :=
  ∃ other ∈ environmentNames policy.extraEnvironment,
    host.nameIdentity other = host.nameIdentity name

/-- The env-file defines a name. -/
def DefinedInFile (name : PyText) : Prop :=
  host.nameIdentity name ∈ host.envFileNames.map host.nameIdentity

/-- A variable is held back: the child has no such name, or an assigned value for it. -/
def Withheld (name : PyText) : Prop :=
  name ∉ environmentNames (buildChildEnv host policy source) ∨ IsAssigned host policy name

/-- A name that strict isolation lets through: an exact entry, or one that a pattern matches and
that is neither secret nor defined by the env-file. -/
def IsAllowed (name : PyText) : Prop :=
  ∃ entry ∈ policy.allowedEnvironment,
    (envPatternPrefix entry = none ∧ host.nameIdentity entry = host.nameIdentity name) ∨
      ∃ stem, envPatternPrefix entry = some stem ∧
        startsWith (host.nameIdentity name) (host.nameIdentity stem) = true ∧
        isSensitiveKey name = false ∧ ¬ DefinedInFile host name

/-- The environment of a child follows the policy. -/
structure FollowsPolicy : Prop where
  strict : policy.strictIsolation = true →
    ∀ name ∈ environmentNames (buildChildEnv host policy source),
      name ∈ environmentNames policy.extraEnvironment ∨
        (name ∈ environmentNames source ∧ IsAllowed host policy name)
  advanced : policy.strictIsolation = false → ∀ name,
    host.nameIdentity name ∈
        (environmentNames (buildChildEnv host policy source)).map host.nameIdentity ↔
      IsAssigned host policy name ∨
        (∃ other ∈ environmentNames source, host.nameIdentity other = host.nameIdentity name ∧
          ¬ DefinedInFile host other)
  forwarded : ∀ name ∈ environmentNames (buildChildEnv host policy source),
    ¬ IsAssigned host policy name → (buildChildEnv host policy source).get? name = source.get? name
  assigned : ∀ item ∈ policy.extraEnvironment.items,
    ∃ name, host.nameIdentity name = host.nameIdentity item.1 ∧
      (buildChildEnv host policy source).get? name = some item.2
  distinct : ((environmentNames (buildChildEnv host policy source)).map host.nameIdentity).Nodup
  harvested : ∀ item ∈ source.items, isSensitiveKey item.1 = true → item.1 ∉ harvestExemptNames →
    minDeniedSecretLen ≤ item.2.length → Withheld host policy source item.1 →
      item.2 ∈ secretEnvValues policy.allowedEnvironment policy.strictIsolation source
  independent : ∀ other : Environment, environmentNames other = environmentNames source →
    (∀ name ∈ environmentNames source, ¬ Withheld host policy source name →
      other.get? name = source.get? name) →
        buildChildEnv host policy other = buildChildEnv host policy source

end Law

/-! ## Assigning -/

section Assigning

variable {host : EnvHost} {child other : Environment} {name key : PyText} {item : PyText × PyText}

/-- The spelling under which a name is assigned. -/
def spelledIn (host : EnvHost) (names : List PyText) (name : PyText) : PyText :=
  (names.reverse.find? fun other => host.nameIdentity other = host.nameIdentity name).getD name

theorem nameIdentity_spelledIn (host : EnvHost) (names : List PyText) (name : PyText) :
    host.nameIdentity (spelledIn host names name) = host.nameIdentity name := by
  rw [spelledIn]
  cases found : names.reverse.find? fun other =>
      host.nameIdentity other = host.nameIdentity name with
  | none => rfl
  | some other =>
      have same := List.find?_some found
      rw [decide_eq_true_eq] at same
      exact same

/-- A name that is assigned stands where it stood, or is new. -/
theorem spelledIn_cases (host : EnvHost) (names : List PyText) (name : PyText) :
    spelledIn host names name ∈ names ∨
      (spelledIn host names name = name ∧
        ∀ other ∈ names, host.nameIdentity other ≠ host.nameIdentity name) := by
  rw [spelledIn]
  cases found : names.reverse.find? fun other =>
      host.nameIdentity other = host.nameIdentity name with
  | some other => exact .inl (List.mem_reverse.mp (List.mem_of_find?_eq_some found))
  | none =>
      refine .inr ⟨rfl, fun other among same => ?_⟩
      have unlike := List.find?_eq_none.mp found other (List.mem_reverse.mpr among)
      exact unlike (decide_eq_true same)

/-- Both rules assign under the spelling that is there. -/
theorem assign_eq : assign host child item =
    child.set (spelledIn host (environmentNames child) item.1) item.2 := by
  rw [assign]
  by_cases windows : host.windows = true
  · have identity : ∀ name, host.nameIdentity name = host.upperName name := fun _ => if_pos windows
    have found : spelledIn host (environmentNames child) item.1 =
        ((child.items.reverse.find? fun other =>
          host.upperName other.1 = host.upperName item.1).map Prod.fst).getD item.1 := by
      simp only [spelledIn, environmentNames, identity, ← List.map_reverse, List.find?_map]
      rfl
    rw [if_pos windows, found]
    cases child.items.reverse.find? fun other => host.upperName other.1 = host.upperName item.1 with
    | none => rfl
    | some existing => rfl
  · have same := nameIdentity_spelledIn host (environmentNames child) item.1
    rw [EnvHost.nameIdentity, EnvHost.nameIdentity, if_neg windows, if_neg windows] at same
    rw [if_neg windows, same]

/-- No two names of an environment are the same. -/
def DistinctNames (host : EnvHost) (names : List PyText) : Prop :=
  (names.map host.nameIdentity).Nodup

theorem DistinctNames.eq {names : List PyText} (distinct : DistinctNames host names)
    (first : name ∈ names) (second : key ∈ names)
    (same : host.nameIdentity name = host.nameIdentity key) : name = key :=
  List.inj_on_of_nodup_map distinct first second same

theorem DistinctNames.of_subset {names others : List PyText} (distinct : DistinctNames host names)
    (nodup : others.Nodup)
    (subset : ∀ name ∈ others, name ∈ names) : DistinctNames host others := by
  refine List.Nodup.map_on ?_ nodup
  exact fun first among second here same =>
    distinct.eq (subset first among) (subset second here) same

theorem mem_names_assign : name ∈ environmentNames (assign host child item) ↔
    name = spelledIn host (environmentNames child) item.1 ∨ name ∈ environmentNames child := by
  rw [assign_eq]
  exact OrderedDict.mem_keys_set

/-- A name is only added where there was none. -/
theorem names_assign : environmentNames (assign host child item) =
    if spelledIn host (environmentNames child) item.1 ∈ environmentNames child
    then environmentNames child
    else environmentNames child ++ [spelledIn host (environmentNames child) item.1] := by
  by_cases among : spelledIn host (environmentNames child) item.1 ∈ environmentNames child
  · rw [if_pos among, assign_eq]
    exact OrderedDict.keys_set.trans (if_pos among)
  · rw [if_neg among, assign_eq]
    exact OrderedDict.keys_set.trans (if_neg among)

theorem distinctNames_assign (distinct : DistinctNames host (environmentNames child)) :
    DistinctNames host (environmentNames (assign host child item)) := by
  rw [names_assign]
  split
  · exact distinct
  · next fresh =>
      have apart := (spelledIn_cases host (environmentNames child) item.1).resolve_left fresh
      rw [DistinctNames, List.map_append, List.map_singleton]
      refine List.Nodup.append distinct (List.nodup_singleton _) ?_
      intro identity among new
      obtain ⟨other, listed, rfl⟩ := List.mem_map.mp among
      rw [List.mem_singleton, nameIdentity_spelledIn] at new
      exact apart.2 other listed new

/-- Other names keep their values. -/
theorem get?_assign_of_ne (apart : host.nameIdentity name ≠ host.nameIdentity item.1) :
    (assign host child item).get? name = child.get? name := by
  rw [assign_eq, OrderedDict.get?_set, if_neg]
  rintro rfl
  exact apart (nameIdentity_spelledIn _ _ _)

theorem get?_assign_spelledIn :
    (assign host child item).get? (spelledIn host (environmentNames child) item.1) =
      some item.2 := by
  rw [assign_eq, OrderedDict.get?_set, if_pos rfl]

/-! ### All assignments -/

variable {items : List (PyText × PyText)}

theorem mem_names_foldl_assign (among : name ∈ environmentNames child) :
    name ∈ environmentNames (items.foldl (assign host) child) := by
  induction items generalizing child with
  | nil => exact among
  | cons item items ih => exact ih (mem_names_assign.mpr (.inr among))

/-- A name of the child was there or is assigned. -/
theorem names_foldl_assign (among : name ∈ environmentNames (items.foldl (assign host) child)) :
    name ∈ environmentNames child ∨ name ∈ items.map Prod.fst := by
  induction items generalizing child with
  | nil => exact .inl among
  | cons item items ih =>
      rcases ih among with before | later
      · rcases mem_names_assign.mp before with rfl | old
        · rcases spelledIn_cases host (environmentNames child) item.1 with here | ⟨new, -⟩
          · exact .inl here
          · exact .inr (List.mem_cons.mpr (.inl new))
        · exact .inl old
      · exact .inr (List.mem_cons_of_mem _ later)

theorem distinctNames_foldl_assign (distinct : DistinctNames host (environmentNames child)) :
    DistinctNames host (environmentNames (items.foldl (assign host) child)) := by
  induction items generalizing child with
  | nil => exact distinct
  | cons item items ih => exact ih (distinctNames_assign distinct)

theorem get?_foldl_assign_of_ne
    (apart : ∀ item ∈ items, host.nameIdentity item.1 ≠ host.nameIdentity name) :
    (items.foldl (assign host) child).get? name = child.get? name := by
  induction items generalizing child with
  | nil => rfl
  | cons item items ih =>
      obtain ⟨here, later⟩ := List.forall_mem_cons.mp apart
      rw [List.foldl_cons, ih later, get?_assign_of_ne (Ne.symm here)]

/-- What is assigned is there, under the name or another spelling of it. -/
theorem exists_get?_foldl_assign (distinct : DistinctNames host (items.map Prod.fst))
    (among : item ∈ items) : ∃ name, host.nameIdentity name = host.nameIdentity item.1 ∧
      (items.foldl (assign host) child).get? name = some item.2 := by
  induction items generalizing child with
  | nil => cases among
  | cons first items ih =>
      obtain ⟨fresh, others⟩ := List.nodup_cons.mp distinct
      rcases List.mem_cons.mp among with rfl | later
      · refine ⟨spelledIn host (environmentNames child) item.1, nameIdentity_spelledIn _ _ _, ?_⟩
        rw [List.foldl_cons, get?_foldl_assign_of_ne, get?_assign_spelledIn]
        intro other listed same
        rw [nameIdentity_spelledIn] at same
        exact fresh (same ▸ List.mem_map_of_mem (List.mem_map_of_mem listed))
      · exact ih others later

/-- Environments of the same names that differ in assigned values only become the same. -/
theorem foldl_assign_congr (distinct : DistinctNames host (environmentNames child))
    (names : environmentNames other = environmentNames child)
    (values : ∀ name ∈ environmentNames child,
      (∀ item ∈ items, host.nameIdentity item.1 ≠ host.nameIdentity name) →
        other.get? name = child.get? name) :
    items.foldl (assign host) other = items.foldl (assign host) child := by
  induction items generalizing child other with
  | nil =>
      refine OrderedDict.eq_of_get? names fun name among => ?_
      exact values name (names ▸ among) fun _ none => absurd none List.not_mem_nil
  | cons item items ih =>
      apply ih (distinctNames_assign distinct)
      · rw [names_assign, names_assign, names]
      · intro name among apart
        by_cases same : host.nameIdentity name = host.nameIdentity item.1
        · have spelled : name = spelledIn host (environmentNames child) item.1 := by
            have apart : DistinctNames host (environmentNames (assign host child item)) :=
              distinctNames_assign distinct
            apply apart.eq among
            · exact mem_names_assign.mpr (.inl rfl)
            · rw [same, nameIdentity_spelledIn]
          have here : (assign host other item).get?
              (spelledIn host (environmentNames other) item.1) = some item.2 :=
                get?_assign_spelledIn
          rw [names] at here
          rw [spelled, here, get?_assign_spelledIn]
        · rw [get?_assign_of_ne same, get?_assign_of_ne same]
          have old : name ∈ environmentNames child := by
            rcases mem_names_assign.mp among with rfl | old
            · exact absurd (nameIdentity_spelledIn _ _ _) same
            · exact old
          refine values name old ?_
          exact List.forall_mem_cons.mpr ⟨Ne.symm same, apart⟩

end Assigning

/-! ## Forwarding -/

section Forwarding

variable {source other : Environment} {forwarded : List PyText} {name : PyText}

/-- One more name is forwarded when the environment has it. -/
theorem forwardItems_append (source : Environment) (forwarded : List PyText) (last : PyText) :
    forwardItems source (forwarded ++ [last]) = match source.get? last with
      | some value => (forwardItems source forwarded).set last value
      | none => forwardItems source forwarded := by
  rw [forwardItems, forwardItems, List.filterMap_append, OrderedDict.ofItems, OrderedDict.ofItems,
    List.foldl_append]
  cases known : source.get? last with
  | none => simp [known]
  | some value => simp [known]

/-- A name that is forwarded keeps its value. -/
theorem get?_forwardItems : (forwardItems source forwarded).get? name =
    if name ∈ forwarded then source.get? name else none := by
  induction forwarded using List.reverseRecOn with
  | nil => rfl
  | append_singleton front last ih =>
      rw [forwardItems_append]
      by_cases same : name = last
      · rw [if_pos (List.mem_append_right _ (List.mem_singleton.mpr same)), same]
        cases known : source.get? last with
        | none =>
            rw [same, known, ite_self] at ih
            exact ih
        | some value => exact (OrderedDict.get?_set _ _ _ _).trans (if_pos rfl)
      · have later : name ∈ front ++ [last] ↔ name ∈ front := by simp [same]
        rw [if_congr later rfl rfl, ← ih]
        cases source.get? last with
        | none => rfl
        | some value => exact (OrderedDict.get?_set _ _ _ _).trans (if_neg same)

theorem mem_names_forwardItems : name ∈ environmentNames (forwardItems source forwarded) ↔
    name ∈ forwarded ∧ name ∈ environmentNames source := by
  have here : name ∈ environmentNames (forwardItems source forwarded) ↔
      ∃ value, (forwardItems source forwarded).get? name = some value := OrderedDict.mem_keys_iff
  have there : name ∈ environmentNames source ↔ ∃ value, source.get? name = some value :=
    OrderedDict.mem_keys_iff
  rw [get?_forwardItems] at here
  by_cases among : name ∈ forwarded
  · rw [if_pos among, ← there] at here
    exact here.trans (and_iff_right among).symm
  · rw [if_neg among] at here
    refine iff_of_false (fun known => ?_) fun both => among both.1
    obtain ⟨value, absent⟩ := here.mp known
    cases absent

theorem distinctNames_forwardItems {host : EnvHost}
    (distinct : DistinctNames host (environmentNames source)) :
    DistinctNames host (environmentNames (forwardItems source forwarded)) := by
  apply distinct.of_subset (forwardItems source forwarded).distinct
  exact fun name among => (mem_names_forwardItems.mp among).2

/-- Environments of the same names forward the same names. -/
theorem names_forwardItems_congr (names : environmentNames other = environmentNames source) :
    environmentNames (forwardItems other forwarded) =
      environmentNames (forwardItems source forwarded) := by
  induction forwarded using List.reverseRecOn with
  | nil => rfl
  | append_singleton front last ih =>
      rw [forwardItems_append, forwardItems_append]
      have known : (∃ value, other.get? last = some value) ↔
          ∃ value, source.get? last = some value := by
        rw [← OrderedDict.mem_keys_iff, ← OrderedDict.mem_keys_iff]
        exact iff_of_eq (congrArg (last ∈ ·) names)
      cases here : other.get? last with
      | none =>
          cases there : source.get? last with
          | none => exact ih
          | some value =>
              obtain ⟨found, absent⟩ := known.mpr ⟨value, there⟩
              exact absurd (here.symm.trans absent) (by simp)
      | some value =>
          obtain ⟨found, there⟩ := known.mp ⟨value, here⟩
          rw [there]
          exact OrderedDict.keys_set_congr ih

end Forwarding

/-! ## Expanding -/

section Expanding

variable {host : EnvHost} {names effective kept entries : List PyText} {name entry stem : PyText}
  {state : List PyText × List PatternExpansion}

theorem mem_addName {other : PyText} (among : other ∈ addName host effective name) :
    other ∈ effective ∨ other = name := by
  rw [addName] at among
  split at among
  · exact .inl among
  · exact (List.mem_append.mp among).imp_right List.mem_singleton.mp

theorem subset_addName {other : PyText} (among : other ∈ effective) :
    other ∈ addName host effective name := by
  rw [addName]
  split
  · exact among
  · exact List.mem_append_left _ among

/-- A name that is added is there, in some spelling. -/
theorem nameIdentity_mem_addName :
    host.nameIdentity name ∈ (addName host effective name).map host.nameIdentity := by
  rw [addName]
  split
  · next among => exact among
  · exact List.mem_map_of_mem (List.mem_append_right _ (List.mem_singleton.mpr rfl))

theorem mem_foldl_addName {other : PyText} (among : other ∈ kept.foldl (addName host) effective) :
    other ∈ effective ∨ other ∈ kept := by
  induction kept generalizing effective with
  | nil => exact .inl among
  | cons name kept ih =>
      rcases ih among with before | later
      · apply (mem_addName before).imp_right
        rintro rfl
        exact List.mem_cons_self
      · exact .inr (List.mem_cons_of_mem _ later)

theorem subset_foldl_addName {other : PyText} (among : other ∈ effective) :
    other ∈ kept.foldl (addName host) effective := by
  induction kept generalizing effective with
  | nil => exact among
  | cons name kept ih => exact ih (subset_addName among)

/-- A plain entry stands in the spelling that the environment has of it. -/
theorem actualName_eq : actualName host names entry = spelledIn host names entry := by
  rw [actualName, spelledIn]
  by_cases windows : host.windows = true
  · have identity : ∀ name, host.nameIdentity name = host.upperName name := fun _ => if_pos windows
    simp only [if_pos windows, identity]
  · have identity : ∀ name, host.nameIdentity name = name := fun _ => if_neg windows
    simp only [if_neg windows, identity]
    cases found : names.reverse.find? fun other => decide (other = entry) with
    | none => rfl
    | some other =>
        have same := List.find?_some found
        exact (of_decide_eq_true same).symm

/-- What an entry of the allowlist stands for. -/
def Expands (host : EnvHost) (names : List PyText) (entry name : PyText) : Prop :=
  (envPatternPrefix entry = none ∧ name = spelledIn host names entry) ∨
    ∃ stem, envPatternPrefix entry = some stem ∧ name ∈ names ∧ isSensitiveKey name = false ∧
      startsWith (host.nameIdentity name) (host.nameIdentity stem) = true

theorem mem_expandEntry (among : name ∈ (expandEntry host names state entry).1) :
    name ∈ state.1 ∨ Expands host names entry name := by
  rw [expandEntry] at among
  cases shape : envPatternPrefix entry with
  | none =>
      rw [shape] at among
      apply (mem_addName among).imp_right
      exact fun same => .inl ⟨shape, same.trans actualName_eq⟩
  | some stem =>
      rw [shape] at among
      apply (mem_foldl_addName among).imp_right
      intro listed
      obtain ⟨matched, plain⟩ := List.mem_filter.mp listed
      obtain ⟨known, starts⟩ := List.mem_filter.mp (List.mem_insertionSort (· ≤ ·) |>.mp matched)
      exact .inr ⟨stem, shape, known, by simpa using plain, starts⟩

theorem subset_expandEntry (among : name ∈ state.1) :
    name ∈ (expandEntry host names state entry).1 := by
  rw [expandEntry]
  cases envPatternPrefix entry with
  | none => exact subset_addName among
  | some stem => exact subset_foldl_addName among

/-- Every name that is expanded stands for an entry. -/
theorem mem_foldl_expandEntry (among : name ∈ (entries.foldl (expandEntry host names) state).1) :
    name ∈ state.1 ∨ ∃ entry ∈ entries, Expands host names entry name := by
  induction entries generalizing state with
  | nil => exact .inl among
  | cons first entries ih =>
      rcases ih among with before | ⟨entry, listed, expands⟩
      · apply (mem_expandEntry before).imp_right
        exact fun expands => ⟨first, List.mem_cons_self, expands⟩
      · exact .inr ⟨entry, List.mem_cons_of_mem _ listed, expands⟩

theorem subset_foldl_expandEntry (among : name ∈ state.1) :
    name ∈ (entries.foldl (expandEntry host names) state).1 := by
  induction entries generalizing state with
  | nil => exact among
  | cons first entries ih => exact ih (subset_expandEntry among)

/-- A plain entry is expanded, in some spelling. -/
theorem exists_foldl_expandEntry (listed : entry ∈ entries)
    (plain : envPatternPrefix entry = none) :
    ∃ name ∈ (entries.foldl (expandEntry host names) state).1,
      host.nameIdentity name = host.nameIdentity entry := by
  induction entries generalizing state with
  | nil => cases listed
  | cons first entries ih =>
      rcases List.mem_cons.mp listed with rfl | later
      · have added : host.nameIdentity (actualName host names entry) ∈
            ((expandEntry host names state entry).1).map host.nameIdentity := by
          rw [expandEntry, plain]
          exact nameIdentity_mem_addName
        obtain ⟨name, among, same⟩ := List.mem_map.mp added
        have later : name ∈ (entries.foldl (expandEntry host names)
            (expandEntry host names state entry)).1 := subset_foldl_expandEntry among
        refine ⟨name, later, ?_⟩
        rw [same, actualName_eq, nameIdentity_spelledIn]
      · exact ih later

/-- A name that the environment has as an entry spells it is expanded as it stands there. -/
theorem mem_expandAllowedEnvironment (distinct : DistinctNames host names)
    (listed : entry ∈ entries) (plain : envPatternPrefix entry = none) (known : entry ∈ names) :
    entry ∈ (expandAllowedEnvironment host entries names).1 := by
  obtain ⟨name, among, same⟩ : ∃ name ∈ (expandAllowedEnvironment host entries names).1,
      host.nameIdentity name = host.nameIdentity entry := exists_foldl_expandEntry listed plain
  have here : name ∈ names := by
    rcases mem_foldl_expandEntry among with none | ⟨other, -, ⟨-, spelled⟩ | ⟨_, -, here, -⟩⟩
    · cases none
    · rcases spelledIn_cases host names other with here | ⟨-, apart⟩
      · exact spelled ▸ here
      · rw [spelled, nameIdentity_spelledIn] at same
        exact absurd same.symm (apart entry known)
    · exact here
  exact distinct.eq here known same ▸ among

end Expanding

/-! ## Secret names up to case -/

section SecretNames

variable {host : EnvHost} {name other entry stem : PyText}

/-- Letters of ASCII that are the same in upper case are the same in lower case. -/
theorem foldCase_eq_of_upperAscii {first second : CodePoint} (ascii : first.val < 128)
    (asciiToo : second.val < 128) (same : EnvHost.upperAscii first = EnvHost.upperAscii second) :
    foldCase first = foldCase second := by
  have values := congrArg Fin.val same
  apply Fin.ext
  simp only [EnvHost.upperAscii] at values
  simp only [foldCase]
  split_ifs at values ⊢ <;> simp_all <;> omega

theorem upperName_of_ascii (ascii : ∀ point ∈ name, point.val < 128) :
    host.upperName name = name.map EnvHost.upperAscii := by
  rw [EnvHost.upperName, ← List.flatMap_pure_eq_map]
  exact List.flatMap_congr fun point among => if_pos (ascii point among)

theorem lowerName_of_ascii (ascii : ∀ point ∈ name, point.val < 128) :
    lowerName name = name.map foldCase := by
  rw [lowerName, ← List.flatMap_pure_eq_map]
  refine List.flatMap_congr fun point among => ?_
  have small := ascii point among
  rw [if_neg (by omega), if_neg (by omega)]
  rfl

/-- Names of ASCII that are the same in upper case are both secret or neither is. -/
theorem isSensitiveKey_eq_of_upperName (ascii : ∀ point ∈ name, point.val < 128)
    (asciiToo : ∀ point ∈ other, point.val < 128)
    (same : host.upperName name = host.upperName other) :
    isSensitiveKey name = isSensitiveKey other := by
  rw [upperName_of_ascii ascii, upperName_of_ascii asciiToo] at same
  have lowered : name.map foldCase = other.map foldCase := by
    induction name generalizing other with
    | nil => rw [List.map_eq_nil_iff.mp same.symm]
    | cons point name ih =>
        cases other with
        | nil => cases same
        | cons front other =>
            obtain ⟨here, ascii⟩ := List.forall_mem_cons.mp ascii
            obtain ⟨there, asciiToo⟩ := List.forall_mem_cons.mp asciiToo
            obtain ⟨heads, tails⟩ := List.cons.inj same
            rw [List.map_cons, List.map_cons, ih ascii asciiToo tails,
              foldCase_eq_of_upperAscii here there heads]
  rw [isSensitiveKey, isSensitiveKey, lowerName_of_ascii ascii, lowerName_of_ascii asciiToo,
    lowered]

theorem ascii_of_isEnvName (shape : isEnvName name = true) : ∀ point ∈ name, point.val < 128 := by
  intro point among
  rw [isEnvName, Bool.and_eq_true, List.all_eq_true] at shape
  have letter := shape.2 point among
  simp only [Bool.or_eq_true, Bool.and_eq_true, decide_eq_true_eq] at letter
  omega

theorem ascii_upperName (ascii : ∀ point ∈ name, point.val < 128) :
    ∀ point ∈ host.upperName name, point.val < 128 := by
  rw [upperName_of_ascii ascii]
  intro point among
  obtain ⟨letter, listed, rfl⟩ := List.mem_map.mp among
  have small := ascii letter listed
  rw [EnvHost.upperAscii]
  split
  · exact Nat.lt_of_le_of_lt (Nat.sub_le _ _) small
  · exact small

theorem eq_of_envPatternPrefix (shape : envPatternPrefix entry = some stem) :
    entry = stem ++ ofString "*" := by
  rw [envPatternPrefix] at shape
  split at shape
  · cases shape
  · split at shape
    · next ends =>
        obtain ⟨front, rfl⟩ := List.isSuffixOf_iff_suffix.mp ends
        have front_eq : (front ++ ofString "*").dropLast = front := List.dropLast_concat
        rw [front_eq] at shape
        exact congrArg (· ++ ofString "*") (Option.some.inj shape)
    · cases shape

/-- A pattern names a secret when its stem does. -/
theorem isSensitiveKey_append_star (stem : PyText) :
    isSensitiveKey (stem ++ ofString "*") = isSensitiveKey stem := by
  have star : lowerName (stem ++ ofString "*") = lowerName stem ++ 42 :: [] := by
    rw [lowerName, List.flatMap_append]
    rfl
  have other : (!isLowerAlnum 42) = true := rfl
  rw [isSensitiveKey, star, List.splitOnP_append_cons (lowerName stem) [] other, List.any_append,
    List.splitOnP_nil, List.any_cons, List.any_nil]
  have empty : decide (([] : PyText) ∈ sensitiveSegments) = false := by decide +kernel
  rw [empty, Bool.or_false, Bool.or_false]
  rfl

end SecretNames

/-! ## The law of the child environment -/

section ChildLaw

variable {host : EnvHost} {policy : EnvPolicy} {source : Environment} {name : PyText}

theorem mem_forwardedNames_advanced (advanced : policy.strictIsolation = false)
    {names : List PyText} : name ∈ forwardedNames host policy names ↔
      name ∈ names ∧ ¬ DefinedInFile host name := by
  rw [forwardedNames, advanced, if_neg Bool.false_ne_true, List.mem_insertionSort, List.mem_filter,
    decide_eq_true_eq]
  rfl

/-- A name that strict isolation forwards is allowed. -/
theorem isAllowed_of_mem_allowlistedNames {names : List PyText}
    (among : name ∈ allowlistedNames host policy names) : IsAllowed host policy name := by
  obtain ⟨expanded, kept⟩ := List.mem_filter.mp among
  rcases mem_foldl_expandEntry expanded with none | ⟨entry, listed, ⟨plain, rfl⟩ | found⟩
  · cases none
  · exact ⟨entry, listed, .inl ⟨plain, (nameIdentity_spelledIn _ _ _).symm⟩⟩
  · obtain ⟨stem, shape, -, harmless, starts⟩ := found
    by_cases inFile : DefinedInFile host name
    · -- Only an exact entry forwards a name that the env-file defines.
      have explicit : host.nameIdentity name ∈ (policy.allowedEnvironment.filter fun entry =>
          (envPatternPrefix entry).isNone).map host.nameIdentity := by
        by_contra absent
        refine of_decide_eq_true kept ?_
        exact List.mem_filter.mpr ⟨inFile, decide_eq_true absent⟩
      obtain ⟨exact_entry, found, same⟩ := List.mem_map.mp explicit
      obtain ⟨listedToo, plain⟩ := List.mem_filter.mp found
      exact ⟨exact_entry, listedToo, .inl ⟨Option.isNone_iff_eq_none.mp plain, same⟩⟩
    · exact ⟨entry, listed, .inr ⟨stem, shape, starts, harmless, inFile⟩⟩

/-- An exact entry is forwarded as the environment spells it. -/
theorem mem_allowlistedNames_of_plain {names : List PyText} (distinct : DistinctNames host names)
    (listed : name ∈ policy.allowedEnvironment) (plain : envPatternPrefix name = none)
    (known : name ∈ names) : name ∈ allowlistedNames host policy names := by
  refine List.mem_filter.mpr ⟨mem_expandAllowedEnvironment distinct listed plain known, ?_⟩
  refine decide_eq_true fun withheld => ?_
  refine of_decide_eq_true (List.mem_filter.mp withheld).2 ?_
  apply List.mem_map_of_mem
  exact List.mem_filter.mpr ⟨listed, Option.isNone_iff_eq_none.mpr plain⟩

/-- A name of the child is assigned, or forwarded from the parent. -/
theorem mem_names_buildChildEnv
    (among : name ∈ environmentNames (buildChildEnv host policy source)) :
    (name ∈ forwardedNames host policy (environmentNames source) ∧
        name ∈ environmentNames source) ∨
      name ∈ environmentNames policy.extraEnvironment :=
  (names_foldl_assign among).imp_left mem_names_forwardItems.mp

theorem mem_buildChildEnv_of_forwarded
    (forwarded : name ∈ forwardedNames host policy (environmentNames source))
    (known : name ∈ environmentNames source) :
    name ∈ environmentNames (buildChildEnv host policy source) :=
  mem_names_foldl_assign (mem_names_forwardItems.mpr ⟨forwarded, known⟩)

/-- A name that is not assigned has the value of the parent. -/
theorem get?_buildChildEnv_of_not_assigned (free : ¬ IsAssigned host policy name) :
    (buildChildEnv host policy source).get? name =
      (forwardItems source (forwardedNames host policy (environmentNames source))).get? name := by
  apply get?_foldl_assign_of_ne
  exact fun item among same => free ⟨item.1, List.mem_map_of_mem among, same⟩

theorem EnvPolicy.Accepted.distinctNames (accepted : policy.Accepted host) :
    DistinctNames host (environmentNames policy.extraEnvironment) := by
  have upper := accepted.extra
  rw [acceptsExtraEnvironment, Bool.and_eq_true, decide_eq_true_eq] at upper
  by_cases windows : host.windows = true
  · have identity : host.nameIdentity = host.upperName := funext fun _ => if_pos windows
    rw [DistinctNames, identity]
    exact upper.2
  · have identity : host.nameIdentity = id := funext fun _ => if_neg windows
    rw [DistinctNames, identity, List.map_id]
    exact policy.extraEnvironment.distinct

/-- An accepted policy assigns no secret name, in any spelling. -/
theorem EnvPolicy.Accepted.not_isAssigned (accepted : policy.Accepted host)
    (spelled : host.windows = true →
      (∀ point ∈ name, point.val < 128) ∨ host.upperName name = name)
    (sensitive : isSensitiveKey name = true) : ¬ IsAssigned host policy name := by
  rintro ⟨other, among, same⟩
  have upper := accepted.extra
  rw [acceptsExtraEnvironment, Bool.and_eq_true, List.all_eq_true] at upper
  have fine := upper.1 other among
  simp only [Bool.and_eq_true, Bool.not_eq_true'] at fine
  obtain ⟨⟨-, harmless⟩, shape⟩ := fine
  have ascii := ascii_of_isEnvName shape
  by_cases windows : host.windows = true
  · rw [EnvHost.nameIdentity, EnvHost.nameIdentity, if_pos windows, if_pos windows] at same
    have asciiToo : ∀ point ∈ name, point.val < 128 := by
      rcases spelled windows with asciiToo | fixed
      · exact asciiToo
      · rw [fixed] at same
        exact same ▸ ascii_upperName ascii
    rw [isSensitiveKey_eq_of_upperName ascii asciiToo same, sensitive] at harmless
    cases harmless
  · rw [EnvHost.nameIdentity, EnvHost.nameIdentity, if_neg windows, if_neg windows] at same
    rw [same, sensitive] at harmless
    cases harmless

/-- An accepted policy has no secret pattern: a secret entry is an exact one. -/
theorem EnvPolicy.Accepted.plain_of_sensitive (accepted : policy.Accepted host)
    (listed : name ∈ policy.allowedEnvironment) (sensitive : isSensitiveKey name = true) :
    envPatternPrefix name = none := by
  have allowed := accepted.allowed
  rw [acceptsAllowedEnvironment, Bool.and_eq_true, List.all_eq_true] at allowed
  have fine := allowed.1 name listed
  cases shape : envPatternPrefix name with
  | none => rfl
  | some stem =>
      rw [eq_of_envPatternPrefix shape, isSensitiveKey_append_star] at sensitive
      simp [shape, sensitive] at fine

/-- Every secret of the parent that is held back is harvested. -/
theorem mem_secretEnvValues (accepted : policy.Accepted host)
    (distinct : DistinctNames host (environmentNames source)) {item : PyText × PyText}
    (spelled : host.windows = true →
      (∀ point ∈ item.1, point.val < 128) ∨ host.upperName item.1 = item.1)
    (among : item ∈ source.items) (sensitive : isSensitiveKey item.1 = true)
    (counted : item.1 ∉ harvestExemptNames) (long : minDeniedSecretLen ≤ item.2.length)
    (withheld : Withheld host policy source item.1) :
    item.2 ∈ secretEnvValues policy.allowedEnvironment policy.strictIsolation source := by
  refine List.mem_map_of_mem (List.mem_filter.mpr ⟨among, ?_⟩)
  have unlisted : item.1 ∉ if policy.strictIsolation then policy.allowedEnvironment else [] := by
    by_cases strict : policy.strictIsolation = true
    · rw [if_pos strict]
      intro listed
      have known : item.1 ∈ environmentNames source := List.mem_map_of_mem among
      have forwarded : item.1 ∈ forwardedNames host policy (environmentNames source) := by
        rw [forwardedNames, if_pos strict]
        exact mem_allowlistedNames_of_plain distinct listed
          (accepted.plain_of_sensitive listed sensitive) known
      rcases withheld with absent | assigned
      · exact absent (mem_buildChildEnv_of_forwarded forwarded known)
      · exact accepted.not_isAssigned spelled sensitive assigned
    · rw [if_neg strict]
      exact List.not_mem_nil
  simp [unlisted, counted, long, sensitive]

/-- The values of the parent reach the child only under names that are not held back. -/
theorem buildChildEnv_congr (distinct : DistinctNames host (environmentNames source))
    {other : Environment} (names : environmentNames other = environmentNames source)
    (values : ∀ name ∈ environmentNames source, ¬ Withheld host policy source name →
      other.get? name = source.get? name) :
    buildChildEnv host policy other = buildChildEnv host policy source := by
  rw [buildChildEnv, names]
  refine foldl_assign_congr (distinctNames_forwardItems distinct)
    (names_forwardItems_congr names) fun name among apart => ?_
  obtain ⟨forwarded, known⟩ := mem_names_forwardItems.mp among
  rw [get?_forwardItems, get?_forwardItems, if_pos forwarded, if_pos forwarded]
  refine values name known (not_or.mpr ⟨?_, ?_⟩)
  · exact not_not.mpr (mem_buildChildEnv_of_forwarded forwarded known)
  · rintro ⟨assigned, listed, same⟩
    obtain ⟨item, present, rfl⟩ := List.mem_map.mp listed
    exact apart item present same

/-- The environment of a child follows every policy that the validation accepts. -/
theorem followsPolicy (accepted : policy.Accepted host)
    (distinct : DistinctNames host (environmentNames source))
    (spelled : host.windows = true → ∀ name ∈ environmentNames source,
      (∀ point ∈ name, point.val < 128) ∨ host.upperName name = name) :
    FollowsPolicy host policy source where
  strict strict name among := by
    rcases mem_names_buildChildEnv among with ⟨forwarded, known⟩ | assigned
    · rw [forwardedNames, if_pos strict] at forwarded
      exact .inr ⟨known, isAllowed_of_mem_allowlistedNames forwarded⟩
    · exact .inl assigned
  advanced advanced name := by
    constructor
    · intro among
      obtain ⟨other, here, same⟩ := List.mem_map.mp among
      rcases mem_names_buildChildEnv here with ⟨forwarded, known⟩ | assigned
      · exact .inr ⟨other, known, same, ((mem_forwardedNames_advanced advanced).mp forwarded).2⟩
      · exact .inl ⟨other, assigned, same⟩
    · rintro (⟨other, assigned, same⟩ | ⟨other, known, same, outside⟩)
      · obtain ⟨item, among, rfl⟩ := List.mem_map.mp assigned
        obtain ⟨found, spelling, value⟩ := exists_get?_foldl_assign accepted.distinctNames among
        rw [← same, ← spelling]
        exact List.mem_map_of_mem (OrderedDict.mem_keys_iff.mpr ⟨item.2, value⟩)
      · rw [← same]
        apply List.mem_map_of_mem
        exact mem_buildChildEnv_of_forwarded
          ((mem_forwardedNames_advanced advanced).mpr ⟨known, outside⟩) known
  forwarded name among free := by
    rcases mem_names_buildChildEnv among with ⟨forwarded, known⟩ | assigned
    · rw [get?_buildChildEnv_of_not_assigned free, get?_forwardItems, if_pos forwarded]
    · exact absurd ⟨name, assigned, rfl⟩ free
  assigned item among := exists_get?_foldl_assign accepted.distinctNames among
  distinct := distinctNames_foldl_assign (distinctNames_forwardItems distinct)
  harvested item among sensitive counted long withheld :=
    mem_secretEnvValues accepted distinct
      (fun windows => spelled windows item.1 (List.mem_map_of_mem among)) among sensitive counted
      long withheld
  independent _ names values := buildChildEnv_congr distinct names values

/-- A secret that a pattern does not let through, on a host where names are the same up to case. -/
theorem followsPolicy_nuget :
    FollowsPolicy ⟨true, fun point => [point], [ofString "NUGET_TRACE"]⟩
      ⟨true, [ofString "Path*", ofString "PATH", ofString "NUGET_*"],
        .ofItems [(ofString "EDITOR", ofString "vi")]⟩
      (.ofItems [(ofString "PATH", ofString "/bin"), (ofString "NUGET_TRACE", ofString "1"),
        (ofString "NUGET_API_KEY", ofString "0123456789")]) :=
  followsPolicy ⟨by decide +kernel, by decide +kernel⟩
    (show (List.map _ _).Nodup by decide +kernel) (by
      intro _ name among
      right
      revert name
      decide +kernel)

end ChildLaw

end Orchestrator.Security
