import Orchestrator.Flow.ControlTree
import Orchestrator.Foundation.LinkTree

/-! # Tool names among links

The tools directory as a tree with symbolic links, and the rules of either platform. A name is
checked to lead inside of the directory as it is; what is launched is the first of its candidates
that leads to a launchable file.
-/

namespace Orchestrator.Flow

open Orchestrator.Foundation PyText PathParts

/-- How a platform reads the text of a path: whether it starts at a root, and its parts. -/
structure PathGrammar where
  isAbsolute : PyText → Bool
  parts : PyText → List PyText

def PathGrammar.posix : PathGrammar := ⟨PathParts.isAbsolute, PathParts.parts⟩

/-- The turn of a part. -/
def turnOf (part : PyText) : PathTurn PyText := if part = ofString ".." then .up else .into part

/-- A tree with a tools directory, and a platform. -/
structure ToolTree where
  tree : LinkTree PyText
  dir : List PyText
  grammar : PathGrammar
  windows : Bool

/-- Why a tool name does not resolve: it is refused, or links lead in a circle. -/
inductive ToolFailure where
  | refused (error : ToolResolutionError)
  | loop
  deriving DecidableEq

namespace ToolTree

variable (tools : ToolTree)

/-- `dir / text`. -/
def place (text : PyText) : List (PathTurn PyText) :=
  let turns := (tools.grammar.parts text).map turnOf
  if tools.grammar.isAbsolute text then turns else LinkTree.turns tools.dir ++ turns

/-- `dir.resolve()`. -/
def base : Option (List PyText) := tools.tree.resolve (LinkTree.turns tools.dir)

/-- `(dir / text).resolve()`. -/
def resolved (text : PyText) : Option (List PyText) := tools.tree.resolve (tools.place text)

/-- `is_file`. -/
def isFile (turns : List (PathTurn PyText)) : Bool :=
  match tools.tree.stat turns with
  | some (.file _) => true
  | _ => false

/-- `_candidate_names`. -/
def candidateNames (name : PyText) : List PyText :=
  if !tools.windows ||
      decide (lower (suffix (fileName (tools.grammar.parts name))) ∈ windowsExecutableSuffixes)
    then [name]
  else name :: windowsExecutableSuffixes.map (name ++ ·)

/-- `_is_executable`. -/
def isExecutable (path : List PyText) : Bool :=
  if tools.windows then decide (lower (suffix (fileName path)) ∈ windowsExecutableSuffixes)
  else tools.tree.stat (LinkTree.turns path) = some (.file true)

/-- Whether a path can be launched. -/
def launchable (path : List PyText) : Bool :=
  tools.isFile (LinkTree.turns path) && tools.isExecutable path

/-- The path of the first candidate that can be launched. -/
def launch : List PyText → Except ToolFailure (Option (List PyText))
  | [] => .ok none
  | candidate :: others =>
      match tools.resolved candidate with
      | none => .error .loop
      | some path => if tools.launchable path then .ok (some path) else launch others

/-- `resolve`. -/
def resolve (name : PyText) : Except ToolFailure (List PyText) :=
  if strip name = [] then .error (.refused .emptyName)
  else
    match tools.base, tools.resolved name with
    | some base, some bare =>
        if base <+: bare then
          match tools.launch (tools.candidateNames name) with
          | .error failure => .error failure
          | .ok (some path) => .ok path
          | .ok none =>
              if tools.isFile (LinkTree.turns bare) then .error (.refused (.notExecutable name))
              else .error (.refused (.notFound name))
        else .error (.refused (.outside name))
    | _, _ => .error .loop

/-- `existing_candidates`. -/
def existingCandidates (name : PyText) : Except ToolFailure (List (List (PathTurn PyText))) :=
  match tools.resolve name with
  | .error failure => .error failure
  | .ok _ => .ok (((tools.candidateNames name).map tools.place).filter tools.isFile)

/-! ## What is asked of a name -/

/-- A place leads inside of the resolved directory. -/
def LeadsInside (turns : List (PathTurn PyText)) : Prop :=
  ∃ base path, tools.base = some base ∧ tools.tree.resolve turns = some path ∧ base <+: path

/-- What a name resolves to is, with links followed, a launchable file inside of the directory, and
its existing candidates lead inside as well. -/
structure Contained (name : PyText) : Prop where
  launched : ∀ path, tools.resolve name = .ok path →
    tools.tree.resolve (LinkTree.turns path) = some path ∧ tools.launchable path = true ∧
      tools.LeadsInside (LinkTree.turns path)
  existing : ∀ places, tools.existingCandidates name = .ok places →
    ∀ place ∈ places, tools.LeadsInside place

/-- A candidate leads to a launchable file, and those before it lead to others. -/
def IsFirst (name candidate : PyText) : Prop :=
  ∃ before after, tools.candidateNames name = before ++ candidate :: after ∧
    (∃ path, tools.resolved candidate = some path ∧ tools.launchable path = true) ∧
    ∀ other ∈ before, ∃ path, tools.resolved other = some path ∧ tools.launchable path = false

/-- A name is admitted when it is not blank and leads inside. -/
def Admitted (name : PyText) : Prop := strip name ≠ [] ∧ tools.LeadsInside (tools.place name)

/-- Where an admitted name has a candidate that can be launched, the first such candidate and those
that are files lead inside, beside the name itself. -/
def Guarded (name : PyText) : Prop :=
  tools.Admitted name → ∀ first, tools.IsFirst name first →
    ∀ other ∈ tools.candidateNames name, other ≠ name →
      other = first ∨ tools.isFile (tools.place other) = true →
        tools.LeadsInside (tools.place other)

/-! ## Resolving -/

section Resolving

variable {tools} {name : PyText} {path : List PyText}

/-- What is launched is the path of the first candidate that can be. -/
theorem launch_eq_ok {candidates : List PyText} :
    tools.launch candidates = .ok (some path) ↔
      ∃ before first after, candidates = before ++ first :: after ∧
        (tools.resolved first = some path ∧ tools.launchable path = true) ∧
        ∀ other ∈ before, ∃ path, tools.resolved other = some path ∧
          tools.launchable path = false := by
  induction candidates with
  | nil =>
      constructor
      · intro none
        cases none
      · rintro ⟨before, first, after, empty, -⟩
        exact absurd empty.symm (List.append_ne_nil_of_right_ne_nil _ (List.cons_ne_nil _ _))
  | cons candidate others ih =>
      rw [launch]
      cases leads : tools.resolved candidate with
      | none =>
          constructor
          · intro failed
            cases failed
          · rintro ⟨before, first, after, shape, ⟨found, -⟩, earlier⟩
            cases before with
            | nil =>
                obtain ⟨rfl, -⟩ := List.cons.inj shape
                cases leads.symm.trans found
            | cons start before =>
                obtain ⟨rfl, -⟩ := List.cons.inj shape
                obtain ⟨_, found, -⟩ := earlier candidate List.mem_cons_self
                cases leads.symm.trans found
      | some here =>
          dsimp only
          by_cases ready : tools.launchable here = true
          · rw [if_pos ready]
            constructor
            · intro same
              obtain rfl := Option.some.inj (Except.ok.inj same)
              exact ⟨[], candidate, others, rfl, ⟨leads, ready⟩,
                fun _ among => absurd among List.not_mem_nil⟩
            · rintro ⟨before, first, after, shape, ⟨found, -⟩, earlier⟩
              cases before with
              | nil =>
                  obtain ⟨rfl, -⟩ := List.cons.inj shape
                  rw [Option.some.inj (leads.symm.trans found)]
              | cons start before =>
                  obtain ⟨rfl, -⟩ := List.cons.inj shape
                  obtain ⟨_, found, idle⟩ := earlier candidate List.mem_cons_self
                  obtain rfl := Option.some.inj (leads.symm.trans found)
                  cases ready.symm.trans idle
          · rw [if_neg ready, ih]
            constructor
            · rintro ⟨before, first, after, rfl, launched, earlier⟩
              refine ⟨candidate :: before, first, after, rfl, launched, ?_⟩
              exact List.forall_mem_cons.mpr ⟨⟨here, leads, Bool.eq_false_iff.mpr ready⟩, earlier⟩
            · rintro ⟨before, first, after, shape, launched, earlier⟩
              cases before with
              | nil =>
                  obtain ⟨rfl, -⟩ := List.cons.inj shape
                  obtain rfl := Option.some.inj (leads.symm.trans launched.1)
                  exact absurd launched.2 ready
              | cons start before =>
                  obtain ⟨rfl, rfl⟩ := List.cons.inj shape
                  exact ⟨before, first, after, rfl, launched, (List.forall_mem_cons.mp earlier).2⟩

/-- A name resolves to the path of its first candidate that can be launched, if it is admitted. -/
theorem resolve_eq_ok :
    tools.resolve name = .ok path ↔ tools.Admitted name ∧
      tools.launch (tools.candidateNames name) = .ok (some path) := by
  rw [resolve]
  constructor
  · intro leads
    split at leads
    · cases leads
    · next filled =>
        split at leads
        · next base bare known found =>
            split at leads
            · next inside =>
                refine ⟨⟨filled, base, bare, known, found, inside⟩, ?_⟩
                split at leads
                · cases leads
                · next launched =>
                    cases leads
                    exact launched
                · split at leads
                  · cases leads
                  · cases leads
            · cases leads
        · cases leads
  · rintro ⟨⟨filled, base, bare, known, found, inside⟩, launched⟩
    have bareFound : tools.resolved name = some bare := found
    rw [if_neg filled, known, bareFound]
    dsimp only
    rw [if_pos inside, launched]

end Resolving

/-- Tool names stay in the tools directory exactly where the candidates beside a name lead inside as
it does. -/
theorem contained_iff (name : PyText) : tools.Contained name ↔ tools.Guarded name := by
  constructor
  · intro contained admitted first isFirst other among beside either
    obtain ⟨before, after, shape, ⟨path, found, ready⟩, earlier⟩ := isFirst
    have resolves : tools.resolve name = .ok path := resolve_eq_ok.mpr
      ⟨admitted, launch_eq_ok.mpr ⟨before, first, after, shape, ⟨found, ready⟩, earlier⟩⟩
    rcases either with rfl | isFile
    · obtain ⟨again, -, base, other, known, leads, inside⟩ := contained.launched path resolves
      obtain rfl := Option.some.inj (again.symm.trans leads)
      exact ⟨base, path, known, found, inside⟩
    · apply contained.existing (((tools.candidateNames name).map tools.place).filter tools.isFile)
      · rw [existingCandidates, resolves]
      · exact List.mem_filter.mpr ⟨List.mem_map_of_mem among, isFile⟩
  · intro guarded
    refine ⟨?_, ?_⟩
    · intro path resolves
      obtain ⟨admitted, launched⟩ := resolve_eq_ok.mp resolves
      obtain ⟨before, first, after, shape, ⟨found, ready⟩, earlier⟩ := launch_eq_ok.mp launched
      have again : tools.tree.resolve (LinkTree.turns path) = some path :=
        LinkTree.resolve_resolve found
      have inside : tools.LeadsInside (tools.place first) := by
        by_cases same : first = name
        · rw [same]
          exact admitted.2
        · apply guarded admitted first ⟨before, after, shape, ⟨path, found, ready⟩, earlier⟩ first
          · rw [shape]
            exact List.mem_append_right _ List.mem_cons_self
          · exact same
          · exact .inl rfl
      obtain ⟨base, other, known, leads, within⟩ := inside
      obtain rfl := Option.some.inj (leads.symm.trans found)
      exact ⟨again, ready, base, other, known, again, within⟩
    · intro places existing place listed
      rw [existingCandidates] at existing
      split at existing
      · cases existing
      · next path resolves =>
          cases existing
          obtain ⟨admitted, launched⟩ := resolve_eq_ok.mp resolves
          obtain ⟨before, first, after, shape, launched, earlier⟩ := launch_eq_ok.mp launched
          obtain ⟨among, isFile⟩ := List.mem_filter.mp listed
          obtain ⟨other, named, rfl⟩ := List.mem_map.mp among
          by_cases same : other = name
          · rw [same]
            exact admitted.2
          · exact guarded admitted first
              ⟨before, after, shape, ⟨path, launched⟩, earlier⟩ other named
              same (.inr isFile)

/-- A launcher beside a name that leads inside may be a link that leads out. -/
theorem not_contained_linked_launcher :
    let tree : LinkTree PyText :=
      [([ofString "repo"], .dir), ([ofString "repo", ofString "tools"], .dir),
        ([ofString "repo", ofString "tools", ofString "check"], .file true),
        ([ofString "repo", ofString "tools", ofString "check.cmd"],
          .link true [.into (ofString "host"), .into (ofString "other.cmd")]),
        ([ofString "host"], .dir), ([ofString "host", ofString "other.cmd"], .file true)]
    let tools : ToolTree := ⟨tree, [ofString "repo", ofString "tools"], .posix, true⟩
    tools.resolve (ofString "check") = .ok [ofString "host", ofString "other.cmd"] ∧
      ¬ tools.Contained (ofString "check") := by
  intro tree tools
  have resolves : tools.resolve (ofString "check") =
      .ok [ofString "host", ofString "other.cmd"] := by decide +kernel
  refine ⟨resolves, fun contained => ?_⟩
  obtain ⟨again, -, base, path, known, leads, inside⟩ := contained.launched _ resolves
  have dir : tools.base = some [ofString "repo", ofString "tools"] := by decide +kernel
  obtain rfl := Option.some.inj (again.symm.trans leads)
  obtain rfl := Option.some.inj (dir.symm.trans known)
  exact absurd inside (by decide +kernel)

end ToolTree

end Orchestrator.Flow
