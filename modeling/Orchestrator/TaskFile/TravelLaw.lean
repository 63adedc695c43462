import Orchestrator.TaskFile.TravelRuns

/-! # Runs of promotions, quarantines and relocations

An operation may be interrupted after any change of the disk and entered again. Nothing is lost and
roots keep their specs along a run of careful attempts. A relocation that is interrupted between a
root and its specs is not careful, and no later attempt makes up for it.
-/

namespace Orchestrator.TaskFile.TaskFolders

open Orchestrator.Flow (Status)
open Orchestrator.Foundation
open Orchestrator.Foundation.PathParts (fileName)
open Orchestrator.Foundation.PyText (ofString)

variable {Leaf : Type} {folders : TaskFolders Leaf} {first tree : TaskTree Leaf}

/-! ## Attempts -/

/-- An operation on the task files: a promotion, or what is done with a file of a folder. -/
inductive Operation where
  | promote (target : Option PyText) (allFiles : Bool)
  | quarantine (folder : Folder) (name : PyText)
  | relocate (folder : Folder) (name : PyText) (final : Status)

/-- An operation with what the host refuses, interrupted after a number of changes of the disk or
not at all. -/
structure Attempt where
  operation : Operation
  refusals : Refusals
  cut : Option Nat

namespace Attempt

/-- The disk that an attempt leaves. -/
def leaves (folders : TaskFolders Leaf) (attempt : Attempt) (tree : TaskTree Leaf) :
    TaskTree Leaf :=
  match attempt.operation with
  | .promote target allFiles =>
      (folders.promoteTasks attempt.refusals target allFiles).leaves attempt.cut tree
  | .quarantine folder name =>
      (folders.quarantine attempt.refusals (folders.folder folder ++ [name])).leaves attempt.cut
        tree
  | .relocate folder name final =>
      (folders.relocateTaskFile attempt.refusals (some (folders.folder folder ++ [name]))
        final).leaves attempt.cut tree

end Attempt

/-- A promotion in which no root comes into the queue without a spec: each is there already as it
was staged, or comes before its root into a free place. -/
def CarefulPromotion (folders : TaskFolders Leaf) (first tree : TaskTree Leaf) :
    Option PyText → Bool → Prop
  | _, true =>
      ∀ root : folders.StagedRoot first, hasTaskSuffix root.name = true →
        tree.read (folders.folder .preparing ++ [root.name]) = some root.file →
          folders.Waits .preparing .pending [root.name] tree →
            ∀ ref ∈ root.refs, root.Leads tree .pending ref ∨
              folders.Waits .preparing .pending ref tree ∧
                ∃ name, ref = [subtasks, name] ∧ hasTaskSuffix name = true
  | some target, false =>
      ∀ name refs,
        folders.findAmong target tree (folders.selectPending (folders.folder .preparing) tree) =
            some (some name) →
          (tree.read (folders.folder .preparing ++ [name])).elim (some [])
              (folders.readSubtaskRefs name) = some refs →
            folders.Ready first tree (refs ++ [[name]])
  | none, false => True

/-- A quarantine that loses nothing: what it overwrites is spared, no other root names the file,
and it does not end up in a task folder. -/
structure CarefulQuarantine (folders : TaskFolders Leaf) (first tree : TaskTree Leaf)
    (folder : Folder) (name : PyText) (file : Leaf) : Prop where
  spared : ∀ old, tree.read (folders.quarantineDir ++ [name]) = some old →
    folders.Spared tree (folders.quarantineDir ++ [name]) old file
  lone : folder ≠ .preparing → ¬folders.NamedByOther first tree folder name [name]
  outside : ∀ other, ¬folders.folder other <+: folders.quarantineDir ++ [name]

/-- A relocation that loses nothing: it is provided for, and it is not interrupted after the root
was moved and before its last change, unless the specs are there already. -/
structure CarefulRelocation (folders : TaskFolders Leaf) (first tree : TaskTree Leaf)
    (attempt : Attempt) (source target : Folder) (name : PyText) (final : Status) (file : Leaf)
    (refs : List FilePath) : Prop where
  provided : folders.Provided first tree attempt.refusals source target name file refs
  uncut : ∀ count, attempt.cut = some count → count < 2 ∨
    (folders.relocateTaskFile attempt.refusals (some (folders.folder source ++ [name])) final
      tree).1.length ≤ count ∨
    ∀ root : folders.StagedRoot first, root.name = name → root.file = file →
      ∀ ref ∈ refs, ref = [name] ∨ root.Leads tree target ref

/-- An attempt that loses nothing. -/
def Attempt.Careful (folders : TaskFolders Leaf) (first tree : TaskTree Leaf)
    (attempt : Attempt) : Prop :=
  match attempt.operation with
  | .promote target allFiles => folders.CarefulPromotion first tree target allFiles
  | .quarantine folder name =>
      ∀ file, tree.read (folders.folder folder ++ [name]) = some file →
        goes attempt.refusals (folders.folder folder ++ [name]) (folders.quarantineDir ++ [name])
            tree = true →
          folders.CarefulQuarantine first tree folder name file
  | .relocate folder name final =>
      ∀ target, outcomeFolder final = some target → folder ≠ target →
        ∀ file refs, tree.read (folders.folder folder ++ [name]) = some file →
          folders.readSubtaskRefs name file = some refs →
            goes attempt.refusals (folders.folder folder ++ [name])
                (folders.folder target ++ [name]) tree = true →
              folders.CarefulRelocation first tree attempt folder target name final file refs

/-- The trees that attempts lead to, each allowed on the tree that it finds. -/
inductive Reaches (folders : TaskFolders Leaf) (first : TaskTree Leaf)
    (allowed : TaskTree Leaf → Attempt → Prop) : TaskTree Leaf → Prop where
  | start : Reaches folders first allowed first
  | next {tree : TaskTree Leaf} (reaches : Reaches folders first allowed tree) (attempt : Attempt)
      (careful : allowed tree attempt) :
      Reaches folders first allowed (attempt.leaves folders tree)

/-! ## Careful attempts -/

section Careful

variable {refusals : Refusals} {cut : Option Nat}

theorem holds_of_passes {α : Type} {program : Steps (TaskTree Leaf) Unit α}
    {post : α → TaskTree Leaf → Prop} (holds : folders.Holds first noRoot tree)
    (passes : Steps.Passes (folders.Holds first noRoot) program tree post) :
    folders.Holds first noRoot (program.leaves cut tree) := by
  rcases Steps.leaves_cases program cut tree with same | visited
  · rw [same]
    exact holds
  · exact passes.visits _ visited

theorem passes_promoteAll (single : Single first) (holds : folders.Holds first noRoot tree)
    (careful : folders.CarefulPromotion first tree none true) :
    Steps.Passes (folders.Holds first noRoot) (folders.promoteAll refusals) tree
      fun _ _ => True := by
  rw [promoteAll]
  apply Steps.passes_bind
  apply Steps.passes_current
  apply Steps.passes_bind
  have specs : folders.Ready first tree
      ((folders.selectPending (folders.folder .preparing ++ [subtasks]) tree).map
        fun name => [subtasks, name]) := by
    intro before path rest shape _ root named
    have among : path ∈ before ++ path :: rest :=
      List.mem_append_right _ List.mem_cons_self
    rw [← shape] at among
    obtain ⟨name, -, rfl⟩ := List.mem_map.mp among
    cases (List.cons.inj named).2
  refine (passes_promoteEach single holds specs {}).mono (fun _ => id) ?_
  rintro told middle ⟨kept, carries, delivered⟩
  apply Steps.passes_bind
  apply Steps.passes_current
  apply Steps.passes_bind
  have roots : folders.Ready first middle
      ((folders.selectPending (folders.folder .preparing) middle).map fun name => [name]) := by
    intro before path rest shape waits root named found ref listed
    have among : path ∈ before ++ path :: rest :=
      List.mem_append_right _ List.mem_cons_self
    rw [← shape] at among
    obtain ⟨name, chosen, rfl⟩ := List.mem_map.mp among
    obtain rfl := (List.cons.inj named).1
    have suffixed : hasTaskSuffix root.name = true := by
      rw [selectPending, List.mem_insertionSort] at chosen
      exact (List.mem_filter.mp chosen).2
    have before := carries.loses _ _ found
    refine .inl ?_
    rcases careful root suffixed before ⟨by rw [before]; rfl, carries.stands waits.free⟩ ref listed
      with leads | ⟨waiting, name, rfl, ends⟩
    · exact leads.carried carries
    · obtain ⟨spec, there⟩ := Option.isSome_iff_exists.mp waiting.there
      have chosen : [subtasks, name] ∈
          (folders.selectPending (folders.folder .preparing ++ [subtasks]) tree).map
            fun name => [subtasks, name] := by
        refine List.mem_map.mpr ⟨name, ?_, rfl⟩
        rw [selectPending, List.mem_insertionSort]
        have filed : tree.read ((folders.folder .preparing ++ [subtasks]) ++ [name]) = some spec := by
          rw [List.append_assoc]
          exact there
        exact List.mem_filter.mpr ⟨FileTree.mem_namesAt_of_read filed, ends⟩
      refine ⟨spec, spec, ?_, by rw [delivered _ chosen waiting, there], rfl⟩
      rw [holds.origin_eq single root before]
      exact holds.staging _ _ there
  refine (passes_promoteEach single kept roots told).mono (fun _ => id) fun outcome last _ => ?_
  split
  · exact Steps.passes_pure trivial
  · exact Steps.passes_pure trivial

theorem passes_promoteTasks (single : Single first) (holds : folders.Holds first noRoot tree)
    {target : Option PyText} {allFiles : Bool}
    (careful : folders.CarefulPromotion first tree target allFiles) :
    Steps.Passes (folders.Holds first noRoot) (folders.promoteTasks refusals target allFiles) tree
      fun _ _ => True := by
  unfold promoteTasks
  cases allFiles with
  | true =>
      rw [if_pos rfl]
      exact passes_promoteAll single holds careful
  | false =>
      rw [if_neg Bool.false_ne_true]
      split
      · exact Steps.passes_pure trivial
      · exact Steps.passes_pure trivial
      · rename_i wanted _
        rw [promoteTarget]
        apply Steps.passes_bind
        apply Steps.passes_current
        dsimp only
        cases found : folders.findAmong wanted tree
            (folders.selectPending (folders.folder .preparing) tree) with
        | none => exact Steps.passes_raise
        | some one =>
            cases one with
            | none => exact Steps.passes_pure trivial
            | some name =>
                dsimp only
                cases manifest : (tree.read (folders.folder .preparing ++ [name])).elim (some [])
                    (folders.readSubtaskRefs name) with
                | none => exact Steps.passes_raise
                | some refs =>
                    exact (passes_promoteEach single holds (careful name refs found manifest)
                      {}).mono (fun _ => id) fun _ _ _ => trivial

theorem passes_quarantine {folder : Folder} {name : PyText}
    (holds : folders.Holds first noRoot tree)
    (careful : ∀ file, tree.read (folders.folder folder ++ [name]) = some file →
      goes refusals (folders.folder folder ++ [name]) (folders.quarantineDir ++ [name]) tree =
          true →
        folders.CarefulQuarantine first tree folder name file) :
    Steps.Passes (folders.Holds first noRoot)
      (folders.quarantine refusals (folders.folder folder ++ [name])) tree fun _ _ => True := by
  rw [quarantine]
  apply Steps.passes_bind
  apply Steps.passes_current
  by_cases missing : (tree.read (folders.folder folder ++ [name])).isNone = true
  · rw [if_pos missing]
    exact Steps.passes_pure trivial
  · rw [if_neg missing]
    obtain ⟨file, there⟩ : ∃ file, tree.read (folders.folder folder ++ [name]) = some file := by
      rw [Option.isNone_iff_eq_none, ← ne_eq, Option.ne_none_iff_exists'] at missing
      exact missing
    have last : fileName (folders.folder folder ++ [name]) = name := by
      rw [fileName, List.getLast?_concat, Option.getD_some]
    dsimp only
    rw [last]
    apply Steps.passes_bind
    apply passes_moveFile holds.distinct
    · exact fun made above => holds.made above
    · intro moved lets movedTo
      obtain ⟨spared, lone, outside⟩ := careful file there lets
      refine ⟨?_, Steps.passes_pure trivial⟩
      refine holds.moved movedTo there (.inr (List.prefix_append _ _)) (outside .preparing)
        spared ?_ ?_
      · intro root filed queued _ stays found _ ref among
        refine ⟨fun same => ?_, fun same => ?_⟩
        · obtain ⟨rfl, rfl⟩ := folder_append.mp same
          exact lone queued ⟨root, fun named => stays (by rw [named]), found, among⟩
        · exact absurd ⟨ref, same⟩ (outside filed)
      · intro root filed _ _ comes
        exact absurd ⟨[root.name], comes⟩ (outside filed)
    · exact fun made above _ => Steps.passes_pure trivial

theorem finishes_moveFile {source target : FilePath} :
    Steps.Finishes (moveFile refusals source target : Steps (TaskTree Leaf) Unit Bool) := by
  rw [moveFile]
  refine Steps.finishes_bind Steps.finishes_current fun tree => ?_
  cases madeFor refusals target tree with
  | none => exact Steps.finishes_pure
  | some made =>
      refine Steps.finishes_bind Steps.finishes_perform fun _ => ?_
      cases renamed refusals source target made with
      | none => exact Steps.finishes_pure
      | some moved =>
          exact Steps.finishes_bind Steps.finishes_perform fun _ => Steps.finishes_pure

theorem finishes_relocateSubtaskSpecs {sourceDir targetDir : FilePath} {refs : List FilePath} :
    Steps.Finishes (relocateSubtaskSpecs refusals sourceDir targetDir refs :
      Steps (TaskTree Leaf) Unit Unit) := by
  induction refs with
  | nil =>
      rw [relocateSubtaskSpecs]
      exact Steps.finishes_pure
  | cons ref refs ih =>
      rw [relocateSubtaskSpecs]
      refine Steps.finishes_bind Steps.finishes_current fun tree => ?_
      split
      · exact ih
      · exact Steps.finishes_bind finishes_moveFile fun _ => ih

theorem lifecycleDestination_folder {source target : Folder} {name : PyText} {final : Status}
    (outcome : outcomeFolder final = some target) :
    lifecycleDestination (some (folders.folder source ++ [name])) final =
      some (folders.folder target ++ [name]) := by
  have parent : (folders.folder source ++ [name]).dropLast = folders.folder source :=
    List.dropLast_concat
  have named : fileName (folders.folder source) = source.dirname := by
    rw [folder, fileName, List.getLast?_concat, Option.getD_some]
  have tracked : source.dirname ∈ trackedLifecycleStates := by
    cases source <;> decide
  have root : (folders.folder source).dropLast = folders.tasksDir := by
    rw [folder, List.dropLast_concat]
  have last : fileName (folders.folder source ++ [name]) = name := by
    rw [fileName, List.getLast?_concat, Option.getD_some]
  rw [lifecycleDestination, outcome]
  simp only [Option.bind_eq_bind, Option.bind_some, Option.pure_def, parent, named, root, last,
    if_pos tracked]
  rw [folder, List.append_assoc]
  rfl

theorem holds_relocate {source target : Folder} {name : PyText} {final : Status}
    (single : Single first) (holds : folders.Holds first noRoot tree)
    (queued : target ≠ .preparing) (apart : source ≠ target)
    (outcome : outcomeFolder final = some target)
    (careful : ∀ file refs, tree.read (folders.folder source ++ [name]) = some file →
      folders.readSubtaskRefs name file = some refs →
        goes refusals (folders.folder source ++ [name]) (folders.folder target ++ [name]) tree =
            true →
          folders.CarefulRelocation first tree ⟨.relocate source name final, refusals, cut⟩ source
            target name final file refs) :
    folders.Holds first noRoot
      ((folders.relocateTaskFile refusals (some (folders.folder source ++ [name])) final).leaves
        cut tree) := by
  have last : fileName (folders.folder source ++ [name]) = name := by
    rw [fileName, List.getLast?_concat, Option.getD_some]
  have other : folders.folder source ++ [name] ≠ folders.folder target ++ [name] :=
    fun same => apart (folder_append.mp same).1
  have stays {α : Type} {program : Steps (TaskTree Leaf) Unit α} (idle : (program tree).1 = []) :
      folders.Holds first noRoot (program.leaves cut tree) := by
    rcases Steps.leaves_cases program cut tree with same | visited
    · rw [same]
      exact holds
    · rw [idle] at visited
      cases visited
  have program : folders.relocateTaskFile refusals (some (folders.folder source ++ [name])) final =
      folders.relocateTo refusals (folders.folder source ++ [name])
        (folders.folder target ++ [name]) := by
    unfold relocateTaskFile
    rw [lifecycleDestination_folder outcome]
    dsimp only
    rw [if_neg other]
  cases there : tree.read (folders.folder source ++ [name]) with
  | none =>
      apply stays
      rw [program, relocateTo, Steps.current_bind, there]
      rfl
  | some file =>
      cases manifest : folders.readSubtaskRefs name file with
      | none =>
          apply stays
          rw [program, relocateTo, Steps.current_bind, there]
          dsimp only
          rw [last, manifest]
          rfl
      | some refs =>
          have specs := careful file refs there manifest
          have shape : folders.relocateTaskFile refusals (some (folders.folder source ++ [name]))
              final tree = (moveFile refusals (folders.folder source ++ [name])
                (folders.folder target ++ [name]) >>= fun done => if done then do
                  relocateSubtaskSpecs refusals (folders.folder source) (folders.folder target) refs
                  pure (some (folders.folder target ++ [name]))
                else pure none) tree := by
            rw [program, relocateTo, Steps.current_bind, there]
            dsimp only
            rw [last, manifest, List.dropLast_concat, List.dropLast_concat]
          rcases @moveFile_cases Leaf refusals (folders.folder source ++ [name])
              (folders.folder target ++ [name]) tree holds.distinct with
            still | ⟨made, above, stopped | ⟨moved, lets, movedTo, done⟩⟩
          · apply stays
            rw [shape, Steps.bind_of_ok still]
            rfl
          · rw [Steps.bind_of_ok stopped] at shape
            rcases Steps.leaves_cases (folders.relocateTaskFile refusals
                (some (folders.folder source ++ [name])) final) cut tree with same | visited
            · rw [same]
              exact holds
            · rw [shape] at visited
              rw [List.mem_singleton.mp visited]
              exact holds.made above
          · obtain ⟨provided, uncut⟩ := specs lets
            let rest : Steps (TaskTree Leaf) Unit (Option FilePath) :=
              relocateSubtaskSpecs refusals (folders.folder source) (folders.folder target) refs >>=
                fun _ => pure (some (folders.folder target ++ [name]))
            have follow : Steps.Passes (fun last => folders.Holds first (theRoot target name) last ∧
                folders.Carries source target refs moved last) rest moved
                fun _ last => folders.Holds first noRoot last :=
              Steps.passes_bind ((passes_specs apart queued holds there provided movedTo single
                manifest).mono (fun _ => id) fun _ _ kept => Steps.passes_pure kept)
            have finishes : Steps.Finishes rest :=
              Steps.finishes_bind finishes_relocateSubtaskSpecs fun _ => Steps.finishes_pure
            obtain ⟨value, ended⟩ := finishes moved
            have full := follow.ends value _ ended
            have kept := holds_moved_root queued holds there provided movedTo
            rw [Steps.bind_of_ok done, if_pos rfl] at shape
            have through : folders.Holds first noRoot
                ((folders.relocateTaskFile refusals (some (folders.folder source ++ [name]))
                  final).leaves none tree) := by
              rw [Steps.leaves, shape, Option.elim_none, List.getLast?_append]
              rw [Steps.leaves, Option.elim_none] at full
              generalize (_ : List (TaskTree Leaf)).getLast? = reached at full ⊢
              cases reached with
              | none => exact full
              | some reached => exact full
            cases interrupted : cut with
            | none => exact through
            | some count =>
                rcases uncut count interrupted with early | late | leads
                · rw [Steps.leaves, shape, Option.elim_some]
                  have cases : count = 0 ∨ count = 1 := by omega
                  rcases cases with rfl | rfl
                  · exact holds
                  · exact holds.made above
                · rw [Steps.leaves, Option.elim_some, List.take_of_length_le late]
                  exact through
                · have filed : moved.read (folders.folder target ++ [name]) = some file := by
                    rw [movedTo.reads, if_pos rfl, there]
                  have found (root : folders.StagedRoot first) (named : root.name = name)
                      (same : root.file = file) (ref : FilePath) (among : ref ∈ root.refs) :
                      root.Leads moved target ref := by
                    rw [root.refs_eq named same manifest] at among
                    by_cases itself : ref = [name]
                    · rw [itself]
                      exact root.leads_itself named same filed
                    · exact ((leads root named same ref among).resolve_left itself).of_moved_root
                        apart movedTo itself
                  rcases Steps.leaves_cases (folders.relocateTaskFile refusals
                      (some (folders.folder source ++ [name])) final) (some count) tree with
                    same | visited
                  · rw [same]
                    exact holds
                  · rw [shape] at visited
                    rcases List.mem_append.mp visited with front | later
                    · rcases List.mem_cons.mp front with rfl | second
                      · exact holds.made above
                      · rw [List.mem_singleton.mp second]
                        exact kept.complete filed found
                    · obtain ⟨last, carries⟩ := follow.visits _ later
                      exact last.complete (carries.grows _ _ filed) fun root named same ref among =>
                        (found root named same ref among).carried carries

theorem holds_leaves (single : Single first) (holds : folders.Holds first noRoot tree)
    (attempt : Attempt) (careful : attempt.Careful folders first tree) :
    folders.Holds first noRoot (attempt.leaves folders tree) := by
  obtain ⟨operation, refusals, cut⟩ := attempt
  cases operation with
  | promote target allFiles =>
      exact holds_of_passes holds (passes_promoteTasks single holds careful)
  | quarantine folder name => exact holds_of_passes holds (passes_quarantine holds careful)
  | relocate source name final =>
      have idle (none : folders.relocateTaskFile refusals
            (some (folders.folder source ++ [name])) final = pure none ∨
          ∃ place, folders.relocateTaskFile refusals
            (some (folders.folder source ++ [name])) final = pure (some place)) :
          folders.Holds first noRoot ((folders.relocateTaskFile refusals
            (some (folders.folder source ++ [name])) final).leaves cut tree) := by
        rcases Steps.leaves_cases (folders.relocateTaskFile refusals
            (some (folders.folder source ++ [name])) final) cut tree with same | visited
        · rw [same]
          exact holds
        · rcases none with nothing | ⟨place, nothing⟩ <;> rw [nothing] at visited <;> cases visited
      show folders.Holds first noRoot ((folders.relocateTaskFile refusals
        (some (folders.folder source ++ [name])) final).leaves cut tree)
      cases outcome : outcomeFolder final with
      | none =>
          apply idle
          left
          unfold relocateTaskFile
          rw [lifecycleDestination, outcome]
          rfl
      | some target =>
          by_cases same : source = target
          · apply idle
            right
            unfold relocateTaskFile
            rw [lifecycleDestination_folder outcome]
            dsimp only
            rw [same, if_pos rfl]
            exact ⟨_, rfl⟩
          · have queued : target ≠ .preparing := by
              rintro rfl
              cases final <;> cases outcome
            exact holds_relocate single holds queued same outcome
              (careful target outcome same)

end Careful

/-! ## Runs -/

/-- A home whose one manifest names one spec; a file is its bytes. -/
def smallHome : TaskFolders (List UInt8) where
  bytes := id
  yaml _ := .loaded (.mapping [(.text (ofString "subtasks"), .list [.text (ofString "01.md")])])
  wording := ⟨fun _ => [], fun _ => [], fun _ => [], fun _ _ => []⟩
  tasksDir := [ofString "tasks"]
  quarantineDir := [ofString "rejected"]
  casefold := id

def epic : PyText := ofString "epic.md"

def noRefusals : Refusals := ⟨fun _ => false, fun _ _ => false⟩

/-- The epic filed as done. -/
def filing (cut : Option Nat) : Attempt := ⟨.relocate .pending epic .done, noRefusals, cut⟩

/-- An epic without a manifest in staging. -/
def plainStaged : TaskTree (List UInt8) :=
  .dir (ofString "tasks") (.dir (ofString "preparing") (.file epic [1] .empty) .empty) .empty

def epicBytes : List UInt8 :=
  "---\nsubtasks: [01.md]\n---\n".toList.map fun letter => .ofNat letter.toNat

/-- An epic in the queue with its spec. -/
def epicQueued : TaskTree (List UInt8) :=
  .dir (ofString "tasks")
    (.dir (ofString "pending") (.file epic epicBytes (.file (ofString "01.md") [120] .empty))
      .empty) .empty

/-- A file in the queue whose name is that of a filed one. -/
def nameTaken : TaskTree (List UInt8) :=
  .dir (ofString "tasks")
    (.dir (ofString "pending") (.file epic [1] .empty)
      (.dir (ofString "done") (.file epic [2] .empty) .empty)) .empty

end Orchestrator.TaskFile.TaskFolders
