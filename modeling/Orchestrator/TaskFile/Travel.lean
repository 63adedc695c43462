import Orchestrator.TaskFile.Folders

/-! # What travels with a task file

No content of a task folder may be lost, and a root that was staged with its specs finds them from
wherever it is filed. One move is looked at here: what it changes, and what has to be known of it
for nothing to be lost.
-/

namespace Orchestrator.TaskFile.TaskFolders

open Orchestrator.Foundation

variable {Leaf : Type} (folders : TaskFolders Leaf)

/-- A path of a task folder or of the quarantine. -/
def Within (path : FilePath) : Prop :=
  (∃ folder, folders.folder folder <+: path) ∨ folders.quarantineDir <+: path

/-- A root that was in a folder at first, together with every spec that its manifest names. -/
structure StagedRoot (first : TaskTree Leaf) where
  origin : Folder
  name : PyText
  file : Leaf
  refs : List FilePath
  found : first.read (folders.folder origin ++ [name]) = some file
  manifest : folders.readSubtaskRefs name file = some refs
  complete : ∀ ref ∈ refs, (first.read (folders.folder origin ++ ref)).isSome = true

variable {folders} {first : TaskTree Leaf}

/-- From a folder, a reference leads to the content that was staged with the root. -/
def StagedRoot.Leads (root : folders.StagedRoot first) (tree : TaskTree Leaf) (folder : Folder)
    (ref : FilePath) : Prop :=
  ∃ spec now, first.read (folders.folder root.origin ++ ref) = some spec ∧
    tree.read (folders.folder folder ++ ref) = some now ∧ folders.bytes now = folders.bytes spec

variable (folders first)

/-- The contents that there were at first are still there, and the roots that are queued or filed
find their specs. -/
structure Travels (now : TaskTree Leaf) : Prop where
  contents : ∀ path file, first.read path = some file → folders.Within path →
    ∃ place kept, now.read place = some kept ∧ folders.Within place ∧
      folders.bytes kept = folders.bytes file
  specs : ∀ (root : folders.StagedRoot first) folder, folder ≠ .preparing →
    now.read (folders.folder folder ++ [root.name]) = some root.file →
      ∀ ref ∈ root.refs, root.Leads now folder ref

/-- No file stands at two paths. -/
def Single (tree : TaskTree Leaf) : Prop :=
  ∀ one other file, tree.read one = some file → tree.read other = some file → one = other

/-- What holds along a run: nothing new is staged, and the specs are found by the roots that are
not exempt. -/
structure Holds (exempt : Folder → PyText → Prop) (tree : TaskTree Leaf) : Prop where
  distinct : tree.Distinct
  staging : ∀ path file, tree.read (folders.folder .preparing ++ path) = some file →
    first.read (folders.folder .preparing ++ path) = some file
  contents : ∀ path file, first.read path = some file → folders.Within path →
    ∃ place kept, tree.read place = some kept ∧ folders.Within place ∧
      folders.bytes kept = folders.bytes file
  specs : ∀ (root : folders.StagedRoot first) folder, folder ≠ .preparing →
    ¬exempt folder root.name →
      tree.read (folders.folder folder ++ [root.name]) = some root.file →
        ∀ ref ∈ root.refs, root.Leads tree folder ref

/-- No root is exempt. -/
def noRoot : Folder → PyText → Prop := fun _ _ => False

variable {folders first}

/-! ## Folders -/

theorem dirname_injective : Function.Injective Folder.dirname := by
  intro one other same
  cases one <;> cases other <;> first | rfl | exact absurd same (by decide)

theorem folder_append {one other : Folder} {path rest : FilePath} :
    folders.folder one ++ path = folders.folder other ++ rest ↔ one = other ∧ path = rest := by
  rw [folder, folder, List.append_assoc, List.append_assoc, List.append_cancel_left_eq,
    List.singleton_append, List.singleton_append, List.cons.injEq, dirname_injective.eq_iff]

theorem eq_of_folder_append {one other : Folder} {rest : FilePath}
    (below : folders.folder one <+: folders.folder other ++ rest) : one = other := by
  obtain ⟨path, same⟩ := below
  exact (folder_append.mp same).1

theorem append_prefix_append {one : Folder} {path rest : FilePath} :
    folders.folder one ++ path <+: folders.folder one ++ rest ↔ path <+: rest :=
  List.prefix_append_right_inj _

theorem within_folder (folder : Folder) (path : FilePath) :
    folders.Within (folders.folder folder ++ path) :=
  .inl ⟨folder, List.prefix_append _ _⟩

theorem Holds.travels {tree : TaskTree Leaf} (holds : folders.Holds first noRoot tree) :
    folders.Travels first tree :=
  ⟨holds.contents, fun root folder queued => holds.specs root folder queued not_false⟩

theorem holds_first (distinct : first.Distinct) (exempt : Folder → PyText → Prop)
    (travels : folders.Travels first first) : folders.Holds first exempt first :=
  ⟨distinct, fun _ _ found => found, travels.contents,
    fun root folder queued _ => travels.specs root folder queued⟩

/-- At first everything is where it was staged. -/
theorem travels_first (single : Single first) : folders.Travels first first := by
  refine ⟨fun path file found within => ⟨path, file, found, within, rfl⟩, ?_⟩
  intro root folder _ found ref among
  obtain ⟨same, -⟩ := folder_append.mp (single _ _ _ found root.found)
  obtain ⟨spec, there⟩ := Option.isSome_iff_exists.mp (root.complete ref among)
  exact ⟨spec, spec, there, by rw [same]; exact there, rfl⟩

/-- A root that is staged was staged at first. -/
theorem Holds.origin_eq {exempt : Folder → PyText → Prop} {tree : TaskTree Leaf}
    (holds : folders.Holds first exempt tree) (single : Single first)
    (root : folders.StagedRoot first)
    (staged : tree.read (folders.folder .preparing ++ [root.name]) = some root.file) :
    root.origin = .preparing :=
  (folder_append.mp (single _ _ _ root.found (holds.staging _ _ staged))).1

/-! ## One move -/

/-- A tree with the directories above a path made. -/
structure MadeAbove (target : FilePath) (tree made : TaskTree Leaf) : Prop where
  distinct : made.Distinct
  reads : ∀ path, made.read path = tree.read path
  grows : ∀ path, tree.isDir path = true → made.isDir path = true
  dirs : ∀ path, made.isDir path = true → tree.isDir path = true ∨ path <+: target.dropLast

/-- A tree with a file at another path. -/
structure MovedTo (source target : FilePath) (tree moved : TaskTree Leaf) : Prop where
  distinct : moved.Distinct
  reads : ∀ path, moved.read path = if path = target then tree.read source
    else if path = source then none else tree.read path
  grows : ∀ path, tree.isDir path = true → moved.isDir path = true
  dirs : ∀ path, moved.isDir path = true → tree.isDir path = true ∨ path <+: target.dropLast

theorem MadeAbove.refl {target : FilePath} {tree : TaskTree Leaf} (distinct : tree.Distinct) :
    MadeAbove target tree tree :=
  ⟨distinct, fun _ => rfl, fun _ => id, fun _ => .inl⟩

/-- The host refuses neither the directory nor the rename, and no file is in the way. -/
structure Allowed (refusals : Refusals) (source target : FilePath) (tree : TaskTree Leaf) :
    Prop where
  directory : refusals.directory target.dropLast = false
  rename : refusals.rename source target = false
  clear : ∀ front, front <+: target.dropLast → tree.read front = none

section Moves

variable {refusals : Refusals} {source target : FilePath} {tree made moved : TaskTree Leaf}

theorem madeAbove_of_madeFor (distinct : tree.Distinct)
    (makes : madeFor refusals target tree = some made) :
    MadeAbove target tree made ∧ made.isDir target.dropLast = true := by
  rw [madeFor] at makes
  split at makes
  · cases makes
  · refine ⟨⟨FileTree.distinct_makeDirs distinct makes, fun _ => FileTree.read_makeDirs makes,
      fun path directory => ?_, fun path => (FileTree.isDir_makeDirs_iff makes).mp⟩,
      FileTree.isDir_makeDirs makes⟩
    exact (FileTree.isDir_makeDirs_iff makes).mpr (.inl directory)

theorem movedTo_of_renamed (above : MadeAbove target tree made)
    (renames : renamed refusals source target made = some moved) :
    MovedTo source target tree moved := by
  rw [renamed] at renames
  split at renames
  · cases renames
  · have same (path : FilePath) : moved.isDir path = made.isDir path :=
      FileTree.isDir_move above.distinct renames
    refine ⟨FileTree.distinct_move above.distinct renames, fun path => ?_, fun path directory => ?_,
      fun path directory => ?_⟩
    · rw [FileTree.read_move above.distinct renames, above.reads, above.reads]
    · rw [same]
      exact above.grows path directory
    · rw [same] at directory
      exact above.dirs path directory

/-- The host lets a file in. -/
def goes (refusals : Refusals) (source target : FilePath) (tree : TaskTree Leaf) : Bool :=
  ((madeFor refusals target tree).bind (renamed refusals source target)).isSome

theorem goes_of_renamed (makes : madeFor refusals target tree = some made)
    (renames : renamed refusals source target made = some moved) :
    goes refusals source target tree = true := by
  rw [goes, makes, Option.bind_some, renames]
  rfl

/-- A move makes directories first, and is refused only if it is not allowed. -/
theorem passes_moveFile {kept : TaskTree Leaf → Prop} {post : Bool → TaskTree Leaf → Prop}
    (distinct : tree.Distinct) (keeps : ∀ made, MadeAbove target tree made → kept made)
    (moves : ∀ moved, goes refusals source target tree = true →
      MovedTo source target tree moved → kept moved ∧ post true moved)
    (stays : ∀ made, MadeAbove target tree made →
      ((tree.read source).isSome = true → tree.stands target = false → target ≠ [] →
        ¬Allowed refusals source target tree) → post false made) :
    Steps.Passes kept (moveFile refusals source target) tree post := by
  rw [moveFile]
  apply Steps.passes_bind
  apply Steps.passes_current
  cases makes : madeFor refusals target tree with
  | none =>
      apply Steps.passes_pure
      refine stays tree (.refl distinct) fun _ _ _ allowed => ?_
      rw [madeFor, allowed.directory, if_neg Bool.false_ne_true] at makes
      have possible := FileTree.isSome_makeDirs.mpr allowed.clear
      rw [makes] at possible
      cases possible
  | some made =>
      obtain ⟨above, directory⟩ := madeAbove_of_madeFor distinct makes
      apply Steps.passes_bind
      apply Steps.passes_perform (keeps made above)
      cases renames : renamed refusals source target made with
      | none =>
          apply Steps.passes_pure
          refine stays made above fun filled free proper allowed => ?_
          obtain ⟨leaf, found⟩ := Option.isSome_iff_exists.mp filled
          have vacant : made.isDir target = false := by
            rw [← Bool.not_eq_true]
            intro there
            rcases above.dirs target there with before | shorter
            · rw [(FileTree.stands_eq_false.mp free).1] at before
              cases before
            · have length := shorter.length_le
              rw [List.length_dropLast] at length
              have filled := List.length_pos_iff.mpr proper
              omega
          have filed : made.read source = some leaf := by rw [above.reads, found]
          have possible := FileTree.isSome_move filed proper vacant directory
          rw [renamed, allowed.rename, if_neg Bool.false_ne_true] at renames
          rw [renames] at possible
          cases possible
      | some moved =>
          have arrived := moves moved (goes_of_renamed makes renames)
            (movedTo_of_renamed above renames)
          apply Steps.passes_bind
          apply Steps.passes_perform arrived.1
          exact Steps.passes_pure arrived.2

/-- A move stops before its first change or before its second, or makes both. -/
theorem moveFile_cases (distinct : tree.Distinct) :
    moveFile refusals source target tree = ([], .ok (false, tree)) ∨
      ∃ made, MadeAbove target tree made ∧
        (moveFile refusals source target tree = ([made], .ok (false, made)) ∨
          ∃ moved, goes refusals source target tree = true ∧ MovedTo source target tree moved ∧
            moveFile refusals source target tree = ([made, moved], .ok (true, moved))) := by
  rw [moveFile, Steps.current_bind]
  cases makes : madeFor refusals target tree with
  | none => exact .inl rfl
  | some made =>
      have above := (madeAbove_of_madeFor distinct makes).1
      refine .inr ⟨made, above, ?_⟩
      dsimp only
      rw [Steps.perform_bind]
      cases renames : renamed refusals source target made with
      | none => exact .inl rfl
      | some moved =>
          exact .inr ⟨moved, goes_of_renamed makes renames, movedTo_of_renamed above renames, rfl⟩

end Moves

section Invariant

variable {tree after : TaskTree Leaf} {exempt : Folder → PyText → Prop}

/-! ## The invariant over one move -/

theorem Holds.made {target : FilePath} (holds : folders.Holds first exempt tree)
    (made : MadeAbove target tree after) : folders.Holds first exempt after := by
  refine ⟨made.distinct, fun path file found => ?_, fun path file found within => ?_, ?_⟩
  · rw [made.reads] at found
    exact holds.staging path file found
  · obtain ⟨place, kept, there, inside, same⟩ := holds.contents path file found within
    exact ⟨place, kept, by rw [made.reads]; exact there, inside, same⟩
  · intro root folder queued counted found ref among
    rw [made.reads] at found
    obtain ⟨spec, now, staged, there, same⟩ :=
      holds.specs root folder queued counted found ref among
    exact ⟨spec, now, staged, by rw [made.reads]; exact there, same⟩

/-- What an overwritten file held is held by the file that comes, or by another one. -/
def Spared (folders : TaskFolders Leaf) (tree : TaskTree Leaf) (target : FilePath)
    (old file : Leaf) : Prop :=
  folders.bytes old = folders.bytes file ∨
    ∃ place copy, place ≠ target ∧ folders.Within place ∧ tree.read place = some copy ∧
      folders.bytes copy = folders.bytes old

/-- One move keeps the invariant when nothing is overwritten that is needed, the roots that stay
keep their specs, and a root that comes to a folder finds its own. -/
theorem Holds.moved {source target : FilePath} {file : Leaf}
    (holds : folders.Holds first exempt tree) (moved : MovedTo source target tree after)
    (there : tree.read source = some file) (inside : folders.Within target)
    (queued : ¬folders.folder .preparing <+: target)
    (spared : ∀ old, tree.read target = some old → folders.Spared tree target old file)
    (keeps : ∀ (root : folders.StagedRoot first) folder, folder ≠ .preparing →
      ¬exempt folder root.name → folders.folder folder ++ [root.name] ≠ source →
        tree.read (folders.folder folder ++ [root.name]) = some root.file →
          folders.folder folder ++ [root.name] ≠ target →
            ∀ ref ∈ root.refs, folders.folder folder ++ ref ≠ source ∧
              (folders.folder folder ++ ref = target → ∀ old, tree.read target = some old →
                folders.bytes old = folders.bytes file))
    (arrives : ∀ (root : folders.StagedRoot first) folder, folder ≠ .preparing →
      ¬exempt folder root.name → folders.folder folder ++ [root.name] = target →
        root.file = file → ∀ ref ∈ root.refs, root.Leads after folder ref) :
    folders.Holds first exempt after := by
  refine ⟨moved.distinct, fun path leaf found => ?_, fun path leaf found within => ?_, ?_⟩
  · rw [moved.reads] at found
    have apart : folders.folder .preparing ++ path ≠ target := by
      rintro rfl
      exact queued (List.prefix_append _ _)
    rw [if_neg apart] at found
    split at found
    · cases found
    · exact holds.staging path leaf found
  · obtain ⟨place, kept, stood, under, same⟩ := holds.contents path leaf found within
    have arrived : after.read target = some file := by rw [moved.reads, if_pos rfl, there]
    -- The content is where it was, has come to the target, or was at the target.
    by_cases overwritten : place = target
    · rw [overwritten] at stood
      rcases spared kept stood with equal | ⟨other, copy, apart, below, copied, equal⟩
      · exact ⟨target, file, arrived, inside, equal.symm.trans same⟩
      · by_cases left : other = source
        · rw [left, there] at copied
          cases copied
          exact ⟨target, file, arrived, inside, equal.trans same⟩
        · exact ⟨other, copy, by rw [moved.reads, if_neg apart, if_neg left, copied], below,
            equal.trans same⟩
    · by_cases left : place = source
      · rw [left, there] at stood
        cases stood
        exact ⟨target, file, arrived, inside, same⟩
      · exact ⟨place, kept, by rw [moved.reads, if_neg overwritten, if_neg left, stood], under,
          same⟩
  · intro root folder filed counted found ref among
    rw [moved.reads] at found
    by_cases comes : folders.folder folder ++ [root.name] = target
    · rw [if_pos comes, there] at found
      cases found
      exact arrives root folder filed counted comes rfl ref among
    · rw [if_neg comes] at found
      split at found
      · cases found
      · rename_i stays
        obtain ⟨spec, now, staged, stood, same⟩ :=
          holds.specs root folder filed counted found ref among
        obtain ⟨left, equal⟩ := keeps root folder filed counted stays found comes ref among
        by_cases replaced : folders.folder folder ++ ref = target
        · rw [replaced] at stood
          refine ⟨spec, file, staged, by rw [replaced, moved.reads, if_pos rfl, there], ?_⟩
          rw [← equal replaced now stood, same]
        · exact ⟨spec, now, staged, by rw [moved.reads, if_neg replaced, if_neg left, stood], same⟩

/-! ## Carrying files from folder to folder -/

/-- What carrying files from one folder to another does to the two: the one loses files, the other
gains files of the list. -/
structure Carries (folders : TaskFolders Leaf) (source target : Folder) (paths : List FilePath)
    (tree after : TaskTree Leaf) : Prop where
  loses : ∀ path file, after.read (folders.folder source ++ path) = some file →
    tree.read (folders.folder source ++ path) = some file
  grows : ∀ path file, tree.read (folders.folder target ++ path) = some file →
    after.read (folders.folder target ++ path) = some file
  dirs : ∀ path, tree.isDir (folders.folder target ++ path) = true →
    after.isDir (folders.folder target ++ path) = true
  comes : ∀ path file, after.read (folders.folder target ++ path) = some file →
    tree.read (folders.folder target ++ path) = some file ∨
      path ∈ paths ∧ tree.stands (folders.folder target ++ path) = false ∧
        tree.read (folders.folder source ++ path) = some file

section Carrying

variable {source target : Folder} {path ref : FilePath} {paths more : List FilePath}
  {refusals : Refusals}

theorem Carries.refl : folders.Carries source target paths tree tree :=
  ⟨fun _ _ => id, fun _ _ => id, fun _ => id, fun _ _ => .inl⟩

/-- What stands in the target folder still does. -/
theorem Carries.stands (carries : folders.Carries source target paths tree after)
    (vacant : after.stands (folders.folder target ++ path) = false) :
    tree.stands (folders.folder target ++ path) = false := by
  obtain ⟨noDir, noFile⟩ := FileTree.stands_eq_false.mp vacant
  refine FileTree.stands_eq_false.mpr ⟨?_, ?_⟩
  · rw [← Bool.not_eq_true]
    intro there
    rw [carries.dirs path there] at noDir
    cases noDir
  · refine Option.eq_none_iff_forall_ne_some.mpr fun file there => ?_
    rw [carries.grows path file there] at noFile
    cases noFile

theorem Carries.trans {last : TaskTree Leaf}
    (carries : folders.Carries source target paths tree after)
    (later : folders.Carries source target more after last) :
    folders.Carries source target (paths ++ more) tree last := by
  refine ⟨fun path file found => carries.loses path file (later.loses path file found),
    fun path file found => later.grows path file (carries.grows path file found),
    fun path there => later.dirs path (carries.dirs path there), fun path file found => ?_⟩
  rcases later.comes path file found with before | ⟨among, vacant, taken⟩
  · exact (carries.comes path file before).imp_right fun ⟨among, rest⟩ =>
      ⟨List.mem_append_left _ among, rest⟩
  · exact .inr ⟨List.mem_append_right _ among, carries.stands vacant,
      carries.loses path file taken⟩

theorem Carries.mono (carries : folders.Carries source target paths tree after)
    (within : paths ⊆ more) : folders.Carries source target more tree after :=
  ⟨carries.loses, carries.grows, carries.dirs, fun path file found =>
    (carries.comes path file found).imp_right fun ⟨among, rest⟩ => ⟨within among, rest⟩⟩

theorem MadeAbove.carries (made : MadeAbove (folders.folder target ++ path) tree after) :
    folders.Carries source target paths tree after := by
  refine ⟨fun other file found => ?_, fun other file found => ?_, fun other => made.grows _,
    fun other file found => .inl ?_⟩
  · rwa [made.reads] at found
  · rwa [made.reads]
  · rwa [made.reads] at found

/-- A file is to be carried: it is there and its place is free. -/
structure Waits (folders : TaskFolders Leaf) (source target : Folder) (path : FilePath)
    (tree : TaskTree Leaf) : Prop where
  there : (tree.read (folders.folder source ++ path)).isSome = true
  free : tree.stands (folders.folder target ++ path) = false

/-- Two files of one folder do not get into each other's way in another one. -/
theorem not_above (there : (tree.read (folders.folder source ++ path)).isSome = true)
    (also : (tree.read (folders.folder source ++ ref)).isSome = true) :
    ¬folders.folder target ++ ref <+: (folders.folder target ++ path).dropLast := by
  intro above
  obtain ⟨file, found⟩ := Option.isSome_iff_exists.mp there
  obtain ⟨spec, staged⟩ := Option.isSome_iff_exists.mp also
  have below := append_prefix_append.mp (above.trans (List.dropLast_prefix _))
  have same := FileTree.eq_of_read_of_prefix staged (append_prefix_append.mpr below) found
  obtain rfl := (folder_append.mp same).2
  have length := above.length_le
  rw [List.length_dropLast, List.length_append, folder, List.length_append,
    List.length_singleton] at length
  omega

section AfterMove

variable (apart : source ≠ target)
  (filled : (tree.read (folders.folder source ++ path)).isSome = true)
  (waiting : folders.Waits source target ref tree)
include filled waiting

/-- The directories for another file do not take the place of one that waits. -/
theorem Waits.isDir_eq_false
    (dirs : ∀ place, after.isDir place = true → tree.isDir place = true ∨
      place <+: (folders.folder target ++ path).dropLast) :
    after.isDir (folders.folder target ++ ref) = false := by
  rw [← Bool.not_eq_true]
  intro directory
  rcases dirs _ directory with before | above
  · rw [(FileTree.stands_eq_false.mp waiting.free).1] at before
    cases before
  · exact not_above filled waiting.there above

theorem Waits.of_made (made : MadeAbove (folders.folder target ++ path) tree after) :
    folders.Waits source target ref after := by
  refine ⟨by rw [made.reads]; exact waiting.there, FileTree.stands_eq_false.mpr
    ⟨waiting.isDir_eq_false filled made.dirs, ?_⟩⟩
  rw [made.reads, (FileTree.stands_eq_false.mp waiting.free).2]

include apart in
theorem Waits.of_moved (other : ref ≠ path)
    (moved : MovedTo (folders.folder source ++ path) (folders.folder target ++ path) tree after) :
    folders.Waits source target ref after := by
  have elsewhere (folder : Folder) :
      folders.folder folder ++ ref ≠ folders.folder folder ++ path :=
    fun same => other (folder_append.mp same).2
  have sides (one other : FilePath) :
      folders.folder source ++ one ≠ folders.folder target ++ other :=
    fun same => apart (folder_append.mp same).1
  refine ⟨?_, FileTree.stands_eq_false.mpr ⟨waiting.isDir_eq_false filled moved.dirs, ?_⟩⟩
  · rw [moved.reads, if_neg (sides ref path), if_neg (elsewhere source)]
    exact waiting.there
  · rw [moved.reads, if_neg (elsewhere target), if_neg (sides path ref).symm]
    exact (FileTree.stands_eq_false.mp waiting.free).2

theorem Allowed.of_moved
    (fine : Allowed refusals (folders.folder source ++ ref) (folders.folder target ++ ref) tree)
    (moved : MovedTo (folders.folder source ++ path) (folders.folder target ++ path) tree after) :
    Allowed refusals (folders.folder source ++ ref) (folders.folder target ++ ref) after := by
  refine ⟨fine.directory, fine.rename, fun front above => ?_⟩
  rw [moved.reads]
  split
  · rename_i same
    rw [same] at above
    exact absurd above (not_above waiting.there filled)
  · split
    · rfl
    · exact fine.clear front above

end AfterMove

/-- How a file fared that was to be carried. -/
inductive Fared (folders : TaskFolders Leaf) (source target : Folder) (refusals : Refusals)
    (path : FilePath) (tree after : TaskTree Leaf) : Prop where
  | skipped (same : after = tree) (idle : ¬folders.Waits source target path tree)
  | refused (made : MadeAbove (folders.folder target ++ path) tree after)
      (waits : folders.Waits source target path tree)
      (denied : ¬Allowed refusals (folders.folder source ++ path) (folders.folder target ++ path)
        tree)
  | moved (waits : folders.Waits source target path tree)
      (moved : MovedTo (folders.folder source ++ path) (folders.folder target ++ path) tree after)

namespace Fared

section

variable (apart : source ≠ target)
  (fared : folders.Fared source target refusals path tree after)
include apart fared

theorem carries : folders.Carries source target [path] tree after := by
  cases fared with
  | skipped same idle =>
      rw [same]
      exact .refl
  | refused made waits denied => exact made.carries
  | moved waits moved =>
      have sides (one other : FilePath) :
          folders.folder source ++ one ≠ folders.folder target ++ other :=
        fun same => apart (folder_append.mp same).1
      obtain ⟨-, vacant⟩ := FileTree.stands_eq_false.mp waits.free
      refine ⟨fun other file found => ?_, fun other file found => ?_, fun other => moved.grows _,
        fun other file found => ?_⟩
      · rw [moved.reads, if_neg (sides other path)] at found
        split at found
        · cases found
        · exact found
      · have elsewhere : folders.folder target ++ other ≠ folders.folder target ++ path := by
          intro same
          rw [same, vacant] at found
          cases found
        rw [moved.reads, if_neg elsewhere, if_neg (sides path other).symm, found]
      · rw [moved.reads] at found
        by_cases same : folders.folder target ++ other = folders.folder target ++ path
        · obtain rfl := (folder_append.mp same).2
          rw [if_pos rfl] at found
          exact .inr ⟨List.mem_singleton_self _, waits.free, found⟩
        · rw [if_neg same, if_neg (sides path other).symm] at found
          exact .inl found

/-- A file that waits for its turn goes on waiting. -/
theorem waits (other : ref ≠ path) (waiting : folders.Waits source target ref tree) :
    folders.Waits source target ref after := by
  cases fared with
  | skipped same idle =>
      rw [same]
      exact waiting
  | refused made waits denied => exact waiting.of_made waits.there made
  | moved waits moved => exact waiting.of_moved apart waits.there other moved

end

variable (fared : folders.Fared source target refusals path tree after)
include fared

/-- And its move stays allowed. -/
theorem allowed (waiting : folders.Waits source target ref tree)
    (fine : Allowed refusals (folders.folder source ++ ref) (folders.folder target ++ ref) tree) :
    Allowed refusals (folders.folder source ++ ref) (folders.folder target ++ ref) after := by
  cases fared with
  | skipped same idle =>
      rw [same]
      exact fine
  | refused made waits denied =>
      refine ⟨fine.directory, fine.rename, fun front above => ?_⟩
      rw [made.reads]
      exact fine.clear front above
  | moved waits moved => exact fine.of_moved waits.there waiting moved

/-- A file whose move is allowed arrives. -/
theorem read_target (waiting : folders.Waits source target path tree)
    (fine : Allowed refusals (folders.folder source ++ path) (folders.folder target ++ path)
      tree) :
    after.read (folders.folder target ++ path) = tree.read (folders.folder source ++ path) := by
  cases fared with
  | skipped same idle => exact absurd waiting idle
  | refused made waits denied => exact absurd fine denied
  | moved waits moved => rw [moved.reads, if_pos rfl]

end Fared

theorem StagedRoot.Leads.carried {root : folders.StagedRoot first}
    (leads : root.Leads tree target ref)
    (carries : folders.Carries source target paths tree after) :
    root.Leads after target ref := by
  obtain ⟨spec, now, staged, there, same⟩ := leads
  exact ⟨spec, now, staged, carries.grows ref now there, same⟩

end Carrying

end Invariant

end Orchestrator.TaskFile.TaskFolders
