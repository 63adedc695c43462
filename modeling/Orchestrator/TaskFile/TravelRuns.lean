import Orchestrator.TaskFile.Travel

/-! # Promotions and relocations

Files are carried one after the other. A promotion brings each root into the queue after its specs;
a relocation moves the root first, and its specs follow unless it is interrupted.
-/

namespace Orchestrator.TaskFile.TaskFolders

open Orchestrator.Foundation

variable {Leaf : Type} {folders : TaskFolders Leaf} {first tree after : TaskTree Leaf}
  {exempt : Folder → PyText → Prop}

/-! ## Promotion -/

section Promotion

variable {path : FilePath} {refusals : Refusals}

theorem passes_promoteOne (holds : folders.Holds first noRoot tree)
    (whole : folders.Waits .preparing .pending path tree →
      ∀ root : folders.StagedRoot first, path = [root.name] →
        tree.read (folders.folder .preparing ++ path) = some root.file →
          ∀ ref ∈ root.refs, root.Leads tree .pending ref) (outcome : Promotion) :
    Steps.Passes (folders.Holds first noRoot)
      (promoteOne refusals (folders.folder .preparing ++ path) (folders.folder .pending ++ path)
        outcome) tree
      fun _ after => folders.Holds first noRoot after ∧
        folders.Fared .preparing .pending refusals path tree after ∧
          (folders.Waits .preparing .pending path tree →
            after.read (folders.folder .pending ++ path) =
              tree.read (folders.folder .preparing ++ path)) := by
  have idle (still : ¬folders.Waits .preparing .pending path tree) (told : Promotion) :
      Steps.Passes (folders.Holds first noRoot) (pure told : Steps _ Unit _) tree
        fun _ after => folders.Holds first noRoot after ∧
          folders.Fared .preparing .pending refusals path tree after ∧
            (folders.Waits .preparing .pending path tree →
              after.read (folders.folder .pending ++ path) =
                tree.read (folders.folder .preparing ++ path)) :=
    Steps.passes_pure ⟨holds, .skipped rfl still, fun waits => absurd waits still⟩
  rw [promoteOne]
  apply Steps.passes_bind
  apply Steps.passes_current
  by_cases missing : (tree.read (folders.folder .preparing ++ path)).isNone = true
  · rw [if_pos missing]
    refine idle (fun waits => ?_) _
    have there := waits.there
    rw [Option.isNone_iff_eq_none.mp missing] at there
    cases there
  · rw [if_neg missing]
    obtain ⟨file, there⟩ : ∃ file, tree.read (folders.folder .preparing ++ path) = some file := by
      rw [Option.isNone_iff_eq_none, ← ne_eq, Option.ne_none_iff_exists'] at missing
      exact missing
    by_cases taken : tree.stands (folders.folder .pending ++ path) = true
    · rw [if_pos taken]
      refine idle (fun waits => ?_) _
      rw [waits.free] at taken
      cases taken
    · rw [if_neg taken]
      rw [Bool.not_eq_true] at taken
      have waits : folders.Waits .preparing .pending path tree := ⟨by rw [there]; rfl, taken⟩
      apply Steps.passes_bind
      apply passes_moveFile holds.distinct
      · exact fun made above => holds.made above
      · intro moved _ movedTo
        have fared : folders.Fared .preparing .pending refusals path tree moved :=
          .moved waits movedTo
        have carries := fared.carries (by decide)
        obtain ⟨-, vacant⟩ := FileTree.stands_eq_false.mp taken
        have kept : folders.Holds first noRoot moved := by
          refine holds.moved movedTo there (within_folder _ _)
            (fun below => absurd (eq_of_folder_append below) (by decide)) ?_ ?_ ?_
          · intro old stood
            rw [vacant] at stood
            cases stood
          · intro root folder queued _ _ _ _ ref _
            refine ⟨fun same => queued (folder_append.mp same).1, fun _ old stood => ?_⟩
            rw [vacant] at stood
            cases stood
          · intro root folder _ _ comes same ref among
            obtain ⟨rfl, named⟩ := folder_append.mp comes
            exact (whole waits root named.symm (by rw [same]; exact there) ref among).carried
              carries
        refine ⟨kept, ?_⟩
        rw [if_pos rfl]
        exact Steps.passes_pure ⟨kept, fared, fun _ => by rw [movedTo.reads, if_pos rfl]⟩
      · intro made above _
        exact Steps.passes_raise

/-- Each root of a list finds its specs in the queue when its turn comes: they are there, or come
before it. -/
def Ready (folders : TaskFolders Leaf) (first tree : TaskTree Leaf) (paths : List FilePath) :
    Prop :=
  ∀ before path rest, paths = before ++ path :: rest →
    folders.Waits .preparing .pending path tree →
      ∀ root : folders.StagedRoot first, path = [root.name] →
        tree.read (folders.folder .preparing ++ path) = some root.file →
          ∀ ref ∈ root.refs, root.Leads tree .pending ref ∨
            ref ∈ before ∧ folders.Waits .preparing .pending ref tree

theorem Ready.tail {paths : List FilePath} {middle : TaskTree Leaf} (single : Single first)
    (holds : folders.Holds first noRoot tree) (ready : folders.Ready first tree (path :: paths))
    (fared : folders.Fared .preparing .pending refusals path tree middle)
    (delivered : folders.Waits .preparing .pending path tree →
      middle.read (folders.folder .pending ++ path) =
        tree.read (folders.folder .preparing ++ path)) :
    folders.Ready first middle paths := by
  have carries := fared.carries (by decide)
  intro before root rest shape waits staged named found ref among
  have found := carries.loses root staged.file found
  have waited : folders.Waits .preparing .pending root tree :=
    ⟨by rw [found]; rfl, carries.stands waits.free⟩
  have known := ready (path :: before) root rest (by rw [shape]; rfl) waited staged named found ref
    among
  rcases known with leads | ⟨earlier, waiting⟩
  · exact .inl (leads.carried carries)
  · by_cases here : ref = path
    · subst here
      obtain ⟨spec, there⟩ := Option.isSome_iff_exists.mp waiting.there
      have origin := holds.origin_eq single staged (by rw [← named]; exact found)
      refine .inl ⟨spec, spec, by rw [origin]; exact holds.staging _ _ there, ?_, rfl⟩
      rw [delivered waiting, there]
    · exact .inr ⟨(List.mem_cons.mp earlier).resolve_left here,
        fared.waits (by decide) here waiting⟩

/-- A list is promoted with every file that has a free place, unless the promotion stops. -/
theorem passes_promoteEach (single : Single first) {paths : List FilePath}
    (holds : folders.Holds first noRoot tree) (ready : folders.Ready first tree paths)
    (outcome : Promotion) :
    Steps.Passes (folders.Holds first noRoot) (folders.promoteEach refusals paths outcome) tree
      fun _ after => folders.Holds first noRoot after ∧
        folders.Carries .preparing .pending paths tree after ∧
          ∀ path ∈ paths, folders.Waits .preparing .pending path tree →
            after.read (folders.folder .pending ++ path) =
              tree.read (folders.folder .preparing ++ path) := by
  induction paths generalizing tree outcome with
  | nil =>
      rw [promoteEach]
      exact Steps.passes_pure
        ⟨holds, .refl, fun _ among => absurd among List.not_mem_nil⟩
  | cons path paths ih =>
      rw [promoteEach]
      apply Steps.passes_bind
      have whole : folders.Waits .preparing .pending path tree →
          ∀ root : folders.StagedRoot first, path = [root.name] →
            tree.read (folders.folder .preparing ++ path) = some root.file →
              ∀ ref ∈ root.refs, root.Leads tree .pending ref := by
        intro waits root named found ref among
        exact (ready [] path paths rfl waits root named found ref among).resolve_right
          fun earlier => absurd earlier.1 List.not_mem_nil
      refine (passes_promoteOne holds whole outcome).mono (fun _ => id) ?_
      rintro told middle ⟨kept, fared, delivered⟩
      have carries := fared.carries (by decide)
      refine (ih kept (ready.tail single holds fared delivered) told).mono (fun _ => id) ?_
      rintro _ last ⟨holdsLast, carriesLast, deliveredLast⟩
      refine ⟨holdsLast, carries.trans carriesLast, fun ref among waiting => ?_⟩
      obtain ⟨file, there⟩ := Option.isSome_iff_exists.mp waiting.there
      by_cases here : ref = path
      · subst here
        rw [there]
        exact carriesLast.grows _ _ (by rw [delivered waiting, there])
      · have waits := fared.waits (by decide) here waiting
        obtain ⟨found, same⟩ := Option.isSome_iff_exists.mp waits.there
        rw [deliveredLast ref ((List.mem_cons.mp among).resolve_left here) waits, same,
          carries.loses _ _ same]

end Promotion

/-! ## Relocation -/

section Relocation

variable {source target : Folder} {path : FilePath} {refs : List FilePath} {refusals : Refusals}

/-- A spec carried to a folder: no root that stays names it, and it is no root that would come
without its own specs. -/
theorem Holds.moved_spec {file : Leaf} (apart : source ≠ target) (queued : target ≠ .preparing)
    (holds : folders.Holds first exempt tree) (waits : folders.Waits source target path tree)
    (moved : MovedTo (folders.folder source ++ path) (folders.folder target ++ path) tree after)
    (there : tree.read (folders.folder source ++ path) = some file)
    (lone : source ≠ .preparing → ∀ root : folders.StagedRoot first,
      tree.read (folders.folder source ++ [root.name]) = some root.file → path ∉ root.refs)
    (bare : ∀ root : folders.StagedRoot first, path = [root.name] → root.file = file →
      ¬exempt target root.name → ∀ ref ∈ root.refs, root.Leads tree target ref) :
    folders.Holds first exempt after := by
  obtain ⟨-, vacant⟩ := FileTree.stands_eq_false.mp waits.free
  refine holds.moved moved there (within_folder _ _)
    (fun below => absurd (eq_of_folder_append below).symm queued) ?_ ?_ ?_
  · intro old stood
    rw [vacant] at stood
    cases stood
  · intro root folder filed _ _ found _ ref among
    refine ⟨fun same => ?_, fun _ old stood => ?_⟩
    · obtain ⟨rfl, rfl⟩ := folder_append.mp same
      exact lone filed root found among
    · rw [vacant] at stood
      cases stood
  · intro root folder _ counted comes same ref among
    obtain ⟨rfl, named⟩ := folder_append.mp comes
    have fared : folders.Fared source folder ⟨fun _ => false, fun _ _ => false⟩ path tree after :=
      .moved waits moved
    have carries := fared.carries apart
    exact (bare root named.symm same counted ref among).carried carries

/-- Every spec with a free place is carried along, unless its move is refused. -/
theorem passes_relocateSubtaskSpecs (apart : source ≠ target) (queued : target ≠ .preparing)
    (holds : folders.Holds first exempt tree)
    (lone : source ≠ .preparing → ∀ ref ∈ refs, folders.Waits source target ref tree →
      ∀ root : folders.StagedRoot first,
        tree.read (folders.folder source ++ [root.name]) = some root.file → ref ∉ root.refs)
    (bare : ∀ ref ∈ refs, folders.Waits source target ref tree →
      ∀ root : folders.StagedRoot first, ref = [root.name] →
        tree.read (folders.folder source ++ ref) = some root.file → ¬exempt target root.name →
          ∀ more ∈ root.refs, root.Leads tree target more) :
    Steps.Passes
      (fun after => folders.Holds first exempt after ∧
        folders.Carries source target refs tree after)
      (relocateSubtaskSpecs refusals (folders.folder source) (folders.folder target) refs) tree
      fun _ after => folders.Holds first exempt after ∧
        folders.Carries source target refs tree after ∧
          ∀ ref ∈ refs, folders.Waits source target ref tree →
            Allowed refusals (folders.folder source ++ ref) (folders.folder target ++ ref) tree →
              after.read (folders.folder target ++ ref) =
                tree.read (folders.folder source ++ ref) := by
  induction refs generalizing tree with
  | nil =>
      rw [relocateSubtaskSpecs]
      exact Steps.passes_pure ⟨holds, .refl, fun _ among => absurd among List.not_mem_nil⟩
  | cons path refs ih =>
      -- The rest of the list, after the first file fared in some way.
      have later {middle : TaskTree Leaf} (kept : folders.Holds first exempt middle)
          (fared : folders.Fared source target refusals path tree middle) :
          Steps.Passes
            (fun after => folders.Holds first exempt after ∧
              folders.Carries source target (path :: refs) tree after)
            (relocateSubtaskSpecs refusals (folders.folder source) (folders.folder target) refs)
            middle fun _ after => folders.Holds first exempt after ∧
              folders.Carries source target (path :: refs) tree after ∧
                ∀ ref ∈ path :: refs, folders.Waits source target ref tree →
                  Allowed refusals (folders.folder source ++ ref) (folders.folder target ++ ref)
                    tree →
                    after.read (folders.folder target ++ ref) =
                      tree.read (folders.folder source ++ ref) := by
        have carries := fared.carries apart
        have waited (ref : FilePath) (waits : folders.Waits source target ref middle) :
            folders.Waits source target ref tree := by
          obtain ⟨file, there⟩ := Option.isSome_iff_exists.mp waits.there
          exact ⟨by rw [carries.loses _ _ there]; rfl, carries.stands waits.free⟩
        refine (ih kept ?_ ?_).mono (fun _ both => ⟨both.1, carries.trans both.2⟩) ?_
        · intro staged ref among waits root found
          exact lone staged ref (List.mem_cons_of_mem _ among) (waited ref waits) root
            (carries.loses _ _ found)
        · intro ref among waits root named found counted more listed
          exact (bare ref (List.mem_cons_of_mem _ among) (waited ref waits) root named
            (carries.loses _ _ found) counted more listed).carried carries
        · rintro _ last ⟨holdsLast, carriesLast, arrived⟩
          refine ⟨holdsLast, carries.trans carriesLast, fun ref among waits fine => ?_⟩
          obtain ⟨file, there⟩ := Option.isSome_iff_exists.mp waits.there
          by_cases here : ref = path
          · subst here
            rw [there]
            exact carriesLast.grows _ _ (by rw [fared.read_target waits fine, there])
          · have waiting := fared.waits apart here waits
            obtain ⟨found, same⟩ := Option.isSome_iff_exists.mp waiting.there
            rw [arrived ref ((List.mem_cons.mp among).resolve_left here) waiting
              (fared.allowed waits fine), same, carries.loses _ _ same]
      rw [relocateSubtaskSpecs]
      apply Steps.passes_bind
      apply Steps.passes_current
      by_cases skips : ((tree.read (folders.folder source ++ path)).isNone ||
          tree.stands (folders.folder target ++ path)) = true
      · rw [if_pos skips]
        refine later holds (.skipped rfl fun waits => ?_)
        obtain ⟨file, there⟩ := Option.isSome_iff_exists.mp waits.there
        rw [waits.free, there] at skips
        cases skips
      · rw [if_neg skips]
        rw [Bool.or_eq_true, not_or, Bool.not_eq_true, Option.isNone_eq_false_iff, Bool.not_eq_true]
          at skips
        have waits : folders.Waits source target path tree := ⟨skips.1, skips.2⟩
        obtain ⟨file, there⟩ := Option.isSome_iff_exists.mp waits.there
        apply Steps.passes_bind
        apply passes_moveFile holds.distinct
        · exact fun made above => ⟨holds.made above, above.carries⟩
        · intro moved _ movedTo
          have fared : folders.Fared source target refusals path tree moved := .moved waits movedTo
          have kept := holds.moved_spec apart queued waits movedTo there
            (fun staged root found => lone staged path List.mem_cons_self waits root found)
            (fun root named same counted => bare path List.mem_cons_self waits root named
              (by rw [there, same]) counted)
          have carries := (fared.carries apart).mono
            (List.cons_subset_cons path (List.nil_subset refs))
          exact ⟨⟨kept, carries⟩, later kept fared⟩
        · intro made above denied
          refine later (holds.made above) (.refused above waits fun fine => ?_)
          exact denied waits.there waits.free
            (List.append_ne_nil_of_left_ne_nil (List.append_ne_nil_of_right_ne_nil _
              (List.cons_ne_nil _ _)) _) fine

/-- Another root of a folder names a path in its manifest. -/
def NamedByOther (folders : TaskFolders Leaf) (first tree : TaskTree Leaf) (folder : Folder)
    (name : PyText) (path : FilePath) : Prop :=
  ∃ root : folders.StagedRoot first, root.name ≠ name ∧
    tree.read (folders.folder folder ++ [root.name]) = some root.file ∧ path ∈ root.refs

/-- A relocation that loses nothing when it is not interrupted: what it overwrites is spared, no
root that stays needs what is moved, and each spec of the root is there already or its place is
free and the host lets it in. -/
structure Provided (folders : TaskFolders Leaf) (first tree : TaskTree Leaf)
    (refusals : Refusals) (source target : Folder) (name : PyText) (file : Leaf)
    (refs : List FilePath) : Prop where
  spared : ∀ old, tree.read (folders.folder target ++ [name]) = some old →
    folders.Spared tree (folders.folder target ++ [name]) old file ∧
      (folders.NamedByOther first tree target name [name] →
        folders.bytes old = folders.bytes file)
  lone : source ≠ .preparing → ¬folders.NamedByOther first tree source name [name] ∧
    ∀ ref ∈ refs, folders.Waits source target ref tree →
      ¬folders.NamedByOther first tree source name ref
  bare : ∀ ref ∈ refs, folders.Waits source target ref tree →
    ∀ root : folders.StagedRoot first, ref = [root.name] →
      tree.read (folders.folder source ++ ref) = some root.file → root.name ≠ name →
        ∀ more ∈ root.refs, more ≠ [name] ∧ root.Leads tree target more
  whole : ∀ root : folders.StagedRoot first, root.name = name → root.file = file →
    ∀ ref ∈ refs, ref = [name] ∨ root.Leads tree target ref ∨
      folders.Waits source target ref tree ∧
        Allowed refusals (folders.folder source ++ ref) (folders.folder target ++ ref) tree

theorem Holds.weaken {more : Folder → PyText → Prop} (holds : folders.Holds first exempt tree)
    (weaker : ∀ folder name, exempt folder name → more folder name) :
    folders.Holds first more tree :=
  ⟨holds.distinct, holds.staging, holds.contents, fun root folder queued counted =>
    holds.specs root folder queued fun excused => counted (weaker folder root.name excused)⟩

/-- The one root of a name in a folder. -/
def theRoot (target : Folder) (name : PyText) : Folder → PyText → Prop :=
  fun folder other => folder = target ∧ other = name

/-- The specs of a root that is filed complete the invariant. -/
theorem Holds.complete {name : PyText} {file : Leaf}
    (holds : folders.Holds first (theRoot target name) tree)
    (filed : tree.read (folders.folder target ++ [name]) = some file)
    (leads : ∀ root : folders.StagedRoot first, root.name = name → root.file = file →
      ∀ ref ∈ root.refs, root.Leads tree target ref) : folders.Holds first noRoot tree := by
  refine ⟨holds.distinct, holds.staging, holds.contents, fun root folder queued _ found => ?_⟩
  by_cases excused : folder = target ∧ root.name = name
  · obtain ⟨rfl, named⟩ := excused
    rw [named, filed] at found
    cases found
    exact leads root named rfl
  · exact holds.specs root folder queued excused found

/-- Beside a root that keeps its specs stands what was staged with it. -/
theorem Holds.staged_of_read (single : Single first) (holds : folders.Holds first noRoot tree)
    (root : folders.StagedRoot first)
    (found : tree.read (folders.folder source ++ [root.name]) = some root.file)
    {ref : FilePath} (among : ref ∈ root.refs) {now : Leaf}
    (there : tree.read (folders.folder source ++ ref) = some now) :
    ∃ spec, first.read (folders.folder root.origin ++ ref) = some spec ∧
      folders.bytes now = folders.bytes spec := by
  by_cases staging : source = .preparing
  · subst staging
    rw [holds.origin_eq single root found]
    exact ⟨now, holds.staging _ _ there, rfl⟩
  · obtain ⟨spec, other, staged, stood, same⟩ :=
      holds.specs root source staging not_false found ref among
    rw [there] at stood
    cases stood
    exact ⟨spec, staged, same⟩

theorem StagedRoot.refs_eq {name : PyText} {file : Leaf} (root : folders.StagedRoot first)
    (named : root.name = name) (same : root.file = file)
    (manifest : folders.readSubtaskRefs name file = some refs) : root.refs = refs := by
  have read := root.manifest
  rw [named, same, manifest] at read
  exact (Option.some.inj read).symm

/-- A root that names itself is beside itself. -/
theorem StagedRoot.leads_itself {name : PyText} {file : Leaf} (root : folders.StagedRoot first)
    (named : root.name = name) (same : root.file = file)
    (filed : tree.read (folders.folder target ++ [name]) = some file) :
    root.Leads tree target [name] := by
  refine ⟨file, file, ?_, filed, rfl⟩
  rw [← same, ← named]
  exact root.found

section RootMove

variable {name : PyText} {file : Leaf} (apart : source ≠ target) (queued : target ≠ .preparing)
  (holds : folders.Holds first noRoot tree)
  (there : tree.read (folders.folder source ++ [name]) = some file)
  (provided : folders.Provided first tree refusals source target name file refs)
  (moved : MovedTo (folders.folder source ++ [name]) (folders.folder target ++ [name]) tree after)

include queued holds there provided moved in
/-- With the root, everything but its own specs is in order. -/
theorem holds_moved_root : folders.Holds first (theRoot target name) after := by
  refine (holds.weaken fun _ _ => False.elim).moved moved there (within_folder _ _)
    (fun below => absurd (eq_of_folder_append below).symm queued) (fun old stood =>
      (provided.spared old stood).1) ?_ ?_
  · intro root folder filed counted stays found comes ref among
    have other : root.name ≠ name ∨ folder ≠ source ∧ folder ≠ target := by
      by_cases named : root.name = name
      · rw [named] at stays comes
        exact .inr ⟨fun same => stays (by rw [same]), fun same => comes (by rw [same])⟩
      · exact .inl named
    refine ⟨fun same => ?_, fun same old stood => ?_⟩
    · obtain ⟨rfl, rfl⟩ := folder_append.mp same
      exact (provided.lone filed).1 ⟨root, other.resolve_right fun both => both.1 rfl, found, among⟩
    · obtain ⟨rfl, rfl⟩ := folder_append.mp same
      exact (provided.spared old stood).2
        ⟨root, other.resolve_right fun both => both.2 rfl, found, among⟩
  · intro root folder _ counted comes
    obtain ⟨rfl, named⟩ := folder_append.mp comes
    exact absurd ⟨rfl, (List.cons.inj named).1⟩ counted

include apart moved in
theorem waits_before {ref : FilePath} (waits : folders.Waits source target ref after) :
    folders.Waits source target ref tree ∧ ref ≠ [name] ∧
      after.read (folders.folder source ++ ref) = tree.read (folders.folder source ++ ref) := by
  have sides (one other : FilePath) :
      folders.folder source ++ one ≠ folders.folder target ++ other :=
    fun same => apart (folder_append.mp same).1
  have filled := waits.there
  obtain ⟨noDir, noFile⟩ := FileTree.stands_eq_false.mp waits.free
  rw [moved.reads, if_neg (sides ref [name])] at filled
  have other : ref ≠ [name] := by
    rintro rfl
    rw [if_pos rfl] at filled
    cases filled
  have elsewhere (folder : Folder) :
      folders.folder folder ++ ref ≠ folders.folder folder ++ [name] :=
    fun same => other (folder_append.mp same).2
  rw [if_neg (elsewhere source)] at filled
  refine ⟨⟨filled, FileTree.stands_eq_false.mpr ⟨?_, ?_⟩⟩, other, ?_⟩
  · rw [← Bool.not_eq_true]
    intro directory
    rw [moved.grows _ directory] at noDir
    cases noDir
  · rwa [moved.reads, if_neg (elsewhere target), if_neg (sides [name] ref).symm] at noFile
  · rw [moved.reads, if_neg (sides ref [name]), if_neg (elsewhere source)]

include apart moved in
/-- A reference to another file leads where it led. -/
theorem StagedRoot.Leads.of_moved_root {root : folders.StagedRoot first} {ref : FilePath}
    (leads : root.Leads tree target ref) (other : ref ≠ [name]) : root.Leads after target ref := by
  obtain ⟨spec, now, staged, stood, same⟩ := leads
  refine ⟨spec, now, staged, ?_, same⟩
  have elsewhere : folders.folder target ++ ref ≠ folders.folder target ++ [name] :=
    fun equal => other (folder_append.mp equal).2
  have sides : folders.folder target ++ ref ≠ folders.folder source ++ [name] :=
    fun equal => apart (folder_append.mp equal).1.symm
  rw [moved.reads, if_neg elsewhere, if_neg sides, stood]

include apart queued holds there provided moved in
/-- The specs follow their root. -/
theorem passes_specs (single : Single first)
    (manifest : folders.readSubtaskRefs name file = some refs) :
    Steps.Passes
      (fun last => folders.Holds first (theRoot target name) last ∧
        folders.Carries source target refs after last)
      (relocateSubtaskSpecs refusals (folders.folder source) (folders.folder target) refs) after
      fun _ last => folders.Holds first noRoot last := by
  have kept := holds_moved_root queued holds there provided moved
  refine (passes_relocateSubtaskSpecs apart queued kept ?_ ?_).mono (fun _ => id) ?_
  · intro staged ref among waits root found listed
    obtain ⟨before, -, -⟩ := waits_before apart moved waits
    have sides : folders.folder source ++ [root.name] ≠ folders.folder target ++ [name] :=
      fun equal => apart (folder_append.mp equal).1
    rw [moved.reads, if_neg sides] at found
    split at found
    · cases found
    · rename_i stays
      exact (provided.lone staged).2 ref among before
        ⟨root, fun named => stays (by rw [named]), found, listed⟩
  · intro ref among waits root named found counted more listed
    obtain ⟨before, -, same⟩ := waits_before apart moved waits
    rw [same] at found
    obtain ⟨other, leads⟩ := provided.bare ref among before root named found
      (fun equal => counted ⟨rfl, equal⟩) more listed
    exact leads.of_moved_root apart moved other
  · rintro _ last ⟨holdsLast, carries, arrived⟩
    have filed : after.read (folders.folder target ++ [name]) = some file := by
      rw [moved.reads, if_pos rfl, there]
    refine holdsLast.complete (carries.grows _ _ filed) fun root named same ref among => ?_
    have listed : ref ∈ refs := by rwa [← root.refs_eq named same manifest]
    by_cases itself : ref = [name]
    · rw [itself]
      exact (root.leads_itself named same filed).carried carries
    · rcases (provided.whole root named same ref listed).resolve_left itself with
        leads | ⟨waits, allowed⟩
      · exact (leads.of_moved_root apart moved itself).carried carries
      · have filled : (tree.read (folders.folder source ++ [name])).isSome = true := by
          rw [there]
          rfl
        have waiting := waits.of_moved apart filled itself moved
        obtain ⟨-, -, unmoved⟩ := waits_before apart moved waiting
        obtain ⟨now, stood⟩ := Option.isSome_iff_exists.mp waits.there
        obtain ⟨spec, staged, equal⟩ := holds.staged_of_read single root
          (by rw [named, same]; exact there) among stood
        refine ⟨spec, now, staged, ?_, equal⟩
        rw [arrived ref listed waiting (allowed.of_moved filled waits moved), unmoved, stood]

end RootMove

end Relocation

end Orchestrator.TaskFile.TaskFolders
