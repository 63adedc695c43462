import Orchestrator.Recovery.Archives

/-! # What reruns leave of the attempts

Every file an attempt wrote is where the attempt put it or in one archive, whatever is written,
removed and moved. A rerun empties the directory when no name is taken in its archive.
-/

namespace Orchestrator.Recovery

open Orchestrator.Foundation

/-! ## Names -/

theorem isArchive_archiveName (attempt : Nat) : isArchive (archiveName attempt) = true := by
  rw [isArchive, Text.startsWith, archiveName, String.toList_append, List.isPrefixOf_iff_prefix]
  exact List.prefix_append _ _

theorem mem_liveNames {name : String} {dir : TaskDir} :
    name ∈ liveNames dir ↔ name ∈ dir.names ∧ isArchive name = false := by
  rw [liveNames, List.mem_filter, Bool.not_eq_true']

theorem isLive_cons {first : String} {path : List String} :
    isLive (first :: path) = true ↔ isArchive first = false := by
  rw [isLive, Bool.not_eq_true']

/-! ## One entry moved -/

section Entry

variable {dest name : String} {dir held : TaskDir} {node : FileTree.Node String Artifact}

theorem archiveEntry_eq (isDest : dir.find? dest = some (.dir held))
    (found : dir.find? name = some node) (free : name ∉ held.names) :
    archiveEntry dest dir name = (dir.erase name).set dest (.dir (held.set name node)) := by
  simp only [archiveEntry, isDest, found, if_neg free]

/-- A moved entry is below the archive, and everything else is where it was. -/
theorem read_archiveEntry (distinct : dir.Distinct) (isDest : dir.find? dest = some (.dir held))
    (found : dir.find? name = some node) (free : name ∉ held.names) (other : name ≠ dest)
    (first : String) (path : List String) :
    (archiveEntry dest dir name).read (first :: path) =
      if first = name then none
      else if first = dest ∧ path.head? = some name then dir.read path
      else dir.read (first :: path) := by
  have apart := (FileTree.distinct_iff.mp distinct).1
  rw [archiveEntry_eq isDest found free, FileTree.read_set]
  by_cases isName : first = name
  · rw [if_pos isName, if_neg (isName ▸ other), isName, FileTree.read_cons,
      FileTree.find?_erase_self apart]
    rfl
  · rw [if_neg isName]
    by_cases here : first = dest
    · rw [if_pos here, here, FileTree.Node.read]
      cases path with
      | nil =>
          have unread : held.read [] = none := FileTree.read_nil
          rw [FileTree.read_nil, FileTree.read_cons, isDest, Option.bind_some, FileTree.Node.read,
            unread, if_neg]
          rintro ⟨-, ⟨⟩⟩
      | cons second rest =>
          rw [FileTree.read_set, List.head?_cons]
          by_cases moved : second = name
          · rw [if_pos moved, if_pos ⟨rfl, congrArg some moved⟩, moved, FileTree.read_cons, found]
            rfl
          · have unmoved : dir.read (dest :: second :: rest) = held.read (second :: rest) := by
              rw [FileTree.read_cons, isDest]
              rfl
            rw [if_neg moved, if_neg fun both => moved (Option.some.inj both.2), unmoved]
    · rw [if_neg here, if_neg fun both => here both.1, FileTree.read_cons,
        FileTree.find?_erase_of_ne isName, ← FileTree.read_cons]

theorem distinct_archiveEntry (distinct : dir.Distinct) :
    (archiveEntry dest dir name).Distinct := by
  rw [archiveEntry]
  split
  · rename_i held node isDest found
    split
    · exact distinct
    · apply FileTree.distinct_set (FileTree.distinct_erase distinct)
      rintro children ⟨⟩
      apply FileTree.distinct_set ((FileTree.distinct_iff.mp distinct).2 dest held isDest)
      rintro children rfl
      exact (FileTree.distinct_iff.mp distinct).2 name children found
  · exact distinct

/-- The archive of a move is a directory still. -/
theorem find?_archiveEntry (isDest : dir.find? dest = some (.dir held)) :
    ∃ held, (archiveEntry dest dir name).find? dest = some (.dir held) := by
  rw [archiveEntry]
  split
  · split
    · exact ⟨held, isDest⟩
    · exact ⟨_, by rw [FileTree.find?_set, if_pos rfl]⟩
  · exact ⟨held, isDest⟩

theorem names_archiveEntry (isDest : dir.find? dest = some (.dir held))
    (found : dir.find? name = some node) (free : name ∉ held.names) (other : name ≠ dest) :
    (archiveEntry dest dir name).names = dir.names.erase name := by
  have still : dest ∈ dir.names.erase name :=
    (List.mem_erase_of_ne other.symm).mpr (FileTree.mem_names_of_find? isDest)
  rw [archiveEntry_eq isDest found free, FileTree.names_set, FileTree.names_erase, if_pos still]

end Entry

/-! ## Places -/

/-- What is at a path of the attempt that runs, or at that path in an archive. -/
def placed (dir : TaskDir) : Option String → List String → Option Artifact
  | none, path => if isLive path then dir.read path else none
  | some archive, path => if isArchive archive then dir.read (archive :: path) else none

section Moves

variable {dest name : String} {dir held : TaskDir} {node : FileTree.Node String Artifact}

/-- A move takes what is below a name from the attempt to the archive. -/
theorem placed_archiveEntry (distinct : dir.Distinct) (isDest : dir.find? dest = some (.dir held))
    (found : dir.find? name = some node) (free : name ∉ held.names)
    (archive : isArchive dest = true) (movable : isArchive name = false)
    (place : Option String) (path : List String) :
    placed (archiveEntry dest dir name) place path =
      if path.head? = some name ∧ place = none then none
      else if path.head? = some name ∧ place = some dest then placed dir none path
      else placed dir place path := by
  have other : name ≠ dest := by
    rintro rfl
    rw [archive] at movable
    cases movable
  have reads := read_archiveEntry distinct isDest found free other
  cases place with
  | none =>
      cases path with
      | nil => rfl
      | cons first rest =>
          by_cases isName : first = name
          · rw [if_pos ⟨congrArg some isName, rfl⟩, placed, reads, if_pos isName, ite_self]
          · rw [if_neg fun both => isName (Option.some.inj both.1),
              if_neg fun both => isName (Option.some.inj both.1), placed, placed]
            by_cases live : isLive (first :: rest) = true
            · rw [if_pos live, if_pos live, reads, if_neg isName, if_neg]
              rintro ⟨rfl, _⟩
              rw [isLive, archive] at live
              cases live
            · rw [if_neg live, if_neg live]
  | some kept =>
      have inArchive (dir : TaskDir) : placed dir (some kept) path =
          if isArchive kept then dir.read (kept :: path) else none := rfl
      rw [if_neg (by rintro ⟨-, ⟨⟩⟩), inArchive, inArchive, reads]
      by_cases isKept : isArchive kept = true
      · have apart : kept ≠ name := by
          rintro rfl
          rw [movable] at isKept
          cases isKept
        rw [if_pos isKept, if_neg apart]
        by_cases here : kept = dest ∧ path.head? = some name
        · rw [if_pos here, if_pos ⟨here.2, congrArg some here.1⟩, placed, if_pos]
          obtain ⟨rest, rfl⟩ := List.head?_eq_some_iff.mp here.2
          exact isLive_cons.mpr movable
        · rw [if_neg here, if_neg fun both => here ⟨Option.some.inj both.2, both.1⟩,
            if_pos isKept]
      · rw [if_neg isKept, if_neg isKept, if_neg]
        rintro ⟨-, same⟩
        rw [Option.some.inj same] at isKept
        exact isKept archive

/-- The archive has nothing below a name that is free in it. -/
theorem placed_of_free (isDest : dir.find? dest = some (.dir held)) (free : name ∉ held.names)
    {path : List String} (below : path.head? = some name) : placed dir (some dest) path = none := by
  obtain ⟨rest, rfl⟩ := List.head?_eq_some_iff.mp below
  rw [placed, FileTree.read_cons, isDest, Option.bind_some, FileTree.Node.read, FileTree.read_cons,
    FileTree.find?_eq_none.mpr free]
  exact ite_self _

end Moves

/-! ## Files and attempts -/

/-- How the files of a directory go with what the attempts wrote. -/
structure Filed (logs : TaskLogs) (dir : TaskDir) : Prop where
  distinct : dir.Distinct
  mine : ∀ path, ∀ artifact ∈ placed dir none path, artifact.attempt = logs.attempt
  wrote : ∀ place path, ∀ artifact ∈ placed dir place path,
    artifact.attempt ≤ logs.attempt ∧ isLive path = true ∧
      logs.written artifact.attempt path = some artifact.text
  somewhere : ∀ attempt path text, logs.written attempt path = some text →
    ∃ place, placed dir place path = some ⟨attempt, text⟩
  once : ∀ first second path, ∀ left ∈ placed dir first path, ∀ right ∈ placed dir second path,
    left.attempt = right.attempt → first = second
  apart : ∀ archive path other, ∀ first ∈ placed dir (some archive) path,
    ∀ second ∈ placed dir (some archive) other, first.attempt ∈ logs.terminals →
      second.attempt ∈ logs.terminals → first.attempt = second.attempt

/-- The attempt that is to be archived keeps apart from what its archive has. -/
def Lonely (logs : TaskLogs) (dest : String) (dir : TaskDir) : Prop :=
  logs.attempt ∈ logs.terminals → ∀ path, ∀ artifact ∈ placed dir (some dest) path,
    artifact.attempt ∈ logs.terminals → artifact.attempt = logs.attempt

/-- What the moves of one rerun keep. -/
structure Moving (logs : TaskLogs) (dest : String) (dir : TaskDir) : Prop where
  filed : Filed logs dir
  isDest : ∃ held, dir.find? dest = some (.dir held)
  lonely : Lonely logs dest dir

namespace Moving

variable {logs : TaskLogs} {dir : TaskDir} {dest name : String}

/-- A move keeps every file in one place. -/
theorem archiveEntry (moving : Moving logs dest dir) (archive : isArchive dest = true)
    (movable : isArchive name = false) : Moving logs dest (archiveEntry dest dir name) := by
  obtain ⟨filed, ⟨held, isDest⟩, lonely⟩ := moving
  cases found : dir.find? name with
  | none =>
      have same : Recovery.archiveEntry dest dir name = dir := by
        simp only [Recovery.archiveEntry, isDest, found]
      rw [same]
      exact ⟨filed, ⟨held, isDest⟩, lonely⟩
  | some node =>
    by_cases taken : name ∈ held.names
    · have same : Recovery.archiveEntry dest dir name = dir := by
        simp only [Recovery.archiveEntry, isDest, found, if_pos taken]
      rw [same]
      exact ⟨filed, ⟨held, isDest⟩, lonely⟩
    have after := placed_archiveEntry filed.distinct isDest found taken archive movable
    -- What is placed after the move was placed before, in the archive or with the attempt.
    have before : ∀ place path,
      ∀ artifact ∈ placed (Recovery.archiveEntry dest dir name) place path,
        artifact ∈ placed dir place path ∧ (path.head? = some name → place ≠ none ∧
          place ≠ some dest) ∨ artifact ∈ placed dir none path ∧ place = some dest ∧
            path.head? = some name := by
      intro place path artifact here
      rw [after] at here
      split at here
      · cases here
      · next notLive =>
        split at here
        · next moved => exact .inr ⟨here, moved.2, moved.1⟩
        · next still =>
          refine .inl ⟨here, fun below => ⟨fun isNone => notLive ⟨below, isNone⟩, ?_⟩⟩
          exact fun isDest => still ⟨below, isDest⟩
    have some_before : ∀ place path,
        ∀ artifact ∈ placed (Recovery.archiveEntry dest dir name) place path,
          ∃ place, artifact ∈ placed dir place path := by
      intro place path artifact here
      rcases before place path artifact here with ⟨same, -⟩ | ⟨moved, -⟩
      · exact ⟨place, same⟩
      · exact ⟨none, moved⟩
    refine ⟨⟨distinct_archiveEntry filed.distinct, ?_, ?_, ?_, ?_, ?_⟩,
      find?_archiveEntry isDest, ?_⟩
    · intro path artifact here
      rcases before none path artifact here with ⟨same, -⟩ | ⟨-, not, -⟩
      · exact filed.mine path artifact same
      · cases not
    · intro place path artifact here
      obtain ⟨place, same⟩ := some_before place path artifact here
      exact filed.wrote place path artifact same
    · intro attempt path text written
      obtain ⟨place, here⟩ := filed.somewhere attempt path text written
      by_cases below : path.head? = some name
      · cases place with
        | none =>
            refine ⟨some dest, ?_⟩
            rw [after, if_neg (by rintro ⟨-, ⟨⟩⟩), if_pos (And.intro below rfl), here]
        | some kept =>
            refine ⟨some kept, ?_⟩
            rw [after, if_neg (by rintro ⟨-, ⟨⟩⟩), if_neg, here]
            rintro ⟨-, same⟩
            rw [same, placed_of_free isDest taken below] at here
            cases here
      · exact ⟨place, by rw [after, if_neg fun both => below both.1,
          if_neg fun both => below both.1, here]⟩
    · intro first second path left onLeft right onRight same
      rcases before first path left onLeft with ⟨wasLeft, leftAt⟩ | ⟨wasLeft, rfl, below⟩
      · rcases before second path right onRight with ⟨wasRight, -⟩ | ⟨wasRight, rfl, below⟩
        · exact filed.once first second path left wasLeft right wasRight same
        · exact absurd (filed.once first none path left wasLeft right wasRight same)
            (leftAt below).1
      · rcases before second path right onRight with ⟨wasRight, rightAt⟩ | ⟨-, rfl, -⟩
        · exact absurd (filed.once none second path left wasLeft right wasRight same).symm
            (rightAt below).1
        · rfl
    · intro archive path other first onFirst second onSecond ended ended'
      rcases before _ path first onFirst with ⟨wasFirst, -⟩ | ⟨wasFirst, isDest, -⟩
      · rcases before _ other second onSecond with ⟨wasSecond, -⟩ | ⟨wasSecond, isDest, -⟩
        · exact filed.apart archive path other first wasFirst second wasSecond ended ended'
        · cases isDest
          have mine := filed.mine other second wasSecond
          rw [mine] at ended' ⊢
          exact lonely ended' path first wasFirst ended
      · cases isDest
        have mine := filed.mine path first wasFirst
        rcases before _ other second onSecond with ⟨wasSecond, -⟩ | ⟨wasSecond, -, -⟩
        · rw [mine] at ended ⊢
          exact (lonely ended other second wasSecond ended').symm
        · rw [mine, filed.mine other second wasSecond]
    · intro ended path artifact here ended'
      rcases before _ path artifact here with ⟨same, -⟩ | ⟨mine, -⟩
      · exact lonely ended path artifact same ended'
      · exact filed.mine path artifact mine

theorem foldl (archive : isArchive dest = true) (listing : List String)
    (movable : ∀ name ∈ listing, isArchive name = false) (moving : Moving logs dest dir) :
    Moving logs dest (listing.foldl (Recovery.archiveEntry dest) dir) := by
  induction listing generalizing dir with
  | nil => exact moving
  | cons name listing ih =>
      apply ih fun other among => movable other (List.mem_cons_of_mem _ among)
      exact moving.archiveEntry archive (movable name List.mem_cons_self)

end Moving

/-! ## One rerun -/

section Rerun

variable {logs : TaskLogs} {dir made after : TaskDir} {dest : String} {listing : List String}
  {stop attempt : Nat}

theorem placed_congr (same : ∀ path, made.read path = dir.read path) :
    placed made = placed dir := by
  funext place path
  cases place <;> simp only [placed, same]

theorem Filed.congr (filed : Filed logs dir) (distinct : made.Distinct)
    (same : placed made = placed dir) : Filed logs made := by
  constructor
  · exact distinct
  · rw [same]
    exact filed.mine
  · rw [same]
    exact filed.wrote
  · rw [same]
    exact filed.somewhere
  · rw [same]
    exact filed.once
  · rw [same]
    exact filed.apart

/-- An archive is there already, or is made empty. -/
theorem made_cases (makes : dir.makeDirs [dest] = some made) :
    (∃ held, dir.find? dest = some (.dir held)) ∧ made = dir ∨
      dir.find? dest = none ∧ made = dir.set dest (.dir .empty) := by
  rw [FileTree.makeDirs] at makes
  split at makes
  · next held found =>
    have same : dir.set dest (.dir held) = made := Option.some.inj makes
    rw [FileTree.set_of_find? found] at same
    exact .inl ⟨⟨held, found⟩, same.symm⟩
  · cases makes
  · next absent => exact .inr ⟨absent, (Option.some.inj makes).symm⟩

/-- The archive made is there, and holds what it held. -/
theorem moving_of_made (filed : Filed logs dir) (makes : dir.makeDirs [dest] = some made)
    (lonely : Lonely logs dest dir) : Moving logs dest made := by
  have same : placed made = placed dir := placed_congr fun _ => FileTree.read_makeDirs makes
  refine ⟨filed.congr (FileTree.distinct_makeDirs filed.distinct makes) same, ?_, ?_⟩
  · have isDir := FileTree.isDir_makeDirs makes
    rw [FileTree.isDir] at isDir
    split at isDir
    · next held found => exact ⟨held, found⟩
    · cases isDir
  · rw [Lonely, same]
    exact lonely

theorem heldNames_of_find? {held : TaskDir} (isDest : dir.find? dest = some (.dir held)) :
    heldNames dest dir = held.names := by
  rw [heldNames, isDest]

/-- Entries that are free in the archive are gone after their moves. -/
theorem mem_names_foldl (distinct : dir.Distinct) (archive : isArchive dest = true)
    (isDest : ∃ held, dir.find? dest = some (.dir held)) (nodup : listing.Nodup)
    (movable : ∀ name ∈ listing, name ∈ dir.names ∧ isArchive name = false)
    (vacant : ∀ name ∈ listing, name ∉ heldNames dest dir) {other : String}
    (left : other ∈ (listing.foldl (archiveEntry dest) dir).names) :
    other ∈ dir.names ∧ other ∉ listing := by
  induction listing generalizing dir with
  | nil => exact ⟨left, List.not_mem_nil⟩
  | cons name listing ih =>
      obtain ⟨held, isDest⟩ := isDest
      obtain ⟨fresh, nodup⟩ := List.nodup_cons.mp nodup
      obtain ⟨listed, notArchive⟩ := movable name List.mem_cons_self
      obtain ⟨node, found⟩ : ∃ node, dir.find? name = some node := by
        rw [← Option.isSome_iff_exists, Option.isSome_iff_ne_none]
        exact fun none => FileTree.find?_eq_none.mp none listed
      have free : name ∉ held.names := heldNames_of_find? isDest ▸ vacant name List.mem_cons_self
      have apart : name ≠ dest := by
        rintro rfl
        rw [archive] at notArchive
        cases notArchive
      have names := names_archiveEntry isDest found free apart
      have nodupNames := (FileTree.distinct_iff.mp distinct).1
      have vacant' : ∀ later ∈ listing, later ∉ heldNames dest (archiveEntry dest dir name) := by
        intro later among
        have isDest' : (archiveEntry dest dir name).find? dest =
          some (.dir (held.set name node)) := by
          rw [archiveEntry_eq isDest found free, FileTree.find?_set, if_pos rfl]
        rw [heldNames_of_find? isDest', FileTree.names_set, if_neg free, List.mem_append,
          List.mem_singleton, not_or, ← heldNames_of_find? isDest]
        exact ⟨vacant later (List.mem_cons_of_mem _ among), fun same => fresh (same ▸ among)⟩
      obtain ⟨there, notLater⟩ := ih (distinct_archiveEntry distinct)
        (find?_archiveEntry isDest) nodup
        (fun later among => by
          obtain ⟨listed, movable⟩ := movable later (List.mem_cons_of_mem _ among)
          rw [names]
          have apart : later ≠ name := fun same => fresh (same ▸ among)
          exact ⟨(List.mem_erase_of_ne apart).mpr listed, movable⟩)
        vacant' left
      rw [names, nodupNames.mem_erase_iff] at there
      refine ⟨there.2, ?_⟩
      rw [List.mem_cons, not_or]
      exact ⟨there.1, notLater⟩

/-- A rerun keeps every file in one place, also one that is killed. -/
theorem filed_archive (filed : Filed logs dir) (perm : listing.Perm (liveNames dir))
    (lonely : Lonely logs (archiveName attempt) dir)
    (archives : archiveTaskArtifacts listing stop attempt dir = some after) : Filed logs after := by
  rw [archiveTaskArtifacts] at archives
  split at archives
  · cases archives
    exact filed
  · obtain ⟨made, makes, rfl⟩ := Option.map_eq_some_iff.mp archives
    have moving := moving_of_made filed makes lonely
    apply (moving.foldl (isArchive_archiveName attempt) _ _).filed
    intro name among
    exact (mem_liveNames.mp (perm.mem_iff.mp (List.mem_of_mem_take among))).2

/-- A whole rerun leaves archives only, when no name is taken. -/
theorem isArchive_of_archived (filed : Filed logs dir) (perm : listing.Perm (liveNames dir))
    (vacant : ∀ name ∈ liveNames dir, name ∉ heldNames (archiveName attempt) dir)
    (archives : archiveTaskArtifacts listing listing.length attempt dir = some after)
    {name : String} (left : name ∈ after.names) : isArchive name = true := by
  by_contra live
  rw [Bool.not_eq_true] at live
  rw [archiveTaskArtifacts] at archives
  split at archives
  · next none =>
    cases archives
    have listed := perm.mem_iff.mpr (mem_liveNames.mpr ⟨left, live⟩)
    rw [none] at listed
    exact List.not_mem_nil listed
  · obtain ⟨made, makes, rfl⟩ := Option.map_eq_some_iff.mp archives
    have archive := isArchive_archiveName attempt
    rw [List.take_length] at left
    have named : (∃ held, made.find? (archiveName attempt) = some (.dir held)) ∧
        heldNames (archiveName attempt) made = heldNames (archiveName attempt) dir ∧
        (∀ name ∈ dir.names, name ∈ made.names) ∧
        ∀ name ∈ made.names, isArchive name = false → name ∈ dir.names := by
      rcases made_cases makes with ⟨isDest, rfl⟩ | ⟨absent, rfl⟩
      · exact ⟨isDest, rfl, fun _ among => among, fun _ among _ => among⟩
      · refine ⟨⟨.empty, by rw [FileTree.find?_set, if_pos rfl]⟩, ?_, ?_, ?_⟩
        · rw [heldNames, heldNames, FileTree.find?_set, if_pos rfl, absent]
          rfl
        · intro name among
          rw [FileTree.names_set]
          split
          · exact among
          · exact List.mem_append_left _ among
        · intro name among movable
          rw [FileTree.names_set, if_neg (FileTree.find?_eq_none.mp absent), List.mem_append,
            List.mem_singleton] at among
          rcases among with old | rfl
          · exact old
          · rw [archive] at movable
            cases movable
    obtain ⟨isDest, held, kept, new⟩ := named
    have nodup : (liveNames dir).Nodup := (FileTree.distinct_iff.mp filed.distinct).1.filter _
    obtain ⟨there, unlisted⟩ := mem_names_foldl
      (FileTree.distinct_makeDirs filed.distinct makes) archive isDest
      (perm.nodup_iff.mpr nodup)
      (fun name among => by
        obtain ⟨listed, movable⟩ := mem_liveNames.mp (perm.mem_iff.mp among)
        exact ⟨kept name listed, movable⟩)
      (fun name among => held ▸ vacant name (perm.mem_iff.mp among)) left
    exact unlisted (perm.mem_iff.mpr (mem_liveNames.mpr ⟨new name there live, live⟩))

end Rerun

/-! ## Runs -/

namespace TaskLogs

/-- Files and attempts go together, and archives hold earlier attempts unless a rerun was killed. -/
structure Kept (logs : TaskLogs) : Prop where
  filed : Filed logs logs.dir
  earlier : logs.killed = false → ∀ archive path, ∀ artifact ∈ placed logs.dir (some archive) path,
    artifact.attempt < logs.attempt

variable {taskId : String} {logs after : TaskLogs}

theorem kept_new : Kept {} := by
  have nothing : ∀ place path, placed .empty place path = none := by
    intro place path
    cases place with
    | none =>
        rw [placed]
        cases path with
        | nil => rfl
        | cons first rest => exact ite_self _
    | some archive => exact ite_self _
  constructor
  · constructor
    · trivial
    · intro path artifact here
      rw [nothing] at here
      cases here
    · intro place path artifact here
      rw [nothing] at here
      cases here
    · exact nofun
    · intro first second path left here
      rw [nothing] at here
      cases here
    · exact fun _ _ _ _ _ _ _ among => absurd among List.not_mem_nil
  · intro _ archive path artifact here
    rw [nothing] at here
    cases here

section Files

variable {path : List String}

/-- A file of the attempt that runs is written or removed. -/
theorem Kept.rewrite (kept : logs.Kept) (text : Option String) (alive : logs.killed = false)
    (live : isLive path = true) {dir : TaskDir} (distinct : dir.Distinct)
    (reads : ∀ other, dir.read other =
      if other = path then text.map (Artifact.mk logs.attempt) else logs.dir.read other) :
    Kept { logs with dir, written := rewrite logs.attempt path text logs.written } := by
  have inArchive : ∀ archive other, placed dir (some archive) other =
      placed logs.dir (some archive) other := by
    intro archive other
    rw [placed, placed]
    split
    · next isArchive =>
      rw [reads, if_neg]
      rintro rfl
      rw [isLive, isArchive] at live
      cases live
    · rfl
  have here : ∀ other, placed dir none other =
      if other = path then text.map (Artifact.mk logs.attempt) else placed logs.dir none other := by
    intro other
    rw [placed, placed, reads]
    by_cases same : other = path
    · rw [if_pos same, if_pos same, if_pos (same ▸ live)]
    · rw [if_neg same, if_neg same]
  have stays : ∀ {attempt other}, ¬ (attempt = logs.attempt ∧ other = path) →
      Recovery.rewrite logs.attempt path text logs.written attempt other =
        logs.written attempt other := fun apart => if_neg apart
  have changed : Recovery.rewrite logs.attempt path text logs.written logs.attempt path = text :=
    if_pos ⟨rfl, rfl⟩
  have mine : ∀ other, ∀ artifact ∈ placed dir none other, artifact.attempt = logs.attempt := by
    intro other artifact at_
    rw [here] at at_
    split at at_
    · obtain ⟨text, -, rfl⟩ := Option.map_eq_some_iff.mp at_
      rfl
    · exact kept.filed.mine other artifact at_
  have earlier : ∀ archive other, ∀ artifact ∈ placed dir (some archive) other,
      artifact.attempt < logs.attempt := by
    intro archive other artifact at_
    rw [inArchive] at at_
    exact kept.earlier alive archive other artifact at_
  refine ⟨⟨distinct, mine, ?_, ?_, ?_, ?_⟩, fun _ => earlier⟩
  · intro place other artifact at_
    cases place with
    | none =>
        have isMine := mine other artifact at_
        rw [here] at at_
        split at at_
        · next same =>
          obtain ⟨text, isText, rfl⟩ := Option.map_eq_some_iff.mp at_
          refine ⟨Nat.le_refl _, same ▸ live, ?_⟩
          rw [same]
          exact changed.trans isText
        · next apart =>
          obtain ⟨known, alive, written⟩ := kept.filed.wrote none other artifact at_
          exact ⟨known, alive, (stays fun both => apart both.2).trans written⟩
    | some archive =>
        have before := earlier archive other artifact at_
        rw [inArchive] at at_
        obtain ⟨known, alive, written⟩ := kept.filed.wrote (some archive) other artifact at_
        exact ⟨known, alive, (stays fun both => absurd both.1 (Nat.ne_of_lt before)).trans written⟩
  · intro attempt other text' written
    by_cases both : attempt = logs.attempt ∧ other = path
    · obtain ⟨rfl, rfl⟩ := both
      have isText : text = some text' := changed.symm.trans written
      refine ⟨none, ?_⟩
      rw [here, if_pos rfl, isText]
      rfl
    · have old := (stays both).symm.trans written
      obtain ⟨place, at_⟩ := kept.filed.somewhere attempt other text' old
      refine ⟨place, ?_⟩
      cases place with
      | none =>
          rw [here, if_neg, at_]
          rintro rfl
          exact both ⟨kept.filed.mine other _ at_, rfl⟩
      | some archive => rw [inArchive, at_]
  · intro first second other left onLeft right onRight same
    cases first with
    | none =>
        cases second with
        | none => rfl
        | some archive =>
            have before := earlier archive other right onRight
            rw [← same, mine other left onLeft] at before
            exact absurd before (Nat.lt_irrefl _)
    | some archive =>
        cases second with
        | none =>
            have before := earlier archive other left onLeft
            rw [same, mine other right onRight] at before
            exact absurd before (Nat.lt_irrefl _)
        | some archive' =>
            rw [inArchive] at onLeft onRight
            exact kept.filed.once _ _ other left onLeft right onRight same
  · intro archive first second
    rw [inArchive, inArchive]
    exact kept.filed.apart archive first second

end Files

/-- A new terminal is that of the attempt that runs, which no archive holds. -/
theorem Kept.conclude (kept : logs.Kept) (alive : logs.killed = false) (status : Flow.Status) :
    Kept { logs with status, terminals := logs.attempt :: logs.terminals } := by
  obtain ⟨filed, earlier⟩ := kept
  refine ⟨⟨filed.distinct, filed.mine, filed.wrote, filed.somewhere, filed.once, ?_⟩, earlier⟩
  intro archive path other first onFirst second onSecond ended ended'
  have old : ∀ {path artifact}, artifact ∈ placed logs.dir (some archive) path →
      artifact.attempt ∈ logs.attempt :: logs.terminals → artifact.attempt ∈ logs.terminals := by
    intro path artifact at_ ended
    rcases List.mem_cons.mp ended with mine | old
    · exact absurd mine (Nat.ne_of_lt (earlier alive archive path artifact at_))
    · exact old
  exact filed.apart archive path other first onFirst second onSecond (old onFirst ended)
    (old onSecond ended')

/-- After a whole rerun there are archives only. -/
theorem isolated_of_archived (filed : Filed logs after.dir)
    (clean : ∀ name ∈ after.dir.names, isArchive name = true)
    (written : after.written = logs.written) (terminals : after.terminals = logs.terminals) :
    after.Isolated := by
  have nowhere : ∀ path, placed after.dir none path = none := by
    intro path
    rw [placed]
    cases path with
    | nil => rfl
    | cons first rest =>
        split
        · next live =>
          rw [FileTree.read_cons, FileTree.find?_eq_none.mpr]
          · rfl
          · intro among
            rw [isLive, clean first among] at live
            cases live
        · rfl
  refine ⟨clean, ?_, ?_⟩
  · intro attempt _ path text wrote
    rw [written] at wrote
    obtain ⟨place, at_⟩ := filed.somewhere attempt path text wrote
    cases place with
    | none =>
        rw [nowhere] at at_
        cases at_
    | some archive =>
        have isHere := at_
        rw [placed] at isHere
        split at isHere
        · next archived =>
          refine ⟨archive, ⟨archived, isHere⟩, ?_⟩
          rintro other ⟨isArchive, there⟩
          have at_' : placed after.dir (some other) path = some ⟨attempt, text⟩ := by
            rw [placed, if_pos isArchive, there]
          exact Option.some.inj (filed.once _ _ path _ at_' _ at_ rfl)
        · cases isHere
  · intro archive path other first onFirst second onSecond archived ended ended'
    rw [terminals] at ended ended'
    refine filed.apart archive path other first ?_ second ?_ ended ended'
    · rw [placed, if_pos archived]
      exact onFirst
    · rw [placed, if_pos archived]
      exact onSecond

theorem Unshared.lonely (unshared : logs.Unshared taskId) :
    Lonely logs (archiveName (logs.prior taskId)) logs.dir := by
  intro ended path artifact here
  rw [placed, if_pos (isArchive_archiveName _)] at here
  exact unshared ended path artifact here

/-- A whole rerun that finds its archive free leaves archives only. -/
theorem isolated_of_rerun {listing : List String} (kept : logs.Kept)
    (fits : logs.Fits taskId (.rerun listing))
    (moved : TaskLogs.step taskId (.rerun listing) logs = some after) :
    after.Isolated ∧ after.Kept := by
  rw [TaskLogs.step] at moved
  split at moved
  · next admitted =>
    obtain ⟨dir, archives, rfl⟩ := Option.map_eq_some_iff.mp moved
    have filed := filed_archive kept.filed admitted.2 (Unshared.lonely fits.2) archives
    have clean : ∀ name ∈ dir.names, isArchive name = true := fun name left =>
      isArchive_of_archived kept.filed admitted.2 fits.1 archives left
    have isolated : Isolated { logs with dir, attempt := logs.attempt + 1, killed := false } :=
      isolated_of_archived filed clean rfl rfl
    refine ⟨isolated, ⟨⟨filed.distinct, ?_, ?_, filed.somewhere, filed.once, filed.apart⟩, ?_⟩⟩
    · intro path artifact here
      rw [placed] at here
      split at here
      · next live =>
        cases path with
        | nil => cases live
        | cons first rest =>
            rw [FileTree.read_cons, FileTree.find?_eq_none.mpr] at here
            · cases here
            · intro among
              rw [isLive, clean first among] at live
              cases live
      · cases here
    · intro place path artifact here
      obtain ⟨known, live, written⟩ := filed.wrote place path artifact here
      exact ⟨Nat.le_succ_of_le known, live, written⟩
    · intro _ archive path artifact here
      exact Nat.lt_succ_of_le (filed.wrote (some archive) path artifact here).1
  · cases moved

/-- What is kept along every step that fits. -/
theorem Kept.step {event : LogEvent} (kept : logs.Kept) (fits : logs.Fits taskId event)
    (moved : TaskLogs.step taskId event logs = some after) : after.Kept := by
  cases event with
  | enter status =>
      rw [TaskLogs.step] at moved
      split at moved
      · cases moved
      · cases moved
        obtain ⟨filed, earlier⟩ := kept
        exact ⟨⟨filed.distinct, filed.mine, filed.wrote, filed.somewhere, filed.once, filed.apart⟩,
          earlier⟩
  | append record =>
      cases moved
      obtain ⟨filed, earlier⟩ := kept
      exact ⟨⟨filed.distinct, filed.mine, filed.wrote, filed.somewhere, filed.once, filed.apart⟩,
        earlier⟩
  | conclude status =>
      rw [TaskLogs.step] at moved
      split at moved
      · cases moved
      · next open' =>
        cases moved
        exact kept.conclude (eq_false_of_ne_true (not_or.mp open').1) status
  | write parent last text =>
      rw [TaskLogs.step] at moved
      split at moved
      · cases moved
      · next open' =>
        obtain ⟨alive, live⟩ := not_or.mp open'
        obtain ⟨made, makes, placed⟩ := Option.bind_eq_some_iff.mp moved
        split at placed
        · cases placed
        · next free =>
          cases placed
          have free : made.isDir (parent ++ [last]) = false := eq_false_of_ne_true free
          refine kept.rewrite (some text) (eq_false_of_ne_true alive)
            (eq_true_of_ne_false live) ?_ fun other => ?_
          · exact FileTree.distinct_place (FileTree.distinct_makeDirs kept.filed.distinct makes)
          · rw [FileTree.read_place (FileTree.isDir_makeDirs makes) free,
              FileTree.read_makeDirs makes]
            rfl
  | remove parent last =>
      rw [TaskLogs.step] at moved
      split at moved
      · cases moved
      · next open' =>
        simp only [not_or, Bool.not_eq_true, Bool.not_eq_false] at open'
        obtain ⟨alive, live, directory, free⟩ := open'
        cases moved
        refine kept.rewrite none alive live (FileTree.distinct_remove kept.filed.distinct)
          fun other => ?_
        exact FileTree.read_remove kept.filed.distinct directory free
  | rerun listing => exact (isolated_of_rerun kept fits moved).2
  | killedRerun listing stop =>
      rw [TaskLogs.step] at moved
      split at moved
      · next admitted =>
        obtain ⟨dir, archives, rfl⟩ := Option.map_eq_some_iff.mp moved
        have filed := filed_archive kept.filed admitted.2 (Unshared.lonely fits) archives
        exact ⟨⟨filed.distinct, filed.mine, filed.wrote, filed.somewhere, filed.once, filed.apart⟩,
          fun alive => by cases alive⟩
      · cases moved

end TaskLogs

/-- **Attempts apart.** In a run whose archive steps find their archive free, every rerun that
returns from its archive step leaves the attempts isolated. -/
theorem reruns_isolated {taskId : String} {transitions : List (Transition TaskLogs LogEvent)}
    {last : TaskLogs} (run : Run (TaskLogs.step taskId) {} transitions last)
    (fits : ∀ transition ∈ transitions, transition.before.Fits taskId transition.event) :
    ∀ transition ∈ transitions, ∀ listing, transition.event = .rerun listing →
      transition.after.Isolated := by
  intro transition among listing isRerun
  have keeps : ∀ transition : Transition TaskLogs LogEvent,
      TaskLogs.step taskId transition.event transition.before = some transition.after →
        transition.before.Fits taskId transition.event → transition.before.Kept →
          transition.after.Kept := fun _ moved allowed kept => kept.step allowed moved
  have kept := (run.invariant TaskLogs.kept_new keeps fits).1 transition among
  have moved := run.moved_of_mem among
  have fitting := fits transition among
  rw [isRerun] at moved fitting
  exact (TaskLogs.isolated_of_rerun kept fitting moved).1

/-! ## Two histories -/

/-- An attempt that asks before a deployment and fails. -/
def failingAttempt (answer : String) : List LogEvent :=
  [.enter .running, .write ["hitl"] "deploy.json" answer, .conclude .failed]

/-- The record of an attempt that failed. -/
def failedRecord (attempt : Nat) : Store.LedgerRecord :=
  pipelineRecord "a" false "t" { title := "Task", status := .failed } { title := "Task" }
    ⟨true, "main", none⟩ attempt

/-- An archive that is missing or empty is shared with no attempt. -/
theorem TaskLogs.unshared_of_empty {taskId : String} {logs : TaskLogs}
    (empty : logs.dir.find? (logs.destination taskId) = none ∨
      logs.dir.find? (logs.destination taskId) = some (.dir .empty)) : logs.Unshared taskId := by
  intro _ path artifact here
  rw [FileTree.read_cons] at here
  rcases empty with absent | bare
  · rw [absent] at here
    cases here
  · rw [bare] at here
    cases path <;> cases here

theorem TaskLogs.vacant_of_empty {taskId : String} {logs : TaskLogs}
    (empty : heldNames (logs.destination taskId) logs.dir = []) : logs.Vacant taskId := by
  intro name _ taken
  rw [empty] at taken
  exact List.not_mem_nil taken

/-- Two attempts fail and are recorded, and a rerun of the first is killed and invoked again. -/
theorem recorded_reruns_isolated :
    ∃ transitions last, Run (TaskLogs.step "a") {} transitions last ∧ last.attempt = 3 ∧
      ∀ transition ∈ transitions, ∀ listing, transition.event = .rerun listing →
        transition.after.Isolated := by
  have replays : replay (TaskLogs.step "a") {} (failingAttempt "yes" ++
      [.append (failedRecord 1), .killedRerun ["hitl"] 0, .rerun ["hitl"]] ++
      failingAttempt "no" ++ [.append (failedRecord 2), .rerun ["hitl"]]) = some (_, _) := rfl
  have run := run_of_replay replays
  refine ⟨_, _, run, rfl, ?_⟩
  apply reruns_isolated run
  refine List.forall_mem_cons.mpr ⟨trivial, List.forall_mem_cons.mpr ⟨trivial, ?_⟩⟩
  refine List.forall_mem_cons.mpr ⟨trivial, List.forall_mem_cons.mpr ⟨trivial, ?_⟩⟩
  refine List.forall_mem_cons.mpr ⟨TaskLogs.unshared_of_empty (.inl rfl), ?_⟩
  refine List.forall_mem_cons.mpr
    ⟨⟨TaskLogs.vacant_of_empty rfl, TaskLogs.unshared_of_empty (.inr rfl)⟩, ?_⟩
  refine List.forall_mem_cons.mpr ⟨trivial, List.forall_mem_cons.mpr ⟨trivial, ?_⟩⟩
  refine List.forall_mem_cons.mpr ⟨trivial, List.forall_mem_cons.mpr ⟨trivial, ?_⟩⟩
  refine List.forall_mem_cons.mpr
    ⟨⟨TaskLogs.vacant_of_empty rfl, TaskLogs.unshared_of_empty (.inl rfl)⟩, ?_⟩
  exact List.forall_mem_nil _

/-- A rerun is killed after its attempt asked, and the next rerun finds the name taken: the answer
of the killed attempt stays. -/
theorem killed_rerun_not_isolated :
    ∃ transitions last, Run (TaskLogs.step "a") {} transitions last ∧
      ∃ transition ∈ transitions, transition.event = .rerun ["hitl"] ∧
        transition.after.dir.read ["hitl", "deploy.json"] = some ⟨2, "no"⟩ ∧
        ¬ transition.after.Isolated := by
  have replays : replay (TaskLogs.step "a") {} (failingAttempt "yes" ++
      [.append (failedRecord 1), .rerun ["hitl"], .enter .running,
        .write ["hitl"] "deploy.json" "no", .rerun ["hitl"]]) = some (_, _) := rfl
  refine ⟨_, _, run_of_replay replays, _, List.mem_of_getElem? (i := 7) rfl, rfl, ?_, ?_⟩
  · rfl
  · intro isolated
    have archived := isolated.clean "hitl" (by decide)
    cases archived

end Orchestrator.Recovery
