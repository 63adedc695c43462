import Mathlib.Data.List.Basic

/-! # Directory trees

What a directory holds, as its first entry and the entries after it. Writing every file of a
tree into an empty directory gives the tree back, without its empty directories.
-/

namespace Orchestrator.Foundation

/-- The entries of a directory, in the order listed. -/
inductive FileTree (Name Leaf : Type) where
  | empty
  | file (name : Name) (leaf : Leaf) (rest : FileTree Name Leaf)
  | dir (name : Name) (children rest : FileTree Name Leaf)

namespace FileTree

variable {Name Leaf : Type}

/-- The names in a directory. -/
def names : FileTree Name Leaf → List Name
  | empty => []
  | file name _ rest => name :: rest.names
  | dir name _ rest => name :: rest.names

/-- The files below a directory, each under its path. -/
def files : FileTree Name Leaf → List (List Name × Leaf)
  | empty => []
  | file name leaf rest => ([name], leaf) :: rest.files
  | dir name children rest =>
      (children.files.map fun entry => (name :: entry.1, entry.2)) ++ rest.files

/-- No directory has two entries of one name. -/
def Distinct : FileTree Name Leaf → Prop
  | empty => True
  | file name _ rest => name ∉ rest.names ∧ rest.Distinct
  | dir name children rest => name ∉ rest.names ∧ children.Distinct ∧ rest.Distinct

/-- The tree without its empty directories. -/
def prune : FileTree Name Leaf → FileTree Name Leaf
  | empty => empty
  | file name leaf rest => file name leaf rest.prune
  | dir name children rest =>
      match children.prune with
      | empty => rest.prune
      | file first leaf others => dir name (file first leaf others) rest.prune
      | dir first inner others => dir name (dir first inner others) rest.prune

/-- The entries of one directory and then those of another. -/
def append : FileTree Name Leaf → FileTree Name Leaf → FileTree Name Leaf
  | empty, other => other
  | file name leaf rest, other => file name leaf (rest.append other)
  | dir name children rest, other => dir name children (rest.append other)

/-- The directory after each removal of one of its entries, the first listed first. -/
def removals : FileTree Name Leaf → List (FileTree Name Leaf)
  | empty => []
  | file _ _ rest => rest :: rest.removals
  | dir name children rest =>
      (children.removals.map fun left => dir name left rest) ++ rest :: rest.removals

variable [DecidableEq Name]

/-- The file at a path. -/
def read : FileTree Name Leaf → List Name → Option Leaf
  | _, [] => none
  | empty, _ :: _ => none
  | file name leaf rest, first :: path =>
      if first = name then if path = [] then some leaf else none else rest.read (first :: path)
  | dir name children rest, first :: path =>
      if first = name then children.read path else rest.read (first :: path)

/-- A file in directories of its own. -/
def chain (leaf : Leaf) : List Name → FileTree Name Leaf
  | [] => empty
  | [name] => file name leaf empty
  | name :: next :: path => dir name (chain leaf (next :: path)) empty

/-- Write a file at a path, with the directories it needs. A file where a directory is needed, or a
directory where the file goes, is an error. -/
def write (leaf : Leaf) : FileTree Name Leaf → List Name → Option (FileTree Name Leaf)
  | _, [] => none
  | empty, first :: path => some (chain leaf (first :: path))
  | file name old rest, first :: path =>
      if first = name then if path = [] then some (file name leaf rest) else none
      else (rest.write leaf (first :: path)).map (file name old)
  | dir name children rest, first :: path =>
      if first = name then (children.write leaf path).map fun changed => dir name changed rest
      else (rest.write leaf (first :: path)).map (dir name children)

/-- Write files one after another. -/
def writeAll : List (List Name × Leaf) → FileTree Name Leaf → Option (FileTree Name Leaf)
  | [], tree => some tree
  | (path, leaf) :: rest, tree => (tree.write leaf path).bind (writeAll rest)

/-! ## Entries side by side -/

omit [DecidableEq Name] in
@[simp] theorem append_empty (tree : FileTree Name Leaf) : tree.append empty = tree := by
  induction tree with
  | empty => rfl
  | file name leaf rest ih => rw [append, ih]
  | dir name children rest _ ih => rw [append, ih]

omit [DecidableEq Name] in
theorem append_assoc (first second third : FileTree Name Leaf) :
    (first.append second).append third = first.append (second.append third) := by
  induction first with
  | empty => rfl
  | file name leaf rest ih => simp only [append, ih]
  | dir name children rest _ ih => simp only [append, ih]

omit [DecidableEq Name] in
@[simp] theorem names_append (first second : FileTree Name Leaf) :
    (first.append second).names = first.names ++ second.names := by
  induction first with
  | empty => rfl
  | file name leaf rest ih => simp only [append, names, ih, List.cons_append]
  | dir name children rest _ ih => simp only [append, names, ih, List.cons_append]

omit [DecidableEq Name] in
@[simp] theorem files_append (first second : FileTree Name Leaf) :
    (first.append second).files = first.files ++ second.files := by
  induction first with
  | empty => rfl
  | file name leaf rest ih => simp only [append, files, ih, List.cons_append]
  | dir name children rest _ ih => simp only [append, files, ih, List.append_assoc]

/-- A file of a new name goes after the entries that are there. -/
theorem write_of_notMem {leaf : Leaf} {tree : FileTree Name Leaf} {first : Name}
    (fresh : first ∉ tree.names) (path : List Name) :
    tree.write leaf (first :: path) = some (tree.append (chain leaf (first :: path))) := by
  induction tree with
  | empty => rfl
  | file name old rest ih =>
      rw [names, List.mem_cons, not_or] at fresh
      rw [write, if_neg fresh.1, ih fresh.2]
      rfl
  | dir name children rest _ ih =>
      rw [names, List.mem_cons, not_or] at fresh
      rw [write, if_neg fresh.1, ih fresh.2]
      rfl

/-- A file below the last directory is written into it. -/
theorem write_append_dir {leaf : Leaf} {tree children : FileTree Name Leaf} {first : Name}
    (fresh : first ∉ tree.names) (path : List Name) :
    (tree.append (dir first children empty)).write leaf (first :: path) =
      (children.write leaf path).map fun changed => tree.append (dir first changed empty) := by
  induction tree with
  | empty =>
      rw [append, write, if_pos rfl]
      rfl
  | file name old rest ih =>
      rw [names, List.mem_cons, not_or] at fresh
      rw [append, write, if_neg fresh.1, ih fresh.2, Option.map_map]
      rfl
  | dir name inner rest _ ih =>
      rw [names, List.mem_cons, not_or] at fresh
      rw [append, write, if_neg fresh.1, ih fresh.2, Option.map_map]
      rfl

/-- Files below the last directory are written into it. -/
theorem writeAll_append_dir {tree children : FileTree Name Leaf} {first : Name}
    (fresh : first ∉ tree.names) (entries : List (List Name × Leaf)) :
    writeAll (entries.map fun entry => (first :: entry.1, entry.2))
        (tree.append (dir first children empty)) =
      (writeAll entries children).map fun changed => tree.append (dir first changed empty) := by
  induction entries generalizing children with
  | nil => rfl
  | cons entry entries ih =>
      rw [List.map_cons, writeAll, write_append_dir fresh, writeAll]
      cases children.write entry.2 entry.1 with
      | none => rfl
      | some changed => exact ih

theorem writeAll_append (first second : List (List Name × Leaf)) (tree : FileTree Name Leaf) :
    writeAll (first ++ second) tree = (writeAll first tree).bind (writeAll second) := by
  induction first generalizing tree with
  | nil => rfl
  | cons entry first ih =>
      rw [List.cons_append, writeAll, writeAll, Option.bind_assoc]
      exact congrArg _ (funext fun changed => ih changed)

omit [DecidableEq Name] in
/-- Every path of a file has a name. -/
theorem path_ne_nil {tree : FileTree Name Leaf} {entry : List Name × Leaf}
    (among : entry ∈ tree.files) : entry.1 ≠ [] := by
  induction tree with
  | empty => cases among
  | file name leaf rest ih =>
      rcases List.mem_cons.mp among with rfl | later
      · exact List.cons_ne_nil _ _
      · exact ih later
  | dir name children rest _ ih =>
      rcases List.mem_append.mp among with inside | later
      · obtain ⟨inner, -, rfl⟩ := List.mem_map.mp inside
        exact List.cons_ne_nil _ _
      · exact ih later

/-- Files below a new directory are written into it. -/
theorem writeAll_fresh_dir {tree : FileTree Name Leaf} {first : Name} (fresh : first ∉ tree.names)
    {entry : List Name × Leaf} {entries : List (List Name × Leaf)} (named : entry.1 ≠ []) :
    writeAll ((entry :: entries).map fun entry => (first :: entry.1, entry.2)) tree =
      (writeAll (entry :: entries) empty).map fun changed =>
        tree.append (dir first changed empty) := by
  obtain ⟨path, leaf⟩ := entry
  obtain ⟨next, rest, rfl⟩ := List.exists_cons_of_ne_nil named
  rw [List.map_cons, writeAll, write_of_notMem fresh, Option.bind_some, writeAll, write,
    Option.bind_some]
  exact writeAll_append_dir fresh entries

omit [DecidableEq Name] in
theorem files_prune (tree : FileTree Name Leaf) : tree.prune.files = tree.files := by
  induction tree with
  | empty => rfl
  | file name leaf rest ih => rw [prune, files, files, ih]
  | dir name children rest ihChildren ih =>
      rw [prune, files, ← ihChildren, ← ih]
      cases children.prune <;> rfl

omit [DecidableEq Name] in
omit [DecidableEq Name] in
theorem prune_eq_empty {tree : FileTree Name Leaf} (none : tree.files = []) :
    tree.prune = empty := by
  rw [← files_prune] at none
  have pruned : ∀ tree : FileTree Name Leaf, tree.prune.files = [] → tree.prune = empty := by
    intro tree
    induction tree with
    | empty => exact fun _ => rfl
    | file name leaf rest => nofun
    | dir name children rest ihChildren ih =>
        intro nothing
        rw [prune] at nothing ⊢
        cases shape : children.prune with
        | empty =>
            rw [shape] at nothing
            exact ih nothing
        | file first leaf others =>
            rw [shape] at nothing
            cases nothing
        | dir first inner others =>
            rw [shape] at nothing ihChildren
            rw [files, List.append_eq_nil_iff, List.map_eq_nil_iff] at nothing
            cases ihChildren nothing.1
  exact pruned tree none

/-- Writing the files of a tree beside others gives it back, without its empty directories. -/
theorem writeAll_files {tree : FileTree Name Leaf} (distinct : tree.Distinct)
    (target : FileTree Name Leaf) (fresh : ∀ name ∈ tree.names, name ∉ target.names) :
    writeAll tree.files target = some (target.append tree.prune) := by
  induction tree generalizing target with
  | empty => rw [files, writeAll, prune, append_empty]
  | file name leaf rest ih =>
      obtain ⟨alone, distinct⟩ := distinct
      rw [files, writeAll, write_of_notMem (fresh name List.mem_cons_self), Option.bind_some,
        ih distinct, append_assoc]
      · rfl
      · intro other among
        rw [names_append, List.mem_append, not_or]
        refine ⟨fresh other (List.mem_cons_of_mem _ among), fun same => alone ?_⟩
        rwa [← List.mem_singleton.mp same]
  | dir name children rest ihChildren ih =>
      obtain ⟨alone, distinctChildren, distinct⟩ := distinct
      have freshName := fresh name List.mem_cons_self
      have freshRest : ∀ other ∈ rest.names, other ∉ target.names := fun other among =>
        fresh other (List.mem_cons_of_mem _ among)
      have inside := ihChildren distinctChildren empty fun _ _ => List.not_mem_nil
      rw [append] at inside
      rw [files, writeAll_append]
      cases below : children.files with
      | nil =>
          rw [prune, prune_eq_empty below]
          exact ih distinct target freshRest
      | cons entry entries =>
          have named := path_ne_nil (below ▸ List.mem_cons_self : entry ∈ children.files)
          rw [below] at inside
          rw [writeAll_fresh_dir freshName named, inside, Option.map_some, Option.bind_some,
            ih distinct, append_assoc, prune]
          · have filled : children.prune.files ≠ [] := by
              rw [files_prune, below]
              exact List.cons_ne_nil _ _
            cases pruned : children.prune with
            | empty =>
                rw [pruned] at filled
                exact absurd rfl filled
            | file first leaf others => rfl
            | dir first inner others => rfl
          · intro other among
            rw [names_append, List.mem_append, not_or]
            refine ⟨freshRest other among, fun same => alone ?_⟩
            rwa [← List.mem_singleton.mp same]

omit [DecidableEq Name] in
/-- A file's first name is one of the directory's. -/
theorem head_mem_names {tree : FileTree Name Leaf} {name : Name} {path : List Name} {leaf : Leaf}
    (among : (name :: path, leaf) ∈ tree.files) : name ∈ tree.names := by
  induction tree with
  | empty => cases among
  | file other old rest ih =>
      rcases List.mem_cons.mp among with same | later
      · cases same
        exact List.mem_cons_self
      · exact List.mem_cons_of_mem _ (ih later)
  | dir other children rest _ ih =>
      rcases List.mem_append.mp among with inside | later
      · obtain ⟨inner, -, same⟩ := List.mem_map.mp inside
        cases same
        exact List.mem_cons_self
      · exact List.mem_cons_of_mem _ (ih later)

/-- A listed file is read at its path. -/
theorem read_of_mem_files {tree : FileTree Name Leaf} (distinct : tree.Distinct)
    {path : List Name} {leaf : Leaf} (among : (path, leaf) ∈ tree.files) :
    tree.read path = some leaf := by
  induction tree generalizing path with
  | empty => cases among
  | file name old rest ih =>
      rcases List.mem_cons.mp among with same | later
      · cases same
        rw [read, if_pos rfl, if_pos rfl]
      · obtain ⟨first, tail, rfl⟩ := List.exists_cons_of_ne_nil (path_ne_nil later)
        have other : first ≠ name := fun same => distinct.1 (same ▸ head_mem_names later)
        rw [read, if_neg other]
        exact ih distinct.2 later
  | dir name children rest ihChildren ih =>
      rcases List.mem_append.mp among with inside | later
      · obtain ⟨⟨inner, bytes⟩, below, same⟩ := List.mem_map.mp inside
        cases same
        rw [read, if_pos rfl]
        exact ihChildren distinct.2.1 below
      · obtain ⟨first, tail, rfl⟩ := List.exists_cons_of_ne_nil (path_ne_nil later)
        have other : first ≠ name := fun same => distinct.1 (same ▸ head_mem_names later)
        rw [read, if_neg other]
        exact ih distinct.2.2 later

omit [DecidableEq Name] in
theorem files_chain (leaf : Leaf) (first : Name) (path : List Name) [DecidableEq Name] :
    (chain leaf (first :: path)).files = [(first :: path, leaf)] := by
  induction path generalizing first with
  | nil => rfl
  | cons next path ih => rw [chain, files, ih, files, List.append_nil, List.map_singleton]

/-- A written tree holds the files that it held and the one written. -/
theorem mem_files_write {leaf : Leaf} {tree changed : FileTree Name Leaf} {path : List Name}
    (written : tree.write leaf path = some changed) {file : List Name × Leaf}
    (among : file ∈ changed.files) : file ∈ tree.files ∨ file.1 = path := by
  induction tree generalizing path changed file with
  | empty =>
      cases path with
      | nil => cases written
      | cons first path =>
          cases written
          rw [files_chain, List.mem_singleton] at among
          exact .inr (congrArg Prod.fst among)
  | file name old rest ih =>
      cases path with
      | nil => cases written
      | cons first path =>
          rw [write] at written
          by_cases here : first = name
          · rw [if_pos here] at written
            by_cases whole : path = []
            · rw [if_pos whole] at written
              cases written
              rcases List.mem_cons.mp among with rfl | later
              · exact .inr (by rw [here, whole])
              · exact .inl (List.mem_cons_of_mem _ later)
            · rw [if_neg whole] at written
              cases written
          · rw [if_neg here] at written
            obtain ⟨tail, inner, rfl⟩ := Option.map_eq_some_iff.mp written
            rcases List.mem_cons.mp among with rfl | later
            · exact .inl List.mem_cons_self
            · exact (ih inner later).imp_left (List.mem_cons_of_mem _)
  | dir name children rest ihChildren ih =>
      cases path with
      | nil => cases written
      | cons first path =>
          rw [write] at written
          by_cases here : first = name
          · rw [if_pos here] at written
            obtain ⟨inner, below, rfl⟩ := Option.map_eq_some_iff.mp written
            rcases List.mem_append.mp among with inside | later
            · obtain ⟨entry, member, rfl⟩ := List.mem_map.mp inside
              rcases ihChildren below member with old | new
              · exact .inl (List.mem_append_left _ (List.mem_map.mpr ⟨entry, old, rfl⟩))
              · exact .inr (by rw [here, new])
            · exact .inl (List.mem_append_right _ later)
          · rw [if_neg here] at written
            obtain ⟨tail, inner, rfl⟩ := Option.map_eq_some_iff.mp written
            rcases List.mem_append.mp among with inside | later
            · exact .inl (List.mem_append_left _ inside)
            · exact (ih inner later).imp_left (List.mem_append_right _)

/-- A name in use is written over only where it is a file's. -/
theorem exists_file_of_write {leaf : Leaf} {tree changed : FileTree Name Leaf} {name : Name}
    (used : name ∈ tree.names) (written : tree.write leaf [name] = some changed) :
    ∃ old, ([name], old) ∈ tree.files := by
  induction tree generalizing changed with
  | empty => cases used
  | file other old rest ih =>
      by_cases here : name = other
      · exact ⟨old, by rw [here]; exact List.mem_cons_self⟩
      · rw [write, if_neg here] at written
        obtain ⟨tail, inner, -⟩ := Option.map_eq_some_iff.mp written
        rcases List.mem_cons.mp used with same | later
        · exact absurd same here
        · obtain ⟨found, member⟩ := ih later inner
          exact ⟨found, List.mem_cons_of_mem _ member⟩
  | dir other children rest _ ih =>
      rw [write] at written
      by_cases here : name = other
      · rw [if_pos here] at written
        cases children <;> cases written
      · rw [if_neg here] at written
        obtain ⟨tail, inner, -⟩ := Option.map_eq_some_iff.mp written
        rcases List.mem_cons.mp used with same | later
        · exact absurd same here
        · obtain ⟨found, member⟩ := ih later inner
          exact ⟨found, List.mem_append_right _ member⟩

end FileTree

end Orchestrator.Foundation
