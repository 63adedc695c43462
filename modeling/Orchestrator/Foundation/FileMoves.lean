import Orchestrator.Foundation.FileNodes

/-! # Files that are moved

A file is moved from path to path, over a file that is in its place; what stands elsewhere stays.
Directories can be made as far as no file is in the way.
-/

namespace Orchestrator.Foundation.FileTree

variable {Name Leaf : Type} [DecidableEq Name]

/-- A file or a directory is at a path. -/
def stands (path : List Name) (tree : FileTree Name Leaf) : Bool :=
  tree.isDir path || (tree.read path).isSome

/-- The names in the directory at a path. -/
def namesAt : List Name → FileTree Name Leaf → List Name
  | [], tree => tree.names
  | name :: path, tree =>
      match tree.find? name with
      | some (.dir children) => children.namesAt path
      | _ => []

/-- A file moved over what is at another path: none when it is no file, when a directory is in its
place, or when its place is in no directory. -/
def move (source target : List Name) (tree : FileTree Name Leaf) :
    Option (FileTree Name Leaf) :=
  match tree.read source, source.getLast?, target.getLast? with
  | some leaf, some first, some last =>
      if tree.isDir target || !tree.isDir target.dropLast then none
      else some ((tree.remove first source.dropLast).place leaf last target.dropLast)
  | _, _, _ => none

variable {tree made moved : FileTree Name Leaf} {leaf other : Leaf} {name : Name}
  {path front back source target : List Name}

/-! ## Where files and directories are -/

theorem isDir_cons_of_dir {children : FileTree Name Leaf}
    (found : tree.find? name = some (.dir children)) :
    tree.isDir (name :: path) = children.isDir path := by
  rw [isDir, found]

/-- Above a file there are directories. -/
theorem isDir_of_read (found : tree.read (front ++ back) = some leaf) (below : back ≠ []) :
    tree.isDir front = true := by
  induction front generalizing tree with
  | nil => rfl
  | cons name front ih =>
      rw [List.cons_append, read_cons] at found
      obtain ⟨node, there, found⟩ := Option.bind_eq_some_iff.mp found
      cases node with
      | file old =>
          rw [Node.read, if_neg fun none => below (List.append_eq_nil_iff.mp none).2] at found
          cases found
      | dir children =>
          rw [isDir_cons_of_dir there]
          exact ih found

/-- A file is listed in its directory. -/
theorem mem_namesAt_of_read (found : tree.read (front ++ [name]) = some leaf) :
    name ∈ tree.namesAt front := by
  induction front generalizing tree with
  | nil =>
      rw [List.nil_append, read_cons] at found
      obtain ⟨node, there, -⟩ := Option.bind_eq_some_iff.mp found
      exact mem_names_of_find? there
  | cons outer front ih =>
      rw [List.cons_append, read_cons] at found
      obtain ⟨node, there, found⟩ := Option.bind_eq_some_iff.mp found
      cases node with
      | file old =>
          rw [Node.read, if_neg fun none => List.cons_ne_nil _ _ (List.append_eq_nil_iff.mp none).2]
            at found
          cases found
      | dir children =>
          rw [namesAt, there]
          exact ih found

/-- A directory is no file. -/
theorem read_of_isDir (directory : tree.isDir path = true) : tree.read path = none := by
  induction path generalizing tree with
  | nil => exact read_nil
  | cons name path ih =>
      rw [read_cons]
      rw [isDir] at directory
      cases there : tree.find? name with
      | none => rfl
      | some node =>
          rw [there] at directory
          cases node with
          | file old => cases directory
          | dir children => exact ih directory

theorem isDir_eq_false (found : tree.read path = some leaf) : tree.isDir path = false := by
  rw [← Bool.not_eq_true]
  intro directory
  rw [read_of_isDir directory] at found
  cases found

/-- No file is below a file. -/
theorem eq_of_read_of_prefix (found : tree.read path = some leaf) (below : path <+: target)
    (inside : tree.read target = some other) : path = target := by
  obtain ⟨back, rfl⟩ := below
  by_contra apart
  have directory := isDir_of_read inside fun none => apart (by rw [none, List.append_nil])
  rw [read_of_isDir directory] at found
  cases found

theorem stands_eq_false : tree.stands path = false ↔
    tree.isDir path = false ∧ tree.read path = none := by
  rw [stands, Bool.or_eq_false_iff, Option.isSome_eq_false_iff, Option.isNone_iff_eq_none]

/-! ## Directories that are made -/

/-- Directories can be made unless a file is in the way. -/
theorem isSome_makeDirs : (tree.makeDirs path).isSome = true ↔
    ∀ front, front <+: path → tree.read front = none := by
  induction path generalizing tree with
  | nil =>
      refine iff_of_true rfl fun front start => ?_
      rw [List.prefix_nil.mp start]
      exact read_nil
  | cons name path ih =>
      have split (front : List Name) : front <+: name :: path ↔
          front = [] ∨ ∃ rest, front = name :: rest ∧ rest <+: path := by
        cases front with
        | nil => exact iff_of_true List.nil_prefix (.inl rfl)
        | cons first rest =>
            rw [List.cons_prefix_cons]
            exact ⟨fun ⟨same, start⟩ => .inr ⟨rest, by rw [same], start⟩, fun shape => by
              rcases shape with none | ⟨_, same, start⟩
              · cases none
              · cases same
                exact ⟨rfl, start⟩⟩
      have below : (∀ front, front <+: name :: path → tree.read front = none) ↔
          ∀ rest, rest <+: path → tree.read (name :: rest) = none := by
        constructor
        · exact fun free rest start => free _ ((split _).mpr (.inr ⟨rest, rfl, start⟩))
        · intro free front start
          rcases (split front).mp start with rfl | ⟨rest, rfl, inner⟩
          · exact read_nil
          · exact free rest inner
      rw [below, makeDirs]
      cases there : tree.find? name with
      | none =>
          have nothing (rest : List Name) : (empty : FileTree Name Leaf).read rest = none := by
            cases rest <;> rfl
          refine iff_of_true ?_ fun rest _ => by rw [read_cons, there, Option.bind_none]
          rw [Option.isSome_map]
          exact ih.mpr fun front _ => nothing front
      | some node =>
          cases node with
          | file old =>
              refine iff_of_false Bool.false_ne_true fun free => ?_
              have empty := free [] List.nil_prefix
              rw [read_cons, there, Option.bind_some, Node.read, if_pos rfl] at empty
              cases empty
          | dir children =>
              dsimp only
              rw [Option.isSome_map, ih]
              refine forall_congr' fun rest => imp_congr_right fun _ => ?_
              rw [read_cons, there, Option.bind_some, Node.read]

/-- The directories after some were made. -/
theorem isDir_makeDirs_iff (makes : tree.makeDirs path = some made) :
    made.isDir target = true ↔ tree.isDir target = true ∨ target <+: path := by
  induction path generalizing tree made target with
  | nil =>
      cases makes
      refine ⟨.inl, fun either => either.elim id fun start => ?_⟩
      rw [List.prefix_nil.mp start]
      rfl
  | cons name path ih =>
      cases target with
      | nil => exact iff_of_true rfl (.inl rfl)
      | cons first rest =>
          rw [makeDirs] at makes
          cases there : tree.find? name with
          | none =>
              rw [there] at makes
              obtain ⟨inner, below, rfl⟩ := Option.map_eq_some_iff.mp makes
              rw [isDir, find?_set, isDir, List.cons_prefix_cons]
              by_cases same : first = name
              · rw [if_pos same, same, there]
                dsimp only
                rw [ih below, or_iff_right Bool.false_ne_true]
                refine ⟨fun either => ⟨rfl, either.elim (fun directory => ?_) id⟩,
                  fun start => .inr start.2⟩
                cases rest with
                | nil => exact List.nil_prefix
                | cons _ _ => cases directory
              · rw [if_neg same, or_iff_left fun start => same start.1]
          | some node =>
              cases node with
              | file old =>
                  rw [there] at makes
                  cases makes
              | dir children =>
                  rw [there] at makes
                  obtain ⟨inner, below, rfl⟩ := Option.map_eq_some_iff.mp makes
                  rw [isDir, find?_set, isDir, List.cons_prefix_cons]
                  by_cases same : first = name
                  · rw [if_pos same, same, there]
                    dsimp only
                    rw [ih below, and_iff_right rfl]
                  · rw [if_neg same, or_iff_left fun start => same start.1]

/-! ## Moves -/

theorem isDir_place (directory : tree.isDir front = true)
    (free : tree.isDir (front ++ [name]) = false) :
    (tree.place leaf name front).isDir path = tree.isDir path := by
  induction front generalizing tree path with
  | nil =>
      cases path with
      | nil => rfl
      | cons first rest =>
          rw [place, isDir, find?_set, isDir]
          by_cases same : first = name
          · rw [if_pos same, same]
            rw [List.nil_append, isDir] at free
            cases there : tree.find? name with
            | none => rfl
            | some node =>
                rw [there] at free
                cases node with
                | file old => rfl
                | dir children => cases free
          · rw [if_neg same]
  | cons outer front ih =>
      rw [isDir] at directory
      rw [List.cons_append, isDir] at free
      cases there : tree.find? outer with
      | none =>
          rw [there] at directory
          cases directory
      | some node =>
          rw [there] at directory free
          cases node with
          | file old => cases directory
          | dir children =>
              rw [place, there]
              dsimp only
              cases path with
              | nil => rfl
              | cons first rest =>
                  rw [isDir, find?_set, isDir]
                  by_cases same : first = outer
                  · rw [if_pos same, same, there]
                    exact ih directory free
                  · rw [if_neg same]

omit [DecidableEq Name] in
/-- A path taken apart at its last name. -/
theorem eq_dropLast_concat {last : Name} (ends : path.getLast? = some last) :
    path = path.dropLast ++ [last] := by
  obtain ⟨filled, rfl⟩ := List.getLast?_eq_some_iff.mp ends |>.imp fun _ same => same
  rw [List.dropLast_concat]

/-- What a move needs, and what it makes. -/
theorem of_move (moves : tree.move source target = some moved) :
    ∃ leaf first last, tree.read source = some leaf ∧ source.getLast? = some first ∧
      target.getLast? = some last ∧ tree.isDir target = false ∧
      tree.isDir target.dropLast = true ∧
      moved = (tree.remove first source.dropLast).place leaf last target.dropLast := by
  rw [move] at moves
  cases found : tree.read source with
  | none =>
      rw [found] at moves
      cases moves
  | some leaf =>
      cases first : source.getLast? with
      | none =>
          rw [found, first] at moves
          cases moves
      | some begun =>
          cases last : target.getLast? with
          | none =>
              rw [found, first, last] at moves
              cases moves
          | some ended =>
              rw [found, first, last] at moves
              dsimp only at moves
              split at moves
              · cases moves
              · rename_i free
                rw [Bool.or_eq_true, not_or, Bool.not_eq_true, Bool.not_eq_true', Bool.not_eq_false]
                  at free
                cases moves
                exact ⟨leaf, begun, ended, rfl, rfl, rfl, free.1, free.2, rfl⟩

section Moves

variable (distinct : tree.Distinct) (moves : tree.move source target = some moved)
include distinct moves

/-- A moved file is read at its new path only, and the others where they were. -/
theorem read_move : moved.read path =
    if path = target then tree.read source
    else if path = source then none else tree.read path := by
  obtain ⟨leaf, first, last, found, begun, ended, free, directory, rfl⟩ := of_move moves
  have start := eq_dropLast_concat begun
  have stop := eq_dropLast_concat ended
  have parent : tree.isDir source.dropLast = true :=
    isDir_of_read (by rw [← start]; exact found) (List.cons_ne_nil first [])
  have plain := isDir_eq_false found
  rw [start] at plain
  rw [stop] at free
  rw [read_place (by rw [isDir_remove distinct plain]; exact directory)
    (by rw [isDir_remove distinct plain]; exact free), read_remove distinct parent plain,
    ← start, ← stop, found]

theorem isDir_move : moved.isDir path = tree.isDir path := by
  obtain ⟨leaf, first, last, found, begun, ended, free, directory, rfl⟩ := of_move moves
  have plain := isDir_eq_false found
  rw [eq_dropLast_concat begun] at plain
  rw [eq_dropLast_concat ended] at free
  rw [isDir_place (by rw [isDir_remove distinct plain]; exact directory)
    (by rw [isDir_remove distinct plain]; exact free), isDir_remove distinct plain]

theorem distinct_move : moved.Distinct := by
  obtain ⟨leaf, first, last, -, -, -, -, -, rfl⟩ := of_move moves
  exact distinct_place (distinct_remove distinct)

end Moves

/-- A file goes wherever its place is in a directory and is none itself. -/
theorem isSome_move (found : tree.read source = some leaf) (filled : target ≠ [])
    (free : tree.isDir target = false) (directory : tree.isDir target.dropLast = true) :
    (tree.move source target).isSome = true := by
  have begun : source ≠ [] := by
    rintro rfl
    rw [read_nil] at found
    cases found
  rw [move, found, List.getLast?_eq_some_getLast begun, List.getLast?_eq_some_getLast filled,
    free, directory]
  rfl

end Orchestrator.Foundation.FileTree
