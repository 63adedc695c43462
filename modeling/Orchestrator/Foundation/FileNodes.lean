import Mathlib.Data.List.Nodup
import Orchestrator.Foundation.FileTree

/-! # Directories by name

An entry of a directory is found, set and erased by its name. Paths go down one name at a time:
directories are made as far as they are missing, and files are placed and removed.
-/

namespace Orchestrator.Foundation.FileTree

variable {Name Leaf : Type}

/-- An entry of a directory. -/
inductive Node (Name Leaf : Type) where
  | file (leaf : Leaf)
  | dir (children : FileTree Name Leaf)

/-- An entry under a name, and entries after it. -/
def Node.under (name : Name) (rest : FileTree Name Leaf) : Node Name Leaf → FileTree Name Leaf
  | .file leaf => FileTree.file name leaf rest
  | .dir children => FileTree.dir name children rest

@[simp] theorem Node.names_under (name : Name) (rest : FileTree Name Leaf)
    (node : Node Name Leaf) : (node.under name rest).names = name :: rest.names := by
  cases node <;> rfl

variable [DecidableEq Name]

/-- The first entry of a name. -/
def find? (wanted : Name) : FileTree Name Leaf → Option (Node Name Leaf)
  | empty => none
  | file name leaf rest => if wanted = name then some (.file leaf) else rest.find? wanted
  | dir name children rest => if wanted = name then some (.dir children) else rest.find? wanted

/-- The first entry of a name replaced, or a new one after the others. -/
def set (wanted : Name) (node : Node Name Leaf) : FileTree Name Leaf → FileTree Name Leaf
  | empty => node.under wanted empty
  | file name leaf rest =>
      if wanted = name then node.under wanted rest else file name leaf (rest.set wanted node)
  | dir name children rest =>
      if wanted = name then node.under wanted rest else dir name children (rest.set wanted node)

/-- The directory without the first entry of a name. -/
def erase (wanted : Name) : FileTree Name Leaf → FileTree Name Leaf
  | empty => empty
  | file name leaf rest => if wanted = name then rest else file name leaf (rest.erase wanted)
  | dir name children rest => if wanted = name then rest else dir name children (rest.erase wanted)

/-! ## One directory -/

section Directory

variable {tree : FileTree Name Leaf} {wanted other : Name} {node : Node Name Leaf}

theorem find?_eq_none : tree.find? wanted = none ↔ wanted ∉ tree.names := by
  induction tree with
  | empty => exact iff_of_true rfl List.not_mem_nil
  | file name leaf rest ih =>
      rw [find?, names, List.mem_cons, not_or]
      by_cases same : wanted = name
      · rw [if_pos same]
        exact iff_of_false (Option.some_ne_none _) fun both => both.1 same
      · rw [if_neg same, ih, and_iff_right same]
  | dir name children rest _ ih =>
      rw [find?, names, List.mem_cons, not_or]
      by_cases same : wanted = name
      · rw [if_pos same]
        exact iff_of_false (Option.some_ne_none _) fun both => both.1 same
      · rw [if_neg same, ih, and_iff_right same]

theorem mem_names_of_find? (found : tree.find? wanted = some node) : wanted ∈ tree.names := by
  by_contra absent
  rw [find?_eq_none.mpr absent] at found
  cases found

theorem find?_under (rest : FileTree Name Leaf) :
    (node.under other rest).find? wanted =
      if wanted = other then some node else rest.find? wanted := by
  cases node <;> rfl

theorem find?_set : (tree.set wanted node).find? other =
    if other = wanted then some node else tree.find? other := by
  induction tree with
  | empty => rw [set, find?_under]
  | file name leaf rest ih =>
      rw [set]
      by_cases same : wanted = name
      · subst same
        rw [if_pos rfl, find?_under, find?]
        split <;> rfl
      · rw [if_neg same, find?, ih, find?]
        by_cases here : other = name
        · subst here
          rw [if_pos rfl, if_neg (Ne.symm same), if_pos rfl]
        · rw [if_neg here, if_neg here]
  | dir name children rest _ ih =>
      rw [set]
      by_cases same : wanted = name
      · subst same
        rw [if_pos rfl, find?_under, find?]
        split <;> rfl
      · rw [if_neg same, find?, ih, find?]
        by_cases here : other = name
        · subst here
          rw [if_pos rfl, if_neg (Ne.symm same), if_pos rfl]
        · rw [if_neg here, if_neg here]

/-- An entry that is replaced keeps its place, and a new one comes last. -/
theorem names_set : (tree.set wanted node).names =
    if wanted ∈ tree.names then tree.names else tree.names ++ [wanted] := by
  induction tree with
  | empty => exact node.names_under wanted empty
  | file name leaf rest ih =>
      rw [set, names]
      by_cases same : wanted = name
      · subst same
        rw [if_pos rfl, if_pos List.mem_cons_self, node.names_under]
      · have later : wanted ∈ name :: rest.names ↔ wanted ∈ rest.names := by
          rw [List.mem_cons, or_iff_right same]
        simp only [if_neg same, names, ih, later]
        split <;> rfl
  | dir name children rest _ ih =>
      rw [set, names]
      by_cases same : wanted = name
      · subst same
        rw [if_pos rfl, if_pos List.mem_cons_self, node.names_under]
      · have later : wanted ∈ name :: rest.names ↔ wanted ∈ rest.names := by
          rw [List.mem_cons, or_iff_right same]
        simp only [if_neg same, names, ih, later]
        split <;> rfl

theorem names_erase : (tree.erase wanted).names = tree.names.erase wanted := by
  induction tree with
  | empty => rfl
  | file name leaf rest ih =>
      rw [erase, names, List.erase_cons]
      by_cases same : wanted = name
      · rw [if_pos same, if_pos (beq_iff_eq.mpr same.symm)]
      · rw [if_neg same, if_neg (mt beq_iff_eq.mp (Ne.symm same)), names, ih]
  | dir name children rest _ ih =>
      rw [erase, names, List.erase_cons]
      by_cases same : wanted = name
      · rw [if_pos same, if_pos (beq_iff_eq.mpr same.symm)]
      · rw [if_neg same, if_neg (mt beq_iff_eq.mp (Ne.symm same)), names, ih]

theorem find?_erase_of_ne (apart : other ≠ wanted) :
    (tree.erase wanted).find? other = tree.find? other := by
  induction tree with
  | empty => rfl
  | file name leaf rest ih =>
      rw [erase, find?]
      by_cases same : wanted = name
      · rw [if_pos same, if_neg fun here => apart (here.trans same.symm)]
      · rw [if_neg same, find?, ih]
  | dir name children rest _ ih =>
      rw [erase, find?]
      by_cases same : wanted = name
      · rw [if_pos same, if_neg fun here => apart (here.trans same.symm)]
      · rw [if_neg same, find?, ih]

theorem find?_erase_self (distinct : tree.names.Nodup) :
    (tree.erase wanted).find? wanted = none := by
  rw [find?_eq_none, names_erase]
  exact distinct.not_mem_erase

/-- Only the last entry set under a name stays. -/
theorem set_set (first second : Node Name Leaf) :
    (tree.set wanted first).set wanted second = tree.set wanted second := by
  have under (rest : FileTree Name Leaf) :
      (first.under wanted rest).set wanted second = second.under wanted rest := by
    cases first <;> exact if_pos rfl
  induction tree with
  | empty => exact under empty
  | file name leaf rest ih =>
      rw [set, set]
      by_cases same : wanted = name
      · rw [if_pos same, if_pos same, under]
      · rw [if_neg same, if_neg same, set, if_neg same, ih]
  | dir name children rest _ ih =>
      rw [set, set]
      by_cases same : wanted = name
      · rw [if_pos same, if_pos same, under]
      · rw [if_neg same, if_neg same, set, if_neg same, ih]

/-- An entry set to what it is. -/
theorem set_of_find? (found : tree.find? wanted = some node) : tree.set wanted node = tree := by
  induction tree with
  | empty => cases found
  | file name leaf rest ih =>
      rw [find?] at found
      rw [set]
      split at found
      · rename_i same
        cases found
        rw [if_pos same, same]
        rfl
      · rename_i other
        rw [if_neg other, ih found]
  | dir name children rest _ ih =>
      rw [find?] at found
      rw [set]
      split at found
      · rename_i same
        cases found
        rw [if_pos same, same]
        rfl
      · rename_i other
        rw [if_neg other, ih found]

theorem erase_of_notMem (absent : wanted ∉ tree.names) : tree.erase wanted = tree := by
  induction tree with
  | empty => rfl
  | file name leaf rest ih =>
      rw [names, List.mem_cons, not_or] at absent
      rw [erase, if_neg absent.1, ih absent.2]
  | dir name children rest _ ih =>
      rw [names, List.mem_cons, not_or] at absent
      rw [erase, if_neg absent.1, ih absent.2]

/-- The names of a tree are distinct when those of its root and of each directory below are. -/
theorem distinct_iff : tree.Distinct ↔ tree.names.Nodup ∧
    ∀ name children, tree.find? name = some (.dir children) → children.Distinct := by
  induction tree with
  | empty => exact ⟨fun _ => ⟨List.nodup_nil, fun _ _ found => by cases found⟩, fun _ => trivial⟩
  | file name leaf rest ih =>
      rw [Distinct, ih, names, List.nodup_cons, and_assoc]
      apply and_congr_right
      intro fresh
      apply and_congr_right
      intro _
      apply forall₂_congr
      intro other children
      rw [find?]
      by_cases same : other = name
      · rw [if_pos same, find?_eq_none.mpr (same ▸ fresh)]
        exact iff_of_true (fun found => by cases found) (fun found => by cases found)
      · rw [if_neg same]
  | dir name children rest _ ih =>
      rw [Distinct, ih, names, List.nodup_cons]
      constructor
      · rintro ⟨fresh, inside, distinct, below⟩
        refine ⟨⟨fresh, distinct⟩, fun other inner found => ?_⟩
        rw [find?] at found
        split at found
        · cases found
          exact inside
        · exact below other inner found
      · rintro ⟨⟨fresh, distinct⟩, below⟩
        refine ⟨fresh, below name children (by rw [find?, if_pos rfl]), distinct, ?_⟩
        intro other inner found
        apply below other inner
        rw [find?, if_neg, found]
        rintro rfl
        exact fresh (mem_names_of_find? found)

theorem distinct_set (distinct : tree.Distinct)
    (inside : ∀ children, node = .dir children → children.Distinct) :
    (tree.set wanted node).Distinct := by
  obtain ⟨apart, below⟩ := distinct_iff.mp distinct
  rw [distinct_iff, names_set]
  constructor
  · split
    · exact apart
    · rename_i fresh
      rw [← List.concat_eq_append]
      exact apart.concat fresh
  · intro name children found
    rw [find?_set] at found
    split at found
    · exact inside children (Option.some.inj found)
    · exact below name children found

theorem distinct_erase (distinct : tree.Distinct) : (tree.erase wanted).Distinct := by
  obtain ⟨apart, below⟩ := distinct_iff.mp distinct
  rw [distinct_iff, names_erase]
  refine ⟨apart.erase wanted, fun name children found => ?_⟩
  by_cases same : name = wanted
  · rw [same, find?_erase_self apart] at found
    cases found
  · rw [find?_erase_of_ne same] at found
    exact below name children found

end Directory

/-! ## Paths -/

/-- There is a directory at a path. -/
def isDir : List Name → FileTree Name Leaf → Bool
  | [], _ => true
  | name :: path, tree =>
      match tree.find? name with
      | some (.dir children) => children.isDir path
      | _ => false

/-- The directories of a path made as far as they are missing; none when a file is in the way. -/
def makeDirs : List Name → FileTree Name Leaf → Option (FileTree Name Leaf)
  | [], tree => some tree
  | name :: path, tree =>
      match tree.find? name with
      | some (.dir children) => (children.makeDirs path).map fun made => tree.set name (.dir made)
      | some (.file _) => none
      | none => (makeDirs path empty).map fun made => tree.set name (.dir made)

/-- A file put into the directory at a path. -/
def place (leaf : Leaf) (last : Name) : List Name → FileTree Name Leaf → FileTree Name Leaf
  | [], tree => tree.set last (.file leaf)
  | name :: path, tree =>
      match tree.find? name with
      | some (.dir children) => tree.set name (.dir (children.place leaf last path))
      | _ => tree

/-- An entry taken out of the directory at a path. -/
def remove (last : Name) : List Name → FileTree Name Leaf → FileTree Name Leaf
  | [], tree => tree.erase last
  | name :: path, tree =>
      match tree.find? name with
      | some (.dir children) => tree.set name (.dir (children.remove last path))
      | _ => tree

section Paths

variable {tree made : FileTree Name Leaf} {leaf : Leaf} {name last : Name}
  {path parent other : List Name}

/-- What is read below an entry. -/
def Node.read (path : List Name) : Node Name Leaf → Option Leaf
  | .file leaf => if path = [] then some leaf else none
  | .dir children => children.read path

theorem read_nil : tree.read [] = none := by
  cases tree <;> rfl

theorem read_cons : tree.read (name :: path) = (tree.find? name).bind (Node.read path) := by
  induction tree with
  | empty => rfl
  | file first leaf rest ih =>
      rw [read, find?]
      by_cases same : name = first
      · rw [if_pos same, if_pos same]
        rfl
      · rw [if_neg same, if_neg same, ih]
  | dir first children rest _ ih =>
      rw [read, find?]
      by_cases same : name = first
      · rw [if_pos same, if_pos same]
        rfl
      · rw [if_neg same, if_neg same, ih]

theorem read_set (node : Node Name Leaf) : (tree.set name node).read (last :: path) =
    if last = name then node.read path else tree.read (last :: path) := by
  rw [read_cons, find?_set, read_cons]
  split <;> rfl

/-- Made directories hold no file. -/
theorem read_makeDirs (makes : tree.makeDirs path = some made) :
    made.read other = tree.read other := by
  induction path generalizing tree made other with
  | nil =>
      cases makes
      rfl
  | cons name path ih =>
      cases other with
      | nil => rw [read_nil, read_nil]
      | cons first rest =>
          rw [makeDirs] at makes
          cases found : tree.find? name with
          | none =>
              rw [found] at makes
              obtain ⟨inner, below, rfl⟩ := Option.map_eq_some_iff.mp makes
              rw [read_set]
              by_cases same : first = name
              · rw [if_pos same, Node.read, ih below, same, read_cons, found]
                cases rest <;> rfl
              · rw [if_neg same]
          | some node =>
              cases node with
              | file leaf =>
                  rw [found] at makes
                  cases makes
              | dir children =>
                  rw [found] at makes
                  obtain ⟨inner, below, rfl⟩ := Option.map_eq_some_iff.mp makes
                  rw [read_set]
                  by_cases same : first = name
                  · rw [if_pos same, Node.read, ih below, same, read_cons, found]
                    rfl
                  · rw [if_neg same]

/-- The directories that are made are there. -/
theorem isDir_makeDirs (makes : tree.makeDirs path = some made) : made.isDir path = true := by
  induction path generalizing tree made with
  | nil => rfl
  | cons name path ih =>
      rw [makeDirs] at makes
      have down {inner : FileTree Name Leaf} (below : inner.isDir path = true) :
          (tree.set name (.dir inner)).isDir (name :: path) = true := by
        rw [isDir, find?_set, if_pos rfl]
        exact below
      cases found : tree.find? name with
      | none =>
          rw [found] at makes
          obtain ⟨inner, below, rfl⟩ := Option.map_eq_some_iff.mp makes
          exact down (ih below)
      | some node =>
          cases node with
          | file leaf =>
              rw [found] at makes
              cases makes
          | dir children =>
              rw [found] at makes
              obtain ⟨inner, below, rfl⟩ := Option.map_eq_some_iff.mp makes
              exact down (ih below)

theorem distinct_makeDirs (distinct : tree.Distinct) (makes : tree.makeDirs path = some made) :
    made.Distinct := by
  induction path generalizing tree made with
  | nil =>
      cases makes
      exact distinct
  | cons name path ih =>
      rw [makeDirs] at makes
      cases found : tree.find? name with
      | none =>
          rw [found] at makes
          obtain ⟨inner, below, rfl⟩ := Option.map_eq_some_iff.mp makes
          apply distinct_set distinct
          rintro children ⟨⟩
          exact ih (show (empty : FileTree Name Leaf).Distinct from trivial) below
      | some node =>
          cases node with
          | file leaf =>
              rw [found] at makes
              cases makes
          | dir children =>
              rw [found] at makes
              obtain ⟨inner, below, rfl⟩ := Option.map_eq_some_iff.mp makes
              apply distinct_set distinct
              rintro children ⟨⟩
              exact ih ((distinct_iff.mp distinct).2 name _ found) below

theorem distinct_place (distinct : tree.Distinct) : (tree.place leaf last parent).Distinct := by
  induction parent generalizing tree with
  | nil => exact distinct_set distinct nofun
  | cons name parent ih =>
      rw [place]
      split
      · rename_i children found
        apply distinct_set distinct
        rintro inner ⟨⟩
        exact ih ((distinct_iff.mp distinct).2 name children found)
      · exact distinct

theorem distinct_remove (distinct : tree.Distinct) : (tree.remove last parent).Distinct := by
  induction parent generalizing tree with
  | nil => exact distinct_erase distinct
  | cons name parent ih =>
      rw [remove]
      split
      · rename_i children found
        apply distinct_set distinct
        rintro inner ⟨⟩
        exact ih ((distinct_iff.mp distinct).2 name children found)
      · exact distinct

/-- A placed file is read at its path, and the others where they were. -/
theorem read_place (directory : tree.isDir parent = true)
    (free : tree.isDir (parent ++ [last]) = false) :
    (tree.place leaf last parent).read other =
      if other = parent ++ [last] then some leaf else tree.read other := by
  induction parent generalizing tree other with
  | nil =>
      cases other with
      | nil =>
          rw [read_nil, read_nil, List.nil_append, if_neg (List.cons_ne_nil _ _).symm]
      | cons first rest =>
          rw [place, read_set, List.nil_append]
          by_cases same : first = last
          · subst same
            rw [if_pos rfl, Node.read]
            by_cases whole : rest = []
            · rw [if_pos whole, if_pos (by rw [whole])]
            · rw [if_neg whole, if_neg fun equal => whole (List.cons.inj equal).2, read_cons]
              rw [List.nil_append, isDir] at free
              cases found : tree.find? first with
              | none => rfl
              | some node =>
                  cases node with
                  | file old => exact (if_neg whole).symm
                  | dir children =>
                      rw [found] at free
                      cases free
          · rw [if_neg same, if_neg fun equal => same (List.cons.inj equal).1]
  | cons name parent ih =>
      rw [isDir] at directory
      rw [List.cons_append, isDir] at free
      cases found : tree.find? name with
      | none =>
          rw [found] at directory
          cases directory
      | some node =>
          cases node with
          | file old =>
              rw [found] at directory
              cases directory
          | dir children =>
              rw [found] at directory free
              rw [place, found]
              cases other with
              | nil =>
                  rw [read_nil, read_nil, List.cons_append, if_neg (List.cons_ne_nil _ _).symm]
              | cons first rest =>
                  dsimp only
                  rw [read_set, List.cons_append]
                  by_cases same : first = name
                  · subst same
                    rw [if_pos rfl, Node.read, ih directory free, read_cons, found]
                    by_cases whole : rest = parent ++ [last]
                    · rw [if_pos whole, if_pos (by rw [whole])]
                    · rw [if_neg whole, if_neg fun equal => whole (List.cons.inj equal).2]
                      rfl
                  · rw [if_neg same, if_neg fun equal => same (List.cons.inj equal).1]

/-- A removed file is not read, and the others where they were. -/
theorem read_remove (distinct : tree.Distinct) (directory : tree.isDir parent = true)
    (free : tree.isDir (parent ++ [last]) = false) :
    (tree.remove last parent).read other =
      if other = parent ++ [last] then none else tree.read other := by
  induction parent generalizing tree other with
  | nil =>
      cases other with
      | nil => rw [read_nil, read_nil, ite_self]
      | cons first rest =>
          rw [remove, read_cons, List.nil_append, read_cons]
          by_cases same : first = last
          · subst same
            rw [find?_erase_self (distinct_iff.mp distinct).1, Option.bind_none]
            by_cases whole : rest = []
            · rw [if_pos (by rw [whole])]
            · rw [if_neg fun equal => whole (List.cons.inj equal).2]
              rw [List.nil_append, isDir] at free
              cases found : tree.find? first with
              | none => rfl
              | some node =>
                  cases node with
                  | file old => exact (if_neg whole).symm
                  | dir children =>
                      rw [found] at free
                      cases free
          · rw [find?_erase_of_ne same, if_neg fun equal => same (List.cons.inj equal).1]
  | cons name parent ih =>
      rw [isDir] at directory
      rw [List.cons_append, isDir] at free
      cases found : tree.find? name with
      | none =>
          rw [found] at directory
          cases directory
      | some node =>
          cases node with
          | file old =>
              rw [found] at directory
              cases directory
          | dir children =>
              rw [found] at directory free
              rw [remove, found]
              cases other with
              | nil => rw [read_nil, read_nil, ite_self]
              | cons first rest =>
                  have inside := (distinct_iff.mp distinct).2 name children found
                  dsimp only
                  rw [read_set, List.cons_append]
                  by_cases same : first = name
                  · subst same
                    rw [if_pos rfl, Node.read, ih inside directory free, read_cons, found]
                    by_cases whole : rest = parent ++ [last]
                    · rw [if_pos whole, if_pos (by rw [whole])]
                    · rw [if_neg whole, if_neg fun equal => whole (List.cons.inj equal).2]
                      rfl
                  · rw [if_neg same, if_neg fun equal => same (List.cons.inj equal).1]

/-- The directories are there as they were when a file is removed. -/
theorem isDir_remove (distinct : tree.Distinct) (free : tree.isDir (parent ++ [last]) = false) :
    (tree.remove last parent).isDir other = tree.isDir other := by
  induction parent generalizing tree other with
  | nil =>
      cases other with
      | nil => rfl
      | cons first rest =>
          rw [remove, isDir, isDir]
          by_cases same : first = last
          · subst same
            rw [find?_erase_self (distinct_iff.mp distinct).1]
            rw [List.nil_append, isDir] at free
            cases found : tree.find? first with
            | none => rfl
            | some node =>
                cases node with
                | file old => rfl
                | dir children =>
                    rw [found] at free
                    cases free
          · rw [find?_erase_of_ne same]
  | cons name parent ih =>
      rw [List.cons_append, isDir] at free
      rw [remove]
      cases found : tree.find? name with
      | none => rfl
      | some node =>
          cases node with
          | file old => rfl
          | dir children =>
              rw [found] at free
              cases other with
              | nil => rfl
              | cons first rest =>
                  have inside := (distinct_iff.mp distinct).2 name children found
                  dsimp only
                  rw [isDir, find?_set, isDir]
                  by_cases same : first = name
                  · rw [if_pos same, same, found]
                    exact ih inside free
                  · rw [if_neg same]

/-- A name that is no entry's is removed from nothing. -/
theorem remove_of_absent (unread : tree.read (parent ++ [last]) = none)
    (free : tree.isDir (parent ++ [last]) = false) : tree.remove last parent = tree := by
  induction parent generalizing tree with
  | nil =>
      rw [List.nil_append, read_cons] at unread
      rw [List.nil_append, isDir] at free
      apply erase_of_notMem
      cases found : tree.find? last with
      | none => exact find?_eq_none.mp found
      | some node =>
          rw [found] at unread free
          cases node with
          | file leaf => cases unread
          | dir children => cases free
  | cons name parent ih =>
      rw [List.cons_append, read_cons] at unread
      rw [List.cons_append, isDir] at free
      rw [remove]
      cases found : tree.find? name with
      | none => rfl
      | some node =>
          cases node with
          | file leaf => rfl
          | dir children =>
              rw [found] at unread free
              dsimp only
              rw [ih unread free]
              exact set_of_find? found

/-! ## Listed files -/

/-- A file that is read is listed. -/
theorem mem_files_of_read (found : tree.read path = some leaf) : (path, leaf) ∈ tree.files := by
  induction tree generalizing path with
  | empty =>
      cases path <;> cases found
  | file name old rest ih =>
      cases path with
      | nil => cases found
      | cons first path =>
          rw [read] at found
          split at found
          · rename_i same
            split at found
            · rename_i whole
              cases found
              rw [same, whole]
              exact List.mem_cons_self
            · cases found
          · exact List.mem_cons_of_mem _ (ih found)
  | dir name children rest ihChildren ih =>
      cases path with
      | nil => cases found
      | cons first path =>
          rw [read] at found
          split at found
          · rename_i same
            rw [same]
            exact List.mem_append_left _ (List.mem_map.mpr ⟨_, ihChildren found, rfl⟩)
          · exact List.mem_append_right _ (ih found)

/-- The files of a tree of distinct names are what is read. -/
theorem mem_files_iff_read (distinct : tree.Distinct) :
    (path, leaf) ∈ tree.files ↔ tree.read path = some leaf :=
  ⟨read_of_mem_files distinct, mem_files_of_read⟩

omit [DecidableEq Name] in
/-- No path is listed twice. -/
theorem nodup_files (distinct : tree.Distinct) : (tree.files.map Prod.fst).Nodup := by
  induction tree with
  | empty => exact List.nodup_nil
  | file name leaf rest ih =>
      rw [files, List.map_cons, List.nodup_cons]
      refine ⟨fun among => ?_, ih distinct.2⟩
      obtain ⟨⟨path, other⟩, listed, rfl⟩ := List.mem_map.mp among
      exact distinct.1 (head_mem_names listed)
  | dir name children rest ihChildren ih =>
      rw [files, List.map_append, List.map_map, List.nodup_append]
      refine ⟨?_, ih distinct.2.2, ?_⟩
      · have prefixed : (children.files.map (Prod.fst ∘ fun entry => (name :: entry.1, entry.2))) =
            (children.files.map Prod.fst).map (name :: ·) := by
          rw [List.map_map]
          rfl
        rw [prefixed]
        exact (ihChildren distinct.2.1).map List.cons_injective
      · rintro path inside other later rfl
        obtain ⟨entry, -, rfl⟩ := List.mem_map.mp inside
        obtain ⟨⟨_, other⟩, listed, same⟩ := List.mem_map.mp later
        cases same
        exact distinct.1 (head_mem_names listed)

end Paths

end Orchestrator.Foundation.FileTree
