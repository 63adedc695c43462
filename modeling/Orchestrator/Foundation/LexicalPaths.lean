import Orchestrator.Foundation.PosixPath

/-! # Paths compared as texts

A path is normalised without asking a filesystem: separators are collapsed, single dots dropped and
double dots taken back. The POSIX normaliser keeps a start of exactly two separators as a root of
its own. A path lies within another one that its names start with.
-/

namespace Orchestrator.Foundation.LexicalPath

open PyText (ofString)

/-- A normalised path: how many separators it starts with, and its names. -/
structure Form where
  root : Nat
  names : List PyText
  deriving DecidableEq

namespace Form

variable {first second third : Form}

/-- A path is another one, or lies within it. -/
def Within (inner outer : Form) : Prop := inner.root = outer.root ∧ outer.names <+: inner.names

instance decidableWithin (inner outer : Form) : Decidable (inner.Within outer) :=
  inferInstanceAs (Decidable (_ ∧ _))

/-- One of two paths lies within the other. -/
def Meets (first second : Form) : Prop := first.Within second ∨ second.Within first

instance decidableMeets (first second : Form) : Decidable (first.Meets second) :=
  inferInstanceAs (Decidable (_ ∨ _))

/-- The path of a name within a path. -/
def child (form : Form) (name : PyText) : Form := ⟨form.root, form.names ++ [name]⟩

theorem within_refl (form : Form) : form.Within form := ⟨rfl, List.prefix_rfl⟩

theorem Within.trans (inner : first.Within second) (outer : second.Within third) :
    first.Within third :=
  ⟨inner.1.trans outer.1, outer.2.trans inner.2⟩

theorem within_child (form : Form) (name : PyText) : (form.child name).Within form :=
  ⟨rfl, List.prefix_append _ _⟩

/-- Two paths that a path lies within meet. -/
theorem Within.meets (one : first.Within second) (other : first.Within third) :
    second.Meets third := by
  have roots : second.root = third.root := one.1.symm.trans other.1
  rcases List.prefix_or_prefix_of_prefix one.2 other.2 with longer | longer
  · exact .inr ⟨roots.symm, longer⟩
  · exact .inl ⟨roots, longer⟩

theorem Meets.symm (meets : first.Meets second) : second.Meets first := Or.symm meets

/-- A path that meets a child of a new name has the child within it, and its parent. -/
theorem Meets.within_of_fresh {name : PyText} (meets : first.Meets (second.child name))
    (fresh : name ∉ first.names) : second.Within first := by
  have unlike : ¬ second.names ++ [name] <+: first.names := fun longer =>
    fresh (longer.subset (List.mem_append_right _ (List.mem_singleton_self _)))
  rcases meets with inner | outer
  · exact absurd inner.2 unlike
  · refine ⟨outer.1, ?_⟩
    rcases List.prefix_concat_iff.mp outer.2 with whole | shorter
    · exact absurd (whole ▸ List.prefix_rfl) unlike
    · exact shorter

end Form

/-! ## Normalising -/

/-- A name after the names before it: empty ones and single dots are dropped, and a double dot takes
a name back. At a root there is none to take back. -/
def step (rooted : Bool) (names : List PyText) (name : PyText) : List PyText :=
  if name = [] ∨ name = ofString "." then names
  else if name ≠ ofString ".." ∨ (rooted = false ∧ names = []) ∨
      names.getLast? = some (ofString "..") then names ++ [name]
  else names.dropLast

/-- The separators that `posixpath.normpath` starts a path with. -/
def normRoot (text : PyText) : Nat :=
  match text with
  | 47 :: 47 :: 47 :: _ => 1
  | 47 :: 47 :: _ => 2
  | 47 :: _ => 1
  | _ => 0

/-- `PurePosixPath(posixpath.normpath(text))`. -/
def normForm (text : PyText) : Form :=
  ⟨normRoot text, (text.splitOn 47).foldl (step (decide (normRoot text ≠ 0))) []⟩

/-- Backslashes as separators. -/
def forwardSlashes (text : PyText) : PyText :=
  text.map fun point => if point = 92 then 47 else point

/-- A form whose root is one separator, however many there were. -/
def Form.collapsed (form : Form) : Form := ⟨min form.root 1, form.names⟩

variable {text name : PyText}

/-- A proper name is one on its own. -/
def IsName (name : PyText) : Prop :=
  name ≠ [] ∧ name ≠ ofString "." ∧ name ≠ ofString ".." ∧ 47 ∉ name

theorem step_name (isName : IsName name) (rooted : Bool) (names : List PyText) :
    step rooted names name = names ++ [name] := by
  obtain ⟨filled, dot, dots, -⟩ := isName
  rw [step, if_neg (not_or.mpr ⟨filled, dot⟩), if_pos (.inl dots)]

theorem normRoot_le (text : PyText) : normRoot text ≤ 2 := by
  unfold normRoot
  split <;> decide

/-- A text without a mark is one part. -/
theorem splitOn_of_not_mem {mark : CodePoint} (apart : mark ∉ text) :
    text.splitOn mark = [text] := by
  have split : ([mark].intercalate [text]).splitOn mark = [text] := by
    apply List.splitOn_intercalate
    · intro part among
      rwa [List.mem_singleton.mp among]
    · exact List.cons_ne_nil _ _
  rwa [List.intercalate_singleton] at split

theorem normRoot_name (isName : IsName name) : normRoot name = 0 := by
  cases name with
  | nil => rfl
  | cons first rest =>
      have unlike : first ≠ 47 := fun same => isName.2.2.2 (same ▸ List.mem_cons_self)
      simp [normRoot, unlike]

/-- A name alone is a path of one name. -/
theorem normForm_name (isName : IsName name) : normForm name = ⟨0, [name]⟩ := by
  rw [normForm, normRoot_name isName, splitOn_of_not_mem isName.2.2.2, List.foldl_cons,
    List.foldl_nil,
    step_name isName]
  rfl

/-- A name behind a separator is a child, unless the text is the separator before it. -/
theorem normForm_child (isName : IsName name)
    (long : normRoot (text ++ 47 :: name) = normRoot text) :
    normForm (text ++ 47 :: name) = (normForm text).child name := by
  rw [normForm, long, List.splitOn_append_cons_self, splitOn_of_not_mem isName.2.2.2,
    List.foldl_append,
    List.foldl_cons, List.foldl_nil, step_name isName]
  rfl

theorem rooted_cons (rest : PyText) : normRoot (47 :: rest) ≠ 0 := by
  unfold normRoot
  split
  · exact Nat.one_ne_zero
  · exact Nat.succ_ne_zero 1
  · exact Nat.one_ne_zero
  · next other => exact absurd rfl (other rest)

theorem exists_cons_of_rooted (rooted : normRoot text ≠ 0) : ∃ rest, text = 47 :: rest := by
  unfold normRoot at rooted
  split at rooted
  · exact ⟨_, rfl⟩
  · exact ⟨_, rfl⟩
  · exact ⟨_, rfl⟩
  · exact absurd rfl rooted

/-- Two more separators before a rooted text make its root a single one. -/
theorem normForm_slashes (rooted : normRoot text ≠ 0) :
    normForm (47 :: 47 :: text) = (normForm text).collapsed := by
  have start := exists_cons_of_rooted rooted
  have one : normRoot (47 :: 47 :: text) = 1 := by
    obtain ⟨rest, rfl⟩ := start
    rfl
  have split : ∀ rest : PyText, (47 :: rest).splitOn 47 = [] :: rest.splitOn 47 := by
    intro rest
    exact List.splitOn_append_cons_self [] rest
  have least : min (normRoot text) 1 = 1 := by omega
  rw [normForm, one, split, split, List.foldl_cons, List.foldl_cons, step, if_pos (.inl rfl), step,
    if_pos (.inl rfl), Form.collapsed, normForm, least, decide_eq_true rooted,
    decide_eq_true Nat.one_ne_zero]

/-- Under a form, collapsed, there is a text for every name. -/
theorem exists_normForm_child (isName : IsName name) (filled : text ≠ []) :
    ∃ start, normForm (start ++ text ++ 47 :: name) = (normForm text).collapsed.child name ∧
      (start = [] ∨ start = [47, 47]) := by
  by_cases rooted : normRoot text = 0
  · refine ⟨[], ?_, .inl rfl⟩
    have long : normRoot (text ++ 47 :: name) = normRoot text := by
      cases text with
      | nil => exact absurd rfl filled
      | cons first rest =>
          have unlike : first ≠ 47 := by
            rintro rfl
            exact rooted_cons rest rooted
          simp [normRoot, unlike]
    have least : (normForm text).collapsed = normForm text := by
      rw [Form.collapsed, normForm, rooted]
      rfl
    rw [List.nil_append, normForm_child isName long, least]
  · refine ⟨[47, 47], ?_, .inr rfl⟩
    have long : normRoot (47 :: 47 :: text ++ 47 :: name) = normRoot (47 :: 47 :: text) := by
      obtain ⟨rest, rfl⟩ := exists_cons_of_rooted rooted
      rfl
    exact (normForm_child isName long).trans
      (congrArg (Form.child · name) (normForm_slashes rooted))

/-- The names of a form are names of the text. -/
theorem mem_names (among : name ∈ (normForm text).names) : name ∈ text.splitOn 47 := by
  have kept : ∀ (parts names : List PyText) (rooted : Bool),
      name ∈ parts.foldl (step rooted) names → name ∈ names ∨ name ∈ parts := by
    intro parts
    induction parts with
    | nil => exact fun _ _ among => .inl among
    | cons part parts ih =>
        intro names rooted among
        rw [List.foldl_cons] at among
        rcases ih _ rooted among with before | later
        · rw [step] at before
          split at before
          · exact .inl before
          · split at before
            · rcases List.mem_append.mp before with old | new
              · exact .inl old
              · exact .inr (List.mem_singleton.mp new ▸ List.mem_cons_self)
            · exact .inl (List.dropLast_subset _ before)
        · exact .inr (List.mem_cons_of_mem _ later)
  exact (kept _ [] _ among).resolve_left List.not_mem_nil

/-- The parts of a text stand in it. -/
theorem infix_of_mem_splitOn {part : PyText} {mark : CodePoint}
    (among : part ∈ text.splitOn mark) : part <:+: text := by
  have joined : ∀ {parts : List PyText}, part ∈ parts → part <:+: [mark].intercalate parts := by
    intro parts
    induction parts with
    | nil => exact fun none => absurd none List.not_mem_nil
    | cons first parts ih =>
        intro listed
        cases parts with
        | nil =>
            rw [List.intercalate_singleton, List.mem_singleton.mp listed]
        | cons next more =>
            rw [List.intercalate_cons_cons]
            rcases List.mem_cons.mp listed with rfl | later
            · exact ((List.prefix_append _ _).trans (List.prefix_append _ _)).isInfix
            · exact (ih later).trans (List.suffix_append _ _).isInfix
  have stands := joined among
  rwa [List.intercalate_splitOn] at stands

/-- The names of a form stand in the text. -/
theorem infix_of_mem_names (among : name ∈ (normForm text).names) : name <:+: text :=
  infix_of_mem_splitOn (mem_names among)

end Orchestrator.Foundation.LexicalPath
