import Mathlib.Data.List.Infix

/-! # Trees with symbolic links

A path is followed turn by turn, and a link on the way is followed from the directory it is in. A
reader of paths goes on where nothing is there; a host asks for a directory before each turn. What a
path leads to has no links in it, so following it again changes nothing.
-/

namespace Orchestrator.Foundation

/-- A turn on a way: to the parent, or into what has a name. -/
inductive PathTurn (Name : Type) where
  | up
  | into (name : Name)
  deriving DecidableEq

/-- What stands at a path. A link leads from the root or from its directory. -/
inductive LinkNode (Name : Type) where
  | dir
  | file (executable : Bool)
  | link (absolute : Bool) (target : List (PathTurn Name))
  deriving DecidableEq

/-- What stands at each path from the root. -/
abbrev LinkTree (Name : Type) := List (List Name × LinkNode Name)

namespace LinkTree

variable {Name : Type} [DecidableEq Name] (tree : LinkTree Name)

def node (path : List Name) : Option (LinkNode Name) := tree.lookup path

def isDir (path : List Name) : Bool := path = [] || tree.node path = some .dir

/-- A way, with what is done at a link. A strict one is only taken through directories. -/
def walk (strict : Bool) (enter : List Name → List (PathTurn Name) → Option (List Name)) :
    List Name → List (PathTurn Name) → Option (List Name)
  | path, [] => some path
  | path, .up :: rest =>
      if strict && !tree.isDir path then none else walk strict enter path.dropLast rest
  | path, .into name :: rest =>
      if strict && !tree.isDir path then none
      else
        match tree.node (path ++ [name]) with
        | some (.link absolute target) =>
            (enter (if absolute then [] else path) target).bind fun found =>
              walk strict enter found rest
        | _ => walk strict enter (path ++ [name]) rest

/-- A way through links that lead to links, up to a depth. -/
def follow (strict : Bool) : Nat → List Name → List (PathTurn Name) → Option (List Name)
  | 0 => tree.walk strict fun _ _ => none
  | depth + 1 => tree.walk strict (follow strict depth)

/-- No more links lead to links than there are, unless they lead in a circle. -/
def linkCount : Nat :=
  (tree.filter fun entry => match entry.2 with
    | .link .. => true
    | _ => false).length

/-- Where a way leads, or nothing where links lead in a circle. -/
def resolve (turns : List (PathTurn Name)) : Option (List Name) :=
  tree.follow false tree.linkCount [] turns

/-- What a host finds at the end of a way. -/
def stat (turns : List (PathTurn Name)) : Option (LinkNode Name) :=
  (tree.follow true tree.linkCount [] turns).bind tree.node

/-- The turns of a path. -/
def turns (path : List Name) : List (PathTurn Name) := path.map .into

/-- No part of a path is a link. -/
def Straight (path : List Name) : Prop :=
  ∀ start name, start ++ [name] <+: path → ∀ absolute target,
    tree.node (start ++ [name]) ≠ some (.link absolute target)

section Paths

variable {tree} {path found : List Name} {strict : Bool} {depth : Nat} {way : List (PathTurn Name)}

theorem straight_nil : tree.Straight [] := by
  intro start name before
  exact absurd (List.prefix_nil.mp before)
    (List.append_ne_nil_of_right_ne_nil _ (List.cons_ne_nil _ _))

theorem Straight.of_prefix {shorter : List Name} (straight : tree.Straight path)
    (before : shorter <+: path) : tree.Straight shorter :=
  fun start name inside => straight start name (inside.trans before)

/-- A straight path goes on into what is no link. -/
theorem Straight.concat {name : Name} (straight : tree.Straight path)
    (plain : ∀ absolute target, tree.node (path ++ [name]) ≠ some (.link absolute target)) :
    tree.Straight (path ++ [name]) := by
  intro start other before
  rcases List.prefix_concat_iff.mp before with same | shorter
  · rw [same]
    exact plain
  · exact straight start other shorter

/-- A way that starts straight leads to a straight path, if what links lead to is straight. -/
theorem straight_walk {enter : List Name → List (PathTurn Name) → Option (List Name)}
    (entered : ∀ {path way found}, tree.Straight path → enter path way = some found →
      tree.Straight found) :
    ∀ {path : List Name}, tree.Straight path → tree.walk strict enter path way = some found →
      tree.Straight found := by
  induction way with
  | nil =>
      intro path straight leads
      rw [walk] at leads
      exact Option.some.inj leads ▸ straight
  | cons turn rest ih =>
      intro path straight leads
      cases turn with
      | up =>
          rw [walk] at leads
          split at leads
          · cases leads
          · exact ih (straight.of_prefix (List.dropLast_prefix path)) leads
      | into name =>
          rw [walk] at leads
          split at leads
          · cases leads
          · split at leads
            · next absolute target _ =>
                obtain ⟨middle, enters, leads⟩ := Option.bind_eq_some_iff.mp leads
                refine ih (entered ?_ enters) leads
                split
                · exact straight_nil
                · exact straight
            · next other => exact ih (straight.concat other) leads

/-- Where a way leads is straight. -/
theorem straight_follow {path : List Name} (straight : tree.Straight path)
    (leads : tree.follow strict depth path way = some found) : tree.Straight found := by
  induction depth generalizing path way found with
  | zero => exact straight_walk (fun _ none => by cases none) straight leads
  | succ depth ih => exact straight_walk (fun straight enters => ih straight enters) straight leads

/-- A straight path leads to itself. -/
theorem walk_straight {enter : List Name → List (PathTurn Name) → Option (List Name)}
    {names : List Name} :
    ∀ {path : List Name}, tree.Straight (path ++ names) →
      tree.walk false enter path (turns names) = some (path ++ names) := by
  induction names with
  | nil =>
      intro path _
      rw [turns, List.map_nil, walk, List.append_nil]
  | cons name names ih =>
      intro path straight
      have whole : path ++ name :: names = path ++ [name] ++ names := by simp
      have plain := straight path name (whole ▸ List.prefix_append _ _)
      have next := ih (whole ▸ straight)
      rw [turns, List.map_cons, walk, Bool.false_and, if_neg Bool.false_ne_true, whole]
      split
      · next absolute target link => exact absurd link (plain absolute target)
      · exact next

/-- Following a path that a way leads to leads to itself. -/
theorem resolve_resolve (leads : tree.resolve way = some found) :
    tree.resolve (turns found) = some found := by
  have straight : tree.Straight ([] ++ found) := straight_follow straight_nil leads
  rw [resolve]
  cases tree.linkCount with
  | zero => exact walk_straight straight
  | succ depth => exact walk_straight straight

end Paths

end LinkTree

end Orchestrator.Foundation
