import Orchestrator.Checks.Selection

/-! # The dialect of globs

What a pattern of the dialect takes in, as it is documented: `**` any number of segments, `*` and
`?` letters of one segment. A compiled glob takes in the same texts, but for those of which `**`
would have to take in the end of a line.
-/

namespace Orchestrator.Checks

open Orchestrator.Foundation

/-! ## What a pattern takes in -/

/-- Directories at the beginning of a path, each with the separator after it. -/
def leading (dirs : List (List Char)) : List Char := dirs.flatMap fun dir => dir ++ ['/']

/-- A pattern takes in a text. What `**` takes in is of the given letters only. -/
inductive Glob (wild : Char → Prop) : List Char → List Char → Prop
  | empty : Glob wild [] []
  | directories {pattern text : List Char} (dirs : List (List Char))
      (segments : ∀ dir ∈ dirs, '/' ∉ dir) (taken : ∀ letter ∈ leading dirs, wild letter)
      (rest : Glob wild pattern text) :
      Glob wild ('*' :: '*' :: '/' :: pattern) (leading dirs ++ text)
  | anything {pattern text : List Char} (any : List Char) (other : pattern.head? ≠ some '/')
      (taken : ∀ letter ∈ any, wild letter) (rest : Glob wild pattern text) :
      Glob wild ('*' :: '*' :: pattern) (any ++ text)
  | segment {pattern text : List Char} (part : List Char) (other : pattern.head? ≠ some '*')
      (within : '/' ∉ part) (rest : Glob wild pattern text) :
      Glob wild ('*' :: pattern) (part ++ text)
  | one {pattern text : List Char} (letter : Char) (within : letter ≠ '/')
      (rest : Glob wild pattern text) : Glob wild ('?' :: pattern) (letter :: text)
  | plain {pattern text : List Char} (letter : Char) (ordinary : letter ≠ '*' ∧ letter ≠ '?')
      (rest : Glob wild pattern text) : Glob wild (letter :: pattern) (letter :: text)

theorem Glob.mono {wild wilder : Char → Prop} (wider : ∀ letter, wild letter → wilder letter)
    {pattern text : List Char} (glob : Glob wild pattern text) : Glob wilder pattern text := by
  induction glob with
  | empty => exact .empty
  | directories dirs segments taken _ ih =>
      exact .directories dirs segments (fun letter among => wider letter (taken letter among)) ih
  | anything any other taken _ ih =>
      exact .anything any other (fun letter among => wider letter (taken letter among)) ih
  | segment part other within _ ih => exact .segment part other within ih
  | one letter within _ ih => exact .one letter within ih
  | plain letter ordinary _ ih => exact .plain letter ordinary ih

/-! ## Directories -/

/-- A text that ends with a separator is made of directories. -/
theorem exists_leading (front : List Char) :
    ∃ dirs, (∀ dir ∈ dirs, '/' ∉ dir) ∧ leading dirs = front ++ ['/'] := by
  induction front with
  | nil =>
      refine ⟨[[]], fun dir among => ?_, rfl⟩
      rw [List.mem_singleton.mp among]
      exact List.not_mem_nil
  | cons letter front ih =>
      obtain ⟨dirs, segments, joined⟩ := ih
      by_cases separator : letter = '/'
      · refine ⟨[] :: dirs, fun dir among => ?_, ?_⟩
        · rcases List.mem_cons.mp among with rfl | later
          · exact List.not_mem_nil
          · exact segments dir later
        · rw [leading, List.flatMap_cons, ← leading, joined, separator]
          rfl
      · cases dirs with
        | nil =>
          exact absurd joined.symm (List.append_ne_nil_of_right_ne_nil _ (List.cons_ne_nil _ _))
        | cons first dirs =>
            refine ⟨(letter :: first) :: dirs, fun dir among => ?_, ?_⟩
            · rcases List.mem_cons.mp among with rfl | later
              · intro inside
                rcases List.mem_cons.mp inside with same | inside
                · exact separator same.symm
                · exact segments first List.mem_cons_self inside
              · exact segments dir (List.mem_cons_of_mem _ later)
            · rw [leading, List.flatMap_cons] at joined ⊢
              rw [List.cons_append, List.cons_append, joined, List.cons_append]

/-- Directories are nothing, or end with a separator. -/
theorem leading_cases (dirs : List (List Char)) :
    leading dirs = [] ∨ ∃ front, leading dirs = front ++ ['/'] := by
  rcases List.eq_nil_or_concat dirs with rfl | ⟨dirs, last, rfl⟩
  · exact .inl rfl
  · refine .inr ⟨leading dirs ++ last, ?_⟩
    rw [leading, List.concat_eq_append, List.flatMap_append, List.flatMap_singleton,
      List.append_assoc, leading]

/-! ## What a part leaves -/

theorem mem_dropsWhile {test : Char → Bool} {text rest : List Char} :
    rest ∈ dropsWhile test text ↔
      ∃ taken, text = taken ++ rest ∧ ∀ letter ∈ taken, test letter = true := by
  induction text with
  | nil =>
      rw [dropsWhile, List.mem_singleton]
      constructor
      · rintro rfl
        exact ⟨[], rfl, fun _ none => absurd none List.not_mem_nil⟩
      · rintro ⟨taken, split, -⟩
        exact (List.append_eq_nil_iff.mp split.symm).2
  | cons letter text ih =>
      rw [dropsWhile, List.mem_cons]
      constructor
      · rintro (rfl | later)
        · exact ⟨[], rfl, fun _ none => absurd none List.not_mem_nil⟩
        · by_cases passes : test letter = true
          · rw [if_pos passes] at later
            obtain ⟨taken, split, all⟩ := ih.mp later
            refine ⟨letter :: taken, by rw [split, List.cons_append], fun point among => ?_⟩
            rcases List.mem_cons.mp among with rfl | inside
            · exact passes
            · exact all point inside
          · rw [if_neg passes] at later
            exact absurd later List.not_mem_nil
      · rintro ⟨taken, split, all⟩
        cases taken with
        | nil => exact .inl split.symm
        | cons first taken =>
            obtain ⟨rfl, rfl⟩ := List.cons.inj split
            rw [if_pos (all letter List.mem_cons_self)]
            exact .inr (ih.mpr ⟨taken, rfl, fun point among =>
              all point (List.mem_cons_of_mem _ among)⟩)

/-- `**/` leaves what is after directories without the end of a line. -/
theorem mem_rests_directories {text rest : List Char} :
    rest ∈ GlobPart.directories.rests text ↔
      ∃ dirs, (∀ dir ∈ dirs, '/' ∉ dir) ∧ (∀ letter ∈ leading dirs, letter ≠ '\n') ∧
        text = leading dirs ++ rest := by
  rw [GlobPart.rests, List.mem_cons, List.mem_map]
  constructor
  · rintro (rfl | ⟨after, among, rfl⟩)
    · exact ⟨[], fun _ none => absurd none List.not_mem_nil,
        fun _ none => absurd none List.not_mem_nil, rfl⟩
    · obtain ⟨drops, separator⟩ := List.mem_filter.mp among
      obtain ⟨front, rfl, all⟩ := mem_dropsWhile.mp drops
      obtain ⟨rest, rfl⟩ := List.head?_eq_some_iff.mp (of_decide_eq_true separator)
      obtain ⟨dirs, segments, joined⟩ := exists_leading front
      refine ⟨dirs, segments, fun letter among => ?_, ?_⟩
      · rw [joined] at among
        rcases List.mem_append.mp among with inside | last
        · exact of_decide_eq_true (all letter inside)
        · rw [List.mem_singleton.mp last]
          decide
      · rw [joined, List.append_assoc]
        rfl
  · rintro ⟨dirs, -, plain, rfl⟩
    rcases leading_cases dirs with none | ⟨front, ends⟩
    · exact .inl (by rw [none, List.nil_append])
    · rw [ends] at plain ⊢
      refine .inr ⟨'/' :: rest, List.mem_filter.mpr ⟨mem_dropsWhile.mpr ⟨front, ?_, ?_⟩, rfl⟩, rfl⟩
      · rw [List.append_assoc]
        rfl
      · exact fun letter among => decide_eq_true (plain letter (List.mem_append_left _ among))

/-- What is left of a text after a part, then taken in by the other parts. -/
theorem globFullMatch_cons {part : GlobPart} {parts : List GlobPart} {text : List Char} :
    globFullMatch (part :: parts) text = true ↔
      ∃ rest ∈ part.rests text, globFullMatch parts rest = true := by
  rw [globFullMatch, List.any_eq_true]

/-! ## Compiled globs -/

/-- A compiled glob takes in what the pattern does, `**` without the end of a line. -/
theorem globFullMatch_iff (pattern text : List Char) :
    globFullMatch (compileGlob pattern) text = true ↔ Glob (· ≠ '\n') pattern text := by
  induction pattern using compileGlob.induct generalizing text with
  | case1 pattern ih =>
      rw [compileGlob, globFullMatch_cons]
      constructor
      · rintro ⟨rest, left, matched⟩
        obtain ⟨dirs, segments, plain, rfl⟩ := mem_rests_directories.mp left
        exact .directories dirs segments plain ((ih rest).mp matched)
      · intro glob
        cases glob with
        | directories dirs segments taken rest =>
            exact ⟨_, mem_rests_directories.mpr ⟨dirs, segments, taken, rfl⟩, (ih _).mpr rest⟩
        | anything any other => exact absurd rfl other
        | segment part other => exact absurd rfl other
        | plain letter ordinary => exact absurd rfl ordinary.1
  | case2 pattern other ih =>
      have apart : pattern.head? ≠ some '/' := by
        intro starts
        obtain ⟨rest, same⟩ := List.head?_eq_some_iff.mp starts
        exact other rest same
      rw [compileGlob.eq_2 pattern other, globFullMatch_cons]
      constructor
      · rintro ⟨rest, left, matched⟩
        obtain ⟨any, rfl, plain⟩ := mem_dropsWhile.mp left
        exact .anything any apart (fun letter among => of_decide_eq_true (plain letter among))
          ((ih rest).mp matched)
      · intro glob
        cases glob with
        | directories => exact absurd rfl apart
        | anything any _ taken rest =>
            exact ⟨_, mem_dropsWhile.mpr ⟨any, rfl, fun letter among =>
              decide_eq_true (taken letter among)⟩, (ih _).mpr rest⟩
        | segment part starred => exact absurd rfl starred
        | plain letter ordinary => exact absurd rfl ordinary.1
  | case3 pattern others other ih =>
      have apart : pattern.head? ≠ some '*' := by
        intro starts
        obtain ⟨rest, same⟩ := List.head?_eq_some_iff.mp starts
        exact other rest same
      rw [compileGlob.eq_3 pattern others other, globFullMatch_cons]
      constructor
      · rintro ⟨rest, left, matched⟩
        obtain ⟨part, rfl, within⟩ := mem_dropsWhile.mp left
        refine .segment part apart (fun inside => ?_) ((ih rest).mp matched)
        exact of_decide_eq_true (within _ inside) rfl
      · intro glob
        cases glob with
        | directories => exact absurd rfl apart
        | anything => exact absurd rfl apart
        | segment part _ within rest =>
            refine ⟨_, mem_dropsWhile.mpr ⟨part, rfl, fun letter among => ?_⟩, (ih _).mpr rest⟩
            exact decide_eq_true fun same => within (same ▸ among)
        | plain letter ordinary => exact absurd rfl ordinary.1
  | case4 pattern ih =>
      rw [compileGlob, globFullMatch_cons]
      constructor
      · rintro ⟨rest, left, matched⟩
        rw [GlobPart.rests] at left
        split at left
        · next within =>
          cases text with
          | nil => cases within
          | cons letter text =>
              rw [List.mem_singleton.mp left] at matched
              exact .one letter (of_decide_eq_true within) ((ih text).mp matched)
        · exact absurd left List.not_mem_nil
      · intro glob
        cases glob with
        | @one _ text letter within rest =>
            refine ⟨_, ?_, (ih _).mpr rest⟩
            have passes : Option.any (· ≠ '/') (letter :: text).head? = true :=
              decide_eq_true within
            rw [GlobPart.rests, if_pos passes]
            exact List.mem_singleton_self _
        | plain letter ordinary => exact absurd rfl ordinary.2
  | case5 letter pattern directories anything notStar notOne ih =>
      have ordinary : letter ≠ '*' ∧ letter ≠ '?' := ⟨notStar, notOne⟩
      rw [compileGlob.eq_5 letter pattern directories anything notStar notOne, globFullMatch_cons]
      constructor
      · rintro ⟨rest, left, matched⟩
        rw [GlobPart.rests] at left
        split at left
        · next starts =>
          obtain ⟨text, rfl⟩ := List.head?_eq_some_iff.mp starts
          rw [List.mem_singleton.mp left] at matched
          exact .plain letter ordinary ((ih text).mp matched)
        · exact absurd left List.not_mem_nil
      · intro glob
        cases glob with
        | directories => exact absurd rfl ordinary.1
        | anything => exact absurd rfl ordinary.1
        | segment => exact absurd rfl ordinary.1
        | one => exact absurd rfl ordinary.2
        | @plain _ text _ _ rest =>
            refine ⟨text, ?_, (ih text).mpr rest⟩
            rw [GlobPart.rests, if_pos List.head?_cons]
            exact List.mem_singleton_self _
  | case6 =>
      rw [compileGlob, globFullMatch, List.isEmpty_iff]
      constructor
      · rintro rfl
        exact .empty
      · intro glob
        cases glob with
        | empty => rfl

/-! ## Path lists -/

/-- A path is taken in by a pattern, both with slashes for their separators. -/
def TakenIn (wild : Char → Prop) (path : String) (patterns : List String) : Prop :=
  ∃ pattern ∈ patterns, Glob wild (Text.replace pattern '\\' '/').toList
    (Text.replace path '\\' '/').toList

/-- A path is taken in by a pattern of the dialect. -/
def InDialect (path : String) (patterns : List String) : Prop :=
  TakenIn (fun _ => True) path patterns

/-- A path is taken in without the end of a line in what `**` takes in. -/
def InDialectOnLines (path : String) (patterns : List String) : Prop :=
  TakenIn (· ≠ '\n') path patterns

theorem InDialectOnLines.inDialect {path : String} {patterns : List String}
    (onLines : InDialectOnLines path patterns) : InDialect path patterns := by
  obtain ⟨pattern, among, glob⟩ := onLines
  exact ⟨pattern, among, glob.mono fun _ _ => trivial⟩

theorem pathMatchesAny_iff (path : String) (patterns : List String) :
    pathMatchesAny path patterns = true ↔ InDialectOnLines path patterns := by
  rw [pathMatchesAny, List.any_eq_true]
  constructor
  · rintro ⟨pattern, among, matched⟩
    exact ⟨pattern, among, (globFullMatch_iff _ _).mp matched⟩
  · rintro ⟨pattern, among, glob⟩
    exact ⟨pattern, among, (globFullMatch_iff _ _).mpr glob⟩

/-- A path list decides the dialect exactly where no `**` has to take in the end of a line. -/
theorem pathMatchesAny_exact_iff (path : String) (patterns : List String) :
    (pathMatchesAny path patterns = true ↔ InDialect path patterns) ↔
      (InDialect path patterns → InDialectOnLines path patterns) := by
  rw [pathMatchesAny_iff]
  constructor
  · exact fun exact_ taken => exact_.mpr taken
  · exact fun onLines => ⟨InDialectOnLines.inDialect, onLines⟩

/-- A file below a protected directory, with the end of a line in its name, is not protected. -/
theorem not_pathMatchesAny_newline :
    ¬ (pathMatchesAny "secrets/a\nb" ["secrets/**"] = true ↔
      InDialect "secrets/a\nb" ["secrets/**"]) := by
  intro exact_
  have taken : InDialect "secrets/a\nb" ["secrets/**"] := by
    refine ⟨"secrets/**", List.mem_singleton_self _, ?_⟩
    have below : Glob (fun _ => True) ['*', '*'] ("a\nb".toList ++ []) :=
      .anything _ (by decide) (fun _ _ => trivial) .empty
    have protects : ∀ front : List Char, (∀ letter ∈ front, letter ≠ '*' ∧ letter ≠ '?') →
        Glob (fun _ => True) (front ++ ['*', '*']) (front ++ ("a\nb".toList ++ [])) := by
      intro front ordinary
      induction front with
      | nil => exact below
      | cons letter front ih =>
          exact .plain letter (ordinary letter List.mem_cons_self)
            (ih fun point among => ordinary point (List.mem_cons_of_mem _ among))
    have plain : ("secrets/".toList.all fun letter => letter ≠ '*' ∧ letter ≠ '?') = true := by
      decide
    exact protects "secrets/".toList fun letter among =>
      of_decide_eq_true (List.all_eq_true.mp plain letter among)
  exact absurd (exact_.mpr taken) (by decide)

end Orchestrator.Checks
