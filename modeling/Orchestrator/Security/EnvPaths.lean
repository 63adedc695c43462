import Orchestrator.Foundation.LexicalPaths

/-! # Where an assigned variable may point

The lexical guard splits a value at the separators of both platforms at once, and keeps a colon
behind one letter as a drive's. A value has two readings as a list of paths, and the guard agrees
with them where every path of the one lies at or below a path of the other.
-/

namespace Orchestrator.Security

open Orchestrator.Foundation
open Orchestrator.Foundation.LexicalPath (Form normForm forwardSlashes normRoot IsName)

/-- One path an assigned variable may not reach. -/
structure ProtectedPath where
  label : PyText
  path : PyText

/-- A separator of either platform. -/
def isSeparator (point : CodePoint) : Bool := point = 47 || point = 92

variable (isAlpha : CodePoint → Bool)

/-- The parts of a list behind the start of a part, its last character first. -/
def splitPathListFrom (current : PyText) : PyText → List PyText
  | [] => [current.reverse]
  | point :: rest =>
      let driveColon := decide (point = 58) && decide (current.length = 1) && current.all isAlpha &&
        rest.head?.any isSeparator
      if (point = 58 ∨ point = 59) ∧ driveColon = false then
        current.reverse :: splitPathListFrom [] rest
      else splitPathListFrom (point :: current) rest

/-- `_split_path_list`. -/
def splitPathList (value : PyText) : List PyText := splitPathListFrom isAlpha [] value

/-- `_is_absolute_anywhere`: a separator in front, or a drive and a separator. -/
def isAbsoluteAnywhere (element : PyText) : Bool :=
  element.head?.any isSeparator || ((element.drop 1).head? = some 58 &&
    (element.drop 2).head?.any isSeparator)

/-- `assigned_path_elements`. -/
def assignedPathElements (value : PyText) (includeUnsplit : Bool := true) : List PyText :=
  ((splitPathList isAlpha value ++ if includeUnsplit then [value] else []).filter fun element =>
    element ≠ [] ∧ (element.head? = some 126 ∨ isAbsoluteAnywhere element = true)).eraseDups

/-- `_lexical`. -/
def lexical (raw : PyText) : Form := normForm (forwardSlashes raw)

/-- `_first_collision`. -/
def firstCollision (value : PyText) (protectedPaths : List ProtectedPath)
    (normalize : PyText → Form) : Option ProtectedPath :=
  (assignedPathElements isAlpha value).findSome? fun element =>
    protectedPaths.find? fun entry => (normalize element).Meets (normalize entry.path)

/-- `lexical_collision`. -/
def lexicalCollision (value : PyText) (protectedPaths : List ProtectedPath) :
    Option ProtectedPath :=
  firstCollision isAlpha value protectedPaths lexical

/-! ## The two readings -/

/-- A drive: a character and a colon. -/
def isDrive (name : PyText) : Bool := name.length = 2 && name.getLast? = some 58

/-- A path that starts at a root or with a drive. -/
def isAbsoluteForm (form : Form) : Bool := form.root ≠ 0 || form.names.head?.any isDrive

/-- What a text denotes after textual normalisation, repeated separators collapsed in front too. -/
def collapsedForm (raw : PyText) : Form := (lexical raw).collapsed

/-- The elements of a value under the rules of POSIX, and under those of Windows. -/
def listElements (value : PyText) : List PyText := value.splitOn 58 ++ value.splitOn 59

/-- A path that an element of one of the readings denotes. -/
def Denoted (value : PyText) (form : Form) : Prop :=
  isAbsoluteForm form = true ∧ ∃ element ∈ listElements value, collapsedForm element = form

/-- A path that the guard reads from a value. -/
def Scanned (value : PyText) (form : Form) : Prop :=
  ∃ element ∈ assignedPathElements isAlpha value, lexical element = form

/-- An element of a reading denotes a path that meets a protected one. -/
def Collides (value : PyText) (protectedPaths : List ProtectedPath) : Prop :=
  ∃ form, Denoted value form ∧ ∃ entry ∈ protectedPaths, form.Meets (collapsedForm entry.path)

/-- A collision is reported exactly when there is one. -/
def CollisionLaw (value : PyText) (protectedPaths : List ProtectedPath) : Prop :=
  (lexicalCollision isAlpha value protectedPaths).isSome = true ↔ Collides value protectedPaths

/-- An absolute path that does not start with exactly two separators. -/
def ProtectedPath.IsPlain (entry : ProtectedPath) : Prop :=
  isAbsoluteForm (lexical entry.path) = true ∧ (lexical entry.path).root ≠ 2

/-- The guard and the readings read a value alike: every absolute path that the guard reads lies at
or below one that is denoted, and the other way round. Where the guard reads a path of no names at
all, every drive is denoted. -/
structure ReadsAlike (value : PyText) : Prop where
  sound : ∀ form, Scanned isAlpha value form → form.root ≠ 2 → isAbsoluteForm form = true →
    ∃ outer, Denoted value outer ∧ form.Within outer
  complete : ∀ form, Denoted value form → ∃ outer, Scanned isAlpha value outer ∧ form.Within outer
  drives : Scanned isAlpha value ⟨0, []⟩ → ∀ letter, isSeparator letter = false →
    ∃ outer, Denoted value outer ∧ (⟨0, [[letter, 58]]⟩ : Form).Within outer

/-! ## Agreement -/

section Agreement

variable {isAlpha} {value element : PyText} {form : Form} {protectedPaths : List ProtectedPath}

/-- A collision is reported for a path that the guard reads. -/
theorem isSome_lexicalCollision :
    (lexicalCollision isAlpha value protectedPaths).isSome = true ↔
      ∃ form, Scanned isAlpha value form ∧
        ∃ entry ∈ protectedPaths, form.Meets (lexical entry.path) := by
  rw [lexicalCollision, firstCollision, List.isSome_findSome?, List.any_eq_true]
  simp only [List.isSome_find?, List.any_eq_true, decide_eq_true_eq]
  constructor
  · rintro ⟨element, among, entry, listed, meets⟩
    exact ⟨_, ⟨element, among, rfl⟩, entry, listed, meets⟩
  · rintro ⟨_, ⟨element, among, rfl⟩, entry, listed, meets⟩
    exact ⟨element, among, entry, listed, meets⟩

/-- A form without a root of its own is collapsed already. -/
theorem collapsedForm_eq (single : (lexical element).root ≠ 2) :
    collapsedForm element = lexical element := by
  have least := LexicalPath.normRoot_le (forwardSlashes element)
  have bound : (lexical element).root ≤ 1 := by
    change (lexical element).root ≤ 2 at least
    omega
  rw [collapsedForm, Form.collapsed, Nat.min_eq_left bound]

theorem isAbsoluteForm_collapsed (form : Form) :
    isAbsoluteForm form.collapsed = isAbsoluteForm form := by
  have same : decide (min form.root 1 ≠ 0) = decide (form.root ≠ 0) := by
    rw [decide_eq_decide]
    omega
  rw [isAbsoluteForm, isAbsoluteForm, Form.collapsed, same]

/-- What lies at or below an absolute path is absolute. -/
theorem isAbsoluteForm_of_within {inner outer : Form} (within : inner.Within outer)
    (absolute : isAbsoluteForm outer = true) : isAbsoluteForm inner = true := by
  rw [isAbsoluteForm, Bool.or_eq_true, decide_eq_true_eq] at absolute ⊢
  rw [within.1]
  refine absolute.imp_right fun drive => ?_
  obtain ⟨rest, whole⟩ := within.2
  rw [← whole]
  cases names : outer.names with
  | nil =>
      rw [names] at drive
      cases drive
  | cons first more =>
      rw [names] at drive
      exact drive

theorem root_of_not_absolute (relative : ¬ isAbsoluteForm form = true) : form.root = 0 := by
  rw [isAbsoluteForm, Bool.or_eq_true, decide_eq_true_eq] at relative
  exact not_not.mp fun rooted => relative (.inl rooted)

/-- A path above an absolute one that is none itself has no names. -/
theorem eq_bare_of_within {inner : Form} (relative : ¬ isAbsoluteForm form = true)
    (absolute : isAbsoluteForm inner = true) (within : inner.Within form) : form = ⟨0, []⟩ := by
  have flat : form.root = 0 := root_of_not_absolute relative
  rw [isAbsoluteForm, Bool.or_eq_true, decide_eq_true_eq] at relative absolute
  obtain ⟨rest, whole⟩ := within.2
  cases names : form.names with
  | nil => rw [← flat, ← names]
  | cons first more =>
      rw [names] at whole relative
      rw [← whole] at absolute
      have drive : isDrive first = true :=
        absolute.resolve_left (not_not.mpr (within.1.trans flat))
      exact absurd (.inr drive) relative

/-- No name holds a separator of either platform. -/
theorem not_separator_of_mem {name : PyText} {point : CodePoint}
    (among : name ∈ (lexical element).names) (inside : point ∈ name) :
    isSeparator point = false := by
  have slash : point ≠ 47 := by
    rintro rfl
    exact PosixPath.not_mem_of_mem_splitOn (LexicalPath.mem_names among) inside
  have back : point ≠ 92 := by
    rintro rfl
    have origin := (LexicalPath.infix_of_mem_names among).subset inside
    obtain ⟨source, -, same⟩ := List.mem_map.mp origin
    split at same
    · cases same
    · next other => exact other same
  rw [isSeparator, decide_eq_false slash, decide_eq_false back]
  rfl

/-- An absolute path without a root lies within a drive. -/
theorem exists_drive (absolute : isAbsoluteForm (lexical element) = true)
    (flat : (lexical element).root = 0) :
    ∃ letter, isSeparator letter = false ∧
      (lexical element).Within (⟨0, [[letter, 58]]⟩ : Form) := by
  rw [isAbsoluteForm, Bool.or_eq_true, decide_eq_true_eq] at absolute
  have drive := absolute.resolve_left (not_not.mpr flat)
  cases names : (lexical element).names with
  | nil =>
      rw [names] at drive
      cases drive
  | cons name rest =>
      rw [names] at drive
      have shape : name.length = 2 ∧ name.getLast? = some 58 := by simpa [isDrive] using drive
      obtain ⟨letter, colon, rfl⟩ := List.length_eq_two.mp shape.1
      obtain rfl : colon = 58 := Option.some.inj shape.2
      refine ⟨letter, not_separator_of_mem (names ▸ List.mem_cons_self) List.mem_cons_self,
        flat, ?_⟩
      rw [names]
      exact List.prefix_append [[letter, 58]] rest

/-- Where the guard and the readings read alike, they find the same collisions. -/
theorem ReadsAlike.collisionLaw (alike : ReadsAlike isAlpha value)
    (plain : ∀ entry ∈ protectedPaths, entry.IsPlain) :
    CollisionLaw isAlpha value protectedPaths := by
  rw [CollisionLaw, isSome_lexicalCollision]
  constructor
  · rintro ⟨form, scanned, entry, listed, meets⟩
    obtain ⟨absolute, single⟩ := plain entry listed
    have root : form.root ≠ 2 := by
      rcases meets with inner | outer
      · rw [inner.1]
        exact single
      · rw [← outer.1]
        exact single
    have known : isAbsoluteForm form = true →
        Collides value protectedPaths := by
      intro isAbsolute
      obtain ⟨outer, denoted, within⟩ := alike.sound form scanned root isAbsolute
      refine ⟨outer, denoted, entry, listed, ?_⟩
      rw [collapsedForm_eq single]
      rcases meets with inner | above
      · exact within.meets inner
      · exact .inr (above.trans within)
    rcases meets with inner | above
    · exact known (isAbsoluteForm_of_within inner absolute)
    · by_cases isAbsolute : isAbsoluteForm form = true
      · exact known isAbsolute
      · obtain ⟨letter, apart, inside⟩ :=
          exists_drive absolute (above.1.trans (root_of_not_absolute isAbsolute))
        have bare : form = ⟨0, []⟩ := eq_bare_of_within isAbsolute absolute above
        obtain ⟨outer, denoted, within⟩ := alike.drives (bare ▸ scanned) letter apart
        refine ⟨outer, denoted, entry, listed, ?_⟩
        rw [collapsedForm_eq single]
        exact .inr (inside.trans within)
  · rintro ⟨form, denoted, entry, listed, meets⟩
    obtain ⟨absolute, single⟩ := plain entry listed
    rw [collapsedForm_eq single] at meets
    obtain ⟨outer, scanned, within⟩ := alike.complete form denoted
    refine ⟨outer, scanned, entry, listed, ?_⟩
    rcases meets with inner | above
    · exact within.meets inner
    · exact .inr (above.trans within)

end Agreement

/-! ## Telling the paths apart

A name that is longer than a value stands in no path that is read from it. What meets a path of that
name lies above it.
-/

section Probes

variable {isAlpha} {value element : PyText} {form : Form}

/-- A name longer than a value. -/
def longName (value : PyText) : PyText := List.replicate (value.length + 1) 120

theorem isName_longName (value : PyText) : IsName (longName value) := by
  refine ⟨List.cons_ne_nil _ _, ?_, ?_, ?_⟩
  · exact fun same => absurd (List.head_eq_of_cons_eq same) (by decide)
  · exact fun same => absurd (List.head_eq_of_cons_eq same) (by decide)
  · exact fun among => absurd (List.eq_of_mem_replicate among) (by decide)

theorem forwardSlashes_longName (value : PyText) :
    forwardSlashes (longName value) = longName value := by
  simp [forwardSlashes, longName]

theorem longName_not_mem (short : element.length ≤ value.length) :
    longName value ∉ (lexical element).names := by
  intro among
  have bound := (LexicalPath.infix_of_mem_names among).length_le
  simp only [longName, forwardSlashes, List.length_replicate, List.length_map] at bound
  omega

theorem length_le_of_mem_splitPathListFrom {part : PyText} :
    ∀ {rest current : PyText}, part ∈ splitPathListFrom isAlpha current rest →
      part.length ≤ current.length + rest.length := by
  intro rest
  induction rest with
  | nil =>
      intro current among
      rw [List.mem_singleton.mp among]
      simp
  | cons point rest ih =>
      intro current among
      rw [splitPathListFrom] at among
      split at among
      · rcases List.mem_cons.mp among with rfl | later
        · simp
        · have bound := ih later
          simp only [List.length_nil, List.length_cons] at bound ⊢
          omega
      · have bound := ih among
        simp only [List.length_cons] at bound ⊢
        omega

theorem length_le_of_mem_elements (among : element ∈ assignedPathElements isAlpha value) :
    element.length ≤ value.length := by
  have candidate := (List.mem_filter.mp (List.mem_eraseDups.mp among)).1
  rcases List.mem_append.mp candidate with part | whole
  · have bound := length_le_of_mem_splitPathListFrom part
    rwa [List.length_nil, Nat.zero_add] at bound
  · rw [List.mem_singleton.mp whole]

theorem length_le_of_mem_listElements (among : element ∈ listElements value) :
    element.length ≤ value.length := by
  rcases List.mem_append.mp among with part | part
  · exact (LexicalPath.infix_of_mem_splitOn part).length_le
  · exact (LexicalPath.infix_of_mem_splitOn part).length_le

/-- A drive alone is a path of one name. -/
theorem lexical_drive {letter : CodePoint} (apart : isSeparator letter = false) :
    lexical [letter, 58] = ⟨0, [[letter, 58]]⟩ := by
  have unlike : letter ≠ 47 ∧ letter ≠ 92 := by simpa [isSeparator] using apart
  have isName : IsName [letter, 58] := by
    refine ⟨List.cons_ne_nil _ _, ?_, ?_, ?_⟩
    · exact fun same => absurd (List.cons.inj same).2 (by decide)
    · exact fun same => absurd (List.cons.inj same).2 (by decide)
    · simp [unlike.1.symm]
  have kept : forwardSlashes [letter, 58] = [letter, 58] := by simp [forwardSlashes, unlike.2]
  rw [lexical, kept, LexicalPath.normForm_name isName]

/-- Under an absolute path there is a protected path of that name. -/
theorem exists_protected (absolute : isAbsoluteForm (lexical element) = true) :
    ∃ entry : ProtectedPath, entry.IsPlain ∧
      lexical entry.path = (collapsedForm element).child (longName value) := by
  have filled : forwardSlashes element ≠ [] := by
    intro none
    rw [lexical, none] at absolute
    exact absurd absolute (by decide)
  obtain ⟨start, shape, isStart⟩ := LexicalPath.exists_normForm_child (isName_longName value) filled
  have kept : forwardSlashes start = start := by
    rcases isStart with rfl | rfl
    · rfl
    · rfl
  have reads : lexical (start ++ element ++ 47 :: longName value) =
      (collapsedForm element).child (longName value) := by
    have mapped : forwardSlashes (start ++ element ++ 47 :: longName value) =
        start ++ forwardSlashes element ++ 47 :: longName value := by
      change List.map _ _ = _
      rw [List.map_append, List.map_append, List.map_cons]
      exact congrArg₂ (· ++ 47 :: ·) (congrArg (· ++ forwardSlashes element) kept)
        (forwardSlashes_longName value)
    rw [lexical, mapped]
    exact shape
  refine ⟨⟨[], _⟩, ⟨?_, ?_⟩, reads⟩
  · rw [reads]
    apply isAbsoluteForm_of_within (Form.within_child _ _)
    rwa [collapsedForm, isAbsoluteForm_collapsed]
  · rw [reads]
    have least := Nat.min_le_right (lexical element).root 1
    change min (lexical element).root 1 ≠ 2
    omega

/-- The law forces the readings to agree. -/
theorem readsAlike_of_collisionLaw
    (law : ∀ protectedPaths : List ProtectedPath, (∀ entry ∈ protectedPaths, entry.IsPlain) →
      CollisionLaw isAlpha value protectedPaths) : ReadsAlike isAlpha value := by
  have alone : ∀ {entry : ProtectedPath}, entry.IsPlain → CollisionLaw isAlpha value [entry] := by
    intro entry plain
    apply law
    intro other listed
    rwa [List.mem_singleton.mp listed]
  have denotes : ∀ {outer : Form} {entry : ProtectedPath}, entry.IsPlain →
      lexical entry.path = outer.child (longName value) →
      (∃ form, Scanned isAlpha value form ∧ form.Meets (lexical entry.path)) →
      ∃ form, Denoted value form ∧ outer.Within form := by
    rintro outer entry plain reads ⟨form, scanned, meets⟩
    have reported := isSome_lexicalCollision.mpr
      ⟨form, scanned, entry, List.mem_singleton_self _, meets⟩
    obtain ⟨found, ⟨absolute, element, listed, rfl⟩, other, among, meets⟩ :=
      (alone plain).mp reported
    rw [List.mem_singleton.mp among, collapsedForm_eq plain.2, reads] at meets
    exact ⟨_, ⟨absolute, element, listed, rfl⟩,
      meets.within_of_fresh (longName_not_mem (length_le_of_mem_listElements listed))⟩
  refine ⟨?_, ?_, ?_⟩
  · rintro form ⟨element, listed, rfl⟩ single absolute
    obtain ⟨entry, plain, reads⟩ := exists_protected absolute
    rw [collapsedForm_eq single] at reads
    refine denotes plain reads ⟨_, ⟨element, listed, rfl⟩, ?_⟩
    rw [reads]
    exact .inr (Form.within_child _ _)
  · rintro form ⟨absolute, element, listed, rfl⟩
    obtain ⟨entry, plain, reads⟩ := exists_protected (isAbsoluteForm_collapsed _ ▸ absolute)
    have collides : Collides value [entry] := by
      refine ⟨_, ⟨absolute, element, listed, rfl⟩, entry, List.mem_singleton_self _, ?_⟩
      rw [collapsedForm_eq plain.2, reads]
      exact .inr (Form.within_child _ _)
    obtain ⟨found, ⟨source, scanned, rfl⟩, other, among, meets⟩ :=
      isSome_lexicalCollision.mp ((alone plain).mpr collides)
    rw [List.mem_singleton.mp among, reads] at meets
    exact ⟨_, ⟨source, scanned, rfl⟩,
      meets.within_of_fresh (longName_not_mem (length_le_of_mem_elements scanned))⟩
  · intro bare letter apart
    have reading := lexical_drive apart
    have absolute : isAbsoluteForm (lexical [letter, 58]) = true := by
      rw [reading]
      rfl
    have single : (lexical [letter, 58]).root ≠ 2 := by
      rw [reading]
      exact Nat.zero_ne_add_one 1
    obtain ⟨entry, plain, reads⟩ := exists_protected absolute
    rw [collapsedForm_eq single, reading] at reads
    refine denotes plain reads ⟨_, bare, .inr ?_⟩
    rw [reads]
    exact ⟨rfl, List.nil_prefix⟩

end Probes

/-! ## Values of one path -/

section OnePath

variable {isAlpha} {value : PyText}

theorem splitPathListFrom_eq {rest : PyText} (whole : ∀ point ∈ rest, point ≠ 58 ∧ point ≠ 59) :
    ∀ current, splitPathListFrom isAlpha current rest = [current.reverse ++ rest] := by
  induction rest with
  | nil =>
      intro current
      rw [splitPathListFrom, List.append_nil]
  | cons point rest ih =>
      intro current
      have apart := whole point List.mem_cons_self
      have inner : ¬ (point = 58 ∨ point = 59) := not_or.mpr apart
      have later := ih fun other among => whole other (List.mem_cons_of_mem _ among)
      rw [splitPathListFrom, if_neg fun both => inner both.1, later, List.reverse_cons,
        List.append_assoc]
      rfl

/-- A value without a list separator has itself for an element. -/
theorem mem_assignedPathElements (whole : ∀ point ∈ value, point ≠ 58 ∧ point ≠ 59)
    {element : PyText} :
    element ∈ assignedPathElements isAlpha value ↔
      element = value ∧ value ≠ [] ∧
        (value.head? = some 126 ∨ isAbsoluteAnywhere value = true) := by
  have parts : splitPathList isAlpha value = [value] := splitPathListFrom_eq whole []
  rw [assignedPathElements, List.mem_eraseDups, List.mem_filter, parts, decide_eq_true_eq]
  constructor
  · rintro ⟨listed, looks⟩
    obtain rfl : element = value := by simpa using listed
    exact ⟨rfl, looks⟩
  · rintro ⟨rfl, looks⟩
    exact ⟨List.mem_cons_self, looks⟩

theorem mem_listElements (whole : ∀ point ∈ value, point ≠ 58 ∧ point ≠ 59) {element : PyText} :
    element ∈ listElements value ↔ element = value := by
  have colon : value.splitOn 58 = [value] :=
    LexicalPath.splitOn_of_not_mem fun among => (whole 58 among).1 rfl
  have semicolon : value.splitOn 59 = [value] :=
    LexicalPath.splitOn_of_not_mem fun among => (whole 59 among).2 rfl
  rw [listElements, colon, semicolon]
  simp

theorem head_forwardSlashes (text : PyText) :
    (forwardSlashes text).head? = some 47 ↔ text.head?.any isSeparator = true := by
  cases text with
  | nil => simp [forwardSlashes]
  | cons first rest =>
      by_cases back : first = 92
      · simp [forwardSlashes, isSeparator, back]
      · simp [forwardSlashes, isSeparator, back]

/-- A rooted text starts with a separator. -/
theorem root_ne_zero_iff (text : PyText) :
    (lexical text).root ≠ 0 ↔ text.head?.any isSeparator = true := by
  rw [← head_forwardSlashes]
  change normRoot (forwardSlashes text) ≠ 0 ↔ _
  constructor
  · intro rooted
    obtain ⟨rest, whole⟩ := LexicalPath.exists_cons_of_rooted rooted
    rw [whole]
    rfl
  · intro start
    obtain ⟨rest, whole⟩ := List.head?_eq_some_iff.mp start
    rw [whole]
    exact LexicalPath.rooted_cons rest

/-- Without a colon an absolute path starts with a separator. -/
theorem head_of_absolute (whole : ∀ point ∈ value, point ≠ 58 ∧ point ≠ 59)
    (absolute : isAbsoluteForm (lexical value) = true) : value.head?.any isSeparator = true := by
  rw [← root_ne_zero_iff]
  intro flat
  obtain ⟨letter, -, within⟩ := exists_drive absolute flat
  obtain ⟨rest, names⟩ := within.2
  have drive : [letter, 58] ∈ (lexical value).names := names ▸ List.mem_cons_self
  have colon := (LexicalPath.infix_of_mem_names drive).subset
    (List.mem_cons_of_mem _ (List.mem_singleton_self 58))
  obtain ⟨point, among, same⟩ := List.mem_map.mp colon
  split at same
  · cases same
  · exact (whole point among).1 same

/-- A value without a list separator that does not start at a home is read alike. -/
theorem readsAlike_of_one_path (whole : ∀ point ∈ value, point ≠ 58 ∧ point ≠ 59)
    (home : value.head? ≠ some 126) (single : (lexical value).root ≠ 2) :
    ReadsAlike isAlpha value := by
  refine ⟨?_, ?_, ?_⟩
  · rintro form ⟨element, listed, rfl⟩ - absolute
    obtain ⟨rfl, -⟩ := (mem_assignedPathElements whole).mp listed
    refine ⟨_, ⟨absolute, element, (mem_listElements whole).mpr rfl, collapsedForm_eq single⟩, ?_⟩
    exact Form.within_refl _
  · rintro form ⟨absolute, element, listed, rfl⟩
    obtain rfl := (mem_listElements whole).mp listed
    rw [collapsedForm_eq single] at absolute ⊢
    have start := head_of_absolute whole absolute
    refine ⟨_, ⟨element, (mem_assignedPathElements whole).mpr ⟨rfl, ?_, .inr ?_⟩, rfl⟩,
      Form.within_refl _⟩
    · rintro rfl
      cases start
    · rw [isAbsoluteAnywhere, start, Bool.true_or]
  · rintro ⟨element, listed, bare⟩
    obtain ⟨rfl, -, looks⟩ := (mem_assignedPathElements whole).mp listed
    have flat : ¬ element.head?.any isSeparator = true := by
      rw [← root_ne_zero_iff, bare]
      exact fun rooted => rooted rfl
    have absolute := looks.resolve_left home
    rw [isAbsoluteAnywhere, Bool.or_eq_true] at absolute
    have colon := absolute.resolve_left flat
    simp only [Bool.and_eq_true, decide_eq_true_eq] at colon
    have among := List.mem_of_mem_drop (List.mem_of_head? colon.1)
    exact absurd rfl (whole 58 among).1

end OnePath

/-! ## The guard and the readings -/

/-- No path of a value starts with exactly two separators. -/
def IsSingle (value : PyText) : Prop :=
  ∀ element ∈ assignedPathElements isAlpha value ++ listElements value, (lexical element).root ≠ 2

instance decidableIsSingle (value : PyText) : Decidable (IsSingle isAlpha value) :=
  inferInstanceAs (Decidable (∀ element ∈ _, _))

/-- A start of two separators keeps a path that both readings denote from the guard, and so does the
colon of a drive one that the reading of POSIX denotes. A list with both separators is split at
both, and gives a path that neither denotes. -/
theorem not_collisionLaw_runtimeHome :
    let letters : CodePoint → Bool := fun point => decide (97 ≤ point) && decide (point ≤ 122)
    let home : ProtectedPath := ⟨PyText.ofString "runtime home", PyText.ofString "/repo/.worc"⟩
    home.IsPlain ∧
      ¬ CollisionLaw letters (PyText.ofString "//repo/.worc") [home] ∧
      ¬ CollisionLaw letters (PyText.ofString "a:/repo/.worc") [home] ∧
      ¬ CollisionLaw letters (PyText.ofString "/a;/repo/.worc:/b") [home] := by
  intro letters home
  have listed : home ∈ [home] := List.mem_singleton_self home
  have missed : ∀ {value element : PyText}, element ∈ listElements value →
      collapsedForm element = collapsedForm home.path →
      (lexicalCollision letters value [home]).isSome = false →
      ¬ CollisionLaw letters value [home] := by
    intro value element among denotes none law
    have collides : Collides value [home] := by
      refine ⟨collapsedForm home.path, ⟨by decide +kernel, element, among, denotes⟩, home,
        listed, ?_⟩
      exact .inl (Form.within_refl _)
    rw [law.mpr collides] at none
    cases none
  refine ⟨⟨by decide +kernel, by decide +kernel⟩, ?_, ?_, ?_⟩
  · apply @missed _ (PyText.ofString "//repo/.worc")
    · decide +kernel
    · decide +kernel
    · decide +kernel
  · apply @missed _ (PyText.ofString "/repo/.worc")
    · decide +kernel
    · decide +kernel
    · decide +kernel
  · intro law
    obtain ⟨form, ⟨-, element, among, rfl⟩, entry, alone, meets⟩ := law.mp (by decide +kernel)
    rw [List.mem_singleton.mp alone] at meets
    have apart : ∀ element ∈ listElements (PyText.ofString "/a;/repo/.worc:/b"),
        ¬ (collapsedForm element).Meets (collapsedForm home.path) := by decide +kernel
    exact apart element among meets

/-- The guard reports a collision exactly where a path that it reads meets a protected one, and that
is where the readings have one exactly for the values that it reads as they do. -/
theorem lexicalCollision_iff (value : PyText) (single : IsSingle isAlpha value) :
    (∀ protectedPaths : List ProtectedPath, (∀ entry ∈ protectedPaths, entry.IsPlain) →
      ((lexicalCollision isAlpha value protectedPaths).isSome = true ↔
        ∃ element ∈ assignedPathElements isAlpha value, ∃ entry ∈ protectedPaths,
          (collapsedForm element).Meets (collapsedForm entry.path))) ∧
      ((∀ protectedPaths : List ProtectedPath, (∀ entry ∈ protectedPaths, entry.IsPlain) →
        CollisionLaw isAlpha value protectedPaths) ↔ ReadsAlike isAlpha value) := by
  refine ⟨?_, ?_⟩
  · intro protectedPaths plain
    rw [isSome_lexicalCollision]
    constructor
    · rintro ⟨_, ⟨element, among, rfl⟩, entry, listed, meets⟩
      refine ⟨element, among, entry, listed, ?_⟩
      rwa [collapsedForm_eq (single element (List.mem_append_left _ among)),
        collapsedForm_eq (plain entry listed).2]
    · rintro ⟨element, among, entry, listed, meets⟩
      rw [collapsedForm_eq (single element (List.mem_append_left _ among)),
        collapsedForm_eq (plain entry listed).2] at meets
      exact ⟨_, ⟨element, among, rfl⟩, entry, listed, meets⟩
  · constructor
    · exact readsAlike_of_collisionLaw
    · intro alike protectedPaths plain
      exact alike.collisionLaw plain

theorem lexicalCollision_iff_cache :
    IsSingle (fun _ => false) (PyText.ofString "/srv/cache") ∧
      ∀ protectedPaths : List ProtectedPath, (∀ entry ∈ protectedPaths, entry.IsPlain) →
        CollisionLaw (fun _ => false) (PyText.ofString "/srv/cache") protectedPaths := by
  have single : IsSingle (fun _ => false) (PyText.ofString "/srv/cache") := by decide +kernel
  refine ⟨single, (lexicalCollision_iff _ _ single).2.mpr ?_⟩
  have whole : ((PyText.ofString "/srv/cache").all fun point => point ≠ 58 && point ≠ 59) =
    true := by
    decide +kernel
  apply readsAlike_of_one_path
  · simpa using whole
  · decide +kernel
  · decide +kernel

end Orchestrator.Security
