import Mathlib.Data.List.Infix

/-! # Texts of marked sections

A text is a head and sections, each after a separator and a mark. Where neither the head nor a
section has the mark in it, the marks are counted, found and split at as they were joined.
-/

namespace Orchestrator.Foundation.MarkedText

variable {α : Type} [DecidableEq α]

/-! ## Scans -/

/-- The occurrences of a mark without overlaps, after a number of elements that are passed over. -/
def countFrom (mark : List α) : Nat → List α → Nat
  | _, [] => 0
  | skip + 1, _ :: rest => countFrom mark skip rest
  | 0, first :: rest =>
      if mark <+: first :: rest then countFrom mark (mark.length - 1) rest + 1
      else countFrom mark 0 rest

def count (mark text : List α) : Nat := countFrom mark 0 text

/-- The parts of a text at the separators that a mark follows, the last element of the current one
first. -/
def splitFrom (separator mark : List α) : Nat → List α → List α → List (List α)
  | _, current, [] => [current.reverse]
  | skip + 1, current, _ :: rest => splitFrom separator mark skip current rest
  | 0, current, first :: rest =>
      if separator ++ mark <+: first :: rest then
        current.reverse :: splitFrom separator mark (separator.length - 1) [] rest
      else splitFrom separator mark 0 (first :: current) rest

def splitBefore (separator mark text : List α) : List (List α) := splitFrom separator mark 0 [] text

/-! ## Joined texts -/

/-- The sections after a head. -/
def sectionsText (separator mark : List α) (sections : List (List α)) : List α :=
  sections.flatMap fun text => separator ++ (mark ++ text)

def joined (separator mark head : List α) (sections : List (List α)) : List α :=
  head ++ sectionsText separator mark sections

omit [DecidableEq α] in
theorem sectionsText_append (separator mark : List α) (sections later : List (List α)) :
    sectionsText separator mark (sections ++ later) =
      sectionsText separator mark sections ++ sectionsText separator mark later :=
  List.flatMap_append

omit [DecidableEq α] in
theorem sectionsText_cons (separator mark text : List α) (sections : List (List α)) :
    sectionsText separator mark (text :: sections) =
      separator ++ (mark ++ (text ++ sectionsText separator mark sections)) := by
  rw [sectionsText, List.flatMap_cons, List.append_assoc, List.append_assoc]
  rfl

/-- A mark does not occur in a text. -/
def Free (mark text : List α) : Prop := ¬ mark <:+: text

instance (mark text : List α) : Decidable (Free mark text) :=
  inferInstanceAs (Decidable (¬ _))

/-- The first element of a mark is nowhere else in it or in the separator, and the separator begins
with none of the mark. -/
structure Delimits (separator mark : List α) : Prop where
  single : ∃ first rest, mark = first :: rest ∧ first ∉ rest ∧ first ∉ separator
  apart : ∃ first rest, separator = first :: rest ∧ first ∉ mark

/-! ## Where no mark begins -/

section Quiet

variable {mark separator text after more : List α}

/-- No occurrence of a mark begins in a text that another follows. -/
def Quiet (mark text after : List α) : Prop :=
  ∀ rest, rest ≠ [] → rest <:+ text → ¬ mark <+: rest ++ after

omit [DecidableEq α]

theorem quiet_nil (mark after : List α) : Quiet mark [] after :=
  fun _ some none => absurd (List.suffix_nil.mp none) some

/-- No occurrence begins in a text without the mark, where no end of the mark can begin what follows
the text. -/
theorem quiet_of_free_of_ends (free : Free mark text)
    (apart : ∀ ending ∈ mark.tails, ending ≠ [] → ¬ ending <+: after) : Quiet mark text after := by
  intro rest _ isSuffix occurs
  rcases List.prefix_or_prefix_of_prefix occurs (List.prefix_append rest after) with
    within | ⟨extra, rfl⟩
  · exact free (within.isInfix.trans isSuffix.isInfix)
  · by_cases none : extra = []
    · subst none
      rw [List.append_nil] at free
      exact free isSuffix.isInfix
    · have ending : extra ∈ (rest ++ extra).tails :=
        (List.mem_tails _ _).mpr (List.suffix_append rest extra)
      exact apart extra ending none ((List.prefix_append_right_inj rest).mp occurs)

theorem quiet_of_free (free : Free mark text) (apart : ∀ first ∈ after.head?, first ∉ mark) :
    Quiet mark text after := by
  refine quiet_of_free_of_ends free fun ending isTail some begins => ?_
  obtain ⟨first, ending, rfl⟩ := List.exists_cons_of_ne_nil some
  obtain ⟨last, rfl⟩ := begins
  exact apart first rfl (((List.mem_tails _ _).mp isTail).subset List.mem_cons_self)

/-- A mark does not begin where its first element does not occur. -/
theorem quiet_of_not_mem {first : α} {tail : List α} (absent : first ∉ text) :
    Quiet (first :: tail) text after := by
  intro rest some isSuffix occurs
  obtain ⟨head, rest, rfl⟩ := List.exists_cons_of_ne_nil some
  rw [List.cons_append, List.cons_prefix_cons] at occurs
  exact absent (occurs.1 ▸ isSuffix.subset List.mem_cons_self)

theorem Quiet.append (quiet : Quiet mark text (more ++ after)) (later : Quiet mark more after) :
    Quiet mark (text ++ more) after := by
  intro rest some isSuffix
  rcases List.suffix_or_suffix_of_suffix isSuffix (List.suffix_append text more) with
    within | ⟨front, rfl⟩
  · exact later rest some within
  · have ofText : front <:+ text := (List.suffix_append_inj_of_length_eq rfl).mp isSuffix |>.1
    rw [List.append_assoc]
    by_cases none : front = []
    · subst none
      exact later _ some List.suffix_rfl
    · exact quiet front none ofText

theorem Quiet.of_suffix {shorter : List α} (quiet : Quiet mark text after)
    (isSuffix : shorter <:+ text) : Quiet mark shorter after :=
  fun rest some within => quiet rest some (within.trans isSuffix)

/-- A separator with its mark begins nowhere in a text where no mark begins after its first
element. -/
theorem not_separator_of_quiet {tail rest : List α} (some : separator ≠ [])
    (quiet : Quiet mark (text.drop 1 ++ tail) after) (isRest : rest ≠ [])
    (isSuffix : rest <:+ text) (short : separator.length < (rest ++ tail).length) :
    ¬ separator ++ mark <+: rest ++ (tail ++ after) := by
  rintro ⟨last, same⟩
  have later : (rest ++ (tail ++ after)).drop separator.length = mark ++ last := by
    rw [← same, List.append_assoc, List.drop_left]
  have longer := List.length_pos_of_ne_nil isRest
  rw [← List.append_assoc, List.drop_append_of_le_length (Nat.le_of_lt short)] at later
  refine quiet ((rest ++ tail).drop separator.length) ?_ ?_ ⟨last, later.symm⟩
  · exact List.ne_nil_of_length_pos (by rw [List.length_drop]; omega)
  · have shorter : rest.drop 1 <:+ text.drop 1 := by
      obtain ⟨front, rfl⟩ := isSuffix
      cases front with
      | nil => exact List.suffix_rfl
      | cons _ front => exact (List.drop_suffix 1 rest).trans (List.suffix_append front rest)
    have dropped : (rest ++ tail).drop 1 = rest.drop 1 ++ tail :=
      List.drop_append_of_le_length (by omega)
    have within : (rest ++ tail).drop separator.length <:+ rest.drop 1 ++ tail := by
      rw [← dropped]
      exact List.drop_suffix_drop_left _ (List.length_pos_of_ne_nil some)
    exact within.trans (List.suffix_append_self_iff.mpr shorter)

end Quiet

/-! ## Scans of a text -/

section Scans

variable {mark separator text after : List α}

theorem countFrom_skip (passed : List α) :
    countFrom mark passed.length (passed ++ after) = countFrom mark 0 after := by
  induction passed with
  | nil => rfl
  | cons _ passed ih => exact ih

theorem countFrom_quiet (quiet : Quiet mark text after) :
    countFrom mark 0 (text ++ after) = countFrom mark 0 after := by
  induction text with
  | nil => rfl
  | cons first text ih =>
      have here : ¬ mark <+: first :: (text ++ after) :=
        quiet (first :: text) (List.cons_ne_nil _ _) List.suffix_rfl
      rw [List.cons_append, countFrom, if_neg here]
      exact ih (quiet.of_suffix (List.suffix_cons first text))

theorem countFrom_mark (some : mark ≠ []) :
    countFrom mark 0 (mark ++ after) = countFrom mark 0 after + 1 := by
  obtain ⟨first, rest, rfl⟩ := List.exists_cons_of_ne_nil some
  have here : first :: rest <+: first :: (rest ++ after) := List.prefix_append _ after
  rw [List.cons_append, countFrom, if_pos here]
  exact congrArg (· + 1) (countFrom_skip rest)

theorem splitFrom_skip (passed current : List α) :
    splitFrom separator mark passed.length current (passed ++ after) =
      splitFrom separator mark 0 current after := by
  induction passed with
  | nil => rfl
  | cons _ passed ih => exact ih

/-- A text in which no separator with its mark begins is all of a part. -/
theorem splitFrom_passed (current : List α)
    (passed : ∀ rest, rest ≠ [] → rest <:+ text → ¬ separator ++ mark <+: rest ++ after) :
    splitFrom separator mark 0 current (text ++ after) =
      splitFrom separator mark 0 (text.reverse ++ current) after := by
  induction text generalizing current with
  | nil => rfl
  | cons first text ih =>
      have here : ¬ separator ++ mark <+: first :: (text ++ after) :=
        passed (first :: text) (List.cons_ne_nil _ _) List.suffix_rfl
      rw [List.cons_append, splitFrom, if_neg here, ih,
        List.reverse_cons, List.append_assoc, List.singleton_append]
      exact fun rest some isSuffix => passed rest some (isSuffix.trans (List.suffix_cons _ _))

theorem splitFrom_separator (some : separator ≠ []) (current : List α) :
    splitFrom separator mark 0 current (separator ++ (mark ++ after)) =
      current.reverse :: splitFrom separator mark 0 [] (mark ++ after) := by
  obtain ⟨first, rest, rfl⟩ := List.exists_cons_of_ne_nil some
  rw [List.cons_append, splitFrom, if_pos]
  · exact congrArg _ (splitFrom_skip rest [])
  · rw [← List.cons_append, ← List.append_assoc]
    exact List.prefix_append _ after

end Scans

/-! ## Scans of a joined text -/

namespace Delimits

variable {mark separator head text after tag : List α} {sections : List (List α)}
  (delimits : Delimits separator mark)
include delimits

omit [DecidableEq α] in
theorem mark_ne_nil : mark ≠ [] := by
  obtain ⟨first, rest, rfl, -⟩ := delimits.single
  exact List.cons_ne_nil _ _

omit [DecidableEq α] in
theorem separator_ne_nil : separator ≠ [] := by
  obtain ⟨first, rest, rfl, -⟩ := delimits.apart
  exact List.cons_ne_nil _ _

omit [DecidableEq α] in
theorem quiet_separator : Quiet mark separator after := by
  obtain ⟨first, rest, rfl, -, absent⟩ := delimits.single
  exact quiet_of_not_mem absent

omit [DecidableEq α] in
theorem quiet_mark : Quiet mark (mark.drop 1) after := by
  obtain ⟨first, rest, rfl, absent, -⟩ := delimits.single
  exact quiet_of_not_mem absent

omit [DecidableEq α] in
theorem head_separator : ∀ first ∈ (separator ++ after).head?, first ∉ mark := by
  obtain ⟨first, rest, rfl, absent⟩ := delimits.apart
  rintro _ ⟨⟩
  exact absent

omit [DecidableEq α] in
theorem head_sectionsText :
    ∀ first ∈ (sectionsText separator mark sections).head?, first ∉ mark := by
  cases sections with
  | nil => exact fun _ none => absurd none (Option.not_mem_none _)
  | cons first sections =>
      rw [sectionsText_cons]
      exact delimits.head_separator

omit [DecidableEq α] in
/-- No mark begins in a section after the beginning of its own. -/
theorem quiet_section (free : Free mark text) (apart : ∀ first ∈ after.head?, first ∉ mark) :
    Quiet mark ((mark ++ text).drop 1) after := by
  rw [List.drop_append_of_le_length (List.length_pos_of_ne_nil delimits.mark_ne_nil)]
  exact delimits.quiet_mark.append (quiet_of_free free apart)

theorem countFrom_sectionsText (free : ∀ text ∈ sections, Free mark text) :
    countFrom mark 0 (sectionsText separator mark sections) = sections.length := by
  induction sections with
  | nil => rfl
  | cons text sections ih =>
      rw [sectionsText_cons, countFrom_quiet delimits.quiet_separator,
        countFrom_mark delimits.mark_ne_nil, countFrom_quiet
          (quiet_of_free (free text List.mem_cons_self) delimits.head_sectionsText)]
      exact congrArg (· + 1) (ih fun text among => free text (List.mem_cons_of_mem _ among))

/-- The marks of a joined text are those of its sections. -/
theorem count_joined (freeHead : Free mark head) (free : ∀ text ∈ sections, Free mark text) :
    count mark (joined separator mark head sections) = sections.length := by
  rw [count, joined, countFrom_quiet (quiet_of_free freeHead delimits.head_sectionsText)]
  exact delimits.countFrom_sectionsText free

/-- A part without a mark of its own after its first element, and the sections after it. -/
theorem splitFrom_part {part : List α}
    (quiet : ∀ after, (∀ first ∈ after.head?, first ∉ mark) → Quiet mark (part.drop 1) after)
    (free : ∀ text ∈ sections, Free mark text) :
    splitFrom separator mark 0 [] (part ++ sectionsText separator mark sections) =
      part :: sections.map (mark ++ ·) := by
  induction sections generalizing part with
  | nil =>
      rw [sectionsText, List.flatMap_nil, splitFrom_passed, splitFrom, List.append_nil,
        List.reverse_reverse, List.map_nil]
      intro rest some isSuffix occurs
      have longer := occurs.length_le
      have positive := List.length_pos_of_ne_nil delimits.mark_ne_nil
      rw [List.length_append, List.append_nil] at longer
      have ended : Quiet mark (part.drop 1 ++ []) [] := by
        rw [List.append_nil]
        exact quiet [] fun _ none => absurd none (Option.not_mem_none _)
      have short : separator.length < (rest ++ []).length := by
        rw [List.append_nil]
        omega
      exact not_separator_of_quiet delimits.separator_ne_nil ended some isSuffix short occurs
  | cons text sections ih =>
      rw [sectionsText_cons, splitFrom_passed, splitFrom_separator delimits.separator_ne_nil,
        List.append_nil, List.reverse_reverse, ← List.append_assoc, List.map_cons]
      · refine congrArg _ (ih (fun after apart => ?_) fun text among =>
          free text (List.mem_cons_of_mem _ among))
        exact delimits.quiet_section (free text List.mem_cons_self) apart
      · intro rest some isSuffix
        refine not_separator_of_quiet delimits.separator_ne_nil ?_ some isSuffix ?_
        · exact (quiet _ delimits.head_separator).append delimits.quiet_separator
        · have longer := List.length_pos_of_ne_nil some
          rw [List.length_append]
          omega

/-- A joined text is split into its head and its sections with their marks. -/
theorem splitBefore_joined (freeHead : Free mark head) (free : ∀ text ∈ sections, Free mark text) :
    splitBefore separator mark (joined separator mark head sections) =
      head :: sections.map (mark ++ ·) := by
  refine delimits.splitFrom_part (fun after apart => ?_) free
  exact (quiet_of_free freeHead apart).of_suffix (List.drop_suffix 1 head)

end Delimits

/-! ## Marks with a tag -/

section Tags

omit [DecidableEq α]

variable {mark separator head text after tag : List α} {sections : List (List α)}

/-- A marked tag occurs in a text where no mark begins only after it. -/
theorem infix_append_iff_of_quiet (quiet : Quiet mark text after) :
    mark ++ tag <:+: text ++ after ↔ mark ++ tag <:+: after := by
  refine ⟨fun occurs => ?_, fun occurs => occurs.trans (List.suffix_append _ _).isInfix⟩
  obtain ⟨start, begins, isSuffix⟩ := List.infix_iff_prefix_suffix.mp occurs
  rcases List.suffix_or_suffix_of_suffix isSuffix (List.suffix_append text after) with
    within | ⟨front, rfl⟩
  · exact begins.isInfix.trans within.isInfix
  · by_cases none : front = []
    · subst none
      exact begins.isInfix
    · have ofText : front <:+ text := (List.suffix_append_inj_of_length_eq rfl).mp isSuffix |>.1
      exact absurd ((List.prefix_append mark tag).trans begins) (quiet front none ofText)

/-- A marked tag occurs at the mark of a section, or in what follows the section. -/
theorem Delimits.infix_section (delimits : Delimits separator mark) (free : Free mark text)
    (occurs : mark ++ tag <:+: mark ++ (text ++ sectionsText separator mark sections)) :
    tag <+: text ++ sectionsText separator mark sections ∨
      mark ++ tag <:+: sectionsText separator mark sections := by
  have apart : ∀ first ∈ (sectionsText separator mark sections).head?, first ∉ mark :=
    delimits.head_sectionsText
  have quiet := delimits.quiet_section free apart
  obtain ⟨first, rest, rfl, -⟩ := delimits.single
  rcases List.infix_cons_iff.mp occurs with here | later
  · exact .inl ((List.prefix_append_right_inj (first :: rest)).mp here)
  · have whole : rest.append (text ++ sectionsText separator (first :: rest) sections) =
        (rest ++ text) ++ sectionsText separator (first :: rest) sections :=
      (List.append_assoc rest text _).symm
    rw [whole] at later
    exact .inr ((infix_append_iff_of_quiet quiet).mp later)

/-- A tag that has no element of what follows a text begins the text itself. -/
theorem prefix_of_prefix_append (begins : tag <+: text ++ after)
    (apart : ∀ first ∈ after.head?, first ∉ tag) : tag <+: text := by
  rcases List.prefix_or_prefix_of_prefix begins (List.prefix_append text after) with
    within | ⟨extra, rfl⟩
  · exact within
  · cases extra with
    | nil =>
        rw [List.append_nil]
    | cons first extra =>
        obtain ⟨last, rfl⟩ := (List.prefix_append_right_inj text).mp begins
        exact absurd (List.mem_append_right _ List.mem_cons_self) (apart first rfl)

theorem Delimits.head_sectionsText_not_mem (delimits : Delimits separator mark)
    (apart : ∀ first ∈ separator.head?, first ∉ tag) :
    ∀ first ∈ (sectionsText separator mark sections).head?, first ∉ tag := by
  obtain ⟨begin, rest, rfl, -⟩ := delimits.apart
  cases sections with
  | nil => exact fun _ none => absurd none (Option.not_mem_none _)
  | cons text sections =>
      rw [sectionsText_cons]
      rintro _ ⟨⟩
      exact apart begin rfl

/-- A tag without the beginning of the separator is marked in a joined text exactly when a section
begins with it. -/
theorem Delimits.infix_joined_iff (delimits : Delimits separator mark)
    (freeHead : Free mark head) (free : ∀ text ∈ sections, Free mark text)
    (apart : ∀ first ∈ separator.head?, first ∉ tag) :
    mark ++ tag <:+: joined separator mark head sections ↔
      ∃ text ∈ sections, tag <+: text := by
  rw [joined, infix_append_iff_of_quiet (quiet_of_free freeHead delimits.head_sectionsText)]
  induction sections with
  | nil =>
      refine ⟨fun occurs => ?_, fun ⟨_, among, _⟩ => absurd among List.not_mem_nil⟩
      have none := List.infix_nil.mp occurs
      exact absurd (List.append_eq_nil_iff.mp none).1 delimits.mark_ne_nil
  | cons text sections ih =>
      have later := ih fun text among => free text (List.mem_cons_of_mem _ among)
      rw [sectionsText_cons, infix_append_iff_of_quiet delimits.quiet_separator]
      constructor
      · intro occurs
        rcases delimits.infix_section (free text List.mem_cons_self) occurs with begins | after
        · refine ⟨text, List.mem_cons_self, ?_⟩
          exact prefix_of_prefix_append begins (delimits.head_sectionsText_not_mem apart)
        · obtain ⟨found, among, begins⟩ := later.mp after
          exact ⟨found, List.mem_cons_of_mem _ among, begins⟩
      · rintro ⟨found, among, begins⟩
        rcases List.mem_cons.mp among with rfl | inRest
        · have here := (List.prefix_append_right_inj mark).mpr
            (begins.trans (List.prefix_append found (sectionsText separator mark sections)))
          exact here.isInfix
        · have ahead := later.mpr ⟨found, inRest, begins⟩
          rw [← List.append_assoc]
          exact ahead.trans (List.suffix_append _ _).isInfix

end Tags

/-! ## Texts without a mark -/

namespace Free

omit [DecidableEq α]

variable {mark text part after : List α} {first : α} {tail : List α}

theorem of_isInfix (free : Free mark text) (within : part <:+: text) : Free mark part :=
  fun occurs => free (occurs.trans within)

theorem of_not_mem (absent : first ∉ text) : Free (first :: tail) text :=
  fun occurs => absent (occurs.subset List.mem_cons_self)

theorem append_of_quiet (quiet : Quiet mark text after) (later : Free mark after) :
    Free mark (text ++ after) := by
  have same : mark ++ [] <:+: text ++ after ↔ mark ++ [] <:+: after :=
    infix_append_iff_of_quiet quiet
  rw [List.append_nil] at same
  exact fun occurs => later (same.mp occurs)

theorem append (free : Free mark text) (later : Free mark after)
    (apart : ∀ first ∈ after.head?, first ∉ mark) : Free mark (text ++ after) :=
  append_of_quiet (quiet_of_free free apart) later

theorem append_of_ends (free : Free mark text) (later : Free mark after)
    (apart : ∀ ending ∈ mark.tails, ending ≠ [] → ¬ ending <+: after) : Free mark (text ++ after) :=
  append_of_quiet (quiet_of_free_of_ends free apart) later

theorem append_of_not_mem (absent : first ∉ text) (later : Free (first :: tail) after) :
    Free (first :: tail) (text ++ after) :=
  append_of_quiet (quiet_of_not_mem absent) later

end Free

end Orchestrator.Foundation.MarkedText
