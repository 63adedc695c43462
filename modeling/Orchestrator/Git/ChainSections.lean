import Orchestrator.Git.ChainBody
import Orchestrator.TaskFile.Model

/-! # The sections of a chain's body

What the marks say about a body that is a head and the sections of tasks: which tasks have one, how
many there are, and that neither a stripped end nor the compaction loses one.
-/

namespace Orchestrator.Git

open Orchestrator.Foundation PyText MarkedText TaskFile

/-! ## The mark of a task -/

theorem delimits_taskMarkerPrefix : Delimits sectionSeparator taskMarkerPrefix where
  single := ⟨ofChar '<', ofString "!-- worc-task:", by decide⟩
  apart := ⟨newline, ofString "\n---\n\n", by decide⟩

/-- A text without the first character of the mark. -/
theorem free_of_not_mem {text : PyText} (absent : ofChar '<' ∉ text) :
    Free taskMarkerPrefix text := by
  have marked : taskMarkerPrefix = ofChar '<' :: ofString "!-- worc-task:" := rfl
  rw [marked]
  exact Free.of_not_mem absent

theorem free_append_of_not_mem {text after : PyText} (absent : ofChar '<' ∉ text)
    (later : Free taskMarkerPrefix after) : Free taskMarkerPrefix (text ++ after) := by
  have marked : taskMarkerPrefix = ofChar '<' :: ofString "!-- worc-task:" := rfl
  rw [marked] at later ⊢
  exact Free.append_of_not_mem absent later

theorem isTaskIdTail_of_mem {taskId : PyText} (valid : isValidTaskId taskId = true)
    {point : CodePoint} (among : point ∈ taskId) : isTaskIdTail point = true := by
  rw [isValidTaskId, Bool.and_eq_true, Bool.and_eq_true] at valid
  have pattern := valid.1.1
  cases taskId with
  | nil => exact absurd among List.not_mem_nil
  | cons first rest =>
      rw [matchesTaskIdPattern, Bool.and_eq_true, Bool.and_eq_true] at pattern
      rcases List.mem_cons.mp among with rfl | later
      · rw [isTaskIdTail, pattern.1.1]
        rfl
      · exact List.all_eq_true.mp pattern.2 point later

/-- A character of a task id ends no line, and is neither a blank nor the beginning of a mark. -/
theorem ne_of_isTaskIdTail {point : CodePoint} (tail : isTaskIdTail point = true) :
    isLineEnd point = false ∧ point ≠ ofChar ' ' ∧ point ≠ ofChar '<' := by
  rw [isTaskIdTail] at tail
  simp only [Bool.or_eq_true, Bool.and_eq_true, decide_eq_true_eq] at tail
  rcases tail with (((letter | digit) | rfl) | rfl) | rfl
  · refine ⟨?_, fun same => ?_, fun same => ?_⟩
    · simp only [isLineEnd, Bool.or_eq_false_iff, Bool.and_eq_false_iff, decide_eq_false_iff_not]
      omega
    · exact absurd (same ▸ letter.1) (by decide)
    · exact absurd (same ▸ letter.1) (by decide)
  · refine ⟨?_, fun same => ?_, fun same => ?_⟩
    · simp only [isLineEnd, Bool.or_eq_false_iff, Bool.and_eq_false_iff, decide_eq_false_iff_not]
      omega
    · exact absurd (same ▸ digit.1) (by decide)
    · exact absurd (same ▸ digit.2) (by decide)
  · decide
  · decide
  · decide

section Tags

variable {taskId other : PyText} (valid : isValidTaskId taskId = true)
include valid

/-- The line of a task's mark has no end in it. -/
theorem isLineEnd_marker {point : CodePoint} (among : point ∈ taskMarker taskId) :
    isLineEnd point = false := by
  have within : ∀ text ∈ [taskMarkerPrefix, ofString " -->"], text.any isLineEnd = false := by
    decide
  rcases List.mem_append.mp among with ofPrefix | ofTag
  · exact Bool.eq_false_of_not_eq_true (List.any_eq_false.mp (within _ List.mem_cons_self) point
      ofPrefix)
  · rcases List.mem_append.mp ofTag with ofId | ofEnd
    · exact (ne_of_isTaskIdTail (isTaskIdTail_of_mem valid ofId)).1
    · exact Bool.eq_false_of_not_eq_true (List.any_eq_false.mp
        (within _ (List.mem_cons_of_mem _ List.mem_cons_self)) point ofEnd)

theorem newline_not_mem_marker : newline ∉ taskMarker taskId := fun among =>
  absurd (isLineEnd_marker valid among) (by decide)

theorem blank_not_mem_taskId : ofChar ' ' ∉ taskId := fun among =>
  (ne_of_isTaskIdTail (isTaskIdTail_of_mem valid among)).2.1 rfl

theorem mark_not_mem_taskTag : ofChar '<' ∉ taskTag taskId := by
  intro among
  rcases List.mem_append.mp among with ofId | ofEnd
  · exact (ne_of_isTaskIdTail (isTaskIdTail_of_mem valid ofId)).2.2 rfl
  · exact absurd ofEnd (by decide)

end Tags

/-- The texts before the first of a character are told apart by it. -/
theorem eq_of_prefix_of_not_mem {first : CodePoint} {text other more after : PyText}
    (absent : first ∉ text) (absentOther : first ∉ other)
    (begins : text ++ first :: more <+: other ++ first :: after) : text = other := by
  induction text generalizing other with
  | nil =>
      cases other with
      | nil => rfl
      | cons point other =>
          have same := (List.cons_prefix_cons.mp begins).1
          exact absurd (same ▸ List.mem_cons_self) absentOther
  | cons point text ih =>
      cases other with
      | nil =>
          have same := (List.cons_prefix_cons.mp begins).1
          exact absurd (same ▸ List.mem_cons_self) absent
      | cons next other =>
          obtain ⟨rfl, later⟩ := List.cons_prefix_cons.mp begins
          rw [ih (fun among => absent (List.mem_cons_of_mem _ among))
            (fun among => absentOther (List.mem_cons_of_mem _ among)) later]

/-- The tags of two tasks are told apart by what they begin with. -/
theorem eq_of_taskTag_isPrefix {taskId other rest : PyText} (valid : isValidTaskId taskId = true)
    (validOther : isValidTaskId other = true) (begins : taskTag taskId <+: taskTag other ++ rest) :
    taskId = other := by
  have blank : ofString " -->" = ofChar ' ' :: ofString "-->" := rfl
  rw [taskTag, taskTag, List.append_assoc, blank, List.cons_append] at begins
  exact eq_of_prefix_of_not_mem (blank_not_mem_taskId valid)
    (blank_not_mem_taskId validOther) begins

/-! ## A body of sections -/

/-- A task's section of a body, after its mark. -/
structure ChainSection where
  taskId : PyText
  rest : PyText

/-- The section without the beginning of its mark. -/
def ChainSection.text (listed : ChainSection) : PyText := taskTag listed.taskId ++ listed.rest

/-- The section of a task with an id of a task, and no second mark. -/
structure ChainSection.Marked (listed : ChainSection) : Prop where
  valid : isValidTaskId listed.taskId = true
  free : Free taskMarkerPrefix listed.text

/-- A head and sections after it. -/
def chainText (head : PyText) (sections : List ChainSection) : PyText :=
  joined sectionSeparator taskMarkerPrefix head (sections.map ChainSection.text)

/-- A body is the one it was opened with, without a mark, and one section for each of the tasks, in
their order. -/
def Lists (opened body : PyText) (tasks : List PyText) : Prop :=
  ∃ head sections, body = chainText head sections ∧ rstrip head = rstrip opened ∧
    Free taskMarkerPrefix head ∧ (∀ listed ∈ sections, ChainSection.Marked listed) ∧
      sections.map ChainSection.taskId = tasks

/-- A section at the end. -/
theorem chainText_concat (head : PyText) (sections : List ChainSection) (last : ChainSection) :
    chainText head (sections ++ [last]) =
      chainText head sections ++ (sectionSeparator ++ (taskMarkerPrefix ++ last.text)) := by
  have ended : sectionsText sectionSeparator taskMarkerPrefix [] = [] := rfl
  rw [chainText, chainText, joined, joined, List.map_append, sectionsText_append, List.append_assoc,
    List.map_singleton, sectionsText_cons, ended, List.append_nil]

theorem free_of_marked {sections : List ChainSection}
    (marked : ∀ listed ∈ sections, ChainSection.Marked listed) :
    ∀ text ∈ sections.map ChainSection.text, Free taskMarkerPrefix text := by
  intro text among
  obtain ⟨listed, ofSections, rfl⟩ := List.mem_map.mp among
  exact (marked listed ofSections).free

namespace Lists

variable {opened body taskId : PyText} {tasks : List PyText}

theorem of_free (free : Free taskMarkerPrefix body) : Lists body body [] :=
  ⟨body, [], (List.append_nil body).symm, rfl, free,
    fun _ none => absurd none List.not_mem_nil, rfl⟩

theorem count (lists : Lists opened body tasks) : count taskMarkerPrefix body = tasks.length := by
  obtain ⟨head, sections, rfl, -, free, marked, rfl⟩ := lists
  rw [chainText, delimits_taskMarkerPrefix.count_joined free (free_of_marked marked),
    List.length_map, List.length_map]

/-- A task's marker is in the body exactly when the task has a section. -/
theorem marker_infix_iff (lists : Lists opened body tasks) (valid : isValidTaskId taskId = true) :
    taskMarker taskId <:+: body ↔ taskId ∈ tasks := by
  obtain ⟨head, sections, rfl, -, free, marked, rfl⟩ := lists
  have apart : ∀ first ∈ sectionSeparator.head?, first ∉ taskTag taskId := by
    rintro _ ⟨⟩ among
    exact newline_not_mem_marker valid (List.mem_append_right _ among)
  rw [taskMarker, chainText,
    delimits_taskMarkerPrefix.infix_joined_iff free (free_of_marked marked) apart]
  constructor
  · rintro ⟨text, among, begins⟩
    obtain ⟨listed, ofSections, rfl⟩ := List.mem_map.mp among
    rw [eq_of_taskTag_isPrefix valid (marked listed ofSections).valid begins]
    exact List.mem_map_of_mem ofSections
  · intro among
    obtain ⟨listed, ofSections, rfl⟩ := List.mem_map.mp among
    exact ⟨listed.text, List.mem_map_of_mem ofSections, List.prefix_append _ _⟩

/-- The body is split into its head and a section with the marker of each task. -/
theorem splitBefore (lists : Lists opened body tasks) :
    ∃ head sections, splitBefore sectionSeparator taskMarkerPrefix body = head :: sections ∧
      rstrip head = rstrip opened ∧
      List.Forall₂ (fun task text => taskMarker task <+: text) tasks sections := by
  obtain ⟨head, sections, rfl, same, free, marked, rfl⟩ := lists
  refine ⟨head, _, delimits_taskMarkerPrefix.splitBefore_joined free (free_of_marked marked), same,
    ?_⟩
  rw [List.forall₂_map_left_iff, List.map_map, List.forall₂_map_right_iff, List.forall₂_same]
  intro listed _
  exact (List.prefix_append_right_inj taskMarkerPrefix).mpr (List.prefix_append _ _)

/-- A section of a task is added at the end. -/
theorem append {rest : PyText} (lists : Lists opened body tasks)
    (valid : isValidTaskId taskId = true)
    (free : Free taskMarkerPrefix (taskTag taskId ++ rest)) :
    Lists opened (body ++ (sectionSeparator ++ (taskMarkerPrefix ++ (taskTag taskId ++ rest))))
      (tasks ++ [taskId]) := by
  obtain ⟨head, sections, rfl, same, freeHead, marked, rfl⟩ := lists
  refine ⟨head, sections ++ [⟨taskId, rest⟩], ?_, same, freeHead, ?_, ?_⟩
  · rw [chainText_concat]
    rfl
  · intro listed among
    rcases List.mem_append.mp among with earlier | last
    · exact marked listed earlier
    · rw [List.mem_singleton.mp last]
      exact ⟨valid, free⟩
  · rw [List.map_append]
    rfl

end Lists

/-! ## A stripped end -/

/-- A character that is kept keeps what is before it. -/
theorem rdropWhile_append_of_last {test : CodePoint → Bool} {last : CodePoint} {front text : PyText}
    (stop : test last = false) :
    (front ++ [last] ++ text).rdropWhile test = front ++ [last] ++ text.rdropWhile test := by
  induction text using List.reverseRecOn with
  | nil =>
      rw [List.append_nil, List.rdropWhile_nil, List.append_nil]
      exact List.rdropWhile_concat_neg _ _ _ (by rw [stop]; exact Bool.false_ne_true)
  | append_singleton text point ih =>
      rw [← List.append_assoc]
      by_cases dropped : test point = true
      · rw [List.rdropWhile_concat_pos _ _ _ dropped, List.rdropWhile_concat_pos _ _ _ dropped, ih]
      · rw [List.rdropWhile_concat_neg _ _ _ dropped, List.rdropWhile_concat_neg _ _ _ dropped,
          List.append_assoc]

/-- What is stripped of some blanks is stripped of all as before. -/
theorem rstrip_rdropWhile {test : CodePoint → Bool} (text : PyText)
    (blank : ∀ point, test point = true → isSpace point = true) :
    rstrip (text.rdropWhile test) = rstrip text := by
  induction text using List.reverseRecOn with
  | nil => rfl
  | append_singleton text point ih =>
      by_cases dropped : test point = true
      · rw [List.rdropWhile_concat_pos _ _ _ dropped, ih, rstrip, rstrip,
          List.rdropWhile_concat_pos _ _ _ (blank point dropped)]
      · rw [List.rdropWhile_concat_neg _ _ _ dropped]

/-- A stripped end leaves every section. -/
theorem Lists.rdropWhile {opened body : PyText} {tasks : List PyText}
    (lists : Lists opened body tasks) {test : CodePoint → Bool}
    (blank : ∀ point, test point = true → isSpace point = true) :
    Lists opened (body.rdropWhile test) tasks := by
  have stop : test (ofChar '>') = false := by
    cases dropped : test (ofChar '>') with
    | false => rfl
    | true => exact absurd (blank _ dropped) (by decide)
  obtain ⟨head, sections, rfl, same, free, marked, rfl⟩ := lists
  rcases List.eq_nil_or_concat sections with rfl | ⟨earlier, last, rfl⟩
  · have alone : chainText head [] = head := List.append_nil head
    rw [alone]
    refine ⟨head.rdropWhile test, [], (List.append_nil _).symm, ?_, ?_, marked, rfl⟩
    · rw [rstrip_rdropWhile head blank, same]
    · exact free.of_isInfix (List.rdropWhile_prefix _ _).isInfix
  · rw [List.concat_eq_append] at marked ⊢
    have final := marked last (List.mem_append_right _ List.mem_cons_self)
    have before : Lists opened (chainText head earlier) (earlier.map ChainSection.taskId) :=
      ⟨head, earlier, rfl, same, free,
        fun listed among => marked listed (List.mem_append_left _ among), rfl⟩
    have arrow : ofString " -->" = ofString " --" ++ [ofChar '>'] := rfl
    have ended : taskTag last.taskId = last.taskId ++ ofString " --" ++ [ofChar '>'] := by
      rw [taskTag, arrow, List.append_assoc]
    have whole : chainText head (earlier ++ [last]) = chainText head earlier ++ sectionSeparator ++
        taskMarkerPrefix ++ (last.taskId ++ ofString " --") ++ [ofChar '>'] ++ last.rest := by
      rw [chainText_concat, ChainSection.text, ended]
      simp only [List.append_assoc]
    have kept : chainText head earlier ++ sectionSeparator ++ taskMarkerPrefix ++
        (last.taskId ++ ofString " --") ++ [ofChar '>'] ++ last.rest.rdropWhile test =
        chainText head earlier ++ (sectionSeparator ++ (taskMarkerPrefix ++
          (taskTag last.taskId ++ last.rest.rdropWhile test))) := by
      rw [ended]
      simp only [List.append_assoc]
    rw [whole, rdropWhile_append_of_last stop, kept, List.map_append]
    refine before.append final.valid (final.free.of_isInfix ?_)
    exact ((List.prefix_append_right_inj _).mpr (List.rdropWhile_prefix _ _)).isInfix

end Orchestrator.Git
