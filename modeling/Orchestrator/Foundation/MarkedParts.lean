import Orchestrator.Foundation.MarkedText

/-! # The parts of any text

A text is cut at the separators that a mark follows. Joined again its parts are the text, and parts
without such a place are what their joined text is cut into.
-/

namespace Orchestrator.Foundation.MarkedText

variable {α : Type} {separator mark : List α}

/-- A head and parts after it, each after a separator. -/
def joinParts (separator head : List α) (parts : List (List α)) : List α :=
  head ++ parts.flatMap (separator ++ ·)

theorem joinParts_cons (head part : List α) (parts : List (List α)) :
    joinParts separator head (part :: parts) =
      head ++ (separator ++ joinParts separator part parts) := by
  rw [joinParts, joinParts, List.flatMap_cons, List.append_assoc]

/-! ## Where a part ends -/

section Ends

variable {text after : List α}

/-- A text in which a place to cut begins nowhere has none in it. -/
theorem free_of_quiet (quiet : Quiet mark text after) (some : mark ≠ []) : Free mark text := by
  rintro ⟨front, last, rfl⟩
  refine quiet (mark ++ last) (List.append_ne_nil_of_left_ne_nil some last) ?_ ?_
  · rw [List.append_assoc]
    exact List.suffix_append front (mark ++ last)
  · rw [List.append_assoc]
    exact List.prefix_append mark (last ++ after)

/-- A mark begins nowhere in a text without it that ends the whole text. -/
theorem quiet_end_of_free (free : Free mark text) : Quiet mark text [] := by
  intro rest _ isSuffix occurs
  rw [List.append_nil] at occurs
  exact free (occurs.isInfix.trans isSuffix.isInfix)

theorem Quiet.cons {first : α} (here : ¬ mark <+: first :: (text ++ after))
    (quiet : Quiet mark text after) : Quiet mark (first :: text) after := by
  intro rest some isSuffix
  rcases List.suffix_cons_iff.mp isSuffix with rfl | later
  · exact here
  · exact quiet rest some later

variable (delimits : Delimits separator mark)
include delimits

/-- No place to cut begins in a text without one, where a part follows it. -/
theorem Delimits.quiet_part (free : Free (separator ++ mark) text) :
    Quiet (separator ++ mark) text (separator ++ (mark ++ after)) := by
  intro rest some isSuffix occurs
  rcases List.prefix_or_prefix_of_prefix occurs (List.prefix_append rest _) with
    within | ⟨extra, same⟩
  · exact free (within.isInfix.trans isSuffix.isInfix)
  · obtain ⟨first, others, isMark, alone, outside⟩ := delimits.single
    obtain ⟨begins, tail, isSeparator, apart⟩ := delimits.apart
    rw [← same, List.prefix_append_right_inj] at occurs
    cases extra with
    | nil =>
        rw [List.append_nil] at same
        exact free (same ▸ isSuffix.isInfix)
    | cons point extra =>
        rw [isSeparator, List.cons_append, List.cons_prefix_cons] at occurs
        obtain ⟨rfl, later⟩ := occurs
        -- what is left of the place to cut begins with the separator, so the rest is within it
        have short : rest.length < separator.length := by
          by_contra long
          have ofMark : point :: extra <:+ mark := by
            have whole : point :: extra <:+ separator ++ mark := ⟨rest, same⟩
            refine List.suffix_of_suffix_length_le whole (List.suffix_append separator mark) ?_
            have lengths := congrArg List.length same
            rw [List.length_append, List.length_append] at lengths
            omega
          exact apart (ofMark.subset List.mem_cons_self)
        obtain ⟨front, rfl⟩ : rest <+: separator :=
          List.prefix_of_prefix_length_le ⟨point :: extra, same⟩ (List.prefix_append separator mark)
            (Nat.le_of_lt short)
        rw [List.append_assoc, List.append_cancel_left_eq] at same
        have shorter : front.length < (rest ++ front).length := by
          have positive := List.length_pos_of_ne_nil some
          rw [List.length_append]
          omega
        have here : (point :: extra)[front.length]? = .some first := by
          rw [same, isMark, List.getElem?_append_right (Nat.le_refl _), Nat.sub_self]
          rfl
        obtain ⟨last, split⟩ : point :: extra <+: (rest ++ front) ++ (mark ++ after) := by
          rw [isSeparator, List.cons_append]
          exact List.cons_prefix_cons.mpr ⟨rfl, later⟩
        have there : (point :: extra ++ last)[front.length]? = .some first := by
          rw [List.getElem?_append_left (List.getElem?_eq_some_iff.mp here).1]
          exact here
        rw [split, List.getElem?_append_left shorter] at there
        exact outside (List.mem_of_getElem? there)

end Ends

/-! ## Splitting -/

section Splitting

variable [DecidableEq α] {head : List α} {parts : List (List α)}
  (delimits : Delimits separator mark)
include delimits

/-- Parts without a place to cut, the later ones marked, are what their joined text is split
into. -/
theorem Delimits.splitBefore_joinParts
    (free : ∀ part ∈ head :: parts, Free (separator ++ mark) part)
    (marked : ∀ part ∈ parts, mark <+: part) :
    splitBefore separator mark (joinParts separator head parts) = head :: parts := by
  induction parts generalizing head with
  | nil =>
      have quiet := quiet_end_of_free (free head List.mem_cons_self)
      rw [joinParts, List.flatMap_nil, splitBefore, splitFrom_passed [] quiet, splitFrom,
        List.append_nil, List.reverse_reverse]
  | cons part parts ih =>
      obtain ⟨rest, rfl⟩ := marked part List.mem_cons_self
      have later := ih (fun part among => free part (List.mem_cons_of_mem _ among))
        fun part among => marked part (List.mem_cons_of_mem _ among)
      rw [splitBefore, joinParts, List.append_assoc] at later
      have quiet : Quiet (separator ++ mark) head
          (separator ++ (mark ++ (rest ++ parts.flatMap (separator ++ ·)))) :=
        delimits.quiet_part (free head List.mem_cons_self)
      rw [joinParts_cons, joinParts, List.append_assoc, splitBefore, splitFrom_passed [] quiet,
        splitFrom_separator delimits.separator_ne_nil, List.append_nil, List.reverse_reverse, later]

omit delimits in
/-- A text has no place to cut, or a first one. -/
theorem quiet_or_cut (text : List α) :
    Quiet (separator ++ mark) text [] ∨
      ∃ front after, text = front ++ (separator ++ (mark ++ after)) ∧
        Quiet (separator ++ mark) front (separator ++ (mark ++ after)) := by
  induction text with
  | nil => exact .inl (quiet_nil _ _)
  | cons point text ih =>
      by_cases here : separator ++ mark <+: point :: text
      · obtain ⟨after, same⟩ := here
        refine .inr ⟨[], after, ?_, quiet_nil _ _⟩
        rw [List.nil_append, ← List.append_assoc]
        exact same.symm
      · rcases ih with quiet | ⟨front, after, rfl, quiet⟩
        · refine .inl (quiet.cons ?_)
          rw [List.append_nil]
          exact here
        · exact .inr ⟨point :: front, after, rfl, quiet.cons here⟩

/-- What any text is split into: joined again it is the text, no part has a place to cut, and the
later parts are marked. -/
theorem Delimits.exists_parts (text : List α) :
    ∃ head parts, splitBefore separator mark text = head :: parts ∧
      text = joinParts separator head parts ∧
      (∀ part ∈ head :: parts, Free (separator ++ mark) part) ∧
      (∀ part ∈ parts, mark <+: part) ∧ (mark <+: text → mark <+: head) := by
  have some : separator ++ mark ≠ [] :=
    List.append_ne_nil_of_left_ne_nil delimits.separator_ne_nil mark
  induction size : text.length using Nat.strongRecOn generalizing text with
  | ind size ih =>
      subst size
      rcases @quiet_or_cut α separator mark _ text with quiet | ⟨front, after, rfl, quiet⟩
      · refine ⟨text, [], ?_, (List.append_nil text).symm, ?_, ?_, id⟩
        · have whole := splitFrom_passed [] quiet
          rw [List.append_nil] at whole
          rw [splitBefore, whole, splitFrom, List.append_nil, List.reverse_reverse]
        · rintro part among
          cases List.mem_singleton.mp among
          exact free_of_quiet quiet some
        · exact fun _ none => absurd none List.not_mem_nil
      · have longer := List.length_pos_of_ne_nil delimits.separator_ne_nil
        obtain ⟨head, parts, split, joins, free, marked, begins⟩ := ih (mark ++ after).length
          (by simp only [List.length_append]; omega) (mark ++ after) rfl
        refine ⟨front, head :: parts, ?_, ?_, ?_, ?_, ?_⟩
        · rw [splitBefore, splitFrom_passed [] quiet, splitFrom_separator delimits.separator_ne_nil,
            List.append_nil, List.reverse_reverse, ← splitBefore, split]
        · rw [joinParts_cons, ← joins]
        · intro part among
          rcases List.mem_cons.mp among with rfl | later
          · exact free_of_quiet quiet some
          · exact free part later
        · intro part among
          rcases List.mem_cons.mp among with rfl | later
          · exact begins (List.prefix_append mark after)
          · exact marked part later
        · intro whole
          rcases List.prefix_or_prefix_of_prefix whole (List.prefix_append front _) with
            within | ⟨extra, same⟩
          · exact within
          · obtain ⟨first, tail, isSeparator, apart⟩ := delimits.apart
            rw [← same, List.prefix_append_right_inj, isSeparator] at whole
            cases extra with
            | nil =>
                rw [← same, List.append_nil]
            | cons point extra =>
                rw [List.cons_append, List.cons_prefix_cons] at whole
                rw [← same, whole.1] at apart
                exact absurd (List.mem_append_right front List.mem_cons_self) apart

end Splitting

end Orchestrator.Foundation.MarkedText
