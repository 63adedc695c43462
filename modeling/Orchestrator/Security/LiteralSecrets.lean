import Orchestrator.Security.Redaction

/-! # Literal secrets

A secret that is known by its letters is replaced wherever it stands alone. The passes that follow
mask other stretches of the text, and none of them sets the secret free again: what is left of it
stands within a longer word or against a mark.
-/

namespace Orchestrator.Security

open Orchestrator.Foundation PyText

/-! ## Masks -/

/-- A secret that no mark spells: it has no bracket and is no part of the word of the mark. -/
abbrev Unspelled (secret : PyText) : Prop :=
  Regex.Unmarked (ofChar '[') (ofString "REDACTED") (ofChar ']') secret

/-- A text after some of it was redacted. -/
abbrev Redacts (stays : PyText → PyText → Prop) (text after : PyText) : Prop :=
  Regex.Masked (Regex.bracketed (ofChar '[') (ofString "REDACTED") (ofChar ']')) stays [] text after

theorem redacted_eq_bracketed :
    redacted = Regex.bracketed (ofChar '[') (ofString "REDACTED") (ofChar ']') := by decide

/-- A long secret without brackets is spelled by the mark only if it is its word. -/
theorem unspelled_of_long {secret : PyText} (long : minLiteralLen ≤ secret.length)
    (opens : ofChar '[' ∉ secret) (closes : ofChar ']' ∉ secret)
    (other : secret ≠ ofString "REDACTED") : Unspelled secret where
  nonempty := by
    rintro rfl
    exact absurd long (by decide)
  opens := opens
  closes := closes
  outside := fun within => other (within.sublist.eq_of_length_le long)

theorem redacts_replaceAll (pattern : Regex CodePoint) (text : PyText) :
    Redacts pattern.Passes text (replaceAll text pattern) := by
  rw [Redacts, ← redacted_eq_bracketed]
  exact Regex.masked_sub_mark pattern text

/-- An assignment is a name, a separator and a value. -/
theorem exists_assignment {before rest : PyText} {stop : Regex.Cursor CodePoint}
    (reached : stop ∈ assignment.outcomes ⟨before, rest, []⟩) :
    ∃ name separator value : PyText, stop.group? 1 = some name ∧ stop.group? 2 = some separator ∧
      rest = name ++ (separator ++ (value ++ stop.rest)) ∧
      stop.before = value.reverse ++ (separator.reverse ++ (name.reverse ++ before)) := by
  obtain ⟨afterName, named, reached⟩ := List.mem_flatMap.mp reached
  obtain ⟨afterSeparator, separated, reached⟩ := List.mem_flatMap.mp reached
  obtain ⟨afterValue, valued, reached⟩ := List.mem_flatMap.mp reached
  obtain rfl := List.mem_singleton.mp reached
  obtain ⟨nameRest, nameBefore, nameGroups⟩ := Regex.of_mem_outcomes_group rfl named
  obtain ⟨separatorRest, separatorBefore, separatorGroups⟩ :=
    Regex.of_mem_outcomes_group rfl separated
  obtain ⟨valueRest, valueBefore, valueGroups⟩ := Regex.of_mem_outcomes_group rfl valued
  refine ⟨Regex.Cursor.taken ⟨before, rest, []⟩ afterName, afterName.taken afterSeparator,
    afterSeparator.taken stop, ?_, ?_, ?_, ?_⟩
  · rw [Regex.Cursor.group?, valueGroups, separatorGroups, nameGroups]
    rfl
  · rw [Regex.Cursor.group?, valueGroups, separatorGroups]
    rfl
  · rw [← valueRest, ← separatorRest]
    exact nameRest
  · rw [valueBefore, separatorBefore, nameBefore]

/-- The pass over assignments masks the values of sensitive names. -/
theorem redacts_assignments (text : PyText) :
    Redacts (fun _ _ => True) text (assignment.sub redactAssignment text) := by
  refine Regex.masked_sub (fun _ _ _ => trivial) (fun reached later => ?_) text
  rw [redactAssignment]
  split
  · obtain ⟨name, separator, value, named, separated, shape, moved⟩ := exists_assignment reached
    rw [moved] at later
    rw [named, separated, Option.getD_some, Option.getD_some, shape, List.append_assoc,
      List.append_assoc, redacted_eq_bracketed]
    exact .front (.front (.gone later))
  · exact .kept reached later

/-! ## Shielded secrets -/

section Shielded

variable (words : WordTest)

/-- A neighbour that keeps a secret from standing alone: a character of a word, or the bracket of a
mark. -/
def Shields (bracket letter : CodePoint) : Prop := words.isWord letter = true ∨ letter = bracket

/-- No occurrence of a secret in a text stands alone. -/
def Shielded (secret text : PyText) : Prop :=
  ∀ front back, text = front ++ (secret ++ back) →
    (∃ letter ∈ front.getLast?, Shields words (ofChar ']') letter) ∨
      ∃ letter ∈ back.head?, Shields words (ofChar '[') letter

variable {words} {secret text after : PyText} {stays : PyText → PyText → Prop}

/-- No redaction sets a secret free. -/
theorem Shielded.redacts (shielded : Shielded words secret text) (unspelled : Unspelled secret)
    (redacts : Redacts stays text after) : Shielded words secret after := by
  intro front back shape
  rw [shape] at redacts
  obtain ⟨lead, left, same, last, beside, -⟩ := redacts.of_part unspelled
  rcases last with last | closed
  · rcases beside with beside | opened
    · rw [last, beside]
      exact shielded lead left same
    · exact .inr ⟨_, opened, .inr rfl⟩
  · exact .inl ⟨_, closed, .inr rfl⟩

variable (words secret) in
/-- A secret that stands alone is matched. -/
theorem outcomes_literalSecret {before left : PyText}
    (opens : before.head?.any words.isWord = false) (closes : left.head?.any words.isWord = false) :
    (literalSecret words secret).outcomes ⟨before, secret ++ left, []⟩ =
      [⟨secret.reverse ++ before, left, []⟩] := by
  have shape : literalSecret words secret =
      .seq (.look fun before _ => !before.head?.any words.isWord)
        (.seq (.literal secret) (.seq (.look fun _ rest => !rest.head?.any words.isWord) .empty)) :=
    rfl
  rw [shape, Regex.outcomes, Regex.outcomes, if_pos (by rw [opens]; rfl), List.flatMap_singleton,
    Regex.outcomes, Regex.outcomes_literal, if_pos (List.prefix_append _ _),
    List.flatMap_singleton, Regex.outcomes, Regex.outcomes, List.drop_left,
    if_pos (by rw [closes]; rfl), List.flatMap_singleton, Regex.outcomes]

/-- The pass of a secret leaves it nowhere alone. -/
theorem shielded_replaceAll (unspelled : Unspelled secret) (text : PyText) :
    Shielded words secret (replaceAll text (literalSecret words secret)) := by
  intro front back shape
  have redacts := redacts_replaceAll (literalSecret words secret) text
  rw [shape] at redacts
  obtain ⟨lead, left, -, last, beside, passes⟩ := redacts.of_part unspelled
  rcases last with last | closed
  · rcases beside with beside | opened
    · rw [List.append_nil] at passes
      have nonempty := List.length_pos_iff.mpr unspelled.nonempty
      by_cases opens : lead.reverse.head?.any words.isWord = true
      · rw [List.head?_reverse] at opens
        obtain ⟨letter, first, word⟩ := (Option.any_eq_true _ _).mp opens
        exact .inl ⟨letter, by rw [last]; exact first, .inl word⟩
      · by_cases closes : left.head?.any words.isWord = true
        · obtain ⟨letter, first, word⟩ := (Option.any_eq_true _ _).mp closes
          exact .inr ⟨letter, by rw [beside]; exact first, .inl word⟩
        · have matched := outcomes_literalSecret words secret (Bool.eq_false_iff.mpr opens)
            (Bool.eq_false_iff.mpr closes)
          refine absurd ?_ (passes _ (by rw [matched]; rfl))
          rw [List.length_append]
          exact Nat.lt_add_of_pos_left nonempty
    · exact .inr ⟨_, opened, .inr rfl⟩
  · exact .inl ⟨_, closed, .inr rfl⟩

/-- What is masked by several patterns keeps a secret shielded. -/
theorem Shielded.foldl (unspelled : Unspelled secret) (patterns : List (Regex CodePoint))
    (shielded : Shielded words secret text) :
    Shielded words secret (patterns.foldl replaceAll text) :=
  List.foldlRecOn patterns replaceAll shielded fun text shielded pattern _ =>
    shielded.redacts unspelled (redacts_replaceAll pattern text)

variable {extraSecrets : List PyText}

/-- A listed secret stands nowhere alone in a redacted text. -/
theorem shielded_redactText (listed : secret ∈ extraSecrets)
    (long : minLiteralLen ≤ secret.length) (unspelled : Unspelled secret) (text : PyText) :
    Shielded words secret (redactText words extraSecrets text) := by
  have among : secret ∈ literalSecrets extraSecrets := by
    rw [literalSecrets, List.mem_insertionSort, List.mem_filter, List.mem_dedup]
    exact ⟨listed, decide_eq_true long⟩
  have literals : Shielded words secret (redactLiterals words extraSecrets text) := by
    obtain ⟨earlier, later, split⟩ := List.append_of_mem among
    rw [redactLiterals, ← List.foldl_map (f := literalSecret words) (g := replaceAll), split,
      List.map_append, List.map_cons, List.foldl_append, List.foldl_cons]
    exact (shielded_replaceAll unspelled _).foldl unspelled _
  exact (literals.redacts unspelled (redacts_assignments _)).foldl unspelled _

/-- What is nowhere in a text is nowhere in the redacted text. -/
theorem not_infix_redactText (words : WordTest) (extraSecrets : List PyText)
    (unspelled : Unspelled secret) (absent : ¬secret <:+: text) :
    ¬secret <:+: redactText words extraSecrets text := by
  have masks (patterns : List (Regex CodePoint)) {text : PyText} (absent : ¬secret <:+: text) :
      ¬secret <:+: patterns.foldl replaceAll text :=
    List.foldlRecOn patterns replaceAll absent fun text absent pattern _ =>
      (redacts_replaceAll pattern text).lacks unspelled absent
  refine masks _ ((redacts_assignments _).lacks unspelled ?_)
  rw [redactLiterals, ← List.foldl_map (f := literalSecret words) (g := replaceAll)]
  exact masks _ absent

/-- The pass that replaces each occurrence of a secret leaves none. -/
theorem not_infix_replaceAll (unspelled : Unspelled secret) (text : PyText) :
    ¬secret <:+: replaceAll text (.literal secret) := by
  rintro ⟨front, back, shape⟩
  have redacts := redacts_replaceAll (.literal secret) text
  rw [← shape, List.append_assoc] at redacts
  obtain ⟨lead, left, -, -, -, passes⟩ := redacts.of_part unspelled
  have matched := Regex.outcomes_literal secret ⟨lead.reverse ++ [], secret ++ left, []⟩
  rw [if_pos (List.prefix_append _ _), List.drop_left] at matched
  refine absurd ?_ (passes _ (by rw [matched]; rfl))
  rw [List.length_append]
  exact Nat.lt_add_of_pos_left (List.length_pos_iff.mpr unspelled.nonempty)

/-! ## Documents -/

/-- A text stands somewhere in a document as a value. -/
inductive HoldsText (value : PyText) : Json → Prop
  | string : HoldsText value (.string value)
  | item {items : List Json} {item : Json} (among : item ∈ items) (within : HoldsText value item) :
      HoldsText value (.array items)
  | member {members : List (PyText × Json)} {member : PyText × Json} (among : member ∈ members)
      (within : HoldsText value member.2) : HoldsText value (.object members)

variable (words extraSecrets) in
theorem redactItems_eq_map (items : List Json) :
    redactItems words extraSecrets items = items.map (redactNode words extraSecrets) := by
  induction items with
  | nil => rfl
  | cons item items ih => rw [redactItems, ih, List.map_cons]

/-- The mark spells no secret. -/
theorem shielded_redacted (unspelled : Unspelled secret) : Shielded words secret redacted := by
  intro front back shape
  rw [redacted_eq_bracketed, ← List.append_nil (Regex.bracketed _ _ _)] at shape
  obtain ⟨later, -, rest⟩ := unspelled.after_mark shape.symm
  have none := (List.append_eq_nil_iff.mp (List.append_eq_nil_iff.mp rest).2).1
  exact absurd none unspelled.nonempty

/-- A listed secret stands nowhere alone in a text of a redacted document. -/
theorem shielded_redactNode (listed : secret ∈ extraSecrets)
    (long : minLiteralLen ≤ secret.length) (unspelled : Unspelled secret) {value : PyText}
    {document : Json} (holds : HoldsText value (redactNode words extraSecrets document)) :
    Shielded words secret value := by
  generalize written : redactNode words extraSecrets document = output at holds
  induction holds generalizing document with
  | string =>
      cases document with
      | string letters =>
          rw [redactNode, Json.string.injEq] at written
          rw [← written]
          exact shielded_redactText listed long unspelled letters
      | _ => cases written
  | item among _ ih =>
      cases document with
      | array items =>
          rw [redactNode, Json.array.injEq, redactItems_eq_map] at written
          rw [← written] at among
          obtain ⟨item, -, same⟩ := List.mem_map.mp among
          exact ih same
      | _ => cases written
  | member among within ih =>
      cases document with
      | object members =>
          rw [redactNode, Json.object.injEq, redactMembers_eq_map] at written
          rw [← written] at among
          obtain ⟨member, -, rfl⟩ := List.mem_map.mp among
          rw [redactMember] at within ih
          by_cases sensitive : isSensitiveKey member.1 = true
          · rw [if_pos sensitive] at within
            cases within
            exact shielded_redacted unspelled
          · rw [if_neg sensitive] at ih
            exact ih rfl
      | _ => cases written

end Shielded

/-- The last mark of a text may uncover a secret that stood within a word. -/
example : redactText .ofAscii [ofString "opensesame"] (ofString "AKIA0123456789ABCDEFopensesame") =
    ofString "[REDACTED]opensesame" := by decide +kernel

end Orchestrator.Security
