import Mathlib.Algebra.Ring.Nat
import Orchestrator.Git.ChainStubs

/-! # The bounds of a chain's body

What bounding a body keeps of its head, its marks, its titles and its follow-ups, and when the body
becomes short enough. A stub may be longer than what it stands for, so a body that cannot become
short enough may become longer.
-/

namespace Orchestrator.Git

open Orchestrator.Foundation PyText MarkedText

/-! ## The parts of a body -/

def headOf (body : PyText) : PyText :=
  (splitBefore sectionSeparator taskMarkerPrefix body).headD []

def sectionsOf (body : PyText) : List PyText :=
  (splitBefore sectionSeparator taskMarkerPrefix body).tail

theorem splitBefore_eq (body : PyText) :
    splitBefore sectionSeparator taskMarkerPrefix body = headOf body :: sectionsOf body := by
  obtain ⟨head, texts, split, -⟩ := delimits_taskMarkerPrefix.exists_parts body
  rw [headOf, sectionsOf, split]
  rfl

theorem joinSections_parts (body : PyText) :
    joinSections (headOf body) (sectionsOf body) = body := by
  obtain ⟨head, texts, split, joins, -⟩ := delimits_taskMarkerPrefix.exists_parts body
  rw [headOf, sectionsOf, split]
  exact joins.symm

theorem free_parts (body : PyText) :
    ∀ text ∈ headOf body :: sectionsOf body, Free sectionStart text := by
  obtain ⟨head, texts, split, -, free, -⟩ := delimits_taskMarkerPrefix.exists_parts body
  rw [headOf, sectionsOf, split]
  exact free

theorem marked_sectionsOf (body : PyText) :
    ∀ text ∈ sectionsOf body, taskMarkerPrefix <+: text := by
  obtain ⟨head, texts, split, -, -, marked, -⟩ := delimits_taskMarkerPrefix.exists_parts body
  rw [sectionsOf, split]
  exact marked

/-! ## One pass -/

section Pass

variable {head : PyText} {keepFollowUps : Bool}

/-- The sections, a number of the oldest ones compacted. -/
def partly (keepFollowUps : Bool) (count : Nat) (texts : List PyText) : List PyText :=
  (texts.take count).map (compactPrSection keepFollowUps) ++ texts.drop count

theorem partly_zero (texts : List PyText) : partly keepFollowUps 0 texts = texts := rfl

theorem partly_length (texts : List PyText) :
    partly keepFollowUps texts.length texts = texts.map (compactPrSection keepFollowUps) := by
  rw [partly, List.take_length, List.drop_length, List.append_nil]

theorem length_joinSections (head : PyText) (texts : List PyText) :
    (joinSections head texts).length =
      head.length + (texts.map fun text => sectionSeparator.length + text.length).sum := by
  rw [joinSections, List.length_append, List.length_flatMap]
  congr 2
  apply List.map_congr_left
  intro text _
  exact List.length_append

/-- A pass compacts the oldest sections, no more of them than it takes. -/
theorem compactPass_eq (done texts : List PyText) :
    ∃ count ≤ texts.length,
      compactPass keepFollowUps (joinSections head (done ++ texts)).length texts =
        (((joinSections head (done ++ partly keepFollowUps count texts)).length : Int),
          partly keepFollowUps count texts) ∧
      ((joinSections head (done ++ partly keepFollowUps count texts)).length ≤ prBodyMaxChars ∨
        count = texts.length) ∧
      ∀ fewer < count,
        prBodyMaxChars < (joinSections head (done ++ partly keepFollowUps fewer texts)).length := by
  induction texts generalizing done with
  | nil => exact ⟨0, Nat.le_refl 0, rfl, .inr rfl, fun _ none => absurd none (Nat.not_lt_zero _)⟩
  | cons text texts ih =>
      by_cases short : (joinSections head (done ++ text :: texts)).length ≤ prBodyMaxChars
      · refine ⟨0, Nat.zero_le _, ?_, .inl short, fun _ none => absurd none (Nat.not_lt_zero _)⟩
        rw [compactPass.eq_def]
        dsimp only
        rw [if_pos (Int.ofNat_le.mpr short)]
        rfl
      · obtain ⟨count, bound, result, ends, before⟩ :=
          ih (done ++ [compactPrSection keepFollowUps text])
        have shifted : ∀ later : List PyText,
            done ++ [compactPrSection keepFollowUps text] ++ later =
              done ++ compactPrSection keepFollowUps text :: later := fun later => by
          rw [List.append_assoc, List.singleton_append]
        simp only [shifted] at result ends before
        refine ⟨count + 1, Nat.succ_le_succ bound, ?_, ends.imp id (congrArg Nat.succ), ?_⟩
        · have total : ((joinSections head (done ++ text :: texts)).length : Int) -
              (text.length - (compactPrSection keepFollowUps text).length) =
                (joinSections head
                  (done ++ compactPrSection keepFollowUps text :: texts)).length := by
            simp only [length_joinSections, List.map_append, List.map_cons, List.sum_append,
              List.sum_cons]
            omega
          rw [compactPass.eq_def]
          dsimp only
          rw [if_neg fun small => short (Int.ofNat_le.mp small), total, result]
          rfl
        · intro fewer less
          cases fewer with
          | zero => exact Nat.lt_of_not_le short
          | succ fewer => exact before fewer (Nat.lt_of_succ_lt_succ less)

theorem compactPass_of_le {total : Int} (small : total ≤ prBodyMaxChars) (texts : List PyText) :
    (compactPass keepFollowUps total texts).2 = texts := by
  cases texts with
  | nil => rfl
  | cons text texts => rw [compactPass_cons, if_pos small]

end Pass

/-! ## Both passes -/

/-- What the first pass makes of all sections, and the second after it. -/
theorem map_compact_compact (texts : List PyText) :
    (texts.map (compactPrSection true)).map (compactPrSection false) = texts.map smallestStub := by
  rw [List.map_map]
  exact List.map_congr_left fun text _ => compactPrSection_compact true text

/-- Some number of the oldest sections without their prose makes the body short enough. -/
def ShortWithFollowUps (head : PyText) (texts : List PyText) : Prop :=
  ∃ count ≤ texts.length, (joinSections head (partly true count texts)).length ≤ prBodyMaxChars

/-- All sections without their prose, and some number of the oldest without their follow-ups, make
the body short enough. -/
def ShortWithoutFollowUps (head : PyText) (texts : List PyText) : Prop :=
  ∃ count ≤ texts.length,
    (joinSections head (partly false count (texts.map (compactPrSection true)))).length ≤
      prBodyMaxChars

/-- A body is bounded by the first pass, or by the second, or by neither. -/
inductive Bounded (head : PyText) (texts : List PyText) (bounded : PyText) : Prop
  | first (count : Nat) (bound : count ≤ texts.length)
      (is : bounded = joinSections head (partly true count texts))
      (short : bounded.length ≤ prBodyMaxChars)
  | second (count : Nat) (bound : count ≤ texts.length)
      (is : bounded =
        joinSections head (partly false count (texts.map (compactPrSection true))))
      (short : bounded.length ≤ prBodyMaxChars)
  | neither (is : bounded = joinSections head (texts.map smallestStub))
      (long : prBodyMaxChars < bounded.length) (first : ¬ ShortWithFollowUps head texts)
      (second : ¬ ShortWithoutFollowUps head texts)

theorem bounded_boundPrBody (body : PyText) :
    Bounded (headOf body) (sectionsOf body) (boundPrBody body) := by
  have whole := joinSections_parts body
  rw [boundPrBody]
  by_cases small : body.length ≤ prBodyMaxChars
  · rw [if_pos small]
    exact .first 0 (Nat.zero_le _) whole.symm small
  · rw [if_neg small, splitBefore_eq]
    generalize headOf body = head at whole ⊢
    generalize sectionsOf body = texts at whole ⊢
    cases texts with
    | nil =>
        refine .neither whole.symm (Nat.lt_of_not_le small) ?_ ?_
        · rintro ⟨count, bound, short⟩
          rw [Nat.le_zero.mp bound, partly_zero, whole] at short
          exact small short
        · rintro ⟨count, bound, short⟩
          rw [Nat.le_zero.mp bound, partly_zero, List.map_nil, whole] at short
          exact small short
    | cons text texts =>
        dsimp only
        generalize text :: texts = texts at whole ⊢
        obtain ⟨once, boundOnce, first, endsOnce, beforeOnce⟩ :=
          @compactPass_eq head true [] texts
        simp only [List.nil_append] at first endsOnce beforeOnce
        rw [first]
        dsimp only
        by_cases short : (joinSections head (partly true once texts)).length ≤ prBodyMaxChars
        · rw [compactPass_of_le (Int.ofNat_le.mpr short)]
          exact .first once boundOnce rfl short
        · have all := endsOnce.resolve_left short
          rw [all, partly_length] at short ⊢
          obtain ⟨twice, boundTwice, second, endsTwice, beforeTwice⟩ :=
            @compactPass_eq head false [] (texts.map (compactPrSection true))
          simp only [List.nil_append] at second endsTwice beforeTwice
          rw [second]
          dsimp only
          rw [List.length_map] at boundTwice endsTwice
          by_cases shorter : (joinSections head
              (partly false twice (texts.map (compactPrSection true)))).length ≤ prBodyMaxChars
          · exact .second twice boundTwice rfl shorter
          · have every := endsTwice.resolve_left shorter
            have stubs : partly false texts.length (texts.map (compactPrSection true)) =
                texts.map smallestStub := by
              have full := @partly_length false (texts.map (compactPrSection true))
              rw [List.length_map] at full
              rw [full, map_compact_compact]
            rw [every, stubs] at shorter ⊢
            refine .neither rfl (Nat.lt_of_not_le shorter) ?_ ?_
            · rintro ⟨count, bound, small⟩
              rcases Nat.lt_or_eq_of_le bound with fewer | same
              · exact absurd small (Nat.not_le_of_lt (beforeOnce count (all ▸ fewer)))
              · rw [same, partly_length] at small
                exact short small
            · rintro ⟨count, bound, small⟩
              rcases Nat.lt_or_eq_of_le bound with fewer | same
              · exact absurd small (Nat.not_le_of_lt (beforeTwice count (every ▸ fewer)))
              · rw [same, stubs] at small
                exact shorter small

/-! ## What is kept -/

/-- The follow-ups of a section, without the white space after them. -/
def followUpsText (text : PyText) : PyText :=
  let parts := partitionAt followUpsHeading (summaryOf text)
  if parts.2.1 then followUpsHeading ++ rstrip parts.2.2 else []

/-- A section is as it was, or begins with its marker block and its title. -/
def KeepsTitle (text kept : PyText) : Prop :=
  kept = text ∨ blockOf text ++ (blankLine ++ titleOf text) <+: kept

def KeepsFollowUps (text kept : PyText) : Prop := followUpsText text <:+: kept

/-- The prose of a section has been given up. -/
def GivenUp (text kept : PyText) : Prop :=
  kept = compactPrSection true text ∨ kept = smallestStub text

section Kept

variable {text kept : PyText} {texts : List PyText}

theorem followUpsText_isInfix (text : PyText) : followUpsText text <:+: text := by
  have summary : summaryOf text <:+ text := (partitionAt_suffix _ _).trans (partitionAt_suffix _ _)
  rw [followUpsText]
  split
  · next found =>
    rcases partitionAt_cases followUpsHeading (summaryOf text) with ⟨-, split⟩ | ⟨missing, -⟩
    · refine List.IsInfix.trans ?_ summary.isInfix
      generalize partitionAt followUpsHeading (summaryOf text) = parts at split ⊢
      rw [split]
      refine List.IsInfix.trans ?_ (List.suffix_append parts.1 _).isInfix
      exact ((List.prefix_append_right_inj _).mpr (List.rdropWhile_prefix _ _)).isInfix
    · rw [missing] at found
      cases found
  · exact List.nil_infix

theorem keepsFollowUps_compact (text : PyText) :
    KeepsFollowUps text (compactPrSection true text) := by
  have kept : followUpsText text <:+: followUpsOf (summaryOf text) := by
    rw [followUpsText, followUpsOf]
    split
    · exact ⟨ofString "\n", ofString "\n", by simp only [List.append_assoc]⟩
    · exact List.nil_infix
  rw [KeepsFollowUps, compactPrSection_eq, if_pos rfl, stubSection]
  refine kept.trans (List.IsSuffix.isInfix ?_)
  simp only [← List.append_assoc]
  exact List.suffix_append _ _

theorem keepsTitle_compact (keepFollowUps : Bool) (text : PyText) :
    KeepsTitle text (compactPrSection keepFollowUps text) := by
  refine .inr ?_
  rw [compactPrSection_eq, stubSection, List.prefix_append_right_inj,
    List.prefix_append_right_inj]
  exact List.prefix_append _ _

theorem chomp_cases (text : PyText) : text = chomp text ∨ text = chomp text ++ [newline] := by
  rw [chomp]
  split
  · next last =>
    obtain ⟨front, rfl⟩ := List.getLast?_eq_some_iff.mp last
    rw [List.dropLast_concat]
    exact .inr rfl
  · exact .inl rfl

/-- The line feed that a title ends with is one of the blank line after it. -/
theorem keepsTitle_smallestStub (text : PyText) : KeepsTitle text (smallestStub text) := by
  refine .inr ?_
  rw [smallestStub, stubSection]
  generalize elisionStub (chomp (blockOf text)) [] ++ (ofString "\n" ++ []) = stub
  rcases ended_blockOf text with ended | none
  · rw [ended.chomp, List.prefix_append_right_inj, List.prefix_append_right_inj]
    rcases chomp_cases (titleOf text) with same | same
    · rw [← same]
      exact List.prefix_append _ _
    · generalize chomp (titleOf text) = title at same ⊢
      rw [same, List.prefix_append_right_inj]
      exact ⟨newline :: stub, rfl⟩
  · rw [none]
    rcases chomp_cases (blockOf text) with same | same
    · rw [← same, List.prefix_append_right_inj, List.prefix_append_right_inj]
      exact List.nil_prefix
    · generalize chomp (blockOf text) = block at same ⊢
      rw [same, List.append_assoc, List.prefix_append_right_inj]
      exact ⟨newline :: stub, rfl⟩

/-- A section is as it was, or it is compacted once or twice. -/
def Compacted (text kept : PyText) : Prop := kept = text ∨ GivenUp text kept

theorem Compacted.keepsTitle (compacted : Compacted text kept) : KeepsTitle text kept := by
  rcases compacted with same | rfl | rfl
  · exact .inl same
  · exact keepsTitle_compact true text
  · exact keepsTitle_smallestStub text

theorem Compacted.free (compacted : Compacted text kept) (free : Free sectionStart text) :
    Free sectionStart kept := by
  rcases compacted with rfl | rfl | rfl
  · exact free
  · exact free_compactPrSection free true
  · rw [← compactPrSection_compact true]
    exact free_compactPrSection (free_compactPrSection free true) false

theorem Compacted.marked (compacted : Compacted text kept) (marked : taskMarkerPrefix <+: text) :
    taskMarkerPrefix <+: kept := by
  rcases compacted with rfl | rfl | rfl
  · exact marked
  · exact marked_compactPrSection marked true
  · rw [← compactPrSection_compact true]
    exact marked_compactPrSection (marked_compactPrSection marked true) false

theorem forall₂_partly {relation : PyText → PyText → Prop} {keepFollowUps : Bool} {count : Nat}
    {given : List PyText} (same : List.Forall₂ relation texts given)
    (compacted : List.Forall₂ (fun text other => relation text
      (compactPrSection keepFollowUps other)) texts given) :
    List.Forall₂ relation texts (partly keepFollowUps count given) := by
  induction same generalizing count with
  | nil =>
      rw [partly, List.take_nil, List.drop_nil]
      exact .nil
  | cons here later ih =>
      obtain ⟨first, rest⟩ := List.forall₂_cons.mp compacted
      cases count with
      | zero => exact .cons here later
      | succ count => exact .cons first (ih rest)

end Kept

/-- The first pass keeps the follow-ups, and the second comes when all prose has been given up. -/
theorem Bounded.sections {head bounded : PyText} {texts : List PyText}
    (result : Bounded head texts bounded) :
    ∃ kept, bounded = joinSections head kept ∧ List.Forall₂ Compacted texts kept ∧
      (List.Forall₂ KeepsFollowUps texts kept ∨ List.Forall₂ GivenUp texts kept) := by
  cases result with
  | first count bound is short =>
      refine ⟨_, is, forall₂_partly ?_ ?_, .inl (forall₂_partly ?_ ?_)⟩
      · exact List.forall₂_same.mpr fun text _ => .inl rfl
      · exact List.forall₂_same.mpr fun text _ => .inr (.inl rfl)
      · exact List.forall₂_same.mpr fun text _ => followUpsText_isInfix text
      · exact List.forall₂_same.mpr fun text _ => keepsFollowUps_compact text
  | second count bound is short =>
      have given : List.Forall₂ GivenUp texts
          (partly false count (texts.map (compactPrSection true))) := by
        refine forall₂_partly ?_ ?_
        · rw [List.forall₂_map_right_iff]
          exact List.forall₂_same.mpr fun text _ => .inl rfl
        · rw [List.forall₂_map_right_iff]
          exact List.forall₂_same.mpr fun text _ => .inr (compactPrSection_compact true text)
      exact ⟨_, is, given.imp fun _ _ up => .inr up, .inr given⟩
  | neither is long first second =>
      have given : List.Forall₂ GivenUp texts (texts.map smallestStub) := by
        rw [List.forall₂_map_right_iff]
        exact List.forall₂_same.mpr fun text _ => .inr rfl
      exact ⟨_, is, given.imp fun _ _ up => .inr up, .inr given⟩

/-! ## Bounding again -/

/-- A body of the same head and of compacted sections has these for its parts. -/
theorem splitBefore_compacted {body : PyText} {kept : List PyText}
    (compacted : List.Forall₂ Compacted (sectionsOf body) kept) :
    splitBefore sectionSeparator taskMarkerPrefix (joinSections (headOf body) kept) =
      headOf body :: kept := by
  have origin : ∀ {texts kept : List PyText}, List.Forall₂ Compacted texts kept →
      ∀ part ∈ kept, ∃ text ∈ texts, Compacted text part := by
    intro texts kept same part among
    induction same with
    | nil => exact absurd among List.not_mem_nil
    | cons here later ih =>
        rcases List.mem_cons.mp among with rfl | rest
        · exact ⟨_, List.mem_cons_self, here⟩
        · obtain ⟨text, ofTexts, from_⟩ := ih rest
          exact ⟨text, List.mem_cons_of_mem _ ofTexts, from_⟩
  apply delimits_taskMarkerPrefix.splitBefore_joinParts
  · intro part among
    rcases List.mem_cons.mp among with rfl | later
    · exact free_parts body _ List.mem_cons_self
    · obtain ⟨text, ofTexts, compactedFrom⟩ := origin compacted part later
      exact compactedFrom.free (free_parts body text (List.mem_cons_of_mem _ ofTexts))
  · intro part among
    obtain ⟨text, ofTexts, compactedFrom⟩ := origin compacted part among
    exact compactedFrom.marked (marked_sectionsOf body text ofTexts)

theorem length_joinSections_le {head : PyText} {texts others : List PyText}
    (longer : List.Forall₂ (fun text other => text.length ≤ other.length) texts others) :
    (joinSections head texts).length ≤ (joinSections head others).length := by
  rw [length_joinSections, length_joinSections]
  apply Nat.add_le_add_left
  induction longer with
  | nil => exact Nat.le_refl _
  | cons here _ ih =>
      rw [List.map_cons, List.map_cons, List.sum_cons, List.sum_cons]
      omega

/-- A body of smallest stubs that is too long stays as it is. -/
theorem Bounded.stays {head bounded : PyText} {texts : List PyText}
    (result : Bounded head (texts.map smallestStub) bounded)
    (long : prBodyMaxChars < (joinSections head (texts.map smallestStub)).length) :
    bounded = joinSections head (texts.map smallestStub) := by
  have stub : (texts.map smallestStub).map smallestStub = texts.map smallestStub := by
    rw [List.map_map]
    exact List.map_congr_left fun text _ => smallestStub_smallestStub text
  have longer : List.Forall₂ (fun text other => text.length ≤ other.length)
      (texts.map smallestStub) ((texts.map smallestStub).map (compactPrSection true)) := by
    rw [List.map_map, List.forall₂_map_left_iff, List.forall₂_map_right_iff]
    exact List.forall₂_same.mpr fun text _ => length_smallestStub_le_compact text
  cases result with
  | first count bound is short =>
      have grown : List.Forall₂ (fun text other => text.length ≤ other.length)
          (texts.map smallestStub) (partly true count (texts.map smallestStub)) :=
        forall₂_partly (List.forall₂_same.mpr fun _ _ => Nat.le_refl _)
          (List.forall₂_same.mpr fun stub among => by
            obtain ⟨text, -, rfl⟩ := List.mem_map.mp among
            exact length_smallestStub_le_compact text)
      rw [is] at short
      exact absurd ((length_joinSections_le grown).trans short) (Nat.not_le_of_lt long)
  | second count bound is short =>
      have grown : List.Forall₂ (fun text other => text.length ≤ other.length)
          (texts.map smallestStub)
          (partly false count ((texts.map smallestStub).map (compactPrSection true))) := by
        refine forall₂_partly longer ?_
        rw [List.forall₂_map_right_iff, List.forall₂_map_left_iff, List.forall₂_map_right_iff]
        refine List.forall₂_same.mpr fun text _ => ?_
        rw [compactPrSection_compact, smallestStub_smallestStub]
      rw [is] at short
      exact absurd ((length_joinSections_le grown).trans short) (Nat.not_le_of_lt long)
  | neither is _ _ _ => rw [is, stub]

/-! ## The guarantees -/

/-- What is promised of a bounded body. -/
structure BoundsWell (body : PyText) : Prop where
  notLonger : (boundPrBody body).length ≤ body.length
  fits : (joinSections (headOf body) ((sectionsOf body).map (compactPrSection false))).length ≤
    prBodyMaxChars → (boundPrBody body).length ≤ prBodyMaxChars
  head : headOf (boundPrBody body) = headOf body
  titles : List.Forall₂ KeepsTitle (sectionsOf body) (sectionsOf (boundPrBody body))
  followUps : List.Forall₂ KeepsFollowUps (sectionsOf body) (sectionsOf (boundPrBody body)) ∨
    List.Forall₂ GivenUp (sectionsOf body) (sectionsOf (boundPrBody body))
  fixed : boundPrBody (boundPrBody body) = boundPrBody body

/-- The promises hold exactly when some pass makes the body short enough, or the stubs of all
sections are together no longer than the sections. -/
theorem boundPrBody_iff (body : PyText) :
    BoundsWell body ↔
      ShortWithFollowUps (headOf body) (sectionsOf body) ∨
        ShortWithoutFollowUps (headOf body) (sectionsOf body) ∨
          (joinSections (headOf body) ((sectionsOf body).map smallestStub)).length ≤
            body.length := by
  have result := bounded_boundPrBody body
  obtain ⟨kept, is, compacted, followUps⟩ := result.sections
  have split := splitBefore_compacted compacted
  rw [← is, splitBefore_eq] at split
  obtain ⟨sameHead, sameSections⟩ := List.cons.inj split
  constructor
  · intro well
    cases result with
    | first count bound is short => exact .inl ⟨count, bound, is ▸ short⟩
    | second count bound is short => exact .inr (.inl ⟨count, bound, is ▸ short⟩)
    | neither is _ _ _ => exact .inr (.inr (is ▸ well.notLonger))
  · intro condition
    refine ⟨?_, fun fits => ?_, sameHead, ?_, ?_, ?_⟩
    · by_cases small : body.length ≤ prBodyMaxChars
      · rw [boundPrBody, if_pos small]
      · cases result with
        | first count bound is short => omega
        | second count bound is short => omega
        | neither is _ first second =>
            rw [is]
            exact (condition.resolve_left first).resolve_left second
    · cases result with
      | first count bound is short => exact short
      | second count bound is short => exact short
      | neither is long _ _ =>
          rw [is]
          refine (length_joinSections_le ?_).trans fits
          rw [List.forall₂_map_left_iff, List.forall₂_map_right_iff]
          exact List.forall₂_same.mpr fun text _ => length_smallestStub_le text
    · rw [sameSections]
      exact compacted.imp fun _ _ section_ => section_.keepsTitle
    · rw [sameSections]
      exact followUps
    · by_cases small : (boundPrBody body).length ≤ prBodyMaxChars
      · rw [boundPrBody.eq_1 (boundPrBody body), if_pos small]
      · have again := bounded_boundPrBody (boundPrBody body)
        rw [sameHead, sameSections] at again
        cases result with
        | first count bound is short => exact absurd short small
        | second count bound is short => exact absurd short small
        | neither stubs long _ _ =>
            have given : List.Forall₂ Compacted (sectionsOf body)
                ((sectionsOf body).map smallestStub) := by
              rw [List.forall₂_map_right_iff]
              exact List.forall₂_same.mpr fun _ _ => .inr (.inr rfl)
            have parts := splitBefore_compacted given
            rw [← stubs, splitBefore_eq, sameSections] at parts
            rw [(List.cons.inj parts).2] at again
            rw [again.stays (stubs ▸ long), stubs]

/-! ## A body that grows -/

def shortSection : PyText := ofString "<!-- worc-task:a -->\n\n## A\n\nDone"

/-- The stub of the section is longer than the section, and so is the body where the head is too
long by itself. -/
theorem grows_of_longHead {head : PyText} (plain : newline ∉ head)
    (long : prBodyMaxChars < head.length) :
    (joinSections head [shortSection]).length <
      (boundPrBody (joinSections head [shortSection])).length := by
  have split : splitBefore sectionSeparator taskMarkerPrefix (joinSections head [shortSection]) =
      head :: [shortSection] := by
    apply delimits_taskMarkerPrefix.splitBefore_joinParts
    · intro part among
      rcases List.mem_cons.mp among with rfl | later
      · exact Free.of_not_mem plain
      · cases List.mem_singleton.mp later
        rw [Free]
        decide +kernel
    · intro part among
      cases List.mem_singleton.mp among
      decide
  rw [splitBefore_eq] at split
  have longer : ∀ texts, prBodyMaxChars < (joinSections head texts).length := fun texts => by
    rw [length_joinSections]
    omega
  have result := bounded_boundPrBody (joinSections head [shortSection])
  rw [(List.cons.inj split).1, (List.cons.inj split).2] at result
  cases result with
  | first count bound is short => exact absurd (is ▸ short) (Nat.not_le_of_lt (longer _))
  | second count bound is short => exact absurd (is ▸ short) (Nat.not_le_of_lt (longer _))
  | neither is _ _ _ =>
      have stub : shortSection.length < (smallestStub shortSection).length := by decide +kernel
      rw [is, length_joinSections, length_joinSections]
      simp only [List.map_cons, List.map_nil, List.sum_cons, List.sum_nil]
      omega

/-- A head that is too long by itself, and a short section. -/
def longBody : PyText := joinSections (List.replicate 60001 (ofChar 'x')) [shortSection]

theorem longBody_grows : longBody.length < (boundPrBody longBody).length := by
  rw [longBody]
  apply grows_of_longHead
  · exact fun among => absurd (List.eq_of_mem_replicate among) (by decide)
  · rw [List.length_replicate]
    decide

end Orchestrator.Git
