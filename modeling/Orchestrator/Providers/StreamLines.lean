import Orchestrator.Foundation.Lines
import Orchestrator.Providers.ClaudeStream

/-! # Lines of bytes and lines of text

A line feed ends a line of bytes wherever a chunk of them was cut, it ends a line of the text that
the bytes stand for, and no sequence of bytes that stands for a character goes across it.
-/

namespace Orchestrator.Foundation.PyText

/-! ## Bytes -/

variable {point : CodePoint} {bytes rest more : List UInt8}

/-- What is decoded at the front stays so when bytes are appended. -/
theorem decodePoint_append (found : decodePoint bytes = some (point, rest)) (more : List UInt8) :
    decodePoint (bytes ++ more) = some (point, rest ++ more) := by
  match bytes with
  | [] => cases found
  | first :: after =>
      rw [decodePoint.eq_def] at found
      rw [List.cons_append, decodePoint.eq_def]
      dsimp only at found ⊢
      split_ifs at found ⊢ with one two three
      · obtain ⟨point', here, pair⟩ := Option.map_eq_some_iff.mp found
        cases pair
        rw [here, Option.map_some]
      · match after with
        | [] => cases found
        | second :: after =>
            obtain ⟨point', here, pair⟩ := Option.map_eq_some_iff.mp found
            cases pair
            simp only [List.cons_append, here, Option.map_some]
      · match after with
        | [] => cases found
        | [_] => cases found
        | second :: third :: after =>
            obtain ⟨point', here, pair⟩ := Option.map_eq_some_iff.mp found
            cases pair
            simp only [List.cons_append, here, Option.map_some]
      · match after with
        | [] => cases found
        | [_] => cases found
        | [_, _] => cases found
        | second :: third :: fourth :: after =>
            obtain ⟨point', here, pair⟩ := Option.map_eq_some_iff.mp found
            cases pair
            simp only [List.cons_append, here, Option.map_some]

/-- A character takes at least a byte. -/
theorem length_of_decodePoint (found : decodePoint bytes = some (point, rest)) :
    rest.length < bytes.length := by
  match bytes with
  | [] => cases found
  | first :: after =>
      rw [decodePoint.eq_def] at found
      dsimp only at found
      split_ifs at found with one two three
      · obtain ⟨point', -, pair⟩ := Option.map_eq_some_iff.mp found
        cases pair
        exact Nat.lt_succ_self _
      · match after with
        | [] => cases found
        | second :: after =>
            obtain ⟨point', -, pair⟩ := Option.map_eq_some_iff.mp found
            cases pair
            simp only [List.length_cons]
            omega
      · match after with
        | [] => cases found
        | [_] => cases found
        | second :: third :: after =>
            obtain ⟨point', -, pair⟩ := Option.map_eq_some_iff.mp found
            cases pair
            simp only [List.length_cons]
            omega
      · match after with
        | [] => cases found
        | [_] => cases found
        | [_, _] => cases found
        | second :: third :: fourth :: after =>
            obtain ⟨point', -, pair⟩ := Option.map_eq_some_iff.mp found
            cases pair
            simp only [List.length_cons]
            omega

end Orchestrator.Foundation.PyText

namespace Orchestrator.Providers

open Orchestrator.Foundation
open Orchestrator.Foundation.PyText
open Orchestrator.Exchange

/-! ## Decoding across a line feed -/

variable {bytes front rest : List UInt8} {point : CodePoint}

theorem continuation_newline : continuation 10 = none := by decide

theorem maySecond_newline (first : UInt8) : maySecond first 10 = false := by
  rw [maySecond, continuation_newline]
  rfl

/-- A byte that stands for itself is decoded. -/
theorem decodePoint_small {first : UInt8} (small : first.toNat < 0x80) (rest : List UInt8) :
    decodePoint (first :: rest) = some (⟨first.toNat, by omega⟩, rest) := by
  have plain : isSurrogate ⟨first.toNat, by omega⟩ = false := by
    rw [isSurrogate, Bool.and_eq_false_iff, decide_eq_false_iff_not]
    exact .inl (by dsimp only; omega)
  rw [decodePoint.eq_def]
  dsimp only
  rw [if_pos small, ← Option.map_some (f := (·, rest)), ← decoded_val (Nat.zero_le _) plain]

theorem decodeTwo_newline (first : UInt8) : decodeTwo first 10 = none := by
  rw [decodeTwo, continuation_newline]
  cases leading 0xC0 0xE0 first <;> rfl

theorem decodeThree_newline {first second third : UInt8} (broken : second = 10 ∨ third = 10) :
    decodeThree first second third = none := by
  rw [decodeThree]
  rcases broken with rfl | rfl
  · rw [continuation_newline]
    cases leading 0xE0 0xF0 first <;> rfl
  · rw [continuation_newline]
    cases leading 0xE0 0xF0 first <;> cases continuation second <;> rfl

theorem decodeFour_newline {first second third fourth : UInt8}
    (broken : second = 10 ∨ third = 10 ∨ fourth = 10) :
    decodeFour first second third fourth = none := by
  rw [decodeFour]
  rcases broken with rfl | rfl | rfl
  · rw [continuation_newline]
    cases leading 0xF0 0xF8 first <;> rfl
  · rw [continuation_newline]
    cases leading 0xF0 0xF8 first <;> cases continuation second <;> rfl
  · rw [continuation_newline]
    cases leading 0xF0 0xF8 first <;> cases continuation second <;>
      cases continuation third <;> rfl

/-- What is no sequence becomes none by a line feed. -/
theorem decodePoint_newline (begun : front ≠ []) (broken : decodePoint front = none)
    (rest : List UInt8) : decodePoint (front ++ 10 :: rest) = none := by
  match front with
  | [] => exact absurd rfl begun
  | first :: after =>
      rw [decodePoint.eq_def] at broken
      rw [List.cons_append, decodePoint.eq_def]
      dsimp only at broken ⊢
      split_ifs at broken ⊢ with one two three
      · rw [Option.map_eq_none_iff] at broken ⊢
        exact broken
      · match after with
        | [] => simp only [List.nil_append, decodeTwo_newline, Option.map_none]
        | second :: after =>
            simp only [List.cons_append, Option.map_eq_none_iff] at broken ⊢
            exact broken
      · match after with
        | [] =>
            match rest with
            | [] => rfl
            | third :: rest =>
                simp only [List.nil_append, decodeThree_newline (.inl rfl), Option.map_none]
        | [second] =>
            simp only [List.cons_append, List.nil_append, decodeThree_newline (.inr rfl),
              Option.map_none]
        | second :: third :: after =>
            simp only [List.cons_append, Option.map_eq_none_iff] at broken ⊢
            exact broken
      · match after with
        | [] =>
            match rest with
            | [] => rfl
            | [_] => rfl
            | third :: fourth :: rest =>
                simp only [List.nil_append, decodeFour_newline (.inl rfl), Option.map_none]
        | [second] =>
            match rest with
            | [] => rfl
            | fourth :: rest =>
                simp only [List.cons_append, List.nil_append,
                  decodeFour_newline (.inr (.inl rfl)), Option.map_none]
        | [second, third] =>
            simp only [List.cons_append, List.nil_append, decodeFour_newline (.inr (.inr rfl)),
              Option.map_none]
        | second :: third :: fourth :: after =>
            simp only [List.cons_append, Option.map_eq_none_iff] at broken ⊢
            exact broken

/-- The bytes that one replacement character stands for end before a line feed. -/
theorem badLength_newline (begun : front ≠ []) (rest : List UInt8) :
    badLength (front ++ 10 :: rest) = badLength front ∧ badLength front ≤ front.length ∧
      0 < badLength front := by
  match front with
  | [] => exact absurd rfl begun
  | [first] =>
      simp only [List.cons_append, List.nil_append, badLength, maySecond_newline, Bool.and_false,
        Bool.false_eq_true, if_false, List.length_singleton, Nat.le_refl, Nat.one_pos, and_self]
  | [first, second] =>
      simp only [List.cons_append, List.nil_append, badLength, continuation_newline,
        Option.isSome_none, Bool.and_false, Bool.false_eq_true, if_false, true_and]
      split_ifs <;> simp only [List.length_cons, List.length_nil] <;> omega
  | first :: second :: third :: after =>
      simp only [List.cons_append, badLength, true_and]
      split_ifs <;> simp only [List.length_cons] <;> omega

/-- More fuel than bytes decodes nothing else. -/
theorem decodeReplaceWithin_eq {fuel other : Nat} {bytes : List UInt8}
    (enough : bytes.length ≤ fuel) (enough' : bytes.length ≤ other) :
    decodeReplaceWithin fuel bytes = decodeReplaceWithin other bytes := by
  induction fuel generalizing other bytes with
  | zero =>
      have none := List.length_eq_zero_iff.mp (Nat.le_zero.mp enough)
      subst none
      cases other <;> rfl
  | succ fuel ih =>
      cases bytes with
      | nil => cases other <;> rfl
      | cons byte bytes =>
          cases other with
          | zero => cases enough'
          | succ other =>
              rw [decodeReplaceWithin, decodeReplaceWithin]
              · cases found : decodePoint (byte :: bytes) with
                | none =>
                    have size := (badLength_newline (List.cons_ne_nil byte bytes) []).2
                    dsimp only
                    rw [@ih other] <;> rw [List.length_drop] <;> omega
                | some pair =>
                    have shorter := length_of_decodePoint found
                    dsimp only
                    rw [@ih other] <;> omega
              · exact List.cons_ne_nil _ _
              · exact List.cons_ne_nil _ _

theorem decodeReplace_point (found : decodePoint bytes = some (point, rest)) :
    decodeReplace bytes = point :: decodeReplace rest := by
  have shorter := length_of_decodePoint found
  cases bytes with
  | nil => cases found
  | cons byte bytes =>
      rw [decodeReplace, List.length_cons, decodeReplaceWithin, found]
      · dsimp only
        rw [decodeReplaceWithin_eq (Nat.le_of_lt_succ shorter) (Nat.le_refl rest.length)]
        rfl
      · exact List.cons_ne_nil _ _

theorem decodeReplace_bad (begun : bytes ≠ []) (broken : decodePoint bytes = none) :
    decodeReplace bytes =
      ofChar (Char.ofNat 0xFFFD) :: decodeReplace (bytes.drop (badLength bytes)) := by
  have size := (badLength_newline begun []).2
  cases bytes with
  | nil => exact absurd rfl begun
  | cons byte bytes =>
      rw [decodeReplace, List.length_cons, decodeReplaceWithin, broken]
      · dsimp only
        have fits : ((byte :: bytes).drop (badLength (byte :: bytes))).length ≤ bytes.length := by
          rw [List.length_drop, List.length_cons]
          omega
        rw [decodeReplaceWithin_eq fits (Nat.le_refl _)]
        rfl
      · exact List.cons_ne_nil _ _

/-- Bytes are decoded up to a line feed and after it. -/
theorem decodeReplace_newline (front rest : List UInt8) :
    decodeReplace (front ++ 10 :: rest) = decodeReplace front ++ 10 :: decodeReplace rest := by
  induction size : front.length using Nat.strongRecOn generalizing front with
  | ind size ih =>
      subst size
      by_cases begun : front = []
      · subst begun
        exact decodeReplace_point (decodePoint_small (by decide) rest)
      · cases found : decodePoint front with
        | none =>
            obtain ⟨same, fits, positive⟩ := badLength_newline begun rest
            have shorter : (front.drop (badLength front)).length < front.length := by
              rw [List.length_drop]
              omega
            rw [decodeReplace_bad begun found, decodeReplace_bad
              (List.append_ne_nil_of_left_ne_nil begun _) (decodePoint_newline begun found rest),
              same, List.drop_append_of_le_length fits, ih _ shorter _ rfl, List.cons_append]
        | some pair =>
            rw [decodeReplace_point found, decodeReplace_point (decodePoint_append found _),
              ih _ (length_of_decodePoint found) _ rfl, List.cons_append]

/-! ## Cutting at line feeds -/

theorem cutLines_plain (unbroken : 10 ∉ bytes) : cutLines bytes = ([], bytes) := by
  rw [cutLines, List.splitOn_eq_singleton unbroken]
  rfl

theorem cutLines_newline (unbroken : 10 ∉ front) (rest : List UInt8) :
    cutLines (front ++ 10 :: rest) = (front :: (cutLines rest).1, (cutLines rest).2) := by
  have more := List.splitOn_ne_nil 10 rest
  rw [cutLines, List.splitOn_append_cons_self_of_not_mem unbroken,
    List.dropLast_cons_of_ne_nil more, List.getLast?_cons_of_ne_nil more]
  rfl

/-- The lines of two parts are those of the first, then those of what is left and the second. -/
theorem cutLines_append (front rest : List UInt8) :
    cutLines (front ++ rest) =
      ((cutLines front).1 ++ (cutLines ((cutLines front).2 ++ rest)).1,
        (cutLines ((cutLines front).2 ++ rest)).2) := by
  induction size : front.length using Nat.strongRecOn generalizing front with
  | ind size ih =>
      subst size
      by_cases broken : 10 ∈ front
      · obtain ⟨line, later, rfl, unbroken⟩ := List.eq_append_cons_of_mem broken
        have shorter : later.length < (line ++ 10 :: later).length := by
          rw [List.length_append, List.length_cons]
          omega
        rw [List.append_assoc, List.cons_append, cutLines_newline unbroken,
          cutLines_newline unbroken, ih _ shorter later rfl, List.cons_append]
      · rw [cutLines_plain broken, List.nil_append]

end Orchestrator.Providers
