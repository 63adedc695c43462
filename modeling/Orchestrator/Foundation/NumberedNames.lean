import Mathlib.Data.List.Basic
import Mathlib.Data.String.Basic
import Mathlib.Tactic.Common

/-! # Names that end in a number

A name with a tag and a decimal number after it is read back in one way when the tag does
not end in a digit.
-/

namespace Orchestrator.Foundation

/-- A list is cut in one way where its last run of some letters starts. -/
theorem append_inj_of_last_run {α : Type} {test : α → Bool} {left left' right right' : List α}
    (run : ∀ letter ∈ right, test letter = true) (run' : ∀ letter ∈ right', test letter = true)
    (stop : ∀ letter ∈ left.getLast?, test letter = false)
    (stop' : ∀ letter ∈ left'.getLast?, test letter = false) :
    left ++ right = left' ++ right' ↔ left = left' ∧ right = right' := by
  constructor
  · intro same
    have lastRun : ∀ {left right : List α}, (∀ letter ∈ right, test letter = true) →
        (∀ letter ∈ left.getLast?, test letter = false) →
        (left ++ right).reverse.takeWhile test = right.reverse := by
      intro left right run stop
      rw [List.reverse_append, List.takeWhile_append_of_pos fun letter among =>
        run letter (List.mem_reverse.mp among)]
      have none : left.reverse.takeWhile test = [] := by
        cases shape : left.reverse with
        | nil => rfl
        | cons last rest =>
            have member : last ∈ left.getLast? := by
              rw [← List.head?_reverse, shape, List.head?_cons]
              exact rfl
            rw [List.takeWhile_cons_of_neg (by rw [stop last member]; decide)]
      rw [none, List.append_nil]
    have rights : right.reverse = right'.reverse := by
      rw [← lastRun run stop, same, lastRun run' stop']
    have equal : right = right' := List.reverse_injective rights
    subst equal
    exact ⟨List.append_cancel_right same, rfl⟩
  · rintro ⟨rfl, rfl⟩
    rfl

theorem toList_toString (number : Nat) : (toString number).toList = Nat.toDigits 10 number :=
  Nat.toList_repr

theorem toString_injective {first second : Nat} (same : toString first = toString second) :
    first = second := by
  have digits : Nat.toDigits 10 first = Nat.toDigits 10 second := by
    rw [← toList_toString, same, toList_toString]
  calc
    first = Nat.ofDigitChars 10 (Nat.toDigits 10 first) 0 := Nat.ofDigitChars_ten_toDigits.symm
    _ = Nat.ofDigitChars 10 (Nat.toDigits 10 second) 0 := by rw [digits]
    _ = second := Nat.ofDigitChars_ten_toDigits

/-- Two tagged and numbered names are equal exactly when what is before the number is, and the
numbers are. -/
theorem numbered_inj {first second : String} {number other : Nat}
    (stop : ∀ letter ∈ first.toList.getLast?, letter.isDigit = false)
    (stop' : ∀ letter ∈ second.toList.getLast?, letter.isDigit = false) :
    first ++ toString number = second ++ toString other ↔ first = second ∧ number = other := by
  have digits (number : Nat) : ∀ letter ∈ (toString number).toList, letter.isDigit = true := by
    rw [toList_toString]
    exact fun letter among => Nat.isDigit_of_mem_toDigits (by decide) (by decide) among
  rw [← String.toList_inj, String.toList_append, String.toList_append,
    append_inj_of_last_run (digits number) (digits other) stop stop', String.toList_inj,
    String.toList_inj]
  exact and_congr_right fun _ => ⟨toString_injective, fun same => congrArg toString same⟩

end Orchestrator.Foundation
