import Mathlib.Order.Basic
import Orchestrator.Routing.Router

/-! # The earliest reset instant

The fold of a stage over the reset instants reported to it: what it ends with, by
the first text it meets, and when that is the earliest instant of all the texts
reported.
-/

namespace Orchestrator.Routing

/-! ## Instants -/

/-- Whether the instant has an offset. -/
def Instant.isAware : Instant → Bool
  | .naive _ => false
  | .aware _ => true

/-- The instant in microseconds, a naive one read at some local offset. -/
def Instant.at (offset : Int) : Instant → Int
  | .naive micros => micros - offset
  | .aware micros => micros

/-- Instants of one kind are compared as they are at any offset. -/
theorem Instant.isBefore_of_eq {candidate current : Instant}
    (same : candidate.isAware = current.isAware) (offset : Int) :
    candidate.isBefore current = .ok (decide (candidate.at offset < current.at offset)) := by
  cases candidate with
  | naive candidate =>
      cases current with
      | naive current => simp only [isBefore, Instant.at, sub_lt_sub_iff_right]
      | aware current => cases same
  | aware candidate =>
      cases current with
      | naive current => cases same
      | aware current => rfl

theorem Instant.isBefore_of_ne {candidate current : Instant}
    (differ : candidate.isAware ≠ current.isAware) :
    candidate.isBefore current = .error .naiveAndAware := by
  cases candidate with
  | naive candidate =>
      cases current with
      | naive current => exact absurd rfl differ
      | aware current => rfl
  | aware candidate =>
      cases current with
      | naive current => rfl
      | aware current => exact absurd rfl differ

/-! ## The fold -/

/-- The fold of a stage over the instants reported to it. -/
def foldEarlier (texts : List (Option ResetInstant)) : Except TypeError (Option ResetInstant) :=
  texts.foldlM earlier none

/-- The instants that parse. -/
def parsedOf (texts : List (Option ResetInstant)) : List Instant :=
  texts.filterMap fun text => text.bind ResetInstant.parsed

/-- `reported` is the earliest instant of the texts, or there is none and none is reported. -/
def IsEarliest (offset : Int) (texts : List (Option ResetInstant))
    (reported : Option ResetInstant) : Prop :=
  match reported with
  | none => parsedOf texts = []
  | some text => ∃ instant, text.parsed = some instant ∧ some text ∈ texts ∧
      ∀ other ∈ parsedOf texts, instant.at offset ≤ other.at offset

@[simp] theorem parsedOf_cons_some {text : Option ResetInstant} {instant : Instant}
    (parsed : text.bind ResetInstant.parsed = some instant) (texts : List (Option ResetInstant)) :
    parsedOf (text :: texts) = instant :: parsedOf texts := List.filterMap_cons_some parsed

@[simp] theorem parsedOf_cons_none {text : Option ResetInstant}
    (unparsed : text.bind ResetInstant.parsed = none) (texts : List (Option ResetInstant)) :
    parsedOf (text :: texts) = parsedOf texts := List.filterMap_cons_none unparsed

/-- A text that does not parse leaves the instant the fold has. -/
theorem earlier_of_unparsed {text : Option ResetInstant}
    (unparsed : text.bind ResetInstant.parsed = none) (current : ResetInstant) :
    earlier (some current) text = .ok (some current) := by
  cases text with
  | none => rfl
  | some text =>
      have later : text.parsed = none := unparsed
      cases read : current.parsed <;> simp only [earlier, later, read]

/-- An instant that does not parse is kept over every other. -/
theorem foldlM_of_unparsed {current : ResetInstant} (unparsed : current.parsed = none)
    (texts : List (Option ResetInstant)) :
    texts.foldlM earlier (some current) = .ok (some current) := by
  induction texts with
  | nil => rfl
  | cons text texts ih =>
      have kept : earlier (some current) text = .ok (some current) := by
        cases text with
        | none => rfl
        | some text => simp only [earlier, unparsed]
      rw [List.foldlM_cons, kept]
      exact ih

/-- From a parsed instant on, the fold raises exactly on one of the other kind, and else ends with
the earliest. -/
theorem foldlM_of_parsed {current : ResetInstant} {first : Instant}
    (parsed : current.parsed = some first) (offset : Int) (texts : List (Option ResetInstant)) :
    (texts.foldlM earlier (some current) = .error .naiveAndAware ∧
        ∃ other ∈ parsedOf texts, other.isAware ≠ first.isAware) ∨
      (∀ other ∈ parsedOf texts, other.isAware = first.isAware) ∧
        ∃ text instant, texts.foldlM earlier (some current) = .ok (some text) ∧
          text.parsed = some instant ∧ (text = current ∨ some text ∈ texts) ∧
          instant.at offset ≤ first.at offset ∧
          ∀ other ∈ parsedOf texts, instant.at offset ≤ other.at offset := by
  induction texts generalizing current first with
  | nil =>
      refine .inr ⟨?_, current, first, rfl, parsed, .inl rfl, le_rfl, ?_⟩
      · intro other found
        cases found
      · intro other found
        cases found
  | cons text texts ih =>
      rw [List.foldlM_cons]
      cases read : text.bind ResetInstant.parsed with
      | none =>
          rw [earlier_of_unparsed read, parsedOf_cons_none read]
          rcases ih parsed with incomparable | ⟨same, least, instant, folded, found, among, bounds⟩
          · exact .inl incomparable
          · exact .inr ⟨same, least, instant, folded, found,
              among.imp_right (List.mem_cons_of_mem _), bounds⟩
      | some second =>
          obtain ⟨candidate, rfl, candidateParsed⟩ := Option.bind_eq_some_iff.mp read
          rw [parsedOf_cons_some read]
          by_cases kind : second.isAware = first.isAware
          · have compared : earlier (some current) (some candidate) =
                .ok (some (if second.at offset < first.at offset then candidate else current)) := by
              simp only [earlier, parsed, candidateParsed, Instant.isBefore_of_eq kind offset,
                decide_eq_true_eq]
            rw [compared]
            by_cases before : second.at offset < first.at offset
            · rw [if_pos before]
              rcases ih candidateParsed with
                ⟨raised, other, found, differ⟩ |
                ⟨same, least, instant, folded, found, among, le, bounds⟩
              · exact .inl ⟨raised, other, List.mem_cons_of_mem _ found, kind ▸ differ⟩
              · refine .inr ⟨List.forall_mem_cons.mpr ⟨kind, fun other found => ?_⟩, least, instant,
                  folded, found, ?_, le.trans before.le, List.forall_mem_cons.mpr ⟨le, bounds⟩⟩
                · exact (same other found).trans kind
                · rcases among with rfl | among
                  · exact .inr List.mem_cons_self
                  · exact .inr (List.mem_cons_of_mem _ among)
            · rw [if_neg before]
              rcases ih parsed with
                ⟨raised, other, found, differ⟩ |
                ⟨same, least, instant, folded, found, among, le, bounds⟩
              · exact .inl ⟨raised, other, List.mem_cons_of_mem _ found, differ⟩
              · exact .inr ⟨List.forall_mem_cons.mpr ⟨kind, same⟩, least, instant, folded, found,
                  among.imp_right (List.mem_cons_of_mem _), le,
                  List.forall_mem_cons.mpr ⟨le.trans (not_lt.mp before), bounds⟩⟩
          · refine .inl ⟨?_, second, List.mem_cons_self, kind⟩
            simp only [earlier, parsed, candidateParsed, Instant.isBefore_of_ne kind]
            rfl

/-- No two instants that the fold compares are of different kinds. -/
def Comparable (texts : List (Option ResetInstant)) : Prop :=
  ∀ first ∈ texts.reduceOption.head?, ∀ instant ∈ first.parsed,
    ∀ other ∈ parsedOf texts, other.isAware = instant.isAware

/-- The fold has the earliest of all texts at hand: it was told none and there is none, or the first
text it was told parses and an instant among its own is as early as any. -/
def HasEarliest (offset : Int) (own all : List (Option ResetInstant)) : Prop :=
  (own.reduceOption = [] ∧ parsedOf all = []) ∨
    ∃ first, own.reduceOption.head? = some first ∧ first.parsed.isSome ∧
      ∀ other ∈ parsedOf all, ∃ instant ∈ parsedOf own, instant.at offset ≤ other.at offset

/-- What the fold makes of a list, by the first text in it. -/
theorem foldEarlier_cases (offset : Int) (texts : List (Option ResetInstant)) :
    (texts.reduceOption = [] ∧ foldEarlier texts = .ok none) ∨
      ∃ first, texts.reduceOption.head? = some first ∧
        ((first.parsed = none ∧ foldEarlier texts = .ok (some first)) ∨
          ∃ instant, first.parsed = some instant ∧
            ((foldEarlier texts = .error .naiveAndAware ∧
                ∃ other ∈ parsedOf texts, other.isAware ≠ instant.isAware) ∨
              (∀ other ∈ parsedOf texts, other.isAware = instant.isAware) ∧
                ∃ text least, foldEarlier texts = .ok (some text) ∧ text.parsed = some least ∧
                  some text ∈ texts ∧
                  ∀ other ∈ parsedOf texts, least.at offset ≤ other.at offset)) := by
  induction texts with
  | nil => exact .inl ⟨rfl, rfl⟩
  | cons text texts ih =>
      cases text with
      | none =>
          rcases ih with ⟨none, folded⟩ | ⟨first, isFirst, found⟩
          · exact .inl ⟨none, folded⟩
          · refine .inr ⟨first, isFirst, found.imp_right ?_⟩
            rintro ⟨instant, parsed, raised | ⟨same, least, instant, folded, found, among, bounds⟩⟩
            · exact ⟨instant, parsed, .inl raised⟩
            · exact ⟨_, parsed, .inr ⟨same, least, instant, folded, found,
                List.mem_cons_of_mem _ among, bounds⟩⟩
      | some first =>
          refine .inr ⟨first, rfl, ?_⟩
          cases parsed : first.parsed with
          | none => exact .inl ⟨rfl, foldlM_of_unparsed parsed texts⟩
          | some instant =>
              refine .inr ⟨instant, rfl, ?_⟩
              have head : parsedOf (some first :: texts) = instant :: parsedOf texts :=
                List.filterMap_cons_some parsed
              rw [head]
              rcases foldlM_of_parsed parsed offset texts with
                ⟨raised, other, found, differ⟩ |
                  ⟨same, least, earliest, folded, found, among, le, bounds⟩
              · exact .inl ⟨raised, other, List.mem_cons_of_mem _ found, differ⟩
              · refine .inr ⟨List.forall_mem_cons.mpr ⟨rfl, same⟩, least, earliest, folded, found,
                  ?_, List.forall_mem_cons.mpr ⟨le, bounds⟩⟩
                rcases among with rfl | among
                · exact List.mem_cons_self
                · exact List.mem_cons_of_mem _ among

/-- The fold raises exactly when it compares instants of different kinds. -/
theorem foldEarlier_comparable (texts : List (Option ResetInstant)) :
    (∃ reported, foldEarlier texts = .ok reported) ↔ Comparable texts := by
  rcases foldEarlier_cases 0 texts with ⟨nothing, folded⟩ | ⟨first, isFirst, found⟩
  · refine iff_of_true ⟨_, folded⟩ ?_
    intro first isFirst
    rw [nothing] at isFirst
    cases isFirst
  · have comparable : Comparable texts ↔ ∀ instant ∈ first.parsed,
        ∀ other ∈ parsedOf texts, other.isAware = instant.isAware := by
      rw [Comparable, isFirst]
      simp only [Option.mem_some_iff, forall_eq']
    rw [comparable]
    rcases found with ⟨unparsed, folded⟩ | ⟨instant, parsed, ⟨raised, other, found, differ⟩ |
      ⟨same, least, earliest, folded, -⟩⟩
    · refine iff_of_true ⟨_, folded⟩ ?_
      intro instant parsed
      cases unparsed.symm.trans parsed
    · refine iff_of_false ?_ fun comparable => differ (comparable instant parsed other found)
      rintro ⟨reported, folded⟩
      cases raised.symm.trans folded
    · refine iff_of_true ⟨_, folded⟩ ?_
      intro other again
      cases parsed.symm.trans again
      exact same

/-- The fold reports the earliest of all texts exactly when it has it at hand and compares instants
of one kind. -/
theorem foldEarlier_isEarliest (offset : Int) {own all : List (Option ResetInstant)}
    (among : ∀ text ∈ own, text ∈ all) :
    (∃ reported, foldEarlier own = .ok reported ∧ IsEarliest offset all reported) ↔
      Comparable own ∧ HasEarliest offset own all := by
  rw [← foldEarlier_comparable]
  rcases foldEarlier_cases offset own with ⟨nothing, folded⟩ | ⟨first, isFirst, found⟩
  · have report : HasEarliest offset own all ↔ parsedOf all = [] := by
      simp only [HasEarliest, nothing, true_and, List.head?_nil, reduceCtorEq, false_and,
        exists_false, or_false]
    rw [report]
    constructor
    · rintro ⟨reported, reads, earliest⟩
      cases folded.symm.trans reads
      exact ⟨⟨_, folded⟩, earliest⟩
    · rintro ⟨-, earliest⟩
      exact ⟨none, folded, earliest⟩
  · have something : own.reduceOption ≠ [] := by
      intro nothing
      rw [nothing] at isFirst
      cases isFirst
    have report : HasEarliest offset own all ↔ first.parsed.isSome ∧
        ∀ other ∈ parsedOf all, ∃ instant ∈ parsedOf own, instant.at offset ≤ other.at offset := by
      simp only [HasEarliest, something, false_and, isFirst, Option.some.injEq, exists_eq_left',
        false_or]
    rw [report]
    rcases found with ⟨unparsed, folded⟩ | ⟨instant, parsed, ⟨raised, -⟩ |
      ⟨same, least, earliest, folded, read, among', bounds⟩⟩
    · refine iff_of_false ?_ ?_
      · rintro ⟨reported, reads, reportsEarliest⟩
        cases folded.symm.trans reads
        obtain ⟨instant, parsed, -⟩ := reportsEarliest
        cases unparsed.symm.trans parsed
      · rintro ⟨-, parsed, -⟩
        rw [unparsed] at parsed
        cases parsed
    · refine iff_of_false ?_ ?_
      · rintro ⟨reported, reads, -⟩
        cases raised.symm.trans reads
      · rintro ⟨⟨reported, reads⟩, -⟩
        cases raised.symm.trans reads
    · have own' : earliest ∈ parsedOf own := List.mem_filterMap.mpr ⟨some least, among', read⟩
      constructor
      · rintro ⟨reported, reads, reportsEarliest⟩
        cases folded.symm.trans reads
        obtain ⟨instant', parsed', -, bounds'⟩ := reportsEarliest
        cases read.symm.trans parsed'
        refine ⟨⟨_, folded⟩, ?_, fun other found => ⟨earliest, own', bounds' other found⟩⟩
        rw [parsed]
        rfl
      · rintro ⟨-, -, reach⟩
        refine ⟨some least, folded, earliest, read, among _ among', ?_⟩
        intro other found
        obtain ⟨instant', ofOwn, le⟩ := reach other found
        exact (bounds instant' ofOwn).trans le

end Orchestrator.Routing
