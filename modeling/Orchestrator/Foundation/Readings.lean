import Mathlib.Data.List.Chain
import Mathlib.Algebra.BigOperators.Group.List.Basic
import Mathlib.Algebra.Order.Ring.Int
import Mathlib.Tactic.Common

/-! # Readings of a counter

A cumulative counter is charged for reading by reading: each time the value read,
less something deducted for what was charged before. The charges add up to the
last reading exactly when each deduction is the reading before.
-/

namespace Orchestrator.Foundation

/-- One reading of a counter and what is deducted from it. -/
structure Reading where
  value : Int
  deducted : Int

/-- The sum of the charges. -/
def charged (readings : List Reading) : Int :=
  (readings.map fun reading => reading.value - reading.deducted).sum

/-- The last value read, from some value on. -/
def lastValue (start : Int) (readings : List Reading) : Int :=
  (readings.getLast?.map Reading.value).getD start

@[simp] theorem charged_nil : charged [] = 0 := rfl

@[simp] theorem charged_cons (reading : Reading) (readings : List Reading) :
    charged (reading :: readings) = reading.value - reading.deducted + charged readings := by
  simp only [charged, List.map_cons, List.sum_cons]

theorem charged_append (readings more : List Reading) :
    charged (readings ++ more) = charged readings + charged more := by
  simp only [charged, List.map_append, List.sum_append]

@[simp] theorem lastValue_nil (start : Int) : lastValue start [] = start := rfl

@[simp] theorem lastValue_cons (start : Int) (reading : Reading) (readings : List Reading) :
    lastValue start (reading :: readings) = lastValue reading.value readings := by
  cases readings with
  | nil => rfl
  | cons next rest => simp only [lastValue, List.getLast?_cons,
      Option.map_some, Option.getD_some]

/-- Every reading deducts at most the one before, the first at most `start`. -/
def Deducts (start : Int) (readings : List Reading) : Prop :=
  (⟨start, 0⟩ :: readings).IsChain fun before reading => reading.deducted ≤ before.value

/-- Every reading deducts the one before, the first `start`. -/
def DeductsAll (start : Int) (readings : List Reading) : Prop :=
  (⟨start, 0⟩ :: readings).IsChain fun before reading => reading.deducted = before.value

@[simp] theorem deducts_cons {start : Int} {reading : Reading} {readings : List Reading} :
    Deducts start (reading :: readings) ↔
      reading.deducted ≤ start ∧ Deducts reading.value readings := by
  cases readings <;> simp [Deducts]

@[simp] theorem deductsAll_cons {start : Int} {reading : Reading} {readings : List Reading} :
    DeductsAll start (reading :: readings) ↔
      reading.deducted = start ∧ DeductsAll reading.value readings := by
  cases readings <;> simp [DeductsAll]

theorem lastValue_eq (start : Int) (readings : List Reading) :
    lastValue start readings = ((readings.map Reading.value).getLast?).getD start := by
  rw [lastValue, List.getLast?_map]

theorem Deducts.append {start : Int} {readings more : List Reading}
    (deducts : Deducts start readings) (later : Deducts (lastValue start readings) more) :
    Deducts start (readings ++ more) := by
  induction readings generalizing start with
  | nil => exact later
  | cons reading readings ih =>
      obtain ⟨first, rest⟩ := deducts_cons.mp deducts
      rw [lastValue_cons] at later
      exact deducts_cons.mpr ⟨first, ih rest later⟩

/-- Readings that grow from `start` on deduct no more than the one before if they deduct no more
than `start`. -/
theorem deducts_of_le {start : Int} {readings : List Reading}
    (grows : (start :: readings.map Reading.value).IsChain (· ≤ ·))
    (least : ∀ reading ∈ readings, reading.deducted ≤ start) : Deducts start readings := by
  induction readings generalizing start with
  | nil => exact List.isChain_singleton _
  | cons reading readings ih =>
      obtain ⟨step, rest⟩ := List.isChain_cons_cons.mp grows
      refine deducts_cons.mpr ⟨least reading List.mem_cons_self, ih rest ?_⟩
      intro later among
      exact (least later (List.mem_cons_of_mem _ among)).trans step

/-- Values that grow grow up to and from every value among them. -/
theorem grows_append {start : Int} {values more : List Int}
    (grows : (start :: (values ++ more)).IsChain (· ≤ ·)) :
    (start :: values).IsChain (· ≤ ·) ∧
      (values.getLast?.getD start :: more).IsChain (· ≤ ·) := by
  induction values generalizing start with
  | nil => exact ⟨List.isChain_singleton _, grows⟩
  | cons value values ih =>
      obtain ⟨step, rest⟩ := List.isChain_cons_cons.mp grows
      obtain ⟨first, later⟩ := ih rest
      refine ⟨List.isChain_cons_cons.mpr ⟨step, first⟩, ?_⟩
      rwa [List.getLast?_cons, Option.getD_some]

/-- Values that grow from `start` on are no less. -/
theorem le_of_grows {start : Int} {values : List Int}
    (grows : (start :: values).IsChain (· ≤ ·)) : ∀ value ∈ values, start ≤ value :=
  (List.pairwise_cons.mp (List.isChain_iff_pairwise.mp grows)).1

/-- Too little deducted is charged twice. -/
theorem lastValue_le_charged {start : Int} {readings : List Reading}
    (deducts : Deducts start readings) : lastValue start readings - start ≤ charged readings := by
  induction readings generalizing start with
  | nil => simp
  | cons reading readings ih =>
      obtain ⟨first, rest⟩ := deducts_cons.mp deducts
      have later := ih rest
      rw [lastValue_cons, charged_cons]
      omega

/-- The charges add up to the last reading exactly when every reading deducts the one before. -/
theorem charged_eq_iff {start : Int} {readings : List Reading} (deducts : Deducts start readings) :
    charged readings = lastValue start readings - start ↔ DeductsAll start readings := by
  induction readings generalizing start with
  | nil => simp [DeductsAll]
  | cons reading readings ih =>
      obtain ⟨first, rest⟩ := deducts_cons.mp deducts
      have later := lastValue_le_charged rest
      rw [lastValue_cons, charged_cons, deductsAll_cons, ← ih rest]
      constructor
      · intro balanced
        exact ⟨by omega, by omega⟩
      · rintro ⟨deducted, balanced⟩
        omega

end Orchestrator.Foundation
