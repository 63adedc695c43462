import Orchestrator.Memory.Settling

/-! # Budgets over a pass

A budget is only used up and time that has run out stays so: a pass that can still act has
been able to act all along.
-/

namespace Orchestrator.Memory

namespace Budget

/-- Time that has run out stays so; a full pass has all the time it needs. -/
def Timely (budget : Budget) : Prop :=
  budget.full = true ∨ ∀ reading, budget.clock (reading + 1) = true → budget.clock reading = true

/-- A budget some steps later: the limits are the same and no less is used up. -/
structure Later (budget later : Budget) : Prop where
  full : later.full = budget.full
  maxScanned : later.maxScanned = budget.maxScanned
  maxEdits : later.maxEdits = budget.maxEdits
  clock : later.clock = budget.clock
  readings : budget.readings ≤ later.readings
  scanned : budget.scanned ≤ later.scanned
  edits : budget.edits ≤ later.edits

variable {budget middle later : Budget}

theorem Later.refl (budget : Budget) : Later budget budget :=
  ⟨rfl, rfl, rfl, rfl, le_refl _, le_refl _, le_refl _⟩

theorem Later.trans (first : Later budget middle) (second : Later middle later) :
    Later budget later where
  full := second.full.trans first.full
  maxScanned := second.maxScanned.trans first.maxScanned
  maxEdits := second.maxEdits.trans first.maxEdits
  clock := second.clock.trans first.clock
  readings := first.readings.trans second.readings
  scanned := first.scanned.trans second.scanned
  edits := first.edits.trans second.edits

theorem later_scan (budget : Budget) (rows : Nat) : Later budget (budget.scan rows) :=
  { Later.refl budget with scanned := Int.le_add_of_nonneg_right (Int.natCast_nonneg rows) }

theorem later_spendEdits (budget : Budget) (edits : Nat) :
    Later budget (budget.spendEdits edits) :=
  { Later.refl budget with edits := Int.le_add_of_nonneg_right (Int.natCast_nonneg edits) }

theorem later_withinClock (budget : Budget) : Later budget budget.withinClock.2 := by
  unfold withinClock
  split
  · exact Later.refl budget
  · exact { Later.refl budget with readings := Nat.le_succ budget.readings }

theorem later_canAct (budget : Budget) : Later budget budget.canAct.2 := by
  have scans : Later budget budget.canScan.2 := later_withinClock budget
  unfold canAct
  dsimp only
  split
  · exact scans.trans (later_withinClock budget.canScan.2)
  · exact scans

/-- A budget allows to act while it is full or every limit is ahead. -/
theorem canAct_eq_true : budget.canAct.1 = true ↔ budget.full = true ∨
    (budget.clock budget.readings = true ∧ budget.scanned < budget.maxScanned) ∧
      budget.clock (budget.readings + 1) = true ∧ budget.edits < budget.maxEdits := by
  by_cases full : budget.full = true
  · rw [canAct_of_full full]
    exact iff_of_true rfl (.inl full)
  · unfold canAct canScan canEdit withinClock
    simp only [full, Bool.false_eq_true, if_false, Bool.false_or, false_or, Bool.and_eq_true,
      decide_eq_true_eq]
    split
    · rename_i scans
      rw [Bool.and_eq_true, decide_eq_true_eq]
      exact (and_iff_right scans).symm
    · rename_i stops
      exact ⟨fun never => (Bool.false_ne_true never).elim, fun acts => absurd acts.1 stops⟩

theorem Timely.of_later (timely : budget.Timely) (steps : Later budget later) : later.Timely :=
  timely.imp steps.full.trans fun ahead => steps.clock ▸ ahead

/-- Who has time at one reading of the clock had it at every earlier one. -/
theorem clock_earlier (ahead : ∀ reading, budget.clock (reading + 1) = true →
    budget.clock reading = true) {earlier reading : Nat} (before : earlier ≤ reading)
    (within : budget.clock reading = true) : budget.clock earlier = true := by
  induction before with
  | refl => exact within
  | step _ ih => exact ih (ahead _ within)

/-- Who can act later can act now. -/
theorem Later.canAct (steps : Later budget later) (timely : budget.Timely)
    (acts : later.canAct.1 = true) : budget.canAct.1 = true := by
  rw [canAct_eq_true] at acts ⊢
  rcases timely with full | ahead
  · exact .inl full
  · refine acts.imp steps.full.symm.trans ?_
    rintro ⟨⟨scanTime, scans⟩, editTime, edits⟩
    rw [steps.clock] at scanTime editTime
    rw [steps.maxScanned] at scans
    rw [steps.maxEdits] at edits
    have readings := steps.readings
    exact ⟨⟨clock_earlier ahead readings scanTime, steps.scanned.trans_lt scans⟩,
      clock_earlier ahead (Nat.succ_le_succ readings) editTime, steps.edits.trans_lt edits⟩

end Budget

variable {text : TextFunctions} {index : DerivedIndex} {service : MemoryService}
  {config : MemoryConfig} {now : Stamp} {dryRun : Bool}

/-! ## The budget after every pass -/

theorem later_expireEpisodes (store : MemoryStore) (budget : Budget) :
    Budget.Later budget (expireEpisodes service config now dryRun store budget).2.1 := by
  unfold expireEpisodes
  dsimp only
  split
  · exact .refl budget
  · split
    · exact budget.later_scan _
    · exact (budget.later_scan _).trans (Budget.later_spendEdits _ _)

theorem later_reconcileRows {α : Type} (active : α → Bool) (classify : α → Verdict α)
    (rows : List α) (budget : Budget) :
    Budget.Later budget (reconcileRows active classify rows budget).budget := by
  induction rows generalizing budget with
  | nil => exact .refl budget
  | cons row rest ih =>
      have read := budget.later_canAct
      have scanned := read.trans (budget.canAct.2.later_scan 1)
      have spent := scanned.trans ((budget.canAct.2.scan 1).later_spendEdits 1)
      rw [reconcileRows]
      dsimp only
      split
      · cases classify row with
        | fresh => exact scanned.trans (ih _)
        | remap moved => exact spent.trans (ih _)
        | quarantine copy => exact spent.trans (ih _)
      · exact read.trans (ih _)

theorem later_reconcileEntities (store : MemoryStore) (budget : Budget) :
    Budget.Later budget (reconcileEntities service index dryRun store budget).2.1 := by
  unfold reconcileEntities
  dsimp only
  split
  · exact .refl budget
  · split <;> exact later_reconcileRows _ _ _ budget

theorem reconcileKind_budget (kind : LongTermKind) (store : MemoryStore) (budget : Budget) :
    (reconcileKind text service index dryRun kind store budget).2.1 =
      (reconcileRows (fun row : LongTermRow => isActive row.status)
        (classifyLesson text index kind) (store.tiers.readLongTerm kind) budget).budget := by
  unfold reconcileKind
  dsimp only
  split <;> rfl

theorem later_reconcileKind (kind : LongTermKind) (store : MemoryStore) (budget : Budget) :
    Budget.Later budget (reconcileKind text service index dryRun kind store budget).2.1 := by
  rw [reconcileKind_budget]
  exact later_reconcileRows _ _ _ budget

theorem later_reconcileLessons (kinds : List LongTermKind) (store : MemoryStore)
    (budget : Budget) :
    Budget.Later budget (reconcileLessons text service index dryRun kinds store budget).2.1 := by
  induction kinds generalizing store budget with
  | nil => exact .refl budget
  | cons kind kinds ih =>
      have read := budget.later_canAct
      unfold reconcileLessons
      dsimp only
      split
      · exact read
      · split
        · exact read.trans (ih _ _)
        · exact (read.trans (later_reconcileKind _ _ _)).trans (ih _ _)

end Orchestrator.Memory
