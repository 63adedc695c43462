import Orchestrator.Recovery.Terminals

/-! # The numbering of the terminal records

The pipeline counts the records of its task when it appends one. The operator's finalization and
the resumption do not count, so their record is right only when it is the first.
-/

namespace Orchestrator.Recovery

open Orchestrator.Foundation
open Orchestrator.Store (Ledger LedgerRecord TaskRow rejectRecord)

/-! ## Records of a task -/

/-- The records of a task, but those of the gate. -/
def terminalRecords (ledger : Ledger) (taskId : String) : List LedgerRecord :=
  ledger.filter fun record => record.id = taskId && !record.isReject

/-- The records of a task are its terminal transitions, in order, and carry their number. -/
structure Recorded (taskId : String) (ledger : Ledger) (terminals : List Flow.Status) : Prop where
  statuses : (terminalRecords ledger taskId).map LedgerRecord.finalStatus =
    terminals.map Flow.Status.value
  numbers : ∀ index record, (terminalRecords ledger taskId)[index]? = some record →
    record.attempt = index + 1 ∧ record.rerunOf = if index = 0 then none else some taskId

section Ledger

variable {taskId : String} {ledger : Ledger} {terminals : List Flow.Status} {record : LedgerRecord}

theorem terminalRecords_append_of_skipped
    (skipped : (record.id = taskId && !record.isReject) = false) :
    terminalRecords (ledger ++ [record]) taskId = terminalRecords ledger taskId := by
  rw [terminalRecords, List.filter_append, List.filter_singleton, skipped, Bool.cond_false,
    List.append_nil, terminalRecords]

theorem terminalRecords_append (counted : (record.id = taskId && !record.isReject) = true) :
    terminalRecords (ledger ++ [record]) taskId = terminalRecords ledger taskId ++ [record] := by
  rw [terminalRecords, List.filter_append, List.filter_singleton, counted, Bool.cond_true,
    terminalRecords]

/-- A record without a validation reason counts for its task. -/
theorem counted_of_plain (named : record.id = taskId) (plain : record.validationReason = none) :
    (record.id = taskId && !record.isReject) = true := by
  rw [LedgerRecord.isReject, plain, decide_eq_true named]
  rfl

/-- A record of the gate or of another task changes nothing. -/
theorem Recorded.append_of_skipped (recorded : Recorded taskId ledger terminals)
    (skipped : (record.id = taskId && !record.isReject) = false) :
    Recorded taskId (ledger ++ [record]) terminals := by
  have same := @terminalRecords_append_of_skipped taskId ledger record skipped
  exact ⟨same ▸ recorded.statuses, same ▸ recorded.numbers⟩

theorem Recorded.length_eq (recorded : Recorded taskId ledger terminals) :
    (terminalRecords ledger taskId).length = terminals.length := by
  have lengths := congrArg List.length recorded.statuses
  rwa [List.length_map, List.length_map] at lengths

/-- A record with the next number goes with the next transition. -/
theorem Recorded.append (recorded : Recorded taskId ledger terminals) {status : Flow.Status}
    (counted : (record.id = taskId && !record.isReject) = true)
    (same : record.finalStatus = status.value) (attempt : record.attempt = terminals.length + 1)
    (rerunOf : record.rerunOf = if terminals.length = 0 then none else some taskId) :
    Recorded taskId (ledger ++ [record]) (terminals ++ [status]) := by
  have longer := @terminalRecords_append taskId ledger record counted
  constructor
  · rw [longer, List.map_append, List.map_append, recorded.statuses, List.map_singleton,
      List.map_singleton, same]
  · intro index other found
    rw [longer] at found
    rcases lt_trichotomy index (terminalRecords ledger taskId).length with earlier | here | beyond
    · rw [List.getElem?_append_left earlier] at found
      exact recorded.numbers index other found
    · rw [here, List.getElem?_concat_length] at found
      cases found
      rw [here, recorded.length_eq]
      exact ⟨attempt, rerunOf⟩
    · rw [List.getElem?_eq_none] at found
      · cases found
      · rw [List.length_append, List.length_singleton]
        omega

theorem ledgerAttemptCount_eq : ledgerAttemptCount ledger taskId =
    (terminalRecords ledger taskId).length := by
  rw [ledgerAttemptCount, terminalRecords, List.countP_eq_length_filter]

/-- A ledger that has not seen a task has no record of it. -/
theorem terminalRecords_of_unseen (unseen : ledger.hasTaskId taskId = false) :
    terminalRecords ledger taskId = [] := by
  rw [terminalRecords, List.filter_eq_nil_iff]
  intro record listed both
  have named := of_decide_eq_true (Bool.and_eq_true_iff.mp both).1
  rw [Store.Ledger.hasTaskId_iff.mpr ⟨record, listed, named⟩] at unseen
  cases unseen

theorem Recorded.nil_of_unseen (recorded : Recorded taskId ledger terminals)
    (unseen : ledger.hasTaskId taskId = false) : terminals = [] := by
  apply List.length_eq_zero_iff.mp
  rw [← recorded.length_eq, terminalRecords_of_unseen unseen, List.length_nil]

theorem recorded_of_unseen (unseen : ledger.hasTaskId taskId = false) :
    Recorded taskId ledger [] := by
  have empty := terminalRecords_of_unseen unseen
  refine ⟨empty ▸ rfl, fun index record found => ?_⟩
  rw [empty, List.getElem?_nil] at found
  cases found

theorem Recorded.seen (recorded : Recorded taskId ledger terminals) (some : terminals ≠ []) :
    ledger.hasTaskId taskId = true := by
  by_contra unseen
  exact some (recorded.nil_of_unseen (Bool.eq_false_iff.mpr unseen))

end Ledger

/-! ## What a life keeps -/

namespace TaskLife

/-- Where a task stands: all its transitions are recorded, the record of its only transition is
owed, or a producer is about to append one. -/
inductive Kept (taskId : String) (life : TaskLife) : Prop where
  | settled (idle : life.appending = none)
      (recorded : Recorded taskId life.ledger life.terminals)
      (ended : ∀ row ∈ life.row, row.status.isTerminal = true → life.terminals ≠ [])
  | owed (row : TaskRow) (idle : life.appending = none) (isRow : life.row = some row)
      (unfinished : incompleteCleanup row = true) (unseen : life.ledger.hasTaskId taskId = false)
      (only : life.terminals = [row.status])
  | pipeline (row : TaskRow) (facts : PipelineFacts) (outcome : CleanupOutcome)
      (earlier : List Flow.Status) (writes : life.appending = some (.pipeline facts outcome))
      (isRow : life.row = some row) (recorded : Recorded taskId life.ledger earlier)
      (latest : life.terminals = earlier ++ [row.status])
  | operator (row read : TaskRow) (prUrl note : Option String)
      (writes : life.appending = some (.operator read prUrl note)) (isRow : life.row = some row)
      (recorded : Recorded taskId life.ledger []) (only : life.terminals = [row.status])
  | ambiguous (row : TaskRow) (writes : life.appending = some .ambiguous)
      (isRow : life.row = some row) (parked : row.status = .manualActionRequired)
      (unseen : life.ledger.hasTaskId taskId = false) (only : life.terminals = [row.status])
  | retry (row read : TaskRow) (outcome : CleanupOutcome)
      (writes : life.appending = some (.cleanup read outcome)) (isRow : life.row = some row)
      (same : row.status = read.status) (unseen : life.ledger.hasTaskId taskId = false)
      (only : life.terminals = [row.status])
  | retryOnly (read : TaskRow) (outcome : CleanupOutcome)
      (writes : life.appending = some (.cleanup read outcome))
      (seen : life.ledger.hasTaskId taskId = true)
      (recorded : Recorded taskId life.ledger life.terminals) (some : life.terminals ≠ [])

/-- A step that the numbering survives: the operator finalizes a task with no record of its own, an
ambiguous task is parked that the ledger does not have, a crash leaves the record to the
resumption, and nothing else is done with a task whose record is owed. -/
def Sound (taskId : String) (transition : Transition TaskLife LifeEvent) : Prop :=
  let life := transition.before
  match transition.event with
  | .finalize _ _ _ cleanup _ => cleanup.safe = true →
      ledgerAttemptCount life.ledger taskId = 0 ∧ life.owed taskId = false
  | .park _ _ => life.ledger.hasTaskId taskId = false
  | .crash => ∀ producer ∈ life.appending, life.owed taskId = true ∨
      (∃ row outcome, producer = .cleanup row outcome) ∧ life.ledger.hasTaskId taskId = true
  | .submit _ | .resetForRerun | .revive _ => life.owed taskId = false
  | _ => True

variable {taskId : String} {advancedMode : Bool} {life after : TaskLife} {now : String}

theorem owed_iff : life.owed taskId = true ↔
    (∃ row ∈ life.row, incompleteCleanup row = true) ∧ life.ledger.hasTaskId taskId = false := by
  rw [owed, Bool.and_eq_true, Bool.not_eq_true', Option.any_eq_true]
  rfl

/-- The append of a producer settles the task. -/
theorem Kept.append (kept : life.Kept taskId) {producer : Producer} {row : TaskRow}
    (writes : life.appending = some producer) (isRow : life.row = some row) :
    Recorded taskId (Producer.append taskId advancedMode now row life.ledger producer)
      life.terminals ∧ life.terminals ≠ [] := by
  cases kept with
  | settled idle | owed _ idle =>
      rw [idle] at writes
      cases writes
  | pipeline _ facts outcome earlier here isHere recorded latest =>
      cases here.symm.trans writes
      cases isHere.symm.trans isRow
      rw [latest]
      refine ⟨recorded.append ?_ rfl ?_ ?_, List.append_ne_nil_of_right_ne_nil _ nofun⟩
      · exact counted_of_plain rfl rfl
      · exact congrArg (· + 1) (ledgerAttemptCount_eq.trans recorded.length_eq)
      · have count : ledgerAttemptCount life.ledger taskId = earlier.length :=
          ledgerAttemptCount_eq.trans recorded.length_eq
        dsimp only [pipelineRecord]
        rw [count]
        by_cases first : earlier.length = 0
        · rw [if_pos first, if_neg (by omega)]
        · rw [if_neg first, if_pos (by omega)]
  | operator _ read prUrl note here isHere recorded only =>
      cases here.symm.trans writes
      cases isHere.symm.trans isRow
      rw [only]
      exact ⟨recorded.append (counted_of_plain rfl rfl) rfl rfl rfl, List.cons_ne_nil _ _⟩
  | ambiguous _ here isHere parked unseen only =>
      cases here.symm.trans writes
      cases isHere.symm.trans isRow
      rw [only, parked, Producer.append, unseen, if_neg Bool.false_ne_true]
      exact ⟨(recorded_of_unseen unseen).append (counted_of_plain rfl rfl) rfl rfl rfl,
        List.cons_ne_nil _ _⟩
  | retry _ read outcome here isHere same unseen only =>
      cases here.symm.trans writes
      cases isHere.symm.trans isRow
      rw [only, same, Producer.append, unseen, if_neg Bool.false_ne_true]
      exact ⟨(recorded_of_unseen unseen).append (counted_of_plain rfl rfl) rfl rfl rfl,
        List.cons_ne_nil _ _⟩
  | retryOnly read outcome here seen recorded some =>
      cases here.symm.trans writes
      rw [Producer.append, seen, if_pos rfl]
      exact ⟨recorded, some⟩

/-- A crash that leaves the record to the resumption. -/
theorem Kept.crash (kept : life.Kept taskId)
    (sound : ∀ producer ∈ life.appending, life.owed taskId = true ∨
      (∃ row outcome, producer = .cleanup row outcome) ∧ life.ledger.hasTaskId taskId = true) :
    ({ life with appending := none } : TaskLife).Kept taskId := by
  have left {row : TaskRow} {producer : Producer} (writes : life.appending = some producer)
      (other : ∀ read outcome, producer = .cleanup read outcome →
        life.ledger.hasTaskId taskId = false)
      (isRow : life.row = some row) (only : life.terminals = [row.status]) :
      ({ life with appending := none } : TaskLife).Kept taskId := by
    rcases sound producer writes with owes | ⟨⟨read, outcome, same⟩, seen⟩
    · obtain ⟨⟨found, isFound, unfinished⟩, unseen⟩ := owed_iff.mp owes
      cases isRow.symm.trans isFound
      exact .owed row rfl isRow unfinished unseen only
    · cases (other read outcome same).symm.trans seen
  cases kept with
  | settled idle recorded ended => exact .settled rfl recorded ended
  | owed row idle isRow unfinished unseen only => exact .owed row rfl isRow unfinished unseen only
  | pipeline row facts outcome earlier writes isRow recorded latest =>
      rcases sound _ writes with owes | ⟨⟨_, _, same⟩, _⟩
      · have first := recorded.nil_of_unseen (owed_iff.mp owes).2
        rw [first] at latest
        exact left writes (fun _ _ same => nomatch same) isRow latest
      · cases same
  | operator row read prUrl note writes isRow recorded only =>
      exact left writes (fun _ _ same => nomatch same) isRow only
  | ambiguous row writes isRow parked unseen only =>
    exact left writes (fun _ _ same => nomatch same) isRow only
  | retry row read outcome writes isRow same unseen only =>
      exact left writes (fun _ _ _ => unseen) isRow only
  | retryOnly read outcome writes seen recorded some =>
    exact .settled rfl recorded fun _ _ _ => some

/-- Between the producers a task is settled or owed the record of its only transition. -/
theorem Kept.of_idle (kept : life.Kept taskId) (idle : life.appending = none) :
    (Recorded taskId life.ledger life.terminals ∧
      ∀ row ∈ life.row, row.status.isTerminal = true → life.terminals ≠ []) ∨
    ∃ row ∈ life.row, incompleteCleanup row = true ∧ life.ledger.hasTaskId taskId = false ∧
      life.terminals = [row.status] := by
  cases kept with
  | settled _ recorded ended => exact .inl ⟨recorded, ended⟩
  | owed row _ isRow unfinished unseen only => exact .inr ⟨row, isRow, unfinished, unseen, only⟩
  | pipeline _ _ _ _ writes => cases idle.symm.trans writes
  | operator _ _ _ _ writes => cases idle.symm.trans writes
  | ambiguous _ writes => cases idle.symm.trans writes
  | retry _ _ _ writes => cases idle.symm.trans writes
  | retryOnly _ _ writes => cases idle.symm.trans writes

/-- A task that is not owed a record has all of them, when nobody writes. -/
theorem Kept.recorded (kept : life.Kept taskId) (idle : life.appending = none)
    (paid : life.owed taskId = false) : Recorded taskId life.ledger life.terminals ∧
      ∀ row ∈ life.row, row.status.isTerminal = true → life.terminals ≠ [] := by
  rcases kept.of_idle idle with settled | ⟨row, isRow, unfinished, unseen, _⟩
  · exact settled
  · cases (owed_iff.mpr ⟨⟨row, isRow, unfinished⟩, unseen⟩).symm.trans paid

/-- A task whose row is not terminal is owed nothing. -/
theorem not_owed_of_active {row : TaskRow} (isRow : life.row = some row)
    (active : row.status.isTerminal = false) : life.owed taskId = false := by
  by_contra owes
  obtain ⟨⟨found, isFound, unfinished⟩, _⟩ := owed_iff.mp (Bool.not_eq_false _ |>.mp owes)
  cases isRow.symm.trans isFound
  rw [incompleteCleanup, active] at unfinished
  cases unfinished

/-- What a step does, and to which rows. -/
inductive Steps (taskId : String) (advancedMode : Bool) (life : TaskLife) :
    LifeEvent → TaskLife → Prop where
  | append (producer : Producer) (row : TaskRow) (now : String)
      (writes : life.appending = some producer) (isRow : life.row = some row) :
      Steps taskId advancedMode life (.append now)
        { life with
          ledger := Producer.append taskId advancedMode now row life.ledger producer
          appending := none }
  | crash : Steps taskId advancedMode life .crash { life with appending := none }
  | rejectSettled (now reason : String) (idle : life.appending = none) :
      Steps taskId advancedMode life (.reject now reason) life
  | reject (now reason : String) (idle : life.appending = none) (named : reason ≠ "")
      (unsettled : ∀ row ∈ life.row, row.status.isTerminal = false) :
      Steps taskId advancedMode life (.reject now reason)
        { life with ledger := life.ledger ++ [rejectRecord now advancedMode taskId reason] }
  | other (record : LedgerRecord) (idle : life.appending = none) (elsewhere : record.id ≠ taskId) :
      Steps taskId advancedMode life (.other record)
        { life with ledger := life.ledger ++ [record] }
  | submit (row registered : TaskRow) (idle : life.appending = none)
      (active : registered.status.isTerminal = false) :
      Steps taskId advancedMode life (.submit row) { life with row := some registered }
  | work (change : TaskRow → TaskRow) (row : TaskRow) (idle : life.appending = none)
      (isRow : life.row = some row) (active : row.status.isTerminal = false)
      (stays : (change row).status.isTerminal = false) :
      Steps taskId advancedMode life (.work change) { life with row := some (change row) }
  | resetForRerun (row : TaskRow) (idle : life.appending = none) (isRow : life.row = some row) :
      Steps taskId advancedMode life .resetForRerun { life with row := some row.resetForRerun }
  | revive (status : Flow.Status) (row : TaskRow) (idle : life.appending = none)
      (isRow : life.row = some row) (active : status.isTerminal = false) :
      Steps taskId advancedMode life (.revive status)
        { life with row := some (row.revived status) }
  | terminate (facts : PipelineFacts) (cleanup : CleanupOutcome) (status : Flow.Status)
      (now : String) (row : TaskRow) (idle : life.appending = none) (isRow : life.row = some row)
      (active : row.status.isTerminal = false) :
      Steps taskId advancedMode life (.terminate facts cleanup status now)
        (life.conclude (concludedRow facts cleanup status now row) (.pipeline facts cleanup))
  | finalize (declared : Flow.Status) (prUrl note : Option String) (cleanup : CleanupOutcome)
      (now : String) (row : TaskRow) (idle : life.appending = none) (isRow : life.row = some row)
      (safe : cleanup.safe = true) :
      Steps taskId advancedMode life (.finalize declared prUrl note cleanup now)
        (life.conclude (finalizedRow declared note cleanup now row) (.operator row prUrl note))
  | blocked (declared : Flow.Status) (prUrl note : Option String) (cleanup : CleanupOutcome)
      (now : String) (row : TaskRow) (idle : life.appending = none) (isRow : life.row = some row)
      (dirty : cleanup.safe = false) :
      Steps taskId advancedMode life (.finalize declared prUrl note cleanup now)
        { life with row := some (cleanedRow cleanup now cleanup.error row) }
  | park (reason : Option String) (now : String) (row : TaskRow) (idle : life.appending = none)
      (isRow : life.row = some row) (active : row.status.isTerminal = false) :
      Steps taskId advancedMode life (.park reason now)
        (life.conclude (parkedRow reason now row) .ambiguous)
  | resumeCleanup (outcome : CleanupOutcome) (now : String) (row : TaskRow)
      (idle : life.appending = none) (isRow : life.row = some row)
      (unfinished : incompleteCleanup row = true) :
      Steps taskId advancedMode life (.resumeCleanup outcome now)
        { life with
          row := some (cleanedRow outcome now outcome.error row)
          appending := some (.cleanup row outcome) }

theorem not_terminal_of_active {status : Flow.Status} (active : status.isActive = true) :
    status.isTerminal = false := by
  cases status with
  | validated | preparing | running => rfl
  | _ => cases active

theorem steps_of_step {event : LifeEvent}
    (moved : TaskLife.step taskId advancedMode event life = some after) :
    Steps taskId advancedMode life event after := by
  rw [TaskLife.step.eq_def] at moved
  split at moved
  · next producer now row writes isRow =>
      cases moved
      exact .append producer row now writes isRow
  · cases moved
    exact .crash
  · next now reason idle =>
      split at moved
      · cases moved
      · next named =>
          split at moved
          · cases moved
            exact .rejectSettled now reason idle
          · next unsettled =>
              cases moved
              refine .reject now reason idle named fun row isRow => ?_
              by_contra terminal
              rw [isRow] at unsettled
              exact unsettled (Bool.not_eq_false _ |>.mp terminal)
  · next record idle =>
      split at moved
      · cases moved
      · next elsewhere =>
          cases moved
          exact .other record idle elsewhere
  · next row idle =>
      split at moved
      · cases moved
      · next admitted =>
          cases moved
          refine .submit row _ idle ?_
          have active := Bool.eq_false_iff.mpr fun terminal => admitted (.inl terminal)
          cases life.row with
          | none => exact active
          | some old => exact active
  · next change row idle isRow =>
      split at moved
      · cases moved
      · next active =>
          cases moved
          rw [not_or] at active
          exact .work change row idle isRow (Bool.eq_false_iff.mpr active.1)
            (Bool.eq_false_iff.mpr active.2)
  · next row idle isRow =>
      split at moved
      · cases moved
        exact .resetForRerun row idle isRow
      · cases moved
  · next status row idle isRow =>
      split at moved
      · next revivable =>
          cases moved
          exact .revive status row idle isRow (Bool.eq_false_iff.mpr revivable.2)
      · cases moved
  · next facts cleanup status now row idle isRow =>
      split at moved
      · cases moved
      · next active =>
          cases moved
          exact .terminate facts cleanup status now row idle isRow
            (Bool.eq_false_iff.mpr (not_or.mp active).1)
  · next declared prUrl note cleanup now row idle isRow =>
      split at moved
      · cases moved
      · split at moved
        · next safe =>
            cases moved
            exact .finalize declared prUrl note cleanup now row idle isRow safe
        · next notSafe =>
            cases moved
            exact .blocked declared prUrl note cleanup now row idle isRow
              (Bool.eq_false_iff.mpr notSafe)
  · next reason now row idle isRow =>
      split at moved
      · next active =>
          cases moved
          exact .park reason now row idle isRow (not_terminal_of_active active)
      · cases moved
  · next outcome now row idle isRow =>
      split at moved
      · next unfinished =>
          cases moved
          exact .resumeCleanup outcome now row idle isRow unfinished
      · cases moved
  · cases moved

/-- A step on a settled task that changes neither the ledger nor the transitions. -/
theorem Kept.of_row (kept : life.Kept taskId) (idle : life.appending = none)
    (paid : life.owed taskId = false) (row : TaskRow)
    (same : row.status.isTerminal = true → ∃ old ∈ life.row, old.status.isTerminal = true) :
    ({ life with row := some row } : TaskLife).Kept taskId := by
  obtain ⟨recorded, ended⟩ := kept.recorded idle paid
  refine .settled idle recorded fun found isFound terminal => ?_
  cases isFound
  obtain ⟨old, isOld, wasTerminal⟩ := same terminal
  exact ended old isOld wasTerminal

/-- A cleaned row has an incomplete cleanup when the old one has and the outcome is not safe. -/
theorem incompleteCleanup_cleanedRow {row : TaskRow} {cleanup : CleanupOutcome}
    {error : Option String} (unfinished : incompleteCleanup row = true)
    (dirty : cleanup.safe = false) :
    incompleteCleanup (cleanedRow cleanup now error row) = true := by
  rw [incompleteCleanup, Bool.and_eq_true, Bool.and_eq_true] at unfinished ⊢
  refine ⟨unfinished.1, ?_⟩
  rw [cleanedRow, dirty]
  rfl

/-- A step keeps where a task stands. -/
theorem Kept.step {event : LifeEvent} (kept : life.Kept taskId)
    (sound : Sound taskId ⟨life, event, after⟩)
    (moved : TaskLife.step taskId advancedMode event life = some after) : after.Kept taskId := by
  cases steps_of_step moved with
  | append producer row now writes isRow =>
      obtain ⟨recorded, some⟩ := @Kept.append taskId advancedMode life now kept producer row
        writes isRow
      exact .settled rfl recorded fun _ _ _ => some
  | crash => exact kept.crash sound
  | rejectSettled => exact kept
  | reject now reason idle named unsettled =>
      have paid : life.owed taskId = false := by
        by_contra owes
        obtain ⟨⟨row, isRow, unfinished⟩, _⟩ := owed_iff.mp (Bool.not_eq_false _ |>.mp owes)
        rw [incompleteCleanup, unsettled row isRow] at unfinished
        cases unfinished
      obtain ⟨recorded, ended⟩ := kept.recorded idle paid
      refine .settled idle (recorded.append_of_skipped ?_) ended
      rw [LedgerRecord.isReject, rejectRecord, Option.any_some, decide_eq_true named,
        Bool.not_true, Bool.and_false]
  | other record idle elsewhere =>
      have skipped : (record.id = taskId && !record.isReject) = false := by
        rw [decide_eq_false elsewhere, Bool.false_and]
      rcases kept.of_idle idle with ⟨recorded, ended⟩ | ⟨row, isRow, unfinished, unseen, only⟩
      · exact .settled idle (recorded.append_of_skipped skipped) ended
      · refine .owed row idle isRow unfinished ?_ only
        rw [Store.Ledger.hasTaskId, List.any_append, List.any_cons, List.any_nil,
          decide_eq_false elsewhere, Bool.or_false, Bool.or_false]
        exact unseen
  | submit row registered idle active =>
      apply kept.of_row idle sound
      intro terminal
      cases active.symm.trans terminal
  | work change row idle isRow active stays =>
      apply kept.of_row idle (not_owed_of_active isRow active)
      intro terminal
      cases stays.symm.trans terminal
  | resetForRerun row idle isRow =>
      exact kept.of_row idle sound _ fun terminal => ⟨row, isRow, terminal⟩
  | revive status row idle isRow active =>
      apply kept.of_row idle sound
      intro terminal
      cases active.symm.trans terminal
  | terminate facts cleanup status now row idle isRow active =>
      obtain ⟨recorded, _⟩ := kept.recorded idle (not_owed_of_active isRow active)
      exact .pipeline _ facts cleanup life.terminals rfl rfl recorded rfl
  | finalize declared prUrl note cleanup now row idle isRow safe =>
      obtain ⟨none, paid⟩ := sound safe
      obtain ⟨recorded, _⟩ := kept.recorded idle paid
      have first : life.terminals = [] := by
        apply List.length_eq_zero_iff.mp
        rw [← recorded.length_eq, ← ledgerAttemptCount_eq, none]
      rw [first] at recorded
      refine .operator _ row prUrl note rfl rfl recorded ?_
      rw [conclude, first]
      rfl
  | blocked declared prUrl note cleanup now row idle isRow dirty =>
      rcases kept.of_idle idle with ⟨recorded, ended⟩ | ⟨other, isOther, unfinished, unseen, only⟩
      · refine .settled idle recorded fun found isFound terminal => ?_
        cases isFound
        exact ended row isRow terminal
      · cases isRow.symm.trans isOther
        exact .owed _ idle rfl (incompleteCleanup_cleanedRow unfinished dirty) unseen only
  | park reason now row idle isRow active =>
      obtain ⟨recorded, _⟩ := kept.recorded idle (not_owed_of_active isRow active)
      have unseen : life.ledger.hasTaskId taskId = false := sound
      have first := recorded.nil_of_unseen unseen
      refine .ambiguous _ rfl rfl rfl unseen ?_
      rw [conclude, first]
      rfl
  | resumeCleanup outcome now row idle isRow unfinished =>
      have terminal := (Bool.and_eq_true_iff.mp (Bool.and_eq_true_iff.mp unfinished).1).1
      rcases kept.of_idle idle with ⟨recorded, ended⟩ | ⟨other, isOther, _, unseen, only⟩
      · have some := ended row isRow terminal
        exact .retryOnly row outcome rfl (recorded.seen some) recorded some
      · cases isRow.symm.trans isOther
        exact .retry _ row outcome rfl rfl rfl unseen only

end TaskLife

/-- **The numbering.** In a life of sound steps, whenever no producer is about to append and no
record is left to the resumption, the records of the task are its terminal transitions, numbered. -/
theorem terminals_recorded {taskId : String} {advancedMode : Bool}
    {transitions : List (Transition TaskLife LifeEvent)} {last : TaskLife}
    (run : Run (TaskLife.step taskId advancedMode) {} transitions last)
    (sound : ∀ transition ∈ transitions, TaskLife.Sound taskId transition)
    (idle : last.appending = none) (paid : last.owed taskId = false) :
    Recorded taskId last.ledger last.terminals := by
  have initial : TaskLife.Kept taskId {} :=
    .settled rfl (recorded_of_unseen rfl) fun _ absent => nomatch absent
  have kept := (run.invariant initial
    (fun _ moved allowed kept => TaskLife.Kept.step kept allowed moved) sound).2
  exact (kept.recorded idle paid).1

/-! ## Two lives -/

/-- A task that is registered. -/
def registeredRow : TaskRow where
  title := "Task"
  status := .validated

/-- A run ends with a tree that cannot be restored and crashes before its record, the resumption
appends it, and a rerun is done. -/
def crashedAndRerun : List LifeEvent :=
  [.submit registeredRow, .work fun row => { row with branch := some "task/a" },
    .terminate { title := "Task", branch := "task/a" } ⟨false, "main", some "dirty"⟩ .failed "t1",
    .crash, .resumeCleanup ⟨false, "main", some "dirty"⟩ "t2", .append "t2", .resetForRerun,
    .submit registeredRow, .terminate { title := "Task" } ⟨true, "main", none⟩ .done "t3",
    .append "t3"]

theorem crashed_and_rerun_recorded :
    ∃ transitions last, Run (TaskLife.step "a" false) {} transitions last ∧
      last.terminals = [.failed, .done] ∧ Recorded "a" last.ledger last.terminals := by
  have replays : replay (TaskLife.step "a" false) {} crashedAndRerun = some (_, _) := rfl
  have run := run_of_replay replays
  refine ⟨_, _, run, rfl, ?_⟩
  apply terminals_recorded run
  · refine List.forall_mem_cons.mpr ⟨rfl, ?_⟩
    refine List.forall_mem_cons.mpr ⟨trivial, ?_⟩
    refine List.forall_mem_cons.mpr ⟨trivial, ?_⟩
    refine List.forall_mem_cons.mpr ⟨fun _ _ => .inl rfl, ?_⟩
    refine List.forall_mem_cons.mpr ⟨trivial, ?_⟩
    refine List.forall_mem_cons.mpr ⟨trivial, ?_⟩
    refine List.forall_mem_cons.mpr ⟨rfl, ?_⟩
    refine List.forall_mem_cons.mpr ⟨rfl, ?_⟩
    refine List.forall_mem_cons.mpr ⟨trivial, ?_⟩
    refine List.forall_mem_cons.mpr ⟨trivial, ?_⟩
    exact List.forall_mem_nil _
  · rfl
  · rfl

/-- A task is parked, and the operator finalizes it: both records have the number one. -/
theorem finalized_unnumbered :
    ∃ transitions last, Run (TaskLife.step "a" false) {} transitions last ∧
      last.appending = none ∧ last.owed "a" = false ∧
      ¬ Recorded "a" last.ledger last.terminals := by
  have replays : replay (TaskLife.step "a" false) {} [.submit registeredRow,
      .terminate { title := "Task" } ⟨true, "main", none⟩ .manualActionRequired "t1",
      .append "t1", .finalize .done none none ⟨true, "main", none⟩ "t2", .append "t2"] =
    some (_, _) := rfl
  refine ⟨_, _, run_of_replay replays, rfl, rfl, fun recorded => ?_⟩
  have second := (recorded.numbers 1 _ rfl).1
  cases second

end Orchestrator.Recovery
