import Orchestrator.Foundation.Readings
import Orchestrator.Usage.Accounting

/-! # The usage of one session

A session whose counters are cumulative, continued by the invocations of one unit.
What is recorded for it adds up to the last counters it reported exactly when
every report is charged against the report before it.
-/

namespace Orchestrator.Usage

open Orchestrator.Foundation
open Orchestrator.Flow (ProviderId)

/-- The values of a field that the attempts report, in order. -/
def reportedBy (field : DeltaField) (attempts : List ProviderAttempt) : List Int :=
  attempts.filterMap fun attempt =>
    (attempt.result.bind AgentRunResult.normalizedUsage).bind fun usage => usage.count field

/-- The values of a field that a history reports, in order. -/
def reported (field : DeltaField) (invocations : List Invocation) : List Int :=
  invocations.flatMap fun invocation => reportedBy field invocation.outcome.attempts

/-- The last value of a field that a history reports. -/
def lastReported (field : DeltaField) (invocations : List Invocation) : Int :=
  (reported field invocations).getLast?.getD 0

/-- The usage of the last result that a history returned for a session. -/
def Invocation.carries (invocation : Invocation) (id : String)
    (carried : Option NormalizedUsage) : Option NormalizedUsage :=
  match invocation.outcome.result with
  | none => carried
  | some result =>
      if result.sessionId = some id ∧ invocation.exchangeUnchanged then result.normalizedUsage
      else carried

/-- The reading of an attempt: a result that names the session deducts the usage carried. -/
def ProviderAttempt.reading (attempt : ProviderAttempt) (id : String) (field : DeltaField)
    (carried : Option NormalizedUsage) : Option Reading :=
  attempt.result.bind fun result =>
    (result.normalizedUsage.bind fun usage => usage.count field).map fun value => {
      value
      deducted :=
        if result.sessionId = some id then
          (carried.bind fun usage => usage.count field).getD 0
        else 0 }

/-- The readings of a history, each deducting the usage of the last result returned before its
stage. -/
def readings (id : String) (field : DeltaField) (carried : Option NormalizedUsage) :
    List Invocation → List Reading
  | [] => []
  | invocation :: rest =>
      invocation.outcome.attempts.filterMap (fun attempt => attempt.reading id field carried) ++
        readings id field (invocation.carries id carried) rest

/-- An invocation of a session of a provider: its attempts name no other session and report
cumulative usage, and a stage that has a result has it from its last attempt. -/
structure Continues (id : String) (provider : ProviderId) (invocation : Invocation) : Prop where
  named : ∀ attempt ∈ invocation.outcome.attempts, ∀ result ∈ attempt.result,
    result.sessionId = none ∨ result.sessionId = some id
  cumulative : ∀ attempt ∈ invocation.outcome.attempts, ∀ result ∈ attempt.result,
    ∀ usage ∈ result.normalizedUsage, usage.scope = .sessionCumulative
  settled : ∀ result ∈ invocation.outcome.result,
    (invocation.outcome.attempts.getLast?.bind ProviderAttempt.result) = some result ∧
      invocation.outcome.providerUsed = some provider

variable {id : String} {provider : ProviderId} {carried : Option NormalizedUsage}

/-! ## Deltas -/

theorem countDelta_of_le {current baseline : Option Int}
    (le : ∀ value ∈ current, ∀ base ∈ baseline, base ≤ value) :
    countDelta current baseline = some (current.map fun value => value - baseline.getD 0) := by
  cases current with
  | none => rfl
  | some value =>
      cases baseline with
      | none => simp only [countDelta, Option.map_some, Option.getD_none, sub_zero]
      | some base =>
          have order : base ≤ value := le value rfl base rfl
          simp only [countDelta, Option.map_some, Option.getD_some]
          rw [if_neg (by omega)]

/-- Usage that has grown in every field has a delta. -/
theorem subtract_of_le {current baseline : NormalizedUsage}
    (le : ∀ field, ∀ value ∈ current.count field, ∀ base ∈ baseline.count field, base ≤ value) :
    ∃ delta, subtract current baseline = some delta ∧ ∀ field, delta.count field =
      (current.count field).map fun value => value - (baseline.count field).getD 0 := by
  have input := countDelta_of_le (le .inputTotal)
  have read := countDelta_of_le (le .cacheRead)
  have write := countDelta_of_le (le .cacheWrite)
  have uncached := countDelta_of_le (le .uncachedInput)
  have output := countDelta_of_le (le .outputTotal)
  have reasoning := countDelta_of_le (le .reasoningOutput)
  simp only [NormalizedUsage.count] at input read write uncached output reasoning
  simp only [subtract, input, read, write, uncached, output, reasoning, Option.bind_eq_bind,
    Option.bind_some, Option.pure_def]
  refine ⟨_, rfl, ?_⟩
  intro field
  cases field <;> rfl

/-- The point an invocation is charged at: the session with the usage carried, or another session
while none is. -/
def ResumePoint.Charges (point : ResumePoint) (id : String) (carried : Option NormalizedUsage) :
    Prop :=
  (point.baselineSessionId = some id ∧ point.baseline = carried) ∨
    carried = none ∧ point.baselineSessionId ≠ some id ∧
      (point.baselineSessionId = none → point.baseline = none)

/-- What one attempt is charged is its reading. -/
theorem usageFields_count {point : ResumePoint} (charges : point.Charges id carried)
    {result : AgentRunResult} (named : result.sessionId = none ∨ result.sessionId = some id)
    {usage : NormalizedUsage} (reports : result.normalizedUsage = some usage)
    (cumulative : usage.scope = .sessionCumulative)
    (le : ∀ field, ∀ value ∈ usage.count field,
      ∀ base ∈ carried.bind fun usage => usage.count field, base ≤ value) (field : DeltaField) :
    ((usageFields (some result) point.baseline point.baselineSessionId).delta.bind
        fun delta => delta.count field) =
      (usage.count field).map fun value => value -
        if result.sessionId = some id then
          (carried.bind fun usage => usage.count field).getD 0
        else 0 := by
  have plain : (usage.count field).map (fun value => value - 0) = usage.count field := by
    cases usage.count field <;> simp
  simp only [usageFields, reports, computeUsageDelta, cumulative, ne_eq, not_true_eq_false,
    ↓reduceIte]
  rcases charges with ⟨same, rfl⟩ | ⟨rfl, other, alone⟩
  · cases base : point.baseline with
    | none =>
        simp only [Option.bind_none, Option.getD_none, ite_self, plain]
        rfl
    | some baseline =>
        rcases named with unnamed | own
        · simp only [unnamed, same, reduceCtorEq, not_false_eq_true, ↓reduceIte, plain]
          rfl
        · simp only [base, Option.bind_some] at le
          obtain ⟨delta, subtracted, counts⟩ := subtract_of_le le
          simp only [own, same, not_true_eq_false, ↓reduceIte, subtracted, Option.bind_some,
            counts]
  · have nothing : (if result.sessionId = some id then
        ((none : Option NormalizedUsage).bind fun usage => usage.count field).getD 0 else 0) = 0 :=
      ite_self 0
    rw [nothing, plain]
    cases baseline : point.baseline with
    | none => rfl
    | some old =>
        have differ : result.sessionId ≠ point.baselineSessionId := by
          intro equal
          rcases named with unnamed | own
          · rw [unnamed] at equal
            rw [alone equal.symm] at baseline
            cases baseline
          · exact other (equal.symm.trans own)
        simp only [differ, not_false_eq_true, ↓reduceIte]
        rfl

/-! ## One invocation -/

@[simp] theorem recordedTotal_append (field : DeltaField) (rows more : List UsageFields) :
    recordedTotal field (rows ++ more) = recordedTotal field rows + recordedTotal field more := by
  simp only [recordedTotal, List.map_append, List.sum_append]

/-- The readings of attempts carry the values they report. -/
theorem reading_values (id : String) (field : DeltaField) (carried : Option NormalizedUsage)
    (attempts : List ProviderAttempt) :
    (attempts.filterMap fun attempt => attempt.reading id field carried).map Reading.value =
      reportedBy field attempts := by
  rw [List.map_filterMap, reportedBy]
  congr 1
  funext attempt
  cases ran : attempt.result with
  | none => simp only [ProviderAttempt.reading, ran, Option.bind_none, Option.map_none]
  | some result =>
      simp only [ProviderAttempt.reading, ran, Option.bind_some, Option.map_map]
      exact Option.map_id'

/-- No reading deducts more than the usage carried. -/
theorem reading_deducted_le {field : DeltaField} {start : Int} (nonneg : 0 ≤ start)
    (le : ∀ base ∈ carried.bind fun usage => usage.count field, base ≤ start)
    {attempts : List ProviderAttempt} :
    ∀ reading ∈ attempts.filterMap (fun attempt => attempt.reading id field carried),
      reading.deducted ≤ start := by
  intro reading found
  obtain ⟨attempt, -, read⟩ := List.mem_filterMap.mp found
  obtain ⟨result, -, read⟩ := Option.bind_eq_some_iff.mp read
  obtain ⟨value, -, rfl⟩ := Option.map_eq_some_iff.mp read
  dsimp only
  split
  · cases base : carried.bind fun usage => usage.count field with
    | none => exact nonneg
    | some base' => exact le base' base
  · exact nonneg

/-- One row charges the reading of its attempt. -/
theorem usageFields_total {point : ResumePoint} (charges : point.Charges id carried)
    {attempt : ProviderAttempt}
    (named : ∀ result ∈ attempt.result, result.sessionId = none ∨ result.sessionId = some id)
    (cumulative : ∀ result ∈ attempt.result, ∀ usage ∈ result.normalizedUsage,
      usage.scope = .sessionCumulative)
    (le : ∀ field, ∀ value ∈ reportedBy field [attempt],
      ∀ base ∈ carried.bind fun usage => usage.count field, base ≤ value) (field : DeltaField) :
    recordedTotal field [usageFields attempt.result point.baseline point.baselineSessionId] =
      charged (attempt.reading id field carried).toList := by
  obtain ⟨result⟩ := attempt
  cases result with
  | none => rfl
  | some result =>
      cases reports : result.normalizedUsage with
      | none => simp [recordedTotal, usageFields, ProviderAttempt.reading, reports]
      | some usage =>
          have grown : ∀ field, ∀ value ∈ usage.count field,
              ∀ base ∈ carried.bind fun usage => usage.count field, base ≤ value := by
            intro field value found
            refine le field value (List.mem_filterMap.mpr ⟨_, List.mem_cons_self, ?_⟩)
            simpa only [Option.bind_some, reports, Option.mem_def] using found
          have count := usageFields_count charges (named result rfl) reports
            (cumulative result rfl usage reports) grown field
          simp only [recordedTotal, List.map_cons, List.map_nil, count, ProviderAttempt.reading,
            Option.bind_some, reports]
          cases usage.count field <;> simp

/-- The rows of one stage charge its readings. -/
theorem recordProviderAttempts_total {point : ResumePoint} (charges : point.Charges id carried)
    {attempts : List ProviderAttempt}
    (named : ∀ attempt ∈ attempts, ∀ result ∈ attempt.result,
      result.sessionId = none ∨ result.sessionId = some id)
    (cumulative : ∀ attempt ∈ attempts, ∀ result ∈ attempt.result,
      ∀ usage ∈ result.normalizedUsage, usage.scope = .sessionCumulative)
    (le : ∀ field, ∀ value ∈ reportedBy field attempts,
      ∀ base ∈ carried.bind fun usage => usage.count field, base ≤ value) (field : DeltaField) :
    recordedTotal field (attempts.map fun attempt =>
        usageFields attempt.result point.baseline point.baselineSessionId) =
      charged (attempts.filterMap fun attempt => attempt.reading id field carried) := by
  induction attempts with
  | nil => rfl
  | cons attempt attempts ih =>
      have split : ∀ field, reportedBy field (attempt :: attempts) =
          reportedBy field [attempt] ++ reportedBy field attempts :=
        fun field => List.filterMap_append (l := [attempt])
      have first := usageFields_total charges (named attempt List.mem_cons_self)
        (cumulative attempt List.mem_cons_self)
        (fun field value found => le field value
          (split field ▸ List.mem_append_left _ found)) field
      have rest := ih (fun other among => named other (List.mem_cons_of_mem _ among))
        (fun other among => cumulative other (List.mem_cons_of_mem _ among))
        (fun field value found => le field value
          (split field ▸ List.mem_append_right _ found))
      have readings :
          (attempt :: attempts).filterMap (fun attempt => attempt.reading id field carried) =
          (attempt.reading id field carried).toList ++
            attempts.filterMap fun attempt => attempt.reading id field carried := by
        cases read : attempt.reading id field carried with
        | none => exact List.filterMap_cons_none read
        | some reading => exact List.filterMap_cons_some read
      rw [readings, charged_append, ← first, ← rest, ← recordedTotal_append]
      rfl

/-! ## The lineage -/

/-- The lineage of a session: none of its own while no usage is carried, else the row of its last
returned result. -/
def Keeps (id : String) (provider : ProviderId) (carried : Option NormalizedUsage)
    (lineage : Option EditingLineageRow) : Prop :=
  lineage = some ⟨provider, id, carried⟩ ∨
    carried = none ∧ ∀ row ∈ lineage, row.rawSessionId ≠ id

/-- The books of a session between two invocations. -/
structure Books.Keep (books : Books) (id : String) (provider : ProviderId)
    (carried : Option NormalizedUsage) : Prop where
  lineage : Keeps id provider carried books.lineage
  previous : ∀ outcome ∈ books.previous, ∀ result ∈ outcome.result, result.session = none ∨
    result.session = some id ∧ result.normalizedUsage = carried

theorem AgentRunResult.session_of_named {result : AgentRunResult} (real : id ≠ "")
    (own : result.sessionId = some id) : result.session = some id := by
  rw [session, own, Option.filter_some, if_pos (decide_eq_true real)]

theorem AgentRunResult.session_of_unnamed {result : AgentRunResult}
    (unnamed : result.sessionId = none) : result.session = none := by
  rw [session, unnamed, Option.filter_none]

/-- An invocation is charged at the usage carried. -/
theorem Books.Keep.charges {books : Books} (keep : books.Keep id provider carried)
    (invocation : Invocation) : (books.resumePoint provider invocation).Charges id carried := by
  have durable : ∀ baseline,
      (resolveResume books.lineage provider none baseline).Charges id carried := by
    intro baseline
    rcases keep.lineage with own | ⟨nothing, other⟩
    · simp only [resolveResume, own, Option.filter_some, decide_true, ↓reduceIte]
      exact .inl ⟨rfl, rfl⟩
    · simp only [resolveResume]
      cases found : books.lineage.filter fun row => row.provider = provider with
      | none =>
          refine .inr ⟨nothing, ?_, fun _ => rfl⟩
          intro absent
          cases absent
      | some row =>
          refine .inr ⟨nothing, ?_, ?_⟩
          · intro same
            exact other row (Option.eq_some_of_filter_eq_some found) (Option.some.inj same)
          · intro absent
            cases absent
  rw [Books.resumePoint]
  split
  · cases explicit : books.previous.bind fun outcome => sameProviderSessionId outcome provider with
    | none => exact durable _
    | some session =>
        obtain ⟨outcome, isPrevious, same⟩ := Option.bind_eq_some_iff.mp explicit
        rw [sameProviderSessionId] at same
        split at same
        · obtain ⟨result, returned, named⟩ := Option.bind_eq_some_iff.mp same
          rcases keep.previous outcome isPrevious result returned with unnamed | ⟨own, usage⟩
          · cases unnamed.symm.trans named
          · cases own.symm.trans named
            refine .inl ⟨rfl, ?_⟩
            simp only [resolveResume, isPrevious, Option.bind_some, returned, usage]
        · cases same
  · exact durable none

/-- An invocation keeps the books of its session. -/
theorem Books.Keep.invoke {books : Books} (keep : books.Keep id provider carried) (real : id ≠ "")
    {invocation : Invocation} (continues : Continues id provider invocation) :
    (books.invoke provider invocation).Keep id provider (invocation.carries id carried) := by
  have forgotten : ∀ {rows}, Books.Keep ⟨books.lineage, none, rows⟩ id provider carried := by
    intro rows
    refine ⟨keep.lineage, ?_⟩
    intro outcome absent
    cases absent
  cases returned : invocation.outcome.result with
  | none =>
      simp only [Books.invoke, Invocation.carries, returned, Option.isSome_none, Bool.false_eq_true,
        false_and, ↓reduceIte]
      exact forgotten
  | some result =>
      obtain ⟨isLast, used⟩ := continues.settled result returned
      obtain ⟨attempt, among, own⟩ := Option.bind_eq_some_iff.mp isLast
      have member := List.mem_of_getLast? among
      by_cases unchanged : invocation.exchangeUnchanged = true
      · simp only [Books.invoke, Invocation.carries, returned, Option.isSome_some, unchanged,
          and_self, ↓reduceIte, and_true]
        rcases continues.named attempt member result own with unnamed | named
        · have session := AgentRunResult.session_of_unnamed unnamed
          simp only [unnamed, reduceCtorEq, ↓reduceIte]
          refine ⟨?_, ?_⟩
          · simp only [persistSession, returned, Option.bind_some, session, Option.map_none]
            exact keep.lineage
          · intro outcome isPrevious other found
            cases isPrevious
            cases returned.symm.trans found
            exact .inl session
        · have session := AgentRunResult.session_of_named real named
          simp only [named, ↓reduceIte]
          refine ⟨.inl ?_, ?_⟩
          · have snapshot : snapshotForLineage result.normalizedUsage = result.normalizedUsage := by
              cases usage : result.normalizedUsage with
              | none => rfl
              | some usage' =>
                  have cumulative := continues.cumulative attempt member result own usage' usage
                  rw [snapshotForLineage, Option.filter_some, if_pos (decide_eq_true cumulative)]
            simp only [persistSession, returned, Option.bind_some, session, Option.map_some, used,
              snapshot]
          · intro outcome isPrevious other found
            cases isPrevious
            cases returned.symm.trans found
            exact .inr ⟨session, rfl⟩
      · simp only [Books.invoke, Invocation.carries, returned, unchanged, Bool.false_eq_true,
          and_false, ↓reduceIte]
        exact forgotten

/-! ## The history of a session -/

theorem reported_cons (field : DeltaField) (invocation : Invocation)
    (invocations : List Invocation) : reported field (invocation :: invocations) =
      reportedBy field invocation.outcome.attempts ++ reported field invocations := by
  rw [reported, List.flatMap_cons]
  rfl

/-- The readings of a history carry the values it reports. -/
theorem readings_values (id : String) (field : DeltaField) (carried : Option NormalizedUsage)
    (invocations : List Invocation) :
    (readings id field carried invocations).map Reading.value = reported field invocations := by
  induction invocations generalizing carried with
  | nil => rfl
  | cons invocation invocations ih =>
      rw [readings, List.map_append, reading_values, ih, reported_cons]

/-- Values that grow end no lower than they start. -/
theorem latest_le {start : Int} {values : List Int} (grows : (start :: values).IsChain (· ≤ ·)) :
    start ≤ values.getLast?.getD start := by
  cases last : values.getLast? with
  | none => exact le_rfl
  | some value => exact le_of_grows grows value (List.mem_of_getLast? last)

/-- The usage carried after an invocation is no more than the last values reported. -/
theorem carries_le {invocation : Invocation} (continues : Continues id provider invocation)
    {field : DeltaField} {start : Int}
    (grows : (start :: reportedBy field invocation.outcome.attempts).IsChain (· ≤ ·))
    (le : ∀ base ∈ carried.bind fun usage => usage.count field, base ≤ start) :
    ∀ base ∈ (invocation.carries id carried).bind fun usage => usage.count field,
      base ≤ (reportedBy field invocation.outcome.attempts).getLast?.getD start := by
  have later := latest_le grows
  intro base found
  rw [Invocation.carries] at found
  split at found
  · exact (le base found).trans later
  · rename_i result returned
    split at found
    · obtain ⟨isLast, -⟩ := continues.settled result returned
      obtain ⟨attempt, among, own⟩ := Option.bind_eq_some_iff.mp isLast
      obtain ⟨before, attempts⟩ := List.getLast?_eq_some_iff.mp among
      have reports : reportedBy field [attempt] = [base] := by
        refine List.filterMap_cons_some ?_
        simpa only [own, Option.bind_some, Option.mem_def] using found
      have values : reportedBy field invocation.outcome.attempts =
          reportedBy field before ++ [base] := by
        rw [attempts, ← reports]
        exact List.filterMap_append
      rw [values, List.getLast?_concat]
      exact le_rfl
    · exact (le base found).trans later

/-- A history charges its readings, and none deducts more than the one before. -/
theorem run_total (real : id ≠ "") {invocations : List Invocation}
    (continues : ∀ invocation ∈ invocations, Continues id provider invocation) {books : Books}
    (keep : books.Keep id provider carried) {latest : DeltaField → Int}
    (nonneg : ∀ field, 0 ≤ latest field)
    (grows : ∀ field, (latest field :: reported field invocations).IsChain (· ≤ ·))
    (le : ∀ field, ∀ base ∈ carried.bind fun usage => usage.count field, base ≤ latest field)
    (field : DeltaField) :
    recordedTotal field (books.run provider invocations).rows =
        recordedTotal field books.rows + charged (readings id field carried invocations) ∧
      Deducts (latest field) (readings id field carried invocations) := by
  induction invocations generalizing books carried latest with
  | nil => exact ⟨(Int.add_zero _).symm, List.isChain_singleton _⟩
  | cons invocation invocations ih =>
      have present := continues invocation List.mem_cons_self
      have growing := fun field => grows_append
        (reported_cons field invocation invocations ▸ grows field)
      have rows := recordProviderAttempts_total (keep.charges invocation) present.named
        present.cumulative (fun field value found base carries =>
          (le field base carries).trans (le_of_grows (growing field).1 value found)) field
      have stage := reading_values id field carried invocation.outcome.attempts
      have deducts : Deducts (latest field) (invocation.outcome.attempts.filterMap fun attempt =>
          attempt.reading id field carried) :=
        deducts_of_le (stage ▸ (growing field).1) (reading_deducted_le (nonneg field) (le field))
      obtain ⟨total, later⟩ := ih
        (fun later among => continues later (List.mem_cons_of_mem _ among))
        (keep.invoke real present) (fun field => (nonneg field).trans (latest_le (growing field).1))
        (fun field => (growing field).2)
        (fun field => carries_le present (growing field).1 (le field))
      rw [readings, charged_append]
      refine ⟨?_, deducts.append ?_⟩
      · have invoked : (books.invoke provider invocation).rows = books.rows ++
            recordProviderAttempts invocation.outcome
              (books.resumePoint provider invocation).baseline
              (books.resumePoint provider invocation).baselineSessionId := by
          rw [Books.invoke]
          split <;> rfl
        rw [invoked, recordedTotal_append, recordProviderAttempts, rows] at total
        exact total.trans (Int.add_assoc _ _ _)
      · rwa [lastValue_eq, stage]

/-- For a session that is continued from its start, what is recorded of a field is the last value
reported exactly when every report deducts the report before it: when each time the attempt names
the session and the last result returned before its stage is the last report, or nothing was
reported before. -/
theorem usage_accounted_iff (id : String) (real : id ≠ "") (provider : ProviderId)
    (lineage : Option EditingLineageRow) (fresh : ∀ row ∈ lineage, row.rawSessionId ≠ id)
    (invocations : List Invocation)
    (continues : ∀ invocation ∈ invocations, Continues id provider invocation)
    (grows : ∀ field, (0 :: reported field invocations).IsChain (· ≤ ·)) (field : DeltaField) :
    recordedTotal field ((⟨lineage, none, []⟩ : Books).run provider invocations).rows =
        lastReported field invocations ↔
      DeductsAll 0 (readings id field none invocations) := by
  have keep : Books.Keep ⟨lineage, none, []⟩ id provider none := by
    refine ⟨.inr ⟨rfl, fresh⟩, ?_⟩
    intro outcome absent
    cases absent
  obtain ⟨total, deducts⟩ := run_total real continues keep (fun _ => le_rfl) grows
    (fun _ base found => by cases found) field
  have last : lastReported field invocations =
      lastValue 0 (readings id field none invocations) - 0 := by
    rw [lastValue_eq, readings_values, lastReported, Int.sub_zero]
  rw [← charged_eq_iff deducts, total, last]
  have nothing : recordedTotal field (⟨lineage, none, []⟩ : Books).rows = 0 := rfl
  rw [nothing, Int.zero_add]

/-- A stage of one attempt, which returns with cumulative output usage or with none. -/
def sessionStage (id : String) (output : Option Int) : Invocation :=
  let result : AgentRunResult :=
    ⟨output.map fun tokens => { scope := .sessionCumulative, outputTotal := some tokens }, some id⟩
  { outcome := ⟨[⟨some result⟩], some result, some .codex⟩ }

theorem sessionStage_continues (id : String) (output : Option Int) :
    Continues id .codex (sessionStage id output) := by
  refine ⟨?_, ?_, ?_⟩
  · intro attempt among result own
    cases List.mem_singleton.mp among
    cases own
    exact .inr rfl
  · intro attempt among result own usage reports
    cases List.mem_singleton.mp among
    cases own
    cases output with
    | none => cases reports
    | some tokens => cases reports; rfl
  · intro result returned
    exact ⟨returned, rfl⟩

theorem usage_accounted_two_stages :
    recordedTotal .outputTotal ((⟨none, none, []⟩ : Books).run .codex
        [sessionStage "thread" (some 10), sessionStage "thread" (some 15)]).rows =
      lastReported .outputTotal
        [sessionStage "thread" (some 10), sessionStage "thread" (some 15)] := by
  refine (usage_accounted_iff "thread" (by decide) .codex none ?_ _ ?_ ?_ .outputTotal).mpr ?_
  · intro row absent
    cases absent
  · intro invocation among
    rcases List.mem_pair.mp among with rfl | rfl <;> exact sessionStage_continues _ _
  · intro field
    cases field <;> decide
  · refine deductsAll_cons.mpr ⟨rfl, deductsAll_cons.mpr ⟨rfl, ?_⟩⟩
    exact List.isChain_singleton _

/-- A result without usage clears what is carried, and the next report is charged in full; so is
the second report of one stage. -/
theorem usage_double_counted :
    (recordedTotal .outputTotal ((⟨none, none, []⟩ : Books).run .codex
        [sessionStage "thread" (some 10), sessionStage "thread" none,
          sessionStage "thread" (some 15)]).rows = 25 ∧
      lastReported .outputTotal [sessionStage "thread" (some 10), sessionStage "thread" none,
        sessionStage "thread" (some 15)] = 15) ∧
    recordedTotal .outputTotal ((⟨none, none, []⟩ : Books).run .codex
        [⟨false, ⟨[⟨some ⟨some { scope := .sessionCumulative, outputTotal := some 10 }, none⟩⟩,
            ⟨some ⟨some { scope := .sessionCumulative, outputTotal := some 15 }, some "thread"⟩⟩],
          some ⟨some { scope := .sessionCumulative, outputTotal := some 15 }, some "thread"⟩,
          some .codex⟩, true⟩]).rows = 25 := by
  refine ⟨⟨?_, ?_⟩, ?_⟩ <;> rfl

end Orchestrator.Usage
