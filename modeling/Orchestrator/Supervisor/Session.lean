import Mathlib.Data.List.Basic
import Orchestrator.Usage.Accounting

/-! # The session of the supervisor

The supervisor continues its own session: the one in memory, else the stored one when it is of the
provider that the route runs first. The session of a turn is kept whichever provider answered it.
-/

namespace Orchestrator.Supervisor

open Orchestrator.Flow (ProviderId)
open Orchestrator.Usage (EditingLineageRow NormalizedUsage ResumePoint StageOutcome UsageFields
  persistSession recordProviderAttempts snapshotForLineage)

/-! ## The supervisor -/

/-- What a stage of the router returned: a result names the provider that answered. -/
structure RoutedOutcome extends StageOutcome where
  answered : result.isSome = true → providerUsed.isSome = true

/-- The supervisor of a process, and its lineage row in the store. -/
structure SupervisorState where
  /-- The primary provider of the route that the process resolves. -/
  primary : ProviderId
  ownSessionId : Option String
  lineage : Option EditingLineageRow

namespace SupervisorState

/-- `_resume_context`: the session to resume and its usage baseline, with the session in memory
afterwards. -/
def resumeContext (supervisor : SupervisorState) : ResumePoint × Option String :=
  match supervisor.ownSessionId with
  | some id =>
      (⟨some id, supervisor.lineage.bind EditingLineageRow.usageSnapshot,
        supervisor.lineage.map EditingLineageRow.rawSessionId⟩, some id)
  | none =>
      match supervisor.lineage.filter fun row => row.provider = supervisor.primary with
      | none => (⟨none, none, none⟩, none)
      | some row =>
          (⟨some row.rawSessionId, row.usageSnapshot, some row.rawSessionId⟩,
            some row.rawSessionId)

/-- The point a turn resumes from: a fresh turn from none. -/
def resumePoint (supervisor : SupervisorState) (resumes : Bool) : ResumePoint × Option String :=
  if resumes then supervisor.resumeContext else (⟨none, none, none⟩, supervisor.ownSessionId)

/-- `_run_result`, as far as the session goes; a stage that raised has no outcome. -/
def runResult (supervisor : SupervisorState) (resumes : Bool) (outcome : Option RoutedOutcome) :
    SupervisorState × List UsageFields :=
  let (point, own) := supervisor.resumePoint resumes
  match outcome with
  | none => ({ supervisor with ownSessionId := own }, [])
  | some outcome =>
      ({ supervisor with
          ownSessionId := (outcome.result.bind fun result => result.session) <|> own
          lineage := persistSession supervisor.lineage outcome.toStageOutcome },
        recordProviderAttempts outcome.toStageOutcome point.baseline point.baselineSessionId)

end SupervisorState

/-! ## Histories -/

/-- The session that a turn was answered with. -/
structure Answer where
  provider : ProviderId
  sessionId : String
  usage : Option NormalizedUsage

/-- The session a stage was answered with, if it names one. -/
def RoutedOutcome.answer (outcome : RoutedOutcome) : Option Answer :=
  match outcome.result, outcome.providerUsed with
  | some result, some provider =>
      result.session.map fun id => ⟨provider, id, result.normalizedUsage⟩
  | _, _ => none

/-- What happens to the supervisor of a task: a turn that resumes or is fresh, or a new process,
which may resolve another route and may have cleared the lineage before. -/
inductive SupervisorEvent where
  | turn (resumes : Bool) (outcome : Option RoutedOutcome)
  | restart (primary : ProviderId) (cleared : Bool)

/-- A turn as it was requested, with the answers before it, in all and of its process. -/
structure TurnRequest where
  primary : ProviderId
  resumes : Bool
  point : ResumePoint
  answers : List Answer
  ofProcess : List Answer

/-- The supervisor with what was answered and requested so far. -/
structure Chronicle where
  supervisor : SupervisorState
  answers : List Answer
  ofProcess : List Answer
  requests : List TurnRequest
  rows : List UsageFields

namespace Chronicle

def start (primary : ProviderId) : Chronicle := ⟨⟨primary, none, none⟩, [], [], [], []⟩

/-- The request that a turn makes. -/
def request (chronicle : Chronicle) (resumes : Bool) : TurnRequest where
  primary := chronicle.supervisor.primary
  resumes := resumes
  point := (chronicle.supervisor.resumePoint resumes).1
  answers := chronicle.answers
  ofProcess := chronicle.ofProcess

def step (chronicle : Chronicle) : SupervisorEvent → Chronicle
  | .turn resumes outcome =>
      let (supervisor, rows) := chronicle.supervisor.runResult resumes outcome
      let answer := (outcome.bind RoutedOutcome.answer).toList
      { supervisor := supervisor
        answers := chronicle.answers ++ answer
        ofProcess := chronicle.ofProcess ++ answer
        requests := chronicle.requests ++ [chronicle.request resumes]
        rows := chronicle.rows ++ rows }
  | .restart primary cleared =>
      { chronicle with
        supervisor := ⟨primary, none, if cleared then none else chronicle.supervisor.lineage⟩
        ofProcess := [] }

/-- The events of a task, from its first process on. -/
def run (primary : ProviderId) (events : List SupervisorEvent) : Chronicle :=
  events.foldl step (start primary)

end Chronicle

namespace TurnRequest

/-- The last answer with a session. -/
def latest (request : TurnRequest) (id : String) : Option Answer :=
  (request.answers.filter fun answer => answer.sessionId = id).getLast?

/-- The session of a request was answered by the provider that the request is run on first. -/
def OfPrimary (request : TurnRequest) : Prop :=
  ∀ id, request.point.sessionId = some id →
    ∃ answer, request.latest id = some answer ∧ answer.provider = request.primary

/-- The baseline recorded with a request is the one of its session, and so is its usage. -/
def OwnBaseline (request : TurnRequest) : Prop :=
  request.point.baselineSessionId = request.point.sessionId ∧
    request.point.baseline = request.point.sessionId.bind fun id =>
      (request.latest id).bind fun answer => snapshotForLineage answer.usage

/-- The last session that was answered in the process is of its primary, unless the turn is
fresh. -/
def Matching (request : TurnRequest) : Prop :=
  request.resumes = true → ∀ last ∈ request.ofProcess.getLast?, last.provider = request.primary

end TurnRequest

/-! ## The invariant -/

/-- The row that an answer is stored as. -/
def Answer.row (answer : Answer) : EditingLineageRow :=
  ⟨answer.provider, answer.sessionId, snapshotForLineage answer.usage⟩

/-- The stored row is the last answer, and the session in memory is the stored one; it was taken
from the store only when that row is of the primary. -/
structure Kept (chronicle : Chronicle) : Prop where
  stored : ∀ {row}, chronicle.supervisor.lineage = some row →
    ∃ last, chronicle.answers.getLast? = some last ∧ row = last.row
  own : ∀ {id}, chronicle.supervisor.ownSessionId = some id →
    ∃ row, chronicle.supervisor.lineage = some row ∧ row.rawSessionId = id ∧
      (chronicle.ofProcess = [] → row.provider = chronicle.supervisor.primary)
  process : ∀ {last}, chronicle.ofProcess.getLast? = some last →
    chronicle.answers.getLast? = some last ∧
      chronicle.supervisor.ownSessionId = some last.sessionId

theorem Kept.start (primary : ProviderId) : Kept (Chronicle.start primary) :=
  ⟨nofun, nofun, nofun⟩

variable {chronicle : Chronicle} {supervisor : SupervisorState}

/-- The stored session once a stage was answered, or not. -/
theorem persistSession_answer (lineage : Option EditingLineageRow) (outcome : RoutedOutcome) :
    persistSession lineage outcome.toStageOutcome =
      (outcome.answer.map Answer.row <|> lineage) := by
  rw [persistSession, RoutedOutcome.answer]
  cases result : outcome.result with
  | none => rfl
  | some answer =>
      cases provider : outcome.providerUsed with
      | none =>
          have used := outcome.answered (by rw [result]; rfl)
          rw [provider] at used
          cases used
      | some provider =>
          rw [Option.bind_some]
          dsimp only
          cases answer.session <;> rfl

/-- The session in memory once a stage was answered, or not. -/
theorem session_answer (outcome : RoutedOutcome) :
    (outcome.result.bind fun result => result.session) =
      outcome.answer.map Answer.sessionId := by
  rw [RoutedOutcome.answer]
  cases result : outcome.result with
  | none => rfl
  | some answer =>
      cases provider : outcome.providerUsed with
      | none =>
          have used := outcome.answered (by rw [result]; rfl)
          rw [provider] at used
          cases used
      | some provider =>
          rw [Option.bind_some]
          dsimp only
          cases answer.session <;> rfl

/-- What a turn resumes is the stored session, if anything. -/
theorem resumeContext_cases (supervisor : SupervisorState) :
    (∃ id, supervisor.ownSessionId = some id ∧ supervisor.resumeContext =
      (⟨some id, supervisor.lineage.bind EditingLineageRow.usageSnapshot,
        supervisor.lineage.map EditingLineageRow.rawSessionId⟩, some id)) ∨
    (supervisor.ownSessionId = none ∧ ∃ row, supervisor.lineage = some row ∧
      row.provider = supervisor.primary ∧ supervisor.resumeContext =
        (⟨some row.rawSessionId, row.usageSnapshot, some row.rawSessionId⟩,
          some row.rawSessionId)) ∨
    (supervisor.ownSessionId = none ∧ supervisor.resumeContext = (⟨none, none, none⟩, none)) := by
  rw [SupervisorState.resumeContext]
  cases own : supervisor.ownSessionId with
  | some id => exact .inl ⟨id, rfl, rfl⟩
  | none =>
      refine .inr ?_
      cases lineage : supervisor.lineage with
      | none => exact .inr ⟨rfl, rfl⟩
      | some row =>
          by_cases same : row.provider = supervisor.primary
          · refine .inl ⟨rfl, row, rfl, same, ?_⟩
            rw [Option.filter_some, if_pos (decide_eq_true same)]
          · refine .inr ⟨rfl, ?_⟩
            rw [Option.filter_some, if_neg (by rwa [decide_eq_true_eq])]

/-! ## Turns -/

theorem getLast?_append_toList {α : Type} (items : List α) (last : Option α) :
    (items ++ last.toList).getLast? = (last <|> items.getLast?) := by
  cases last with
  | none => rw [Option.toList_none, List.append_nil]; rfl
  | some item => rw [Option.toList_some, List.getLast?_concat]; rfl

/-- What a turn leaves in memory: the session of its answer, else the one it looked up. -/
theorem runResult_own (supervisor : SupervisorState) (resumes : Bool)
    (outcome : Option RoutedOutcome) :
    (supervisor.runResult resumes outcome).1.ownSessionId =
      ((outcome.bind RoutedOutcome.answer).map Answer.sessionId <|>
        (supervisor.resumePoint resumes).2) := by
  cases outcome with
  | none => rfl
  | some outcome =>
      rw [Option.bind_some, ← session_answer]
      rfl

theorem runResult_lineage (supervisor : SupervisorState) (resumes : Bool)
    (outcome : Option RoutedOutcome) :
    (supervisor.runResult resumes outcome).1.lineage =
      ((outcome.bind RoutedOutcome.answer).map Answer.row <|> supervisor.lineage) := by
  cases outcome with
  | none => rfl
  | some outcome => exact persistSession_answer supervisor.lineage outcome

theorem runResult_primary (supervisor : SupervisorState) (resumes : Bool)
    (outcome : Option RoutedOutcome) :
    (supervisor.runResult resumes outcome).1.primary = supervisor.primary := by
  cases outcome <;> rfl

/-- The session that a turn leaves looked up is the stored one. -/
theorem Kept.resumed (kept : Kept chronicle) {resumes : Bool} {id : String}
    (found : (chronicle.supervisor.resumePoint resumes).2 = some id) :
    ∃ row, chronicle.supervisor.lineage = some row ∧ row.rawSessionId = id ∧
      (chronicle.ofProcess = [] → row.provider = chronicle.supervisor.primary) := by
  rw [SupervisorState.resumePoint] at found
  split_ifs at found
  · rcases resumeContext_cases chronicle.supervisor with
      ⟨own, memory, point⟩ | ⟨-, row, stored, primary, point⟩ | ⟨-, point⟩
    · rw [point] at found
      cases found
      exact kept.own memory
    · rw [point] at found
      cases found
      exact ⟨row, stored, rfl, fun _ => primary⟩
    · rw [point] at found
      cases found
  · exact kept.own found

theorem Kept.step (kept : Kept chronicle) (event : SupervisorEvent) :
    Kept (chronicle.step event) := by
  cases event with
  | restart primary cleared =>
      refine ⟨fun {row} found => ?_, nofun, nofun⟩
      cases cleared with
      | true => cases found
      | false => exact kept.stored found
  | turn resumes outcome =>
      have own := runResult_own chronicle.supervisor resumes outcome
      have lineage := runResult_lineage chronicle.supervisor resumes outcome
      have primary := runResult_primary chronicle.supervisor resumes outcome
      have answers := getLast?_append_toList chronicle.answers (outcome.bind RoutedOutcome.answer)
      have ofProcess :=
        getLast?_append_toList chronicle.ofProcess (outcome.bind RoutedOutcome.answer)
      constructor
      · intro row found
        change (chronicle.supervisor.runResult resumes outcome).1.lineage = some row at found
        rw [lineage] at found
        change ∃ last, (chronicle.answers ++ _).getLast? = _ ∧ _
        rw [answers]
        cases answer : outcome.bind RoutedOutcome.answer with
        | none =>
            rw [answer] at found
            exact kept.stored found
        | some last =>
            rw [answer] at found
            cases found
            exact ⟨last, rfl, rfl⟩
      · intro id found
        change (chronicle.supervisor.runResult resumes outcome).1.ownSessionId = some id at found
        change ∃ row, (chronicle.supervisor.runResult resumes outcome).1.lineage = some row ∧ _ ∧
          (chronicle.ofProcess ++ _ = [] → _ =
            (chronicle.supervisor.runResult resumes outcome).1.primary)
        rw [own] at found
        rw [lineage, primary]
        cases answer : outcome.bind RoutedOutcome.answer with
        | none =>
            rw [answer] at found
            rw [Option.toList_none, List.append_nil]
            exact kept.resumed found
        | some last =>
            rw [answer] at found
            cases found
            refine ⟨last.row, rfl, rfl, fun none => ?_⟩
            cases List.append_ne_nil_of_right_ne_nil _ (List.cons_ne_nil _ _) none
      · intro last found
        change (chronicle.ofProcess ++ _).getLast? = some last at found
        change (chronicle.answers ++ _).getLast? = some last ∧
          (chronicle.supervisor.runResult resumes outcome).1.ownSessionId = some last.sessionId
        rw [ofProcess] at found
        rw [answers, own]
        cases answer : outcome.bind RoutedOutcome.answer with
        | some given =>
            rw [answer] at found
            cases found
            exact ⟨rfl, rfl⟩
        | none =>
            rw [answer] at found
            obtain ⟨whole, memory⟩ := kept.process found
            refine ⟨whole, ?_⟩
            rw [SupervisorState.resumePoint]
            split_ifs
            · rcases resumeContext_cases chronicle.supervisor with
                ⟨own, stays, point⟩ | ⟨empty, -⟩ | ⟨empty, -⟩
              · rw [point]
                rw [memory] at stays
                exact stays.symm ▸ rfl
              · rw [memory] at empty
                cases empty
              · rw [memory] at empty
                cases empty
            · exact memory

/-! ## Requests -/

theorem TurnRequest.latest_last {request : TurnRequest} {last : Answer}
    (found : request.answers.getLast? = some last) :
    request.latest last.sessionId = some last := by
  obtain ⟨before, whole⟩ := List.getLast?_eq_some_iff.mp found
  have same : ([last].filter fun answer => answer.sessionId = last.sessionId) = [last] :=
    List.filter_cons_of_pos (decide_eq_true rfl)
  rw [latest, whole, List.filter_append, same, List.getLast?_concat]

/-- A request that resumes the last answer of all is of its primary exactly when that answer is. -/
theorem TurnRequest.ofPrimary_iff {request : TurnRequest} {last : Answer}
    (found : request.answers.getLast? = some last)
    (resumed : request.point.sessionId = some last.sessionId) :
    request.OfPrimary ↔ last.provider = request.primary := by
  constructor
  · intro honest
    obtain ⟨answer, latest, primary⟩ := honest last.sessionId resumed
    rw [latest_last found] at latest
    cases latest
    exact primary
  · intro primary id same
    rw [resumed] at same
    cases same
    exact ⟨last, latest_last found, primary⟩

/-- A request has the baseline of its session; its session is of the primary exactly when the last
answer of the process is. -/
theorem Kept.request (kept : Kept chronicle) (resumes : Bool) :
    (chronicle.request resumes).OwnBaseline ∧
      ((chronicle.request resumes).OfPrimary ↔ (chronicle.request resumes).Matching) := by
  cases resumes with
  | false => exact ⟨⟨rfl, rfl⟩, iff_of_true nofun nofun⟩
  | true =>
      rcases resumeContext_cases chronicle.supervisor with
        ⟨id, memory, point⟩ | ⟨empty, row, stored, primary, point⟩ | ⟨empty, point⟩
      · obtain ⟨row, stored, named, taken⟩ := kept.own memory
        obtain ⟨last, found, rfl⟩ := kept.stored stored
        have resumed : (chronicle.request true).point =
            ⟨some last.sessionId, last.row.usageSnapshot, some last.sessionId⟩ := by
          rw [Chronicle.request, SupervisorState.resumePoint, if_pos rfl, point, stored, ← named]
          rfl
        have ofLast := @TurnRequest.ofPrimary_iff (chronicle.request true) _ found
          (congrArg ResumePoint.sessionId resumed)
        refine ⟨?_, ofLast.trans ⟨fun primary _ answer among => ?_, fun matching => ?_⟩⟩
        · rw [TurnRequest.OwnBaseline, resumed]
          refine ⟨rfl, ?_⟩
          rw [Option.bind_some, TurnRequest.latest_last found]
          rfl
        · have whole := (kept.process among).1
          rw [found] at whole
          cases whole
          exact primary
        · cases own : chronicle.ofProcess.getLast? with
          | none => exact taken (List.getLast?_eq_none_iff.mp own)
          | some answer =>
              have whole := (kept.process own).1
              rw [found] at whole
              cases whole
              exact matching rfl last own
      · obtain ⟨last, found, rfl⟩ := kept.stored stored
        have resumed : (chronicle.request true).point =
            ⟨some last.sessionId, last.row.usageSnapshot, some last.sessionId⟩ := by
          rw [Chronicle.request, SupervisorState.resumePoint, if_pos rfl, point]
          rfl
        have ofLast := @TurnRequest.ofPrimary_iff (chronicle.request true) _ found
          (congrArg ResumePoint.sessionId resumed)
        refine ⟨?_, iff_of_true (ofLast.mpr primary) fun _ answer among => ?_⟩
        · rw [TurnRequest.OwnBaseline, resumed]
          refine ⟨rfl, ?_⟩
          rw [Option.bind_some, TurnRequest.latest_last found]
          rfl
        · have memory := (kept.process among).2
          rw [empty] at memory
          cases memory
      · have resumed : (chronicle.request true).point = ⟨none, none, none⟩ := by
          rw [Chronicle.request, SupervisorState.resumePoint, if_pos rfl, point]
        refine ⟨?_, iff_of_true (fun id same => ?_) fun _ answer among => ?_⟩
        · rw [TurnRequest.OwnBaseline, resumed]
          exact ⟨rfl, rfl⟩
        · rw [resumed] at same
          cases same
        · have memory := (kept.process among).2
          rw [empty] at memory
          cases memory

/-- What holds of the supervisor at every moment, and held of every request when it was made. -/
structure Recounted (chronicle : Chronicle) : Prop where
  kept : Kept chronicle
  requests : ∀ request ∈ chronicle.requests,
    request.OwnBaseline ∧ (request.OfPrimary ↔ request.Matching)

theorem Recounted.step (recounted : Recounted chronicle) (event : SupervisorEvent) :
    Recounted (chronicle.step event) := by
  refine ⟨recounted.kept.step event, ?_⟩
  cases event with
  | restart primary cleared => exact recounted.requests
  | turn resumes outcome =>
      intro request among
      rcases List.mem_append.mp among with before | last
      · exact recounted.requests request before
      · rw [List.mem_singleton.mp last]
        exact recounted.kept.request resumes

theorem recounted_run (primary : ProviderId) (events : List SupervisorEvent) :
    Recounted (Chronicle.run primary events) := by
  have keeps : ∀ (events : List SupervisorEvent) (chronicle : Chronicle), Recounted chronicle →
      Recounted (events.foldl Chronicle.step chronicle) := by
    intro events
    induction events with
    | nil => exact fun _ recounted => recounted
    | cons event events ih => exact fun chronicle recounted => ih _ (recounted.step event)
  exact keeps events _ ⟨.start primary, List.forall_mem_nil _⟩

/-- Over every history each request is recorded with the baseline of its session; and the session of
every request is of the primary of its route exactly when each turn that resumes follows, in its
process, an answer of that primary or none. -/
theorem sessions_ofPrimary_iff (primary : ProviderId) (events : List SupervisorEvent) :
    (∀ request ∈ (Chronicle.run primary events).requests,
        request.OfPrimary ∧ request.OwnBaseline) ↔
      ∀ request ∈ (Chronicle.run primary events).requests, request.Matching := by
  have requests := (recounted_run primary events).requests
  constructor
  · intro honest request among
    exact (requests request among).2.mp (honest request among).1
  · intro matching request among
    exact ⟨(requests request among).2.mpr (matching request among), (requests request among).1⟩

/-- A turn that a provider answered, with a session. -/
def answeredBy (provider : ProviderId) (sessionId : String) : RoutedOutcome where
  attempts := [⟨some ⟨none, some sessionId⟩⟩]
  result := some ⟨none, some sessionId⟩
  providerUsed := some provider
  answered _ := rfl

/-- A turn that the fallback answered, and the next one: it resumes that session on the primary. -/
theorem fallback_session_resumed :
    ¬ ∀ (primary : ProviderId) (events : List SupervisorEvent),
      ∀ request ∈ (Chronicle.run primary events).requests,
        request.OfPrimary ∧ request.OwnBaseline := by
  intro claimed
  have second := (claimed .claude [.turn true (some (answeredBy .codex "s")), .turn true none]
    _ (List.mem_cons_of_mem _ List.mem_cons_self)).1
  obtain ⟨answer, found, primary⟩ := second "s" rfl
  cases found
  cases primary

end Orchestrator.Supervisor
