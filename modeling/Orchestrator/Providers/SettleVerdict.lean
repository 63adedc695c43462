import Orchestrator.Providers.SettleAgreement

/-! # The verdict of a settled run

The parser folds the events that the watcher folded. The last result decides its verdict; what it
calls abandoned has ended, and was reported.
-/

namespace Orchestrator.Providers

open Orchestrator.Foundation
open Orchestrator.Foundation.Fallible (bind_eq_ok map_eq_ok foldlM_invariant)
open Orchestrator.Foundation.PyText (ofString)
open Orchestrator.Exchange (decodeReplace)

variable {render : Rendering} {events seen : List Json} {event : Json}
  {tasks : BackgroundTasks} {reading : StreamReading} {tracker : SettleTracker}

/-! ## The last result -/

/-- The last result among events. -/
def lastResult (events : List Json) : Option Json :=
  (events.filter (hasText "type" "result")).getLast?

/-- A terminal holds what a result said. -/
structure Decided (render : Rendering) (event : Json) (succeeded : Bool)
    (failureSubtype : Option PyText) : Prop where
  verdict : succeeded = resultSucceeded render event
  failure : failureSubtype =
    if resultSucceeded render event then none else some (resultSubtype render event)

/-- A number under a key is an integer that has no float. -/
def tooLargeUnder (key : String) (event : Json) : Bool :=
  match event.get? key with
  | some (.number literal) => tooLarge literal
  | _ => false

/-- The numbers of an event that are made floats have one. -/
structure Fits (event : Json) : Prop where
  cost : hasText "type" "result" event = true → tooLargeUnder "total_cost_usd" event = false
  reset : hasText "type" "rate_limit_event" event = true → tooLargeUnder "resetsAt" event = false
  nested : ∀ {inner}, objectUnder "rate_limit_event" event = some inner →
    tooLargeUnder "resetsAt" inner = false

theorem lastResult_concat (seen : List Json) (event : Json) :
    lastResult (seen ++ [event]) =
      if hasText "type" "result" event then some event else lastResult seen := by
  rw [lastResult, List.filter_append]
  by_cases result : hasText "type" "result" event
  · rw [if_pos result, List.filter_cons_of_pos result, List.filter_nil, List.getLast?_concat]
  · rw [if_neg result, List.filter_cons_of_neg result, List.filter_nil, List.append_nil]
    rfl

/-- A value that has a float. -/
def Floats (value : Option Json) : Prop := ∃ number, coerceUsageCost value = .ok number

theorem floats_under {key : String} (fits : tooLargeUnder key event = false) :
    Floats (event.get? key) := by
  unfold tooLargeUnder at fits
  generalize event.get? key = value at fits ⊢
  cases value with
  | none => exact ⟨none, rfl⟩
  | some value =>
      cases value with
      | number literal =>
          exact ⟨some literal, if_neg (Bool.eq_false_iff.mp fits)⟩
      | null => exact ⟨none, rfl⟩
      | bool _ => exact ⟨none, rfl⟩
      | string _ => exact ⟨none, rfl⟩
      | array _ => exact ⟨none, rfl⟩
      | object _ => exact ⟨none, rfl⟩

/-- What a reading holds of the events it has read. -/
structure ReadingOf (render : Rendering) (seen : List Json) (reading : StreamReading) : Prop where
  tasks : TasksOf render seen reading.background
  seenResult : reading.terminal.seen = (lastResult seen).isSome
  decided : ∀ {event}, lastResult seen = some event →
    Decided render event reading.terminal.succeeded reading.terminal.failureSubtype
  cost : (∀ event ∈ seen, Fits event) → Floats reading.terminal.totalCostUsd
  reset : (∀ event ∈ seen, Fits event) →
    Floats (reading.rateLimitEvent.bind fun payload => payload.get? "resetsAt")

theorem ReadingOf.start (render : Rendering) : ReadingOf render [] {} where
  tasks := .start render
  seenResult := rfl
  decided := fun found => nomatch found
  cost := fun _ => ⟨none, rfl⟩
  reset := fun _ => ⟨none, rfl⟩

/-- One event of the parser's loop keeps what a reading holds. -/
theorem ReadingOf.fold {next : StreamReading} (kept : ReadingOf render seen reading)
    (folded : reading.fold render event = .ok next) :
    ReadingOf render (seen ++ [event]) next := by
  rw [StreamReading.fold] at folded
  obtain ⟨background, fed, rfl⟩ := map_eq_ok.mp folded
  have before : (∀ other ∈ seen ++ [event], Fits other) → ∀ other ∈ seen, Fits other :=
    fun all other among => all other (List.mem_append_left _ among)
  have here : (∀ other ∈ seen ++ [event], Fits other) → Fits event :=
    fun all => all event (List.mem_append_right _ List.mem_cons_self)
  constructor
  · exact kept.tasks.feed fed
  · rw [lastResult_concat]
    dsimp only
    by_cases result : hasText "type" "result" event = true
    · rw [if_pos result, if_pos result]
      rfl
    · rw [if_neg result, if_neg result]
      exact kept.seenResult
  · intro last found
    rw [lastResult_concat] at found
    dsimp only
    by_cases result : hasText "type" "result" event = true
    · rw [if_pos result] at found ⊢
      cases found
      exact ⟨rfl, rfl⟩
    · rw [if_neg result] at found ⊢
      exact kept.decided found
  · intro fits
    dsimp only
    by_cases result : hasText "type" "result" event = true
    · rw [if_pos result]
      dsimp only [Terminal.fold]
      have own := floats_under ((here fits).cost result)
      cases cost : event.get? "total_cost_usd" with
      | none => exact kept.cost (before fits)
      | some value =>
          rw [cost] at own
          exact own
    · rw [if_neg result]
      exact kept.cost (before fits)
  · intro fits
    dsimp only
    cases nested : objectUnder "rate_limit_event" event with
    | some inner => exact floats_under ((here fits).nested nested)
    | none =>
        by_cases limit : hasText "type" "rate_limit_event" event = true
        · rw [if_pos limit]
          exact floats_under ((here fits).reset limit)
        · rw [if_neg limit]
          exact kept.reset (before fits)

theorem readingOf_run (run : events.foldlM (StreamReading.fold render) {} = .ok reading) :
    ReadingOf render events reading :=
  foldlM_invariant (ReadingOf render) (.start render) ReadingOf.fold run

/-! ## The two folds -/

/-- The parser reads the events that the tracker read, and has seen a result if it did. -/
theorem reading_of_tracker
    (run : events.foldlM (SettleTracker.feedEvent render) .start = .ok tracker) :
    ∃ reading, events.foldlM (StreamReading.fold render) {} = .ok reading ∧
      reading.background = tracker.background ∧
      (tracker.afterResult = true → reading.terminal.seen = true) := by
  refine foldlM_invariant (fun seen (tracker : SettleTracker) =>
    ∃ reading, seen.foldlM (StreamReading.fold render) {} = .ok reading ∧
      reading.background = tracker.background ∧
      (tracker.afterResult = true → reading.terminal.seen = true))
        ⟨{}, rfl, rfl, fun result => absurd result Bool.false_ne_true⟩ ?_ run
  rintro seen before event next ⟨reading, read, same, result⟩ moved
  obtain ⟨background, fed, rest⟩ := bind_eq_ok.mp moved
  obtain ⟨after, decided, final⟩ := bind_eq_ok.mp rest
  cases final
  have step : ∃ next, reading.fold render event = .ok next ∧ next.background = background ∧
      next.terminal.seen = (hasText "type" "result" event || reading.terminal.seen) := by
    rw [StreamReading.fold, same, fed]
    refine ⟨_, rfl, rfl, ?_⟩
    dsimp only
    by_cases isResult : hasText "type" "result" event = true
    · rw [if_pos isResult, isResult]
      rfl
    · rw [if_neg isResult, Bool.eq_false_of_not_eq_true isResult]
      rfl
  obtain ⟨next, folded, tasks, terminal⟩ := step
  refine ⟨next, ?_, tasks, fun settled => ?_⟩
  · rw [List.foldlM_append, read]
    change List.foldlM (StreamReading.fold render) reading [event] = _
    rw [List.foldlM_cons, folded]
    rfl
  · rw [terminal, Bool.or_eq_true]
    rw [SettleTracker.afterEvent] at decided
    dsimp only at settled
    split_ifs at decided with isResult lifecycle unhashable
    · exact .inl isResult
    · cases decided
      exact .inr (result (Bool.and_eq_true_iff.mp settled).1)
    · cases decided
      exact .inr (result (Bool.and_eq_true_iff.mp settled).1)

/-! ## Abandoned work -/

/-- An entry of abandoned work that says how a task ended: a start of it and a report of its end
were read, or it is counted in a tally of what the runtime stopped. -/
def EntryOfEnded (render : Rendering) (events : List Json) (entry : PyText) : Prop :=
  (∃ task, ∃ start ∈ events, Starts task start ∧ ∃ report ∈ events, Notifies task report ∧
      entry = BackgroundTasks.agentLabel render start task ++ ofString " (" ++
        BackgroundTasks.statusText render report ++ ofString ")") ∨
    ∃ count, entry ∈ BackgroundTasks.tallied count

/-- No task is out: each that was started has its ending. -/
theorem ended_of_not_pending (quiet : tasks.pending = false) {task : PyText}
    (known : task ∈ tasks.agents.items.map Prod.fst ++ tasks.others) :
    ∃ status, tasks.ended.get? task = some status := by
  rw [BackgroundTasks.pending, List.any_eq_false] at quiet
  have ended := quiet task known
  rw [Option.isNone_iff_eq_none] at ended
  exact Option.ne_none_iff_exists'.mp ended

/-- Without tasks that are out, abandoned work is work whose end was reported. -/
theorem entryOfEnded_of_abandoned (kept : TasksOf render events tasks)
    (quiet : tasks.pending = false)
    (told : ∀ event ∈ events, hasText "subtype" "task_notification" event = true →
      BackgroundTasks.statusText render event ≠ []) {entry : PyText}
    (abandoned : entry ∈ tasks.abandoned) : EntryOfEnded render events entry := by
  have lost : entry ∈ tasks.lost.map tasks.lostLabel → EntryOfEnded render events entry := by
    intro among
    obtain ⟨agent, listed, rfl⟩ := List.mem_map.mp among
    have item := List.mem_of_mem_filter listed
    obtain ⟨start, startRead, starts, label⟩ := kept.agent item
    obtain ⟨status, found⟩ := ended_of_not_pending quiet
      (List.mem_append_left _ (List.mem_map_of_mem item))
    obtain ⟨report, reportRead, notifies, text⟩ := kept.ending found
    have filled : status ≠ [] := by
      rw [text]
      exact told report reportRead notifies.notified
    refine .inl ⟨agent.1, start, startRead, starts, report, reportRead, notifies, ?_⟩
    rw [BackgroundTasks.lostLabel, found, Option.getD_some, if_neg filled, label, text]
  rw [BackgroundTasks.abandoned] at abandoned
  dsimp only at abandoned
  split at abandoned
  · cases abandoned
  · split at abandoned
    · exact lost abandoned
    · split at abandoned
      · exact lost abandoned
      · exact .inr ⟨_, abandoned⟩

/-! ## Settled runs -/

/-- The watcher lives and its tracker is settled. -/
def settledAfter (render : Rendering) (chunks : List (List UInt8)) : Bool :=
  match chunks.foldlM (Watch.read render) .start with
  | .ok watch => watch.tracker.settled
  | .error _ => false

/-- Lines that both readers read alike, whose notifications say how the task ended and whose
numbers have floats. -/
structure Legible (render : Rendering) (lines : List (List UInt8)) : Prop where
  alike : ∀ line ∈ lines, ReadAlike line
  told : ∀ event ∈ watchedEvents lines, hasText "subtype" "task_notification" event = true →
    BackgroundTasks.statusText render event ≠ []
  fits : ∀ event ∈ watchedEvents lines, Fits event

/-- A run that is parsed to the verdict of its last result, with no task left out. -/
def Finished (render : Rendering) (text : PyText) : Prop :=
  ∃ parsed, parseStreamJson render text = .ok parsed ∧
    (∃ last, lastResult (eventsIn text) = some last ∧
      Decided render last parsed.succeeded parsed.failureSubtype) ∧
    (∀ task, ∀ start ∈ eventsIn text, Starts task start →
      ∃ report ∈ eventsIn text, Notifies task report) ∧
    ∀ entry ∈ parsed.abandonedWork, EntryOfEnded render (eventsIn text) entry

/-- A line without separators and without blanks at its ends is read alike. -/
theorem readAlike_plain {line : List UInt8}
    (plain : (decodeReplace line).all (fun point => !PyText.isLineEnd point) = true)
    (bare : PyText.strip (decodeReplace line) = decodeReplace line) : ReadAlike line := by
  have split : PyText.splitLines (decodeReplace line ++ [10]) = [decodeReplace line] :=
    PyText.splitLines_append plain (by decide) (by decide) []
  rw [ReadAlike, eventsIn, split, List.filterMap_cons, List.filterMap_nil, strippedEvent, bare]
  by_cases nothing : decodeReplace line = []
  · rw [if_pos nothing, nothing]
    rfl
  · rw [if_neg nothing]
    cases eventOf (decodeReplace line) <;> rfl

/-- What the parser has read when the tracker is settled is finished. -/
theorem finished_of_settled
    (run : events.foldlM (SettleTracker.feedEvent render) .start = .ok tracker)
    (settled : tracker.settled = true) {text : PyText} (read : eventsIn text = events)
    (told : ∀ event ∈ events, hasText "subtype" "task_notification" event = true →
      BackgroundTasks.statusText render event ≠ [])
    (fits : ∀ event ∈ events, Fits event) : Finished render text := by
  obtain ⟨reading, folded, same, result⟩ := reading_of_tracker run
  obtain ⟨after, quiet⟩ := Bool.and_eq_true_iff.mp settled
  rw [Bool.not_eq_true', ← same] at quiet
  have kept := readingOf_run folded
  have seen := result after
  obtain ⟨cost, costFloats⟩ := kept.cost fits
  obtain ⟨reset, resetFloats⟩ := kept.reset fits
  obtain ⟨last, found⟩ := Option.isSome_iff_exists.mp (kept.seenResult.symm.trans seen)
  have usage : ∃ usage, normalizeClaudeUsage reading.terminal = .ok usage := by
    rw [normalizeClaudeUsage]
    split
    · rw [costFloats]
      exact ⟨_, rfl⟩
    · exact ⟨none, rfl⟩
  obtain ⟨usage, normal⟩ := usage
  obtain ⟨parsed, finish, succeeded, failure, abandoned⟩ :
      ∃ parsed, reading.finish = .ok parsed ∧ parsed.succeeded = reading.terminal.succeeded ∧
        parsed.failureSubtype = reading.terminal.failureSubtype ∧
        parsed.abandonedWork = reading.background.abandoned := by
    rw [StreamReading.finish, if_pos seen, normal, limitResetsAt, resetFloats]
    exact ⟨_, rfl, rfl, rfl, rfl⟩
  refine ⟨parsed, ?_, ?_, ?_, ?_⟩
  · rw [parseStreamJson, read, folded]
    exact finish
  · rw [read]
    refine ⟨last, found, ?_⟩
    rw [succeeded, failure]
    exact kept.decided found
  · rw [read]
    intro task start among starts
    obtain ⟨status, ended⟩ := ended_of_not_pending quiet (kept.tasks.known among starts)
    obtain ⟨report, reported, notifies, -⟩ := kept.tasks.ending ended
    exact ⟨report, reported, notifies⟩
  · rw [read]
    intro entry among
    rw [abandoned] at among
    exact entryOfEnded_of_abandoned kept.tasks quiet told among

/-- The tracker depends on the bytes alone; and where both readers read the lines alike, a run that
settles is finished. -/
theorem settled_runs_finish (render : Rendering) {lines : List (List UInt8)}
    (unbroken : ∀ line ∈ lines, 10 ∉ line) :
    (∀ chunks others : List (List UInt8), chunks.flatten = others.flatten →
      chunks.foldlM (Watch.read render) .start = others.foldlM (Watch.read render) .start) ∧
    (Legible render lines → ∀ chunks : List (List UInt8), chunks.flatten = stream lines →
      settledAfter render chunks = true → Finished render (decodeReplace (stream lines))) := by
  constructor
  · intro chunks others same
    rw [Watch.read_chunks, Watch.read_chunks, same]
  · intro legible chunks bytes settled
    rw [settledAfter, watch_stream unbroken bytes] at settled
    cases run : (watchedEvents lines).foldlM (SettleTracker.feedEvent render) .start with
    | error failure =>
        rw [run] at settled
        cases settled
    | ok tracker =>
        rw [run] at settled
        exact finished_of_settled run settled (eventsIn_stream legible.alike) legible.told
          legible.fits

section Instances

open Orchestrator.Foundation.PyText (utf8Bytes)

/-- No value but a text is shown, and no literal is zero. -/
def plainRendering : Rendering := ⟨fun _ => [], fun _ => false⟩

def bytesOf (text : String) : List UInt8 := (ofString text).flatMap utf8Bytes

/-- A subagent that is started and reports, stray text, and a result. -/
def reportedRun : List (List UInt8) :=
  [bytesOf "\x7b\"subtype\":\"task_started\",\"task_id\":\"a\",\"is_backgrounded\":true\x7d",
    bytesOf "\x7b\"subtype\":\"task_notification\",\"task_id\":\"a\",\"status\":\"completed\"\x7d",
    bytesOf "warming up", bytesOf "\x7b\"type\":\"result\",\"result\":\"é\"\x7d"]

theorem fits_of_absent {event : Json} (cost : tooLargeUnder "total_cost_usd" event = false)
    (reset : tooLargeUnder "resetsAt" event = false)
    (plain : (objectUnder "rate_limit_event" event).isNone = true) : Fits event where
  cost _ := cost
  reset _ := reset
  nested found := by
    rw [Option.isNone_iff_eq_none.mp plain] at found
    cases found

/-- The bytes of the run, cut within the character of two bytes. -/
theorem reportedRun_finished :
    Finished plainRendering (decodeReplace (stream reportedRun)) := by
  have numbers : ∀ event ∈ watchedEvents reportedRun,
      tooLargeUnder "total_cost_usd" event = false ∧ tooLargeUnder "resetsAt" event = false ∧
        (objectUnder "rate_limit_event" event).isNone = true := by decide +kernel
  have legible : Legible plainRendering reportedRun := by
    constructor
    · intro line among
      have checks : ∀ line ∈ reportedRun,
          (decodeReplace line).all (fun point => !PyText.isLineEnd point) = true ∧
            PyText.strip (decodeReplace line) = decodeReplace line := by decide +kernel
      exact readAlike_plain (checks line among).1 (checks line among).2
    · decide +kernel
    · intro event among
      obtain ⟨cost, reset, plain⟩ := numbers event among
      exact fits_of_absent cost reset plain
  exact (settled_runs_finish plainRendering (by decide +kernel)).2 legible
    [(stream reportedRun).take 148, (stream reportedRun).drop 148]
    (by rw [List.flatten_cons, List.flatten_singleton, List.take_append_drop]) (by decide +kernel)

/-- A result whose text holds a separator that is no line feed. -/
def separatedResult : List UInt8 :=
  bytesOf "\x7b\"type\":\"result\",\"subtype\":\"success\",\"result\":\"a\u2028b\"\x7d"

/-- The watcher takes the run for settled; the parser finds no result in it. -/
theorem separatedResult_not_finished :
    ¬ ∀ lines : List (List UInt8), (∀ line ∈ lines, 10 ∉ line) →
      ∀ chunks : List (List UInt8), chunks.flatten = stream lines →
        settledAfter plainRendering chunks = true →
          Finished plainRendering (decodeReplace (stream lines)) := by
  intro claimed
  obtain ⟨parsed, outcome, -⟩ := claimed [separatedResult] (by decide +kernel)
    [stream [separatedResult]] (List.flatten_singleton) (by decide +kernel)
  have nothing : (eventsIn (decodeReplace (stream [separatedResult]))).isEmpty = true := by
    decide +kernel
  rw [parseStreamJson, List.isEmpty_iff.mp nothing] at outcome
  cases outcome

end Instances

end Orchestrator.Providers
