import Mathlib.Algebra.Order.Ring.Int
import Mathlib.Data.Nat.Basic
import Orchestrator.Exchange.Publish
import Orchestrator.Foundation.OrderedDict

/-! # The stream of a Claude run

Two readers of the same lines of events. A watcher cuts the bytes at line feeds as they arrive and
says when the run has settled; the parser reads the whole text once the process is gone. Both keep
the background tasks that were started and how they ended.
-/

namespace Orchestrator.Providers

open Orchestrator.Foundation
open Orchestrator.Foundation.PyText (ofString ofChar splitLines strip lower contains)
open Orchestrator.Exchange (decodeReplace)

/-! ## Events -/

/-- What a reader raises. -/
inductive StreamFailure where
  /-- `ProviderError` of the class `INVALID_OUTPUT`. -/
  | invalidOutput
  /-- `TypeError` of a list or a dictionary that is looked up in a set. -/
  | unhashable
  /-- `OverflowError` of an integer that is made a float. -/
  | overflow

/-- What `str` makes of values that are no texts, and which literals are read as zero. -/
structure Rendering where
  shown : Json → PyText
  isZero : PyText → Bool

/-- `str(value)` of what a lookup gave. -/
def Rendering.text (render : Rendering) : Option Json → PyText
  | none => ofString "None"
  | some (.string text) => text
  | some value => render.shown value

/-- `bool(value)` of what a lookup gave. -/
def Rendering.truth (render : Rendering) : Option Json → Bool
  | none => false
  | some .null => false
  | some (.bool value) => value
  | some (.number literal) => !render.isZero literal
  | some (.string text) => !text.isEmpty
  | some (.array items) => !items.isEmpty
  | some (.object members) => !members.isEmpty

/-- The text under a key, when it is one. -/
def textUnder (key : String) (event : Json) : Option PyText :=
  match event.get? key with
  | some (.string text) => some text
  | _ => none

/-- `event.get(key) == text`. -/
def hasText (key text : String) (event : Json) : Bool := textUnder key event = some (ofString text)

/-- The object under a key, when it is one. -/
def objectUnder (key : String) (event : Json) : Option Json :=
  match event.get? key with
  | some (.object members) => some (.object members)
  | _ => none

/-- What is under a key has no hash. -/
def unhashableUnder (key : String) (event : Json) : Bool :=
  match event.get? key with
  | some (.array _) => true
  | some (.object _) => true
  | _ => false

/-- Nothing is under a key, or a null. -/
def absentUnder (key : String) (event : Json) : Bool :=
  match event.get? key with
  | none => true
  | some .null => true
  | _ => false

/-- The whole number of a literal without fraction and exponent. -/
def integerOf (literal : PyText) : Option Int :=
  let natural (digits : PyText) : Option Int :=
    if digits ≠ [] ∧ digits.all Json.isDigit then
      some (digits.foldl (fun number point => 10 * number + (point.val - 48)) 0 : Nat)
    else none
  match literal with
  | [] => none
  | point :: digits =>
      if point = ofChar '-' then (natural digits).map fun number => -number else natural literal

/-- `coerce_usage_int(event.get(key))`. -/
def integerUnder (key : String) (event : Json) : Option Int :=
  match event.get? key with
  | some (.number literal) => integerOf literal
  | _ => none

/-- An integer that has no float: the nearest one would be two to the power of 1024. -/
def tooLarge (literal : PyText) : Bool :=
  match integerOf literal with
  | some number => 2 ^ 1024 - 2 ^ 970 ≤ number.natAbs
  | none => false

/-- `float(value)` of a number, kept as it is written; anything else is none. -/
def coerceUsageCost : Option Json → Except StreamFailure (Option PyText)
  | some (.number literal) => if tooLarge literal then .error .overflow else .ok (some literal)
  | _ => .ok none

/-! ## Background tasks -/

/-- The background tasks a run started, and how each one ended. -/
structure BackgroundTasks where
  agents : OrderedDict PyText PyText
  others : List PyText
  ended : OrderedDict PyText PyText
  stoppedByAgent : List PyText
  stats : Option Json

namespace BackgroundTasks

def start : BackgroundTasks := ⟨.empty, [], .empty, [], none⟩

/-- `_STOP_TOOLS`. -/
def stopTools : List String := ["TaskStop", "KillShell", "KillBash"]

/-- The tasks a block of a message stops. -/
def noteBlock (tasks : BackgroundTasks) (block : Json) : Except StreamFailure BackgroundTasks :=
  if hasText "type" "tool_use" block then
    if unhashableUnder "name" block then .error .unhashable
    else if stopTools.any fun tool => hasText "name" tool block then
      match objectUnder "input" block with
      | none => .ok tasks
      | some input =>
          .ok { tasks with
            stoppedByAgent :=
              ["task_id", "shell_id", "id"].filterMap (fun key => textUnder key input) ++
                tasks.stoppedByAgent }
    else .ok tasks
  else .ok tasks

/-- `_note_stop_calls`. -/
def noteStopCalls (tasks : BackgroundTasks) (event : Json) : Except StreamFailure BackgroundTasks :=
  match (objectUnder "message" event).bind fun message => message.get? "content" with
  | some (.array blocks) => blocks.foldlM noteBlock tasks
  | _ => .ok tasks

/-- `event.get("is_backgrounded") is True`. -/
def backgrounded (event : Json) : Bool :=
  match event.get? "is_backgrounded" with
  | some (.bool value) => value
  | _ => false

/-- `str(event.get("description") or task_id)`. -/
def agentLabel (render : Rendering) (event : Json) (task : PyText) : PyText :=
  let description := event.get? "description"
  if render.truth description then render.text description else task

/-- The task of a start, among the subagents or the others. -/
def begin (render : Rendering) (tasks : BackgroundTasks) (event : Json) (task : PyText) :
    BackgroundTasks :=
  if hasText "task_type" "local_agent" event || (event.get? "subagent_type").isSome then
    { tasks with agents := tasks.agents.set task (agentLabel render event task) }
  else { tasks with others := task :: tasks.others }

/-- `str(event.get("status") or "")`. -/
def statusText (render : Rendering) (event : Json) : PyText :=
  let status := event.get? "status"
  if render.truth status then render.text status else []

/-- What an event that is no start and no notification of a task says. -/
def noteTurn (tasks : BackgroundTasks) (event : Json) : Except StreamFailure BackgroundTasks :=
  if hasText "type" "assistant" event then tasks.noteStopCalls event else .ok tasks

/-- The start of a task, its notification, or another event. -/
def feedTask (render : Rendering) (tasks : BackgroundTasks) (event : Json) :
    Except StreamFailure BackgroundTasks :=
  match textUnder "task_id" event with
  | none => tasks.noteTurn event
  | some task =>
      if hasText "subtype" "task_started" event then
        .ok (if backgrounded event then tasks.begin render event task else tasks)
      else if hasText "subtype" "task_notification" event then
        .ok { tasks with ended := tasks.ended.set task (statusText render event) }
      else tasks.noteTurn event

/-- `_BackgroundTasks.feed`. -/
def feed (render : Rendering) (tasks : BackgroundTasks) (event : Json) :
    Except StreamFailure BackgroundTasks :=
  (tasks.feedTask render event).map fun tasks =>
    if hasText "type" "result" event then
      match objectUnder "subagent_stats" event with
      | some stats => { tasks with stats := some stats }
      | none => tasks
    else tasks

/-- A backgrounded task of any kind has started and not yet reported an ending. -/
def pending (tasks : BackgroundTasks) : Bool :=
  (tasks.agents.items.map Prod.fst ++ tasks.others).any fun task => (tasks.ended.get? task).isNone

/-- `_BACKGROUND_TASK_FINISHED`. -/
def finished (status : Option PyText) : Bool :=
  status = some (ofString "completed") || status = some (ofString "failed")

/-- The subagents that ended without finishing and that the agent did not stop. -/
def lost (tasks : BackgroundTasks) : List (PyText × PyText) :=
  tasks.agents.items.filter fun agent =>
    !finished (tasks.ended.get? agent.1) && !tasks.stoppedByAgent.contains agent.1

/-- The entry of a lost subagent: how it ended, or that it still ran. -/
def lostLabel (tasks : BackgroundTasks) (agent : PyText × PyText) : PyText :=
  let status := (tasks.ended.get? agent.1).getD []
  agent.2 ++ ofString " (" ++
    (if status = [] then ofString "still running at exit" else status) ++ ofString ")"

/-- The entries of a tally without events of its own. -/
def tallied (count : Int) : List PyText :=
  (List.range count.toNat).map fun number =>
    ofString "background subagent " ++ Json.naturalLiteral (number + 1) ++
      ofString " (stopped by the CLI at exit)"

/-- One label per backgrounded subagent the runtime stopped before it reported. -/
def abandoned (tasks : BackgroundTasks) : List PyText :=
  let stat (key : String) : Option Int := tasks.stats.bind fun stats => integerUnder key stats
  let systemKills : Option Int :=
    (tasks.stats.bind fun stats => objectUnder "killed" stats).bind fun killed =>
      integerUnder "system" killed
  if systemKills = some 0 then []
  else
    let lost := tasks.lost.map tasks.lostLabel
    match systemKills with
    | none => lost
    | some kills =>
        if lost ≠ [] ∨ tasks.agents.items ≠ [] then lost
        else
          let background := (stat "started_in_background").getD 0
          let ended := (stat "completed").getD 0 + (stat "failed").getD 0
          tallied (min kills (max 0 (background - ended)))

end BackgroundTasks

/-! ## The watcher -/

/-- `ClaudeSettleTracker`. -/
structure SettleTracker where
  background : BackgroundTasks
  afterResult : Bool

namespace SettleTracker

def start : SettleTracker := ⟨.start, false⟩

/-- Stream events that may follow a final result without meaning more work is coming. -/
def housekeeping (event : Json) : Bool :=
  (hasText "type" "system" event &&
      (hasText "subtype" "post_turn_summary" event || hasText "subtype" "task_summary" event)) ||
    (hasText "type" "rate_limit_event" event && absentUnder "subtype" event)

/-- What an event makes of whether the last one was a result. -/
def afterEvent (afterResult : Bool) (event : Json) : Except StreamFailure Bool :=
  if hasText "type" "result" event then .ok true
  else if hasText "type" "command_lifecycle" event then
    .ok (afterResult && hasText "state" "completed" event)
  else if unhashableUnder "type" event || unhashableUnder "subtype" event then .error .unhashable
  else .ok (afterResult && housekeeping event)

def feedEvent (render : Rendering) (tracker : SettleTracker) (event : Json) :
    Except StreamFailure SettleTracker := do
  let background ← tracker.background.feed render event
  let afterResult ← afterEvent tracker.afterResult event
  return ⟨background, afterResult⟩

/-- The latest event is a result and no backgrounded task is still out. -/
def settled (tracker : SettleTracker) : Bool := tracker.afterResult && !tracker.background.pending

end SettleTracker

/-- The event of a line: a document that is an object. -/
def eventOf (line : PyText) : Option Json :=
  match Json.loads line with
  | some (.object members) => some (.object members)
  | _ => none

/-- `ClaudeSettleTracker.feed`. -/
def SettleTracker.feed (render : Rendering) (tracker : SettleTracker) (line : PyText) :
    Except StreamFailure SettleTracker :=
  match eventOf line with
  | none => .ok tracker
  | some event => tracker.feedEvent render event

/-- `*lines, pending = data.split(b"\n")`. -/
def cutLines (data : List UInt8) : List (List UInt8) × List UInt8 :=
  ((data.splitOn 10).dropLast, (data.splitOn 10).getLast?.getD [])

/-- What `_watch_child` keeps between polls. -/
structure Watch where
  tracker : SettleTracker
  pending : List UInt8

def Watch.start : Watch := ⟨.start, []⟩

/-- A poll that read a chunk; an exception ends the watcher. -/
def Watch.read (render : Rendering) (watch : Watch) (chunk : List UInt8) :
    Except StreamFailure Watch :=
  if chunk = [] then .ok watch
  else
    let cut := cutLines (watch.pending ++ chunk)
    (cut.1.foldlM (fun tracker raw => SettleTracker.feed render tracker (decodeReplace raw))
      watch.tracker).map fun tracker => ⟨tracker, cut.2⟩

/-! ## The parser -/

/-- What the `result` events of a run said; the last one decides. -/
structure Terminal where
  seen : Bool := false
  succeeded : Bool := false
  failureSubtype : Option PyText := none
  finalMessage : Option PyText := none
  structuredOutput : Option Json := none
  usage : Option Json := none
  modelUsage : Option Json := none
  totalCostUsd : Option Json := none
  rateLimited : Bool := false

/-- `str(event.get("subtype", "success")).lower()`. -/
def resultSubtype (render : Rendering) (event : Json) : PyText :=
  match event.get? "subtype" with
  | none => ofString "success"
  | some value => lower (render.text (some value))

/-- `bool(event.get("is_error", subtype != "success"))`. -/
def resultIsError (render : Rendering) (event : Json) : Bool :=
  match event.get? "is_error" with
  | none => resultSubtype render event ≠ ofString "success"
  | some value => render.truth (some value)

/-- A result that is no error and whose subtype is success. -/
def resultSucceeded (render : Rendering) (event : Json) : Bool :=
  !resultIsError render event && resultSubtype render event = ofString "success"

/-- The letters that a pattern without case tells apart. -/
def foldCase (text : PyText) : PyText :=
  (lower text).map fun point =>
    if point.val = 0x130 || point.val = 0x131 then ofChar 'i'
    else if point.val = 0x17F then ofChar 's'
    else point

/-- `_LIMIT_BANNER.search(text)`. -/
def limitBanner (text : PyText) : Bool :=
  let folded := foldCase text
  contains folded (ofString "session limit") || contains folded (ofString "usage limit") ||
    folded.tails.any fun rest =>
      (ofString "limit ").isPrefixOf rest &&
        contains ((rest.drop 6).takeWhile fun point => point.val ≠ 10) (ofString " resets")

/-- `_is_limit_event`. -/
def isLimitEvent (render : Rendering) : Option Json → Bool
  | none => false
  | some payload =>
      ((payload.get? "status").isSome &&
          lower (render.text (payload.get? "status")) = ofString "rejected") ||
        render.truth (payload.get? "rateLimitType") ||
        render.truth (payload.get? "overageDisabledReason")

/-- `_Terminal.fold`. -/
def Terminal.fold (render : Rendering) (terminal : Terminal) (event : Json)
    (rateLimitEvent : Option Json) : Terminal :=
  let succeeded := resultSucceeded render event
  let text := textUnder "result" event
  let limitSignal :=
    render.text (event.get? "api_error_status") = ofString "429" ||
      isLimitEvent render rateLimitEvent || text.any limitBanner
  { seen := true
    succeeded := succeeded
    failureSubtype := if succeeded then none else some (resultSubtype render event)
    finalMessage := text <|> terminal.finalMessage
    structuredOutput := objectUnder "structured_output" event <|> terminal.structuredOutput
    usage := objectUnder "usage" event <|> terminal.usage
    modelUsage :=
      ((objectUnder "modelUsage" event).filter fun usage => render.truth (some usage)) <|>
        terminal.modelUsage
    totalCostUsd := event.get? "total_cost_usd" <|> terminal.totalCostUsd
    rateLimited := terminal.rateLimited || (resultIsError render event && limitSignal) }

/-- What the parser has read so far. -/
structure StreamReading where
  terminal : Terminal := {}
  sessionId : Option Json := none
  rateLimitEvent : Option Json := none
  background : BackgroundTasks := .start

/-- One event of the parser's loop. -/
def StreamReading.fold (render : Rendering) (reading : StreamReading) (event : Json) :
    Except StreamFailure StreamReading :=
  (reading.background.feed render event).map fun background =>
    let own :=
      if hasText "type" "rate_limit_event" event then some event else reading.rateLimitEvent
    let rateLimitEvent := objectUnder "rate_limit_event" event <|> own
    { background := background
      sessionId := event.get? "session_id" <|> reading.sessionId
      rateLimitEvent := rateLimitEvent
      terminal :=
        if hasText "type" "result" event then reading.terminal.fold render event rateLimitEvent
        else reading.terminal }

/-- Claude's usage record; the cost is kept as it is written. -/
structure ClaudeUsage where
  inputTotal : Option Int
  cacheRead : Option Int
  cacheWrite : Option Int
  uncachedInput : Option Int
  outputTotal : Option Int
  cost : Option PyText

/-- The sum of the counts that are there. -/
def sumCounts (counts : List (Option Int)) : Option Int :=
  if counts.all Option.isNone then none else some (counts.filterMap id).sum

/-- `_sum_model_usage`: a column over every model entry, in the order of the source's columns. -/
def sumModelUsage (modelUsage : Json) : List (Option Int) :=
  match modelUsage with
  | .object members =>
      let entries := (OrderedDict.ofItems members).items.map Prod.snd
      ["inputTokens", "cacheCreationInputTokens", "cacheReadInputTokens", "outputTokens"].map
        fun key => sumCounts (entries.map (integerUnder key))
  | _ => [none, none, none, none]

/-- `_normalize_claude_usage`. -/
def normalizeClaudeUsage (terminal : Terminal) : Except StreamFailure (Option ClaudeUsage) :=
  let direct : Option (List (Option Int)) :=
    match terminal.usage with
    | some (.object (member :: members)) =>
        some (["input_tokens", "cache_creation_input_tokens", "cache_read_input_tokens",
          "output_tokens"].map fun key => integerUnder key (.object (member :: members)))
    | _ => none
  let totals := ((terminal.modelUsage.map sumModelUsage).filter fun sums => sums.any Option.isSome)
  match totals <|> direct with
  | some [uncachedInput, cacheWrite, cacheRead, output] =>
      (coerceUsageCost terminal.totalCostUsd).map fun cost =>
        some
          ⟨sumCounts [uncachedInput, cacheWrite, cacheRead], cacheRead, cacheWrite, uncachedInput,
          output, cost⟩
  | _ => .ok none

/-- `_limit_resets_at`, kept as it is written. -/
def limitResetsAt (rateLimitEvent : Option Json) : Except StreamFailure (Option PyText) :=
  coerceUsageCost (rateLimitEvent.bind fun payload => payload.get? "resetsAt")

/-- What the parser gives. -/
structure ParsedEvents where
  finalMessage : Option PyText
  structuredOutput : Option Json
  usage : Option Json
  normalizedUsage : Option ClaudeUsage
  sessionId : Option Json
  succeeded : Bool
  failureSubtype : Option PyText
  rateLimited : Bool
  rateLimitResetsAt : Option PyText
  abandonedWork : List PyText

/-- What is made of the events once they are read. -/
def StreamReading.finish (reading : StreamReading) : Except StreamFailure ParsedEvents := do
  if reading.terminal.seen then
    let normalizedUsage ← normalizeClaudeUsage reading.terminal
    let rateLimitResetsAt ← limitResetsAt reading.rateLimitEvent
    return {
      finalMessage := reading.terminal.finalMessage
      structuredOutput := reading.terminal.structuredOutput
      usage := reading.terminal.usage
      normalizedUsage := normalizedUsage
      sessionId := reading.sessionId
      succeeded := reading.terminal.succeeded
      failureSubtype := reading.terminal.failureSubtype
      rateLimited := reading.terminal.rateLimited
      rateLimitResetsAt := rateLimitResetsAt
      abandonedWork := reading.background.abandoned }
  else throw .invalidOutput

/-- The event of a line of the parser, which strips it. -/
def strippedEvent (line : PyText) : Option Json :=
  if strip line = [] then none else eventOf (strip line)

/-- The events the parser reads in a text. -/
def eventsIn (text : PyText) : List Json := (splitLines text).filterMap strippedEvent

/-- `parse_stream_json`. -/
def parseStreamJson (render : Rendering) (text : PyText) : Except StreamFailure ParsedEvents := do
  let reading ← (eventsIn text).foldlM (StreamReading.fold render) {}
  reading.finish

end Orchestrator.Providers
