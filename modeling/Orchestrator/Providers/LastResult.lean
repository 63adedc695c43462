import Orchestrator.Providers.SettleVerdict

/-! # The last result of a run

A run whose agent wakes again has several results. What the parser tells of the run is compared with
what it tells when the earlier results are left out of the stream.
-/

namespace Orchestrator.Providers

open Orchestrator.Foundation
open Orchestrator.Foundation.Fallible (bind_eq_ok map_eq_ok foldlM_invariant)
open Orchestrator.Foundation.PyText (ofString)

variable {render : Rendering} {events seen : List Json} {event : Json} {reading : StreamReading}

/-! ## What results carry -/

/-- An event that is a result. -/
def isResult (event : Json) : Bool := hasText "type" "result" event

/-- The events without the results that another one follows. -/
def lastResultAlone : List Json → List Json
  | [] => []
  | event :: rest =>
      if isResult event && rest.any isResult then lastResultAlone rest
      else event :: lastResultAlone rest

/-- The events that are no results. -/
def others (events : List Json) : List Json := events.filter fun event => !isResult event

/-- What the last of the results that carry something carries. -/
def carried {α : Type} (read : Json → Option α) (events : List Json) : Option α :=
  ((events.filter isResult).filterMap read).getLast?

/-- The counts by model of a result, if it has any entry. -/
def modelUsageOf (render : Rendering) (event : Json) : Option Json :=
  (objectUnder "modelUsage" event).filter fun usage => render.truth (some usage)

/-- The event about a rate limit that an event is or has. -/
def limitEventIn (event : Json) : Option Json :=
  objectUnder "rate_limit_event" event <|>
    if hasText "type" "rate_limit_event" event then some event else none

/-- The last event about a rate limit. -/
def limitEventOf (events : List Json) : Option Json := (events.filterMap limitEventIn).getLast?

/-- An error result with a signal of a limit, after the events about rate limits before it. -/
def hitsLimit (render : Rendering) (before : Option Json) (event : Json) : Bool :=
  resultIsError render event &&
    (render.text (event.get? "api_error_status") = ofString "429" ||
      isLimitEvent render (limitEventIn event <|> before) ||
      (textUnder "result" event).any limitBanner)

/-- Some result hits a limit where it stands. -/
def HitsLimit (render : Rendering) (events : List Json) : Prop :=
  ∃ front event back, events = front ++ event :: back ∧ isResult event = true ∧
    hitsLimit render (limitEventOf front) event = true

theorem lastResultAlone_of_none (none : ∀ event ∈ events, isResult event = false) :
    lastResultAlone events = events := by
  induction events with
  | nil => rfl
  | cons event rest ih =>
      rw [lastResultAlone, none event List.mem_cons_self, Bool.false_and, if_neg Bool.false_ne_true,
        ih fun other among => none other (List.mem_cons_of_mem _ among)]

/-- Before the last result only what is no result is left. -/
theorem lastResultAlone_eq {front back : List Json} {last : Json} (result : isResult last = true)
    (final : ∀ event ∈ back, isResult event = false) :
    lastResultAlone (front ++ last :: back) = others front ++ last :: back := by
  induction front with
  | nil =>
      have quiet : back.any isResult = false := by
        rw [List.any_eq_false]
        exact fun event among => Bool.eq_false_iff.mp (final event among)
      rw [List.nil_append, lastResultAlone, quiet, Bool.and_false, if_neg Bool.false_ne_true,
        lastResultAlone_of_none final]
      rfl
  | cons event front ih =>
      have later : (front ++ last :: back).any isResult = true :=
        List.any_eq_true.mpr ⟨last, List.mem_append_right _ List.mem_cons_self, result⟩
      rw [List.cons_append, lastResultAlone, later, Bool.and_true, ih, others, others,
        List.filter_cons]
      by_cases other : isResult event = true
      · rw [if_pos other, other]
        rfl
      · rw [if_neg other, Bool.eq_false_iff.mpr other]
        rfl

theorem carried_concat {α : Type} (read : Json → Option α) (seen : List Json) (event : Json) :
    carried read (seen ++ [event]) =
      if isResult event then read event <|> carried read seen else carried read seen := by
  rw [carried, List.filter_append, List.filterMap_append]
  by_cases result : isResult event = true
  · rw [if_pos result, List.filter_cons_of_pos result, List.filter_nil]
    cases found : read event with
    | none =>
        rw [List.filterMap_cons_none found, List.filterMap_nil, List.append_nil]
        rfl
    | some value =>
        rw [List.filterMap_cons_some found, List.filterMap_nil, List.getLast?_concat]
        rfl
  · rw [if_neg result, List.filter_cons_of_neg result, List.filter_nil, List.filterMap_nil,
      List.append_nil]
    rfl

theorem limitEventOf_concat (seen : List Json) (event : Json) :
    limitEventOf (seen ++ [event]) = (limitEventIn event <|> limitEventOf seen) := by
  rw [limitEventOf, List.filterMap_append]
  cases found : limitEventIn event with
  | none =>
      rw [List.filterMap_cons_none found, List.filterMap_nil, List.append_nil]
      rfl
  | some value =>
      rw [List.filterMap_cons_some found, List.filterMap_nil, List.getLast?_concat]
      rfl

theorem hitsLimit_concat_iff {seen : List Json} {event : Json} :
    HitsLimit render (seen ++ [event]) ↔ HitsLimit render seen ∨
      isResult event = true ∧ hitsLimit render (limitEventOf seen) event = true := by
  constructor
  · rintro ⟨front, hit, back, split, result, hits⟩
    cases back using List.reverseRecOn with
    | nil =>
        obtain ⟨rfl, same⟩ := List.append_inj' split rfl
        cases same
        exact .inr ⟨result, hits⟩
    | append_singleton back final =>
        rw [← List.cons_append, ← List.append_assoc] at split
        obtain ⟨same, _⟩ := List.append_inj' split rfl
        exact .inl ⟨front, hit, back, same, result, hits⟩
  · rintro (⟨front, hit, back, rfl, result, hits⟩ | ⟨result, hits⟩)
    · exact ⟨front, hit, back ++ [event], by rw [List.append_assoc, List.cons_append], result, hits⟩
    · exact ⟨seen, event, [], rfl, result, hits⟩

/-! ## What the parser holds -/

/-- What a reading holds of what the results carried. -/
structure Carries (render : Rendering) (seen : List Json) (reading : StreamReading) : Prop where
  structured : reading.terminal.structuredOutput = carried (objectUnder "structured_output") seen
  usage : reading.terminal.usage = carried (objectUnder "usage") seen
  modelUsage : reading.terminal.modelUsage = carried (modelUsageOf render) seen
  limitEvent : reading.rateLimitEvent = limitEventOf seen
  limited : reading.terminal.rateLimited = true ↔ HitsLimit render seen

theorem Carries.start (render : Rendering) : Carries render [] {} where
  structured := rfl
  usage := rfl
  modelUsage := rfl
  limitEvent := rfl
  limited := by
    constructor
    · intro limited
      cases limited
    · rintro ⟨front, event, back, split, _⟩
      exact absurd split.symm (List.append_ne_nil_of_right_ne_nil _ (List.cons_ne_nil _ _))

theorem Carries.fold {next : StreamReading} (kept : Carries render seen reading)
    (folded : reading.fold render event = .ok next) : Carries render (seen ++ [event]) next := by
  rw [StreamReading.fold] at folded
  obtain ⟨background, fed, rfl⟩ := map_eq_ok.mp folded
  have inForce : (objectUnder "rate_limit_event" event <|>
      if hasText "type" "rate_limit_event" event then some event else reading.rateLimitEvent) =
        (limitEventIn event <|> limitEventOf seen) := by
    rw [limitEventIn, kept.limitEvent]
    cases objectUnder "rate_limit_event" event with
    | some inner => rfl
    | none =>
        by_cases own : hasText "type" "rate_limit_event" event = true
        · rw [if_pos own, if_pos own]
          rfl
        · rw [if_neg own, if_neg own]
          rfl
  constructor
  · rw [carried_concat, ← kept.structured]
    exact apply_ite Terminal.structuredOutput _ _ _
  · rw [carried_concat, ← kept.usage]
    exact apply_ite Terminal.usage _ _ _
  · rw [carried_concat, ← kept.modelUsage]
    exact apply_ite Terminal.modelUsage _ _ _
  · rw [limitEventOf_concat]
    exact inForce
  · rw [hitsLimit_concat_iff, ← kept.limited]
    dsimp only
    by_cases result : hasText "type" "result" event = true
    · rw [if_pos result, inForce]
      dsimp only [Terminal.fold]
      rw [Bool.or_eq_true]
      exact or_congr_right (iff_and_self.mpr fun _ => result)
    · rw [if_neg result]
      exact ⟨.inl, fun either => either.resolve_right fun hit => result hit.1⟩

theorem carries_run (run : events.foldlM (StreamReading.fold render) {} = .ok reading) :
    Carries render events reading :=
  foldlM_invariant (Carries render) (.start render) Carries.fold run

/-- Events that are no results carry nothing. -/
theorem carried_append {α : Type} (read : Json → Option α) {front back : List Json}
    (none : ∀ event ∈ back, isResult event = false) :
    carried read (front ++ back) = carried read front := by
  have empty : back.filter isResult = [] :=
    List.filter_eq_nil_iff.mpr fun event among => Bool.eq_false_iff.mp (none event among)
  rw [carried, List.filter_append, empty, List.append_nil]
  rfl

theorem hitsLimit_append_iff {front back : List Json}
    (none : ∀ event ∈ back, isResult event = false) :
    HitsLimit render (front ++ back) ↔ HitsLimit render front := by
  induction back using List.reverseRecOn with
  | nil => rw [List.append_nil]
  | append_singleton back event ih =>
      rw [← List.append_assoc, hitsLimit_concat_iff, ih fun other among =>
        none other (List.mem_append_left _ among)]
      refine or_iff_left_of_imp ?_
      rintro ⟨result, _⟩
      rw [none event (List.mem_append_right _ List.mem_cons_self)] at result
      cases result

theorem isResult_of_mem_others {front : List Json} (among : event ∈ others front) :
    isResult event = false := by
  have kept := (List.mem_filter.mp among).2
  rwa [Bool.not_eq_true'] at kept

theorem carried_others {α : Type} (read : Json → Option α) (front : List Json) :
    carried read (others front) = none := by
  rw [← List.nil_append (others front), carried_append read fun _ => isResult_of_mem_others]
  rfl

theorem not_hitsLimit_others (front : List Json) : ¬ HitsLimit render (others front) := by
  rintro ⟨before, event, after, split, result, _⟩
  have among : event ∈ others front := by
    rw [split]
    exact List.mem_append_right _ List.mem_cons_self
  rw [isResult_of_mem_others among] at result
  cases result

/-! ## Verdicts -/

/-- The counts of tokens of a run. -/
structure TokenCounts where
  inputTotal : Option Int
  cacheRead : Option Int
  cacheWrite : Option Int
  uncachedInput : Option Int
  outputTotal : Option Int

def ClaudeUsage.tokens (usage : ClaudeUsage) : TokenCounts :=
  ⟨usage.inputTotal, usage.cacheRead, usage.cacheWrite, usage.uncachedInput, usage.outputTotal⟩

/-- What the parser says of how a run ended. -/
structure RunVerdict where
  succeeded : Bool
  failureSubtype : Option PyText
  rateLimited : Bool
  tokens : Option TokenCounts

def ParsedEvents.verdict (parsed : ParsedEvents) : RunVerdict :=
  ⟨parsed.succeeded, parsed.failureSubtype, parsed.rateLimited,
    parsed.normalizedUsage.map ClaudeUsage.tokens⟩

/-- The counts of four columns, in the order of the source's columns. -/
def tokenColumns : List (Option Int) → Option TokenCounts
  | [uncachedInput, cacheWrite, cacheRead, output] =>
      some ⟨sumCounts [uncachedInput, cacheWrite, cacheRead], cacheRead, cacheWrite, uncachedInput,
        output⟩
  | _ => none

/-- The counts by model, when one of them is readable. -/
def readableTokens (modelUsage : Json) : Option TokenCounts :=
  if (sumModelUsage modelUsage).any Option.isSome then tokenColumns (sumModelUsage modelUsage)
  else none

/-- The counts of the last turn, when there is any entry. -/
def directTokens : Json → Option TokenCounts
  | .object (member :: members) =>
      tokenColumns (["input_tokens", "cache_creation_input_tokens", "cache_read_input_tokens",
        "output_tokens"].map fun key => integerUnder key (.object (member :: members)))
  | _ => none

/-- The columns of the counts by model. -/
theorem sumModelUsage_columns (modelUsage : Json) : ∃ uncachedInput cacheWrite cacheRead output,
    sumModelUsage modelUsage = [uncachedInput, cacheWrite, cacheRead, output] := by
  cases modelUsage with
  | object members => exact ⟨_, _, _, _, rfl⟩
  | null => exact ⟨_, _, _, _, rfl⟩
  | bool _ => exact ⟨_, _, _, _, rfl⟩
  | number _ => exact ⟨_, _, _, _, rfl⟩
  | string _ => exact ⟨_, _, _, _, rfl⟩
  | array _ => exact ⟨_, _, _, _, rfl⟩

/-- The tokens come from the counts by model, and from the last turn where these are unreadable. -/
theorem tokens_of_normalize {terminal : Terminal} {usage : Option ClaudeUsage}
    (normalized : normalizeClaudeUsage terminal = .ok usage) :
    usage.map ClaudeUsage.tokens =
      (terminal.modelUsage.bind readableTokens <|> terminal.usage.bind directTokens) := by
  have priced {uncachedInput cacheWrite cacheRead output : Option Int}
      (found : (coerceUsageCost terminal.totalCostUsd).map (fun cost =>
        some (⟨sumCounts [uncachedInput, cacheWrite, cacheRead], cacheRead, cacheWrite,
          uncachedInput, output, cost⟩ : ClaudeUsage)) = .ok usage) :
      usage.map ClaudeUsage.tokens =
        tokenColumns [uncachedInput, cacheWrite, cacheRead, output] := by
    obtain ⟨cost, _, rfl⟩ := map_eq_ok.mp found
    rfl
  have direct (found : normalizeClaudeUsage { terminal with modelUsage := none } = .ok usage) :
      usage.map ClaudeUsage.tokens = terminal.usage.bind directTokens := by
    rw [normalizeClaudeUsage] at found
    cases carriedUsage : terminal.usage with
    | none =>
        rw [carriedUsage] at found
        cases found
        rfl
    | some value =>
        rw [carriedUsage] at found
        cases value with
        | object members =>
            cases members with
            | nil =>
                cases found
                rfl
            | cons member members => exact priced found
        | null => cases found; rfl
        | bool _ => cases found; rfl
        | number _ => cases found; rfl
        | string _ => cases found; rfl
        | array _ => cases found; rfl
  cases models : terminal.modelUsage with
  | none =>
      apply direct
      rw [← normalized, ← models]
  | some modelUsage =>
      obtain ⟨uncachedInput, cacheWrite, cacheRead, output, columns⟩ :=
        sumModelUsage_columns modelUsage
      rw [Option.bind_some, readableTokens]
      by_cases readable : (sumModelUsage modelUsage).any Option.isSome = true
      · rw [if_pos readable, columns]
        apply priced
        rw [← normalized, normalizeClaudeUsage, models, Option.map_some,
          Option.filter_some, if_pos readable, columns]
        rfl
      · rw [if_neg readable]
        apply direct
        rw [← normalized, normalizeClaudeUsage, normalizeClaudeUsage, models, Option.map_some,
          Option.filter_some, if_neg readable]
        rfl

/-! ## The last result decides -/

/-- The last result says all that an earlier one could leave behind. -/
structure LastSaysAll (render : Rendering) (front : List Json) (last : Json) : Prop where
  /-- An earlier result hit no limit, or the last one hits one when it stands alone. -/
  earlierLimit : HitsLimit render front →
    hitsLimit render (limitEventOf (others front)) last = true
  /-- It hits no limit by an event that an earlier result has. -/
  nestedLimit : hitsLimit render (limitEventOf front) last = true →
    hitsLimit render (limitEventOf (others front)) last = true
  /-- No event of an earlier result hides the limit that it hits, unless that result hit one. -/
  ownLimit : hitsLimit render (limitEventOf (others front)) last = true →
    HitsLimit render front ∨ hitsLimit render (limitEventOf front) last = true
  /-- It has counts by model, or what counts without them is what an earlier result counted. -/
  counts : modelUsageOf render last = none → ∀ tokens,
    (carried (modelUsageOf render) front).bind readableTokens = some tokens →
      (objectUnder "usage" last).bind directTokens = some tokens
  /-- It has a usage of its own where that is read, or no earlier result has one. -/
  usage : objectUnder "usage" last = none →
    (modelUsageOf render last <|> carried (modelUsageOf render) front).bind readableTokens = none →
      (carried (objectUnder "usage") front).bind directTokens = none

/-- The last result of the events says all. -/
def LastDecides (render : Rendering) (events : List Json) : Prop :=
  ∀ front last back, events = front ++ last :: back → isResult last = true →
    (∀ event ∈ back, isResult event = false) → LastSaysAll render front last

/-- What the parser tells of a run whose last result is known. -/
structure Tells (render : Rendering) (front : List Json) (last : Json) (parsed : ParsedEvents) :
    Prop where
  succeeded : parsed.succeeded = resultSucceeded render last
  failureSubtype : parsed.failureSubtype =
    if resultSucceeded render last then none else some (resultSubtype render last)
  limited : parsed.rateLimited = true ↔
    HitsLimit render front ∨ hitsLimit render (limitEventOf front) last = true
  tokens : parsed.normalizedUsage.map ClaudeUsage.tokens =
    ((modelUsageOf render last <|> carried (modelUsageOf render) front).bind readableTokens <|>
      (objectUnder "usage" last <|> carried (objectUnder "usage") front).bind directTokens)

theorem lastResult_eq {front back : List Json} {last : Json} (result : isResult last = true)
    (final : ∀ event ∈ back, isResult event = false) :
    lastResult (front ++ last :: back) = some last := by
  have empty : back.filter (hasText "type" "result") = [] :=
    List.filter_eq_nil_iff.mpr fun event among => Bool.eq_false_iff.mp (final event among)
  have begins : hasText "type" "result" last = true := result
  rw [lastResult, List.filter_append, List.filter_cons_of_pos begins, empty, List.getLast?_concat]

theorem carried_last {α : Type} (read : Json → Option α) {front back : List Json} {last : Json}
    (result : isResult last = true) (final : ∀ event ∈ back, isResult event = false) :
    carried read (front ++ last :: back) = (read last <|> carried read front) := by
  rw [List.append_cons, carried_append read final, carried_concat, if_pos result]

theorem hitsLimit_last_iff {front back : List Json} {last : Json} (result : isResult last = true)
    (final : ∀ event ∈ back, isResult event = false) :
    HitsLimit render (front ++ last :: back) ↔
      HitsLimit render front ∨ hitsLimit render (limitEventOf front) last = true := by
  rw [List.append_cons, hitsLimit_append_iff final, hitsLimit_concat_iff, and_iff_right result]

/-- A run that is parsed has a last result. -/
theorem exists_lastResult (found : (lastResult events).isSome = true) :
    ∃ front last back, events = front ++ last :: back ∧ isResult last = true ∧
      ∀ event ∈ back, isResult event = false := by
  induction events using List.reverseRecOn with
  | nil => cases found
  | append_singleton seen event ih =>
      rw [lastResult_concat] at found
      by_cases result : hasText "type" "result" event = true
      · exact ⟨seen, event, [], rfl, result, fun _ none => absurd none List.not_mem_nil⟩
      · rw [if_neg result] at found
        obtain ⟨front, last, back, rfl, isLast, final⟩ := ih found
        refine ⟨front, last, back ++ [event], by rw [List.append_assoc, List.cons_append],
          isLast, ?_⟩
        exact List.forall_mem_append.mpr
          ⟨final, List.forall_mem_singleton.mpr (Bool.eq_false_iff.mpr result)⟩

variable {text other : PyText} {parsed reduced : ParsedEvents}

/-- What a parse gives is what its reading holds. -/
theorem exists_reading (run : parseStreamJson render text = .ok parsed) :
    ∃ reading : StreamReading, (eventsIn text).foldlM (StreamReading.fold render) {} = .ok reading ∧
      reading.terminal.seen = true ∧ parsed.succeeded = reading.terminal.succeeded ∧
      parsed.failureSubtype = reading.terminal.failureSubtype ∧
      parsed.rateLimited = reading.terminal.rateLimited ∧
      parsed.structuredOutput = reading.terminal.structuredOutput ∧
      normalizeClaudeUsage reading.terminal = .ok parsed.normalizedUsage := by
  rw [parseStreamJson] at run
  obtain ⟨reading, folded, finished⟩ := bind_eq_ok.mp run
  rw [StreamReading.finish] at finished
  by_cases seen : reading.terminal.seen = true
  · rw [if_pos seen] at finished
    obtain ⟨usage, normalized, finished⟩ := bind_eq_ok.mp finished
    obtain ⟨resets, _, finished⟩ := bind_eq_ok.mp finished
    cases finished
    exact ⟨reading, folded, seen, rfl, rfl, rfl, rfl, normalized⟩
  · rw [if_neg seen] at finished
    cases finished

theorem tells_of_parse {front back : List Json} {last : Json}
    (run : parseStreamJson render text = .ok parsed) (split : eventsIn text = front ++ last :: back)
    (result : isResult last = true) (final : ∀ event ∈ back, isResult event = false) :
    Tells render front last parsed := by
  obtain ⟨reading, folded, _, succeeded, failure, limited, _, normalized⟩ := exists_reading run
  have decided := (readingOf_run folded).decided (split ▸ lastResult_eq result final)
  have carries := carries_run folded
  constructor
  · rw [succeeded, decided.verdict]
  · rw [failure, decided.failure]
  · rw [limited, carries.limited, split, hitsLimit_last_iff result final]
  · rw [tokens_of_normalize normalized, carries.modelUsage, carries.usage, split,
      carried_last _ result final, carried_last _ result final]

/-- The tokens are those of the last result alone exactly when it has counts of its own, or the
earlier results have none that show. -/
theorem tokens_eq_iff {models earlierModels usage earlierUsage : Option Json} :
    ((models <|> earlierModels).bind readableTokens <|> (usage <|> earlierUsage).bind directTokens)
    =
        (models.bind readableTokens <|> usage.bind directTokens) ↔
      (models = none → ∀ tokens, earlierModels.bind readableTokens = some tokens →
        usage.bind directTokens = some tokens) ∧
      (usage = none → (models <|> earlierModels).bind readableTokens = none →
        earlierUsage.bind directTokens = none) := by
  have direct : (none <|> (usage <|> earlierUsage).bind directTokens) =
      (none <|> usage.bind directTokens) ↔
        (usage = none → earlierUsage.bind directTokens = none) := by
    cases usage with
    | some usage => exact iff_of_true rfl fun none => absurd none (Option.some_ne_none _)
    | none => exact ⟨fun same _ => same, fun none => none rfl⟩
  cases models with
  | some models =>
      cases readable : readableTokens models with
      | some tokens =>
          simp only [Option.some_or, Option.bind_some, readable, reduceCtorEq, false_implies,
            implies_true, and_true, Option.orElse_eq_orElse, Option.orElse_eq_or]
      | none =>
          have read : ((some models <|> earlierModels).bind readableTokens) = none := readable
          have own : (some models).bind readableTokens = none := readable
          rw [read, own, direct]
          constructor
          · exact fun law =>
              ⟨fun none => absurd none (Option.some_ne_none _), fun absent _ => law absent⟩
          · exact fun law absent => law.2 absent rfl
  | none =>
      have plain : ((none <|> earlierModels : Option Json)) = earlierModels := rfl
      rw [plain]
      cases readable : earlierModels.bind readableTokens with
      | some tokens =>
          constructor
          · intro same
            refine ⟨fun _ other found => ?_, fun _ none => absurd none (Option.some_ne_none _)⟩
            cases found
            exact same.symm
          · exact fun law => (law.1 rfl tokens rfl).symm
      | none =>
          have own : (none : Option Json).bind readableTokens = none := rfl
          rw [own, direct]
          constructor
          · exact fun law => ⟨fun _ _ found => absurd found.symm (Option.some_ne_none _),
              fun absent _ => law absent⟩
          · exact fun law absent => law.2 absent rfl

/-- A run says the same without its earlier results exactly when the last one says all. -/
theorem Tells.verdict_eq_iff {front : List Json} {last : Json}
    (full : Tells render front last parsed) (alone : Tells render (others front) last reduced) :
    parsed.verdict = reduced.verdict ↔ LastSaysAll render front last := by
  have limits : parsed.rateLimited = reduced.rateLimited ↔
      (HitsLimit render front ∨ hitsLimit render (limitEventOf front) last = true ↔
        hitsLimit render (limitEventOf (others front)) last = true) := by
    rw [Bool.eq_iff_iff, full.limited, alone.limited, or_iff_right (not_hitsLimit_others front)]
  have own (value : Option Json) : (value <|> none) = value := by
    cases value with
    | none => rfl
    | some _ => rfl
  have tokens := alone.tokens
  rw [carried_others, carried_others, own, own] at tokens
  have parts : parsed.verdict = reduced.verdict ↔ parsed.rateLimited = reduced.rateLimited ∧
      parsed.normalizedUsage.map ClaudeUsage.tokens =
        reduced.normalizedUsage.map ClaudeUsage.tokens := by
    rw [ParsedEvents.verdict, ParsedEvents.verdict, RunVerdict.mk.injEq, full.succeeded,
      alone.succeeded, full.failureSubtype, alone.failureSubtype]
    simp only [true_and]
  rw [parts, limits, full.tokens, tokens, tokens_eq_iff]
  constructor
  · rintro ⟨limit, counts, usage⟩
    exact ⟨fun earlier => limit.mp (.inl earlier), fun nested => limit.mp (.inr nested), limit.mpr,
      counts, usage⟩
  · intro law
    exact ⟨⟨fun hit => hit.elim law.earlierLimit law.nestedLimit, law.ownLimit⟩, law.counts,
      law.usage⟩

/-- Lines that are no events change nothing. -/
theorem parse_insert {front line back : PyText}
    (ended : front = [] ∨ ∃ start, front = start ++ [10])
    (stray : eventsIn (line ++ [10]) = []) :
    parseStreamJson render (front ++ (line ++ 10 :: back)) =
      parseStreamJson render (front ++ back) := by
  have dropped : eventsIn (line ++ 10 :: back) = eventsIn back := by
    rw [eventsIn_newline, stray, List.nil_append]
  have same : eventsIn (front ++ (line ++ 10 :: back)) = eventsIn (front ++ back) := by
    rcases ended with rfl | ⟨start, rfl⟩
    · exact dropped
    · rw [List.append_assoc, List.append_assoc]
      change eventsIn (start ++ 10 :: (line ++ 10 :: back)) = eventsIn (start ++ 10 :: back)
      rw [eventsIn_newline, dropped, ← eventsIn_newline]
  rw [parseStreamJson, parseStreamJson, same]

/-- What the parser tells of a run, and of the run without its earlier results. -/
structure LastResultLaw (render : Rendering) (text : PyText) (parsed reduced : ParsedEvents) :
    Prop where
  /-- The last result decides the verdict. -/
  verdict : parsed.verdict = reduced.verdict
  /-- The structured output is the last that any result carried. -/
  structured : parsed.structuredOutput =
    carried (objectUnder "structured_output") (eventsIn text)
  /-- Lines that are no events change nothing. -/
  stray : ∀ front line back, text = front ++ back → (front = [] ∨ ∃ start, front = start ++ [10]) →
    eventsIn (line ++ [10]) = [] →
      parseStreamJson render (front ++ (line ++ 10 :: back)) = .ok parsed

/-- The last result decides the verdict of a run exactly when it says all that an earlier one could
leave behind; the rest of the law holds of every run. -/
theorem lastResultLaw_iff (leftOut : eventsIn other = lastResultAlone (eventsIn text))
    (full : parseStreamJson render text = .ok parsed)
    (alone : parseStreamJson render other = .ok reduced) :
    LastResultLaw render text parsed reduced ↔ LastDecides render (eventsIn text) := by
  have verdict {front back : List Json} {last : Json}
    (split : eventsIn text = front ++ last :: back)
      (result : isResult last = true) (final : ∀ event ∈ back, isResult event = false) :
      parsed.verdict = reduced.verdict ↔ LastSaysAll render front last := by
    rw [split, lastResultAlone_eq result final] at leftOut
    exact (tells_of_parse full split result final).verdict_eq_iff
      (tells_of_parse alone leftOut result final)
  obtain ⟨reading, folded, seen, _, _, _, structured, _⟩ := exists_reading full
  constructor
  · intro law front last back split result final
    exact (verdict split result final).mp law.verdict
  · intro decides
    rw [(readingOf_run folded).seenResult] at seen
    obtain ⟨front, last, back, split, result, final⟩ := exists_lastResult seen
    refine ⟨(verdict split result final).mpr (decides front last back split result final),
      structured.trans (carries_run folded).structured, ?_⟩
    intro front line back whole ended stray
    rw [parse_insert ended stray, ← whole, full]

/-- A result that hit a limit. -/
def limitedTurn : PyText :=
  ofString "\x7b\"type\":\"result\",\"is_error\":true,\"api_error_status\":\"429\"\x7d"

/-- A result of success. -/
def wokenEnd : PyText :=
  ofString "\x7b\"type\":\"result\",\"usage\":\x7b\"output_tokens\":3\x7d\x7d"

/-- A run that hits a limit, waits, and ends with success. -/
def wokenRun : PyText := limitedTurn ++ 10 :: wokenEnd

theorem eventsIn_wokenEnd : eventsIn wokenEnd = lastResultAlone (eventsIn wokenRun) := by
  have limited : (eventsIn (limitedTurn ++ [10])).all isResult = true := by decide +kernel
  have woken : (eventsIn wokenEnd).map isResult = [true] := by decide +kernel
  have none : others (eventsIn (limitedTurn ++ [10])) = [] := by
    refine List.filter_eq_nil_iff.mpr fun event among => ?_
    rw [List.all_eq_true.mp limited event among]
    exact Bool.false_ne_true
  obtain ⟨last, rest, shown, result, final⟩ := List.map_eq_cons_iff.mp woken
  cases List.map_eq_nil_iff.mp final
  rw [wokenRun, eventsIn_newline, shown,
    lastResultAlone_eq result fun _ none => absurd none List.not_mem_nil, none, List.nil_append]

theorem exists_parsed (text : PyText)
    (parses : (parseStreamJson plainRendering text).isOk = true) :
    ∃ parsed, parseStreamJson plainRendering text = .ok parsed := by
  cases run : parseStreamJson plainRendering text with
  | error failure =>
      rw [run] at parses
      cases parses
  | ok parsed => exact ⟨parsed, rfl⟩

theorem wokenRun_lastResultLaw_iff : ∃ parsed reduced,
    parseStreamJson plainRendering wokenRun = .ok parsed ∧
      parseStreamJson plainRendering wokenEnd = .ok reduced ∧
      (LastResultLaw plainRendering wokenRun parsed reduced ↔
        LastDecides plainRendering (eventsIn wokenRun)) := by
  obtain ⟨parsed, full⟩ := exists_parsed wokenRun (by decide +kernel)
  obtain ⟨reduced, alone⟩ := exists_parsed wokenEnd (by decide +kernel)
  exact ⟨parsed, reduced, full, alone, lastResultLaw_iff eventsIn_wokenEnd full alone⟩

/-- The run is told to be rate limited, and its last result is a success. -/
theorem not_lastResultLaw_wokenRun :
    ¬ ∀ (render : Rendering) (text other : PyText) (parsed reduced : ParsedEvents),
      eventsIn other = lastResultAlone (eventsIn text) →
        parseStreamJson render text = .ok parsed → parseStreamJson render other = .ok reduced →
          LastResultLaw render text parsed reduced := by
  intro law
  obtain ⟨parsed, full⟩ := exists_parsed wokenRun (by decide +kernel)
  obtain ⟨reduced, alone⟩ := exists_parsed wokenEnd (by decide +kernel)
  have same := (law _ _ _ _ _ eventsIn_wokenEnd full alone).verdict
  have limited : (parseStreamJson plainRendering wokenRun).toOption.map ParsedEvents.rateLimited =
      some true := by decide +kernel
  have free : (parseStreamJson plainRendering wokenEnd).toOption.map ParsedEvents.rateLimited =
      some false := by decide +kernel
  rw [full] at limited
  rw [alone] at free
  cases (Option.some.inj limited).symm.trans
    ((congrArg RunVerdict.rateLimited same).trans (Option.some.inj free))

end Orchestrator.Providers
