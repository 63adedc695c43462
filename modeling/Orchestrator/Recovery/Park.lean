import Orchestrator.Foundation.Transitions
import Orchestrator.Routing.Providers

/-! # The park of a task

A task whose providers are all exhausted, or that the operator stops, is parked: it stays active
and a later resume goes on with it. One stored instant stands for the time it has been parked.
-/

namespace Orchestrator.Recovery

open Orchestrator.Foundation
open Orchestrator.Routing

/-! ## What an exhausted stage earns -/

/-- `PARK_ELIGIBLE`: the classes after which a task is deferred. -/
def parkEligible : List ErrorClass := transientRetryable ++ [.rateLimited]

/-- `_CONTAINMENT_MANUAL_CLASSES`. -/
def containmentManualClasses : List ErrorClass := [.containmentUnverified, .capabilityUnavailable]

inductive InfraDisposition where
  | manual
  | park
  | terminal

def classifyExhaustion (classes : List ErrorClass) (representative : Option ErrorClass) :
    InfraDisposition :=
  if classes.any (· ∈ containmentManualClasses) then .manual
  else if representative = some .cancelled then .park
  else if classes.any (· ∈ parkEligible) then .park
  else .terminal

/-- What a park reads of the error of a node. -/
structure NodeInfraError where
  errorClass : Option ErrorClass
  resetsAt : Option ResetInstant := none
  deriving DecidableEq

/-! ## A task and its time -/

/-- What a task does, as the time goes by. -/
inductive Activity where
  | running
  | awaitingProviders
  | stoppedByOperator
  | killed
  | terminal
  deriving DecidableEq

/-- The clock in microseconds and the two park columns of the task. The last two fields are kept
apart from them: the time that the task was parked for its providers since it was last started or
continued by the operator, and the other time since the stored instant. -/
structure ParkState where
  now : Int
  activity : Activity := .terminal
  blockedSince : Option Int := none
  blockedUntil : Option Int := none
  unavailable : Nat := 0
  otherwise : Nat := 0

inductive ParkEvent where
  | elapse (micros : Nat)
  | start
  | exhaust (classes : List ErrorClass) (error : NodeInfraError)
  | cancel
  | kill
  | stop
  | resume
  | finish
  | resumeManual
  | finalize
  | reviveForContinue
  deriving DecidableEq

namespace ParkState

/-- `_park_wake_instant`; an instant without an offset does not compare with the clock. -/
def parkWakeInstant (maxBlocked : Nat) (error : NodeInfraError) (parkedSince now : Int) :
    Option Int :=
  if error.errorClass = some .cancelled then none
  else match error.resetsAt with
    | none => none
    | some instant =>
        match instant.parsed with
        | some (.aware wake) =>
          if wake ≤ now then none else some (min wake (parkedSince + maxBlocked))
        | _ => none

/-- `_still_blocked`. -/
def stillBlocked (state : ParkState) : Bool :=
  state.blockedUntil.any fun wake => state.now < wake

/-- `_park_ceiling_exceeded`. -/
def parkCeilingExceeded (maxBlocked : Nat) (state : ParkState) : Bool :=
  state.blockedSince.any fun since => maxBlocked < state.now - since

/-- `_park`: the first instant is kept, the wake instant is the latest. -/
def park (maxBlocked : Nat) (error : NodeInfraError) (state : ParkState) : ParkState :=
  let parkedSince := state.blockedSince.getD state.now
  { state with
    activity :=
      if error.errorClass = some .cancelled then .stoppedByOperator else .awaitingProviders
    blockedSince := some parkedSince
    blockedUntil := parkWakeInstant maxBlocked error parkedSince state.now }

/-- `_go_terminal`, on the park columns. -/
def goTerminal (state : ParkState) : ParkState :=
  { state with
    activity := .terminal
    blockedSince := none
    blockedUntil := none
    unavailable := 0
    otherwise := 0 }

/-- A terminal status that is set out of band leaves the park columns. -/
def settle (state : ParkState) : ParkState := { state with activity := .terminal }

/-- What the operator starts counts from there. -/
def startCounting (activity : Activity) (state : ParkState) : ParkState :=
  { state with
    activity
    unavailable := 0
    otherwise := if state.blockedSince = none then 0 else state.otherwise + state.unavailable }

/-- The time goes by, in what the task does. -/
def elapse (micros : Nat) (state : ParkState) : ParkState :=
  let later := { state with now := state.now + micros }
  if state.activity = .awaitingProviders then
    { later with unavailable := state.unavailable + micros }
  else if state.blockedSince = none then later
  else { later with otherwise := state.otherwise + micros }

/-- A task that is active and not running is one that a resume finds. -/
def resumable (state : ParkState) : Bool :=
  state.activity ∈ [Activity.awaitingProviders, .stoppedByOperator, .killed]

/-- The checks of `_resume_via_engine`, before the engine goes on; a task whose window has not
reopened waits for its providers again. -/
def resume (maxBlocked : Nat) (state : ParkState) : ParkState :=
  if state.parkCeilingExceeded maxBlocked then state.goTerminal
  else if state.stillBlocked then { state with activity := .awaitingProviders }
  else { state with activity := .running }

/-- A step in the life of a task. -/
def step (maxBlocked : Nat) : ParkEvent → ParkState → Option ParkState
  | .elapse micros, state => some (state.elapse micros)
  | .start, state =>
      if state.activity = .terminal then some (state.startCounting .running) else none
  | .exhaust classes error, state =>
      if state.activity = .running then
        match classifyExhaustion classes error.errorClass with
        | .park => some (state.park maxBlocked error)
        | .manual | .terminal => some state.goTerminal
      else none
  | .cancel, state =>
      if state.activity = .running then
        some (state.park maxBlocked ⟨some .cancelled, none⟩)
      else none
  | .kill, state =>
      if state.activity = .running then some { state with activity := .killed } else none
  | .stop, state =>
      if state.activity = .awaitingProviders then
        some { state with activity := .stoppedByOperator }
      else none
  | .resume, state => if state.resumable then some (state.resume maxBlocked) else none
  | .finish, state => if state.activity = .terminal then none else some state.goTerminal
  | .resumeManual, state | .finalize, state => if state.resumable then some state.settle else none
  | .reviveForContinue, state =>
      if state.activity = .terminal then
        some { state.startCounting .killed with blockedUntil := none }
      else none

end ParkState

/-! ## The time that the park ceiling counts

The stored instant is that of the first park, so the ceiling counts all of the time since then: the
time that the providers were unavailable, and the time that the task ran, was stopped or was
terminal in between.
-/

open Orchestrator.Foundation
open Orchestrator.Routing

namespace ParkState

/-- The time since the stored instant is the time parked for the providers and the other time. -/
structure Accounted (state : ParkState) : Prop where
  since : ∀ since ∈ state.blockedSince, state.now = since + state.unavailable + state.otherwise
  unparked : state.blockedSince = none → state.unavailable = 0 ∧ state.otherwise = 0
  awaiting : state.activity = .awaitingProviders → state.blockedSince ≠ none
  woken : state.blockedSince = none → state.blockedUntil = none

variable {maxBlocked : Nat} {state after : ParkState}

theorem accounted_initial (now : Int) : Accounted { now } :=
  ⟨fun _ parked => absurd parked (Option.not_mem_none _), fun _ => ⟨rfl, rfl⟩,
    (nomatch ·), fun _ => rfl⟩

theorem accounted_goTerminal (state : ParkState) : Accounted state.goTerminal :=
  ⟨fun _ parked => absurd parked (Option.not_mem_none _), fun _ => ⟨rfl, rfl⟩,
    (nomatch ·), fun _ => rfl⟩

/-- A task that does something else is accounted for as before. -/
theorem Accounted.enter (accounted : state.Accounted) {activity : Activity}
    (quiet : activity ≠ .awaitingProviders) : Accounted { state with activity } :=
  ⟨accounted.since, accounted.unparked, fun awaiting => absurd awaiting quiet, accounted.woken⟩

theorem Accounted.park (accounted : state.Accounted) (error : NodeInfraError) :
    (state.park maxBlocked error).Accounted := by
  refine ⟨fun since isSince => ?_, (nomatch ·), fun _ => Option.some_ne_none _, (nomatch ·)⟩
  cases isSince
  change state.now = state.blockedSince.getD state.now + state.unavailable + state.otherwise
  cases parked : state.blockedSince with
  | none =>
      obtain ⟨noUnavailable, noOther⟩ := accounted.unparked parked
      rw [noUnavailable, noOther, Option.getD_none]
      simp
  | some since => exact accounted.since since parked

theorem Accounted.startCounting (accounted : state.Accounted) {activity : Activity}
    (quiet : activity ≠ .awaitingProviders) : (state.startCounting activity).Accounted := by
  refine ⟨fun since isSince => ?_, fun none => ⟨rfl, if_pos none⟩,
    fun awaiting => absurd awaiting quiet, accounted.woken⟩
  have parked : state.blockedSince ≠ none := by
    rw [show state.blockedSince = some since from isSince]
    exact Option.some_ne_none since
  have counted := accounted.since since isSince
  change state.now = since + (0 : Nat) +
    ((if state.blockedSince = none then 0 else state.otherwise + state.unavailable : Nat) : Int)
  rw [if_neg parked]
  omega

theorem Accounted.elapse (accounted : state.Accounted) (micros : Nat) :
    (state.elapse micros).Accounted := by
  rw [ParkState.elapse]
  split
  · next awaiting =>
    refine ⟨fun since isSince => ?_, fun none => ?_, fun _ => accounted.awaiting awaiting,
      accounted.woken⟩
    · have counted := accounted.since since isSince
      dsimp only
      omega
    · exact absurd none (accounted.awaiting awaiting)
  · next elsewhere =>
    split
    · next none =>
      refine ⟨fun since isSince => ?_, fun _ => accounted.unparked none,
        fun awaiting => absurd awaiting elsewhere, accounted.woken⟩
      rw [show state.blockedSince = some since from isSince] at none
      cases none
    · next parked =>
      refine ⟨fun since isSince => ?_, fun none => absurd none parked,
        fun awaiting => absurd awaiting elsewhere, accounted.woken⟩
      have counted := accounted.since since isSince
      dsimp only
      omega

theorem accounted_step {event : ParkEvent} (moved : step maxBlocked event state = some after)
    (accounted : state.Accounted) : after.Accounted := by
  cases event with
  | elapse micros =>
      cases moved
      exact accounted.elapse micros
  | start =>
      rw [step] at moved
      split at moved <;> cases moved
      exact accounted.startCounting (by decide)
  | exhaust classes error =>
      rw [step] at moved
      split at moved
      · split at moved <;> cases moved
        · exact accounted.park error
        · exact accounted_goTerminal state
        · exact accounted_goTerminal state
      · cases moved
  | cancel =>
      rw [step] at moved
      split at moved <;> cases moved
      exact accounted.park _
  | kill =>
      rw [step] at moved
      split at moved <;> cases moved
      exact accounted.enter (by decide)
  | stop =>
      rw [step] at moved
      split at moved <;> cases moved
      exact accounted.enter (by decide)
  | resume =>
      rw [step] at moved
      split at moved <;> cases moved
      rw [resume]
      split
      · exact accounted_goTerminal state
      · split
        · next blocked =>
          refine ⟨accounted.since, accounted.unparked, fun _ none => ?_, accounted.woken⟩
          rw [stillBlocked, accounted.woken none] at blocked
          cases blocked
        · exact accounted.enter (by decide)
  | finish =>
      rw [step] at moved
      split at moved <;> cases moved
      exact accounted_goTerminal state
  | resumeManual | finalize =>
      rw [step] at moved
      split at moved <;> cases moved
      exact accounted.enter (by decide)
  | reviveForContinue =>
      rw [step] at moved
      split at moved <;> cases moved
      have counted := @Accounted.startCounting _ accounted .killed (by decide)
      exact ⟨counted.since, counted.unparked, counted.awaiting, fun _ => rfl⟩

theorem accounted_of_run {now : Int} {transitions : List (Transition ParkState ParkEvent)}
    {last : ParkState} (run : Run (step maxBlocked) { now } transitions last) :
    ∀ transition ∈ transitions, transition.before.Accounted := by
  have always : ∀ transition ∈ transitions, True := fun _ _ => trivial
  exact (run.invariant (accounted_initial now) (fun _ moved _ => accounted_step moved) always).1

/-- The ceiling is exceeded by the time parked for the providers and the other time together. -/
theorem parkCeilingExceeded_iff (accounted : state.Accounted) :
    state.parkCeilingExceeded maxBlocked = true ↔
      maxBlocked < state.unavailable + state.otherwise := by
  rw [parkCeilingExceeded]
  cases parked : state.blockedSince with
  | none =>
      obtain ⟨noUnavailable, noOther⟩ := accounted.unparked parked
      rw [noUnavailable, noOther]
      exact ⟨(nomatch ·), fun below => absurd below (Nat.not_lt_zero _)⟩
  | some since =>
      have counted := accounted.since since parked
      rw [Option.any_some, decide_eq_true_eq]
      omega

end ParkState

open ParkState

/-- In any life of a task, the ceiling fails it only for time parked for its providers, exactly
when at each resume the other time makes no difference: all of the time since the stored instant is
within the ceiling, or the time parked for the providers exceeds it alone. -/
theorem ceiling_counts_unavailable_iff {maxBlocked : Nat} {now : Int}
    {transitions : List (Transition ParkState ParkEvent)} {last : ParkState}
    (run : Run (step maxBlocked) { now } transitions last) :
    (∀ transition ∈ transitions, transition.event = .resume →
        transition.before.parkCeilingExceeded maxBlocked = true →
          maxBlocked < transition.before.unavailable) ↔
      ∀ transition ∈ transitions, transition.event = .resume →
        transition.before.unavailable + transition.before.otherwise ≤ maxBlocked ∨
          maxBlocked < transition.before.unavailable := by
  have accounted := accounted_of_run run
  refine forall₃_congr fun transition among _ => ?_
  rw [parkCeilingExceeded_iff (accounted transition among), imp_iff_not_or, Nat.not_lt]

/-- The exhaustion of a stage by a rate limit, with no reset instant. -/
def rateLimit : ParkEvent := .exhaust [.rateLimited] ⟨some .rateLimited, none⟩

/-- Six hours and a second of one outage, for a ceiling of six hours. -/
theorem long_outage_fails :
    ∃ transitions last, Run (step 21600000000) { now := 0 } transitions last ∧
      (∃ transition ∈ transitions, transition.event = .resume ∧
        transition.before.parkCeilingExceeded 21600000000 = true) ∧
      ∀ transition ∈ transitions, transition.event = .resume →
        transition.before.parkCeilingExceeded 21600000000 = true →
          21600000000 < transition.before.unavailable := by
  have replays : (replay (step 21600000000) { now := 0 }
      [.start, .elapse 5, rateLimit, .elapse 21601000000, .resume]).any (fun replayed =>
        replayed.1.any (fun transition => decide (transition.event = .resume) &&
          transition.before.parkCeilingExceeded 21600000000) &&
        replayed.1.all fun transition => decide (transition.event = .resume →
          transition.before.unavailable + transition.before.otherwise ≤ 21600000000 ∨
            21600000000 < transition.before.unavailable)) = true := by
    decide
  obtain ⟨⟨transitions, last⟩, replayed, both⟩ := (Option.any_eq_true _ _).mp replays
  rw [Bool.and_eq_true] at both
  obtain ⟨transition, among, fails⟩ := List.any_eq_true.mp both.1
  rw [Bool.and_eq_true, decide_eq_true_eq] at fails
  have run := run_of_replay replayed
  refine ⟨transitions, last, run, ⟨transition, among, fails⟩, ?_⟩
  apply (ceiling_counts_unavailable_iff run).mpr
  exact fun transition among => of_decide_eq_true (List.all_eq_true.mp both.2 transition among)

/-- Two outages of a second each, seven hours of work apart, fail a task whose ceiling is six
hours. -/
theorem short_outages_fail :
    ∃ transitions last, Run (step 21600000000) { now := 0 } transitions last ∧
      ∃ transition ∈ transitions, transition.event = .resume ∧
        transition.before.parkCeilingExceeded 21600000000 = true ∧
          transition.before.unavailable = 2000000 := by
  have replays : (replay (step 21600000000) { now := 0 }
      [.start, rateLimit, .elapse 1000000, .resume, .elapse 25200000000, rateLimit,
        .elapse 1000000, .resume]).any (fun replayed =>
          replayed.1.any fun transition => decide (transition.event = .resume ∧
            transition.before.parkCeilingExceeded 21600000000 = true ∧
              transition.before.unavailable = 2000000)) = true := by
    decide
  obtain ⟨⟨transitions, last⟩, replayed, found⟩ := (Option.any_eq_true _ _).mp replays
  obtain ⟨transition, among, fails⟩ := List.any_eq_true.mp found
  exact ⟨transitions, last, run_of_replay replayed, transition, among, of_decide_eq_true fails⟩

end Orchestrator.Recovery
