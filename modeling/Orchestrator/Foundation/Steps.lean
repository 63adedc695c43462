import Mathlib.Data.List.Basic

/-! # Programs that may stop between two steps

A program passes through states before it ends; a crash leaves the state it was in. What is
said of a program is said of every state it passes through and of its result.
-/

namespace Orchestrator.Foundation

/-- A program: the states after each of its steps, and its value and final state or an error. -/
def Steps (σ ε α : Type) : Type := σ → List σ × Except ε (α × σ)

namespace Steps

variable {σ ε α β : Type}

/-- One program after another. -/
protected def bind (first : Steps σ ε α) (next : α → Steps σ ε β) : Steps σ ε β := fun start =>
  match (first start).2 with
  | .error error => ((first start).1, .error error)
  | .ok (value, state) => ((first start).1 ++ (next value state).1, (next value state).2)

instance : Monad (Steps σ ε) where
  pure value := fun start => ([], .ok (value, start))
  bind := Steps.bind

/-- The state the program is in. -/
def current : Steps σ ε σ := fun start => ([], .ok (start, start))

def raise (error : ε) : Steps σ ε α := fun _ => ([], .error error)

def ofExcept : Except ε α → Steps σ ε α
  | .ok value => pure value
  | .error error => raise error

/-- A single step. -/
def perform (change : σ → σ) : Steps σ ε Unit := fun start =>
  ([change start], .ok ((), change start))

/-- Steps through given states. -/
def performAll (states : σ → List σ) : Steps σ ε Unit := fun start =>
  (states start, .ok ((), (states start).getLast?.getD start))

/-- The program keeps an assertion at every step and ends with a value and state as described. -/
structure Ends (kept : σ → Prop) (program : Steps σ ε α) (start : σ) (post : α → σ → Prop) :
    Prop where
  visits : ∀ state ∈ (program start).1, kept state
  ends : ∃ value final, (program start).2 = .ok (value, final) ∧ post value final

variable {kept : σ → Prop} {start : σ}

theorem ends_pure {value : α} {post : α → σ → Prop} (holds : post value start) :
    Ends kept (pure value : Steps σ ε α) start post :=
  ⟨fun _ among => absurd among List.not_mem_nil, value, start, rfl, holds⟩

theorem ends_current {post : σ → σ → Prop} (holds : post start start) :
    Ends kept (current : Steps σ ε σ) start post :=
  ⟨fun _ among => absurd among List.not_mem_nil, start, start, rfl, holds⟩

theorem ends_ofExcept {value : α} {post : α → σ → Prop} (holds : post value start) :
    Ends kept (ofExcept (.ok value) : Steps σ ε α) start post :=
  ends_pure holds

theorem ends_perform {change : σ → σ} {post : Unit → σ → Prop} (keeps : kept (change start))
    (holds : post () (change start)) : Ends kept (perform change : Steps σ ε Unit) start post :=
  ⟨fun _ among => List.mem_singleton.mp among ▸ keeps, (), _, rfl, holds⟩

theorem ends_performAll {states : σ → List σ} {post : Unit → σ → Prop}
    (keeps : ∀ state ∈ states start, kept state)
    (holds : post () ((states start).getLast?.getD start)) :
    Ends kept (performAll states : Steps σ ε Unit) start post :=
  ⟨keeps, (), _, rfl, holds⟩

/-- The rule of sequence. -/
theorem ends_bind {first : Steps σ ε α} {next : α → Steps σ ε β} {post : β → σ → Prop}
    (ends : Ends kept first start fun value state => Ends kept (next value) state post) :
    Ends kept (first >>= next) start post := by
  obtain ⟨visits, value, state, result, rest⟩ := ends
  have shape : (first >>= next) start =
      ((first start).1 ++ (next value state).1, (next value state).2) := by
    show Steps.bind first next start = _
    rw [Steps.bind, result]
  refine ⟨fun visited among => ?_, ?_⟩
  · rw [shape] at among
    rcases List.mem_append.mp among with before | after
    · exact visits visited before
    · exact rest.visits visited after
  · rw [shape]
    exact rest.ends

/-- The rule of consequence. -/
theorem Ends.mono {program : Steps σ ε α} {post weaker : α → σ → Prop}
    (ends : Ends kept program start post)
    (implies : ∀ value final, post value final → weaker value final) :
    Ends kept program start weaker := by
  obtain ⟨visits, value, final, result, holds⟩ := ends
  exact ⟨visits, value, final, result, implies value final holds⟩

/-- A program that ends has ended its first part. -/
theorem of_result_bind {first : Steps σ ε α} {next : α → Steps σ ε β} {value : β} {final : σ}
    (result : ((first >>= next) start).2 = .ok (value, final)) :
    ∃ middle state, (first start).2 = .ok (middle, state) ∧
      (next middle state).2 = .ok (value, final) := by
  have shape : ((first >>= next) start).2 = (Steps.bind first next start).2 := rfl
  rw [shape, Steps.bind] at result
  cases ended : (first start).2 with
  | error error =>
      rw [ended] at result
      cases result
  | ok pair =>
      rw [ended] at result
      exact ⟨pair.1, pair.2, rfl, result⟩

theorem of_result_current {value final : σ}
    (result : (current start : List σ × Except ε (σ × σ)).2 = .ok (value, final)) :
    value = start ∧ final = start := by
  cases result
  exact ⟨rfl, rfl⟩

theorem of_result_ofExcept {outcome : Except ε α} {value : α} {final : σ}
    (result : ((ofExcept outcome : Steps σ ε α) start).2 = .ok (value, final)) :
    outcome = .ok value ∧ final = start := by
  cases outcome with
  | error error => cases result
  | ok found =>
      cases result
      exact ⟨rfl, rfl⟩

/-- A state that a sequence passes through is one of its first part or of what follows. -/
theorem of_visited_bind {first : Steps σ ε α} {next : α → Steps σ ε β} {visited : σ}
    (among : visited ∈ ((first >>= next) start).1) :
    visited ∈ (first start).1 ∨ ∃ value state, (first start).2 = .ok (value, state) ∧
      visited ∈ (next value state).1 := by
  have shape : ((first >>= next) start).1 = (Steps.bind first next start).1 := rfl
  rw [shape, Steps.bind] at among
  cases ended : (first start).2 with
  | error error =>
      rw [ended] at among
      exact .inl among
  | ok pair =>
      rw [ended] at among
      apply (List.mem_append.mp among).imp_right
      exact fun later => ⟨pair.1, pair.2, rfl, later⟩

theorem not_visited_ofExcept {outcome : Except ε α} {visited : σ} :
    visited ∉ ((ofExcept outcome : Steps σ ε α) start).1 := by
  cases outcome with
  | error error => exact List.not_mem_nil
  | ok value => exact List.not_mem_nil

/-! ## Steps written out -/

theorem current_bind (next : σ → Steps σ ε α) : (current >>= next) start = next start start := rfl

theorem perform_bind (change : σ → σ) (next : Unit → Steps σ ε α) :
    (perform change >>= next) start =
      (change start :: (next () (change start)).1, (next () (change start)).2) := rfl

/-- What follows a program that ends. -/
theorem bind_of_ok {first : Steps σ ε α} {next : α → Steps σ ε β} {visited : List σ} {value : α}
    {state : σ} (ended : first start = (visited, .ok (value, state))) :
    (first >>= next) start = (visited ++ (next value state).1, (next value state).2) := by
  show Steps.bind first next start = _
  rw [Steps.bind, ended]

/-! ## What is said of a program that may raise -/

/-- The program keeps an assertion at every step, and when it ends its value and state are as
described. -/
structure Passes (kept : σ → Prop) (program : Steps σ ε α) (start : σ) (post : α → σ → Prop) :
    Prop where
  visits : ∀ state ∈ (program start).1, kept state
  ends : ∀ value final, (program start).2 = .ok (value, final) → post value final

theorem passes_pure {value : α} {post : α → σ → Prop} (holds : post value start) :
    Passes kept (pure value : Steps σ ε α) start post := by
  refine ⟨fun _ among => absurd among List.not_mem_nil, fun _ _ result => ?_⟩
  cases result
  exact holds

theorem passes_raise {error : ε} {post : α → σ → Prop} :
    Passes kept (raise error : Steps σ ε α) start post := by
  refine ⟨fun _ among => absurd among List.not_mem_nil, fun _ _ result => ?_⟩
  cases result

theorem passes_current {post : σ → σ → Prop} (holds : post start start) :
    Passes kept (current : Steps σ ε σ) start post := by
  refine ⟨fun _ among => absurd among List.not_mem_nil, fun _ _ result => ?_⟩
  cases result
  exact holds

theorem passes_perform {change : σ → σ} {post : Unit → σ → Prop} (keeps : kept (change start))
    (holds : post () (change start)) :
    Passes kept (perform change : Steps σ ε Unit) start post := by
  refine ⟨fun _ among => List.mem_singleton.mp among ▸ keeps, fun _ _ result => ?_⟩
  cases result
  exact holds

/-- The rule of sequence. -/
theorem passes_bind {first : Steps σ ε α} {next : α → Steps σ ε β} {post : β → σ → Prop}
    (passes : Passes kept first start fun value state => Passes kept (next value) state post) :
    Passes kept (first >>= next) start post := by
  refine ⟨fun visited among => ?_, fun value final result => ?_⟩
  · rcases of_visited_bind among with before | ⟨value, state, ended, after⟩
    · exact passes.visits visited before
    · exact (passes.ends value state ended).visits visited after
  · obtain ⟨middle, state, ended, rest⟩ := of_result_bind result
    exact (passes.ends middle state ended).ends value final rest

/-- The rule of consequence. -/
theorem Passes.mono {weaker : σ → Prop} {program : Steps σ ε α} {post loose : α → σ → Prop}
    (passes : Passes kept program start post) (keeps : ∀ state, kept state → weaker state)
    (implies : ∀ value final, post value final → loose value final) :
    Passes weaker program start loose :=
  ⟨fun state among => keeps state (passes.visits state among),
    fun value final result => implies value final (passes.ends value final result)⟩

/-! ## Where a program leaves off -/

/-- The state that a program is in when it stops after a number of its steps, or is through. -/
def leaves (program : Steps σ ε α) (cut : Option Nat) (start : σ) : σ :=
  let visited := (program start).1
  ((cut.elim visited fun count => visited.take count).getLast?).getD start

/-- A program that always ends, in the state that it went through last. -/
def Finishes (program : Steps σ ε α) : Prop :=
  ∀ start, ∃ value, (program start).2 = .ok (value, program.leaves none start)

theorem finishes_pure {value : α} : Finishes (pure value : Steps σ ε α) := fun _ => ⟨value, rfl⟩

theorem finishes_current : Finishes (current : Steps σ ε σ) := fun start => ⟨start, rfl⟩

theorem finishes_perform {change : σ → σ} : Finishes (perform change : Steps σ ε Unit) :=
  fun _ => ⟨(), rfl⟩

theorem finishes_bind {first : Steps σ ε α} {next : α → Steps σ ε β} (finishes : Finishes first)
    (later : ∀ value, Finishes (next value)) : Finishes (first >>= next) := by
  intro start
  obtain ⟨middle, ended⟩ := finishes start
  obtain ⟨value, rest⟩ := later middle (first.leaves none start)
  have shape : (first >>= next) start = ((first start).1 ++ (next middle (first.leaves none start)).1,
      (next middle (first.leaves none start)).2) := bind_of_ok (Prod.ext rfl ended)
  have whole : (first >>= next).leaves none start =
      (next middle).leaves none (first.leaves none start) := by
    show ((first >>= next) start).1.getLast?.getD start = _
    rw [shape, List.getLast?_append]
    show _ = (next middle (first.leaves none start)).1.getLast?.getD (first.leaves none start)
    cases (next middle (first.leaves none start)).1.getLast? with
    | none =>
        rw [Option.none_or]
        rfl
    | some visited => rfl
  exact ⟨value, by rw [whole, shape, rest]⟩

/-- Where a program leaves off is where it began, or a state that it went through. -/
theorem leaves_cases (program : Steps σ ε α) (cut : Option Nat) (start : σ) :
    program.leaves cut start = start ∨ program.leaves cut start ∈ (program start).1 := by
  rw [leaves]
  cases last : (cut.elim (program start).1 fun count => (program start).1.take count).getLast? with
  | none => exact .inl rfl
  | some visited =>
      refine .inr ?_
      have among := List.mem_of_getLast? last
      cases cut with
      | none => exact among
      | some count => exact List.mem_of_mem_take among

end Steps

end Orchestrator.Foundation
