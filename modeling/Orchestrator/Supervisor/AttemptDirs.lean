import Mathlib.Data.List.Nodup
import Orchestrator.Foundation.NumberedNames
import Orchestrator.Routing.Attempts

/-! # The directories of provider launches

Every invocation of a provider makes a directory that must not exist, named by the node, the run,
the attempt and the provider. The runs of graph nodes have numbers from the database; the turns of
the supervisor share one name, and each has a number of its own choosing.
-/

namespace Orchestrator.Supervisor

open Orchestrator.Foundation (toString_injective toList_toString)
open Orchestrator.Flow (ProviderId)
open Orchestrator.Routing

/-! ## Directories -/

/-- `f"{number:0{width}d}"`. -/
def padded (width number : Nat) : String :=
  String.ofList (List.replicate (width - (Nat.toDigits 10 number).length) '0' ++
    Nat.toDigits 10 number)

theorem padded_injective (width : Nat) : Function.Injective (padded width) := by
  intro first second same
  have letters := String.ofList_injective same
  have value : ∀ number : Nat, Nat.ofDigitChars 10
      (List.replicate (width - (Nat.toDigits 10 number).length) '0' ++ Nat.toDigits 10 number) 0 =
        number := by
    intro number
    rw [Nat.ofDigitChars_append, Nat.ofDigitChars_replicate_zero, Nat.mul_zero,
      Nat.ofDigitChars_ten_toDigits]
  calc
    first = _ := (value first).symm
    _ = _ := by rw [letters]
    _ = second := value second

/-- The components of an attempt's directory below the artifacts root. -/
def attemptDir (taskId nodeId : String) (attempt : Nat) (provider : ProviderId) (nodeRunId : Nat)
    (subtask : Option Nat) : List String :=
  ["logs", taskId, "stages", nodeId] ++
    (subtask.map fun order => "sub-" ++ padded 2 order).toList ++
    ["run-" ++ padded 6 nodeRunId, toString attempt ++ "-" ++ provider.value]

/-- The number of an attempt and its provider are read back from the name of the directory. -/
theorem attemptName_inj {attempt other : Nat} {provider rival : ProviderId} :
    toString attempt ++ "-" ++ provider.value = toString other ++ "-" ++ rival.value ↔
      attempt = other ∧ provider = rival := by
  refine ⟨fun same => ?_, by rintro ⟨rfl, rfl⟩; rfl⟩
  have letters := congrArg String.toList same
  simp only [String.toList_append, List.append_assoc] at letters
  have digits : ∀ number : Nat, ∀ letter ∈ (toString number).toList, letter ≠ '-' := by
    intro number letter among
    rw [toList_toString] at among
    have digit := Nat.isDigit_of_mem_toDigits (by decide) (by decide) among
    rintro rfl
    cases digit
  have cut : ∀ (number : Nat) (rest : List Char),
      ((toString number).toList ++ ("-".toList ++ rest)).takeWhile (· ≠ '-') =
        (toString number).toList := by
    intro number rest
    rw [List.takeWhile_append_of_pos fun letter among =>
      decide_eq_true (digits number letter among)]
    exact List.append_nil _
  have numbers := congrArg (List.takeWhile (· ≠ '-')) letters
  rw [cut, cut] at numbers
  rw [numbers, List.append_right_inj, List.append_right_inj] at letters
  refine ⟨toString_injective (String.toList_inj.mp numbers), ?_⟩
  cases provider <;> cases rival <;> first | rfl | (exact absurd letters (by decide))

/-- The directories of the launches of a task: without a subtask they tell everything apart. -/
theorem attemptDir_inj {taskId nodeId other : String} {attempt attempt' : Nat}
    {provider provider' : ProviderId} {nodeRunId nodeRunId' : Nat} :
    attemptDir taskId nodeId attempt provider nodeRunId none =
        attemptDir taskId other attempt' provider' nodeRunId' none ↔
      nodeId = other ∧ nodeRunId = nodeRunId' ∧ attempt = attempt' ∧ provider = provider' := by
  simp only [attemptDir, Option.map_none, Option.toList_none, List.append_nil, List.cons_append,
    List.nil_append, List.cons.injEq, true_and, and_true, String.append_right_inj, attemptName_inj,
    (padded_injective 6).eq_iff]

/-- The directory already exists. -/
inductive FileExistsError where
  | attemptDir (path : List String)

instance lawfulBEq_paths : LawfulBEq (List String) := inferInstance

/-- `create_attempt_dir`, beside the directories that were made. -/
def createAttemptDir (made : List (List String)) (path : List String) :
    Except FileExistsError (List (List String)) :=
  if path ∈ made then .error (.attemptDir path) else .ok (made ++ [path])

/-- Directories are made one after another exactly when none is asked for twice. -/
theorem foldlM_createAttemptDir {made asked : List (List String)} (distinct : made.Nodup) :
    (∃ after, asked.foldlM createAttemptDir made = .ok after) ↔ (made ++ asked).Nodup := by
  induction asked generalizing made with
  | nil => exact ⟨fun _ => by rwa [List.append_nil], fun _ => ⟨made, rfl⟩⟩
  | cons path asked ih =>
      rw [List.foldlM_cons, createAttemptDir]
      by_cases before : path ∈ made
      · rw [if_pos before]
        refine ⟨nofun, fun all => ?_⟩
        exact absurd List.mem_cons_self (List.disjoint_of_nodup_append all before)
      · rw [if_neg before]
        have grown : (made ++ [path]).Nodup :=
          List.nodup_append.mpr ⟨distinct, List.nodup_singleton path, by
            rintro other among _ single rfl
            rw [List.mem_singleton.mp single] at among
            exact before among⟩
        rw [← List.singleton_append (l := asked), ← List.append_assoc]
        exact ih grown

/-! ## Turns -/

/-- `_SUPERVISOR_IDENTITY`. -/
def supervisorIdentity : String := "supervisor"

/-- `_HANDOFF_RUN_ID_BASE`. -/
def handoffRunIdBase : Nat := 990000

/-- What a stage is run for: a run of a graph node, or a turn of the supervisor. -/
inductive TurnSource where
  | node (nodeId : String) (runId : Nat)
  | observe (runId : Nat)
  | handoff (subtaskOrder : Nat)
  | finalize

/-- The node id of the request. -/
def TurnSource.name : TurnSource → String
  | .node nodeId _ => nodeId
  | _ => supervisorIdentity

/-- The node run id of the request. -/
def TurnSource.number : TurnSource → Nat
  | .node _ runId => runId
  | .observe runId => runId
  | .handoff subtaskOrder => handoffRunIdBase + subtaskOrder
  | .finalize => 0

/-- A stage, and how many of its exchanges were made before it ended or the process did. -/
structure Turn where
  source : TurnSource
  call : StageCall
  answers : Nat → StageAnswers
  exchanges : Nat

namespace Turn

/-- The providers a turn runs, with their attempt numbers. -/
def invocations (turn : Turn) : List (ProviderId × Nat) :=
  runsOf (turn.call.runStage turn.answers turn.exchanges).events

/-- The directories a turn asks for; the adapter gives no subtask. -/
def directories (taskId : String) (turn : Turn) : List (List String) :=
  turn.invocations.map fun invocation =>
    attemptDir taskId turn.source.name invocation.2 invocation.1 turn.source.number none

/-- The attempts of one turn are numbered, so that it asks for no directory twice. -/
theorem nodup_invocations (turn : Turn) : (turn.invocations.map Prod.snd).Nodup := by
  have kept := turn.call.runStage_kept turn.answers turn.exchanges
  have paid : turn.call.Paid (turn.call.runStage turn.answers turn.exchanges).events := by
    rw [StageCall.Kept] at kept
    rcases stopped : (turn.call.runStage turn.answers turn.exchanges).result with _ | outcome | _
    · rw [stopped] at kept
      exact kept.ledger.paid
    · rw [stopped] at kept
      exact kept.1
    · rw [stopped] at kept
      exact kept
  rw [invocations, paid.numbered]
  exact List.nodup_range'

theorem nodup_directories (taskId : String) (turn : Turn) : (turn.directories taskId).Nodup := by
  refine List.Nodup.map_on ?_ (List.Nodup.of_map _ turn.nodup_invocations)
  rintro ⟨provider, attempt⟩ - ⟨other, number⟩ - same
  obtain ⟨-, -, attempts, providers⟩ := attemptDir_inj.mp same
  exact Prod.ext providers attempts

/-- Two turns ask for different directories unless they share name, number and an invocation. -/
theorem disjoint_directories {taskId : String} {first second : Turn} :
    List.Disjoint (first.directories taskId) (second.directories taskId) ↔
      (first.source.name = second.source.name → first.source.number = second.source.number →
        List.Disjoint first.invocations second.invocations) := by
  constructor
  · intro apart names numbers invocation here there
    refine apart (List.mem_map_of_mem here) ?_
    rw [names, numbers]
    exact List.mem_map_of_mem there
  · intro apart path here there
    obtain ⟨⟨provider, attempt⟩, among, rfl⟩ := List.mem_map.mp here
    obtain ⟨⟨other, number⟩, among', same⟩ := List.mem_map.mp there
    obtain ⟨names, numbers, attempts, providers⟩ := attemptDir_inj.mp same
    dsimp only at attempts providers
    subst attempts providers
    exact apart names.symm numbers.symm among among'

end Turn

end Orchestrator.Supervisor
