import Orchestrator.Foundation.Transitions
import Orchestrator.Git.ChainCompaction

/-! # A chain of tasks on one pull request

The tasks of a branch are published onto one pull request, which the first of them opens. A task
whose publication is recorded is not published again, until it is rerun.
-/

namespace Orchestrator.Git

open Orchestrator.Foundation PyText MarkedText TaskFile

/-- What a task publishes: its title, the text of its body file when it can be read, and the path of
the body file in the repository when it is committed there. -/
structure Publication where
  taskId : PyText
  title : PyText
  body : Option PyText
  committed : Option PyText

/-- Which of the calls of `gh` succeed. -/
structure GhAnswers where
  listed : Bool := true
  created : Bool := true
  viewed : Bool := true
  edited : Bool := true

/-- The open pull request of the branch: its title, its body, the body it was opened with, and the
tasks published onto it, in the order of their first publication. -/
structure PullRequest where
  title : PyText
  body : PyText
  opened : PyText
  tasks : List PyText

/-- The pull request, and the tasks whose publication is recorded as completed. -/
structure Chain where
  pull : Option PullRequest := none
  completed : List PyText := []

inductive ChainEvent
  /-- `create_pr`, up to its record or not. -/
  | publish (publication : Publication) (answers : GhAnswers) (recorded : Bool)
  /-- A rerun of a task, which clears its publication. -/
  | rerun (taskId : PyText)

namespace Publication

/-- The block of comments that a section begins with, after its mark. -/
def markerBlock (publication : Publication) : PyText :=
  taskTag publication.taskId ++
    match publication.committed with
    | none => []
    | some path =>
      ofString "\n" ++ (summaryPointerPrefix ++ (ofString " " ++ (path ++ ofString " -->")))

/-- What is read of the body file for a section. -/
def summary (publication : Publication) : PyText := strip (publication.body.getD [])

/-- The section of a task, after its mark. -/
def sectionText (publication : Publication) : PyText :=
  publication.markerBlock ++ (ofString "\n\n## " ++ (publication.title ++ (blankLine ++
    (publication.summary ++ ofString "\n"))))

end Publication

namespace PullRequest

/-- The title of a chain of a number of tasks. -/
def chainTitle (branch : PyText) (tasks : Nat) : PyText :=
  ofString (toString tasks) ++ (ofString " tasks on " ++ branch)

/-- `_pr_body`, of a text that `gh` ends with a line end. -/
def shownBody (pull : PullRequest) : PyText := pull.body.rdropWhile (· = newline)

/-- `_append_reused_pr_body`. -/
def appendReusedPrBody (branch : PyText) (publication : Publication) (answers : GhAnswers)
    (pull : PullRequest) : PullRequest :=
  if answers.viewed = false ∨ taskMarker publication.taskId <:+: pull.shownBody then pull
  else
    let appended := rstrip pull.shownBody ++
      (sectionSeparator ++ (taskMarkerPrefix ++ publication.sectionText))
    if answers.edited then
      { pull with
        title := chainTitle branch (count taskMarkerPrefix appended + 1)
        body := boundPrBody appended }
    else pull

/-- A task was published onto the pull request. -/
def published (taskId : PyText) (pull : PullRequest) : PullRequest :=
  { pull with tasks := if taskId ∈ pull.tasks then pull.tasks else pull.tasks ++ [taskId] }

end PullRequest

namespace Chain

/-- `_record_completed`, or a crash before it. -/
def record (taskId : PyText) (recorded : Bool) (chain : Chain) : Chain :=
  if recorded then { chain with completed := taskId :: chain.completed } else chain

/-- `create_pr`. A second pull request for the branch is refused. -/
def createPr (branch : PyText) (publication : Publication) (answers : GhAnswers) (recorded : Bool)
    (chain : Chain) : Chain :=
  if publication.taskId ∈ chain.completed then chain
  else
    match chain.pull with
    | some pull =>
        if answers.listed then
          let reused := pull.appendReusedPrBody branch publication answers
          { chain with pull := some (reused.published publication.taskId) }.record
            publication.taskId recorded
        else chain
    | none =>
        match publication.body with
        | some body =>
            if answers.created then
              { chain with
                pull := some ⟨publication.title, body, body, [publication.taskId]⟩ }.record
                publication.taskId recorded
            else chain
        | none => chain

def step (branch : PyText) : ChainEvent → Chain → Option Chain
  | .publish publication answers recorded, chain =>
      if isValidTaskId publication.taskId then
        some (chain.createPr branch publication answers recorded)
      else none
  | .rerun taskId, chain =>
      some { chain with completed := chain.completed.filter (· ≠ taskId) }

end Chain

end Orchestrator.Git

/-! ## The tasks that a chain's pull request lists

The pull request lists each task once, as long as its creating task is not published onto it again,
the first publication of every other task reaches it, and no summary has the mark of a section.
-/

namespace Orchestrator.Git

open Orchestrator.Foundation PyText MarkedText TaskFile

/-! ## The text of a section -/

/-- The mark of a section begins nowhere in the mark of a summary. -/
theorem quiet_summaryPointerPrefix (after : PyText) :
    Quiet taskMarkerPrefix summaryPointerPrefix after := by
  have whole : summaryPointerPrefix = ofChar '<' :: ofString "!-- worc-summary:" := rfl
  intro rest some isSuffix begins
  rw [whole] at isSuffix
  rcases List.suffix_cons_iff.mp isSuffix with rfl | later
  · rcases List.prefix_or_prefix_of_prefix begins (List.prefix_append _ after) with within | within
    · exact absurd within (by decide)
    · exact absurd within (by decide)
  · have marked : taskMarkerPrefix = ofChar '<' :: ofString "!-- worc-task:" := rfl
    have quiet : Quiet taskMarkerPrefix (ofString "!-- worc-summary:") after := by
      rw [marked]
      exact quiet_of_not_mem (by decide)
    exact quiet rest some later begins

namespace Publication

/-- Nothing that a task publishes has the mark of a section. -/
structure Unmarked (publication : Publication) : Prop where
  title : Free taskMarkerPrefix publication.title
  body : ∀ body ∈ publication.body, Free taskMarkerPrefix body
  path : ∀ path ∈ publication.committed, Free taskMarkerPrefix path

variable {publication : Publication}

/-- What follows the path of a summary continues no mark that the path ends with. -/
theorem free_path {path after : PyText} (free : Free taskMarkerPrefix path)
    (later : Free taskMarkerPrefix after) :
    Free taskMarkerPrefix (path ++ (ofString " -->" ++ after)) := by
  refine free.append_of_ends (free_append_of_not_mem (by decide) later) ?_
  have apart : ∀ ending ∈ taskMarkerPrefix.tails, ending ≠ [] →
      ¬ ending <+: ofString " -->" ∧ ¬ ofString " -->" <+: ending := by
    decide
  intro ending isTail some begins
  rcases List.prefix_or_prefix_of_prefix begins (List.prefix_append _ after) with within | within
  · exact (apart ending isTail some).1 within
  · exact (apart ending isTail some).2 within

theorem Unmarked.summary (unmarked : publication.Unmarked) :
    Free taskMarkerPrefix publication.summary := by
  rw [Publication.summary]
  cases read : publication.body with
  | none => exact free_of_not_mem List.not_mem_nil
  | some body => exact (unmarked.body body read).of_isInfix (strip_isInfix body)

theorem Unmarked.afterBlock (unmarked : publication.Unmarked) :
    Free taskMarkerPrefix (ofString "\n\n## " ++ (publication.title ++ (blankLine ++
      (publication.summary ++ ofString "\n")))) := by
  have summary := unmarked.summary.append (free_of_not_mem (by decide))
    (apart_of_not_mem (by decide) : ∀ point ∈ (ofString "\n").head?, point ∉ taskMarkerPrefix)
  refine free_append_of_not_mem (by decide) (unmarked.title.append ?_ ?_)
  · exact free_append_of_not_mem (by decide) summary
  · exact apart_of_not_mem (by decide)

/-- A section has no mark but its own. -/
theorem Unmarked.sectionText (unmarked : publication.Unmarked)
    (valid : isValidTaskId publication.taskId = true) :
    Free taskMarkerPrefix publication.sectionText := by
  rw [Publication.sectionText, Publication.markerBlock, List.append_assoc]
  refine free_append_of_not_mem (mark_not_mem_taskTag valid) ?_
  cases committed : publication.committed with
  | none =>
      dsimp only
      rw [List.nil_append]
      exact unmarked.afterBlock
  | some path =>
      have pointed := free_path (unmarked.path path committed) unmarked.afterBlock
      have blank : Free taskMarkerPrefix (ofString " " ++ (path ++ (ofString " -->" ++
          (ofString "\n\n## " ++ (publication.title ++ (blankLine ++
            (publication.summary ++ ofString "\n"))))))) :=
        free_append_of_not_mem (by decide) pointed
      have block := Free.append_of_quiet (quiet_summaryPointerPrefix _) blank
      dsimp only
      rw [List.append_assoc, List.append_assoc, List.append_assoc, List.append_assoc]
      exact free_append_of_not_mem (by decide) block

end Publication

/-! ## The listed tasks -/

namespace PullRequest

/-- The body is that of the creating task and one section for each of the others, and the title
counts them all. -/
def ListsOnce (branch : PyText) (pull : PullRequest) : Prop :=
  ∃ creator followers head sections, pull.tasks = creator :: followers ∧ pull.tasks.Nodup ∧
    splitBefore sectionSeparator taskMarkerPrefix pull.body = head :: sections ∧
    rstrip head = rstrip pull.opened ∧
    List.Forall₂ (fun task text => taskMarker task <+: text) followers sections ∧
    (followers ≠ [] → pull.title = chainTitle branch pull.tasks.length)

/-- What a publication keeps of the pull request. -/
structure Sound (branch : PyText) (creator : PyText) (followers : List PyText)
    (pull : PullRequest) : Prop where
  tasks : pull.tasks = creator :: followers
  once : pull.tasks.Nodup
  lists : Lists pull.opened pull.body followers
  title : followers ≠ [] → pull.title = chainTitle branch pull.tasks.length

variable {branch creator : PyText} {followers : List PyText} {publication : Publication}
  {answers : GhAnswers} {pull : PullRequest}

theorem Sound.listsOnce (sound : pull.Sound branch creator followers) : pull.ListsOnce branch := by
  obtain ⟨head, sections, split, same, marked⟩ := sound.lists.splitBefore
  exact ⟨creator, followers, head, sections, sound.tasks, sound.once, split, same, marked,
    sound.title⟩

theorem Sound.shownBody (sound : pull.Sound branch creator followers) :
    Lists pull.opened pull.shownBody followers := by
  refine sound.lists.rdropWhile fun point ended => ?_
  rw [of_decide_eq_true ended]
  decide

/-- A pull request opened by a task has no section. -/
theorem sound_opened (title : PyText) {body : PyText} (free : Free taskMarkerPrefix body) :
    (⟨title, body, body, [creator]⟩ : PullRequest).Sound branch creator [] :=
  ⟨rfl, List.nodup_singleton creator, .of_free free, fun some => absurd rfl some⟩

instance (publication : Publication) : Decidable publication.Unmarked :=
  decidable_of_iff (Free taskMarkerPrefix publication.title ∧
    (∀ body ∈ publication.body, Free taskMarkerPrefix body) ∧
    ∀ path ∈ publication.committed, Free taskMarkerPrefix path)
    ⟨fun free => ⟨free.1, free.2.1, free.2.2⟩, fun unmarked => ⟨unmarked.1, unmarked.2, unmarked.3⟩⟩

/-- The publication of a task leaves no second section for it, and leaves out none. -/
def Counts (publication : Publication) (answers : GhAnswers) (pull : PullRequest) : Prop :=
  if pull.tasks.head? = some publication.taskId then (answers.viewed && answers.edited) = false
  else publication.taskId ∈ pull.tasks ∨
    (answers.viewed && answers.edited) = true ∧ publication.Unmarked

instance (publication : Publication) (answers : GhAnswers) (pull : PullRequest) :
    Decidable (pull.Counts publication answers) :=
  inferInstanceAs (Decidable (if pull.tasks.head? = some publication.taskId then
    (answers.viewed && answers.edited) = false else _ ∨ _))

theorem published_of_mem (among : publication.taskId ∈ pull.tasks) :
    pull.published publication.taskId = pull := by
  rw [published, if_pos among]

/-- A new task has its section at the end. -/
theorem Sound.appended (sound : pull.Sound branch creator followers)
    (valid : isValidTaskId publication.taskId = true) (unmarked : publication.Unmarked) :
    Lists pull.opened (rstrip pull.shownBody ++
      (sectionSeparator ++ (taskMarkerPrefix ++ publication.sectionText)))
      (followers ++ [publication.taskId]) := by
  have stripped : Lists pull.opened (rstrip pull.shownBody) followers :=
    sound.shownBody.rdropWhile fun _ blank => blank
  have free := unmarked.sectionText valid
  have split : publication.sectionText = taskTag publication.taskId ++
      publication.sectionText.drop (taskTag publication.taskId).length := by
    rw [Publication.sectionText, Publication.markerBlock, List.append_assoc, List.drop_left]
  rw [split] at free ⊢
  exact stripped.append valid free

/-- A counted publication of a task that is listed leaves the pull request as it is. -/
theorem Sound.appendReusedPrBody_of_mem (sound : pull.Sound branch creator followers)
    (valid : isValidTaskId publication.taskId = true) (counts : pull.Counts publication answers)
    (among : publication.taskId ∈ pull.tasks) :
    pull.appendReusedPrBody branch publication answers = pull := by
  rw [PullRequest.appendReusedPrBody]
  split
  · rfl
  · next unguarded =>
    rw [not_or, Bool.not_eq_false] at unguarded
    obtain ⟨viewed, unlisted⟩ := unguarded
    have isCreator : pull.tasks.head? = some publication.taskId := by
      rw [sound.tasks, List.mem_cons] at among
      rcases among with rfl | follower
      · rw [sound.tasks, List.head?_cons]
      · exact absurd ((sound.shownBody.marker_infix_iff valid).mpr follower) unlisted
    rw [Counts, if_pos isCreator, viewed, Bool.true_and] at counts
    dsimp only
    rw [counts, if_neg Bool.false_ne_true]

/-- A counted publication of a new task adds its section and counts it. -/
theorem Sound.appendReusedPrBody_of_not_mem (sound : pull.Sound branch creator followers)
    (valid : isValidTaskId publication.taskId = true) (counts : pull.Counts publication answers)
    (new : publication.taskId ∉ pull.tasks) :
    ((pull.appendReusedPrBody branch publication answers).published publication.taskId).Sound
      branch creator (followers ++ [publication.taskId]) := by
  have other : ¬ pull.tasks.head? = some publication.taskId :=
    fun isHead => new (List.mem_of_head? isHead)
  rw [Counts, if_neg other, Bool.and_eq_true] at counts
  obtain ⟨⟨viewed, edited⟩, unmarked⟩ := counts.resolve_left new
  have unlisted : ¬ taskMarker publication.taskId <:+: pull.shownBody := by
    rw [sound.shownBody.marker_infix_iff valid]
    intro follower
    rw [sound.tasks] at new
    exact new (List.mem_cons_of_mem creator follower)
  have appended := sound.appended valid unmarked
  have guard : ¬ (answers.viewed = false ∨ taskMarker publication.taskId <:+: pull.shownBody) := by
    rw [viewed]
    exact fun either => either.elim (nomatch ·) unlisted
  rw [PullRequest.appendReusedPrBody, if_neg guard]
  dsimp only
  rw [edited, if_pos rfl, published]
  dsimp only
  rw [if_neg new]
  refine ⟨?_, ?_, appended.boundPrBody, ?_⟩
  · exact congrArg (· ++ [publication.taskId]) sound.tasks
  · rw [List.nodup_append_comm]
    exact List.nodup_cons.mpr ⟨new, sound.once⟩
  · intro _
    rw [appended.count, sound.tasks, List.length_append, List.length_append, List.length_cons]
    rfl

end PullRequest

/-! ## Runs -/

namespace Chain

variable {branch : PyText} {chain after : Chain} {event : ChainEvent}

/-- What is published is counted: the body that opens the pull request has no mark, and so has no
section of another task, whose first publication reaches the body; and none is added for the
creating task. -/
def Counted : ChainEvent → Chain → Prop
  | .publish publication answers _, chain =>
      publication.taskId ∈ chain.completed ∨
        (chain.pull = none → ∀ body ∈ publication.body, Free taskMarkerPrefix body) ∧
          ∀ pull ∈ chain.pull, answers.listed = false ∨ pull.Counts publication answers
  | .rerun _, _ => True

instance : (event : ChainEvent) → (chain : Chain) → Decidable (Counted event chain)
  | .publish _ _ _, _ => inferInstanceAs (Decidable (_ ∨ _ ∧ ∀ _ ∈ _, _ ∨ PullRequest.Counts _ _ _))
  | .rerun _, _ => .isTrue trivial

/-- The pull request of the chain, if there is one, is sound. -/
def Sound (branch : PyText) (chain : Chain) : Prop :=
  ∀ pull ∈ chain.pull, ∃ creator followers, PullRequest.Sound branch creator followers pull

theorem record_pull (taskId : PyText) (recorded : Bool) (chain : Chain) :
    (chain.record taskId recorded).pull = chain.pull := by
  rw [record]
  split <;> rfl

theorem sound_createPr {publication : Publication} {answers : GhAnswers} (recorded : Bool)
    (valid : isValidTaskId publication.taskId = true)
    (counted : Counted (.publish publication answers recorded) chain) (sound : chain.Sound branch) :
    (chain.createPr branch publication answers recorded).Sound branch := by
  rw [createPr]
  split
  · exact sound
  · next pending =>
    have counts := counted.resolve_left pending
    cases opened : chain.pull with
    | none =>
        dsimp only
        cases read : publication.body with
        | none => exact sound
        | some body =>
            dsimp only
            split
            · intro pull isPull
              rw [record_pull] at isPull
              cases isPull
              exact ⟨_, _, PullRequest.sound_opened publication.title (counts.1 opened body read)⟩
            · exact sound
    | some pull =>
        dsimp only
        split
        · next listed =>
          intro published isPublished
          rw [record_pull] at isPublished
          cases isPublished
          obtain ⟨creator, followers, soundPull⟩ := sound pull opened
          have onto := (counts.2 pull opened).resolve_left fun unlisted => by
            rw [listed] at unlisted
            cases unlisted
          by_cases among : publication.taskId ∈ pull.tasks
          · rw [soundPull.appendReusedPrBody_of_mem valid onto among,
              PullRequest.published_of_mem among]
            exact ⟨creator, followers, soundPull⟩
          · exact ⟨creator, _, soundPull.appendReusedPrBody_of_not_mem valid onto among⟩
        · exact sound

theorem sound_step (moved : step branch event chain = some after) (counted : Counted event chain)
    (sound : chain.Sound branch) : after.Sound branch := by
  cases event with
  | publish publication answers recorded =>
      rw [step] at moved
      split at moved
      · next valid =>
        cases moved
        exact sound_createPr recorded valid counted sound
      · cases moved
  | rerun taskId =>
      cases moved
      exact sound

end Chain

/-- In any run whose publications are counted, the pull request lists each task once, before every
step and at the end. -/
theorem listsOnce_of_counted {branch : PyText} {transitions : List (Transition Chain ChainEvent)}
    {last : Chain} (run : Run (Chain.step branch) {} transitions last)
    (counted : ∀ transition ∈ transitions, Chain.Counted transition.event transition.before) :
    (∀ transition ∈ transitions, ∀ pull ∈ transition.before.pull, pull.ListsOnce branch) ∧
      ∀ pull ∈ last.pull, pull.ListsOnce branch := by
  have none : Chain.Sound branch {} := fun _ opened => absurd opened (Option.not_mem_none _)
  have keeps : ∀ transition : Transition Chain ChainEvent,
      Chain.step branch transition.event transition.before = some transition.after →
        Chain.Counted transition.event transition.before →
          transition.before.Sound branch → transition.after.Sound branch :=
    fun _ moved counted sound => Chain.sound_step moved counted sound
  have kept := run.invariant none keeps counted
  have lists :
      ∀ chain : Chain, chain.Sound branch → ∀ pull ∈ chain.pull, pull.ListsOnce branch := by
    intro chain sound pull opened
    obtain ⟨creator, followers, soundPull⟩ := sound pull opened
    exact soundPull.listsOnce
  exact ⟨fun transition among => lists _ (kept.1 transition among), lists _ kept.2⟩

/-- A task of a chain and its summary, which is not committed. -/
def firstTask : Publication where
  taskId := ofString "a"
  title := ofString "A"
  body := some (ofString "Did a.")
  committed := none

/-- A second task, with a committed summary. -/
def secondTask : Publication where
  taskId := ofString "b"
  title := ofString "B"
  body := some (ofString "Did b.")
  committed := some (ofString "tasks/done/b.summary.md")

/-- Two tasks, the second after a crash before its record and again after a rerun. -/
theorem two_tasks_listed :
    ∃ transitions last, Run (Chain.step (ofString "main")) {} transitions last ∧
      ∃ pull ∈ last.pull, pull.tasks.length = 2 ∧ pull.ListsOnce (ofString "main") := by
  have replays : (replay (Chain.step (ofString "main")) {}
      [.publish firstTask {} true, .publish secondTask {} false, .publish secondTask {} true,
        .rerun (ofString "b"), .publish secondTask {} true]).any (fun replayed =>
          replayed.1.all (fun transition =>
            decide (Chain.Counted transition.event transition.before)) &&
          replayed.2.pull.any fun pull => decide (pull.tasks.length = 2)) = true := by
    decide +kernel
  obtain ⟨⟨transitions, last⟩, replayed, shown⟩ := (Option.any_eq_true _ _).mp replays
  rw [Bool.and_eq_true] at shown
  have run := run_of_replay replayed
  have counted : ∀ transition ∈ transitions, Chain.Counted transition.event transition.before :=
    fun transition among => of_decide_eq_true (List.all_eq_true.mp shown.1 transition among)
  obtain ⟨pull, opened, two⟩ := (Option.any_eq_true _ _).mp shown.2
  exact ⟨transitions, last, run, pull, opened, of_decide_eq_true two,
    (listsOnce_of_counted run counted).2 pull opened⟩

/-- A crash after the pull request is created and before that is recorded: the creating task is
published again, and its own section is added. -/
theorem creating_task_listed_twice :
    ∃ transitions last, Run (Chain.step (ofString "main")) {} transitions last ∧
      ∃ pull ∈ last.pull, pull.tasks = [ofString "a"] ∧ ¬ pull.ListsOnce (ofString "main") := by
  have replays : (replay (Chain.step (ofString "main")) {}
      [.publish firstTask {} false, .publish firstTask {} true]).any (fun replayed =>
        replayed.2.pull.any fun pull => decide (pull.tasks = [ofString "a"]) &&
          decide ((splitBefore sectionSeparator taskMarkerPrefix pull.body).length = 2)) =
        true := by
    decide
  obtain ⟨⟨transitions, last⟩, replayed, shown⟩ := (Option.any_eq_true _ _).mp replays
  obtain ⟨pull, opened, twice⟩ := (Option.any_eq_true _ _).mp shown
  rw [Bool.and_eq_true, decide_eq_true_eq, decide_eq_true_eq] at twice
  refine ⟨transitions, last, run_of_replay replayed, pull, opened, twice.1, ?_⟩
  rintro ⟨creator, followers, head, sections, tasks, -, split, -, marked, -⟩
  rw [twice.1] at tasks
  cases tasks
  cases marked
  rw [split, List.length_singleton] at twice
  exact absurd twice.2 (by decide)

end Orchestrator.Git
