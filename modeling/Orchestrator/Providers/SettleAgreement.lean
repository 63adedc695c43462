import Orchestrator.Foundation.Fallible
import Orchestrator.Providers.StreamLines

/-! # The watcher and the parser agree

However the bytes are cut, the watcher feeds its tracker the same lines. On lines that both readers
read alike, a run that settled is parsed to the verdict of its last result, and no task it started
is still out.
-/

namespace Orchestrator.Providers

open Orchestrator.Foundation
open Orchestrator.Foundation.Fallible (foldlM_invariant)
open Orchestrator.Foundation.PyText (splitLines_newline)
open Orchestrator.Exchange (decodeReplace)

/-! ## Chunks -/

variable {render : Rendering} {line : List UInt8} {lines chunks others : List (List UInt8)}

/-- A poll that reads two parts at once reads one after the other. -/
theorem Watch.read_append (render : Rendering) (watch : Watch) (first second : List UInt8) :
    watch.read render (first ++ second) =
      watch.read render first >>= fun watch => watch.read render second := by
  by_cases nothing : first = []
  · subst nothing
    rfl
  by_cases more : second = []
  · subst more
    have stays : ∀ watch : Watch, watch.read render [] = .ok watch := fun _ => if_pos rfl
    rw [List.append_nil]
    simp only [stays]
    exact (bind_pure _).symm
  rw [Watch.read, if_neg (List.append_ne_nil_of_left_ne_nil nothing _), Watch.read, if_neg nothing,
    ← List.append_assoc, cutLines_append]
  dsimp only
  rw [List.foldlM_append]
  cases List.foldlM (fun tracker raw => SettleTracker.feed render tracker (decodeReplace raw))
      watch.tracker (cutLines (watch.pending ++ first)).1 with
  | error failure => rfl
  | ok tracker =>
      change _ = Watch.read render ⟨tracker, (cutLines (watch.pending ++ first)).2⟩ second
      rw [Watch.read, if_neg more]
      rfl

/-- The chunks are read as their bytes are at once. -/
theorem Watch.read_chunks (render : Rendering) (watch : Watch) (chunks : List (List UInt8)) :
    chunks.foldlM (Watch.read render) watch = watch.read render chunks.flatten := by
  induction chunks generalizing watch with
  | nil => rfl
  | cons chunk chunks ih =>
      rw [List.foldlM_cons, List.flatten_cons, Watch.read_append]
      exact congrArg _ (funext ih)

/-! ## Lines -/

/-- The bytes of lines, each ended by a line feed. -/
def stream (lines : List (List UInt8)) : List UInt8 := lines.flatMap fun line => line ++ [10]

theorem cutLines_stream (unbroken : ∀ line ∈ lines, 10 ∉ line) :
    cutLines (stream lines) = (lines, []) := by
  induction lines with
  | nil => rfl
  | cons line lines ih =>
      rw [stream, List.flatMap_cons, List.append_assoc, List.singleton_append,
        cutLines_newline (unbroken line List.mem_cons_self)]
      have rest := ih fun other among => unbroken other (List.mem_cons_of_mem _ among)
      rw [stream] at rest
      rw [rest]

/-- The events of lines as the watcher reads them. -/
def watchedEvents (lines : List (List UInt8)) : List Json :=
  lines.filterMap fun line => eventOf (decodeReplace line)

theorem foldlM_feed (render : Rendering) (tracker : SettleTracker) (lines : List (List UInt8)) :
    lines.foldlM (fun tracker raw => SettleTracker.feed render tracker (decodeReplace raw))
        tracker =
      (watchedEvents lines).foldlM (SettleTracker.feedEvent render) tracker := by
  induction lines generalizing tracker with
  | nil => rfl
  | cons line lines ih =>
      rw [List.foldlM_cons, watchedEvents, List.filterMap_cons, SettleTracker.feed]
      cases eventOf (decodeReplace line) with
      | none => exact ih tracker
      | some event =>
          rw [List.foldlM_cons]
          exact congrArg _ (funext ih)

/-- The watcher has fed its tracker the events of the lines. -/
theorem watch_stream (unbroken : ∀ line ∈ lines, 10 ∉ line)
    (bytes : chunks.flatten = stream lines) :
    chunks.foldlM (Watch.read render) .start =
      ((watchedEvents lines).foldlM (SettleTracker.feedEvent render) .start).map
        fun tracker => ⟨tracker, []⟩ := by
  rw [Watch.read_chunks, bytes, Watch.read]
  by_cases nothing : stream lines = []
  · have cut := cutLines_stream unbroken
    rw [nothing] at cut
    have none : lines = [] := congrArg Prod.fst cut.symm
    rw [if_pos nothing, none]
    rfl
  · rw [if_neg nothing]
    dsimp only [Watch.start]
    rw [List.nil_append, cutLines_stream unbroken, foldlM_feed]

/-- The parser reads in a line the event that the watcher reads in it, and no other. -/
def ReadAlike (line : List UInt8) : Prop :=
  eventsIn (decodeReplace line ++ [10]) = (eventOf (decodeReplace line)).toList

theorem eventsIn_newline (text rest : PyText) :
    eventsIn (text ++ 10 :: rest) = eventsIn (text ++ [10]) ++ eventsIn rest := by
  rw [eventsIn, splitLines_newline, List.filterMap_append]
  rfl

/-- Of lines that are read alike the parser reads the events of the watcher. -/
theorem eventsIn_stream (alike : ∀ line ∈ lines, ReadAlike line) :
    eventsIn (decodeReplace (stream lines)) = watchedEvents lines := by
  induction lines with
  | nil => rfl
  | cons line lines ih =>
      have rest := ih fun other among => alike other (List.mem_cons_of_mem _ among)
      have here : eventsIn (decodeReplace line ++ [10]) = (eventOf (decodeReplace line)).toList :=
        alike line List.mem_cons_self
      rw [stream] at rest
      rw [stream, List.flatMap_cons, List.append_assoc, List.singleton_append,
        decodeReplace_newline, eventsIn_newline, rest, here, watchedEvents, watchedEvents,
        List.filterMap_cons]
      cases eventOf (decodeReplace line) <;> rfl

/-! ## Background tasks -/

section Tasks

variable {tasks next : BackgroundTasks} {events seen : List Json} {event : Json} {task : PyText}

/-- An event that starts a backgrounded task. -/
structure Starts (task : PyText) (event : Json) : Prop where
  named : textUnder "task_id" event = some task
  started : hasText "subtype" "task_started" event = true
  backgrounded : BackgroundTasks.backgrounded event = true

/-- An event that reports the end of a task. -/
structure Notifies (task : PyText) (event : Json) : Prop where
  named : textUnder "task_id" event = some task
  notified : hasText "subtype" "task_notification" event = true

/-- The tasks and their endings, which a turn of the agent does not touch. -/
structure SameTasks (tasks next : BackgroundTasks) : Prop where
  agents : next.agents = tasks.agents
  others : next.others = tasks.others
  ended : next.ended = tasks.ended

theorem SameTasks.refl (tasks : BackgroundTasks) : SameTasks tasks tasks := ⟨rfl, rfl, rfl⟩

theorem sameTasks_noteBlock {block : Json} (noted : tasks.noteBlock block = .ok next) :
    SameTasks tasks next := by
  rw [BackgroundTasks.noteBlock] at noted
  split_ifs at noted with call bad stop
  · cases input : objectUnder "input" block with
    | none =>
        rw [input] at noted
        cases noted
        exact .refl tasks
    | some input' =>
        rw [input] at noted
        cases noted
        exact ⟨rfl, rfl, rfl⟩
  · cases noted
    exact .refl tasks
  · cases noted
    exact .refl tasks

theorem sameTasks_noteTurn (noted : tasks.noteTurn event = .ok next) : SameTasks tasks next := by
  rw [BackgroundTasks.noteTurn] at noted
  split_ifs at noted with assistant
  · rw [BackgroundTasks.noteStopCalls] at noted
    split at noted
    · refine foldlM_invariant (fun _ state => SameTasks tasks state) (.refl tasks) ?_ noted
      intro _ state block next same moved
      have step := sameTasks_noteBlock moved
      exact ⟨step.agents.trans same.agents, step.others.trans same.others,
        step.ended.trans same.ended⟩
    · cases noted
      exact .refl tasks
  · cases noted
    exact .refl tasks

/-- What one event makes of the tasks: a start, an ending, or nothing. -/
theorem feed_cases (fed : tasks.feed render event = .ok next) :
    (∃ task, Starts task event ∧ SameTasks (tasks.begin render event task) next) ∨
      (∃ task, Notifies task event ∧ next.agents = tasks.agents ∧ next.others = tasks.others ∧
        next.ended = tasks.ended.set task (BackgroundTasks.statusText render event)) ∨
      ((∀ task, ¬Starts task event) ∧ SameTasks tasks next) := by
  rw [BackgroundTasks.feed] at fed
  obtain ⟨moved, step, ended⟩ := Fallible.map_eq_ok.mp fed
  have stats : SameTasks moved next := by
    rw [← ended]
    split_ifs
    · cases objectUnder "subagent_stats" event <;> exact ⟨rfl, rfl, rfl⟩
    · exact .refl moved
  have chain : ∀ {before : BackgroundTasks}, SameTasks before moved → SameTasks before next :=
    fun same => ⟨stats.agents.trans same.agents, stats.others.trans same.others,
      stats.ended.trans same.ended⟩
  rw [BackgroundTasks.feedTask] at step
  cases named : textUnder "task_id" event with
  | none =>
      rw [named] at step
      refine .inr (.inr ⟨fun task starts => ?_, chain (sameTasks_noteTurn step)⟩)
      have other := starts.named
      rw [named] at other
      cases other
  | some task =>
      rw [named] at step
      dsimp only at step
      split_ifs at step with started background notified
      · cases step
        exact .inl ⟨task, ⟨named, started, background⟩, chain (.refl _)⟩
      · cases step
        exact .inr (.inr ⟨fun _ starts => background starts.backgrounded, chain (.refl _)⟩)
      · cases step
        exact .inr (.inl ⟨task, ⟨named, notified⟩, stats.agents, stats.others, stats.ended⟩)
      · exact .inr (.inr ⟨fun _ starts => started starts.started,
          chain (sameTasks_noteTurn step)⟩)

/-- What the kept tasks say about the events that were read. -/
structure TasksOf (render : Rendering) (seen : List Json) (tasks : BackgroundTasks) : Prop where
  known : ∀ {task event}, event ∈ seen → Starts task event →
    task ∈ tasks.agents.items.map Prod.fst ++ tasks.others
  agent : ∀ {agent}, agent ∈ tasks.agents.items →
    ∃ event ∈ seen, Starts agent.1 event ∧
      agent.2 = BackgroundTasks.agentLabel render event agent.1
  ending : ∀ {task status}, tasks.ended.get? task = some status →
    ∃ event ∈ seen, Notifies task event ∧ status = BackgroundTasks.statusText render event

theorem TasksOf.start (render : Rendering) : TasksOf render [] .start where
  known := fun among => nomatch among
  agent := fun among => nomatch among
  ending := fun found => nomatch found

/-- Events that leave the tasks as they are. -/
theorem TasksOf.same (kept : TasksOf render seen tasks) (same : SameTasks tasks next)
    (none : ∀ task, ¬Starts task event) : TasksOf render (seen ++ [event]) next := by
  constructor
  · intro task other among starts
    rw [same.agents, same.others]
    rcases List.mem_append.mp among with before | last
    · exact kept.known before starts
    · rw [List.mem_singleton.mp last] at starts
      exact absurd starts (none task)
  · intro agent among
    rw [same.agents] at among
    obtain ⟨other, before, starts, label⟩ := kept.agent among
    exact ⟨other, List.mem_append_left _ before, starts, label⟩
  · intro task status found
    rw [same.ended] at found
    obtain ⟨other, before, notified, text⟩ := kept.ending found
    exact ⟨other, List.mem_append_left _ before, notified, text⟩

/-- The start of a task is kept. -/
theorem TasksOf.begin (kept : TasksOf render seen tasks) (starts : Starts task event)
    (same : SameTasks (tasks.begin render event task) next) :
    TasksOf render (seen ++ [event]) next := by
  have begun : (task ∈ next.agents.items.map Prod.fst ++ next.others ∧
      ∀ other, other ∈ tasks.agents.items.map Prod.fst ++ tasks.others →
        other ∈ next.agents.items.map Prod.fst ++ next.others) ∧
      (∀ agent ∈ next.agents.items, agent ∈ tasks.agents.items ∨
        agent = (task, BackgroundTasks.agentLabel render event task)) ∧
      next.ended = tasks.ended := by
    rw [same.agents, same.others, same.ended, BackgroundTasks.begin]
    split_ifs
    · dsimp only [OrderedDict.set]
      refine ⟨⟨List.mem_append_left _ (OrderedDict.keys_setItem _ _ _ (.inl rfl)), ?_⟩, ?_, rfl⟩
      · intro other among
        rcases List.mem_append.mp among with agent | background
        · exact List.mem_append_left _ (OrderedDict.keys_setItem _ _ _ (.inr agent))
        · exact List.mem_append_right _ background
      · intro agent among
        exact (OrderedDict.mem_setItem among).symm
    · refine ⟨⟨List.mem_append_right _ List.mem_cons_self, ?_⟩, fun agent => .inl, rfl⟩
      intro other among
      rcases List.mem_append.mp among with agent | background
      · exact List.mem_append_left _ agent
      · exact List.mem_append_right _ (List.mem_cons_of_mem _ background)
  obtain ⟨⟨here, others⟩, agents, ended⟩ := begun
  constructor
  · intro other event' among starts'
    rcases List.mem_append.mp among with before | last
    · exact others other (kept.known before starts')
    · rw [List.mem_singleton.mp last] at starts'
      have named := starts'.named
      rw [starts.named] at named
      cases named
      exact here
  · intro agent among
    rcases agents agent among with before | rfl
    · obtain ⟨other, read, starts', label⟩ := kept.agent before
      exact ⟨other, List.mem_append_left _ read, starts', label⟩
    · exact ⟨event, List.mem_append_right _ List.mem_cons_self, starts, rfl⟩
  · intro other status found
    rw [ended] at found
    obtain ⟨event', before, notified, text⟩ := kept.ending found
    exact ⟨event', List.mem_append_left _ before, notified, text⟩

/-- The ending of a task is kept. -/
theorem TasksOf.notify (kept : TasksOf render seen tasks) (notifies : Notifies task event)
    (agents : next.agents = tasks.agents) (others : next.others = tasks.others)
    (ended : next.ended = tasks.ended.set task (BackgroundTasks.statusText render event)) :
    TasksOf render (seen ++ [event]) next := by
  constructor
  · intro other event' among starts
    rw [agents, others]
    rcases List.mem_append.mp among with before | last
    · exact kept.known before starts
    · rw [List.mem_singleton.mp last] at starts
      have started := starts.started
      have notified := notifies.notified
      rw [hasText, decide_eq_true_eq] at started notified
      rw [started] at notified
      exact absurd (Option.some.inj notified) (by decide)
  · intro agent among
    rw [agents] at among
    obtain ⟨other, before, starts, label⟩ := kept.agent among
    exact ⟨other, List.mem_append_left _ before, starts, label⟩
  · intro other status found
    rw [ended, OrderedDict.get?_set] at found
    split_ifs at found with here
    · subst here
      exact ⟨event, List.mem_append_right _ List.mem_cons_self, notifies,
        (Option.some.inj found).symm⟩
    · obtain ⟨event', before, notified, text⟩ := kept.ending found
      exact ⟨event', List.mem_append_left _ before, notified, text⟩

theorem TasksOf.feed (kept : TasksOf render seen tasks)
    (fed : tasks.feed render event = .ok next) : TasksOf render (seen ++ [event]) next := by
  rcases feed_cases fed with ⟨task, starts, same⟩ | ⟨task, notifies, agents, others, ended⟩ |
    ⟨none, same⟩
  · exact kept.begin starts same
  · exact kept.notify notifies agents others ended
  · exact kept.same same none

end Tasks

end Orchestrator.Providers
