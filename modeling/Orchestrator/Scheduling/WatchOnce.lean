import Orchestrator.Scheduling.WatchPass

/-! # What a pass of the scheduler promises

A pass launches the least eligible file and rejects the hopeless ones, as far as a finished
dependency is on the base branch and the files of a queue name no task that waits in another.
-/

namespace Orchestrator.Scheduling

open Orchestrator.Foundation

/-! ## The promises of a pass -/

section Promises

variable (watcher : Watcher) (home : Home)

/-- The home that a pass scans, after the resumption. -/
def Watcher.start : Home := (watcher.resume home).1

/-- The files of the queue, as a pass ranks them. -/
def Watcher.ranked : List PendingFile := watcher.files (watcher.start home)

def Watcher.pending : Pending := pendingMap (watcher.ranked home)

def Watcher.turns : List Turn := (watcher.watchOnce home).1

/-- The pending files of all queues. -/
def Watcher.allPending : List PendingFile :=
  selectPending watcher.casefold (watcher.start home).folder

/-- A pending file of some queue has the id. -/
def Watcher.IsPending (taskId : String) : Prop :=
  ∃ file ∈ watcher.allPending home, file.scan.taskId = some taskId

/-- A pending task names a pending task, of any queue. -/
def Watcher.Names (first second : String) : Prop :=
  (∃ file ∈ watcher.allPending home, file.scan.taskId = some first ∧
    second ∈ file.scan.dependsOn) ∧ watcher.IsPending home second

/-- A file that cannot become ready: its task is on a cycle of the pending tasks, or it names an
id that no pending file, no task row and no ledger record knows. -/
def Watcher.Hopeless (turn : Turn) : Prop :=
  (∃ taskId ∈ turn.file.scan.taskId, Relation.TransGen (watcher.Names home) taskId taskId) ∨
    ∃ dep ∈ turn.file.scan.dependsOn, turn.home.world.database.tasks.lookup dep = none ∧
      turn.home.world.ledger.hasTaskId dep = false ∧ ¬ watcher.IsPending home dep

/-- A task holds the processing slot. -/
def Home.SlotHeld (home : Home) : Prop :=
  ∃ entry ∈ home.world.database.tasks.entries, entry.2.status.isActive = true

/-- What a pass promises: which file it launches, on what, how many, and what it rejects. -/
structure Scheduled : Prop where
  least : ∀ (before : List Turn) (turn : Turn) (after : List Turn),
    watcher.turns home = before ++ turn :: after → turn.Chosen →
    (∀ earlier ∈ before, earlier.decision ≠ .launched) →
    Eligible (watcher.pending home) (watcher.start home) turn.file ∧
      ∀ file ∈ watcher.ranked home, Eligible (watcher.pending home) (watcher.start home) file →
        sortKey watcher.casefold turn.file ≤ sortKey watcher.casefold file
  order : ∀ (before : List Turn) (turn : Turn) (after : List Turn),
    watcher.turns home = before ++ turn :: after → turn.Chosen →
    ∀ file ∈ watcher.ranked home,
      sortKey watcher.casefold file < sortKey watcher.casefold turn.file →
      ∃ earlier ∈ before, earlier.file = file ∧
        (earlier.decision = .launched ∨ ¬ Eligible (watcher.pending home) earlier.home file)
  progress : Watcher.continues (watcher.resume home).2 = true →
    ¬ (watcher.start home).SlotHeld →
    (∃ file ∈ watcher.ranked home, Eligible (watcher.pending home) (watcher.start home) file) →
    ∃ turn ∈ watcher.turns home, turn.Chosen
  onBase : ∀ turn ∈ watcher.turns home, turn.decision = .launched →
    turn.file.scan.taskId.isSome → ∀ dep ∈ turn.file.scan.dependsOn, turn.home.world.OnBase dep
  single : watcher.auto = false →
    ((watcher.turns home).filter fun turn => turn.decision = .launched).length ≤ 1
  slot : ∀ turn ∈ watcher.turns home, turn.decision = .launched → ¬ turn.home.SlotHeld
  rejects : ∀ turn ∈ watcher.turns home, ∀ detail, turn.decision = .broken detail →
    watcher.Hopeless home turn

/-- A file that the pass hands to the pipeline when it comes to it. -/
def Watcher.Launches (turn : Turn) : Prop :=
  Eligible (watcher.pending home) turn.home turn.file ∧
    (watcher.confirmNextTask = true → watcher.claimAllowed turn.home turn.file.scan = true)

/-- Where a pass came to, the tasks were what the scheduler takes them for: a finished dependency
without a recorded pull request is on the base branch, the slot is not held under the empty id,
and the ids that a file names without its queue knowing them are not all pending in other
queues. -/
structure PassInputs : Prop where
  landed : ∀ turn ∈ watcher.turns home, watcher.Launches home turn →
    turn.file.scan.taskId.isSome → ∀ dep ∈ turn.file.scan.dependsOn,
      recordedPrUrl turn.home.world.database dep = none → turn.home.world.OnBase dep
  named : ∀ turn ∈ watcher.turns home, watcher.Launches home turn →
    ∀ row ∈ turn.home.world.database.tasks.lookup "", row.status.isActive = false
  known : ∀ turn ∈ watcher.turns home, Watcher.isSettled turn.home turn.file = false →
    ∀ taskId ∈ turn.file.scan.taskId, ¬ Relation.TransGen (watcher.Names home) taskId taskId →
    (∀ dep ∈ turn.file.scan.dependsOn, turn.home.world.Unknown (watcher.pending home) dep →
      watcher.IsPending home dep) →
    ∀ dep ∈ turn.file.scan.dependsOn, ¬ turn.home.world.Unknown (watcher.pending home) dep

variable {watcher : Watcher} {home : Home}

/-! ## The pending map -/

theorem lookup_add (pending : Pending) (file : PendingFile) (taskId : String) :
    (pending.add file).lookup taskId =
      if file.scan.taskId = some taskId then some file.scan.dependsOn
      else pending.lookup taskId := by
  rw [Pending.add]
  split
  · next other named =>
      by_cases same : other = taskId
      · rw [if_pos (named.trans (congrArg some same)), same, AList.lookup_insert]
      · rw [if_neg fun found => same (Option.some.inj (named.symm.trans found)),
          AList.lookup_insert_ne (Ne.symm same)]
  · next unnamed =>
      have other : file.scan.taskId ≠ some taskId := by
        rw [unnamed]
        exact nofun
      rw [if_neg other]

/-- What the pending map has for an id is named by a file with that id. -/
theorem mem_of_lookup_foldl_add {taskId : String} {dependsOn : List String} :
    ∀ (files : List PendingFile) (pending : Pending),
      (files.foldl Pending.add pending).lookup taskId = some dependsOn →
      pending.lookup taskId = some dependsOn ∨
        ∃ file ∈ files, file.scan.taskId = some taskId ∧ file.scan.dependsOn = dependsOn
  | [], _, found => .inl found
  | file :: rest, pending, found => by
      rcases mem_of_lookup_foldl_add rest (pending.add file) found with earlier | ⟨other, later⟩
      · rw [lookup_add] at earlier
        split at earlier
        · next named =>
            exact .inr ⟨file, List.mem_cons_self, named, Option.some.inj earlier⟩
        · exact .inl earlier
      · exact .inr ⟨other, List.mem_cons_of_mem _ later.1, later.2⟩

theorem mem_of_lookup_pendingMap {files : List PendingFile} {taskId : String}
    {dependsOn : List String} (found : (pendingMap files).lookup taskId = some dependsOn) :
    ∃ file ∈ files, file.scan.taskId = some taskId ∧ file.scan.dependsOn = dependsOn :=
  (mem_of_lookup_foldl_add files ∅ found).resolve_left nofun

/-- The files of the queue are pending. -/
theorem mem_allPending_of_ranked {file : PendingFile} (listed : file ∈ watcher.ranked home) :
    file ∈ watcher.allPending home := by
  have among := mem_scanPendingSorted.mp listed
  rw [Watcher.allPending, selectPending, List.mem_insertionSort, List.mem_filter,
    decide_eq_true_eq]
  exact ⟨among.1, among.2.1⟩

theorem isPending_of_mem {taskId : String} (listed : taskId ∈ watcher.pending home) :
    watcher.IsPending home taskId := by
  obtain ⟨dependsOn, found⟩ := Option.isSome_iff_exists.mp (AList.lookup_isSome.mpr listed)
  obtain ⟨file, ranked, named, _⟩ := mem_of_lookup_pendingMap found
  exact ⟨file, mem_allPending_of_ranked ranked, named⟩

/-- A cycle of the queue's map is a cycle of the pending tasks. -/
theorem names_of_onCycle {taskId : String} (cyclic : (watcher.pending home).OnCycle taskId) :
    Relation.TransGen (watcher.Names home) taskId taskId := by
  refine Relation.TransGen.mono ?_ _ _ cyclic
  intro first second edge
  obtain ⟨among, listed⟩ := List.mem_filter.mp (show second ∈ Pending.next _ first from edge)
  refine ⟨?_, isPending_of_mem (of_decide_eq_true listed)⟩
  cases found : (watcher.pending home).lookup first with
  | none =>
      rw [Dict.get, found] at among
      cases among
  | some dependsOn =>
      rw [Dict.get, found] at among
      obtain ⟨file, ranked, named, same⟩ := mem_of_lookup_pendingMap found
      exact ⟨file, mem_allPending_of_ranked ranked, named, same ▸ among⟩

/-! ## The turns -/

theorem passes_turns : Passes watcher (watcher.pending home) (watcher.ranked home)
    (watcher.start home) (watcher.turns home) ∨ watcher.turns home = [] := by
  rw [Watcher.turns, Watcher.watchOnce]
  dsimp only
  split
  · exact .inl (passes_watchLoop watcher _ _ _)
  · exact .inr rfl

/-- A turn of a pass does what its home and its file decide. -/
theorem turn_sound {turn : Turn} (taken : turn ∈ watcher.turns home) :
    turn.file ∈ watcher.ranked home ∧ acquireSlot turn.home.world.database "" = true ∧
      turn.decision = watcher.decision (watcher.pending home) turn.home turn.file := by
  rcases @passes_turns watcher home with passes | empty
  · exact passes.sound turn taken
  · rw [empty] at taken
    cases taken

theorem launched_iff {turn : Turn} (taken : turn ∈ watcher.turns home) :
    turn.decision = .launched ↔ watcher.Launches home turn := by
  rw [(turn_sound taken).2.2]
  exact decision_launched_iff

theorem chosen_turn_iff {turn : Turn} (taken : turn ∈ watcher.turns home) :
    turn.Chosen ↔ Eligible (watcher.pending home) turn.home turn.file := by
  rw [Turn.Chosen, (turn_sound taken).2.2]
  exact chosen_iff

/-- A pass rejects a file that is not settled, on a cycle or with an id that its queue does not
know. -/
theorem broken_iff {turn : Turn} (taken : turn ∈ watcher.turns home) :
    (∃ detail, turn.decision = .broken detail) ↔
      Watcher.isSettled turn.home turn.file = false ∧ turn.file.scan.dependsOn ≠ [] ∧
        ∃ taskId ∈ turn.file.scan.taskId, (watcher.pending home).OnCycle taskId ∨
          ∃ dep ∈ turn.file.scan.dependsOn,
            turn.home.world.Unknown (watcher.pending home) dep := by
  rw [(turn_sound taken).2.2, decision_broken_iff, eligibility_broken_iff]

/-! ## Order of the turns -/

section Split

variable {before after : List Turn} {turn : Turn}

/-- The turns before a turn took the files before its file. -/
theorem files_before (split : watcher.turns home = before ++ turn :: after) :
    ∃ rest, watcher.ranked home = before.map Turn.file ++ turn.file :: rest := by
  rcases @passes_turns watcher home with passes | empty
  · obtain ⟨rest, whole⟩ := passes.files_prefix
    rw [split, List.map_append, List.map_cons, List.append_assoc, List.cons_append] at whole
    exact ⟨_, whole.symm⟩
  · exact absurd (empty.symm.trans split) nil_ne_split

/-- A file of the queue that comes before another one's turn had a turn of its own. -/
theorem mem_before_of_lt (split : watcher.turns home = before ++ turn :: after)
    {file : PendingFile} (listed : file ∈ watcher.ranked home)
    (ahead : sortKey watcher.casefold file < sortKey watcher.casefold turn.file) :
    ∃ earlier ∈ before, earlier.file = file := by
  obtain ⟨rest, ranked⟩ := files_before split
  have sorted : (watcher.ranked home).Pairwise fun first second =>
      sortKey watcher.casefold first ≤ sortKey watcher.casefold second :=
    pairwise_scanPendingSorted
  rw [ranked] at listed sorted
  rcases List.mem_append.mp listed with passed | later
  · exact List.mem_map.mp passed
  · have bound := (List.pairwise_append.mp sorted).2.1
    rcases List.mem_cons.mp later with rfl | behind
    · exact absurd ahead (lt_irrefl _)
    · exact absurd ahead (not_lt.mpr ((List.pairwise_cons.mp bound).1 file behind))

theorem mem_turns_of_before (split : watcher.turns home = before ++ turn :: after)
    {earlier : Turn} (listed : earlier ∈ before) : earlier ∈ watcher.turns home := by
  rw [split]
  exact List.mem_append_left _ listed

theorem mem_turns_of_split (split : watcher.turns home = before ++ turn :: after) :
    turn ∈ watcher.turns home := by
  rw [split]
  exact List.mem_append_right _ List.mem_cons_self

theorem not_declined_before (split : watcher.turns home = before ++ turn :: after)
    {earlier : Turn} (listed : earlier ∈ before) : earlier.decision ≠ .declined := by
  rcases @passes_turns watcher home with passes | empty
  · exact passes.not_declined_before before turn after split earlier listed
  · exact absurd (empty.symm.trans split) nil_ne_split

theorem sameGate_of_quiet (split : watcher.turns home = before ++ turn :: after)
    (quiet : ∀ earlier ∈ before, earlier.decision ≠ .launched) :
    SameGate (watcher.start home) turn.home := by
  rcases @passes_turns watcher home with passes | empty
  · exact passes.sameGate before turn after split quiet
  · exact absurd (empty.symm.trans split) nil_ne_split

/-- A file that was passed over was launched, or was not eligible at its turn. -/
theorem passed_over (split : watcher.turns home = before ++ turn :: after) {earlier : Turn}
    (listed : earlier ∈ before) : earlier.decision = .launched ∨
      ¬ Eligible (watcher.pending home) earlier.home earlier.file := by
  by_cases eligible : Eligible (watcher.pending home) earlier.home earlier.file
  · left
    have chosen := (chosen_turn_iff (mem_turns_of_before split listed)).mpr eligible
    exact chosen.resolve_right (not_declined_before split listed)
  · exact .inr eligible

end Split

/-- The first file that a pass chooses is the least that is eligible when it starts. -/
theorem least_of_split {before after : List Turn} {turn : Turn}
    (split : watcher.turns home = before ++ turn :: after) (chosen : turn.Chosen)
    (quiet : ∀ earlier ∈ before, earlier.decision ≠ .launched) :
    Eligible (watcher.pending home) (watcher.start home) turn.file ∧
      ∀ file ∈ watcher.ranked home, Eligible (watcher.pending home) (watcher.start home) file →
        sortKey watcher.casefold turn.file ≤ sortKey watcher.casefold file := by
  have same := sameGate_of_quiet split quiet
  constructor
  · exact (same.eligible _).mp ((chosen_turn_iff (mem_turns_of_split split)).mp chosen)
  · intro file listed eligible
    by_contra ahead
    obtain ⟨earlier, passed, rfl⟩ := mem_before_of_lt split listed (not_le.mp ahead)
    obtain ⟨front, back, cut⟩ := List.append_of_mem passed
    have earlierSplit : watcher.turns home = front ++ earlier :: (back ++ turn :: after) := by
      rw [split, cut, List.append_assoc, List.cons_append]
    have earlierSame := sameGate_of_quiet earlierSplit fun other among =>
      quiet other (cut ▸ List.mem_append_left _ among)
    rcases passed_over split passed with launched | held
    · exact quiet earlier passed launched
    · exact held ((earlierSame.eligible _).mpr eligible)

/-! ## The theorem -/

theorem slotHeld_iff (free : acquireSlot home.world.database "" = true) :
    home.SlotHeld ↔ ∃ row ∈ home.world.database.tasks.lookup "", row.status.isActive = true := by
  rw [acquireSlot, Bool.not_eq_true', List.any_eq_false] at free
  constructor
  · rintro ⟨⟨taskId, row⟩, listed, active⟩
    have empty : taskId = "" := by
      by_contra other
      refine free ⟨taskId, row⟩ listed ?_
      rw [Bool.and_eq_true, decide_eq_true_eq]
      exact ⟨active, other⟩
    subst empty
    exact ⟨row, AList.mem_lookup_iff.mpr listed, active⟩
  · rintro ⟨row, found, active⟩
    exact ⟨⟨"", row⟩, AList.mem_lookup_iff.mp found, active⟩

theorem acquireSlot_of_free (free : ¬ home.SlotHeld) :
    acquireSlot home.world.database "" = true := by
  rw [acquireSlot, Bool.not_eq_true', List.any_eq_false]
  intro entry listed both
  exact free ⟨entry, listed, (Bool.and_eq_true_iff.mp both).1⟩

/-- **The scheduler.** A pass keeps its promises exactly when its inputs are as above. -/
theorem scheduled_iff (watcher : Watcher) (home : Home) :
    Scheduled watcher home ↔ PassInputs watcher home := by
  constructor
  · intro kept
    refine ⟨fun turn taken launches named dep listed _ => ?_,
      fun turn taken launches row found => ?_,
      fun turn taken unsettled taskId named acyclic elsewhere dep listed unknown => ?_⟩
    · exact kept.onBase turn taken ((launched_iff taken).mpr launches) named dep listed
    · by_contra active
      apply kept.slot turn taken ((launched_iff taken).mpr launches)
      rw [slotHeld_iff (turn_sound taken).2.1]
      exact ⟨row, found, Bool.not_eq_false _ |>.mp active⟩
    · obtain ⟨detail, broken⟩ := (broken_iff taken).mpr
        ⟨unsettled, List.ne_nil_of_mem listed, taskId, named, .inr ⟨dep, listed, unknown⟩⟩
      rcases kept.rejects turn taken detail broken with
        ⟨other, otherNamed, cyclic⟩ | ⟨lost, lostListed, noRow, unseen, nowhere⟩
      · cases named.symm.trans otherNamed
        exact acyclic cyclic
      · exact nowhere (elsewhere lost lostListed
          ⟨noRow, fun queued => nowhere (isPending_of_mem queued), unseen⟩)
  · intro inputs
    constructor
    · exact fun before turn after split chosen quiet => least_of_split split chosen quiet
    · intro before turn after split _ file listed ahead
      obtain ⟨earlier, passed, same⟩ := mem_before_of_lt split listed ahead
      exact ⟨earlier, passed, same, same ▸ passed_over split passed⟩
    · intro goesOn free eligible
      have turns : watcher.turns home = (watcher.watchLoop (watcher.pending home)
          (watcher.ranked home) (watcher.start home)).1 := by
        rw [Watcher.turns, Watcher.watchOnce]
        dsimp only
        rw [if_pos goesOn]
        rfl
      rw [turns]
      exact (passes_watchLoop watcher _ _ _).progress (acquireSlot_of_free free) eligible
    · intro turn taken launched named dep listed
      have launches := (launched_iff taken).mp launched
      cases recorded : recordedPrUrl turn.home.world.database dep with
      | none => exact inputs.landed turn taken launches named dep listed recorded
      | some prUrl =>
          obtain ⟨taskId, isNamed⟩ := Option.isSome_iff_exists.mp named
          rcases eligibility_eligible_iff.mp launches.1.2 with unnamed | alone | ⟨_, released⟩
          · cases isNamed.symm.trans unnamed
          · rw [alone] at listed
            cases listed
          · exact onBase_of_reported recorded (released.merged dep listed)
    · intro single
      rcases @passes_turns watcher home with passes | empty
      · exact passes.single single
      · rw [empty]
        exact Nat.zero_le _
    · intro turn taken launched held
      obtain ⟨row, found, active⟩ := (slotHeld_iff (turn_sound taken).2.1).mp held
      have idle := inputs.named turn taken ((launched_iff taken).mp launched) row found
      rw [idle] at active
      cases active
    · intro turn taken detail broken
      obtain ⟨unsettled, _, taskId, named, reason⟩ := (broken_iff taken).mp ⟨detail, broken⟩
      rcases reason with cyclic | ⟨dep, listed, unknown⟩
      · exact .inl ⟨taskId, named, names_of_onCycle cyclic⟩
      · by_contra hopeful
        rw [Watcher.Hopeless, not_or] at hopeful
        refine inputs.known turn taken unsettled taskId named
          (fun cyclic => hopeful.1 ⟨taskId, named, cyclic⟩) (fun other among lost => ?_)
          dep listed unknown
        by_contra nowhere
        exact hopeful.2 ⟨other, among, lost.1, lost.2.2, nowhere⟩

end Promises

/-! ## A task of another queue -/

/-- A pass of the default queue that runs one task; nothing was to be resumed. -/
def onePass : Watcher where
  auto := false
  confirmNextTask := false
  queue := defaultQueue
  casefold := Text.casefold
  now := fun _ => "2026-01-01T00:00:00Z"
  resume := fun home => (home, none)
  claimAllowed := fun _ _ => true
  runTask := fun home _ => (home, .done)

def dependentFile : PendingFile where
  name := "a.md"
  frontmatter := some { id := some "a", dependsOn := some [some "b"] }

def otherQueueFile : PendingFile where
  name := "b.md"
  frontmatter := some { id := some "b", queue := some "other" }

/-- A task of the default queue depends on one that waits in another. -/
def acrossQueues : Home := ⟨{}, [dependentFile, otherQueueFile]⟩

theorem mem_allPending_acrossQueues {file : PendingFile}
    (listed : file ∈ onePass.allPending acrossQueues) :
    file = dependentFile ∨ file = otherQueueFile := by
  rw [Watcher.allPending, selectPending, List.mem_insertionSort, List.mem_filter] at listed
  rcases List.mem_cons.mp listed.1 with first | later
  · exact .inl first
  · exact .inr (List.mem_singleton.mp later)

/-- The dependent is rejected as broken. -/
theorem cross_queue_rejected : ∃ (watcher : Watcher) (home : Home), ¬ Scheduled watcher home := by
  refine ⟨onePass, acrossQueues, fun kept => ?_⟩
  have rejected : ((onePass.turns acrossQueues).any fun turn => turn.file = dependentFile &&
      turn.decision = .broken "depends on unknown task 'b'") = true := by decide +kernel
  obtain ⟨turn, taken, found⟩ := List.any_eq_true.mp rejected
  rw [Bool.and_eq_true, decide_eq_true_eq, decide_eq_true_eq] at found
  have named {first second : String} (names : onePass.Names acrossQueues first second) :
      second = "b" := by
    obtain ⟨⟨file, listed, _, among⟩, _⟩ := names
    rcases mem_allPending_acrossQueues listed with rfl | rfl
    · exact List.mem_singleton.mp among
    · cases among
  rcases kept.rejects turn taken _ found.2 with ⟨taskId, isA, cyclic⟩ | ⟨dep, isB, _, _, nowhere⟩
  · rw [found.1] at isA
    obtain ⟨_, _, last⟩ := Relation.TransGen.tail'_iff.mp cyclic
    have isB := named last
    cases Option.some.inj isA
    exact absurd isB (by decide)
  · rw [found.1] at isB
    rw [List.mem_singleton.mp isB] at nowhere
    have listed : otherQueueFile ∈ onePass.allPending acrossQueues := by decide +kernel
    exact nowhere ⟨otherQueueFile, listed, rfl⟩

end Orchestrator.Scheduling
