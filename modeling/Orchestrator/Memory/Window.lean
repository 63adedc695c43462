import Orchestrator.Memory.Service

/-! # The promotion window

A candidate that is proposed again and again. Quarantine keeps the tasks that have
proposed it and the stamp of the first proposal, which is never set anew; the promotion
law asks for the tasks within the window that ends at the proposal.
-/

namespace Orchestrator.Memory

open Orchestrator.Foundation

/-- One call of `apply_delta` with a single candidate. -/
structure Offer where
  episode : EpisodeRecord
  source : WriteSource
  now : Stamp
  candidate : CandidateLesson ⊕ CandidateFailure

namespace Offer

variable (offer : Offer)

def proposal : Proposal :=
  match offer.candidate with
  | .inl lesson => lesson.proposal
  | .inr failure => failure.proposal

def delta : CandidateDelta :=
  match offer.candidate with
  | .inl lesson => { lessons := [lesson] }
  | .inr failure => { failures := [failure] }

def context : WriteContext := ⟨offer.source, offer.now, offer.episode.taskId⟩

end Offer

variable (text : TextFunctions) (service : MemoryService)

def MemoryStore.offer (store : MemoryStore) (offer : Offer) : MemoryStore × ApplyResult :=
  applyDelta text service store (some offer.delta) offer.episode offer.source offer.now

/-- One offer after another. -/
def MemoryStore.offerAll (store : MemoryStore) (history : List Offer) : MemoryStore :=
  history.foldl (fun store offer => (store.offer text service offer).1) store

/-- The tasks that have offered within the window that ends at the last offer. -/
def windowTasks (history : List Offer) (last : Offer) : List String :=
  (((history ++ [last]).filter fun offer =>
    withinWindow offer.now last.now service.config.promoteWindowDays).map fun offer =>
      offer.episode.taskId).eraseDups

/-- The stamp of the first offer. -/
def firstOffer (history : List Offer) (last : Offer) : Stamp :=
  ((history.head?).getD last).now

/-! ## One offer -/

variable {text service} {store : MemoryStore} {id : String}

/-- The store an offer's candidate comes to: only the episode has been recorded. -/
def MemoryStore.recorded (service : MemoryService) (store : MemoryStore) (offer : Offer) :
    MemoryStore :=
  store.appendEpisode service ⟨some offer.episode.id, some offer.episode.taskId,
    some offer.episode.createdAt, offer.episode.expiresAt⟩ offer.episode.id

theorem offer_eq (offer : Offer) : store.offer text service offer =
    ((ingestLongTerm text service offer.context (store.recorded service offer) offer.proposal).1,
      ({ episodeId := offer.episode.id } : ApplyResult).bump
        (ingestLongTerm text service offer.context (store.recorded service offer)
          offer.proposal).2) := by
  unfold MemoryStore.offer applyDelta Offer.delta Offer.proposal
  cases offer.candidate <;> rfl

@[simp] theorem recorded_readPending (offer : Offer) :
    (store.recorded service offer).tiers.readPending = store.tiers.readPending := rfl

@[simp] theorem recorded_readLongTerm (offer : Offer) (kind : LongTermKind) :
    (store.recorded service offer).tiers.readLongTerm kind = store.tiers.readLongTerm kind := rfl

theorem deriveLongTermId_ne_empty (text : TextFunctions) (kind : LongTermKind) (subject : String)
    (paths : List String) : deriveLongTermId text kind subject paths ≠ "" := by
  intro empty
  have letters := congrArg String.toList empty
  rw [deriveLongTermId, String.toList_append] at letters
  exact absurd letters (by simp)

/-- The lesson put into quarantine is the one found there by its id. -/
theorem findPending_putPending (kept : ∀ other, service.redactText other = id ↔ other = id)
    (real : id ≠ "") (record : LongTermRow) (named : record.memoryId = some id) :
    findPending (store.putPending service (.lesson record) id).tiers.readPending id =
      some (record.redact service.redactText) := by
  have others : ∀ row ∈ (store.tiers.readPending.filter fun row => row.idOf ≠ some id).map
      (PendingRow.redact service.redactText), row.lessonOf id = none := by
    intro row among
    obtain ⟨old, held, rfl⟩ := List.mem_map.mp among
    cases old with
    | entity row => rfl
    | lesson row =>
        have differs := of_decide_eq_true (List.mem_filter.mp held).2
        refine if_neg fun same => differs ?_
        obtain ⟨other, own, redacted⟩ := Option.map_eq_some_iff.mp same
        rw [(kept other).mp redacted] at own
        rw [PendingRow.idOf, LongTermRow.idOf, own, Option.filter_some, if_pos]
        exact decide_eq_true real
  have same : (record.redact service.redactText).memoryId = some id := by
    rw [LongTermRow.redact, named, Option.map_some, (kept id).mpr rfl]
  have found : ((PendingRow.lesson record).redact service.redactText).lessonOf id =
      some (record.redact service.redactText) := if_pos same
  rw [MemoryStore.putPending, MemoryStore.replacePending_tiers, Tiers.readPending,
    Option.getD_some, List.map_append, findPending, List.findSome?_append,
    List.findSome?_eq_none_iff.mpr others, Option.none_or, List.map_singleton,
    List.findSome?_cons, found]

/-- An id is active once a row of the kind's file carries it. -/
def Tiers.Active (tiers : Tiers) (kind : LongTermKind) (id : String) : Prop :=
  ∃ row ∈ tiers.readLongTerm kind, row.memoryId = some id

/-- A proposal that leaves its id inactive has found it so and is held. -/
theorem ingestLongTerm_of_inactive (kept : service.redactText id = id) {context : WriteContext}
    {proposal : Proposal} (own : proposal.memoryId text = id)
    (inactive : ¬ (ingestLongTerm text service context store proposal).1.tiers.Active
      proposal.kind id) :
    ¬ store.tiers.Active proposal.kind id ∧
      ingestLongTerm text service context store proposal =
        (store.putPending service (.lesson (proposal.record text
          (findPending store.tiers.readPending id) context "quarantined")) id, .quarantined) := by
  subst own
  rcases ingestLongTerm_cases text service context store proposal with
    ⟨rows, -, known, outcome⟩ | ⟨-, -, -, outcome⟩ | ⟨-, outcome⟩
  · refine absurd ?_ inactive
    obtain ⟨before, row, after, -, own, -, rfl⟩ := updateFirst_eq_some known
    rw [outcome, Tiers.Active, MemoryStore.readLongTerm_replaceLongTerm, if_pos rfl]
    refine ⟨_, List.mem_map_of_mem (List.mem_append_right _ List.mem_cons_self), ?_⟩
    have named : row.memoryId = some (proposal.memoryId text) := of_decide_eq_true own
    rw [LongTermRow.redact, LongTermRow.merge, named, Option.map_some, kept]
  · refine absurd ?_ inactive
    have appended : ∀ final : MemoryStore, final.tiers.readLongTerm proposal.kind =
        store.tiers.readLongTerm proposal.kind ++ [(proposal.record text
          (findPending store.tiers.readPending (proposal.memoryId text)) context
            "active").redact service.redactText] →
        final.tiers.Active proposal.kind (proposal.memoryId text) := by
      intro final same
      refine ⟨_, same ▸ List.mem_append_right _ List.mem_cons_self, ?_⟩
      rw [LongTermRow.redact, Proposal.record, Option.map_some, kept]
    rw [outcome]
    apply appended
    have written := (store.readLongTerm_appendLongTerm service (proposal.record text
      (findPending store.tiers.readPending (proposal.memoryId text)) context "active")
      (proposal.memoryId text) proposal.kind).trans (if_pos rfl)
    dsimp only
    split <;> exact written
  · refine ⟨?_, outcome⟩
    rw [outcome] at inactive
    exact inactive

/-! ## A history of offers -/

/-- Quarantine holds a lesson with the tasks and the first stamp of its offers so far. -/
structure Tracks (store : MemoryStore) (id : String) (history : List Offer) : Prop where
  held : ∃ row, findPending store.tiers.readPending id = some row ∧ row.seenTaskIds.Nodup ∧
    (∀ task, task ∈ row.seenTaskIds ↔ ∃ offer ∈ history, offer.episode.taskId = task) ∧
    row.firstSeenAt = history.head?.map Offer.now

/-- Quarantine holds what the offers so far have left, nothing before the first. -/
def Follows (store : MemoryStore) (id : String) (history : List Offer) : Prop :=
  if history = [] then findPending store.tiers.readPending id = none
  else Tracks store id history

theorem mem_seenTasks {prior : Option LongTermRow} {taskId task : String} :
    task ∈ seenTasks prior taskId ↔
      task ∈ (prior.map LongTermRow.seenTaskIds).getD [] ∨ task = taskId := by
  rw [seenTasks, List.mem_eraseDups, List.mem_append, List.mem_singleton]

/-- What the store holds of a candidate is what the next offer of it sees. -/
theorem Follows.seenTasks_firstSeen {history : List Offer} (follows : Follows store id history)
    (stamped : ∀ offer ∈ history, offer.now.text ≠ "") (last : Offer) :
    let prior := findPending store.tiers.readPending id
    (∀ task, task ∈ seenTasks prior last.episode.taskId ↔
      ∃ offer ∈ history ++ [last], offer.episode.taskId = task) ∧
    firstSeen prior last.now = firstOffer history last := by
  intro prior
  have last_mem (task : String) : (∃ offer ∈ history ++ [last], offer.episode.taskId = task) ↔
      (∃ offer ∈ history, offer.episode.taskId = task) ∨ task = last.episode.taskId := by
    constructor
    · rintro ⟨offer, among, rfl⟩
      rcases List.mem_append.mp among with early | late
      · exact .inl ⟨offer, early, rfl⟩
      · exact .inr (List.mem_singleton.mp late ▸ rfl)
    · rintro (⟨offer, early, same⟩ | rfl)
      · exact ⟨offer, List.mem_append_left _ early, same⟩
      · exact ⟨last, List.mem_append_right _ List.mem_cons_self, rfl⟩
  by_cases start : history = []
  · subst start
    have none : prior = none := by simpa [Follows] using follows
    rw [none]
    exact ⟨fun task => by simp [mem_seenTasks, eq_comm], rfl⟩
  · have tracks : Tracks store id history := by simpa [Follows, start] using follows
    obtain ⟨row, found, -, tasks, first⟩ := tracks.held
    obtain ⟨offer, rest, rfl⟩ := List.exists_cons_of_ne_nil start
    have prior_eq : prior = some row := found
    rw [prior_eq]
    refine ⟨fun task => ?_, ?_⟩
    · rw [mem_seenTasks, last_mem, Option.map_some, Option.getD_some, tasks]
    · have real := stamped offer List.mem_cons_self
      rw [firstSeen, Option.bind_some, first, List.head?_cons, Option.map_some,
        Option.filter_some, if_pos (decide_eq_true real)]
      rfl

/-- An offer that leaves its id inactive has found it so. -/
theorem inactive_of_offer (kept : service.redactText id = id) {offer : Offer}
    (own : offer.proposal.memoryId text = id)
    (inactive : ¬ (store.offer text service offer).1.tiers.Active offer.proposal.kind id) :
    ¬ store.tiers.Active offer.proposal.kind id := by
  rw [offer_eq] at inactive
  exact (ingestLongTerm_of_inactive kept own inactive).1

/-- An offer that is held adds its task to what quarantine holds. -/
theorem Follows.held {history : List Offer} (follows : Follows store id history)
    (kept : ∀ other, service.redactText other = id ↔ other = id)
    (stamped : ∀ offer ∈ history, offer.now.text ≠ "") {offer : Offer}
    (own : offer.proposal.memoryId text = id)
    (tasks : ∀ other ∈ history ++ [offer],
      service.redactText other.episode.taskId = other.episode.taskId)
    (inactive : ¬ (store.offer text service offer).1.tiers.Active offer.proposal.kind id) :
    Follows (store.offer text service offer).1 id (history ++ [offer]) := by
  rw [offer_eq] at inactive ⊢
  obtain ⟨-, outcome⟩ := ingestLongTerm_of_inactive ((kept id).mpr rfl) own inactive
  have real : id ≠ "" := own ▸ deriveLongTermId_ne_empty text _ _ _
  obtain ⟨seen, first⟩ := follows.seenTasks_firstSeen stamped offer
  have unchanged : (seenTasks (findPending store.tiers.readPending id)
      offer.episode.taskId).map service.redactText =
      seenTasks (findPending store.tiers.readPending id) offer.episode.taskId := by
    refine (List.map_congr_left fun task among => ?_).trans (List.map_id' _)
    obtain ⟨other, member, rfl⟩ := (seen task).mp among
    exact tasks other member
  have start : (history ++ [offer]).head?.map Offer.now = some (firstOffer history offer) := by
    cases history <;> rfl
  rw [outcome, Follows, if_neg (List.concat_ne_nil _ _)]
  refine ⟨_, findPending_putPending kept real _ (congrArg some own), ?_, ?_, ?_⟩
  · exact (congrArg List.Nodup unchanged).mpr (eraseDups_nodup _)
  · exact fun task => (iff_of_eq (congrArg (task ∈ ·) unchanged)).trans (seen task)
  · exact (congrArg some first).trans start.symm

variable (text service) in
theorem offerAll_concat (store : MemoryStore) (history : List Offer) (offer : Offer) :
    store.offerAll text service (history ++ [offer]) =
      ((store.offerAll text service history).offer text service offer).1 := by
  rw [MemoryStore.offerAll, List.foldl_append]
  rfl

/-- While none of its offers is promoted, quarantine holds the tasks and the first stamp of a
candidate. -/
theorem follows_offerAll (kept : ∀ other, service.redactText other = id ↔ other = id)
    {kind : LongTermKind} (fresh : findPending store.tiers.readPending id = none)
    {history : List Offer}
    (own : ∀ offer ∈ history, offer.proposal.kind = kind ∧ offer.proposal.memoryId text = id)
    (stamped : ∀ offer ∈ history, offer.now.text ≠ "")
    (tasks : ∀ offer ∈ history, service.redactText offer.episode.taskId = offer.episode.taskId)
    (inactive : ¬ (store.offerAll text service history).tiers.Active kind id) :
    Follows (store.offerAll text service history) id history := by
  induction history using List.reverseRecOn with
  | nil => exact fresh
  | append_singleton history offer ih =>
      obtain ⟨sameKind, sameId⟩ := own offer (List.mem_append_right _ List.mem_cons_self)
      subst sameKind
      rw [offerAll_concat] at inactive ⊢
      have earlier := fun other among => own other (List.mem_append_left [offer] among)
      have stampedEarlier := fun other among => stamped other (List.mem_append_left [offer] among)
      have follows := ih earlier stampedEarlier
        (fun other among => tasks other (List.mem_append_left _ among))
        (inactive_of_offer ((kept id).mpr rfl) sameId inactive)
      exact follows.held kept stampedEarlier sameId tasks inactive

/-! ## The law of the window -/

/-- Whether an offer of a candidate that is not active is promoted: as the gate decides. -/
theorem promoted_iff_promotes {last : Offer} (own : last.proposal.memoryId text = id)
    (strong : last.proposal.weak text last.source = false)
    (inactive : ¬ store.tiers.Active last.proposal.kind id) :
    (store.offer text service last).2.promoted = 1 ↔
      last.proposal.promotes text service.config (findPending store.tiers.readPending id)
        last.context = true := by
  subst own
  rw [offer_eq]
  rcases ingestLongTerm_cases text service last.context (store.recorded service last)
    last.proposal with ⟨rows, -, known, -⟩ | ⟨-, -, gate, outcome⟩ | ⟨weak | ⟨-, gate⟩, outcome⟩
  · obtain ⟨before, row, after, rows, own, -⟩ := updateFirst_eq_some known
    refine absurd ⟨row, ?_, of_decide_eq_true own⟩ inactive
    rw [recorded_readLongTerm] at rows
    exact rows ▸ List.mem_append_right _ List.mem_cons_self
  · rw [outcome]
    exact iff_of_true rfl gate
  · rw [Offer.context, strong] at weak
    cases weak
  · rw [outcome]
    rw [recorded_readPending] at gate
    exact iff_of_false (by simp [ApplyResult.bump]) (by simp [gate])

/-- Where the first stamp of a candidate and the law of the window agree. -/
def WindowAgrees (service : MemoryService) (history : List Offer) (last : Offer) : Prop :=
  withinWindow (firstOffer history last) last.now service.config.promoteWindowDays = true ∨
    if service.config.promoteMinTasks ≤ 1 then
      service.config.promoteMinTasks ≤ (windowTasks service history last).length
    else ((windowTasks service history last).length : Int) < service.config.promoteMinTasks

/-- Offers made after the first and no later than the last are within the window if the first
is. -/
theorem windowTasks_of_within {history : List Offer} {last : Offer}
    (timed : ∀ offer ∈ history ++ [last], offer.now.instant.isSome)
    (ordered : (history ++ [last]).Pairwise fun first second =>
      ∀ start ∈ first.now.instant, ∀ later ∈ second.now.instant, start ≤ later)
    (within : withinWindow (firstOffer history last) last.now
      service.config.promoteWindowDays = true) :
    windowTasks service history last =
      ((history ++ [last]).map fun offer => offer.episode.taskId).eraseDups := by
  rw [windowTasks, List.filter_eq_self.mpr]
  intro offer among
  obtain ⟨start, starts⟩ := Option.isSome_iff_exists.mp (timed offer among)
  obtain ⟨stop, stops⟩ := Option.isSome_iff_exists.mp
    (timed last (List.mem_append_right _ List.mem_cons_self))
  cases history with
  | nil =>
      cases List.mem_singleton.mp among
      exact within
  | cons first rest =>
      obtain ⟨earliest, begins⟩ := Option.isSome_iff_exists.mp
        (timed first List.mem_cons_self)
      have le : earliest ≤ start := by
        rcases List.mem_cons.mp among with rfl | later
        · exact (Option.some.inj (begins.symm.trans starts)).le
        · exact (List.pairwise_cons.mp ordered).1 offer later _ begins _ starts
      simp only [withinWindow, firstOffer, List.head?_cons, Option.getD_some, begins, stops,
        decide_eq_true_eq] at within
      simp only [withinWindow, starts, stops, decide_eq_true_eq]
      omega

/-- An offer of a candidate whose other conditions are met is promoted as the law of the window
asks exactly when the two agree. -/
theorem promoted_iff_window_iff (text : TextFunctions) (service : MemoryService)
    (store : MemoryStore) (history : List Offer) (last : Offer)
    (kept : ∀ other, service.redactText other = last.proposal.memoryId text ↔
      other = last.proposal.memoryId text)
    (fresh : findPending store.tiers.readPending (last.proposal.memoryId text) = none)
    (own : ∀ offer ∈ history, offer.proposal.kind = last.proposal.kind ∧
      offer.proposal.memoryId text = last.proposal.memoryId text)
    (tasks : ∀ offer ∈ history, service.redactText offer.episode.taskId = offer.episode.taskId)
    (stamped : ∀ offer ∈ history, offer.now.text ≠ "")
    (timed : ∀ offer ∈ history ++ [last], offer.now.instant.isSome)
    (ordered : (history ++ [last]).Pairwise fun first second =>
      ∀ start ∈ first.now.instant, ∀ later ∈ second.now.instant, start ≤ later)
    (strong : last.proposal.weak text last.source = false)
    (gated : assignTrust text last.proposal.evidence ∉ autoPromote)
    (unexplained : last.proposal.explainedFailure = false)
    (inactive : ¬ (store.offerAll text service history).tiers.Active last.proposal.kind
      (last.proposal.memoryId text)) :
    (((store.offerAll text service history).offer text service last).2.promoted = 1 ↔
        service.config.promoteMinTasks ≤ (windowTasks service history last).length) ↔
      WindowAgrees service history last := by
  have follows := follows_offerAll kept fresh own stamped tasks inactive
  obtain ⟨seen, first⟩ := follows.seenTasks_firstSeen stamped last
  have gate : ∀ within : Bool, withinWindow (firstOffer history last) last.now
      service.config.promoteWindowDays = within →
      (last.proposal.promotes text service.config
        (findPending (store.offerAll text service history).tiers.readPending
          (last.proposal.memoryId text)) last.context = true ↔
        service.config.promoteMinTasks ≤ if within then ((seenTasks (findPending
          (store.offerAll text service history).tiers.readPending
          (last.proposal.memoryId text)) last.episode.taskId).length : Int) else 1) := by
    intro within measured
    have durable : assignTrust text last.proposal.evidence ∈ durableTrustLevels := by
      simp only [Proposal.weak, Bool.or_eq_false_iff, decide_eq_false_iff_not, not_not] at strong
      exact strong.2
    simp only [Proposal.promotes, Offer.context, first, measured, shouldPromote, durable, gated,
      unexplained, not_true_eq_false, decide_false, Bool.not_true, Bool.or_self,
      Bool.false_eq_true, ↓reduceIte, Bool.or_false, decide_eq_true_eq]
  rw [promoted_iff_promotes rfl strong inactive]
  cases measured : withinWindow (firstOffer history last) last.now
      service.config.promoteWindowDays with
  | true =>
      have same : (seenTasks (findPending (store.offerAll text service history).tiers.readPending
          (last.proposal.memoryId text)) last.episode.taskId).length =
          (windowTasks service history last).length := by
        rw [windowTasks_of_within timed ordered measured]
        refine length_eq_of_nodup (eraseDups_nodup _) (eraseDups_nodup _) fun task => ?_
        rw [seen, List.mem_eraseDups, List.mem_map]
      rw [gate true measured, if_pos rfl, same]
      exact iff_of_true Iff.rfl (.inl measured)
  | false =>
      rw [gate false measured, WindowAgrees, measured]
      simp only [Bool.false_eq_true, ↓reduceIte, false_or]
      split
      · rename_i single
        exact ⟨fun law => law.mp single, fun enough => iff_of_true single enough⟩
      · rename_i several
        rw [← not_le]
        exact ⟨fun law enough => several (law.mpr enough), fun few => iff_of_false several few⟩

/-- The text functions within ASCII, with the digest of the lesson below. -/
def sampleText : TextFunctions where
  strip := Text.strip
  lower := Text.lower
  split words := (Text.split words ' ').filter fun word => word ≠ ""
  isAlnum := Char.isAlphanum
  digest _ := "a64339b79036"

/-- Midnight of a day of 2026 in UTC, by its date and its number in the year. -/
def midnight (date : String) (day : Int) : Stamp where
  text := date ++ "T00:00:00+00:00"
  instant := some ((20453 + day) * microsPerDay)

/-- A lesson about one file, backed by a check, that a task offers. -/
def checkedOffer (taskId : String) (now : Stamp) : Offer where
  episode := ⟨"ep_" ++ taskId, taskId, now, none⟩
  source := .success
  now
  candidate := .inl {
    kind := .semantic
    subject := "Startup order"
    statement := "app.py reads its settings before it opens the database."
    scope := { paths := ["src/app.py"] }
    evidence := [⟨"check", "checks/unit"⟩] }

def newYearOffer : Offer := checkedOffer "a" (midnight "2026-01-01" 1)

def nextDayOffer : Offer := checkedOffer "b" (midnight "2026-01-02" 2)

def aprilOffer : Offer := checkedOffer "b" (midnight "2026-04-11" 101)

def dayAfterOffer : Offer := checkedOffer "c" (midnight "2026-04-12" 102)

def plainService : MemoryService where
  redactText text := text

set_option maxRecDepth 4000 in
theorem promoted_iff_window_two_days :
    ((({} : MemoryStore).offerAll sampleText plainService [newYearOffer]).offer sampleText
        plainService nextDayOffer).2.promoted = 1 ↔
      plainService.config.promoteMinTasks ≤
        (windowTasks plainService [newYearOffer] nextDayOffer).length := by
  refine (promoted_iff_window_iff sampleText plainService {} [newYearOffer] nextDayOffer
    (fun _ => Iff.rfl) rfl ?_ (fun _ _ => rfl) ?_ ?_ ?_ rfl ?_ rfl ?_).mpr (.inl (by decide))
  · intro offer among
    cases List.mem_singleton.mp among
    exact ⟨rfl, rfl⟩
  · intro offer among
    cases List.mem_singleton.mp among
    decide
  · decide
  · refine List.pairwise_pair.mpr ?_
    intro start starts later laters
    cases starts
    cases laters
    decide
  · decide
  · rintro ⟨row, among, -⟩
    cases among

set_option maxRecDepth 4000 in
/-- A first offer long ago keeps two tasks within the window from promoting a lesson. -/
theorem stale_offer_blocks :
    2 ≤ (windowTasks plainService [newYearOffer, aprilOffer] dayAfterOffer).length ∧
    ((({} : MemoryStore).offerAll sampleText plainService [newYearOffer, aprilOffer]).offer
        sampleText plainService dayAfterOffer).2 =
      { episodeId := "ep_c", quarantined := 1 } := by
  refine ⟨?_, ?_⟩ <;> decide

end Orchestrator.Memory
