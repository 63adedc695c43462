import Orchestrator.Foundation.Transitions
import Orchestrator.Hitl.Telegram

/-! # What becomes of answers

While a prompt waits, nothing that answers it is confirmed or read. What is recorded is then the
first answer, unless the wait gives up before it has read what was given in time.
-/

namespace Orchestrator.Hitl

open Orchestrator.Foundation
open Orchestrator.Security (redactText)

/-! ## Reading updates -/

section Reading

variable {config : NotifierConfig} {server : TelegramServer} {handle : AskHandle} {update : Update}
  {offset : Option Nat}

theorem mem_pending : update ∈ server.pending offset ↔ update ∈ server.updates ∧
    server.confirmed ≤ update.updateId ∧ ∀ below ∈ offset, below ≤ update.updateId := by
  rw [TelegramServer.pending, List.mem_filter, Bool.and_eq_true, decide_eq_true_eq,
    Option.all_eq_true]
  simp only [decide_eq_true_eq, Option.mem_def]

/-- What fails a test and gives nothing can be left out of a search. -/
theorem findSome?_filter_of {α β : Type} {search : α → Option β} {test : α → Bool} {list : List α}
    (passes : ∀ entry ∈ list, search entry ≠ none → test entry = true) :
    (list.filter test).findSome? search = list.findSome? search := by
  induction list with
  | nil => rfl
  | cons entry list ih =>
      have rest := ih fun other among => passes other (List.mem_cons_of_mem _ among)
      by_cases kept : test entry = true
      · rw [List.filter_cons_of_pos kept, List.findSome?_cons, List.findSome?_cons, rest]
      · have none : search entry = none := by
          by_contra some
          exact kept (passes entry List.mem_cons_self some)
        rw [List.filter_cons_of_neg kept, rest, List.findSome?_cons, none]

theorem scan_snd (updates : List Update) :
    (scan config handle offset updates).2 = updates.findSome? (replyTo config handle) := by
  induction updates generalizing offset with
  | nil => rfl
  | cons update updates ih =>
      rw [scan, List.findSome?_cons]
      cases replyTo config handle update with
      | some reply => rfl
      | none => exact ih

/-- A batch without a reply is read to its end. -/
theorem scan_fst {updates : List Update}
    (none : updates.findSome? (replyTo config handle) = none) :
    (scan config handle offset updates).1 =
      (updates.getLast?.map fun last => last.updateId + 1).or offset := by
  induction updates generalizing offset with
  | nil => rfl
  | cons update updates ih =>
      rw [List.findSome?_cons] at none
      rw [scan]
      cases answers : replyTo config handle update with
      | some reply =>
          rw [answers] at none
          cases none
      | none =>
          rw [answers] at none
          dsimp only
          rw [ih none, List.getLast?_cons]
          cases updates.getLast? <;> rfl

/-- A press that approves has the data of the prompt, its message and the chat. -/
theorem press_of_approved {reply : ClientReply}
    (answers : replyTo config handle update = some reply)
    (approved : reply.approved = some true) : ∃ message, handle.messageId = some message ∧
      update.content = .press (some (config.targetChat, message))
        (some ("hitl:" ++ handle.interactionId ++ ":yes")) := by
  rw [replyTo] at answers
  split at answers
  · split at answers
    · cases answers
      cases approved
    · cases answers
  · next chat message data kind content =>
    dsimp only at answers
    split at answers
    · next matched =>
      cases answers
      have isYes := of_decide_eq_true (Option.some.inj approved)
      exact ⟨message, matched.2.1.symm, by rw [content, matched.1, isYes]⟩
    · cases answers
  · cases answers

/-- A reply is to the message of the prompt. -/
theorem about_of_reply (answers : replyTo config handle update ≠ none) :
    ∃ message, handle.messageId = some message ∧ update.content.about = some message := by
  rw [replyTo] at answers
  split at answers
  · next chat answered text kind content =>
    split at answers
    · next matched =>
      obtain ⟨message, isMessage⟩ := Option.isSome_iff_exists.mp matched.2.1
      refine ⟨message, by rw [← matched.2.2.1, isMessage], ?_⟩
      rw [content, UpdateContent.about, isMessage]
    · exact absurd rfl answers
  · next chat message data kind content =>
    dsimp only at answers
    split at answers
    · next matched => exact ⟨message, matched.2.1.symm, by rw [content]; rfl⟩
    · exact absurd rfl answers
  · exact absurd rfl answers

/-- A reply to an approval decides it. -/
theorem answerOf_reply {reply : ClientReply} (answers : replyTo config handle update = some reply) :
    answerOf config handle reply =
      ⟨true, some (notifierRedact config reply.text), reply.approved, false, none⟩ := by
  have decided : ¬ (handle.kind = .approval ∧ reply.approved = none) := by
    rintro ⟨approval, none⟩
    rw [replyTo] at answers
    split at answers
    · next chat answered text kind content => cases approval.symm.trans kind
    · dsimp only at answers
      split at answers
      · cases answers
        cases none
      · cases answers
    · cases answers
  rw [answerOf, if_neg decided, if_neg decided]

end Reading

/-! ## Prompts that wait -/

/-- Nothing that answers a prompt is confirmed or below an offset. -/
structure Unread (config : NotifierConfig) (server : TelegramServer) (handle : AskHandle)
    (offset : Option Nat) : Prop where
  below : ∀ next ∈ offset, next ≤ server.nextUpdate
  pending : ∀ update ∈ server.updates, replyTo config handle update ≠ none →
    update ∈ server.pending offset

/-- Updates are numbered in their order, and are about messages that were sent. -/
structure TelegramServer.Numbered (server : TelegramServer) : Prop where
  sorted : server.updates.Pairwise fun first second => first.updateId < second.updateId
  below : ∀ update ∈ server.updates, update.updateId < server.nextUpdate
  confirmed : server.confirmed ≤ server.nextUpdate
  about : ∀ update ∈ server.updates, ∀ message ∈ update.content.about, message < server.nextMessage

/-- The server after an update. -/
def TelegramServer.given (server : TelegramServer) (update : Update) : TelegramServer :=
  { server with
    updates := server.updates ++ [update]
    nextUpdate := update.updateId + 1 }

section Servers

variable {config : NotifierConfig} {server : TelegramServer} {handle : AskHandle} {update : Update}
  {offset own : Option Nat}

theorem TelegramServer.Numbered.given (numbered : server.Numbered)
    (new : server.nextUpdate ≤ update.updateId)
    (sent : ∀ message ∈ update.content.about, message < server.nextMessage) :
    (server.given update).Numbered := by
  constructor
  · rw [TelegramServer.given, List.pairwise_append]
    refine ⟨numbered.sorted, List.pairwise_singleton _ _, ?_⟩
    intro first among second isNew
    rw [List.mem_singleton.mp isNew]
    exact Nat.lt_of_lt_of_le (numbered.below first among) new
  · intro other among
    rcases List.mem_append.mp among with old | isNew
    · exact Nat.lt_succ_of_lt (Nat.lt_of_lt_of_le (numbered.below other old) new)
    · rw [List.mem_singleton.mp isNew]
      exact Nat.lt_succ_self _
  · exact Nat.le_succ_of_le (Nat.le_trans numbered.confirmed new)
  · intro other among
    rcases List.mem_append.mp among with old | isNew
    · exact numbered.about other old
    · rw [List.mem_singleton.mp isNew]
      exact sent

theorem Unread.given (unread : Unread config server handle offset) (numbered : server.Numbered)
    (new : server.nextUpdate ≤ update.updateId) :
    Unread config (server.given update) handle offset := by
  constructor
  · intro next isNext
    exact Nat.le_succ_of_le (Nat.le_trans (unread.below next isNext) new)
  · intro other among answers
    rw [mem_pending]
    refine ⟨among, ?_⟩
    rcases List.mem_append.mp among with old | isNew
    · exact (mem_pending.mp (unread.pending other old answers)).2
    · rw [List.mem_singleton.mp isNew]
      exact ⟨Nat.le_trans numbered.confirmed new,
        fun next isNext => Nat.le_trans (unread.below next isNext) new⟩

theorem TelegramServer.Numbered.getUpdates (numbered : server.Numbered)
    (below : ∀ next ∈ offset, next ≤ server.nextUpdate) :
    (server.getUpdates offset).2.Numbered := by
  refine ⟨numbered.sorted, numbered.below, ?_, numbered.about⟩
  apply Nat.max_le.mpr
  refine ⟨numbered.confirmed, ?_⟩
  cases offset with
  | none => exact Nat.zero_le _
  | some next => exact below next rfl

/-- A request leaves a prompt unread whose answers are not below the offset. -/
theorem Unread.getUpdates (unread : Unread config server handle own)
    (spared : ∀ update ∈ server.updates, replyTo config handle update ≠ none →
      ∀ next ∈ offset, next ≤ update.updateId) :
    Unread config (server.getUpdates offset).2 handle own := by
  refine ⟨unread.below, fun update among answers => ?_⟩
  obtain ⟨-, confirmed, below⟩ := mem_pending.mp (unread.pending update among answers)
  refine mem_pending.mpr ⟨among, ?_, below⟩
  apply Nat.max_le.mpr
  refine ⟨confirmed, ?_⟩
  cases offset with
  | none => exact Nat.zero_le _
  | some next => exact spared update among answers next rfl

/-- A prompt is not answered before it is sent. -/
theorem unread_of_sent (numbered : server.Numbered)
    (below : ∀ next ∈ offset, next ≤ server.nextUpdate)
    (isNew : handle.messageId = some server.nextMessage) :
    Unread config { server with nextMessage := server.nextMessage + 1 } handle offset := by
  refine ⟨below, fun update among answers => ?_⟩
  obtain ⟨message, isMessage, about⟩ := about_of_reply answers
  have sent := numbered.about update among message about
  rw [isNew] at isMessage
  cases isMessage
  exact absurd sent (Nat.lt_irrefl _)

/-- A reply found in a batch is the first of all. -/
theorem first_of_batch (unread : Unread config server handle offset) {reply : ClientReply}
    (found : (server.getUpdates offset).1.findSome? (replyTo config handle) = some reply) :
    server.updates.findSome? (replyTo config handle) = some reply := by
  have all : (server.pending offset).findSome? (replyTo config handle) =
      server.updates.findSome? (replyTo config handle) := by
    apply findSome?_filter_of
    intro update among answers
    exact (List.mem_filter.mp (unread.pending update among answers)).2
  rw [← all, ← List.take_append_drop 100 (server.pending offset), List.findSome?_append]
  rw [TelegramServer.getUpdates] at found
  rw [found, Option.some_or]

/-- After a batch without a reply the answers are still to be read. -/
theorem unread_of_batch (unread : Unread config server handle offset) (numbered : server.Numbered)
    (none : (server.getUpdates offset).1.findSome? (replyTo config handle) = none) :
    Unread config (server.getUpdates offset).2 handle
      (scan config handle offset (server.getUpdates offset).1).1 := by
  have own : Unread config (server.getUpdates offset).2 handle offset := by
    apply unread.getUpdates
    intro update among answers
    exact (mem_pending.mp (unread.pending update among answers)).2.2
  rw [scan_fst none]
  cases ends : (server.getUpdates offset).1.getLast? with
  | none => exact own
  | some last =>
      rw [Option.map_some, Option.some_or]
      have inBatch : last ∈ (server.pending offset).take 100 := List.mem_of_getLast? ends
      have isUpdate := (mem_pending.mp (List.mem_of_mem_take inBatch)).1
      refine ⟨fun next isNext => ?_, fun update among answers => ?_⟩
      · cases isNext
        exact numbered.below last isUpdate
      · obtain ⟨-, confirmed, -⟩ := mem_pending.mp (own.pending update among answers)
        refine mem_pending.mpr ⟨among, confirmed, fun next isNext => ?_⟩
        cases isNext
        have waits := unread.pending update among answers
        rw [← List.take_append_drop 100 (server.pending offset)] at waits
        have sorted :
          ((server.pending offset).take 100 ++ (server.pending offset).drop 100).Pairwise
            fun first second => first.updateId < second.updateId := by
          rw [List.take_append_drop]
          exact numbered.sorted.filter _
        rcases List.mem_append.mp waits with read | later
        · exact absurd (List.findSome?_eq_none_iff.mp none update read) answers
        · exact (List.pairwise_append.mp sorted).2.2 last inBatch update later

end Servers

/-! ## Results -/

/-- A result is the first reply, or a failure; a timeout comes late and without an answer in
time. -/
structure Settled (config : NotifierConfig) (server : TelegramServer) (now : Nat)
    (handle : AskHandle) (failure : Option AskFailure) (approved : Option Bool)
    (text : Option PyText) (shown : PyText → PyText) : Prop where
  first : failure = none → ∃ reply,
    server.updates.findSome? (replyTo config handle) = some reply ∧
      approved = reply.approved ∧ text = some (shown reply.text)
  late : failure = some .timeout → handle.expiresAt ≤ now ∧ ∀ update ∈ server.updates,
    update.givenAt < handle.expiresAt → replyTo config handle update = none
  approved : approved = some true → failure = none

section Results

variable {config : NotifierConfig} {server : TelegramServer} {now : Nat} {handle : AskHandle}
  {failure : Option AskFailure} {approved : Option Bool} {text : Option PyText}
  {shown : PyText → PyText}

/-- What is settled stays so when an update is given. -/
theorem Settled.given (settled : Settled config server now handle failure approved text shown)
    {update : Update} (isNow : update.givenAt = now) :
    Settled config (server.given update) now handle failure approved text shown := by
  refine ⟨fun none => ?_, fun timeout => ?_, settled.approved⟩
  · obtain ⟨reply, found, same⟩ := settled.first none
    refine ⟨reply, ?_, same⟩
    rw [TelegramServer.given, List.findSome?_append, found, Option.some_or]
  · obtain ⟨expired, unanswered⟩ := settled.late timeout
    refine ⟨expired, fun other among inTime => ?_⟩
    rcases List.mem_append.mp among with old | isNew
    · exact unanswered other old inTime
    · rw [List.mem_singleton.mp isNew, isNow] at inTime
      exact absurd inTime (Nat.not_lt.mpr expired)

theorem Settled.pass (settled : Settled config server now handle failure approved text shown)
    (duration : Nat) : Settled config server (now + duration) handle failure approved text shown :=
  ⟨settled.first, fun timeout => ⟨Nat.le_add_right_of_le (settled.late timeout).1,
    (settled.late timeout).2⟩, settled.approved⟩

theorem settled_unanswered (other : failure ≠ none) (noTimeout : failure ≠ some .timeout) :
    Settled config server now handle failure none text shown :=
  ⟨fun none => absurd none other, fun timeout => absurd timeout noTimeout, nofun⟩

end Results

/-! ## Steps -/

namespace Desk

variable {config : NotifierConfig} {desk after : Desk}

/-- How a process stands to the chat and to the interactions kept. -/
def PhaseSound (config : NotifierConfig) (desk : Desk) : Phase → Prop
  | .idle => True
  | .draining _ _ offset | .drained _ offset => ∀ next ∈ offset, next ≤ desk.server.nextUpdate
  | .sent _ handle => handle.delivered = true →
      Unread config desk.server handle handle.updateOffset
  | .waiting key handle offset | .polling key handle offset =>
      Unread config desk.server handle offset ∧
        ∀ file ∈ key, ∃ record ∈ desk.files.lookup file, record.handle = handle
  | .resolved key handle result =>
      Settled config desk.server desk.now handle result.failure result.approved result.text
        (notifierRedact config) ∧
        ∀ file ∈ key, ∃ record ∈ desk.files.lookup file, record.handle = handle

/-- What holds of an interaction that is kept. -/
def RecordSound (config : NotifierConfig) (desk : Desk) (record : InteractionRecord) : Prop :=
  if record.status = .waiting then
    Unread config desk.server record.handle record.handle.updateOffset ∧ record.approved = none ∧
      record.failure = none
  else
    Settled config desk.server desk.now record.handle record.failure record.approved record.answer
      fun text =>
      redactText config.words [] (notifierRedact config text)

structure Sound (config : NotifierConfig) (desk : Desk) : Prop where
  numbered : desk.server.Numbered
  records : ∀ key, ∀ record ∈ desk.files.lookup key, desk.RecordSound config record
  orphans : ∀ handle ∈ desk.orphans, desk.Unanswered config handle
  phase : desk.PhaseSound config desk.phase

theorem Sound.honest (sound : desk.Sound config) : desk.Honest config := by
  have settled : ∀ key, ∀ record ∈ desk.files.lookup key, record.status ≠ .waiting →
      Settled config desk.server desk.now record.handle record.failure record.approved record.answer
        fun text =>
        redactText config.words [] (notifierRedact config text) := by
    intro key record isRecord notWaiting
    have kept := sound.records key record isRecord
    rwa [RecordSound, if_neg notWaiting] at kept
  have open_ : ∀ key, ∀ record ∈ desk.files.lookup key, record.status = .waiting →
      record.approved = none ∧ record.failure = none := by
    intro key record isRecord waiting
    have kept := sound.records key record isRecord
    rw [RecordSound, if_pos waiting] at kept
    exact kept.2
  constructor
  · intro key record isRecord approved
    have notWaiting : record.status ≠ .waiting := by
      intro waiting
      rw [(open_ key record isRecord waiting).1] at approved
      cases approved
    have kept := settled key record isRecord notWaiting
    obtain ⟨reply, found, same, -⟩ := kept.first (kept.approved approved)
    obtain ⟨update, among, answers⟩ := List.exists_of_findSome?_eq_some found
    exact ⟨update, among, press_of_approved answers (same.symm.trans approved)⟩
  · intro key record isRecord notWaiting none
    exact (settled key record isRecord notWaiting).first none
  · intro key record isRecord timeout
    refine ((settled key record isRecord ?_).late timeout).2
    intro waiting
    rw [(open_ key record isRecord waiting).2] at timeout
    cases timeout
  · exact sound.orphans

theorem sound_new : Sound config {} := by
  refine ⟨⟨List.Pairwise.nil, List.forall_mem_nil _, Nat.le_refl _, List.forall_mem_nil _⟩, ?_,
    List.forall_mem_nil _, trivial⟩
  intro key record isRecord
  cases isRecord

/-- Only the phase changes. -/
theorem Sound.enter (sound : desk.Sound config) {phase : Phase}
    (ok : desk.PhaseSound config phase) : Sound config { desk with phase } :=
  ⟨sound.numbered, sound.records, sound.orphans, ok⟩

/-- An update is given: what waits has it to read still. -/
theorem Sound.give {updateId : Nat} {content : UpdateContent} (sound : desk.Sound config)
    (fits : desk.Fits config (.give updateId content))
    (moved : desk.step config (.give updateId content) = some after) : after.Sound config := by
  rw [step] at moved
  split at moved
  · next admitted =>
    cases moved
    obtain ⟨new, about⟩ := admitted
    have numbered := sound.numbered
    have sent : ∀ message ∈ content.about, message < desk.server.nextMessage := by
      intro message isMessage
      exact of_decide_eq_true ((Option.all_eq_true _ _).mp about message isMessage)
    have after : (desk.server.given ⟨updateId, desk.now, content⟩).Numbered :=
      numbered.given new sent
    refine ⟨after, ?_, ?_, ?_⟩
    · intro key record isRecord
      have kept := sound.records key record isRecord
      rw [RecordSound] at kept ⊢
      split
      · next waits =>
        rw [if_pos waits] at kept
        exact ⟨kept.1.given numbered new, kept.2⟩
      · next settled =>
        rw [if_neg settled] at kept
        exact kept.given rfl
    · intro handle isOrphan update among inTime
      rcases List.mem_append.mp among with old | isNew
      · exact sound.orphans handle isOrphan update old inTime
      · rw [List.mem_singleton.mp isNew] at inTime ⊢
        exact fits handle isOrphan inTime
    · have phase := sound.phase
      dsimp only
      cases isPhase : desk.phase with
      | idle => trivial
      | draining ask rounds offset | drained ask offset =>
          rw [isPhase] at phase
          exact fun next isNext => Nat.le_succ_of_le (Nat.le_trans (phase next isNext) new)
      | sent key handle =>
          rw [isPhase] at phase
          exact fun delivered => (phase delivered).given numbered new
      | waiting key handle offset | polling key handle offset =>
          rw [isPhase] at phase
          exact ⟨phase.1.given numbered new, phase.2⟩
      | resolved key handle result =>
          rw [isPhase] at phase
          exact ⟨phase.1.given rfl, phase.2⟩
  · cases moved

theorem Sound.pass (sound : desk.Sound config) (duration : Nat) :
    Sound config { desk with now := desk.now + duration } := by
  refine ⟨sound.numbered, ?_, sound.orphans, ?_⟩
  · intro key record isRecord
    have kept := sound.records key record isRecord
    rw [RecordSound] at kept ⊢
    split
    · next waits =>
      rw [if_pos waits] at kept
      exact kept
    · next settled =>
      rw [if_neg settled] at kept
      exact kept.pass duration
  · have phase := sound.phase
    dsimp only
    cases isPhase : desk.phase with
    | idle => trivial
    | draining ask rounds offset | drained ask offset | sent key handle | waiting key handle offset
    | polling key handle offset =>
        rw [isPhase] at phase
        exact phase
    | resolved key handle result =>
        rw [isPhase] at phase
        exact ⟨phase.1.pass duration, phase.2⟩

/-- A request that spares what waits keeps it unread. -/
theorem Sound.getUpdates (sound : desk.Sound config) {offset : Option Nat}
    (below : ∀ next ∈ offset, next ≤ desk.server.nextUpdate) (spares : desk.Spares config offset)
    {phase : Phase}
    (ok : PhaseSound config { desk with server := (desk.server.getUpdates offset).2 } phase) :
    Sound config { desk with server := (desk.server.getUpdates offset).2, phase } := by
  refine ⟨sound.numbered.getUpdates below, ?_, sound.orphans, ok⟩
  intro key record isRecord
  have kept := sound.records key record isRecord
  rw [RecordSound] at kept ⊢
  split
  · next waits =>
    rw [if_pos waits] at kept
    refine ⟨kept.1.getUpdates fun update among answers next isNext => ?_, kept.2⟩
    by_contra passed
    apply answers
    have unconfirmed := (mem_pending.mp (kept.1.pending update among answers)).2.1
    refine spares key record isRecord waits update (mem_pending.mpr ⟨among, unconfirmed, nofun⟩) ?_
    rw [Option.mem_def.mp isNext, Option.all_some, decide_eq_true_eq]
    exact passed
  · next settled =>
    rw [if_neg settled] at kept
    exact ⟨kept.first, kept.late, kept.approved⟩

theorem next_le {updates : List Update} {bound : Nat}
    (below : ∀ update ∈ updates, update.updateId < bound) (some : updates ≠ []) :
    updates.foldl (fun most update => max most update.updateId) 0 + 1 ≤ bound := by
  have most : ∀ start < bound,
      updates.foldl (fun most update => max most update.updateId) start < bound := by
    clear some
    induction updates with
    | nil => exact fun _ small => small
    | cons update updates ih =>
        intro start small
        apply ih fun other among => below other (List.mem_cons_of_mem _ among)
        exact Nat.max_lt.mpr ⟨small, below update List.mem_cons_self⟩
  cases updates with
  | nil => exact absurd rfl some
  | cons update updates =>
      exact most 0 (Nat.lt_of_le_of_lt (Nat.zero_le _) (below update List.mem_cons_self))

/-- The drain leaves the prompts that wait, and the wait takes the first answer to its own. -/
theorem Sound.request (sound : desk.Sound config) (fits : desk.Fits config .request)
    (moved : desk.request config = some after) : after.Sound config := by
  have phase := sound.phase
  rw [Desk.request] at moved
  rw [Fits] at fits
  split at moved
  · cases moved
    exact sound.enter nofun
  · next ask rounds offset isPhase =>
    rw [isPhase] at phase fits
    dsimp only at moved
    split at moved
    · cases moved
      exact sound.getUpdates phase fits phase
    · next some =>
      cases moved
      refine sound.getUpdates phase fits fun next isNext => ?_
      cases isNext
      apply next_le _ some
      intro update among
      exact sound.numbered.below update (mem_pending.mp (List.mem_of_mem_take among)).1
  · next key handle offset isPhase =>
    rw [isPhase] at phase fits
    obtain ⟨unread, file⟩ := phase
    dsimp only at moved
    split at moved
    · next read reply scanned =>
      cases moved
      have found : (scan config handle offset (desk.server.getUpdates offset).1).2 =
          (desk.server.getUpdates offset).1.findSome? (replyTo config handle) := scan_snd _
      rw [scanned] at found
      have isFirst := first_of_batch unread found.symm
      obtain ⟨update, -, answers⟩ := List.exists_of_findSome?_eq_some isFirst
      refine sound.getUpdates unread.below fits ⟨?_, file⟩
      rw [answerOf_reply answers]
      exact ⟨fun _ => ⟨reply, isFirst, rfl, rfl⟩, nofun, fun _ => rfl⟩
    · next read scanned =>
      cases moved
      have none : (scan config handle offset (desk.server.getUpdates offset).1).2 =
          (desk.server.getUpdates offset).1.findSome? (replyTo config handle) := scan_snd _
      rw [scanned] at none
      have rest := unread_of_batch unread sound.numbered none.symm
      rw [scanned] at rest
      exact sound.getUpdates unread.below fits ⟨rest, file⟩
  · cases moved

/-- The handle of a prompt that did not reach the chat waits for nothing. -/
theorem Sound.insert (sound : desk.Sound config) {key : String} {record : InteractionRecord}
    {phase : Phase} (kept : desk.RecordSound config record)
    (ok : PhaseSound config { desk with files := desk.files.insert key record } phase) :
    Sound config { desk with files := desk.files.insert key record, phase } := by
  refine ⟨sound.numbered, ?_, sound.orphans, ok⟩
  intro other found isRecord
  by_cases same : other = key
  · subst same
    rw [AList.lookup_insert] at isRecord
    cases isRecord
    exact kept
  · rw [AList.lookup_insert_ne same] at isRecord
    exact sound.records other found isRecord

/-- Every step that fits keeps what waits unread and what is recorded right. -/
theorem Sound.step {event : DeskEvent} (sound : desk.Sound config) (fits : desk.Fits config event)
    (moved : desk.step config event = some after) : after.Sound config := by
  have phase := sound.phase
  cases event with
  | give updateId content => exact sound.give fits moved
  | pass duration =>
      cases moved
      exact sound.pass duration
  | request => exact sound.request fits moved
  | ask ask =>
      cases isPhase : desk.phase <;> simp only [Desk.step, isPhase, reduceCtorEq] at moved
      split at moved
      · cases moved
      · cases moved
        exact sound.enter nofun
  | send =>
      cases isPhase : desk.phase <;> simp only [Desk.step, isPhase, reduceCtorEq] at moved
      next ask offset =>
      rw [isPhase] at phase
      cases moved
      have numbered := sound.numbered
      refine ⟨⟨numbered.sorted, numbered.below, numbered.confirmed, ?_⟩, ?_, sound.orphans, ?_⟩
      · intro update among message about
        exact Nat.lt_succ_of_lt (numbered.about update among message about)
      · intro key record isRecord
        have kept := sound.records key record isRecord
        rw [RecordSound] at kept ⊢
        split
        · next waits =>
          rw [if_pos waits] at kept
          exact ⟨⟨kept.1.below, kept.1.pending⟩, kept.2⟩
        · next settled =>
          rw [if_neg settled] at kept
          exact ⟨kept.first, kept.late, kept.approved⟩
      · exact fun _ => unread_of_sent numbered phase rfl
  | persist =>
      cases isPhase : desk.phase <;> simp only [Desk.step, isPhase, reduceCtorEq] at moved
      next key handle =>
      rw [isPhase] at phase
      cases moved
      have kept : desk.RecordSound config (waitingRecord handle) := by
        rw [RecordSound, waitingRecord]
        cases delivered : handle.delivered with
        | true => exact ⟨phase delivered, rfl, rfl⟩
        | false => exact settled_unanswered nofun nofun
      cases key with
      | none =>
          refine sound.enter ?_
          split
          · next delivered => exact ⟨phase delivered, nofun⟩
          · exact ⟨settled_unanswered nofun nofun, nofun⟩
      | some key =>
          have file : ∀ file ∈ some key, ∃ record ∈ (desk.files.insert key
              (waitingRecord handle)).lookup file, record.handle = handle := by
            rintro file ⟨⟩
            exact ⟨waitingRecord handle, AList.lookup_insert _, rfl⟩
          refine sound.insert kept ?_
          split
          · next delivered => exact ⟨phase delivered, file⟩
          · exact ⟨settled_unanswered nofun nofun, file⟩
  | check =>
      cases isPhase : desk.phase <;> simp only [Desk.step, isPhase, reduceCtorEq] at moved
      next key handle offset =>
      rw [isPhase] at phase
      split at moved
      · cases moved
        exact sound.enter phase
      · next late =>
        cases moved
        rw [Fits, isPhase] at fits
        obtain ⟨unread, file⟩ := phase
        have none_ := fits.resolve_left late
        refine sound.enter ⟨⟨nofun, fun _ => ⟨Nat.not_lt.mp late, ?_⟩, nofun⟩, file⟩
        intro update among inTime
        by_contra answers
        exact answers (none_ update (unread.pending update among answers) inTime)
  | write =>
      cases isPhase : desk.phase <;> simp only [Desk.step, isPhase, reduceCtorEq] at moved
      next key handle result =>
      rw [isPhase] at phase
      cases key with
      | none =>
          cases moved
          exact sound.enter trivial
      | some key =>
          obtain ⟨record, isRecord, rfl⟩ := Option.map_eq_some_iff.mp moved
          obtain ⟨result_sound, file⟩ := phase
          obtain ⟨kept, isKept, isHandle⟩ := file key rfl
          have same : kept = record := Option.mem_unique isKept isRecord
          subst same
          subst isHandle
          have notWaiting : (kept.answeredBy config result).status ≠ .waiting := by
            rw [InteractionRecord.answeredBy]
            cases result.failure <;> nofun
          have recorded : desk.RecordSound config (kept.answeredBy config result) := by
            rw [RecordSound, if_neg notWaiting]
            refine ⟨fun none => ?_, result_sound.late, result_sound.approved⟩
            obtain ⟨reply, found, approved, text⟩ := result_sound.first none
            refine ⟨reply, found, approved, ?_⟩
            rw [InteractionRecord.answeredBy, text]
            rfl
          exact sound.insert recorded trivial
  | consume key =>
      cases isPhase : desk.phase <;> simp only [Desk.step, isPhase, reduceCtorEq] at moved
      obtain ⟨record, isRecord, consumed⟩ := Option.bind_eq_some_iff.mp moved
      split at consumed
      · next answered =>
        cases consumed
        have kept := sound.records key record isRecord
        rw [RecordSound, if_neg (by rw [answered]; nofun)] at kept
        exact sound.insert kept trivial
      · cases consumed
  | resume key =>
      cases isPhase : desk.phase <;> simp only [Desk.step, isPhase, reduceCtorEq] at moved
      obtain ⟨record, isRecord, resumed⟩ := Option.bind_eq_some_iff.mp moved
      split at resumed
      · next waits =>
        cases resumed
        have kept := sound.records key record isRecord
        rw [RecordSound, if_pos waits] at kept
        refine sound.enter ⟨kept.1, fun file isFile => ?_⟩
        cases isFile
        exact ⟨record, isRecord, rfl⟩
      · cases resumed
  | stop =>
      cases isPhase : desk.phase <;> simp only [Desk.step, isPhase, reduceCtorEq] at moved
      rw [isPhase] at phase
      cases moved
      exact sound.enter ⟨settled_unanswered nofun nofun, phase.2⟩
  | fault =>
      cases isPhase : desk.phase <;> simp only [Desk.step, isPhase, reduceCtorEq] at moved <;>
        rw [isPhase] at phase <;> cases moved
      · exact sound.enter nofun
      · exact sound.enter nofun
      · exact sound.enter ⟨settled_unanswered nofun nofun, phase.2⟩
  | crash =>
      cases isPhase : desk.phase <;> simp only [Desk.step, isPhase] at moved <;>
        try (cases moved; exact sound.enter trivial)
      next key handle =>
      cases key with
      | none =>
          cases moved
          exact sound.enter trivial
      | some key =>
          cases moved
          rw [Fits, isPhase] at fits
          refine ⟨sound.numbered, sound.records, fun orphan isOrphan => ?_, trivial⟩
          dsimp only at isOrphan
          split at isOrphan
          · next delivered =>
            rcases List.mem_cons.mp isOrphan with rfl | old
            · exact fits delivered
            · exact sound.orphans orphan old
          · exact sound.orphans orphan isOrphan

end Desk

/-- One chat, and a prompt in it. -/
def nightConfig : NotifierConfig where
  words := .ofAscii
  targetChat := 7
  secretLiterals := []
  askTimeout := 1000

def nightAsk : Ask := ⟨some "hitl/deploy.json", "h1", .approval, 100⟩

/-- The prompt is sent and kept, the process dies, and the operator approves. -/
def approvedWhileDown : List DeskEvent :=
  [.ask nightAsk, .request, .send, .persist, .crash,
    .give 0 (.press (some (7, 0)) (some "hitl:h1:yes"))]

end Orchestrator.Hitl
