import Mathlib.Data.List.AList
import Orchestrator.Security.LiteralSecrets

/-! # Asking a human over a chat

A prompt is sent after the pending updates are drained, its interaction is kept as waiting, and the
updates from the offset of the drain on are read until one answers it. The process may die between
any two of these steps and go on later from what it kept.
-/

namespace Orchestrator.Hitl

open Orchestrator.Foundation
open Orchestrator.Foundation.PyText (ofChar ofString strip)
open Orchestrator.Security

/-! ## The chat -/

/-- What an operator does: a message, which may answer another, or a press under a message. -/
inductive UpdateContent where
  | message (chat : Int) (replyTo : Option Nat) (text : Option PyText)
  | press (under : Option (Int × Nat)) (data : Option String)

/-- An update of the chat: its number, when it was given and what it is. -/
structure Update where
  updateId : Nat
  givenAt : Nat
  content : UpdateContent

/-- The message that an update is about. -/
def UpdateContent.about : UpdateContent → Option Nat
  | .message _ replyTo _ => replyTo
  | .press under _ => under.map Prod.snd

/-- All updates given so far, those confirmed, and the next numbers. -/
structure TelegramServer where
  updates : List Update := []
  confirmed : Nat := 0
  nextUpdate : Nat := 0
  nextMessage : Nat := 0

namespace TelegramServer

variable (server : TelegramServer) (offset : Option Nat)

/-- The updates that are not confirmed and not below an offset. -/
def pending : List Update :=
  server.updates.filter fun update =>
    server.confirmed ≤ update.updateId && offset.all fun offset => offset ≤ update.updateId

/-- `getUpdates`: what is below the offset is confirmed, and a hundred pending updates are
returned. -/
def getUpdates : List Update × TelegramServer :=
  ((server.pending offset).take 100,
    { server with confirmed := max server.confirmed (offset.getD 0) })

end TelegramServer

/-! ## Answers -/

inductive AskKind where
  | question
  | approval
  deriving DecidableEq

inductive AskFailure where
  | timeout
  | transportError
  | invalidResponse
  | cancelled
  deriving DecidableEq

/-- What is kept of a prompt. -/
structure AskHandle where
  interactionId : String
  kind : AskKind
  expiresAt : Nat
  messageId : Option Nat
  updateOffset : Option Nat
  delivered : Bool

structure AskResult where
  answered : Bool
  text : Option PyText
  approved : Option Bool
  timedOut : Bool
  failure : Option AskFailure

structure ClientReply where
  text : PyText
  approved : Option Bool

/-- The chat, the secrets of the notifier and its bound on a wait. -/
structure NotifierConfig where
  words : WordTest
  targetChat : Int
  secretLiterals : List PyText
  askTimeout : Nat

section Config

variable (config : NotifierConfig)

/-- The loop body of `poll_reply`: the reply that an update is to a prompt. -/
def replyTo (handle : AskHandle) (update : Update) : Option ClientReply :=
  match handle.kind, update.content with
  | .question, .message chat answered (some text) =>
      if chat = config.targetChat ∧ answered.isSome ∧ answered = handle.messageId ∧ strip text ≠ []
      then some ⟨strip text, none⟩
      else none
  | .approval, .press (some (chat, message)) data =>
      let expectedYes := "hitl:" ++ handle.interactionId ++ ":yes"
      let expectedNo := "hitl:" ++ handle.interactionId ++ ":no"
      if chat = config.targetChat ∧ some message = handle.messageId ∧
          (data = some expectedYes ∨ data = some expectedNo) then
        let approved := decide (data = some expectedYes)
        some ⟨ofString (if approved then "approved" else "denied"), some approved⟩
      else none
  | _, _ => none

/-- The updates of one batch, until one is a reply: where to read on, and the reply. -/
def scan (handle : AskHandle) : Option Nat → List Update → Option Nat × Option ClientReply
  | offset, [] => (offset, none)
  | _, update :: rest =>
      match replyTo config handle update with
      | some reply => (some (update.updateId + 1), some reply)
      | none => scan handle (some (update.updateId + 1)) rest

/-- `value.replace(secret, REDACTED)`. -/
def replaceSecret (value secret : PyText) : PyText :=
  if secret = [] then value else (Regex.literal secret).sub (fun _ _ => redacted) value

/-- `_redact` of the notifier. -/
def notifierRedact (value : PyText) : PyText :=
  redactText config.words config.secretLiterals
    (config.secretLiterals.foldl replaceSecret value)

/-- `_answer` of a reply. -/
def answerOf (handle : AskHandle) (reply : ClientReply) : AskResult where
  answered := true
  text := some (notifierRedact config reply.text)
  approved := if handle.kind = .approval ∧ reply.approved = none then none else reply.approved
  timedOut := false
  failure := if handle.kind = .approval ∧ reply.approved = none then some .invalidResponse else none

/-- The result of a wait that ends without a reply. -/
def unanswered (failure : AskFailure) : AskResult where
  answered := false
  text := none
  approved := none
  timedOut := failure = .timeout
  failure := some failure

/-! ## Interactions -/

inductive InteractionStatus where
  | waiting
  | answered
  | failed (failure : AskFailure)
  | consumed
  deriving DecidableEq

/-- The artifact of an interaction. -/
structure InteractionRecord where
  status : InteractionStatus
  handle : AskHandle
  answer : Option PyText
  approved : Option Bool
  failure : Option AskFailure

/-- `write_waiting_interaction`. -/
def waitingRecord (handle : AskHandle) : InteractionRecord where
  status := if handle.delivered then .waiting else .failed .transportError
  handle := handle
  answer := none
  approved := none
  failure := if handle.delivered then none else some .transportError

/-- `write_answer`. -/
def InteractionRecord.answeredBy (record : InteractionRecord) (result : AskResult) :
    InteractionRecord :=
  { record with
    status := result.failure.elim .answered .failed
    answer := result.text.map (redactText config.words [])
    approved := result.approved
    failure := result.failure }

end Config

/-- A prompt to send: where its interaction is kept, unless it is not kept at all, and for how long
it is asked. -/
structure Ask where
  key : Option String
  interactionId : String
  kind : AskKind
  timeout : Nat

/-- Where a process stands: it drains, sends, keeps the handle, looks at the clock, reads, or has a
result to write. -/
inductive Phase where
  | idle
  | draining (ask : Ask) (rounds : Nat) (offset : Option Nat)
  | drained (ask : Ask) (offset : Option Nat)
  | sent (key : Option String) (handle : AskHandle)
  | waiting (key : Option String) (handle : AskHandle) (offset : Option Nat)
  | polling (key : Option String) (handle : AskHandle) (offset : Option Nat)
  | resolved (key : Option String) (handle : AskHandle) (result : AskResult)

/-- The chat, the clock, the process and the interactions kept; beside them the prompts that no
process will look at again because it died before it kept them. -/
structure Desk where
  server : TelegramServer := {}
  now : Nat := 0
  phase : Phase := .idle
  files : AList fun _ : String => InteractionRecord := ∅
  orphans : List AskHandle := []

inductive DeskEvent where
  | give (updateId : Nat) (content : UpdateContent)
  | pass (duration : Nat)
  | ask (ask : Ask)
  | request
  | send
  | persist
  | check
  | write
  | consume (key : String)
  | resume (key : String)
  | stop
  | fault
  | crash

namespace Desk

variable (config : NotifierConfig) (desk : Desk)

/-- An interaction is kept as one that waits. -/
def isWaiting (key : String) : Bool :=
  (desk.files.lookup key).any fun record => record.status = .waiting

/-- The handle of a prompt that did not reach the chat. -/
def undelivered (ask : Ask) : AskHandle :=
  ⟨ask.interactionId, ask.kind, desk.now, none, none, false⟩

/-- One `getUpdates` of the drain or of the wait. -/
def request : Option Desk :=
  match desk.phase with
  | .draining ask 0 _ => some { desk with phase := .sent ask.key (desk.undelivered ask) }
  | .draining ask (rounds + 1) offset =>
      let (updates, server) := desk.server.getUpdates offset
      if updates = [] then some { desk with server, phase := .drained ask offset }
      else
        let next := updates.foldl (fun most update => max most update.updateId) 0 + 1
        some { desk with server, phase := .draining ask rounds (some next) }
  | .polling key handle offset =>
      let (updates, server) := desk.server.getUpdates offset
      match scan config handle offset updates with
      | (_, some reply) =>
          some { desk with server, phase := .resolved key handle (answerOf config handle reply) }
      | (next, none) => some { desk with server, phase := .waiting key handle next }
  | _ => none

/-- One step of the operator, the clock or the process. -/
def step (event : DeskEvent) : Option Desk :=
  match event, desk.phase with
  | .give updateId content, _ =>
      if desk.server.nextUpdate ≤ updateId ∧
          content.about.all (fun message => message < desk.server.nextMessage) then
        some { desk with
          server := { desk.server with
            updates := desk.server.updates ++ [⟨updateId, desk.now, content⟩]
            nextUpdate := updateId + 1 } }
      else none
  | .pass duration, _ => some { desk with now := desk.now + duration }
  | .ask ask, .idle =>
      if ask.key.any desk.isWaiting then none
      else some { desk with phase := .draining ask 10 none }
  | .request, _ => desk.request config
  | .send, .drained ask offset =>
      let handle : AskHandle := ⟨ask.interactionId, ask.kind,
        desk.now + min ask.timeout config.askTimeout, some desk.server.nextMessage, offset, true⟩
      some { desk with
        server := { desk.server with nextMessage := desk.server.nextMessage + 1 }
        phase := .sent ask.key handle }
  | .persist, .sent key handle =>
      let files := key.elim desk.files fun key => desk.files.insert key (waitingRecord handle)
      let phase := if handle.delivered then .waiting key handle handle.updateOffset
        else .resolved key handle (unanswered .transportError)
      some { desk with files, phase }
  | .check, .waiting key handle offset =>
      if desk.now < handle.expiresAt then some { desk with phase := .polling key handle offset }
      else some { desk with phase := .resolved key handle (unanswered .timeout) }
  | .write, .resolved (some key) _ result =>
      (desk.files.lookup key).map fun record =>
        { desk with
          files := desk.files.insert key (record.answeredBy config result)
          phase := .idle }
  | .write, .resolved none _ _ => some { desk with phase := .idle }
  | .consume key, .idle =>
      (desk.files.lookup key).bind fun record =>
        if record.status = .answered then
          some { desk with files := desk.files.insert key { record with status := .consumed } }
        else none
  | .resume key, .idle =>
      (desk.files.lookup key).bind fun record =>
        if record.status = .waiting then
          some { desk with phase := .waiting (some key) record.handle record.handle.updateOffset }
        else none
  | .stop, .waiting key handle _ =>
      some { desk with phase := .resolved key handle (unanswered .cancelled) }
  | .fault, .draining ask _ _ | .fault, .drained ask _ =>
      some { desk with phase := .sent ask.key (desk.undelivered ask) }
  | .fault, .polling key handle _ =>
      some { desk with phase := .resolved key handle (unanswered .transportError) }
  | .crash, .sent (some _) handle =>
      let orphans := if handle.delivered then handle :: desk.orphans else desk.orphans
      some { desk with phase := .idle, orphans }
  | .crash, _ => some { desk with phase := .idle }
  | _, _ => none

/-! ## What is asked of it -/

/-- No update given so far, before the prompt expired, answers it. -/
def Unanswered (handle : AskHandle) : Prop :=
  ∀ update ∈ desk.server.updates, update.givenAt < handle.expiresAt →
    replyTo config handle update = none

/-- Answers are neither forged nor lost: an approval is a press on the prompt, what is recorded is
the first answer, and no prompt that was answered in time is recorded as timed out or forgotten. -/
structure Honest : Prop where
  pressed : ∀ key, ∀ record ∈ desk.files.lookup key, record.approved = some true →
    ∃ update ∈ desk.server.updates, ∃ message, record.handle.messageId = some message ∧
      update.content = .press (some (config.targetChat, message))
        (some ("hitl:" ++ record.handle.interactionId ++ ":yes"))
  first : ∀ key, ∀ record ∈ desk.files.lookup key, record.status ≠ .waiting →
    record.failure = none →
      ∃ reply, desk.server.updates.findSome? (replyTo config record.handle) = some reply ∧
        record.approved = reply.approved ∧
        record.answer = some (redactText config.words [] (notifierRedact config reply.text))
  kept : ∀ key, ∀ record ∈ desk.files.lookup key, record.failure = some .timeout →
    desk.Unanswered config record.handle
  known : ∀ handle ∈ desk.orphans, desk.Unanswered config handle

/-- No update that a request confirms unread answers a prompt that waits. -/
def Spares (offset : Option Nat) : Prop :=
  ∀ key, ∀ record ∈ desk.files.lookup key, record.status = .waiting →
    ∀ update ∈ desk.server.pending none, ¬ offset.all (fun offset => offset ≤ update.updateId) →
      replyTo config record.handle update = none

/-- What is asked of a step. A request spares the prompts that wait, a wait that ends late has no
answer in time left to read, and a prompt that is not kept is not answered in time. -/
def Fits : DeskEvent → Prop
  | .request =>
      match desk.phase with
      | .draining _ (_ + 1) offset | .polling _ _ offset => desk.Spares config offset
      | _ => True
  | .check =>
      match desk.phase with
      | .waiting _ handle offset => desk.now < handle.expiresAt ∨
          ∀ update ∈ desk.server.pending offset, update.givenAt < handle.expiresAt →
            replyTo config handle update = none
      | _ => True
  | .give updateId content => ∀ handle ∈ desk.orphans, desk.now < handle.expiresAt →
      replyTo config handle ⟨updateId, desk.now, content⟩ = none
  | .crash =>
      match desk.phase with
      | .sent (some _) handle => handle.delivered = true → desk.Unanswered config handle
      | _ => True
  | _ => True

end Desk

/-! ## Messages -/

section Messages

def telegramTextLimit : Nat := 4096

def truncationSuffix : PyText := ofString "\n\n[message truncated by wastech-orchestrator]"

/-- `_limit_message` -/
def limitMessage (text : PyText) : PyText :=
  if text.length ≤ telegramTextLimit then text
  else text.take (telegramTextLimit - truncationSuffix.length) ++ truncationSuffix

/-- `_outgoing` of the notifier. -/
def outgoing (config : NotifierConfig) (value : PyText) : PyText :=
  limitMessage (notifierRedact config value)

variable {config : NotifierConfig} {value secret : PyText}

theorem length_limitMessage_le (text : PyText) :
    (limitMessage text).length ≤ telegramTextLimit := by
  rw [limitMessage]
  split
  · assumption
  · rw [List.length_append, List.length_take]
    have short : truncationSuffix.length ≤ telegramTextLimit := by decide
    omega

/-- A secret of one line that is in a cut message is in the text or in the note about the cut. -/
theorem infix_of_infix_limitMessage {text : PyText} (line : ofChar '\n' ∉ secret)
    (within : secret <:+: limitMessage text) : secret <:+: text ∨ secret <:+: truncationSuffix := by
  rw [limitMessage] at within
  split at within
  · exact .inl within
  · rcases Regex.infix_of_append_cons line within with before | after
    · exact .inl (before.trans (List.take_prefix _ _).isInfix)
    · exact .inr (after.trans (List.suffix_cons _ _).isInfix)

/-- A credential of the notifier is nowhere in what it redacted. -/
theorem not_infix_notifierRedact (listed : secret ∈ config.secretLiterals)
    (unspelled : Unspelled secret) : ¬secret <:+: notifierRedact config value := by
  obtain ⟨first, later, shape⟩ := List.append_of_mem listed
  have kept (secrets : List PyText) {text : PyText} (absent : ¬secret <:+: text) :
      ¬secret <:+: secrets.foldl replaceSecret text :=
    List.foldlRecOn secrets replaceSecret absent fun text absent other _ => by
      rw [replaceSecret]
      split
      · exact absent
      · exact (redacts_replaceAll (.literal other) text).lacks unspelled absent
  refine not_infix_redactText config.words config.secretLiterals unspelled ?_
  rw [shape, List.foldl_append, List.foldl_cons]
  refine kept later ?_
  rw [replaceSecret, if_neg unspelled.nonempty]
  exact not_infix_replaceAll unspelled _

end Messages

end Orchestrator.Hitl
