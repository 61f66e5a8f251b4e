import Abacus.Postgres.ChatCalls
import Abacus.Postgres.LockOrder

/-!
# What changes a message

`_finish` is the only statement that updates a row of `chat_messages`, whatever its status was.
`perform_messageRow_eq` says that every other call, and a `_finish` of another message, leaves the
row as it is; `perform_completeAssistantMessage` and `perform_failAssistantMessage` say what
`_finish` makes of its own.
-/

set_option autoImplicit false
set_option relaxedAutoImplicit false

namespace Abacus.Postgres

open RowLocking (Program)

/-- The message whose row a call updates. -/
def Operation.finishes : Operation → Option Uuid
  | .completeAssistantMessage messageId _ => some messageId
  | .failAssistantMessage messageId => some messageId
  | _ => none

/-- One message stays as it is once it is there. -/
def MessageSame (messageId : Uuid) : ∀ key, Row key → Row key → Prop
  | .chatMessage other => fun before after ↦
    other = messageId → Retains (fun row new : ChatMessageRow ↦ row = new) before after
  | _ => fun _ _ ↦ True

theorem messageSame_refl (messageId : Uuid) (key : RowKey) (row : Row key) :
    MessageSame messageId key row row := by
  cases key with
  | chatMessage other => exact fun _ ↦ Retains.refl (fun _ ↦ rfl) row
  | _ => trivial

theorem messageSame_trans (messageId : Uuid) (key : RowKey) (first second third : Row key)
    (hfirst : MessageSame messageId key first second)
    (hsecond : MessageSame messageId key second third) :
    MessageSame messageId key first third := by
  cases key with
  | chatMessage other =>
    intro hother
    exact Retains.trans (fun _ _ _ h h' ↦ h.trans h') (hfirst hother) (hsecond hother)
  | _ => trivial

/-- Nothing but messages needs a reason to stay. -/
theorem messageSame_of_tier (messageId : Uuid) (key : RowKey) (hkey : key.tier ≤ 2)
    (old new : Row key) : MessageSame messageId key old new := by
  cases key with
  | chatMessage other => exact absurd hkey (by simp [RowKey.tier])
  | _ => trivial

theorem insertMessage_messageSame (messageId other : Uuid) (row : ChatMessageRow) :
    (insertMessage other row).Respects (MessageSame messageId) := by
  refine ⟨fun before after hmatch _ ↦ Retains.of_ifAbsent hmatch, ?_⟩
  rintro (_ | row) <;> trivial

theorem allocateSeq_messageSame (messageId sessionId : Uuid) :
    (allocateSeq sessionId).Respects (MessageSame messageId) :=
  (allocateSeq_within sessionId).respects (messageSame_of_tier messageId)

theorem finishMessage_messageSame {messageId other : Uuid} (hother : other ≠ messageId)
    (status : Status) (text : Option String) :
    (finishMessage other status text).Respects (MessageSame messageId) :=
  ⟨fun _ _ _ hsame ↦ absurd hsame hother, fun _ ↦ trivial⟩

/-- A call that does not finish a message leaves it. -/
theorem Operation.program_messageSame (now : Instant) {operation : Operation} {messageId : Uuid}
    (hother : operation.finishes ≠ some messageId) :
    (operation.program now).Respects (MessageSame messageId) := by
  cases hchat : onChat operation with
  | false => exact (program_within now hchat).respects (messageSame_of_tier messageId)
  | true =>
    cases operation with
    | ensureSession sessionId => exact ⟨fun _ _ _ ↦ trivial, fun _ ↦ trivial⟩
    | recordUserMessage sessionId clientMsgId text recordedId =>
      refine Program.Respects.map _ ((allocateSeq_messageSame messageId sessionId).bind fun _ ↦ ?_)
      refine ⟨fun _ _ _ ↦ trivial, ?_⟩
      rintro (_ | row)
      · trivial
      · exact (insertMessage_messageSame messageId recordedId _).map _
    | byClientMsgId sessionId clientMsgId =>
      refine Program.Respects.map _ fun snapshot ↦ ?_
      dsimp only
      split
      · split <;> trivial
      · trivial
    | startAssistantMessage sessionId openedId =>
      exact Program.Respects.map _ ((allocateSeq_messageSame messageId sessionId).bind fun _ ↦
        insertMessage_messageSame messageId openedId _)
    | completeAssistantMessage finishedId text =>
      refine Program.Respects.map _ (finishMessage_messageSame ?_ _ _)
      exact fun hsame ↦ hother (congrArg some hsame)
    | failAssistantMessage finishedId =>
      refine Program.Respects.map _ (finishMessage_messageSame ?_ _ _)
      exact fun hsame ↦ hother (congrArg some hsame)
    | logSince sessionId afterSeq limit =>
      exact .of_readOnly ((logSince_readOnly sessionId afterSeq limit).map _)
    | _ => exact nomatch hchat

/-- Across a call that does not finish a message, its row stays as it is. -/
theorem perform_messageRow_eq {now : Instant} {operation : Operation} {database : Database}
    {messageId : Uuid} {row : ChatMessageRow} (hother : operation.finishes ≠ some messageId)
    (h : messageRow database messageId = some row) :
    messageRow (perform now operation database).2 messageId = some row := by
  cases hperform : perform now operation database with
  | mk reply after =>
    cases reply with
    | ok outcome =>
      obtain ⟨new, hnew, rfl⟩ := (operation.program_messageSame now hother).row_kept
        (messageSame_refl messageId) (messageSame_trans messageId) (perform_yields hperform)
        (.chatMessage messageId) rfl row h
      exact hnew
    | error error =>
      obtain rfl : after = database := Program.run_error_database hperform
      exact h

/-- `_finish` of a message that is there. -/
theorem finishMessage_execute {database : Database} {messageId : Uuid} {row : ChatMessageRow}
    (h : messageRow database messageId = some row) (status : Status) (text : Option String) :
    (finishMessage messageId status text).execute database =
      .ok ((), database.set (.chatMessage messageId)
        (some { row with status := status, text := text.getD row.text })) := by
  have hrow : database.row (.chatMessage messageId) = some row := h
  simp only [finishMessage, Program.execute, hrow, Option.map_some, Program.pure_eq]

theorem perform_completeAssistantMessage (now : Instant) {database : Database} {messageId : Uuid}
    {row : ChatMessageRow} (h : messageRow database messageId = some row) (text : String) :
    ∃ after, perform now (.completeAssistantMessage messageId text) database = (.ok .unit, after) ∧
      messageRow after messageId = some { row with status := .complete, text := text } :=
  ⟨_, Program.run_of_execute_ok
    (Program.execute_map_of_ok (finishMessage_execute h .complete (some text))),
    RowLocking.Database.set_row_self _ _ _⟩

theorem perform_failAssistantMessage (now : Instant) {database : Database} {messageId : Uuid}
    {row : ChatMessageRow} (h : messageRow database messageId = some row) :
    ∃ after, perform now (.failAssistantMessage messageId) database = (.ok .unit, after) ∧
      messageRow after messageId = some { row with status := .failed } :=
  ⟨_, Program.run_of_execute_ok
    (Program.execute_map_of_ok (finishMessage_execute h .failed none)),
    RowLocking.Database.set_row_self _ _ _⟩

/-- A call that finishes a message that is there returns, and the message is at its end. -/
theorem perform_finishes (now : Instant) {operation : Operation} {database : Database}
    {messageId : Uuid} {row : ChatMessageRow} (hfinishes : operation.finishes = some messageId)
    (h : messageRow database messageId = some row) :
    ∃ after new, perform now operation database = (.ok .unit, after) ∧
      messageRow after messageId = some new ∧ (new.status = .complete ∨ new.status = .failed) := by
  cases operation with
  | completeAssistantMessage finished text =>
    obtain rfl := Option.some.inj hfinishes
    obtain ⟨after, hperform, hrow⟩ := perform_completeAssistantMessage now h text
    exact ⟨after, _, hperform, hrow, Or.inl rfl⟩
  | failAssistantMessage finished =>
    obtain rfl := Option.some.inj hfinishes
    obtain ⟨after, hperform, hrow⟩ := perform_failAssistantMessage now h
    exact ⟨after, _, hperform, hrow, Or.inr rfl⟩
  | _ => exact nomatch hfinishes

end Abacus.Postgres
