import Abacus.Core.ChatRepository

/-!
# The chat frames

The frames of `core/frames.py` in both directions. An identity travels as its `.hex` text, which
is kept here as the identity. Every server frame also carries `v`, which nothing sets to anything
but `PROTOCOL_VERSION`, and is left out; a client frame arrives with its version beside it
(`Inbound`), as `_dispatch` reads it for every type alike. What `validate_json` refuses arrives as
its number of validation errors.
-/

set_option autoImplicit false
set_option relaxedAutoImplicit false

namespace Abacus

/-- `PROTOCOL_VERSION`. -/
def protocolVersion : Int :=
  1

/-- `MAX_MESSAGE_CHARS`. -/
def maxMessageChars : ℕ :=
  8000

/-- Stable identifiers; a client branches on these. -/
inductive ErrorCode
  | badFrame
  | unsupportedVersion
  | tooManyTurns
  | tooManyConnections
  | goingAway
  | internal
  | resumeTooOld
  deriving DecidableEq, Repr

/-! ### Client to server -/

/-- `UserMessage`, within the bounds its fields are validated against. -/
structure UserMessage where
  text : String
  clientMsgId : String
  text_length : 1 ≤ text.length ∧ text.length ≤ maxMessageChars
  clientMsgId_length : 1 ≤ clientMsgId.length ∧ clientMsgId.length ≤ 64

/-- The frames a client sends. -/
inductive ClientFrame
  | userMessage (message : UserMessage)
  | ping
  | resume (lastSeq : ℕ)

/-- What `receive_text` yields, after `validate_json`. -/
inductive Inbound
  | invalid (errorCount : ℕ)
  | valid (v : Int) (frame : ClientFrame)

/-! ### Server to client -/

/-- The frames the server sends. -/
inductive ServerFrame
  /-- The message is durable. `replyMessageId` names the row that `delta` and `done` will carry. -/
  | ack (clientMsgId : String) (seq : ℕ) (messageId : Uuid) (replyMessageId : Option Uuid)
  /-- One chunk of an assistant turn. -/
  | delta (messageId : Uuid) (chunkIndex : ℕ) (text : String)
  /-- The reply is complete and its text is final. -/
  | done (messageId : Uuid) (seq : ℕ)
  /-- An application error. -/
  | error (code : ErrorCode) (message : String) (retryable : Bool)
  | pong
  /-- One stored message, replayed whole. -/
  | message (seq : ℕ) (messageId : Uuid) (role : Role) (status : Status) (text : String)
  /-- One job transition. -/
  | jobStatus (seq : ℕ) (jobId : Uuid) (state : JobState)
  deriving DecidableEq, Repr

/-- The number in its session's log that a frame carries, if it carries one. -/
def ServerFrame.seq : ServerFrame → Option ℕ
  | .ack _ seq _ _ => some seq
  | .done _ seq => some seq
  | .message seq _ _ _ _ => some seq
  | .jobStatus seq _ _ => some seq
  | .delta _ _ _ => none
  | .error _ _ _ => none
  | .pong => none

/-- `_replayed`: the frame for one row of the session log. -/
def replayed : SessionRow → ServerFrame
  | .message stored =>
    .message stored.seq stored.messageId stored.role stored.status stored.text
  | .event transition => .jobStatus transition.seq transition.jobId transition.state

/-- Different rows are replayed as different frames. -/
theorem replayed_injective : Function.Injective replayed := by
  intro first second h
  cases first with
  | message stored =>
    cases second with
    | message other =>
      obtain ⟨hseq, hid, hrole, hstatus, htext⟩ := ServerFrame.message.inj h
      congr 1
      cases stored
      cases other
      simp_all
    | event transition => exact ServerFrame.noConfusion h
  | event transition =>
    cases second with
    | message other => exact ServerFrame.noConfusion h
    | event other =>
      obtain ⟨hseq, hid, hstate⟩ := ServerFrame.jobStatus.inj h
      congr 1
      cases transition
      cases other
      simp_all

/-- A replayed frame carries the number of its row. -/
@[simp] theorem seq_replayed (row : SessionRow) : (replayed row).seq = some row.seq := by
  cases row <;> rfl

end Abacus
