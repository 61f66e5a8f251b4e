import Abacus.Core.Jobs

/-!
# The persistence seam

The row types of `core/chat_repository.py`. A session's log holds messages and job transitions,
numbered by one counter; `SessionRow` is what `log_since` returns, one row of either kind.
-/

set_option autoImplicit false
set_option relaxedAutoImplicit false

namespace Abacus

/-- Who produced a message. -/
inductive Role
  | user
  | assistant
  deriving DecidableEq, Repr

/-- Where a message is in its life. -/
inductive Status
  | streaming
  | complete
  | failed
  deriving DecidableEq, Repr

/-- One durable message, as the wire needs to see it. -/
structure StoredMessage where
  seq : ℕ
  messageId : Uuid
  role : Role
  status : Status
  text : String
  deriving DecidableEq, Repr

/-- A stored user message, and whether this call is what stored it. -/
structure RecordedUserMessage where
  message : StoredMessage
  created : Bool
  deriving DecidableEq, Repr

/-- One row of a session's log, as `log_since` returns it. -/
inductive SessionRow
  | message (stored : StoredMessage)
  | event (transition : JobEvent)
  deriving DecidableEq, Repr

/-- The number of a row in its session's log. -/
def SessionRow.seq : SessionRow → ℕ
  | .message stored => stored.seq
  | .event transition => transition.seq

@[simp] theorem SessionRow.seq_message (stored : StoredMessage) :
    (SessionRow.message stored).seq = stored.seq :=
  rfl

@[simp] theorem SessionRow.seq_event (transition : JobEvent) :
    (SessionRow.event transition).seq = transition.seq :=
  rfl

end Abacus
