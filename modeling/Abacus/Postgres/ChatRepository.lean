import Abacus.Postgres.Columns
import Abacus.Postgres.Seq
import Mathlib.Data.List.Sort

/-!
# The chat repository

The methods of `PostgresChatRepository` as transaction programs. `log_since` is one read: its two
statements share the snapshot of a `REPEATABLE READ` transaction. `record_user_message` rolls back
when it finds its key already recorded, and reads the row in the transaction after that: the first
part is `recordUserMessage`, which raises `alreadyRecorded` there, and the second is
`byClientMsgId`.
-/

set_option autoImplicit false
set_option relaxedAutoImplicit false

namespace Abacus.Postgres

/-- `_to_message`: the message columns of a row. -/
def ChatMessageRow.toMessage (row : ChatMessageRow) (messageId : Uuid) : StoredMessage :=
  ⟨row.seq, messageId, row.role, row.status, row.text⟩

/-- Create the session row if it is not there yet. -/
def ensureSession (sessionId : Uuid) : Sql Unit :=
  .update (.chatSession sessionId) (ifAbsent 1) fun _ ↦ pure ()

/-- The insertion of a message that carries no client key or one not yet recorded. -/
def insertMessage (messageId : Uuid) (row : ChatMessageRow) : Sql StoredMessage :=
  .update (.chatMessage messageId) (ifAbsent row) fun
    | some _ => .insert (.message row.sessionId row.seq messageId) (pure (row.toMessage messageId))
    | none => .raise .uniqueViolation

/-- Store a user message under a key not yet recorded. -/
def recordUserMessage (sessionId : Uuid) (clientMsgId text : String) (messageId : Uuid) :
    Sql RecordedUserMessage := do
  let seq ← allocateSeq sessionId
  .update (.clientMessage sessionId clientMsgId) (ifAbsent messageId) fun
    | some _ => do
      let message ← insertMessage messageId
        ⟨sessionId, seq, .user, .complete, text, some clientMsgId⟩
      pure ⟨message, true⟩
    | none => .raise (.alreadyRecorded sessionId clientMsgId)

/-- `_by_client_msg_id`: the message a key already stored. -/
def byClientMsgId (sessionId : Uuid) (clientMsgId : String) : Sql RecordedUserMessage :=
  .select fun database ↦
    match database.row (.clientMessage sessionId clientMsgId) with
    | some messageId =>
      match database.row (.chatMessage messageId) with
      | some row => pure ⟨row.toMessage messageId, false⟩
      | none => .raise .noResultFound
    | none => .raise .noResultFound

/-- Open an assistant row as `streaming`, with empty text. -/
def startAssistantMessage (sessionId messageId : Uuid) : Sql StoredMessage := do
  let seq ← allocateSeq sessionId
  insertMessage messageId ⟨sessionId, seq, .assistant, .streaming, "", none⟩

/-- `_finish`: the terminal update of a message, whatever its status was. -/
def finishMessage (messageId : Uuid) (status : Status) (text : Option String) : Sql Unit :=
  .update (.chatMessage messageId)
    (fun row : Option ChatMessageRow ↦ row.map fun row ↦
      some { row with status := status, text := text.getD row.text }) fun _ ↦ pure ()

/-- Store the finished reply and mark the row complete. -/
def completeAssistantMessage (messageId : Uuid) (text : String) : Sql Unit :=
  finishMessage messageId .complete (some text)

/-- Mark a turn that raised as failed. -/
def failAssistantMessage (messageId : Uuid) : Sql Unit :=
  finishMessage messageId .failed none

/-! ### Reading the log -/

/-- `order by seq limit limit` over rows already selected. -/
def orderedBySeq {Row : Type} (seq : Row → ℕ) (limit : ℕ) (rows : List Row) : List Row :=
  (rows.insertionSort fun first second ↦ seq first ≤ seq second).take limit

/-- The messages of a session in a snapshot, in the order they were inserted. -/
def sessionMessages (snapshot : Database) (sessionId : Uuid) : List StoredMessage :=
  snapshot.log.filterMap fun
    | .message session _ messageId =>
      if session = sessionId then
        (snapshot.row (.chatMessage messageId) : Option ChatMessageRow).map fun row ↦
          row.toMessage messageId
      else none
    | .event _ _ => none

/-- The job transitions of a session in a snapshot, in the order they were inserted. -/
def sessionEvents (snapshot : Database) (sessionId : Uuid) : List JobEvent :=
  snapshot.log.filterMap fun
    | .message _ _ _ => none
    | .event session transition => if session = sessionId then some transition else none

/-- `_messages_since`. -/
def messagesSince (messages : List StoredMessage) (afterSeq limit : ℕ) : List StoredMessage :=
  orderedBySeq StoredMessage.seq limit (messages.filter fun message ↦ afterSeq < message.seq)

/-- `_job_events_since`. -/
def jobEventsSince (events : List JobEvent) (afterSeq limit : ℕ) : List JobEvent :=
  orderedBySeq JobEvent.seq limit (events.filter fun event ↦ afterSeq < event.seq)

/-- The merge of `log_since`: `heapq.merge` on `seq`, cut to `limit`. -/
def mergedSince (messages : List StoredMessage) (events : List JobEvent) (afterSeq limit : ℕ) :
    List SessionRow :=
  (((messagesSince messages afterSeq limit).map SessionRow.message).merge
    ((jobEventsSince events afterSeq limit).map SessionRow.event)
      fun first second ↦ decide (first.seq ≤ second.seq)).take limit

/-- The session log after `after_seq`, in `seq` order, at most `limit`. A cursor or a limit that is
no `BIGINT` raises before anything is read. -/
def logSince (sessionId : Uuid) (afterSeq limit : ℕ) : Sql (List SessionRow) :=
  if IsBound afterSeq limit then
    .select fun snapshot ↦
      pure (mergedSince (sessionMessages snapshot sessionId) (sessionEvents snapshot sessionId)
        afterSeq limit)
  else .raise .dataError

theorem logSince_readOnly (sessionId : Uuid) (afterSeq limit : ℕ) :
    (logSince sessionId afterSeq limit).ReadOnly := by
  unfold logSince
  split_ifs
  · exact fun _ ↦ trivial
  · trivial

end Abacus.Postgres
