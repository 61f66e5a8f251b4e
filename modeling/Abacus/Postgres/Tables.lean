import Abacus.Core.ChatRepository
import Abacus.RowLocking.Program

/-!
# The tables

The schema of `adapters/postgres/tables.py` as keyed rows and a log. A row is addressed by its
unique key: `chat_sessions` and `jobs` by their primary key, `chat_messages` by `message_id`. The
unique indexes on `(session_id, client_msg_id)` and on `(session_id, idempotency_key)` are rows of
their own, so that an insertion that conflicts is a statement on the key; the second takes a
session that may be absent, and two absent sessions are the same key, which is
`NULLS NOT DISTINCT`.

`chat_messages` and `job_events` also share the log: one entry for every row inserted into either,
in the order of the commits, carrying the `(session_id, seq)` of the row. An event row never
changes and is its entry; a message row is read through its `message_id`. Nothing here stops two
rows of a session from carrying one number.

The columns that no statement reads (`created_at`, `updated_at`, `last_seen_at`, `completed_at`
and the surrogate keys) are left out.
-/

set_option autoImplicit false
set_option relaxedAutoImplicit false

namespace Abacus.Postgres

/-- A row of `chat_messages`, without its key. -/
structure ChatMessageRow where
  sessionId : Uuid
  seq : ℕ
  role : Role
  status : Status
  text : String
  clientMsgId : Option String
  deriving DecidableEq, Repr

/-- A row of `jobs`, without its key. -/
structure JobRow where
  sessionId : Option Uuid
  idempotencyKey : String
  kind : String
  payload : Python.Dict
  state : JobState
  attempts : ℕ
  maxAttempts : ℕ
  runAfter : Instant
  publishedAt : Option Instant
  leaseId : Option Uuid
  leaseExpiresAt : Option Instant
  leaseOwner : Option String
  cancelRequested : Bool
  resultRef : Option String
  error : Option String
  deriving DecidableEq, Repr

/-- The unique keys: those of the rows, and those of the two indexes that deduplicate. -/
inductive RowKey
  | chatSession (id : Uuid)
  | chatMessage (messageId : Uuid)
  | clientMessage (sessionId : Uuid) (clientMsgId : String)
  | job (id : Uuid)
  | idempotency (sessionId : Option Uuid) (idempotencyKey : String)
  deriving DecidableEq, Repr

/-- What each key holds, if a row with that key exists: the session's `next_seq`, the row, or the
identity of the row an index entry points at. -/
abbrev Row : RowKey → Type
  | .chatSession _ => Option ℕ
  | .chatMessage _ => Option ChatMessageRow
  | .clientMessage _ _ => Option Uuid
  | .job _ => Option JobRow
  | .idempotency _ _ => Option Uuid

/-- A row inserted into `chat_messages` or `job_events`, with its place in its session's log. -/
inductive LogEntry
  | message (sessionId : Uuid) (seq : ℕ) (messageId : Uuid)
  | event (sessionId : Uuid) (transition : JobEvent)
  deriving DecidableEq, Repr

/-- The session of an entry. -/
def LogEntry.sessionId : LogEntry → Uuid
  | .message sessionId _ _ => sessionId
  | .event sessionId _ => sessionId

/-- The number of an entry. -/
def LogEntry.seq : LogEntry → ℕ
  | .message _ seq _ => seq
  | .event _ transition => transition.seq

@[simp] theorem LogEntry.sessionId_message (sessionId : Uuid) (seq : ℕ) (messageId : Uuid) :
    (LogEntry.message sessionId seq messageId).sessionId = sessionId :=
  rfl

@[simp] theorem LogEntry.sessionId_event (sessionId : Uuid) (transition : JobEvent) :
    (LogEntry.event sessionId transition).sessionId = sessionId :=
  rfl

@[simp] theorem LogEntry.seq_message (sessionId : Uuid) (seq : ℕ) (messageId : Uuid) :
    (LogEntry.message sessionId seq messageId).seq = seq :=
  rfl

@[simp] theorem LogEntry.seq_event (sessionId : Uuid) (transition : JobEvent) :
    (LogEntry.event sessionId transition).seq = transition.seq :=
  rfl

/-- What ends a transaction without a commit. -/
inductive StoreError
  /-- `StaleLease`: the lease is no longer live for the job. -/
  | staleLease (leaseId jobId : Uuid)
  /-- `LookupError`: no such chat session. -/
  | lookupError (sessionId : Uuid)
  /-- A unique constraint. -/
  | uniqueViolation
  /-- A check constraint. -/
  | checkViolation
  /-- A parameter that its type cannot hold. -/
  | dataError
  /-- `.one()` on a statement that returned no row. -/
  | noResultFound
  /-- The rollback of `record_user_message`, whose key was already recorded. -/
  | alreadyRecorded (sessionId : Uuid) (clientMsgId : String)
  deriving DecidableEq, Repr

/-- The database. -/
abbrev Database := RowLocking.Database RowKey Row LogEntry

/-- A transaction against it. -/
abbrev Sql := RowLocking.Program RowKey Row LogEntry StoreError

/-- The database with no row in any table. -/
def Database.empty : Database where
  row
    | .chatSession _ => none
    | .chatMessage _ => none
    | .clientMessage _ _ => none
    | .job _ => none
    | .idempotency _ _ => none
  log := []

/-- What the insertion of a row under a unique key does: it matches when no row has the key. -/
def ifAbsent {A : Type} (row : A) : Option A → Option (Option A)
  | none => some (some row)
  | some _ => none

theorem ifAbsent_eq_some {A : Type} {row : A} {existing result : Option A}
    (h : ifAbsent row existing = some result) : existing = none ∧ result = some row := by
  cases existing with
  | none => exact ⟨rfl, (Option.some.inj h).symm⟩
  | some found => exact absurd h (by simp [ifAbsent])

/-- The row of a job, if there is one. -/
def jobRow (database : Database) (jobId : Uuid) : Option JobRow :=
  database.row (.job jobId)

/-- The row of a message, if there is one. -/
def messageRow (database : Database) (messageId : Uuid) : Option ChatMessageRow :=
  database.row (.chatMessage messageId)

/-- The next number of a session, if the session exists. -/
def nextSeq (database : Database) (sessionId : Uuid) : Option ℕ :=
  database.row (.chatSession sessionId)

end Abacus.Postgres
