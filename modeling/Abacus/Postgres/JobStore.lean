import Abacus.Postgres.Seq
import Mathlib.Data.List.Sort

/-!
# The job store

Every statement of `adapters/postgres/job_store.py` on `jobs`, as a transaction program. `now` is
the transaction's `now()`. The columns a statement sets are a function on the row
(`JobRow.claimed`, `JobRow.nacked`, …) beside the predicate in its `where` clause, and the program
around it is the method: the update, the event row of the transition it made, the commit, the value
it returns.

A statement that ranges over the table takes the order in which it visits the rows, `scan`. A
statement that returns `None` or raises for want of a row has changed nothing. Nor has one with a
parameter that its column refuses; the programs take any, so they have such runs besides those of
the database, and what holds of every run holds of those. `Columns` says what a column gives back as
it was put.
-/

set_option autoImplicit false
set_option relaxedAutoImplicit false

namespace Abacus.Postgres

/-! ### The predicates and the columns -/

/-- `_LEASE_EXPIRED`. -/
def leaseExpiredError : String :=
  "lease expired with no attempts remaining"

namespace JobRow

/-- `_to_job`: the job columns of a row. -/
def toJob (row : JobRow) (jobId : Uuid) : Job where
  id := jobId
  kind := row.kind
  payload := row.payload
  state := row.state
  attempts := row.attempts
  maxAttempts := row.maxAttempts
  sessionId := row.sessionId
  idempotencyKey := row.idempotencyKey
  resultRef := row.resultRef
  error := row.error
  cancelRequested := row.cancelRequested

/-- `_WAITING`: queued or failed, and past `run_after`. -/
def waiting (row : JobRow) (now : Instant) : Bool :=
  row.state.waiting && decide (row.runAfter ≤ now)

/-- `lease_expires_at < now()`; a null deadline is not in the past. -/
def expired (row : JobRow) (now : Instant) : Bool :=
  row.leaseExpiresAt.any fun deadline ↦ decide (deadline < now)

/-- `_LAPSED`: running past its deadline with attempts left and no cancel requested. -/
def lapsed (row : JobRow) (now : Instant) : Bool :=
  row.state == .running && row.expired now && decide (row.attempts < row.maxAttempts) &&
    !row.cancelRequested

/-- The predicate of `retire_lapsed`: running past its deadline with no attempts left or a cancel
requested. -/
def retirable (row : JobRow) (now : Instant) : Bool :=
  row.state == .running && row.expired now &&
    (decide (row.maxAttempts ≤ row.attempts) || row.cancelRequested)

/-- `_fencing`: the row holds the token of this lease. -/
def fenced (row : JobRow) (lease : Lease) : Bool :=
  row.leaseId == some lease.id

/-- `_RELEASED`: every terminal write drops the lease. -/
def released (row : JobRow) : JobRow :=
  { row with leaseId := none, leaseExpiresAt := none, leaseOwner := none }

/-- The row `insert_or_get` inserts. -/
def inserted (now : Instant) (request : JobRequest) : JobRow where
  sessionId := request.sessionId
  idempotencyKey := request.idempotencyKey
  kind := request.kind
  payload := request.payload
  state := .queued
  attempts := 0
  maxAttempts := request.maxAttempts
  runAfter := now + request.delay
  publishedAt := none
  leaseId := none
  leaseExpiresAt := none
  leaseOwner := none
  cancelRequested := false
  resultRef := none
  error := none

/-- What `claim` sets. -/
def claimed (row : JobRow) (now : Instant) (leaseId : Uuid) (owner : String) (lease : Duration) :
    JobRow :=
  { row with
    state := .running
    attempts := row.attempts + 1
    leaseId := some leaseId
    leaseExpiresAt := some (now + lease)
    leaseOwner := some owner }

/-- What `cancel` sets: a running job keeps its state. -/
def cancelled (row : JobRow) : JobRow :=
  { row with
    cancelRequested := true
    state := if row.state = .running then .running else .cancelled }

/-- What `retire_lapsed` sets. -/
def retired (row : JobRow) : JobRow :=
  { row.released with
    state := if row.cancelRequested then .cancelled else .dead
    error := if row.cancelRequested then row.error else some (row.error.getD leaseExpiredError) }

/-- What `extend` sets. -/
def extended (row : JobRow) (now : Instant) (duration : Duration) : JobRow :=
  { row with leaseExpiresAt := some (now + duration) }

/-- What `ack` sets. -/
def acked (row : JobRow) (resultRef : Option String) : JobRow :=
  { row.released with state := .done, resultRef := resultRef }

/-- The state `nack` computes from the row. -/
def nackState (row : JobRow) : JobState :=
  if row.cancelRequested then .cancelled
  else if row.maxAttempts ≤ row.attempts then .dead
  else .failed

/-- What `nack` sets: only a job that goes round again loses its `published_at`. -/
def nacked (row : JobRow) (now : Instant) (error : String) (retryIn : Option Duration) : JobRow :=
  { row.released with
    state := row.nackState
    error := some error
    runAfter := now + retryIn.getD 0
    publishedAt :=
      if row.cancelRequested = false ∧ row.attempts < row.maxAttempts then none
      else row.publishedAt }

/-- What `mark_published` sets. -/
def published (row : JobRow) (now : Instant) : JobRow :=
  { row with publishedAt := some now }

end JobRow

/-! ### The transactions -/

/-- `update(jobs).where(id = jobId, …).values(…).returning(…)`: the row as it became, if it
matched. -/
def updateJob (jobId : Uuid) (set : JobRow → Option JobRow) : Sql (Option JobRow) :=
  .update (.job jobId) (fun row : Option JobRow ↦ (row.bind set).map some) fun returned ↦
    pure returned.join

/-- The row as a statement sets it, if it satisfies the statement's predicate. -/
def whenever (condition : JobRow → Bool) (set : JobRow → JobRow) (row : JobRow) : Option JobRow :=
  if condition row then some (set row) else none

/-- `_record_event`: number this transition in the session's log. A job with no session writes
nothing. -/
def recordEvent (jobId : Uuid) (row : JobRow) : Sql Unit :=
  match row.sessionId with
  | none => pure ()
  | some sessionId => do
    let seq ← allocateSeq sessionId
    .insert (.event sessionId ⟨seq, jobId, row.state⟩) (pure ())

/-- Create the job, or return the one this key already created; the flag says which. -/
def insertOrGet (now : Instant) (jobId : Uuid) (request : JobRequest) : Sql (Job × Bool) :=
  if request.maxAttempts = 0 then .raise .checkViolation
  else
    .update (.idempotency request.sessionId request.idempotencyKey) (ifAbsent jobId) fun
      | some _ =>
        .update (.job jobId) (ifAbsent (JobRow.inserted now request)) fun
          | some _ => do
            recordEvent jobId (JobRow.inserted now request)
            pure ((JobRow.inserted now request).toJob jobId, true)
          | none => .raise .uniqueViolation
      | none =>
        .select fun database ↦
          match database.row (.idempotency request.sessionId request.idempotencyKey) with
          | some existingId =>
            match jobRow database existingId with
            | some existing => pure (existing.toJob existingId, false)
            | none => .raise .noResultFound
          | none => .raise .noResultFound

/-- Record that the broker has the job. -/
def markPublished (now : Instant) (jobId : Uuid) : Sql Unit := do
  let _ ← updateJob jobId fun row ↦ some (row.published now)
  pure ()

/-- The job as it stands. -/
def getJob (jobId : Uuid) : Sql (Option Job) :=
  .select fun database ↦ pure ((jobRow database jobId).map fun row ↦ row.toJob jobId)

/-- Ask for a job to stop: a waiting job is cancelled, a running one is only flagged, a terminal
one is returned as it is. -/
def cancel (jobId : Uuid) : Sql (Option Job) := do
  match ← updateJob jobId (whenever (fun row ↦ !row.state.terminal) JobRow.cancelled) with
  | some row =>
    if row.state ≠ .running then recordEvent jobId row
    pure (some (row.toJob jobId))
  | none => getJob jobId

/-- Take this job if it is reservable. -/
def claim (now : Instant) (jobId leaseId : Uuid) (owner : String) (lease : Duration) :
    Sql (Option Lease) := do
  match ← updateJob jobId (whenever (fun row ↦ row.waiting now || row.lapsed now)
      fun row ↦ row.claimed now leaseId owner lease) with
  | some row =>
    recordEvent jobId row
    pure (some ⟨leaseId, row.toJob jobId, owner, now + lease⟩)
  | none => pure none

/-- Jobs whose lease lapsed and which should go round again. -/
def lapsedReservable (now : Instant) (scan : List Uuid) : Sql (List Uuid) :=
  .select fun database ↦
    pure (scan.filter fun jobId ↦ (jobRow database jobId).any fun row ↦ row.lapsed now)

/-- The update of `retire_lapsed`, row by row in the order of the scan. -/
def retireRows (now : Instant) : List Uuid → Sql (List (Uuid × JobRow))
  | [] => pure []
  | jobId :: scan => do
    let row ← updateJob jobId (whenever (fun row ↦ row.retirable now) JobRow.retired)
    let rows ← retireRows now scan
    pure ((row.map fun row ↦ (jobId, row)).toList ++ rows)

/-- The sort key of `retire_lapsed`, `(session_id is None, session_id)`. -/
def sessionOrder (first second : Uuid × JobRow) : Prop :=
  match first.2.sessionId, second.2.sessionId with
  | some first, some second => first.int ≤ second.int
  | some _, none => True
  | none, some _ => False
  | none, none => True

instance : DecidableRel sessionOrder := fun first second ↦ by
  unfold sessionOrder
  split <;> infer_instance

/-- One event for each row, in the order given. -/
def recordEvents : List (Uuid × JobRow) → Sql Unit
  | [] => pure ()
  | (jobId, row) :: rows => do
    recordEvent jobId row
    recordEvents rows

/-- Finish jobs whose consumer died and is never coming back. -/
def retireLapsed (now : Instant) (scan : List Uuid) : Sql (List Uuid) := do
  let rows ← retireRows now scan
  recordEvents (rows.insertionSort sessionOrder)
  pure (rows.map Prod.fst)

/-- Committed jobs the broker never got. -/
def unpublished (now : Instant) (scan : List Uuid) (olderThan : Duration) : Sql (List Uuid) :=
  .select fun database ↦
    pure (scan.filter fun jobId ↦ (jobRow database jobId).any fun row ↦
      row.publishedAt.isNone && row.state.waiting && decide (row.runAfter < now - olderThan))

/-- Push the deadline out, on the token alone. -/
def extend (now : Instant) (lease : Lease) (duration : Duration) : Sql Lease := do
  match ← updateJob lease.job.id (whenever (fun row ↦ row.fenced lease)
      fun row ↦ row.extended now duration) with
  | some row => pure ⟨lease.id, row.toJob lease.job.id, lease.owner, now + duration⟩
  | none => .raise (.staleLease lease.id lease.job.id)

/-- Terminal success. -/
def ack (lease : Lease) (resultRef : Option String) : Sql Unit := do
  match ← updateJob lease.job.id (whenever (fun row ↦ row.fenced lease)
      fun row ↦ row.acked resultRef) with
  | some row => recordEvent lease.job.id row
  | none => .raise (.staleLease lease.id lease.job.id)

/-- Give the job back; returns what it became. -/
def nack (now : Instant) (lease : Lease) (error : String) (retryIn : Option Duration) :
    Sql Job := do
  match ← updateJob lease.job.id (whenever (fun row ↦ row.fenced lease)
      fun row ↦ row.nacked now error retryIn) with
  | some row =>
    recordEvent lease.job.id row
    pure (row.toJob lease.job.id)
  | none => .raise (.staleLease lease.id lease.job.id)

end Abacus.Postgres
