import Abacus.Core.Jobs
import Mathlib.Data.List.MinMax
import Mathlib.Data.Prod.Lex

/-!
# The job queue in memory

`tests/MemoryJobQueue.py`, the reference for what a `JobQueue` means: the rows are a dictionary,
kept here with the order in which it was filled, and a method changes the rows it finds in place. A
method runs alone, at one reading of the clock, and `uuid4` is an argument. `reserve` is its scan,
`_claim`: the waits between two scans change nothing.
-/

set_option autoImplicit false
set_option relaxedAutoImplicit false

namespace Abacus.Memory

/-- `_Row`. -/
structure Row where
  job : Job
  runAfter : Instant
  createdAt : Instant
  leaseId : Option Uuid
  leaseExpiresAt : Option Instant
  leaseOwner : Option String
  deriving DecidableEq, Repr

/-- `"lease expired with no attempts remaining"`. -/
def leaseExpired : String :=
  "lease expired with no attempts remaining"

/-- `text or default`: an empty text counts as none. -/
def textOr (text : Option String) (default : String) : String :=
  match text with
  | some text => if text = "" then default else text
  | none => default

namespace Row

/-- `_release`. -/
def release (row : Row) : Row :=
  { row with leaseId := none, leaseExpiresAt := none, leaseOwner := none }

/-- The row of a job that has just been enqueued. -/
def enqueued (now : Instant) (jobId : Uuid) (request : JobRequest) : Row where
  job :=
    { id := jobId
      kind := request.kind
      payload := request.payload
      state := .queued
      attempts := 0
      maxAttempts := request.maxAttempts
      sessionId := request.sessionId
      idempotencyKey := request.idempotencyKey
      resultRef := none
      error := none
      cancelRequested := false }
  runAfter := now + request.delay
  createdAt := now
  leaseId := none
  leaseExpiresAt := none
  leaseOwner := none

/-- What `cancel` does to a row: nothing to a terminal one, and to a running one it only raises the
flag. -/
def cancel (row : Row) : Row :=
  if row.job.state.terminal then row
  else if row.job.state = .running then { row with job := { row.job with cancelRequested := true } }
  else { row with job := { row.job with state := .cancelled, cancelRequested := true } }

/-- `lease_expires_at is not None and lease_expires_at <= now`. -/
def lapsed (row : Row) (now : Instant) : Bool :=
  row.leaseExpiresAt.any fun deadline ↦ decide (deadline ≤ now)

/-- What `_retire_lapsed` does to a row. -/
def retireLapsed (row : Row) (now : Instant) : Row :=
  if row.job.state ≠ .running then row
  else if row.lapsed now = false then row
  else if row.job.cancelRequested then
    { row with job := { row.job with state := .cancelled } }.release
  else if row.job.maxAttempts ≤ row.job.attempts then
    { row with
      job := { row.job with
        state := .dead
        error := some (textOr row.job.error leaseExpired) } }.release
  else row

/-- `_reservable`. -/
def reservable (row : Row) (now : Instant) : Bool :=
  match row.job.state with
  | .queued => decide (row.runAfter ≤ now)
  | .failed => decide (row.runAfter ≤ now)
  | .running =>
    row.lapsed now && decide (row.job.attempts < row.job.maxAttempts) && !row.job.cancelRequested
  | _ => false

/-- What a claim does to the row it takes. -/
def claim (row : Row) (now : Instant) (leaseId : Uuid) (owner : String) (lease : Duration) : Row :=
  { row with
    job := { row.job with state := .running, attempts := row.job.attempts + 1 }
    leaseId := some leaseId
    leaseExpiresAt := some (now + lease)
    leaseOwner := some owner }

/-- What `extend` does to a row. -/
def extend (row : Row) (now : Instant) (duration : Duration) : Row :=
  { row with leaseExpiresAt := some (now + duration) }

/-- What `ack` does to a row. -/
def ack (row : Row) (resultRef : Option String) : Row :=
  { row with job := { row.job with state := .done, resultRef := resultRef } }.release

/-- The state in which `nack` puts a job. -/
def nackState (row : Row) : JobState :=
  if row.job.cancelRequested then .cancelled
  else if row.job.maxAttempts ≤ row.job.attempts then .dead
  else .failed

/-- What `nack` does to a row. -/
def nack (row : Row) (now : Instant) (error : String) (retryIn : Option Duration) : Row :=
  { row with
    job := { row.job with state := row.nackState, error := some error }
    runAfter := now + retryIn.getD 0 }.release

end Row

/-- `_rows`, with the order in which its keys were inserted, and `_keys`. -/
structure JobQueue where
  order : List Uuid
  rows : Uuid → Option Row
  keys : Option Uuid → String → Option Uuid

/-- A call of a method, with the identity it draws. -/
inductive Operation
  | enqueue (jobId : Uuid) (request : JobRequest)
  | get (jobId : Uuid)
  | cancel (jobId : Uuid)
  | reserve (leaseId : Uuid) (owner : String) (lease : Duration)
  | extend (lease : Lease) (duration : Duration)
  | ack (lease : Lease) (resultRef : Option String)
  | nack (lease : Lease) (error : String) (retryIn : Option Duration)

/-- What a call gives its caller. -/
inductive Answer
  | job (job : Job)
  | found (job : Option Job)
  | reserved (lease : Option Lease)
  | extended (lease : Lease)
  | unit
  | staleLease (leaseId jobId : Uuid)
  /-- Any other exception. -/
  | raised
  deriving DecidableEq

namespace JobQueue

/-- A queue just built. -/
def new : JobQueue where
  order := []
  rows := fun _ ↦ none
  keys := fun _ _ ↦ none

/-- The queue with one row changed. -/
def setRow (queue : JobQueue) (jobId : Uuid) (row : Row) : JobQueue :=
  { queue with rows := Function.update queue.rows jobId (some row) }

/-- `_live`: the row that the lease still holds. -/
def live (queue : JobQueue) (lease : Lease) : Option Row :=
  (queue.rows lease.job.id).filter fun row ↦ row.leaseId == some lease.id

/-- `_retire_lapsed`: every row in turn. -/
def retireLapsed (queue : JobQueue) (now : Instant) : JobQueue :=
  { queue with rows := fun jobId ↦ (queue.rows jobId).map fun row ↦ row.retireLapsed now }

/-- The rows that can be reserved, in the order of the dictionary. -/
def candidates (queue : JobQueue) (now : Instant) : List (Uuid × Row) :=
  queue.order.filterMap fun jobId ↦
    ((queue.rows jobId).filter fun row ↦ row.reservable now).map fun row ↦ (jobId, row)

/-- Keys of `min` compare as Python's tuples do. -/
instance : Preorder (Instant ×ₗ Instant) :=
  (Prod.Lex.instLinearOrder Instant Instant).toPreorder

/-- The scan's choice: `min` by `(run_after, created_at)`, the first of those that tie. -/
def chosen (queue : JobQueue) (now : Instant) : Option (Uuid × Row) :=
  (queue.candidates now).argmin fun entry ↦ toLex (entry.2.runAfter, entry.2.createdAt)

/-- `enqueue`. -/
def enqueue (queue : JobQueue) (now : Instant) (jobId : Uuid) (request : JobRequest) :
    Answer × JobQueue :=
  match queue.keys request.sessionId request.idempotencyKey with
  | some known =>
    match queue.rows known with
    | some row => (.job row.job, queue)
    | none => (.raised, queue)
  | none =>
    (.job (Row.enqueued now jobId request).job,
      { order := if (queue.rows jobId).isSome then queue.order else queue.order ++ [jobId]
        rows := Function.update queue.rows jobId (some (Row.enqueued now jobId request))
        keys := Function.update queue.keys request.sessionId
          (Function.update (queue.keys request.sessionId) request.idempotencyKey (some jobId)) })

/-- `cancel`. -/
def cancel (queue : JobQueue) (jobId : Uuid) : Answer × JobQueue :=
  match queue.rows jobId with
  | some row => (.found (some row.cancel.job), queue.setRow jobId row.cancel)
  | none => (.found none, queue)

/-- `_claim`: retire, then take the first of the rows that can be reserved. -/
def claim (queue : JobQueue) (now : Instant) (leaseId : Uuid) (owner : String) (lease : Duration) :
    Answer × JobQueue :=
  match (queue.retireLapsed now).chosen now with
  | some (jobId, row) =>
    (.reserved (some ⟨leaseId, (row.claim now leaseId owner lease).job, owner, now + lease⟩),
      (queue.retireLapsed now).setRow jobId (row.claim now leaseId owner lease))
  | none => (.reserved none, queue.retireLapsed now)

/-- A method of the holder of a lease: `StaleLease` unless the lease holds its row. -/
def whileLive (queue : JobQueue) (lease : Lease) (answer : Row → Answer) (set : Row → Row) :
    Answer × JobQueue :=
  match queue.live lease with
  | some row => (answer (set row), queue.setRow lease.job.id (set row))
  | none => (.staleLease lease.id lease.job.id, queue)

/-- `extend`. -/
def extend (queue : JobQueue) (now : Instant) (lease : Lease) (duration : Duration) :
    Answer × JobQueue :=
  queue.whileLive lease (fun row ↦ .extended ⟨lease.id, row.job, lease.owner, now + duration⟩)
    fun row ↦ row.extend now duration

/-- `ack`. -/
def ack (queue : JobQueue) (lease : Lease) (resultRef : Option String) : Answer × JobQueue :=
  queue.whileLive lease (fun _ ↦ .unit) fun row ↦ row.ack resultRef

/-- `nack`. -/
def nack (queue : JobQueue) (now : Instant) (lease : Lease) (error : String)
    (retryIn : Option Duration) : Answer × JobQueue :=
  queue.whileLive lease (fun _ ↦ .unit) fun row ↦ row.nack now error retryIn

/-- A call at one reading of the clock. -/
def serve (queue : JobQueue) (now : Instant) : Operation → Answer × JobQueue
  | .enqueue jobId request => queue.enqueue now jobId request
  | .get jobId => (.found ((queue.rows jobId).map Row.job), queue)
  | .cancel jobId => queue.cancel jobId
  | .reserve leaseId owner lease => queue.claim now leaseId owner lease
  | .extend lease duration => queue.extend now lease duration
  | .ack lease resultRef => queue.ack lease resultRef
  | .nack lease error retryIn => queue.nack now lease error retryIn

end JobQueue

end Abacus.Memory
