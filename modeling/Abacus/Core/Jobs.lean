import Abacus.Python.Value
import Mathlib.Data.BitVec

/-!
# The job seam

The vocabulary of `core/jobs.py`: the states of a job, what a caller asks for, a job and a lease as
snapshots. Time is the database's clock in microseconds, the resolution of both `timestamptz` and
`timedelta`; a duration may be negative, as a `timedelta` may. A payload is opaque everywhere in
the program.
-/

set_option autoImplicit false
set_option relaxedAutoImplicit false

namespace Abacus

/-- A `uuid.UUID`: its 128-bit value. -/
structure Uuid where
  int : BitVec 128
  deriving DecidableEq, Repr

/-- A moment, in microseconds since 1970. -/
abbrev Instant := Int

/-- A `timedelta`, in microseconds. -/
abbrev Duration := Int

/-- A moment that a `datetime` can name: from the year 1 to the year 9999. -/
abbrev IsDatetime (instant : Instant) : Prop :=
  -62135596800000000 ≤ instant ∧ instant < 253402300800000000

/-- Where a job is in its life. -/
inductive JobState
  | queued
  | running
  | done
  | failed
  | dead
  | cancelled
  deriving DecidableEq, Repr

namespace JobState

/-- True when nothing further happens without a new enqueue. -/
def terminal (state : JobState) : Bool :=
  state == done || state == dead || state == cancelled

/-- The two states in which a job is on offer to any consumer: `failed` is queued and backing
off. -/
def waiting (state : JobState) : Bool :=
  state == queued || state == failed

/-- Every state is exactly one of waiting, running and terminal. -/
theorem waiting_or_running_or_terminal (state : JobState) :
    (state.waiting = true ∧ state ≠ running ∧ state.terminal = false) ∨
      (state.waiting = false ∧ state = running ∧ state.terminal = false) ∨
      (state.waiting = false ∧ state ≠ running ∧ state.terminal = true) := by
  cases state <;> decide

end JobState

/-- One state transition, as a row in a session's log. -/
structure JobEvent where
  seq : ℕ
  jobId : Uuid
  state : JobState
  deriving DecidableEq, Repr

/-- What a caller asks for; `insertOrGet` makes it a job. -/
structure JobRequest where
  kind : String
  payload : Python.Dict
  sessionId : Option Uuid
  idempotencyKey : String
  maxAttempts : ℕ
  delay : Duration
  deriving DecidableEq, Repr

/-- A job as the queue knows it, a snapshot. -/
structure Job where
  id : Uuid
  kind : String
  payload : Python.Dict
  state : JobState
  attempts : ℕ
  maxAttempts : ℕ
  sessionId : Option Uuid
  idempotencyKey : String
  resultRef : Option String
  error : Option String
  cancelRequested : Bool
  deriving DecidableEq, Repr

/-- A claim on a job, valid until `expiresAt`. `id` is the fencing token. -/
structure Lease where
  id : Uuid
  job : Job
  owner : String
  expiresAt : Instant
  deriving DecidableEq, Repr

/-- Advisory: whether the lease has lapsed on the consumer's own clock. -/
def Lease.expired (lease : Lease) (now : Instant) : Bool :=
  decide (lease.expiresAt ≤ now)

end Abacus
