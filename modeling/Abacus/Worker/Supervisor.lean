import Abacus.Core.Artifacts
import Abacus.Worker.Solve

/-!
# The supervisor

`Supervisor.run_once` as a machine. A `Stage` is a place where the code waits, with its local
variables, or calls something that may raise; an `Input` is what it waited for, and
`Supervisor.resume` runs the code to the next such place. The child runs beside it: its collector
has ended with something or not yet, and the stages that await it (`stopping` and `killed` in
`_kill`, `closing` and `reaping` in `aclose`) get whatever it ended with, each time.

How long a wait lasts decides only when it ends, so the timeouts of `asyncio.wait` and `wait_for`
are not part of the machine; what the code reads off a clock is part of the input. `nacking` is the
stage of both `_nack` and `_release`, which differ in what they let out.
-/

set_option autoImplicit false
set_option relaxedAutoImplicit false

namespace Abacus.Worker

/-- Why the supervisor stopped watching a child. -/
inductive Ending
  | completed
  | cancelled
  | timedOut
  | stale
  | undefendable
  | released
  deriving DecidableEq, Repr

/-- What one turn of the loop did. -/
structure Handled where
  lease : Lease
  outcome : Outcome
  ending : Ending
  deriving DecidableEq, Repr

/-- How `run_once` ends: nothing was reservable, a job was handled, or an exception. -/
inductive Result
  | nothing
  | handled (handled : Handled)
  | raised
  deriving DecidableEq, Repr

/-- Where `run_once` is. -/
inductive Stage
  | reserving
  | spawning (lease : Lease)
  | watching (lease : Lease) (cap : Instant)
  | extending (lease : Lease) (cap : Instant)
  /-- `_kill`, within the grace. -/
  | stopping (lease : Lease) (ending : Ending)
  /-- `_kill`, after the SIGKILL. -/
  | killed (lease : Lease) (ending : Ending)
  | discarding (handled : Handled)
  | nacking (handled : Handled) (error : String) (retryIn : Option Duration)
  | putting (handled : Handled) (solved : Solved)
  | acking (handled : Handled) (resultRef : String)
  /-- `aclose`, within the grace, with what comes after it. -/
  | closing (result : Result)
  /-- `aclose`, after the SIGKILL. -/
  | reaping (result : Result)
  | finished (result : Result)
  deriving DecidableEq, Repr

/-- The lease under which a child may be running. -/
def Stage.running : Stage → Option Lease
  | .watching lease _ => some lease
  | .extending lease _ => some lease
  | .stopping lease _ => some lease
  | .killed lease _ => some lease
  | _ => none

/-- The ending that is decided on. -/
def Stage.ending : Stage → Option Ending
  | .stopping _ ending => some ending
  | .killed _ ending => some ending
  | .discarding handled => some handled.ending
  | .nacking handled _ _ => some handled.ending
  | .putting handled _ => some handled.ending
  | .acking handled _ => some handled.ending
  | _ => none

/-- The three outcomes of `_extend`. -/
inductive Renewal
  | renewed (lease : Lease)
  | stale
  | unreachable
  deriving DecidableEq, Repr

/-- What a stage waited for. A time is the clock's where the code reads it. -/
inductive Input
  | reserved (lease : Option Lease)
  | spawned (time : Instant)
  /-- The end of a wait: whether the solve and the stop event are done, and the loop's time. -/
  | woke (reported stopping : Bool) (time : Instant)
  | extended (renewal : Renewal) (now : Instant)
  /-- The collector is done. -/
  | collected
  | graceElapsed
  | stored
  | notStored (error : String)
  | settled
  | stale
  | raised
  deriving DecidableEq, Repr

/-- `_reported`: the child's outcome, or the collector's failure dressed as one. -/
def reported (collected : Collected) : Outcome :=
  match collected with
  | .ok outcome => outcome
  | .error error =>
    .failed ⟨"the solve child's outcome could not be read: " ++ error, "", false⟩

namespace Supervisor

/-- `_report`. -/
def report (config : WorkerConfig) (handled : Handled) : Stage :=
  match handled.outcome with
  | .solved solved => .putting handled solved
  | .failed failed => .nacking handled failed.error (some config.retryIn)
  | .died died => .nacking handled died.error (some config.retryIn)

/-- `_finish`, to its first `await`. -/
def finish (config : WorkerConfig) (handled : Handled) : Stage :=
  match handled.ending with
  | .stale => .discarding handled
  | .undefendable => .nacking handled "worker lost contact with the job store" none
  | .cancelled => .nacking handled "cancelled while running" none
  | .released => .nacking handled "released by a worker that is shutting down" none
  | .timedOut =>
    .nacking handled ("solve exceeded its " ++ durationText config.solveTimeout ++
      " wall-clock cap") (some config.retryIn)
  | .completed => report config handled

/-- `_supervise` after a wait that did not end in an `_extend`: the child reported, the worker is
stopping, or the cap is past. -/
def wake (config : WorkerConfig) (collected : Option Collected) (lease : Lease) (cap : Instant)
    (solved stopping : Bool) (time : Instant) : Option Stage :=
  if solved then
    collected.map fun collected ↦ finish config ⟨lease, reported collected, .completed⟩
  else if stopping then some (.stopping lease .released)
  else if cap ≤ time then some (.stopping lease .timedOut)
  else some (.extending lease cap)

/-- `_supervise` after `_extend`. -/
def beat (lease : Lease) (cap : Instant) (renewal : Renewal) (now : Instant) : Stage :=
  match renewal with
  | .stale => .stopping lease .stale
  | .unreachable =>
    if lease.expired now then .stopping lease .undefendable else .watching lease cap
  | .renewed renewed =>
    if renewed.job.cancelRequested then .stopping renewed .cancelled else .watching renewed cap

/-- The end of `_kill`: what the collector raised goes through `_supervise` to the `finally`. -/
def stopped (config : WorkerConfig) (lease : Lease) (ending : Ending) : Collected → Stage
  | .ok outcome => finish config ⟨lease, outcome, ending⟩
  | .error _ => .closing .raised

/-- The end of `aclose`: what the collector raised takes the place of what was to be returned. -/
def closed (result : Result) : Collected → Stage
  | .ok _ => .finished result
  | .error _ => .finished .raised

/-- `run_once`, from one stage to the next; `none` when the stage does not wait for that. -/
def resume (config : WorkerConfig) (collected : Option Collected) : Stage → Input → Option Stage
  | .reserving, .reserved none => some (.finished .nothing)
  | .reserving, .reserved (some lease) => some (.spawning lease)
  | .reserving, .raised => some (.finished .raised)
  | .spawning lease, .spawned time => some (.watching lease (time + config.solveTimeout))
  | .spawning _, .raised => some (.finished .raised)
  | .watching lease cap, .woke solved stopping time =>
    wake config collected lease cap solved stopping time
  | .extending lease cap, .extended renewal now => some (beat lease cap renewal now)
  | .stopping lease ending, .collected => collected.map (stopped config lease ending)
  | .stopping lease ending, .graceElapsed => some (.killed lease ending)
  | .killed lease ending, .collected => collected.map (stopped config lease ending)
  | .discarding handled, .settled => some (.closing (.handled handled))
  | .discarding _, .raised => some (.closing .raised)
  | .nacking handled _ _, .settled => some (.closing (.handled handled))
  | .nacking handled _ _, .stale => some (.closing (.handled handled))
  | .nacking handled _ _, .raised =>
    -- only `_release` swallows what is not a `StaleLease`
    some (.closing (if handled.ending = .undefendable then .handled handled else .raised))
  | .putting handled _, .stored =>
    some (.acking handled (artifactKey handled.lease.job.id handled.lease.id))
  | .putting handled _, .notStored error =>
    some (.nacking handled ("writing the artifact failed: " ++ error) (some config.retryIn))
  | .acking handled _, .settled => some (.closing (.handled handled))
  | .acking handled _, .stale => some (.closing (.handled handled))
  | .acking _ _, .raised => some (.closing .raised)
  | .closing result, .collected => collected.map (closed result)
  | .closing result, .graceElapsed => some (.reaping result)
  | .reaping result, .collected => collected.map (closed result)
  | _, _ => none

end Supervisor

end Abacus.Worker
