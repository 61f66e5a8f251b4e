import Abacus.Core.Jobs

/-!
# The solve child, from the parent's side

The contract of `worker/solve.py`, the clock of `worker/config.py` and the reading of the pipe in
`worker/process.py`. A child sends one outcome and exits, or it is gone before; what the read of the
pipe gave and the exit status decide what the collector returns (`readAndReap`). A pipe that ends
inside a message makes `recv` raise an `OSError`, which the collector does not catch.
-/

set_option autoImplicit false
set_option relaxedAutoImplicit false

namespace Abacus.Worker

/-! ### Outcomes -/

/-- The solver returned: bytes, and what they are. -/
structure Solved where
  data : List UInt8
  contentType : String
  deriving DecidableEq, Repr

/-- The child ran and reported that the work did not succeed. -/
structure Failed where
  error : String
  traceback : String
  permanent : Bool
  deriving DecidableEq, Repr

/-- The child exited without reporting; a negative status is the signal that killed it. -/
structure Died where
  exitcode : Int
  deriving DecidableEq, Repr

/-- What a solve comes to. -/
inductive Outcome
  | solved (solved : Solved)
  | failed (failed : Failed)
  | died (died : Died)
  deriving DecidableEq, Repr

/-- The names of `signal.Signals` on Linux, from 1. -/
def signalNames : List String :=
  ["SIGHUP", "SIGINT", "SIGQUIT", "SIGILL", "SIGTRAP", "SIGABRT", "SIGBUS", "SIGFPE", "SIGKILL",
    "SIGUSR1", "SIGSEGV", "SIGUSR2", "SIGPIPE", "SIGALRM", "SIGTERM", "SIGSTKFLT", "SIGCHLD",
    "SIGCONT", "SIGSTOP", "SIGTSTP", "SIGTTIN", "SIGTTOU", "SIGURG", "SIGXCPU", "SIGXFSZ",
    "SIGVTALRM", "SIGPROF", "SIGWINCH", "SIGIO", "SIGPWR", "SIGSYS"]

/-- `signal.Signals(number).name`; `none` is a number the platform does not name. -/
def signalName (number : ℕ) : Option String :=
  if number = 34 then some "SIGRTMIN"
  else if number = 64 then some "SIGRTMAX"
  else if number = 0 then none
  else signalNames[number - 1]?

/-- `Died.signal`, by its name. -/
def Died.signal (died : Died) : Option String :=
  if 0 ≤ died.exitcode then none else signalName (-died.exitcode).toNat

/-- `Died.error`. -/
def Died.error (died : Died) : String :=
  match died.signal with
  | some name => "solve child killed by " ++ name
  | none => "solve child exited with status " ++ toString died.exitcode

/-! ### The clock -/

/-- The clock the supervisor runs on, with what `__post_init__` checks. -/
structure WorkerConfig where
  lease : Duration
  extendEvery : Duration
  solveTimeout : Duration
  grace : Duration
  retryIn : Duration
  errorPause : Duration
  extendEvery_lt_lease : extendEvery < lease
  grace_pos : 0 < grace
  solveTimeout_pos : 0 < solveTimeout

/-- So many seconds. -/
def seconds (count : ℤ) : Duration :=
  count * 1000000

/-- The defaults. -/
def WorkerConfig.defaults : WorkerConfig where
  lease := seconds 60
  extendEvery := seconds 20
  solveTimeout := seconds 600
  grace := seconds 5
  retryIn := seconds 30
  errorPause := seconds 1
  extendEvery_lt_lease := by decide
  grace_pos := by decide
  solveTimeout_pos := by decide

/-- A number with at least `width` digits. -/
def padded (width : ℕ) (number : ℕ) : String :=
  let digits := toString number
  String.ofList (List.replicate (width - digits.length) '0') ++ digits

/-- `str` of a `timedelta`. -/
def durationText (duration : Duration) : String :=
  let microseconds := (duration % 1000000).toNat
  let seconds := ((duration / 1000000) % 86400).toNat
  let days := duration / 86400000000
  let day := if days = 0 then ""
    else toString days ++ (if days = 1 ∨ days = -1 then " day, " else " days, ")
  let clock := toString (seconds / 3600) ++ ":" ++ padded 2 (seconds / 60 % 60) ++ ":" ++
    padded 2 (seconds % 60)
  day ++ clock ++ (if microseconds = 0 then "" else "." ++ padded 6 microseconds)

/-! ### The collector -/

/-- What `Connection.recv` does with the pipe. -/
inductive PipeRead
  /-- The child's one message arrived whole. -/
  | message (outcome : Outcome)
  /-- The pipe ended before any byte: `EOFError`. -/
  | closed
  /-- The pipe ended inside the message, or the message could not be read: another exception. -/
  | raised (error : String)
  deriving DecidableEq, Repr

/-- Whether reading the pipe raises something that the collector does not catch. -/
def PipeRead.broken : PipeRead → Bool
  | .raised _ => true
  | _ => false

/-- What the collector ends with: an outcome, or the text of an exception. -/
abbrev Collected := Except String Outcome

/-- `_REAP_AFTER`: how long a child that has reported is waited for before it is killed. -/
def reapAfter : Duration :=
  seconds 5

/-- `_read_and_reap`: read the pipe, reap the child. -/
def readAndReap (read : PipeRead) (exitcode : Int) : Collected :=
  match read with
  | .message outcome => .ok outcome
  | .closed => .ok (.died ⟨exitcode⟩)
  | .raised error => .error error

theorem readAndReap_isOk (read : PipeRead) (exitcode : Int) :
    (∃ outcome, readAndReap read exitcode = .ok outcome) ↔ read.broken = false := by
  cases read with
  | message outcome => exact ⟨fun _ ↦ rfl, fun _ ↦ ⟨outcome, rfl⟩⟩
  | closed => exact ⟨fun _ ↦ rfl, fun _ ↦ ⟨_, rfl⟩⟩
  | raised error =>
    constructor
    · rintro ⟨outcome, h⟩
      exact absurd h (by simp [readAndReap])
    · intro h
      exact absurd h (by simp [PipeRead.broken])

end Abacus.Worker
