import Abacus.Worker.Solve
import Mathlib.Logic.Function.Basic

/-!
# The handle on a solve child

`SolveProcess` of `worker/process.py`. The child runs, exits, and is gone from the process table
once it has been waited for. One collector, made by the first call that needs it, reads the pipe on
a thread and then reaps the child. Any number of calls of `outcome`, `stop` and `aclose` await it,
each through a shield of its own, so that cancelling a call leaves the collector to go on.

A step is one thing that happens: a call begins, a wait ends, the child exits, the read of the pipe
is over, with whatever it gave. How long the waits last only decides which of these comes first, so
the five seconds of `_REAP_AFTER` and the grace of `stop` are not in the model.

Along every run each call that ends gets what the collector ended with, and that is `readAndReap` of
the read (`Run.kept`). Unless the read raises, this is one outcome, and the child has been reaped by
then. A read that raises leaves the collector before it has waited for the child (`total_iff`).
-/

set_option autoImplicit false
set_option relaxedAutoImplicit false

namespace Abacus.Worker

/-! ### The child -/

/-- What the process table has for the child. -/
inductive Life
  | running
  /-- It has exited, and nobody has waited for it. -/
  | exited (status : Int)
  /-- `waitpid` has returned its status. -/
  | reaped (status : Int)
  deriving DecidableEq, Repr

/-- The signals that the parent sends. -/
inductive Signal
  | sigterm
  | sigkill
  deriving DecidableEq, Repr

/-- The child, and the signals sent to it so far. -/
structure Child where
  life : Life
  signals : List Signal
  deriving DecidableEq, Repr

namespace Child

/-- `Popen.poll`: a child that has exited is waited for. -/
def poll (child : Child) : Child :=
  match child.life with
  | .exited status => { child with life := .reaped status }
  | _ => child

/-- `Popen.returncode`. -/
def returncode (child : Child) : Option Int :=
  match child.life with
  | .reaped status => some status
  | _ => none

/-- `terminate` and `kill`: nothing is sent to a child that has been waited for. -/
def send (signal : Signal) (child : Child) : Child :=
  match child.returncode with
  | none => { child with signals := child.signals ++ [signal] }
  | some _ => child

/-- The child exits, if it still runs. -/
def exit (status : Int) (child : Child) : Option Child :=
  match child.life with
  | .running => some { child with life := .exited status }
  | _ => none

@[simp]
theorem send_life (signal : Signal) (child : Child) : (child.send signal).life = child.life := by
  rw [send]
  split <;> rfl

/-- A child that has been waited for stays so. -/
theorem poll_reaped {child : Child} {status : Int} (h : child.life = .reaped status) :
    child.poll.life = .reaped status := by
  rw [poll, h]
  exact h

theorem reaped_of_returncode {child : Child} {status : Int}
    (h : child.returncode = some status) : child.life = .reaped status := by
  rw [returncode] at h
  split at h
  · next hlife => rw [hlife, Option.some.inj h]
  · exact absurd h (Option.some_ne_none _).symm

theorem not_exit_reaped {child after : Child} {exited status : Int}
    (hexit : child.exit exited = some after) : child.life ≠ .reaped status := by
  intro hreaped
  rw [exit, hreaped] at hexit
  exact absurd hexit (Option.some_ne_none _).symm

end Child

/-! ### The collector -/

/-- Where `_read_and_reap` is, with what it has read. -/
inductive Collector
  /-- `recv`, on its thread. -/
  | reading
  /-- `join(_REAP_AFTER)`. -/
  | joining (outcome : Option Outcome)
  /-- `join()`, after the SIGKILL. -/
  | reaping (outcome : Option Outcome)
  | done (collected : Collected)
  deriving DecidableEq, Repr

/-- What the read leaves in `outcome`, or what it raises. -/
def PipeRead.outcome : PipeRead → Except String (Option Outcome)
  | .message outcome => .ok (some outcome)
  | .closed => .ok none
  | .raised error => .error error

/-- `_read_and_reap` after the read: what `recv` raised, other than an `EOFError`, ends it. -/
def Collector.received (read : PipeRead) : Collector :=
  match read.outcome with
  | .ok outcome => .joining outcome
  | .error error => .done (.error error)

/-- The end of `_read_and_reap`. -/
def Collector.report (outcome : Option Outcome) (exitcode : Option Int) : Collector :=
  .done (.ok (outcome.getD (.died ⟨exitcode.getD 0⟩)))

/-- What was read and the status make the outcome that `readAndReap` says. -/
theorem Collector.report_eq {read : PipeRead} {outcome : Option Outcome}
    (h : read.outcome = .ok outcome) (status : Int) :
    Collector.report outcome (some status) = .done (readAndReap read status) := by
  cases read with
  | message reported =>
    obtain rfl := Except.ok.inj h
    rfl
  | closed =>
    obtain rfl := Except.ok.inj h
    rfl
  | raised error => exact nomatch h

/-! ### The calls -/

/-- The methods that await the collector. -/
inductive Method
  | outcome
  | stop
  | aclose
  deriving DecidableEq, Repr

/-- What a method makes of what the collector ended with: `aclose` returns nothing. -/
def Method.result : Method → Collected → Except String (Option Outcome)
  | .aclose, collected => collected.map fun _ ↦ none
  | _, collected => collected.map some

theorem Method.result_error_ne {method : Method} {error : String} {outcome : Outcome} :
    method.result (.error error) ≠ method.result (.ok outcome) := by
  intro h
  cases method <;> exact nomatch h

/-- Where a call is. -/
inductive Wait
  /-- `outcome`, at its one `await`. -/
  | shielded
  /-- `stop`, within the grace. -/
  | stopping
  /-- `stop`, after the SIGKILL. -/
  | killed
  | ended (result : Except String (Option Outcome))
  | cancelled
  deriving DecidableEq

/-- Whether the call is still awaiting the collector. -/
def Wait.pending : Wait → Bool
  | .shielded => true
  | .stopping => true
  | .killed => true
  | _ => false

/-- A call of the handle. -/
structure Call where
  method : Method
  wait : Wait
  deriving DecidableEq

/-- The handle: the child, the collector once it has been made, and the calls so far. -/
structure SolveProcess (Caller : Type) where
  child : Child
  collector : Option Collector
  calls : Caller → Option Call

/-- What happens to the handle. -/
inductive Happening (Caller : Type)
  | called (caller : Caller) (method : Method)
  /-- The grace of a `stop` is over. -/
  | graceElapsed (caller : Caller)
  /-- A call goes on with what the collector ended with. -/
  | resumed (caller : Caller)
  | cancelled (caller : Caller)
  | exited (status : Int)
  | received (read : PipeRead)
  /-- The collector's `join` returns. -/
  | joined

/-- The read of the pipe that is over. -/
def Happening.pipeRead {Caller : Type} : Happening Caller → Option PipeRead
  | .received read => some read
  | _ => none

namespace SolveProcess

variable {Caller : Type}

/-- `SolveProcess.start`. -/
def start (Caller : Type) : SolveProcess Caller where
  child := ⟨.running, []⟩
  collector := none
  calls := fun _ ↦ none

/-- `_collect`. -/
def collect (process : SolveProcess Caller) : SolveProcess Caller :=
  { process with collector := some (process.collector.getD .reading) }

/-- The first lines of `stop`. -/
def terminate (process : SolveProcess Caller) : SolveProcess Caller :=
  let child := process.child.poll
  { process with child := if child.returncode = none then child.send .sigterm else child }

/-- `_read_and_reap` after the first `join`, which a child that is still running outlived. -/
def outlived (outcome : Option Outcome) (process : SolveProcess Caller) : SolveProcess Caller :=
  let child := process.child.poll
  match child.returncode with
  | some status =>
    { process with child := child, collector := some (.report outcome (some status)) }
  | none => { process with child := child.send .sigkill, collector := some (.reaping outcome) }

/-- `_read_and_reap` after the second `join`, which returns once the child has exited. -/
def reaped (outcome : Option Outcome) (process : SolveProcess Caller) :
    Option (SolveProcess Caller) :=
  let child := process.child.poll
  match child.returncode with
  | some status =>
    some { process with child := child, collector := some (.report outcome (some status)) }
  | none => none

variable [DecidableEq Caller]

/-- The handle with a call in another place. -/
def setCall (caller : Caller) (call : Call) (process : SolveProcess Caller) : SolveProcess Caller :=
  { process with calls := Function.update process.calls caller (some call) }

/-- A call, to its first `await`. -/
def begin (caller : Caller) (method : Method) (process : SolveProcess Caller) :
    SolveProcess Caller :=
  match method with
  | .outcome => process.collect.setCall caller ⟨method, .shielded⟩
  | .stop => process.terminate.collect.setCall caller ⟨method, .stopping⟩
  | .aclose => process.terminate.collect.setCall caller ⟨method, .stopping⟩

/-- The handle after what happened; `none` where it cannot happen. -/
def step (process : SolveProcess Caller) : Happening Caller → Option (SolveProcess Caller)
  | .called caller method =>
    match process.calls caller with
    | none => some (process.begin caller method)
    | some _ => none
  | .graceElapsed caller =>
    match process.calls caller with
    | some ⟨method, .stopping⟩ =>
      some ({ process with child := process.child.send .sigkill }.setCall caller ⟨method, .killed⟩)
    | _ => none
  | .resumed caller =>
    match process.calls caller, process.collector with
    | some ⟨method, wait⟩, some (.done collected) =>
      if wait.pending then
        some (process.setCall caller ⟨method, .ended (method.result collected)⟩)
      else none
    | _, _ => none
  | .cancelled caller =>
    match process.calls caller with
    | some ⟨method, wait⟩ =>
      if wait.pending then some (process.setCall caller ⟨method, .cancelled⟩) else none
    | none => none
  | .exited status => (process.child.exit status).map fun child ↦ { process with child := child }
  | .received read =>
    match process.collector with
    | some .reading => some { process with collector := some (.received read) }
    | _ => none
  | .joined =>
    match process.collector with
    | some (.joining outcome) => some (process.outlived outcome)
    | some (.reaping outcome) => process.reaped outcome
    | _ => none

/-! ### Runs -/

/-- What happened since `start`, and the handle after it. -/
inductive Run : List (Happening Caller) → SolveProcess Caller → Prop
  | start : Run [] (start Caller)
  | step {history : List (Happening Caller)} {process after : SolveProcess Caller}
    {happening : Happening Caller} (hrun : Run history process)
    (hstep : process.step happening = some after) : Run (history ++ [happening]) after

/-- The reads of the pipe in a run. -/
def reads (history : List (Happening Caller)) : List PipeRead :=
  history.filterMap Happening.pipeRead

omit [DecidableEq Caller] in
theorem mem_reads {history : List (Happening Caller)} {read : PipeRead} :
    read ∈ reads history ↔ .received read ∈ history := by
  rw [reads, List.mem_filterMap]
  constructor
  · rintro ⟨happening, hmem, hread⟩
    cases happening with
    | received other => exact Option.some.inj hread ▸ hmem
    | _ => exact nomatch hread
  · intro hmem
    exact ⟨.received read, hmem, rfl⟩

omit [DecidableEq Caller] in
theorem reads_append_received (history : List (Happening Caller)) (read : PipeRead) :
    reads (history ++ [.received read]) = reads history ++ [read] := by
  rw [reads, List.filterMap_append]
  rfl

omit [DecidableEq Caller] in
theorem reads_append_of_none {history : List (Happening Caller)} {happening : Happening Caller}
    (h : happening.pipeRead = none) : reads (history ++ [happening]) = reads history := by
  rw [reads, List.filterMap_append, List.filterMap_cons_none h]
  exact List.append_nil _

/-- The collector against the reads so far: it reads once, and ends with `readAndReap` of what it
read. It has waited for the child, unless the read raised. -/
def Collects (pipe : List PipeRead) (child : Child) : Option Collector → Prop
  | none => pipe = []
  | some .reading => pipe = []
  | some (.joining outcome) => ∃ read, pipe = [read] ∧ read.outcome = .ok outcome
  | some (.reaping outcome) => ∃ read, pipe = [read] ∧ read.outcome = .ok outcome
  | some (.done collected) =>
    ∃ read status, pipe = [read] ∧ collected = readAndReap read status ∧
      (read.broken = false → child.life = .reaped status)

/-- What the collector has done stays true of a child that is only waited for or signalled. -/
theorem Collects.child {pipe : List PipeRead} {child after : Child} {collector : Option Collector}
    (h : Collects pipe child collector)
    (hreaped : ∀ status, child.life = .reaped status → after.life = .reaped status) :
    Collects pipe after collector := by
  match collector, h with
  | none, h => exact h
  | some .reading, h => exact h
  | some (.joining outcome), h => exact h
  | some (.reaping outcome), h => exact h
  | some (.done collected), h =>
    obtain ⟨read, status, hpipe, hcollected, hlife⟩ := h
    exact ⟨read, status, hpipe, hcollected, fun hbroken ↦ hreaped status (hlife hbroken)⟩

/-- The read ends the collector, or leaves it to reap the child. -/
theorem Collects.received {child : Child} (read : PipeRead) :
    Collects [read] child (some (.received read)) := by
  cases read with
  | message outcome => exact ⟨_, rfl, rfl⟩
  | closed => exact ⟨_, rfl, rfl⟩
  | raised error => exact ⟨_, 0, rfl, rfl, fun hbroken ↦ nomatch hbroken⟩

/-- The collector ends with a child that has been waited for. -/
theorem Collects.report {read : PipeRead} {outcome : Option Outcome} {child : Child} {status : Int}
    (hread : read.outcome = .ok outcome) (hlife : child.life = .reaped status) :
    Collects [read] child (some (.report outcome (some status))) := by
  rw [Collector.report_eq hread]
  exact ⟨read, status, rfl, rfl, fun _ ↦ hlife⟩

/-- A handle in a run: the collector against the reads, and every call that has ended got what the
collector ended with. -/
structure Kept (pipe : List PipeRead) (process : SolveProcess Caller) : Prop where
  collects : Collects pipe process.child process.collector
  results : ∀ caller method result, process.calls caller = some ⟨method, .ended result⟩ →
    ∃ collected, process.collector = some (.done collected) ∧ result = method.result collected

namespace Kept

variable {pipe : List PipeRead} {process : SolveProcess Caller}

theorem setCall {caller : Caller} {call : Call} (h : process.Kept pipe)
    (hcall : ∀ result, call.wait = .ended result → ∃ collected,
      process.collector = some (.done collected) ∧ result = call.method.result collected) :
    (process.setCall caller call).Kept pipe := by
  constructor
  · exact h.collects
  · intro other method result hother
    by_cases heq : other = caller
    · subst heq
      obtain rfl : call = ⟨method, .ended result⟩ := by
        simpa only [SolveProcess.setCall, Function.update_self, Option.some.injEq] using hother
      exact hcall result rfl
    · simp only [SolveProcess.setCall, Function.update_of_ne heq] at hother
      exact h.results other method result hother

omit [DecidableEq Caller] in
theorem collect (h : process.Kept pipe) : process.collect.Kept pipe := by
  obtain ⟨child, collector, calls⟩ := process
  cases collector with
  | none =>
    constructor
    · exact h.collects
    · intro caller method result hcall
      obtain ⟨collected, hdone, -⟩ := h.results caller method result hcall
      exact nomatch hdone
  | some collector => exact h

omit [DecidableEq Caller] in
theorem child {after : Child} (h : process.Kept pipe)
    (hreaped : ∀ status, process.child.life = .reaped status → after.life = .reaped status) :
    Kept pipe { process with child := after } :=
  ⟨h.collects.child hreaped, h.results⟩

omit [DecidableEq Caller] in
theorem terminate (h : process.Kept pipe) : process.terminate.Kept pipe := by
  refine h.child fun status hlife ↦ ?_
  have hpoll := Child.poll_reaped hlife
  split
  · rw [Child.send_life]
    exact hpoll
  · exact hpoll

theorem begin {caller : Caller} {method : Method} (h : process.Kept pipe) :
    (process.begin caller method).Kept pipe := by
  cases method with
  | outcome => exact h.collect.setCall fun result hwait ↦ nomatch hwait
  | stop => exact h.terminate.collect.setCall fun result hwait ↦ nomatch hwait
  | aclose => exact h.terminate.collect.setCall fun result hwait ↦ nomatch hwait

omit [DecidableEq Caller] in
/-- While the collector is at work no call has ended, so it may go on to any other place. -/
theorem advance {collector : Collector} {child : Child} {reads : List PipeRead}
    (h : process.Kept pipe) (hworking : ∀ collected, process.collector ≠ some (.done collected))
    (hcollects : Collects reads child (some collector)) :
    Kept reads { process with child := child, collector := some collector } := by
  constructor
  · exact hcollects
  · intro caller method result hcall
    obtain ⟨collected, hdone, -⟩ := h.results caller method result hcall
    exact absurd hdone (hworking collected)

omit [DecidableEq Caller] in
/-- After a `join` the collector has waited for the child, or goes on to kill it. -/
theorem outlived {outcome : Option Outcome} (h : process.Kept pipe)
    (hcollector : process.collector = some (.joining outcome)) :
    (process.outlived outcome).Kept pipe := by
  have hcollects := h.collects
  rw [hcollector] at hcollects
  obtain ⟨read, rfl, hread⟩ := hcollects
  have hworking : ∀ collected, process.collector ≠ some (.done collected) := by
    intro collected hdone
    exact nomatch hcollector.symm.trans hdone
  dsimp only [SolveProcess.outlived]
  split
  · next status hstatus =>
    exact h.advance hworking (.report hread (Child.reaped_of_returncode hstatus))
  · exact h.advance hworking ⟨read, rfl, hread⟩

omit [DecidableEq Caller] in
theorem reaped {outcome : Option Outcome} {after : SolveProcess Caller} (h : process.Kept pipe)
    (hcollector : process.collector = some (.reaping outcome))
    (hreaped : process.reaped outcome = some after) : after.Kept pipe := by
  have hcollects := h.collects
  rw [hcollector] at hcollects
  obtain ⟨read, rfl, hread⟩ := hcollects
  have hworking : ∀ collected, process.collector ≠ some (.done collected) := by
    intro collected hdone
    exact nomatch hcollector.symm.trans hdone
  dsimp only [SolveProcess.reaped] at hreaped
  split at hreaped
  · next status hstatus =>
    obtain rfl := Option.some.inj hreaped
    exact h.advance hworking (.report hread (Child.reaped_of_returncode hstatus))
  · exact nomatch hreaped

/-- One step of the handle. -/
theorem step {history : List (Happening Caller)} {happening : Happening Caller}
    {after : SolveProcess Caller} (h : process.Kept (reads history))
    (hstep : process.step happening = some after) :
    after.Kept (reads (history ++ [happening])) := by
  cases happening with
  | called caller method =>
    rw [reads_append_of_none rfl]
    dsimp only [SolveProcess.step] at hstep
    split at hstep
    · exact Option.some.inj hstep ▸ h.begin
    · exact nomatch hstep
  | graceElapsed caller =>
    rw [reads_append_of_none rfl]
    dsimp only [SolveProcess.step] at hstep
    split at hstep
    · obtain rfl := Option.some.inj hstep
      have hkilled : ∀ status, process.child.life = .reaped status →
          (process.child.send .sigkill).life = .reaped status := by
        intro status hlife
        rw [Child.send_life, hlife]
      exact (h.child hkilled).setCall fun result hwait ↦ nomatch hwait
    · exact nomatch hstep
  | resumed caller =>
    rw [reads_append_of_none rfl]
    dsimp only [SolveProcess.step] at hstep
    split at hstep
    · next method wait collected hcall hcollector =>
      split_ifs at hstep
      obtain rfl := Option.some.inj hstep
      refine h.setCall fun result hwait ↦ ⟨collected, hcollector, ?_⟩
      exact (Wait.ended.inj hwait).symm
    · exact nomatch hstep
  | cancelled caller =>
    rw [reads_append_of_none rfl]
    dsimp only [SolveProcess.step] at hstep
    split at hstep
    · split_ifs at hstep
      obtain rfl := Option.some.inj hstep
      exact h.setCall fun result hwait ↦ nomatch hwait
    · exact nomatch hstep
  | exited status =>
    rw [reads_append_of_none rfl]
    obtain ⟨child, hexit, rfl⟩ := Option.map_eq_some_iff.mp hstep
    exact h.child fun _ hlife ↦ absurd hlife (Child.not_exit_reaped hexit)
  | received read =>
    rw [reads_append_received]
    dsimp only [SolveProcess.step] at hstep
    split at hstep
    · next hcollector =>
      obtain rfl := Option.some.inj hstep
      have hpipe := h.collects
      rw [hcollector] at hpipe
      rw [show reads history = [] from hpipe]
      refine h.advance ?_ (Collects.received read)
      intro collected hdone
      exact nomatch hcollector.symm.trans hdone
    · exact nomatch hstep
  | joined =>
    rw [reads_append_of_none rfl]
    dsimp only [SolveProcess.step] at hstep
    split at hstep
    · next outcome hcollector => exact Option.some.inj hstep ▸ h.outlived hcollector
    · next outcome hcollector => exact h.reaped hcollector hstep
    · exact nomatch hstep

end Kept

/-- Along a run every call that has ended got what the collector ended with. -/
theorem Run.kept {history : List (Happening Caller)} {process : SolveProcess Caller}
    (h : Run history process) : process.Kept (reads history) := by
  induction h with
  | start => exact ⟨rfl, fun caller method result hcall ↦ nomatch hcall⟩
  | step hrun hstep ih => exact ih.step hstep

/-! ### Totality -/

/-- The outcome is the reported one if one was read whole, and otherwise a failure. -/
def Reports (read : PipeRead) (outcome : Outcome) : Prop :=
  match read with
  | .message reported => outcome = reported
  | _ => ∀ solved, outcome ≠ .solved solved

/-- Every call that has ended returned, all with one outcome, and if one of them is a `stop` or an
`aclose` the child has been reaped. -/
structure Total (history : List (Happening Caller)) (process : SolveProcess Caller) : Prop where
  resolves : ∃ outcome, (∀ read, .received read ∈ history → Reports read outcome) ∧
    ∀ caller method result, process.calls caller = some ⟨method, .ended result⟩ →
      result = method.result (.ok outcome)
  reaps : ∀ caller method result, process.calls caller = some ⟨method, .ended result⟩ →
    method ≠ .outcome → ∃ status, process.child.life = .reaped status

omit [DecidableEq Caller] in
theorem reports_of_readAndReap {read : PipeRead} {status : Int} {outcome : Outcome}
    (h : readAndReap read status = .ok outcome) : Reports read outcome := by
  cases read with
  | message reported => exact (Except.ok.inj h).symm
  | closed =>
    obtain rfl := Except.ok.inj h
    intro solved
    exact Outcome.noConfusion
  | raised error => exact nomatch h

/-- In every run, once a call has ended, every call so far resolves to one outcome and a `stop` that
has ended leaves the child reaped if and only if the read of the pipe did not raise. -/
theorem total_iff {history : List (Happening Caller)} {process : SolveProcess Caller}
    (h : Run history process) (caller : Caller) (method : Method)
    (result : Except String (Option Outcome))
    (hended : process.calls caller = some ⟨method, .ended result⟩) :
    process.Total history ↔ ∀ error, .received (.raised error) ∉ history := by
  have hkept := h.kept
  obtain ⟨collected, hdone, hresult⟩ := hkept.results caller method result hended
  have hcollects := hkept.collects
  rw [hdone] at hcollects
  obtain ⟨read, status, hpipe, hcollected, hreaped⟩ := hcollects
  have hreads : ∀ other, .received other ∈ history ↔ other = read := by
    intro other
    rw [← mem_reads, hpipe, List.mem_singleton]
  constructor
  · intro htotal error hraised
    obtain rfl := (hreads _).mp hraised
    obtain ⟨outcome, -, hall⟩ := htotal.resolves
    apply Method.result_error_ne
    calc method.result (.error error)
      _ = result := by rw [hresult, hcollected]; rfl
      _ = method.result (.ok outcome) := hall caller method result hended
  · intro hwhole
    have hbroken : read.broken = false := by
      cases read with
      | raised error => exact absurd ((hreads _).mpr rfl) (hwhole error)
      | _ => rfl
    obtain ⟨outcome, houtcome⟩ := (readAndReap_isOk read status).mpr hbroken
    constructor
    · refine ⟨outcome, ?_, ?_⟩
      · intro other hother
        rw [(hreads other).mp hother]
        exact reports_of_readAndReap houtcome
      · intro other otherMethod otherResult hother
        obtain ⟨otherCollected, hotherDone, rfl⟩ := hkept.results _ _ _ hother
        obtain rfl : collected = otherCollected :=
          Collector.done.inj (Option.some.inj (hdone.symm.trans hotherDone))
        rw [hcollected, houtcome]
    · intro other otherMethod otherResult hother hmethod
      exact ⟨status, hreaped hbroken⟩

/-- A child that ignores SIGTERM, with an `outcome` that is cancelled, a `stop` that has to kill and
an `aclose` after it. -/
theorem total_iff_killed :
    ∃ (history : List (Happening ℕ)) (process : SolveProcess ℕ), Run history process ∧
      process.calls 0 = some ⟨.outcome, .cancelled⟩ ∧
      process.calls 1 = some ⟨.stop, .ended (.ok (some (.died ⟨-9⟩)))⟩ ∧
      process.calls 2 = some ⟨.aclose, .ended (.ok none)⟩ ∧
      process.Total history := by
  have hcalled : Run [.called 0 .outcome, .called 1 .stop, .cancelled 0] _ :=
    .step (.step (.step .start rfl) rfl) rfl
  have hkilled : Run [.called 0 .outcome, .called 1 .stop, .cancelled 0, .graceElapsed 1,
      .exited (-9), .received .closed, .joined] _ :=
    .step (.step (.step (.step hcalled rfl) rfl) rfl) rfl
  have hended : Run [.called 0 .outcome, .called 1 .stop, .cancelled 0, .graceElapsed 1,
      .exited (-9), .received .closed, .joined, .resumed 1, .called 2 .aclose, .resumed 2] _ :=
    .step (.step (.step hkilled rfl) rfl) rfl
  refine ⟨_, _, hended, rfl, rfl, rfl,
    (total_iff hended 1 .stop (.ok (some (.died ⟨-9⟩))) rfl).mpr ?_⟩
  intro error hraised
  exact nomatch List.mem_singleton.mp (mem_reads.mpr hraised)

/-- A SIGTERM that reaches the child inside its message: `stop` raises what the read raised, and
nobody has waited for the child. -/
theorem stop_raises :
    ∃ (history : List (Happening ℕ)) (process : SolveProcess ℕ), Run history process ∧
      process.calls 0 = some ⟨.stop, .ended (.error "got end of file during message")⟩ ∧
      process.child.life = .exited (-15) ∧ ¬process.Total history := by
  have hended : Run [.called 0 .stop, .exited (-15),
      .received (.raised "got end of file during message"), .resumed 0] _ :=
    .step (.step (.step (.step .start rfl) rfl) rfl) rfl
  refine ⟨_, _, hended, rfl, rfl, ?_⟩
  intro htotal
  obtain ⟨status, hreaped⟩ := htotal.reaps 0 .stop _ rfl (by decide)
  exact nomatch hreaped

end SolveProcess

end Abacus.Worker
