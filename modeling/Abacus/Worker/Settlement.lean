import Abacus.Worker.Supervisor

/-!
# Every claim a worker takes is settled

An `Environment` fixes everything that `run_once` does not decide once `reserve` has returned a
lease: whether the child can be spawned, what its pipe gives, how each wait of the supervisor's loop
ends, what `extend` comes to, what `put` and the settling call raise. `Environment.run` follows
`run_once` through it and notes each call of `ack`, `nack` and `discard`.

`claim_settled` says when the lease is settled exactly once and `run_once` returns: exactly when the
child was spawned and its pipe gave one whole message or none at all. A child killed in the middle
of a message (`claim_unsettled`) leaves the lease with nobody.
-/

set_option autoImplicit false
set_option relaxedAutoImplicit false

namespace Abacus.Worker

/-- A call that settles a lease. -/
inductive Settlement
  | ack (lease : Lease) (resultRef : String)
  | nack (lease : Lease) (error : String) (retryIn : Option Duration)
  | discard (lease : Lease)
  deriving DecidableEq, Repr

/-- The lease a call settles. -/
def Settlement.lease : Settlement → Lease
  | .ack lease _ => lease
  | .nack lease _ _ => lease
  | .discard lease => lease

/-- The settling call that a stage makes. -/
def Stage.settlement : Stage → Option Settlement
  | .discarding handled => some (.discard handled.lease)
  | .nacking handled error retryIn => some (.nack handled.lease error retryIn)
  | .acking handled resultRef => some (.ack handled.lease resultRef)
  | _ => none

/-- What `extend` comes to: the row's job and the new deadline, a lease taken by someone else, or no
answer. -/
inductive Extension
  | renewed (job : Job) (expiresAt : Instant)
  | stale
  | unreachable
  deriving DecidableEq, Repr

/-- `extend` returns the lease it was given, on the same job. -/
def Extension.renewal (lease : Lease) : Extension → Renewal
  | .renewed job expiresAt =>
    .renewed { lease with job := { job with id := lease.job.id }, expiresAt := expiresAt }
  | .stale => .stale
  | .unreachable => .unreachable

/-- One turn of the supervisor's loop: how the wait ended, and what `extend` came to if it was
called. -/
structure Beat where
  reported : Bool
  stopping : Bool
  time : Instant
  extension : Extension
  now : Instant

/-- Everything that `run_once` does not decide. The loop's clock passes every moment. -/
structure Environment where
  spawns : Bool
  started : Instant
  read : PipeRead
  exitcode : Int
  beats : ℕ → Beat
  /-- Whether the child goes within the grace when the supervisor stops it, and when `aclose`
  does. -/
  stopsInGrace : Bool
  closesInGrace : Bool
  /-- The exception `put` raises, if it does. -/
  put : Option String
  /-- Whether `ack` or `nack` raises `StaleLease`. -/
  staleLease : Bool
  passes : ∀ moment, ∃ beat, moment ≤ (beats beat).time

namespace Environment

/-- What the collector ends with. -/
def collected (environment : Environment) : Collected :=
  readAndReap environment.read environment.exitcode

/-- What a stage gets. -/
def answer (environment : Environment) (beat : ℕ) : Stage → Input
  | .reserving => .reserved none
  | .spawning _ => if environment.spawns then .spawned environment.started else .raised
  | .watching _ _ =>
    .woke (environment.beats beat).reported (environment.beats beat).stopping
      (environment.beats beat).time
  | .extending lease _ =>
    .extended ((environment.beats beat).extension.renewal lease) (environment.beats beat).now
  | .stopping _ _ => if environment.stopsInGrace then .collected else .graceElapsed
  | .killed _ _ => .collected
  | .discarding _ => .settled
  | .nacking _ _ _ => if environment.staleLease then .stale else .settled
  | .putting _ _ =>
    match environment.put with
    | none => .stored
    | some error => .notStored error
  | .acking _ _ => if environment.staleLease then .stale else .settled
  | .closing _ => if environment.closesInGrace then .collected else .graceElapsed
  | .reaping _ => .collected
  | .finished _ => .collected

end Environment

/-- How far `run_once` has come: its stage, the turns of the loop it has made, and the settling
calls, in order. -/
structure Turn where
  stage : Stage
  beat : ℕ
  settlements : List Settlement

/-- `run_once` when `reserve` has just returned a lease. -/
def Turn.of (lease : Lease) : Turn :=
  ⟨.spawning lease, 0, []⟩

/-- The number of the next turn of the loop. -/
def Stage.nextBeat (beat : ℕ) : Stage → ℕ
  | .extending _ _ => beat + 1
  | _ => beat

namespace Environment

/-- One stage. -/
def step (config : WorkerConfig) (environment : Environment) (turn : Turn) : Turn :=
  match Supervisor.resume config (some environment.collected) turn.stage
    (environment.answer turn.beat turn.stage) with
  | none => turn
  | some stage =>
    ⟨stage, turn.stage.nextBeat turn.beat, turn.settlements ++ stage.settlement.toList⟩

/-- So many stages. -/
def run (config : WorkerConfig) (environment : Environment) : ℕ → Turn → Turn
  | 0, turn => turn
  | fuel + 1, turn => environment.run config fuel (environment.step config turn)

end Environment

/-- From here the lease is settled once, counting what is settled already, and `run_once`
returns. -/
def SettlesFrom (config : WorkerConfig) (environment : Environment) (lease : Lease) (turn : Turn) :
    Prop :=
  ∃ fuel handled beat settlement,
    environment.run config fuel turn = ⟨.finished (.handled handled), beat, [settlement]⟩ ∧
      settlement.lease.id = lease.id ∧ settlement.lease.job.id = lease.job.id

/-- The lease is passed to exactly one of `ack`, `nack` and `discard`, and `run_once` returns. -/
def Settles (config : WorkerConfig) (environment : Environment) (lease : Lease) : Prop :=
  SettlesFrom config environment lease (.of lease)

section Runs

variable {config : WorkerConfig} {environment : Environment}

theorem Environment.step_of_resume {stage next : Stage} {beat : ℕ} {settlements : List Settlement}
    (h : Supervisor.resume config (some environment.collected) stage
      (environment.answer beat stage) = some next) :
    environment.step config ⟨stage, beat, settlements⟩ =
      ⟨next, stage.nextBeat beat, settlements ++ next.settlement.toList⟩ := by
  simp only [Environment.step, h]

/-! ### A settled lease -/

namespace SettlesFrom

variable {lease : Lease}

theorem step {stage next : Stage} {beat : ℕ} {settlements : List Settlement}
    (h : Supervisor.resume config (some environment.collected) stage
      (environment.answer beat stage) = some next)
    (hnext : SettlesFrom config environment lease
      ⟨next, stage.nextBeat beat, settlements ++ next.settlement.toList⟩) :
    SettlesFrom config environment lease ⟨stage, beat, settlements⟩ := by
  obtain ⟨fuel, handled, later, settlement, hrun, hids⟩ := hnext
  refine ⟨fuel + 1, handled, later, settlement, ?_, hids⟩
  rw [Environment.run, Environment.step_of_resume h]
  exact hrun

variable {outcome : Outcome} {beat : ℕ}

/-- `aclose` lets a result through when the collector ended with an outcome. -/
theorem closing (hcollected : environment.collected = .ok outcome) {handled : Handled}
    {settlement : Settlement} (hid : settlement.lease.id = lease.id)
    (hjob : settlement.lease.job.id = lease.job.id) :
    SettlesFrom config environment lease ⟨.closing (.handled handled), beat, [settlement]⟩ := by
  have hfinished : SettlesFrom config environment lease
      ⟨.finished (.handled handled), beat, [settlement]⟩ :=
    ⟨0, handled, beat, settlement, rfl, hid, hjob⟩
  cases hgrace : environment.closesInGrace with
  | true =>
    have hclosed : Supervisor.resume config (some environment.collected)
        (.closing (.handled handled)) (environment.answer beat (.closing (.handled handled))) =
          some (.finished (.handled handled)) := by
      simp [Environment.answer, hgrace, Supervisor.resume, hcollected, Supervisor.closed]
    exact step hclosed hfinished
  | false =>
    have hkilled : Supervisor.resume config (some environment.collected)
        (.closing (.handled handled)) (environment.answer beat (.closing (.handled handled))) =
          some (.reaping (.handled handled)) := by
      simp [Environment.answer, hgrace, Supervisor.resume]
    have hclosed : Supervisor.resume config (some environment.collected)
        (.reaping (.handled handled)) (environment.answer beat (.reaping (.handled handled))) =
          some (.finished (.handled handled)) := by
      simp [Environment.answer, Supervisor.resume, hcollected, Supervisor.closed]
    exact step hkilled (step hclosed hfinished)

/-- An attempt that ends in a `nack`. -/
theorem nacking (hcollected : environment.collected = .ok outcome) {handled : Handled}
    (hid : handled.lease.id = lease.id) (hjob : handled.lease.job.id = lease.job.id)
    (error : String) (retryIn : Option Duration) :
    SettlesFrom config environment lease
      ⟨.nacking handled error retryIn, beat, [.nack handled.lease error retryIn]⟩ := by
  have hnacked : Supervisor.resume config (some environment.collected)
      (.nacking handled error retryIn)
      (environment.answer beat (.nacking handled error retryIn)) =
        some (.closing (.handled handled)) := by
    cases hstale : environment.staleLease <;>
      simp [Environment.answer, hstale, Supervisor.resume]
  exact step hnacked (closing hcollected hid hjob)

/-- `_install`: an artifact that is written is acked, one that is not is a failed attempt. -/
theorem putting (hcollected : environment.collected = .ok outcome) {handled : Handled}
    (hid : handled.lease.id = lease.id) (hjob : handled.lease.job.id = lease.job.id)
    (solved : Solved) :
    SettlesFrom config environment lease ⟨.putting handled solved, beat, []⟩ := by
  cases hput : environment.put with
  | none =>
    let key := artifactKey handled.lease.job.id handled.lease.id
    have hstored : Supervisor.resume config (some environment.collected) (.putting handled solved)
        (environment.answer beat (.putting handled solved)) = some (.acking handled key) := by
      simp [Environment.answer, hput, Supervisor.resume, key]
    have hacked : Supervisor.resume config (some environment.collected) (.acking handled key)
        (environment.answer beat (.acking handled key)) = some (.closing (.handled handled)) := by
      cases hstale : environment.staleLease <;>
        simp [Environment.answer, hstale, Supervisor.resume]
    exact step hstored (step hacked (closing hcollected hid hjob))
  | some error =>
    have hfailed : Supervisor.resume config (some environment.collected) (.putting handled solved)
        (environment.answer beat (.putting handled solved)) =
          some (.nacking handled ("writing the artifact failed: " ++ error)
            (some config.retryIn)) := by
      simp [Environment.answer, hput, Supervisor.resume]
    exact step hfailed (nacking hcollected hid hjob _ _)

/-- `_finish` settles the lease, whatever the ending. -/
theorem finish (hcollected : environment.collected = .ok outcome) {handled : Handled}
    (hid : handled.lease.id = lease.id) (hjob : handled.lease.job.id = lease.job.id) :
    SettlesFrom config environment lease ⟨Supervisor.finish config handled, beat,
      (Supervisor.finish config handled).settlement.toList⟩ := by
  unfold Supervisor.finish
  split
  · have hdiscarded : Supervisor.resume config (some environment.collected) (.discarding handled)
        (environment.answer beat (.discarding handled)) = some (.closing (.handled handled)) := by
      simp [Environment.answer, Supervisor.resume]
    exact step hdiscarded (closing hcollected hid hjob)
  · exact nacking hcollected hid hjob _ _
  · exact nacking hcollected hid hjob _ _
  · exact nacking hcollected hid hjob _ _
  · exact nacking hcollected hid hjob _ _
  · unfold Supervisor.report
    split
    · exact putting hcollected hid hjob _
    · exact nacking hcollected hid hjob _ _
    · exact nacking hcollected hid hjob _ _

/-- `_kill`, and what follows from the ending that was decided on. -/
theorem stopping (hcollected : environment.collected = .ok outcome) {held : Lease}
    (hid : held.id = lease.id) (hjob : held.job.id = lease.job.id) (ending : Ending) :
    SettlesFrom config environment lease ⟨.stopping held ending, beat, []⟩ := by
  cases hgrace : environment.stopsInGrace with
  | true =>
    have hstopped : Supervisor.resume config (some environment.collected) (.stopping held ending)
        (environment.answer beat (.stopping held ending)) =
          some (Supervisor.finish config ⟨held, outcome, ending⟩) := by
      simp [Environment.answer, hgrace, Supervisor.resume, hcollected, Supervisor.stopped]
    exact step hstopped (finish hcollected hid hjob)
  | false =>
    have hkilled : Supervisor.resume config (some environment.collected) (.stopping held ending)
        (environment.answer beat (.stopping held ending)) = some (.killed held ending) := by
      simp [Environment.answer, hgrace, Supervisor.resume]
    have hstopped : Supervisor.resume config (some environment.collected) (.killed held ending)
        (environment.answer beat (.killed held ending)) =
          some (Supervisor.finish config ⟨held, outcome, ending⟩) := by
      simp [Environment.answer, Supervisor.resume, hcollected, Supervisor.stopped]
    exact step hkilled (step hstopped (finish hcollected hid hjob))

/-- A wait of the loop that ends before the cap with neither the child nor the worker done leads to
`_extend`; any other ends the loop. -/
theorem watching_of_extending (hcollected : environment.collected = .ok outcome) {held : Lease}
    {cap : Instant} (hid : held.id = lease.id) (hjob : held.job.id = lease.job.id)
    (hnext : ¬ cap ≤ (environment.beats beat).time →
      SettlesFrom config environment lease ⟨.extending held cap, beat, []⟩) :
    SettlesFrom config environment lease ⟨.watching held cap, beat, []⟩ := by
  have hwake : ∀ next, Supervisor.wake config (some environment.collected) held cap
      (environment.beats beat).reported (environment.beats beat).stopping
      (environment.beats beat).time = some next →
      SettlesFrom config environment lease ⟨next, beat, next.settlement.toList⟩ →
      SettlesFrom config environment lease ⟨.watching held cap, beat, []⟩ :=
    fun next hwake hnext ↦ step hwake hnext
  unfold Supervisor.wake at hwake
  split at hwake
  · exact hwake _ rfl (finish hcollected hid hjob)
  · split at hwake
    · exact hwake _ rfl (stopping hcollected hid hjob .released)
    · split at hwake
      · exact hwake _ rfl (stopping hcollected hid hjob .timedOut)
      · rename_i hcap
        exact hwake _ rfl (hnext hcap)

/-- `_extend` keeps the lease, or ends the loop. -/
theorem extending (hcollected : environment.collected = .ok outcome) {held : Lease} {cap : Instant}
    (hid : held.id = lease.id) (hjob : held.job.id = lease.job.id)
    (hnext : ∀ renewed : Lease, renewed.id = lease.id → renewed.job.id = lease.job.id →
      SettlesFrom config environment lease ⟨.watching renewed cap, beat + 1, []⟩) :
    SettlesFrom config environment lease ⟨.extending held cap, beat, []⟩ := by
  have hbeat : SettlesFrom config environment lease
      ⟨Supervisor.beat held cap ((environment.beats beat).extension.renewal held)
        (environment.beats beat).now, beat + 1, (Supervisor.beat held cap
          ((environment.beats beat).extension.renewal held)
          (environment.beats beat).now).settlement.toList⟩ := by
    unfold Supervisor.beat Extension.renewal
    cases (environment.beats beat).extension with
    | stale => exact stopping hcollected hid hjob .stale
    | unreachable =>
      by_cases hexpired : held.expired (environment.beats beat).now = true
      · simp only [hexpired, if_true]
        exact stopping hcollected hid hjob .undefendable
      · simp only [hexpired]
        exact hnext held hid hjob
    | renewed job expiresAt =>
      by_cases hcancel : job.cancelRequested = true
      · simp only [hcancel, if_true]
        refine stopping hcollected ?_ ?_ .cancelled
        · exact hid
        · exact hjob
      · simp only [hcancel]
        exact hnext _ hid hjob
  exact step rfl hbeat

/-- The supervisor's loop ends by the turn whose wait ends past the cap. The induction is on the
turns left to it. -/
theorem watching (hcollected : environment.collected = .ok outcome) {cap : Instant}
    {last : ℕ} (hlast : cap ≤ (environment.beats last).time) (left : ℕ) {held : Lease}
    (hid : held.id = lease.id) (hjob : held.job.id = lease.job.id) (hleft : beat + left = last) :
    SettlesFrom config environment lease ⟨.watching held cap, beat, []⟩ := by
  induction left generalizing beat held with
  | zero =>
    subst hleft
    exact watching_of_extending hcollected hid hjob fun hcap ↦ absurd hlast hcap
  | succ left ih =>
    refine watching_of_extending hcollected hid hjob fun _ ↦ ?_
    exact extending hcollected hid hjob fun renewed hrenewed hrenewedJob ↦
      ih hrenewed hrenewedJob (by omega)

end SettlesFrom

/-- A child that was spawned and whose pipe gives one message or none leaves a settled lease. -/
theorem settles_of_spawned (lease : Lease) (hspawns : environment.spawns = true)
    (hread : environment.read.broken = false) : Settles config environment lease := by
  obtain ⟨outcome, hcollected⟩ := (readAndReap_isOk _ environment.exitcode).mpr hread
  obtain ⟨last, hlast⟩ := environment.passes (environment.started + config.solveTimeout)
  have hspawned : Supervisor.resume config (some environment.collected) (.spawning lease)
      (environment.answer 0 (.spawning lease)) =
        some (.watching lease (environment.started + config.solveTimeout)) := by
    simp [Environment.answer, hspawns, Supervisor.resume]
  exact .step hspawned (.watching hcollected hlast last rfl rfl (Nat.zero_add last))

/-! ### A lease that is not settled -/

theorem Supervisor.finish_ne_finished (handled : Handled) (result : Result) :
    Supervisor.finish config handled ≠ .finished result := by
  unfold Supervisor.finish Supervisor.report
  split <;> try split
  all_goals simp

/-- When the collector ended with an exception, `run_once` comes to no end that returns. -/
theorem Supervisor.resume_ne_handled {error : String} {stage : Stage} {input : Input}
    {handled : Handled} : Supervisor.resume config (some (.error error)) stage input ≠
      some (.finished (.handled handled)) := by
  unfold Supervisor.resume
  split
  all_goals first
    | exact Option.noConfusion
    | simp [Supervisor.stopped, Supervisor.closed]; done
    | skip
  · unfold Supervisor.wake
    split
    · exact fun h ↦ finish_ne_finished _ _ (Option.some.inj h)
    · split
      · simp
      · split <;> simp
  · rename_i lease cap renewal now
    unfold Supervisor.beat
    split
    · simp
    · split <;> simp
    · split <;> simp

/-- When the collector ended with an exception, no run returns. -/
theorem Environment.run_ne_handled {error : String}
    (hcollected : environment.collected = .error error) (fuel : ℕ) {turn : Turn}
    (hturn : ∀ handled, turn.stage ≠ .finished (.handled handled)) (handled : Handled) :
    (environment.run config fuel turn).stage ≠ .finished (.handled handled) := by
  induction fuel generalizing turn with
  | zero => exact hturn handled
  | succ fuel ih =>
    refine ih fun found ↦ ?_
    unfold Environment.step
    split
    · exact hturn found
    · rename_i stage hstage
      rw [hcollected] at hstage
      rintro rfl
      exact Supervisor.resume_ne_handled hstage

/-- A child that cannot be spawned leaves the lease to nobody. -/
theorem Environment.run_of_not_spawns (hspawns : environment.spawns = false) (lease : Lease)
    (fuel : ℕ) : (environment.run config (fuel + 1) (.of lease)).stage = .finished .raised := by
  have hfinished : ∀ fuel, environment.run config fuel ⟨.finished .raised, 0, []⟩ =
      ⟨.finished .raised, 0, []⟩ := by
    intro fuel
    induction fuel with
    | zero => rfl
    | succ fuel ih => exact ih
  have hraised : Supervisor.resume config (some environment.collected) (.spawning lease)
      (environment.answer 0 (.spawning lease)) = some (.finished .raised) := by
    simp [Environment.answer, hspawns, Supervisor.resume]
  rw [Environment.run, Turn.of, Environment.step_of_resume hraised]
  exact congrArg Turn.stage (hfinished fuel)

end Runs

/-- Every claim a worker takes is settled: the lease that `reserve` returned is passed to exactly
one of `ack`, `nack` and `discard`, and `run_once` returns, if and only if the child was spawned and
the read of its pipe raised nothing but `EOFError`. -/
theorem claim_settled (config : WorkerConfig) (environment : Environment) (lease : Lease) :
    Settles config environment lease ↔
      environment.spawns = true ∧ environment.read.broken = false := by
  constructor
  · rintro ⟨fuel, handled, beat, settlement, hrun, -, -⟩
    have hstage := congrArg Turn.stage hrun
    constructor
    · by_contra hspawns
      rw [Bool.not_eq_true] at hspawns
      cases fuel with
      | zero => exact absurd hstage (by simp [Environment.run, Turn.of])
      | succ fuel =>
        rw [Environment.run_of_not_spawns hspawns] at hstage
        exact absurd hstage (by simp)
    · refine (readAndReap_isOk _ environment.exitcode).mp ?_
      cases hcollected : readAndReap environment.read environment.exitcode with
      | ok outcome => exact ⟨outcome, rfl⟩
      | error error =>
        exact absurd hstage (Environment.run_ne_handled hcollected fuel (by simp [Turn.of]) handled)
  · rintro ⟨hspawns, hread⟩
    exact settles_of_spawned lease hspawns hread

/-- The worker is asked to shut down while its child is sending an artifact: the SIGTERM ends the
child in the middle of the message. -/
def killedInTransit : Environment where
  spawns := true
  started := 0
  read := .raised "got end of file during message"
  exitcode := -15
  beats := fun beat ↦ ⟨false, true, beat, .unreachable, 0⟩
  stopsInGrace := true
  closesInGrace := true
  put := none
  staleLease := false
  passes := fun moment ↦ ⟨moment.toNat, Int.self_le_toNat moment⟩

/-- What `recv` raises then goes through `_kill`, and the lease is passed to nobody. -/
theorem claim_unsettled : ¬ ∀ (config : WorkerConfig) (environment : Environment) (lease : Lease),
    Settles config environment lease := by
  intro h
  let lease : Lease := ⟨⟨21⟩,
    ⟨⟨9⟩, "noop", .nil, .running, 1, 3, none, "key", none, none, false⟩, "worker", seconds 60⟩
  obtain ⟨fuel, handled, beat, settlement, hrun, -, -⟩ := h .defaults killedInTransit lease
  have hstage := congrArg Turn.stage hrun
  exact Environment.run_ne_handled rfl fuel (by simp [Turn.of]) handled hstage

end Abacus.Worker
