import Abacus.Postgres.Constraints
import Abacus.Postgres.Succeeds
import Abacus.Worker.Effect

/-!
# A release

A worker that is asked to stop kills its child and gives the job back by a nack with no backoff. The
job then waits, and any claim of it succeeds, if an attempt is left (`released_given_back`); the
attempt that the release gives back counts as any other, so a release of the last one ends the job
(`released_last_attempt`).
-/

set_option autoImplicit false
set_option relaxedAutoImplicit false

namespace Abacus.Postgres

/-- The session of a job is open at the end of every run of atomic calls. -/
theorem Run.sessionOpen {history : List Entry} {database : Database} (h : Run history database)
    {jobId : Uuid} {row : JobRow} (hrow : jobRow database jobId = some row) :
    SessionOpen database row := by
  obtain ⟨commits, hexecution⟩ := h.execution
  exact fun _ hsession ↦ Option.ne_none_iff_exists'.mp (session_of_jobRow hexecution hrow hsession)

end Abacus.Postgres

namespace Abacus.Worker

open Postgres (JobRow jobRow)

variable {Worker : Type}

/-! ### What a release nacks with -/

/-- A supervisor that releases its job nacks with no backoff. -/
def Stage.Prompt (stage : Stage) : Prop :=
  ∀ handled error retryIn, stage = .nacking handled error retryIn →
    handled.ending = .released → retryIn = none

/-- The nack of an ending is of what was handled. -/
theorem handled_of_finish {config : WorkerConfig} {handled found : Handled} {error : String}
    {retryIn : Option Duration}
    (h : Supervisor.finish config handled = .nacking found error retryIn) : found = handled := by
  unfold Supervisor.finish at h
  cases hending : handled.ending with
  | stale => simp [hending] at h
  | completed =>
    simp only [hending, Supervisor.report] at h
    cases houtcome : handled.outcome with
    | solved solved => simp [houtcome] at h
    | failed failed =>
      simp only [houtcome, Stage.nacking.injEq] at h
      exact h.1.symm
    | died died =>
      simp only [houtcome, Stage.nacking.injEq] at h
      exact h.1.symm
  | _ =>
    simp only [hending, Stage.nacking.injEq] at h
    exact h.1.symm

theorem prompt_finish (config : WorkerConfig) (handled : Handled) :
    (Supervisor.finish config handled).Prompt := by
  intro found error retryIn hstage hreleased
  obtain rfl := handled_of_finish hstage
  simp only [Supervisor.finish, hreleased, Stage.nacking.injEq] at hstage
  exact hstage.2.2.symm

theorem prompt_stopped (config : WorkerConfig) (lease : Lease) (ending : Ending)
    (collected : Collected) : (Supervisor.stopped config lease ending collected).Prompt := by
  cases collected with
  | ok outcome => exact prompt_finish config _
  | error error => exact fun _ _ _ hstage ↦ absurd hstage (by simp [Supervisor.stopped])

/-- A supervisor goes on to nack a release promptly; what it was putting was no release. -/
theorem Supervisor.resume_prompt {config : WorkerConfig} {collected : Option Collected}
    {stage next : Stage} {input : Input}
    (hputting : ∀ handled solved, stage = .putting handled solved → handled.ending = .completed)
    (h : Supervisor.resume config collected stage input = some next) : next.Prompt := by
  unfold Supervisor.resume at h
  split at h
  case h_6 lease cap solved stopping time =>
    unfold wake at h
    split_ifs at h
    · obtain ⟨result, -, rfl⟩ := Option.map_eq_some_iff.mp h
      exact prompt_finish config _
    · obtain rfl := Option.some.inj h
      exact fun _ _ _ hstage ↦ absurd hstage (by simp)
    · obtain rfl := Option.some.inj h
      exact fun _ _ _ hstage ↦ absurd hstage (by simp)
    · obtain rfl := Option.some.inj h
      exact fun _ _ _ hstage ↦ absurd hstage (by simp)
  case h_7 lease cap renewal clock =>
    obtain rfl := Option.some.inj h
    unfold beat
    intro handled error retryIn hstage
    split at hstage
    · exact absurd hstage (by simp)
    · split_ifs at hstage
    · split_ifs at hstage
  case h_8 lease ending =>
    obtain ⟨result, -, rfl⟩ := Option.map_eq_some_iff.mp h
    exact prompt_stopped config lease ending result
  case h_10 lease ending =>
    obtain ⟨result, -, rfl⟩ := Option.map_eq_some_iff.mp h
    exact prompt_stopped config lease ending result
  case h_17 handled solved error =>
    obtain rfl := Option.some.inj h
    intro found message retryIn hstage hreleased
    obtain ⟨rfl, -, -⟩ := Stage.nacking.inj hstage
    exact absurd ((hputting _ solved rfl).symm.trans hreleased) (by simp)
  case h_21 result =>
    obtain ⟨ended, -, rfl⟩ := Option.map_eq_some_iff.mp h
    intro handled error retryIn hstage
    cases ended <;> exact absurd hstage (by simp [closed])
  case h_23 result =>
    obtain ⟨ended, -, rfl⟩ := Option.map_eq_some_iff.mp h
    intro handled error retryIn hstage
    cases ended <;> exact absurd hstage (by simp [closed])
  case h_24 => exact absurd h (by simp)
  all_goals
    obtain rfl := Option.some.inj h
    exact fun _ _ _ hstage ↦ absurd hstage (by simp)

/-! ### Along a run -/

section Runs

variable [DecidableEq Worker] {config : Worker → WorkerConfig} {owner : Worker → String}
  {fleet after : Fleet Worker}

theorem Fleet.resume_stage {caller : Worker} {input : Input}
    (h : fleet.resume config caller input = some after) (worker : Worker) :
    (after.workers worker).stage = (fleet.workers worker).stage ∨
      ∃ input, Supervisor.resume (config worker) (fleet.workers worker).collected
        (fleet.workers worker).stage input = some (after.workers worker).stage := by
  obtain ⟨stage, hstage, rfl⟩ := Option.map_eq_some_iff.mp h
  by_cases hworker : worker = caller
  · subst hworker
    refine Or.inr ⟨input, ?_⟩
    simpa only [Fleet.advance, Function.update_self] using hstage
  · refine Or.inl ?_
    simp only [Fleet.advance, Function.update_of_ne hworker]

/-- A step leaves a supervisor where it is, takes it to its next stage, or makes it begin again. -/
theorem Fleet.step_stage {event : Event Worker} (h : fleet.step config owner event = some after)
    (worker : Worker) :
    (after.workers worker).stage = (fleet.workers worker).stage ∨
      (after.workers worker).stage = .reserving ∨
      ∃ input, Supervisor.resume (config worker) (fleet.workers worker).collected
        (fleet.workers worker).stage input = some (after.workers worker).stage := by
  have hset : ∀ caller process, (fleet.setWorker caller process).workers worker =
      fleet.workers worker ∨ worker = caller ∧
        (fleet.setWorker caller process).workers worker = process := by
    intro caller process
    by_cases hworker : worker = caller
    · subst hworker
      exact Or.inr ⟨rfl, by simp only [Fleet.setWorker, Function.update_self]⟩
    · exact Or.inl (by simp only [Fleet.setWorker, Function.update_of_ne hworker])
  have hidle : ∀ caller, ((fleet.setWorker caller .idle).workers worker).stage =
      (fleet.workers worker).stage ∨
        ((fleet.setWorker caller .idle).workers worker).stage = .reserving := by
    intro caller
    rcases hset caller .idle with hsame | ⟨-, hself⟩
    · exact Or.inl (congrArg Process.stage hsame)
    · exact Or.inr (congrArg Process.stage hself)
  cases step_moves h with
  | tick duration => exact Or.inl rfl
  | client operation hclient => exact Or.inl rfl
  | unheard => exact Or.inl rfl
  | heard caller jobId drawn lost clock operation input hcall hfresh hinput hresume =>
    exact (resume_stage hresume worker).imp_right Or.inr
  | notStored caller applied error handled solved hputting hresume =>
    exact (resume_stage hresume worker).imp_right Or.inr
  | stored caller applied handled solved hputting hresume =>
    exact (resume_stage hresume worker).imp_right Or.inr
  | child caller read exitcode lease hrunning hcollected =>
    left
    show ((fleet.setWorker caller ⟨(fleet.workers caller).stage,
      some (readAndReap read exitcode)⟩).workers worker).stage = _
    rcases hset caller ⟨(fleet.workers caller).stage, some (readAndReap read exitcode)⟩ with
      hsame | ⟨rfl, hself⟩
    · rw [hsame]
    · rw [hself]
  | input caller input hallows hresume => exact (resume_stage hresume worker).imp_right Or.inr
  | restart caller => exact (hidle caller).imp_right Or.inl
  | crash caller => exact (hidle caller).imp_right Or.inl

/-- In every run a supervisor that nacks a release does so with no backoff. -/
theorem Fleet.prompt_steps {events : List (Event Worker)} (hsound : fleet.Sound)
    (h : ∀ worker, (fleet.workers worker).stage.Prompt)
    (hsteps : fleet.steps config owner events = some after) (worker : Worker) :
    (after.workers worker).stage.Prompt := by
  induction events generalizing fleet with
  | nil =>
    rw [← Option.some.inj hsteps]
    exact h worker
  | cons event events ih =>
    obtain ⟨middle, hstep, hrest⟩ := Option.bind_eq_some_iff.mp hsteps
    refine ih (hsound.step hstep) (fun worker ↦ ?_) hrest
    rcases step_stage hstep worker with hsame | hreserving | ⟨input, hresume⟩
    · rw [hsame]
      exact h worker
    · rw [hreserving]
      exact fun _ _ _ hstage ↦ absurd hstage (by simp)
    · refine Supervisor.resume_prompt (fun handled solved hstage ↦ ?_) hresume
      exact ((hsound.processes worker).putting handled solved hstage).1

/-- The store call of a supervisor's stage runs, whatever becomes of its reply. -/
theorem Fleet.store_database {worker : Worker} {jobId drawn : Uuid} {lost : Bool} {clock : Instant}
    {operation : Postgres.Operation}
    (hcall : (fleet.workers worker).stage.call (config worker) (owner worker) jobId drawn =
      some operation)
    (h : fleet.step config owner (.store worker jobId drawn lost clock) = some after) :
    after.database = (Postgres.perform fleet.now operation fleet.database).2 := by
  simp only [Fleet.step, hcall] at h
  split at h
  swap
  · exact absurd h (by simp)
  split at h
  · exact resume_database h
  · rw [← Option.some.inj h]
    rfl

/-- A shutting-down worker gives its job back, if an attempt is left. In every run, when the nack of
a release commits under the token of a row that is not cancelled, then

* with an attempt left the job is `failed`, and any claim of it succeeds from that moment on;
* with none left the job is `dead`. -/
theorem released_given_back {events : List (Event Worker)}
    (hsteps : (Fleet.initial Worker).steps config owner events = some fleet) {worker : Worker}
    {handled : Handled} {error : String} {retryIn : Option Duration}
    (hstage : (fleet.workers worker).stage = .nacking handled error retryIn)
    (hreleased : handled.ending = .released) {row : JobRow}
    (hrow : jobRow fleet.database handled.lease.job.id = some row)
    (hcurrent : row.leaseId = some handled.lease.id) (hcancel : row.cancelRequested = false)
    {jobId drawn : Uuid} {lost : Bool} {clock : Instant}
    (hstep : fleet.step config owner (.store worker jobId drawn lost clock) = some after) :
    ∃ new, jobRow after.database handled.lease.job.id = some new ∧
      (row.attempts < row.maxAttempts → new.state = .failed ∧
        ∀ now leaseId name duration, fleet.now ≤ now → ∃ granted,
          (Postgres.perform now (.claim handled.lease.job.id leaseId name duration)
            after.database).1 = .ok (.claimed (some granted))) ∧
      (row.maxAttempts ≤ row.attempts → new.state = .dead) := by
  have hsound : fleet.Sound := Fleet.Sound.steps .initial hsteps
  have hprompt : retryIn = none := by
    refine Fleet.prompt_steps .initial ?_ hsteps worker handled error retryIn hstage hreleased
    exact fun _ _ _ _ hinitial ↦ absurd hinitial (by simp [Fleet.initial, Process.idle])
  have hfenced : row.fenced handled.lease = true := by
    rw [JobRow.fenced, hcurrent, beq_self_eq_true]
  have hdatabase : after.database = (Postgres.perform fleet.now
      (.nack handled.lease error retryIn) fleet.database).2 := by
    refine Fleet.store_database ?_ hstep
    rw [hstage]
    rfl
  have hnew : jobRow after.database handled.lease.job.id =
      some (row.nacked fleet.now error retryIn) := by
    rw [hdatabase]
    exact Postgres.nack_succeeds hrow hfenced (hsound.run.sessionOpen hrow)
  refine ⟨_, hnew, fun hleft ↦ ?_, fun hspent ↦ ?_⟩
  · have hstate : (row.nacked fleet.now error retryIn).state = .failed := by
      simp [JobRow.nacked, JobRow.nackState, hcancel, hleft]
    refine ⟨hstate, fun now leaseId name duration hnow ↦ ?_⟩
    refine Postgres.claim_succeeds hnew ?_ ((hsound.step hstep).run.sessionOpen hnew)
    have hrunAfter : (row.nacked fleet.now error retryIn).runAfter = fleet.now := by
      rw [hprompt]
      exact Int.add_zero _
    simp [JobRow.waiting, hstate, JobState.waiting, hrunAfter, hnow]
  · simp [JobRow.nacked, JobRow.nackState, hcancel, hspent]

end Runs

/-! ### One release -/

/-- A job with so many attempts is solved under its first lease when the worker is stopped. -/
def stopped (maxAttempts : ℕ) : List (Event Unit) :=
  [.client (.insertOrGet ⟨9⟩ ⟨"noop", .nil, none, "key", maxAttempts, 0⟩),
    .store () ⟨9⟩ ⟨21⟩ false 0,
    .input () (.spawned 0),
    .input () (.woke false true 1),
    .child () .closed (-15),
    .input () .collected]

/-- Released at its first attempt of three, the job can be claimed at once. -/
theorem released_given_back_first :
    ∃ (fleet after : Fleet Unit) (new : JobRow),
      (Fleet.initial Unit).steps (fun _ ↦ .defaults) (fun _ ↦ "worker") (stopped 3) =
        some fleet ∧
      fleet.step (fun _ ↦ .defaults) (fun _ ↦ "worker") (.store () ⟨9⟩ ⟨22⟩ false 0) =
        some after ∧
      jobRow after.database ⟨9⟩ = some new ∧ new.state = .failed ∧
      ∃ granted, (Postgres.perform 0 (.claim ⟨9⟩ ⟨23⟩ "other" 60) after.database).1 =
        .ok (.claimed (some granted)) := by
  obtain ⟨fleet, hsteps, handled, error, retryIn, hstage, hreleased, hjob, row, hrow, hcurrent,
      hcancel, hleft, hnow, after, hstep⟩ : ∃ fleet,
      (Fleet.initial Unit).steps (fun _ ↦ .defaults) (fun _ ↦ "worker") (stopped 3) =
        some fleet ∧ ∃ handled error retryIn,
      (fleet.workers ()).stage = .nacking handled error retryIn ∧ handled.ending = .released ∧
      handled.lease.job.id = ⟨9⟩ ∧ ∃ row, jobRow fleet.database handled.lease.job.id = some row ∧
      row.leaseId = some handled.lease.id ∧ row.cancelRequested = false ∧
      row.attempts < row.maxAttempts ∧ fleet.now = 0 ∧ ∃ after,
      fleet.step (fun _ ↦ .defaults) (fun _ ↦ "worker") (.store () ⟨9⟩ ⟨22⟩ false 0) =
        some after :=
    ⟨_, rfl, _, _, _, rfl, rfl, rfl, _, rfl, rfl, rfl, by decide, rfl, _, rfl⟩
  obtain ⟨new, hnew, hgiven, -⟩ :=
    released_given_back hsteps hstage hreleased hrow hcurrent hcancel hstep
  obtain ⟨hstate, hclaims⟩ := hgiven hleft
  rw [hjob] at hnew hclaims
  exact ⟨fleet, after, new, hsteps, hstep, hnew, hstate, hclaims 0 ⟨23⟩ "other" 60 hnow.le⟩

/-- Released at its only attempt, the job is dead and cannot be claimed. -/
theorem released_last_attempt :
    ∃ (fleet after : Fleet Unit) (handled : Handled) (row new : JobRow),
      (Fleet.initial Unit).steps (fun _ ↦ .defaults) (fun _ ↦ "worker") (stopped 1) =
        some fleet ∧
      (fleet.workers ()).stage =
        .nacking handled "released by a worker that is shutting down" none ∧
      handled.ending = .released ∧ jobRow fleet.database ⟨9⟩ = some row ∧
      row.leaseId = some handled.lease.id ∧ row.cancelRequested = false ∧
      fleet.step (fun _ ↦ .defaults) (fun _ ↦ "worker") (.store () ⟨9⟩ ⟨22⟩ false 0) =
        some after ∧
      jobRow after.database ⟨9⟩ = some new ∧ new.state = .dead ∧ new.state.terminal = true ∧
      (Postgres.perform 0 (.claim ⟨9⟩ ⟨23⟩ "other" 60) after.database).1 =
        .ok (.claimed none) :=
  ⟨_, _, _, _, _, rfl, rfl, rfl, rfl, rfl, rfl, rfl, rfl, rfl, rfl, rfl⟩

end Abacus.Worker
