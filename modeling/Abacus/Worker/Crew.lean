import Abacus.Postgres.JobAccount
import Abacus.Worker.Child
import Abacus.Worker.Effect

/-!
# A fleet and its children

The supervisors of a fleet with the children that they start: what each child was started with, by
the token of its lease, and what its collector read of it. The step is that of the fleet, and a
child sends nothing but what `_solve` made of its own request (`Crew.Permitted`).

`Explains` says which text an attempt may give its job back with: the error of the child, as the
supervisor reads it, or the text of the ending that the supervisor decided on.
-/

set_option autoImplicit false
set_option relaxedAutoImplicit false

namespace Abacus.Worker

open Postgres (Database JobRow Operation jobRow)
open RowLocking (Program)

/-- A fleet, with what its children were started with and what was read of each: the pipe and the
exit status. -/
structure Crew (Worker : Type) where
  fleet : Fleet Worker
  requests : Uuid → Option SolveRequest
  pipes : Uuid → Option (PipeRead × Int)

namespace Crew

variable {Worker : Type} [DecidableEq Worker]

/-- No child yet. -/
def initial (Worker : Type) : Crew Worker :=
  ⟨.initial Worker, fun _ ↦ none, fun _ ↦ none⟩

/-- What the children were started with, after a step. -/
def started (crew : Crew Worker) : Event Worker → Uuid → Option SolveRequest
  | .input worker (.spawned _) =>
    match (crew.fleet.workers worker).stage with
    | .spawning lease => Function.update crew.requests lease.id (some (request lease.job))
    | _ => crew.requests
  | _ => crew.requests

/-- What was read of the children, after a step. -/
def collected (crew : Crew Worker) : Event Worker → Uuid → Option (PipeRead × Int)
  | .child worker read exitcode =>
    match (crew.fleet.workers worker).stage.running with
    | some lease => Function.update crew.pipes lease.id (some (read, exitcode))
    | none => crew.pipes
  | _ => crew.pipes

/-- One step; `none` when it cannot happen. -/
def step (config : Worker → WorkerConfig) (owner : Worker → String) (crew : Crew Worker)
    (event : Event Worker) : Option (Crew Worker) :=
  (crew.fleet.step config owner event).map fun fleet ↦
    ⟨fleet, crew.started event, crew.collected event⟩

/-- Several steps, one after another. -/
def steps (config : Worker → WorkerConfig) (owner : Worker → String) (crew : Crew Worker) :
    List (Event Worker) → Option (Crew Worker)
  | [] => some crew
  | event :: events => (crew.step config owner event).bind fun crew ↦ crew.steps config owner events

/-- The children keep to their requests. -/
def Permitted (registry : Registry) (crew : Crew Worker) : Event Worker → Prop
  | .child worker read _ => ∀ lease asked, (crew.fleet.workers worker).stage.running = some lease →
    crew.requests lease.id = some asked → Sends registry asked read
  | _ => True

/-- One step of supervisors whose children keep to their requests. -/
def Goes (registry : Registry) (config : Worker → WorkerConfig) (owner : Worker → String)
    (before after : Crew Worker) : Prop :=
  ∃ event, Permitted registry before event ∧ before.step config owner event = some after

/-- What can be reached from empty stores. -/
abbrev Run (registry : Registry) (config : Worker → WorkerConfig) (owner : Worker → String)
    (crew : Crew Worker) : Prop :=
  Relation.ReflTransGen (Goes registry config owner) (initial Worker) crew

end Crew

/-! ### What a job asks -/

/-- The job's row has what the child is handed. -/
def Asks (database : Database) (asked : SolveRequest) : Prop :=
  ∃ row, jobRow database asked.jobId = some row ∧ row.kind = asked.kind ∧
    row.payload = asked.payload

/-- A job asks one thing. -/
theorem Asks.unique {database : Database} {first second : SolveRequest}
    (hfirst : Asks database first) (hsecond : Asks database second)
    (hjob : first.jobId = second.jobId) : first = second := by
  obtain ⟨row, hrow, hkind, hpayload⟩ := hfirst
  obtain ⟨other, hother, hotherKind, hotherPayload⟩ := hsecond
  rw [hjob] at hrow
  obtain rfl : row = other := Option.some.inj (hrow.symm.trans hother)
  obtain ⟨kind, payload, jobId⟩ := first
  obtain ⟨otherKind, otherPayload, otherId⟩ := second
  simp only [SolveRequest.mk.injEq]
  exact ⟨hkind.symm.trans hotherKind, hpayload.symm.trans hotherPayload, hjob⟩

/-- A job goes on asking what it asked. -/
theorem Asks.perform {database : Database} {asked : SolveRequest} (h : Asks database asked)
    (now : Instant) (operation : Operation) :
    Asks (Postgres.perform now operation database).2 asked := by
  obtain ⟨row, hrow, hkind, hpayload⟩ := h
  obtain ⟨new, hnew, -, -, hsameKind, hsamePayload, -⟩ :=
    Postgres.perform_kept now operation database (.job asked.jobId) row hrow
  exact ⟨new, hnew, hsameKind.trans hkind, hsamePayload.trans hpayload⟩

/-- The lease that a claim returned has the job as it stands. -/
theorem asks_of_claimed {now : Instant} {jobId leaseId : Uuid} {name : String} {duration : Duration}
    {database : Database} {lease : Lease}
    (h : (Postgres.perform now (.claim jobId leaseId name duration) database).1 =
      .ok (.claimed (some lease))) :
    Asks (Postgres.perform now (.claim jobId leaseId name duration) database).2
      (request lease.job) := by
  cases hreply : Postgres.perform now (.claim jobId leaseId name duration) database with
  | mk reply after =>
    rw [hreply] at h
    obtain rfl : reply = .ok (.claimed (some lease)) := h
    have hyields := Program.yields_of_execute (Program.execute_of_run_ok hreply)
    obtain ⟨value, hclaim, hvalue⟩ := Program.yields_map hyields
    obtain rfl : value = some lease := by simpa using hvalue
    rcases Postgres.claim_yields hclaim with ⟨row, hrow, hlease, -⟩ | ⟨hnone, -⟩
    · rw [Option.some.inj hlease]
      exact ⟨row, hrow, rfl, rfl⟩
    · exact absurd hnone (by simp)

/-- So has the lease that an `extend` returned, which is of the same job. -/
theorem asks_of_extended {now : Instant} {lease renewed : Lease} {duration : Duration}
    {database : Database}
    (h : (Postgres.perform now (.extend lease duration) database).1 = .ok (.extended renewed)) :
    renewed.job.id = lease.job.id ∧
      Asks (Postgres.perform now (.extend lease duration) database).2 (request renewed.job) := by
  cases hreply : Postgres.perform now (.extend lease duration) database with
  | mk reply after =>
    rw [hreply] at h
    obtain rfl : reply = .ok (.extended renewed) := h
    have hyields := Program.yields_of_execute (Program.execute_of_run_ok hreply)
    obtain ⟨value, hextend, hvalue⟩ := Program.yields_map hyields
    obtain rfl : value = renewed := by simpa using hvalue
    obtain ⟨row, -, -, rfl, rfl⟩ := Postgres.extend_yields hextend
    exact ⟨rfl, _, Postgres.jobRow_set_self _ _ _, rfl, rfl⟩

/-! ### What an attempt may give its job back with -/

/-- The text of an ending that gives the job back whatever the child reported. -/
def Ending.error (config : WorkerConfig) : Ending → Option String
  | .undefendable => some "worker lost contact with the job store"
  | .cancelled => some "cancelled while running"
  | .released => some "released by a worker that is shutting down"
  | .timedOut =>
    some ("solve exceeded its " ++ durationText config.solveTimeout ++ " wall-clock cap")
  | .completed => none
  | .stale => none

/-- Why the attempt under a lease gave its job back with a text: the child, asked this, reported a
failure, or was gone, or could not be read, or its artifact could not be stored; or the supervisor
decided to stop it. -/
inductive Explains {Worker : Type} (registry : Registry) (config : Worker → WorkerConfig)
    (crew : Crew Worker) (asked : SolveRequest) (leaseId : Uuid) : String → Prop
  | failed (failed : Failed) (exitcode : Int)
    (hpipe : crew.pipes leaseId = some (.message (.failed failed), exitcode))
    (hsolves : Solves registry asked (.failed failed)) :
    Explains registry config crew asked leaseId failed.error
  | died (exitcode : Int) (hpipe : crew.pipes leaseId = some (.closed, exitcode)) :
    Explains registry config crew asked leaseId (Died.error ⟨exitcode⟩)
  | unreadable (error : String) (exitcode : Int)
    (hpipe : crew.pipes leaseId = some (.raised error, exitcode)) :
    Explains registry config crew asked leaseId
      ("the solve child's outcome could not be read: " ++ error)
  | notStored (solved : Solved) (exitcode : Int) (error : String)
    (hpipe : crew.pipes leaseId = some (.message (.solved solved), exitcode))
    (hsolves : Solves registry asked (.solved solved)) :
    Explains registry config crew asked leaseId ("writing the artifact failed: " ++ error)
  | stopped (worker : Worker) (ending : Ending) (error : String)
    (hending : (leaseId, ending) ∈ crew.fleet.endings)
    (herror : ending.error (config worker) = some error) :
    Explains registry config crew asked leaseId error

/-- What explained a text goes on to explain it. -/
theorem Explains.mono {Worker : Type} {registry : Registry} {config : Worker → WorkerConfig}
    {before after : Crew Worker} {asked : SolveRequest} {leaseId : Uuid} {error : String}
    (h : Explains registry config before asked leaseId error)
    (hpipes : ∀ read, before.pipes leaseId = some read → after.pipes leaseId = some read)
    (hendings : before.fleet.endings ⊆ after.fleet.endings) :
    Explains registry config after asked leaseId error := by
  cases h with
  | failed failed exitcode hpipe hsolves => exact .failed failed exitcode (hpipes _ hpipe) hsolves
  | died exitcode hpipe => exact .died exitcode (hpipes _ hpipe)
  | unreadable error exitcode hpipe => exact .unreadable error exitcode (hpipes _ hpipe)
  | notStored solved exitcode error hpipe hsolves =>
    exact .notStored solved exitcode error (hpipes _ hpipe) hsolves
  | stopped worker ending error hending herror =>
    exact .stopped worker ending error (hendings hending) herror

/-! ### How a supervisor comes to give a job back -/

namespace Supervisor

variable {config : WorkerConfig} {collected : Option Collected} {old : Stage} {input : Input}

/-- `_finish` gives a job back under the lease it has. -/
theorem finish_nacking {handled found : Handled} {error : String} {retryIn : Option Duration}
    (h : finish config handled = .nacking found error retryIn) : found = handled ∧
      (handled.ending.error config = some error ∨ handled.ending = .completed ∧
        ((∃ failed, handled.outcome = .failed failed ∧ error = failed.error) ∨
          ∃ died, handled.outcome = .died died ∧ error = died.error)) := by
  obtain ⟨lease, outcome, ending⟩ := handled
  cases ending with
  | completed =>
    cases outcome with
    | solved solved => exact absurd h (by simp [finish, report])
    | failed failed =>
      obtain ⟨rfl, rfl, -⟩ := Stage.nacking.inj h
      exact ⟨rfl, Or.inr ⟨rfl, Or.inl ⟨failed, rfl, rfl⟩⟩⟩
    | died died =>
      obtain ⟨rfl, rfl, -⟩ := Stage.nacking.inj h
      exact ⟨rfl, Or.inr ⟨rfl, Or.inr ⟨died, rfl, rfl⟩⟩⟩
  | stale => exact absurd h (by simp [finish])
  | _ =>
    obtain ⟨rfl, rfl, -⟩ := Stage.nacking.inj h
    exact ⟨rfl, Or.inl rfl⟩

theorem finish_ne_stopping {handled : Handled} {lease : Lease} {ending : Ending} :
    finish config handled ≠ .stopping lease ending := by
  obtain ⟨held, outcome, found⟩ := handled
  cases found with
  | completed => cases outcome <;> simp [finish, report]
  | _ => simp [finish]

theorem finish_ne_killed {handled : Handled} {lease : Lease} {ending : Ending} :
    finish config handled ≠ .killed lease ending := by
  obtain ⟨held, outcome, found⟩ := handled
  cases found with
  | completed => cases outcome <;> simp [finish, report]
  | _ => simp [finish]

/-- The stages that an attempt may come to, as far as they stop its child or give its job back. -/
inductive Lands (config : WorkerConfig) (collected : Option Collected) (old : Stage) : Stage → Prop
  | reported (lease : Lease) (cap : Instant) (result : Collected) (hold : old = .watching lease cap)
    (hcollected : collected = some result) :
    Lands config collected old (finish config ⟨lease, Worker.reported result, .completed⟩)
  | stopped (lease : Lease) (ending : Ending) (outcome : Outcome)
    (hold : old = .stopping lease ending ∨ old = .killed lease ending) :
    Lands config collected old (finish config ⟨lease, outcome, ending⟩)
  | stopping (lease : Lease) (ending : Ending) (hne : ending ≠ .completed) :
    Lands config collected old (.stopping lease ending)
  | killed (lease : Lease) (ending : Ending) (hold : old = .stopping lease ending) :
    Lands config collected old (.killed lease ending)
  | notStored (handled : Handled) (solved : Solved) (text : String) (retryIn : Option Duration)
    (hold : old = .putting handled solved) :
    Lands config collected old
      (.nacking handled ("writing the artifact failed: " ++ text) retryIn)
  | other (stage : Stage) (hstopping : ∀ lease ending, stage ≠ .stopping lease ending)
    (hkilled : ∀ lease ending, stage ≠ .killed lease ending)
    (hnacking : ∀ handled error retryIn, stage ≠ .nacking handled error retryIn) :
    Lands config collected old stage

theorem resume_lands {new : Stage} (h : resume config collected old input = some new) :
    Lands config collected old new := by
  have hstopped : ∀ {lease : Lease} {ending : Ending} {stage : Stage},
      (stage = .stopping lease ending ∨ stage = .killed lease ending) →
      collected.map (stopped config lease ending) = some new →
      Lands config collected stage new := by
    intro lease ending stage hstage hmap
    obtain ⟨result, -, rfl⟩ := Option.map_eq_some_iff.mp hmap
    cases result with
    | ok outcome => exact .stopped lease ending outcome hstage
    | error text => exact .other _ (by simp [stopped]) (by simp [stopped]) (by simp [stopped])
  unfold resume at h
  split at h
  case h_6 lease cap solved stopping time =>
    unfold wake at h
    split_ifs at h
    · obtain ⟨result, hcollected, rfl⟩ := Option.map_eq_some_iff.mp h
      exact .reported lease cap result rfl hcollected
    · rw [← Option.some.inj h]
      exact .stopping lease .released (by simp)
    · rw [← Option.some.inj h]
      exact .stopping lease .timedOut (by simp)
    · rw [← Option.some.inj h]
      exact .other _ (by simp) (by simp) (by simp)
  case h_7 lease cap renewal clock =>
    rw [← Option.some.inj h]
    unfold beat
    split
    · exact .stopping lease .stale (by simp)
    · split_ifs
      · exact .stopping lease .undefendable (by simp)
      · exact .other _ (by simp) (by simp) (by simp)
    · split_ifs
      · exact .stopping _ .cancelled (by simp)
      · exact .other _ (by simp) (by simp) (by simp)
  case h_8 lease ending => exact hstopped (Or.inl rfl) h
  case h_9 lease ending =>
    rw [← Option.some.inj h]
    exact .killed lease ending rfl
  case h_10 lease ending => exact hstopped (Or.inr rfl) h
  case h_17 handled solved text =>
    rw [← Option.some.inj h]
    exact .notStored handled solved text _ rfl
  case h_21 result =>
    obtain ⟨ended, -, rfl⟩ := Option.map_eq_some_iff.mp h
    cases ended <;> exact .other _ (by simp [closed]) (by simp [closed]) (by simp [closed])
  case h_23 result =>
    obtain ⟨ended, -, rfl⟩ := Option.map_eq_some_iff.mp h
    cases ended <;> exact .other _ (by simp [closed]) (by simp [closed]) (by simp [closed])
  case h_24 => exact absurd h (by simp)
  all_goals
    rw [← Option.some.inj h]
    exact .other _ (by simp) (by simp) (by simp)

/-- A supervisor that stops its child has not had it report. -/
theorem resume_stopping {lease : Lease} {ending : Ending}
    (h : resume config collected old input = some (.stopping lease ending)) :
    ending ≠ .completed := by
  generalize hnew : Stage.stopping lease ending = new at h
  cases resume_lands h with
  | reported => exact absurd hnew.symm finish_ne_stopping
  | stopped => exact absurd hnew.symm finish_ne_stopping
  | stopping found decided hne =>
    obtain ⟨-, rfl⟩ := Stage.stopping.inj hnew
    exact hne
  | killed => exact absurd hnew (by simp)
  | notStored => exact absurd hnew (by simp)
  | other stage hstopping => exact absurd hnew.symm (hstopping lease ending)

/-- A child is killed when it was being stopped. -/
theorem resume_killed {lease : Lease} {ending : Ending}
    (h : resume config collected old input = some (.killed lease ending)) :
    old = .stopping lease ending := by
  generalize hnew : Stage.killed lease ending = new at h
  cases resume_lands h with
  | reported => exact absurd hnew.symm finish_ne_killed
  | stopped => exact absurd hnew.symm finish_ne_killed
  | stopping => exact absurd hnew (by simp)
  | killed found decided hold =>
    obtain ⟨rfl, rfl⟩ := Stage.killed.inj hnew
    exact hold
  | notStored => exact absurd hnew (by simp)
  | other stage _ hkilled => exact absurd hnew.symm (hkilled lease ending)

/-- How a job comes to be given back: the child reported, or was stopped, or its artifact was not
stored. -/
inductive GivesBack (config : WorkerConfig) (collected : Option Collected) (handled : Handled)
    (error : String) : Stage → Prop
  | reported (lease : Lease) (cap : Instant) (result : Collected)
    (hcollected : collected = some result)
    (hhandled : handled = ⟨lease, Worker.reported result, .completed⟩)
    (herror : (∃ failed, handled.outcome = .failed failed ∧ error = failed.error) ∨
      ∃ died, handled.outcome = .died died ∧ error = died.error) :
    GivesBack config collected handled error (.watching lease cap)
  | stopped (lease : Lease) (ending : Ending) (outcome : Outcome) (stage : Stage)
    (hstage : stage = .stopping lease ending ∨ stage = .killed lease ending)
    (hhandled : handled = ⟨lease, outcome, ending⟩)
    (herror : ending ≠ .completed → ending.error config = some error) :
    GivesBack config collected handled error stage
  | notStored (solved : Solved) (text : String)
    (herror : error = "writing the artifact failed: " ++ text) :
    GivesBack config collected handled error (.putting handled solved)

theorem resume_nacking {handled : Handled} {error : String} {retryIn : Option Duration}
    (h : resume config collected old input = some (.nacking handled error retryIn)) :
    GivesBack config collected handled error old := by
  generalize hnew : Stage.nacking handled error retryIn = new at h
  cases resume_lands h with
  | reported lease cap result hold hcollected =>
    subst hold
    obtain ⟨rfl, hending | ⟨-, herror⟩⟩ := finish_nacking hnew.symm
    · exact absurd hending (by simp [Ending.error])
    · exact .reported lease cap result hcollected rfl herror
  | stopped lease ending outcome hold =>
    obtain ⟨rfl, hending | ⟨hcompleted, -⟩⟩ := finish_nacking hnew.symm
    · exact .stopped lease ending outcome old hold rfl fun _ ↦ hending
    · exact .stopped lease ending outcome old hold rfl fun hne ↦ absurd hcompleted hne
  | stopping => exact absurd hnew (by simp)
  | killed => exact absurd hnew (by simp)
  | notStored found solved text again hold =>
    obtain ⟨rfl, rfl, -⟩ := Stage.nacking.inj hnew
    rw [hold]
    exact .notStored solved text rfl
  | other stage _ _ hnacking => exact absurd hnew.symm (hnacking handled error retryIn)

end Supervisor

end Abacus.Worker
