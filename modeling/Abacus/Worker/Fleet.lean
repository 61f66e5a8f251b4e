import Abacus.Postgres.Fencing
import Abacus.Worker.Supervisor

/-!
# Supervisors on one job store and one object store

Any number of supervisors, each in some stage of `run_once` beside its solve child, on one database
and one object store. What a stage awaits happens here (`Fleet.step`): a store call commits, and its
reply may be lost; a put takes effect or not, and what it returns took effect; a child reports or is
gone. A supervisor goes on to its next stage in the same step, as nothing else sees what it does in
between. Between any two steps a supervisor may crash, and anybody else may call the store, but only
supervisors claim and settle. A put replaces the whole object under its key, and nothing deletes
one.

`history`, `reports`, `writes` and `endings` are not part of the program: they keep the store calls
with what they returned, what the child run under each lease reported, the attempts that called
`put`, and the decisions to stop a child. No step reads the last three, and the first only for the
tokens that `uuid4` does not draw again.
-/

set_option autoImplicit false
set_option relaxedAutoImplicit false

namespace Abacus.Worker

open Postgres (Database Entry Operation StoreError perform)

/-- A supervisor in its stage, and what its child's collector has ended with. -/
structure Process where
  stage : Stage
  collected : Option Collected

/-- A supervisor about to reserve. -/
def Process.idle : Process :=
  ⟨.reserving, none⟩

/-- An attempt that called `put`. -/
structure Write where
  jobId : Uuid
  leaseId : Uuid
  key : String
  deriving DecidableEq

/-- The stores, the supervisors, and what is kept of the run. -/
structure Fleet (Worker : Type) where
  now : Instant
  database : Database
  objects : ObjectStore
  workers : Worker → Process
  history : List Entry
  reports : Uuid → Option Outcome
  writes : List Write
  endings : List (Uuid × Ending)

/-- Empty stores, and supervisors about to reserve. -/
def Fleet.initial (Worker : Type) : Fleet Worker where
  now := 0
  database := .empty
  objects := fun _ ↦ none
  workers := fun _ ↦ .idle
  history := []
  reports := fun _ ↦ none
  writes := []
  endings := []

/-! ### What a stage waits for -/

/-- The store call that a stage awaits. The job of a claim and its token are drawn elsewhere. -/
def Stage.call (config : WorkerConfig) (owner : String) (jobId drawn : Uuid) :
    Stage → Option Operation
  | .reserving => some (.claim jobId drawn owner config.lease)
  | .extending lease _ => some (.extend lease config.lease)
  | .nacking handled error retryIn => some (.nack handled.lease error retryIn)
  | .acking handled resultRef => some (.ack handled.lease (some resultRef))
  | _ => none

/-- What a supervisor makes of the reply to its store call. `reserve` goes on after a claim that was
refused. -/
def Stage.reply (clock : Instant) : Stage → Except StoreError Postgres.Outcome → Option Input
  | .reserving, .ok (.claimed (some lease)) => some (.reserved (some lease))
  | .reserving, .error _ => some .raised
  | .extending _ _, .ok (.extended lease) => some (.extended (.renewed lease) clock)
  | .extending _ _, .error (.staleLease _ _) => some (.extended .stale clock)
  | .extending _ _, .error _ => some (.extended .unreachable clock)
  | .nacking _ _ _, .ok _ => some .settled
  | .nacking _ _ _, .error (.staleLease _ _) => some .stale
  | .nacking _ _ _, .error _ => some .raised
  | .acking _ _, .ok _ => some .settled
  | .acking _ _, .error (.staleLease _ _) => some .stale
  | .acking _ _, .error _ => some .raised
  | _, _ => none

/-- What a supervisor makes of a store call whose reply never comes. -/
def Stage.noReply (clock : Instant) : Stage → Option Input
  | .reserving => some .raised
  | .extending _ _ => some (.extended .unreachable clock)
  | .nacking _ _ _ => some .raised
  | .acking _ _ => some .raised
  | _ => none

/-- What a stage may get without an effect on the stores. -/
def Stage.allows : Stage → Input → Bool
  | .reserving, .reserved none => true
  | .reserving, .raised => true
  | .spawning _, .spawned _ => true
  | .spawning _, .raised => true
  | .watching _ _, .woke _ _ _ => true
  | .extending _ _, .extended .unreachable _ => true
  | .stopping _ _, .collected => true
  | .stopping _ _, .graceElapsed => true
  | .killed _ _, .collected => true
  | .discarding _, .settled => true
  | .discarding _, .raised => true
  | .nacking _ _ _, .raised => true
  | .acking _ _, .raised => true
  | .closing _, .collected => true
  | .closing _, .graceElapsed => true
  | .reaping _, .collected => true
  | _, _ => false

/-- The decision to stop a child. -/
def Stage.decided : Stage → Option (Uuid × Ending)
  | .stopping lease ending => some (lease.id, ending)
  | _ => none

/-! ### The steps -/

/-- What happens. -/
inductive Event (Worker : Type)
  /-- Time passes. -/
  | tick (duration : ℕ)
  /-- Somebody who is no supervisor calls the store. -/
  | client (operation : Operation)
  /-- The store call of a supervisor commits or raises, and its reply may be lost. -/
  | store (worker : Worker) (jobId drawn : Uuid) (lost : Bool) (clock : Instant)
  /-- The put of a supervisor takes effect or not, and returns or raises. -/
  | put (worker : Worker) (applied : Bool) (error : Option String)
  /-- The child of a supervisor reports or is gone, and its collector ends. -/
  | child (worker : Worker) (read : PipeRead) (exitcode : Int)
  /-- A supervisor gets what it waits for. -/
  | input (worker : Worker) (input : Input)
  /-- A supervisor makes its next turn. -/
  | restart (worker : Worker)
  /-- A supervisor dies, and another takes its place. -/
  | crash (worker : Worker)

/-- Whether a store call is one that only supervisors make. -/
def onLease : Operation → Bool
  | .claim _ _ _ _ => true
  | .extend _ _ => true
  | .ack _ _ => true
  | .nack _ _ _ => true
  | _ => false

namespace Fleet

variable {Worker : Type} [DecidableEq Worker]

/-- The fleet with one supervisor in another state. -/
def setWorker (fleet : Fleet Worker) (worker : Worker) (process : Process) : Fleet Worker :=
  { fleet with workers := Function.update fleet.workers worker process }

/-- A supervisor goes on to another stage, and a decision to stop its child is noted. -/
def advance (fleet : Fleet Worker) (worker : Worker) (stage : Stage) : Fleet Worker :=
  { fleet with
    workers := Function.update fleet.workers worker ⟨stage, (fleet.workers worker).collected⟩
    endings := fleet.endings ++ stage.decided.toList }

/-- A supervisor goes on with what it waited for. -/
def resume (config : Worker → WorkerConfig) (fleet : Fleet Worker) (worker : Worker)
    (input : Input) : Option (Fleet Worker) :=
  (Supervisor.resume (config worker) (fleet.workers worker).collected (fleet.workers worker).stage
    input).map (fleet.advance worker)

/-- A call on the job store. -/
def perform (fleet : Fleet Worker) (operation : Operation) : Fleet Worker :=
  { fleet with
    database := (Postgres.perform fleet.now operation fleet.database).2
    history := fleet.history ++
      [⟨⟨fleet.now, operation⟩, (Postgres.perform fleet.now operation fleet.database).1⟩] }

/-- The put of an attempt. -/
def write (fleet : Fleet Worker) (handled : Handled) (solved : Solved) (applied : Bool) :
    Fleet Worker :=
  let key := artifactKey handled.lease.job.id handled.lease.id
  { fleet with
    objects :=
      if applied then Function.update fleet.objects key (some ⟨solved.data, solved.contentType⟩)
      else fleet.objects
    writes := fleet.writes ++ [⟨handled.lease.job.id, handled.lease.id, key⟩] }

omit [DecidableEq Worker] in
@[simp] theorem write_database (fleet : Fleet Worker) (handled : Handled) (solved : Solved)
    (applied : Bool) : (fleet.write handled solved applied).database = fleet.database := by
  simp only [write]

omit [DecidableEq Worker] in
/-- A put that took effect left its object under its key. -/
theorem write_objects (fleet : Fleet Worker) (handled : Handled) (solved : Solved) :
    (fleet.write handled solved true).objects
      (artifactKey handled.lease.job.id handled.lease.id) =
        some ⟨solved.data, solved.contentType⟩ := by
  simp only [write, if_true, Function.update_self]

/-- One step; `none` when it cannot happen. -/
def step (config : Worker → WorkerConfig) (owner : Worker → String) (fleet : Fleet Worker) :
    Event Worker → Option (Fleet Worker)
  | .tick duration => some { fleet with now := fleet.now + duration }
  | .client operation => if onLease operation then none else some (fleet.perform operation)
  | .store worker jobId drawn lost clock =>
    let stage := (fleet.workers worker).stage
    match stage.call (config worker) (owner worker) jobId drawn with
    | some operation =>
      if fleet.history.all fun entry ↦ decide (entry.drawn ≠ some drawn) then
        match if lost then stage.noReply clock
          else stage.reply clock (Postgres.perform fleet.now operation fleet.database).1 with
        | some input => (fleet.perform operation).resume config worker input
        | none => some (fleet.perform operation)
      else none
    | none => none
  | .put worker applied error =>
    match (fleet.workers worker).stage with
    | .putting handled solved =>
      match error with
      | some error => (fleet.write handled solved applied).resume config worker (.notStored error)
      | none => (fleet.write handled solved true).resume config worker .stored
    | _ => none
  | .child worker read exitcode =>
    match (fleet.workers worker).stage.running, (fleet.workers worker).collected with
    | some lease, none =>
      some { fleet.setWorker worker
          ⟨(fleet.workers worker).stage, some (readAndReap read exitcode)⟩ with
        reports := Function.update fleet.reports lease.id (readAndReap read exitcode).toOption }
    | _, _ => none
  | .input worker input =>
    if (fleet.workers worker).stage.allows input then fleet.resume config worker input else none
  | .restart worker =>
    match (fleet.workers worker).stage with
    | .finished _ => some (fleet.setWorker worker .idle)
    | _ => none
  | .crash worker => some (fleet.setWorker worker .idle)

/-- Several steps, one after another. -/
def steps (config : Worker → WorkerConfig) (owner : Worker → String) (fleet : Fleet Worker) :
    List (Event Worker) → Option (Fleet Worker)
  | [] => some fleet
  | event :: events =>
    (fleet.step config owner event).bind fun fleet ↦ fleet.steps config owner events

/-! ### What a step can do -/

/-- Every step is of one of these kinds. A store call whose reply is lost may leave its supervisor
where it is. -/
inductive Moves (config : Worker → WorkerConfig) (owner : Worker → String) (fleet : Fleet Worker) :
    Event Worker → Fleet Worker → Prop
  | tick (duration : ℕ) :
    Moves config owner fleet (.tick duration) { fleet with now := fleet.now + duration }
  | client (operation : Operation) (hclient : onLease operation = false) :
    Moves config owner fleet (.client operation) (fleet.perform operation)
  | unheard (worker : Worker) (jobId drawn : Uuid) (lost : Bool) (clock : Instant)
    (operation : Operation)
    (hcall : (fleet.workers worker).stage.call (config worker) (owner worker) jobId drawn =
      some operation)
    (hfresh : ∀ entry ∈ fleet.history, entry.drawn ≠ some drawn) :
    Moves config owner fleet (.store worker jobId drawn lost clock) (fleet.perform operation)
  | heard {after : Fleet Worker} (worker : Worker) (jobId drawn : Uuid) (lost : Bool)
    (clock : Instant) (operation : Operation) (input : Input)
    (hcall : (fleet.workers worker).stage.call (config worker) (owner worker) jobId drawn =
      some operation)
    (hfresh : ∀ entry ∈ fleet.history, entry.drawn ≠ some drawn)
    (hinput : (if lost then (fleet.workers worker).stage.noReply clock
      else (fleet.workers worker).stage.reply clock
        (Postgres.perform fleet.now operation fleet.database).1) = some input)
    (hresume : (fleet.perform operation).resume config worker input = some after) :
    Moves config owner fleet (.store worker jobId drawn lost clock) after
  | notStored {after : Fleet Worker} (worker : Worker) (applied : Bool) (error : String)
    (handled : Handled) (solved : Solved)
    (hstage : (fleet.workers worker).stage = .putting handled solved)
    (hresume : (fleet.write handled solved applied).resume config worker (.notStored error) =
      some after) :
    Moves config owner fleet (.put worker applied (some error)) after
  | stored {after : Fleet Worker} (worker : Worker) (applied : Bool) (handled : Handled)
    (solved : Solved) (hstage : (fleet.workers worker).stage = .putting handled solved)
    (hresume : (fleet.write handled solved true).resume config worker .stored = some after) :
    Moves config owner fleet (.put worker applied none) after
  | child (worker : Worker) (read : PipeRead) (exitcode : Int) (lease : Lease)
    (hrunning : (fleet.workers worker).stage.running = some lease)
    (hcollected : (fleet.workers worker).collected = none) :
    Moves config owner fleet (.child worker read exitcode)
      { fleet.setWorker worker ⟨(fleet.workers worker).stage, some (readAndReap read exitcode)⟩ with
        reports := Function.update fleet.reports lease.id (readAndReap read exitcode).toOption }
  | input {after : Fleet Worker} (worker : Worker) (input : Input)
    (hallows : (fleet.workers worker).stage.allows input = true)
    (hresume : fleet.resume config worker input = some after) :
    Moves config owner fleet (.input worker input) after
  | restart (worker : Worker) :
    Moves config owner fleet (.restart worker) (fleet.setWorker worker .idle)
  | crash (worker : Worker) :
    Moves config owner fleet (.crash worker) (fleet.setWorker worker .idle)

theorem step_moves {config : Worker → WorkerConfig} {owner : Worker → String}
    {fleet after : Fleet Worker} {event : Event Worker}
    (h : fleet.step config owner event = some after) : Moves config owner fleet event after := by
  cases event with
  | tick duration =>
    rw [← Option.some.inj h]
    exact .tick duration
  | client operation =>
    simp only [step] at h
    split_ifs at h with hclient
    rw [← Option.some.inj h]
    exact .client operation (by simpa using hclient)
  | store worker jobId drawn lost clock =>
    simp only [step] at h
    split at h
    · next operation hcall =>
      split at h
      · next hall =>
        have hfresh : ∀ entry ∈ fleet.history, entry.drawn ≠ some drawn := by
          intro entry hentry
          simpa using List.all_eq_true.mp hall entry hentry
        split at h
        · next input hinput =>
          exact .heard worker jobId drawn lost clock operation input hcall hfresh hinput h
        · rw [← Option.some.inj h]
          exact .unheard worker jobId drawn lost clock operation hcall hfresh
      · exact absurd h (by simp)
    · exact absurd h (by simp)
  | put worker applied error =>
    simp only [step] at h
    split at h
    · next handled solved hstage =>
      cases error with
      | some error => exact .notStored worker applied error handled solved hstage h
      | none => exact .stored worker applied handled solved hstage h
    · exact absurd h (by simp)
  | child worker read exitcode =>
    simp only [step] at h
    split at h
    · next lease hrunning hcollected =>
      rw [← Option.some.inj h]
      exact .child worker read exitcode lease hrunning hcollected
    · exact absurd h (by simp)
  | input worker input =>
    simp only [step] at h
    split_ifs at h with hallows
    exact .input worker input hallows h
  | restart worker =>
    simp only [step] at h
    split at h
    · rw [← Option.some.inj h]
      exact .restart worker
    · exact absurd h (by simp)
  | crash worker =>
    rw [← Option.some.inj h]
    exact .crash worker

end Fleet

end Abacus.Worker
