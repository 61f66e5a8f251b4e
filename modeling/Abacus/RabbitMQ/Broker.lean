import Abacus.RabbitMQ.JobQueue
import Abacus.Postgres.Run

/-!
# The row and the wire

Any number of queue objects on one database and one broker. The work queue and the delay queue are
bags of job ids, an entry of the delay queue with the moment before which it does not expire. A
method of a queue object goes on as in `JobQueue`; what it awaits happens here: a store call commits
on the database, a publish puts one id on the queue it names, a settle takes a delivery off the
channel (`System.step`). Between any two of these anything else may happen, a method may lose the
reply it waits for, and an object may crash at any moment, which gives its deliveries back to the
work queue. The two clocks are one.

`cause` is not part of the program. It keeps, for each method, the attempts of every row at the
moment its last insertion, nack or listing committed, so that a condition on a later
`mark_published` can be stated; no step reads it.
-/

set_option autoImplicit false
set_option relaxedAutoImplicit false

namespace Abacus.RabbitMQ

open Postgres (Database Operation Outcome StoreError perform jobRow onChat)

/-- The database, the two queues and the queue objects. -/
structure System (Instance : Type) where
  now : Instant
  database : Database
  work : List Uuid
  delay : List (Uuid × Instant)
  channels : Instance → Channel
  /-- For each method, the attempts of the rows when its last insertion, nack or listing
  committed. -/
  cause : Instance → ℕ → Uuid → ℕ

/-- Empty tables, empty queues, and objects that have just started. -/
def System.initial (Instance : Type) : System Instance where
  now := 0
  database := .empty
  work := []
  delay := []
  channels := fun _ ↦ .new
  cause := fun _ _ _ ↦ 0

/-- The reply of a store call. -/
def replyOf : Except StoreError Outcome → Reply
  | .ok outcome => .returned outcome
  | .error _ => .raised

/-- `_publish`: whether a message goes through the parking queue, and for how long. -/
def parked (delay : Option Duration) : Option Duration :=
  delay.filter fun delay ↦ decide (0 < delay)

/-- The attempts of every row. -/
def attemptsOf (database : Database) (jobId : Uuid) : ℕ :=
  ((jobRow database jobId).map Postgres.JobRow.attempts).getD 0

/-- Whether a place in the code decides on a publish: the insertion, the nack and the listing of
jobs the broker never got. -/
def Frame.decides : Frame → Bool
  | .enqueueInsert _ => true
  | .nackStore _ _ _ => true
  | .sweepUnpublished _ => true
  | _ => false

/-- What happens in the system. -/
inductive Event (Instance : Type)
  /-- Time passes. -/
  | tick (duration : ℕ)
  /-- The chat repository of some process runs a transaction. -/
  | chat (operation : Operation)
  /-- The broker hands a message of the work queue to a consumer. -/
  | deliver (consumer : Instance) (jobId : Uuid)
  /-- A message of the delay queue expires to the work queue. -/
  | expire (jobId : Uuid) (ready : Instant)
  | start (consumer : Instance) (task : ℕ) (call : Call) (time : Instant)
  /-- The store call that a method awaits commits or raises. -/
  | store (consumer : Instance) (task : ℕ) (drawn : Uuid) (scan : List Uuid)
  /-- The publish that a method awaits puts its message on the wire. -/
  | publish (consumer : Instance) (task : ℕ)
  | settle (consumer : Instance) (task : ℕ)
  /-- What a method awaits raises, before it has an effect or after. -/
  | fail (consumer : Instance) (task : ℕ)
  /-- A wait for a delivery ends, with one or without. -/
  | wake (consumer : Instance) (task : ℕ) (timedOut : Bool)
  | resume (consumer : Instance) (task : ℕ) (time : Instant)
  /-- A queue object's process dies. -/
  | crash (consumer : Instance)

namespace System

variable {Instance : Type} [DecidableEq Instance]

/-- The system with one channel replaced. -/
def setChannel (system : System Instance) (consumer : Instance) (channel : Channel) :
    System Instance :=
  { system with channels := Function.update system.channels consumer channel }

/-- The system after a step of one channel, if the channel can make it. -/
def act (config : Instance → Config) (system : System Instance) (consumer : Instance)
    (action : Action) : Option (System Instance) :=
  ((system.channels consumer).step (config consumer) action).map (system.setChannel consumer)

/-- The system after a store call of a method: the call commits or raises, and the method has its
reply. -/
def commit (config : Instance → Config) (system : System Instance) (consumer : Instance) (task : ℕ)
    (frame : Frame) (operation : Operation) : Option (System Instance) :=
  let performed := perform system.now operation system.database
  (system.act config consumer (.answer task (replyOf performed.1))).map fun system ↦
    { system with
      database := performed.2
      cause :=
        if frame.decides then
          Function.update system.cause consumer
            (Function.update (system.cause consumer) task (attemptsOf performed.2))
        else system.cause }

/-- The queues after a publish. -/
def put (system : System Instance) (jobId : Uuid) (delay : Option Duration) : System Instance :=
  match parked delay with
  | some delay => { system with delay := system.delay ++ [(jobId, system.now + delay)] }
  | none => { system with work := system.work ++ [jobId] }

/-- One step; `none` when it cannot happen. -/
def step (config : Instance → Config) (system : System Instance) :
    Event Instance → Option (System Instance)
  | .tick duration => some { system with now := system.now + duration }
  | .chat operation =>
    if onChat operation then
      some { system with database := (perform system.now operation system.database).2 }
    else none
  | .deliver consumer jobId =>
    if jobId ∈ system.work then
      { system with work := system.work.erase jobId }.act config consumer (.deliver (some jobId))
    else none
  | .expire jobId ready =>
    if (jobId, ready) ∈ system.delay ∧ ready ≤ system.now then
      some { system with
        delay := system.delay.erase (jobId, ready)
        work := system.work ++ [jobId] }
    else none
  | .start consumer task call time => system.act config consumer (.start task call time)
  | .store consumer task drawn scan =>
    match (system.channels consumer).tasks task with
    | some ⟨frame, none⟩ =>
      match frame.request (config consumer) with
      | .store operation => system.commit config consumer task frame (operation drawn scan)
      | _ => none
    | _ => none
  | .publish consumer task =>
    match (system.channels consumer).tasks task with
    | some ⟨frame, none⟩ =>
      match frame.request (config consumer) with
      | .publish jobId delay =>
        (system.put jobId delay).act config consumer (.answer task .published)
      | _ => none
    | _ => none
  | .settle consumer task => system.act config consumer (.settle task)
  | .fail consumer task => system.act config consumer (.answer task .raised)
  | .wake consumer task timedOut =>
    system.act config consumer (.answer task (if timedOut then .timedOut else .woken))
  | .resume consumer task time => system.act config consumer (.resume task time)
  | .crash consumer =>
    some ({ system with
      work := system.work ++ (system.channels consumer).unacked.filterMap Message.body }.setChannel
        consumer .new)

/-- Several steps, one after another. -/
def steps (config : Instance → Config) (system : System Instance) :
    List (Event Instance) → Option (System Instance)
  | [] => some system
  | event :: events => (system.step config event).bind fun system ↦ system.steps config events

/-- A run whose steps all meet a condition on the step and the state before it. -/
inductive Run (config : Instance → Config) (allowed : System Instance → Event Instance → Prop) :
    System Instance → Prop
  | initial : Run config allowed (.initial Instance)
  | step {system after : System Instance} (before : Run config allowed system)
      (event : Event Instance) (hallowed : allowed system event)
      (hstep : system.step config event = some after) : Run config allowed after

/-- A run that is under no condition makes any steps it can. -/
theorem Run.steps {config : Instance → Config} {system after : System Instance}
    {events : List (Event Instance)} (h : Run config (fun _ _ ↦ True) system)
    (hsteps : system.steps config events = some after) : Run config (fun _ _ ↦ True) after := by
  induction events generalizing system with
  | nil =>
    rw [← Option.some.inj hsteps]
    exact h
  | cons event events ih =>
    obtain ⟨middle, hstep, hrest⟩ := Option.bind_eq_some_iff.mp hsteps
    exact ih (h.step event trivial hstep) hrest

/-- A job's id is on the wire: in one of the queues or in a delivery not yet acked. -/
def OnWire (system : System Instance) (jobId : Uuid) : Prop :=
  jobId ∈ system.work ∨ (∃ ready, (jobId, ready) ∈ system.delay) ∨
    ∃ consumer, ∃ message ∈ (system.channels consumer).unacked, message.body = some jobId

end System

end Abacus.RabbitMQ
