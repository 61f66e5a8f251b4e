import Abacus.Postgres.Operation

/-!
# The job queue over RabbitMQ

`RabbitMQJobQueue` as coroutines. A method runs without interruption from one `await` to the next,
so a suspended method is the place in the code where it waits with its local variables (`Frame`),
what it waits for is read off the place (`Frame.request`), and the code up to the next `await` is a
function of the queue object's state and the reply (`Consumer.start`, `Consumer.resume`).

`Channel` is one queue object with its tasks and the broker's side of its channel: the deliveries
handed over and not acked. A reply is any that the awaited call can give. Settling a delivery never
raises: `_settle` swallows what `ack` raises.
-/

set_option autoImplicit false
set_option relaxedAutoImplicit false

namespace Abacus.RabbitMQ

open Postgres (Operation Outcome)

/-! ### The queue object -/

/-- What the queue is built with; `_republish_quiet` is four maintenance intervals. -/
structure Config where
  prefetch : ℕ
  maintenanceInterval : Duration
  orphanAfter : Duration

/-- `_REPUBLISH_QUIET_PASSES`. -/
def republishQuietPasses : Int :=
  4

/-- `_republish_quiet`. -/
def Config.republishQuiet (config : Config) : Duration :=
  config.maintenanceInterval * republishQuietPasses

/-- A delivery: its tag on the channel, and the job its body names. `none` is a body that
`uuid.UUID` refuses. -/
structure Message where
  tag : ℕ
  body : Option Uuid
  deriving DecidableEq, Repr

/-- The state of the object: `_incoming`, `_held` and `_republished`. -/
structure Consumer where
  incoming : List Message
  held : Uuid → Option (Uuid × Message)
  republished : Uuid → Option Instant

/-- The object as `__init__` leaves it. -/
def Consumer.new : Consumer where
  incoming := []
  held := fun _ ↦ none
  republished := fun _ ↦ none

/-! ### The methods, from await to await -/

/-- A call of a method. `sweep` is the pass that the maintenance loop makes. -/
inductive Call
  | enqueue (request : JobRequest)
  | get (jobId : Uuid)
  | cancel (jobId : Uuid)
  | reserve (owner : String) (lease waitFor : Duration)
  | extend (lease : Lease) (duration : Duration)
  | ack (lease : Lease) (resultRef : Option String)
  | nack (lease : Lease) (error : String) (retryIn : Option Duration)
  | discard (lease : Lease)
  | sweep

/-- Where a method is suspended, with its local variables. -/
inductive Frame
  | enqueueInsert (request : JobRequest)
  | enqueuePublish (job : Job) (delay : Duration)
  | enqueueMark (job : Job)
  | get (jobId : Uuid)
  | cancel (jobId : Uuid)
  | extend (lease : Lease) (duration : Duration)
  | reserveNext (deadline : Instant) (owner : String) (lease : Duration)
  | reserveClaim (message : Message) (jobId : Uuid) (deadline : Instant) (owner : String)
      (lease : Duration)
  | reserveSettle (message : Message) (deadline : Instant) (owner : String) (lease : Duration)
  | ackStore (lease : Lease) (resultRef : Option String)
  | ackSettle (message : Message) (raised : Bool)
  | nackStore (lease : Lease) (error : String) (retryIn : Option Duration)
  | nackSettle (message : Message) (job : Option Job) (retryIn : Option Duration)
  | nackPublish (job : Job) (retryIn : Option Duration)
  | nackMark (job : Job)
  | discardSettle (message : Message)
  | sweepRetire
  | sweepRetireSettle (message : Message) (rest : List Uuid)
  | sweepLapsed (now : Instant)
  | sweepLapsedSettle (message : Message) (jobId : Uuid) (rest : List Uuid) (now : Instant)
  | sweepRepublish (jobId : Uuid) (rest : List Uuid) (now : Instant)
  | sweepUnpublished (now : Instant)
  | sweepOrphanPublish (jobId : Uuid) (rest : List Uuid) (now : Instant)
  | sweepOrphanMark (jobId : Uuid) (rest : List Uuid) (now : Instant)

/-- What a suspended method waits for. A store call draws an identity, and a query visits the table
in some order. -/
inductive Request
  | store (operation : Uuid → List Uuid → Operation)
  | publish (jobId : Uuid) (delay : Option Duration)
  | settle (message : Message)
  | delivery

/-- The call a place in the code awaits. -/
def Frame.request (config : Config) : Frame → Request
  | .enqueueInsert request => .store fun drawn _ ↦ .insertOrGet drawn request
  | .enqueuePublish job delay => .publish job.id (some delay)
  | .enqueueMark job => .store fun _ _ ↦ .markPublished job.id
  | .get jobId => .store fun _ _ ↦ .getJob jobId
  | .cancel jobId => .store fun _ _ ↦ .cancel jobId
  | .extend lease duration => .store fun _ _ ↦ .extend lease duration
  | .reserveNext _ _ _ => .delivery
  | .reserveClaim _ jobId _ owner lease => .store fun drawn _ ↦ .claim jobId drawn owner lease
  | .reserveSettle message _ _ _ => .settle message
  | .ackStore lease resultRef => .store fun _ _ ↦ .ack lease resultRef
  | .ackSettle message _ => .settle message
  | .nackStore lease error retryIn => .store fun _ _ ↦ .nack lease error retryIn
  | .nackSettle message _ _ => .settle message
  | .nackPublish job retryIn => .publish job.id retryIn
  | .nackMark job => .store fun _ _ ↦ .markPublished job.id
  | .discardSettle message => .settle message
  | .sweepRetire => .store fun _ scan ↦ .retireLapsed scan
  | .sweepRetireSettle message _ => .settle message
  | .sweepLapsed _ => .store fun _ scan ↦ .lapsedReservable scan
  | .sweepLapsedSettle message _ _ _ => .settle message
  | .sweepRepublish jobId _ _ => .publish jobId none
  | .sweepUnpublished _ => .store fun _ scan ↦ .unpublished scan config.orphanAfter
  | .sweepOrphanPublish jobId _ _ => .publish jobId none
  | .sweepOrphanMark jobId _ _ => .store fun _ _ ↦ .markPublished jobId

/-- What an awaited call gives back. `woken` is an item put into `_incoming` and `timedOut` the end
of `wait_for`. -/
inductive Reply
  | returned (outcome : Outcome)
  | raised
  | published
  | settled
  | woken
  | timedOut

/-- Whether a reply is an exception. -/
def Reply.isRaised : Reply → Bool
  | .raised => true
  | _ => false

/-- Whether a reply answers a request. The answer to a settle is the broker's and a step of its
own. -/
def Request.accepts : Request → Reply → Bool
  | .store _, .returned _ => true
  | .store _, .raised => true
  | .publish _ _, .published => true
  | .publish _ _, .raised => true
  | .delivery, .woken => true
  | .delivery, .timedOut => true
  | _, _ => false

/-- What a method returns to its caller. -/
inductive Result
  | unit
  | job (job : Job)
  | found (job : Option Job)
  | extended (lease : Lease)
  | reserved (lease : Option Lease)
  | raised

/-- How a method goes on: it awaits, or it is over. -/
inductive Next
  | suspend (frame : Frame)
  | finish (result : Result)

namespace Consumer

/-- `_release` up to its `await`: the delivery to settle, if the consumer holds one for the job
under this lease, or under any when none is given. -/
def release (consumer : Consumer) (jobId : Uuid) (leaseId : Option Uuid) :
    Consumer × Option Message :=
  match consumer.held jobId with
  | none => (consumer, none)
  | some (heldLease, message) =>
    if leaseId.any fun leaseId ↦ leaseId ≠ heldLease then (consumer, none)
    else ({ consumer with held := Function.update consumer.held jobId none }, some message)

/-- `await self._release(…)` and what follows it, which comes at once when there is nothing to
settle. -/
def releaseThen (consumer : Consumer) (jobId : Uuid) (leaseId : Option Uuid)
    (settle : Message → Frame) (rest : Consumer → Consumer × Next) : Consumer × Next :=
  match consumer.release jobId leaseId with
  | (consumer, some message) => (consumer, .suspend (settle message))
  | (consumer, none) => rest consumer

/-- `reserve` with a delivery in hand. -/
def received (consumer : Consumer) (message : Message) (deadline : Instant) (owner : String)
    (lease : Duration) : Consumer × Next :=
  match message.body with
  | some jobId => (consumer, .suspend (.reserveClaim message jobId deadline owner lease))
  | none => (consumer, .finish .raised)

/-- `_next_delivery`: a delivery at once if there is one, nothing if the time is spent, and a wait
otherwise. -/
def nextDelivery (consumer : Consumer) (time deadline : Instant) (owner : String)
    (lease : Duration) : Consumer × Next :=
  match consumer.incoming with
  | message :: incoming =>
    received { consumer with incoming := incoming } message deadline owner lease
  | [] =>
    if deadline ≤ time then (consumer, .finish (.reserved none))
    else (consumer, .suspend (.reserveNext deadline owner lease))

/-- `nack` after the release: only a job that goes round again is published. -/
def reoffer (consumer : Consumer) (job : Job) (retryIn : Option Duration) : Consumer × Next :=
  if job.state = .failed then (consumer, .suspend (.nackPublish job retryIn))
  else (consumer, .finish .unit)

/-- The first loop of `_sweep`, which drops the deliveries of the jobs just retired. -/
def retireLoop (consumer : Consumer) (time : Instant) : List Uuid → Consumer × Next
  | [] => (consumer, .suspend (.sweepLapsed time))
  | jobId :: rest =>
    match consumer.release jobId none with
    | (consumer, some message) => (consumer, .suspend (.sweepRetireSettle message rest))
    | (consumer, none) => consumer.retireLoop time rest

/-- The damper: whether a job was republished less than `_republish_quiet` ago. -/
def damped (consumer : Consumer) (config : Config) (now : Instant) (jobId : Uuid) : Bool :=
  (consumer.republished jobId).any fun last ↦ decide (now - last < config.republishQuiet)

/-- The second loop of `_sweep`, which drops the deliveries of lapsed jobs and offers the jobs
again. -/
def lapsedLoop (consumer : Consumer) (config : Config) (now : Instant) :
    List Uuid → Consumer × Next
  | [] => (consumer, .suspend (.sweepUnpublished now))
  | jobId :: rest =>
    match consumer.release jobId none with
    | (consumer, some message) => (consumer, .suspend (.sweepLapsedSettle message jobId rest now))
    | (consumer, none) =>
      if consumer.damped config now jobId then consumer.lapsedLoop config now rest
      else (consumer, .suspend (.sweepRepublish jobId rest now))

/-- The body of the second loop after a release that settled a delivery. -/
def offer (consumer : Consumer) (config : Config) (now : Instant) (jobId : Uuid)
    (rest : List Uuid) : Consumer × Next :=
  if consumer.damped config now jobId then consumer.lapsedLoop config now rest
  else (consumer, .suspend (.sweepRepublish jobId rest now))

/-- The end of `_sweep`: the entries that damp nothing any more are pruned. -/
def prune (consumer : Consumer) (config : Config) (now : Instant) : Consumer :=
  { consumer with
    republished := fun jobId ↦
      (consumer.republished jobId).filter fun last ↦ decide (now - last < config.republishQuiet) }

/-- The third loop of `_sweep`, which publishes the jobs the broker never got. -/
def orphanLoop (consumer : Consumer) (config : Config) (now : Instant) :
    List Uuid → Consumer × Next
  | [] => (consumer.prune config now, .finish .unit)
  | jobId :: rest => (consumer, .suspend (.sweepOrphanPublish jobId rest now))

/-- A method from its call to its first `await`. -/
def start (consumer : Consumer) (time : Instant) : Call → Consumer × Next
  | .enqueue request => (consumer, .suspend (.enqueueInsert request))
  | .get jobId => (consumer, .suspend (.get jobId))
  | .cancel jobId => (consumer, .suspend (.cancel jobId))
  | .reserve owner lease waitFor => consumer.nextDelivery time (time + waitFor) owner lease
  | .extend lease duration => (consumer, .suspend (.extend lease duration))
  | .ack lease resultRef => (consumer, .suspend (.ackStore lease resultRef))
  | .nack lease error retryIn => (consumer, .suspend (.nackStore lease error retryIn))
  | .discard lease =>
    consumer.releaseThen lease.job.id (some lease.id) .discardSettle fun consumer ↦
      (consumer, .finish .unit)
  | .sweep => (consumer, .suspend .sweepRetire)

/-- A method from one `await` to the next, with the reply it waited for. An exception ends it, but
for the `finally` of `ack` and `nack`. -/
def resume (consumer : Consumer) (config : Config) (time : Instant) :
    Frame → Reply → Consumer × Next
  | .enqueueInsert request, .returned (.enqueued job created) =>
    if created then (consumer, .suspend (.enqueuePublish job request.delay))
    else (consumer, .finish (.job job))
  | .enqueuePublish job _, .published => (consumer, .suspend (.enqueueMark job))
  | .enqueueMark job, .returned _ => (consumer, .finish (.job job))
  | .get _, .returned (.found job) => (consumer, .finish (.found job))
  | .cancel _, .returned (.found job) => (consumer, .finish (.found job))
  | .extend _ _, .returned (.extended lease) => (consumer, .finish (.extended lease))
  | .reserveNext deadline owner lease, .woken =>
    match consumer.incoming with
    | message :: incoming =>
      received { consumer with incoming := incoming } message deadline owner lease
    | [] => (consumer, .suspend (.reserveNext deadline owner lease))
  | .reserveNext _ _ _, .timedOut => (consumer, .finish (.reserved none))
  | .reserveClaim message jobId _ _ _, .returned (.claimed (some lease)) =>
    ({ consumer with held := Function.update consumer.held jobId (some (lease.id, message)) },
      .finish (.reserved (some lease)))
  | .reserveClaim message _ deadline owner lease, .returned (.claimed none) =>
    (consumer, .suspend (.reserveSettle message deadline owner lease))
  | .reserveSettle _ deadline owner lease, .settled =>
    consumer.nextDelivery time deadline owner lease
  | .ackStore lease _, .returned _ =>
    consumer.releaseThen lease.job.id (some lease.id) (fun message ↦ .ackSettle message false)
      fun consumer ↦ (consumer, .finish .unit)
  | .ackStore lease _, .raised =>
    consumer.releaseThen lease.job.id (some lease.id) (fun message ↦ .ackSettle message true)
      fun consumer ↦ (consumer, .finish .raised)
  | .ackSettle _ raised, .settled => (consumer, .finish (if raised then .raised else .unit))
  | .nackStore lease _ retryIn, .returned (.nacked job) =>
    consumer.releaseThen lease.job.id (some lease.id)
      (fun message ↦ .nackSettle message (some job) retryIn)
      fun consumer ↦ consumer.reoffer job retryIn
  | .nackStore lease _ retryIn, .raised =>
    consumer.releaseThen lease.job.id (some lease.id)
      (fun message ↦ .nackSettle message none retryIn)
      fun consumer ↦ (consumer, .finish .raised)
  | .nackSettle _ (some job) retryIn, .settled => consumer.reoffer job retryIn
  | .nackSettle _ none _, .settled => (consumer, .finish .raised)
  | .nackPublish job _, .published => (consumer, .suspend (.nackMark job))
  | .nackMark _, .returned _ => (consumer, .finish .unit)
  | .discardSettle _, .settled => (consumer, .finish .unit)
  | .sweepRetire, .returned (.jobIds ids) => consumer.retireLoop time ids
  | .sweepRetireSettle _ rest, .settled => consumer.retireLoop time rest
  | .sweepLapsed now, .returned (.jobIds ids) => consumer.lapsedLoop config now ids
  | .sweepLapsedSettle _ jobId rest now, .settled => consumer.offer config now jobId rest
  | .sweepRepublish jobId rest now, .published =>
    ({ consumer with
      republished := Function.update consumer.republished jobId (some now) } : Consumer).lapsedLoop
        config now rest
  | .sweepUnpublished now, .returned (.jobIds ids) => consumer.orphanLoop config now ids
  | .sweepOrphanPublish jobId rest now, .published =>
    (consumer, .suspend (.sweepOrphanMark jobId rest now))
  | .sweepOrphanMark _ rest now, .returned _ => consumer.orphanLoop config now rest
  | _, .raised => (consumer, .finish .raised)
  | frame, _ => (consumer, .suspend frame)

end Consumer

/-! ### A channel -/

/-- A method in progress: where it is suspended, and the reply if it has come. -/
structure Task where
  frame : Frame
  reply : Option Reply

/-- The task of a method that has run to its next `await`, if it is not over. -/
def Next.task : Next → Option Task
  | .suspend frame => some ⟨frame, none⟩
  | .finish _ => none

/-- One queue object, its tasks, and the broker's side of its channel: the deliveries handed over
and not acked, and the next delivery tag. -/
structure Channel where
  consumer : Consumer
  tasks : ℕ → Option Task
  unacked : List Message
  nextTag : ℕ

/-- A channel just opened. -/
def Channel.new : Channel where
  consumer := .new
  tasks := fun _ ↦ none
  unacked := []
  nextTag := 0

/-- What happens on a channel. -/
inductive Action
  /-- The broker hands over a message, which `_on_delivery` puts into `_incoming`. -/
  | deliver (body : Option Uuid)
  /-- A method is called. -/
  | start (task : ℕ) (call : Call) (time : Instant)
  /-- The awaited call replies. One that had returned may still raise: its result was lost. -/
  | answer (task : ℕ) (reply : Reply)
  /-- The broker takes the ack of the delivery a method is settling. -/
  | settle (task : ℕ)
  /-- A method goes on to its next `await`. -/
  | resume (task : ℕ) (time : Instant)

namespace Channel

/-- The channel with another state of one task. -/
def setTask (channel : Channel) (task : ℕ) (state : Option Task) : Channel :=
  { channel with tasks := Function.update channel.tasks task state }

/-- The channel after a method has run to its next `await`. -/
def proceed (channel : Channel) (task : ℕ) (result : Consumer × Next) : Channel :=
  { channel with consumer := result.1 }.setTask task result.2.task

/-- One step of a channel; `none` when it cannot happen. -/
def step (config : Config) (channel : Channel) : Action → Option Channel
  | .deliver body =>
    if channel.unacked.length < config.prefetch then
      some { channel with
        consumer := { channel.consumer with
          incoming := channel.consumer.incoming ++ [⟨channel.nextTag, body⟩] }
        unacked := channel.unacked ++ [⟨channel.nextTag, body⟩]
        nextTag := channel.nextTag + 1 }
    else none
  | .start task call time =>
    match channel.tasks task with
    | some _ => none
    | none => some (channel.proceed task (channel.consumer.start time call))
  | .answer task reply =>
    match channel.tasks task with
    | some ⟨frame, earlier⟩ =>
      if (frame.request config).accepts reply && (earlier.isNone || reply.isRaised) then
        some (channel.setTask task (some ⟨frame, some reply⟩))
      else none
    | none => none
  | .settle task =>
    match channel.tasks task with
    | some ⟨frame, none⟩ =>
      match frame.request config with
      | .settle message =>
        some ({ channel with unacked := channel.unacked.erase message }.setTask task
          (some ⟨frame, some .settled⟩))
      | _ => none
    | _ => none
  | .resume task time =>
    match channel.tasks task with
    | some ⟨frame, some reply⟩ =>
      some (channel.proceed task (channel.consumer.resume config time frame reply))
    | _ => none

end Channel

end Abacus.RabbitMQ
