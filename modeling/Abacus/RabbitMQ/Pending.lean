import Abacus.RabbitMQ.Broker
import Abacus.RabbitMQ.Slots

/-!
# What a method has yet to publish

A method of the queue decides to publish a job when an insertion, a nack or the listing of jobs the
broker never got returns (`Task.pending`), publishes it some awaits later, and then marks it
(`Task.marking`). `Channel.lighter_of_step` says that no other step gives a method anything to
publish, and that only a publish gives it anything to mark.
-/

set_option autoImplicit false
set_option relaxedAutoImplicit false

namespace Abacus.RabbitMQ

open Postgres (Operation Outcome StoreError)

/-! ### Pending publishes -/

/-- The jobs that a method has decided to publish, each with the delay it will ask for. -/
def Task.pending (task : Task) : List (Uuid × Option Duration) :=
  match task.frame, task.reply with
  | .enqueueInsert request, some (.returned (.enqueued job true)) => [(job.id, some request.delay)]
  | .enqueuePublish job delay, _ => [(job.id, some delay)]
  | .nackStore _ _ retryIn, some (.returned (.nacked job)) => [(job.id, retryIn)]
  | .nackSettle _ (some job) retryIn, _ => [(job.id, retryIn)]
  | .nackPublish job retryIn, _ => [(job.id, retryIn)]
  | .sweepUnpublished _, some (.returned (.jobIds ids)) => ids.map fun jobId ↦ (jobId, none)
  | .sweepOrphanPublish jobId rest _, _ => (jobId :: rest).map fun jobId ↦ (jobId, none)
  | .sweepOrphanMark _ rest _, _ => rest.map fun jobId ↦ (jobId, none)
  | _, _ => []

/-- The job that a method has published and not yet marked. -/
def Task.marking (task : Task) : Option Uuid :=
  match task.frame, task.reply with
  | .enqueuePublish job _, some .published => some job.id
  | .enqueueMark job, _ => some job.id
  | .nackPublish job _, some .published => some job.id
  | .nackMark job, _ => some job.id
  | .sweepOrphanPublish jobId _ _, some .published => some jobId
  | .sweepOrphanMark jobId _ _, _ => some jobId
  | _, _ => none

/-- A method that has nothing to publish or mark that it did not have before. -/
structure Task.Lighter (new old : Task) : Prop where
  pending : ∀ entry ∈ new.pending, entry ∈ old.pending
  marking : ∀ jobId, new.marking = some jobId → old.marking = some jobId

/-- A place in the code with nothing to publish or to mark. -/
def Frame.Idle (frame : Frame) : Prop :=
  (⟨frame, none⟩ : Task).pending = [] ∧ (⟨frame, none⟩ : Task).marking = none

theorem Frame.Idle.lighter {frame : Frame} (h : frame.Idle) (old : Task) :
    Task.Lighter ⟨frame, none⟩ old where
  pending := by simp [h.1]
  marking := by simp [h.2]

/-- A method that awaits an insertion, a nack or a listing has nothing to publish or to mark yet. -/
theorem Frame.idle_of_decides {frame : Frame} (h : frame.decides = true) : frame.Idle := by
  cases frame with
  | enqueueInsert request => exact ⟨rfl, rfl⟩
  | nackStore lease error retryIn => exact ⟨rfl, rfl⟩
  | sweepUnpublished now => exact ⟨rfl, rfl⟩
  | _ => exact absurd h (by simp [Frame.decides])

/-- A reply leaves a method what it had to publish and to mark. -/
theorem Task.lighter_of_none (frame : Frame) (reply : Option Reply) :
    Task.Lighter ⟨frame, none⟩ ⟨frame, reply⟩ := by
  cases frame with
  | enqueueInsert request => exact Frame.Idle.lighter ⟨rfl, rfl⟩ _
  | nackStore lease error retryIn => exact Frame.Idle.lighter ⟨rfl, rfl⟩ _
  | sweepUnpublished now => exact Frame.Idle.lighter ⟨rfl, rfl⟩ _
  | nackSettle message job retryIn => cases job <;> exact ⟨fun _ hentry ↦ hentry, fun _ hjob ↦ hjob⟩
  | _ => exact ⟨fun _ hentry ↦ hentry, fun _ hjob ↦ by simp [Task.marking] at hjob ⊢ <;> exact hjob⟩

/-- Only the return of an insertion, a nack or a listing gives a method something to publish. -/
theorem Task.pending_of_reply {frame : Frame} {reply : Reply}
    (h : frame.decides = false ∨ ∀ outcome, reply ≠ .returned outcome) :
    (⟨frame, some reply⟩ : Task).pending = (⟨frame, none⟩ : Task).pending := by
  have hreturned : frame.decides = true → ∀ outcome, reply ≠ .returned outcome := by
    intro hdecides
    rcases h with hfalse | hreturned
    · rw [hdecides] at hfalse
      exact absurd hfalse (by simp)
    · exact hreturned
  cases frame with
  | enqueueInsert request =>
    cases reply with
    | returned outcome => exact absurd rfl (hreturned rfl outcome)
    | _ => rfl
  | nackStore lease error retryIn =>
    cases reply with
    | returned outcome => exact absurd rfl (hreturned rfl outcome)
    | _ => rfl
  | sweepUnpublished now =>
    cases reply with
    | returned outcome => exact absurd rfl (hreturned rfl outcome)
    | _ => rfl
  | nackSettle message job retryIn => cases job <;> rfl
  | _ => rfl

/-- Only a publish gives a method something to mark. -/
theorem Task.marking_of_reply {frame : Frame} {reply : Reply} (h : reply ≠ .published) :
    (⟨frame, some reply⟩ : Task).marking = (⟨frame, none⟩ : Task).marking := by
  cases reply with
  | published => exact absurd rfl h
  | _ => cases frame <;> rfl

theorem Task.of_mem_pending_enqueueInsert {request : JobRequest} {entry : Uuid × Option Duration}
    {reply : Except StoreError Outcome}
    (h : entry ∈ (⟨.enqueueInsert request, some (replyOf reply)⟩ : Task).pending) :
    ∃ job, reply = .ok (.enqueued job true) ∧ entry = (job.id, some request.delay) := by
  cases reply with
  | error error => exact absurd h List.not_mem_nil
  | ok outcome =>
    cases outcome with
    | enqueued job created =>
      cases created with
      | true => exact ⟨job, rfl, List.mem_singleton.mp h⟩
      | false => exact absurd h List.not_mem_nil
    | _ => exact absurd h List.not_mem_nil

theorem Task.of_mem_pending_nackStore {lease : Lease} {error : String} {retryIn : Option Duration}
    {entry : Uuid × Option Duration} {reply : Except StoreError Outcome}
    (h : entry ∈ (⟨.nackStore lease error retryIn, some (replyOf reply)⟩ : Task).pending) :
    ∃ job, reply = .ok (.nacked job) ∧ entry = (job.id, retryIn) := by
  cases reply with
  | error error => exact absurd h List.not_mem_nil
  | ok outcome =>
    cases outcome with
    | nacked job => exact ⟨job, rfl, List.mem_singleton.mp h⟩
    | _ => exact absurd h List.not_mem_nil

/-- A method that has published a job had it to publish. -/
theorem Task.pending_of_published {config : Config} {frame : Frame} {jobId marked : Uuid}
    {delay : Option Duration} (hrequest : frame.request config = .publish jobId delay)
    (hmarking : (⟨frame, some .published⟩ : Task).marking = some marked) :
    marked = jobId ∧ (jobId, delay) ∈ (⟨frame, none⟩ : Task).pending := by
  cases frame with
  | enqueuePublish job requested =>
    obtain ⟨rfl, rfl⟩ := Request.publish.inj hrequest
    exact ⟨(Option.some.inj hmarking).symm, List.mem_singleton.mpr rfl⟩
  | nackPublish job retryIn =>
    obtain ⟨rfl, rfl⟩ := Request.publish.inj hrequest
    exact ⟨(Option.some.inj hmarking).symm, List.mem_singleton.mpr rfl⟩
  | sweepOrphanPublish published rest now =>
    obtain ⟨rfl, rfl⟩ := Request.publish.inj hrequest
    exact ⟨(Option.some.inj hmarking).symm, List.mem_cons_self⟩
  | sweepRepublish published rest now => exact absurd hmarking (by simp [Task.marking])
  | _ => exact absurd hrequest (by simp [Frame.request])

/-- A method that awaits a `mark_published` has that job to mark. -/
theorem Frame.marking_of_request {config : Config} {frame : Frame}
    {operation : Uuid → List Uuid → Operation} {drawn jobId : Uuid} {scan : List Uuid}
    (hrequest : frame.request config = .store operation)
    (hoperation : operation drawn scan = .markPublished jobId) :
    (⟨frame, none⟩ : Task).marking = some jobId := by
  cases frame with
  | enqueueMark job =>
    obtain rfl := Request.store.inj hrequest
    exact congrArg some (Operation.markPublished.inj hoperation)
  | nackMark job =>
    obtain rfl := Request.store.inj hrequest
    exact congrArg some (Operation.markPublished.inj hoperation)
  | sweepOrphanMark marked rest now =>
    obtain rfl := Request.store.inj hrequest
    exact congrArg some (Operation.markPublished.inj hoperation)
  | _ =>
    first
    | obtain rfl := Request.store.inj hrequest
      exact absurd hoperation Operation.noConfusion
    | exact absurd hrequest Request.noConfusion

namespace Consumer

variable {consumer : Consumer} {next : Frame}

theorem releaseThen_next {jobId : Uuid} {leaseId : Option Uuid} {settle : Message → Frame}
    {rest : Consumer → Consumer × Next}
    (h : (consumer.releaseThen jobId leaseId settle rest).2 = .suspend next) :
    (∃ message, next = settle message) ∨ ∃ after, (rest after).2 = .suspend next := by
  unfold releaseThen at h
  split at h
  · rename_i message _
    exact Or.inl ⟨message, (Next.suspend.inj h).symm⟩
  · rename_i after _
    exact Or.inr ⟨after, h⟩

theorem received_next {message : Message} {deadline : Instant} {owner : String} {lease : Duration}
    (h : (consumer.received message deadline owner lease).2 = .suspend next) : next.Idle := by
  unfold received at h
  split at h
  · rw [← Next.suspend.inj h]
    exact ⟨rfl, rfl⟩
  · exact absurd h (by simp)

theorem nextDelivery_next {time deadline : Instant} {owner : String} {lease : Duration}
    (h : (consumer.nextDelivery time deadline owner lease).2 = .suspend next) : next.Idle := by
  unfold nextDelivery at h
  split at h
  · exact received_next h
  · split at h
    · exact absurd h (by simp)
    · rw [← Next.suspend.inj h]
      exact ⟨rfl, rfl⟩

theorem retireLoop_next {time : Instant} {ids : List Uuid}
    (h : (consumer.retireLoop time ids).2 = .suspend next) : next.Idle := by
  induction ids generalizing consumer with
  | nil =>
    rw [← Next.suspend.inj h]
    exact ⟨rfl, rfl⟩
  | cons jobId rest ih =>
    have hnext : (∃ message, next = .sweepRetireSettle message rest) ∨
        ∃ after : Consumer, (after.retireLoop time rest).2 = .suspend next := releaseThen_next h
    rcases hnext with ⟨message, rfl⟩ | ⟨after, hrest⟩
    · exact ⟨rfl, rfl⟩
    · exact ih hrest

theorem lapsedLoop_next {config : Config} {now : Instant} {ids : List Uuid}
    (h : (consumer.lapsedLoop config now ids).2 = .suspend next) : next.Idle := by
  induction ids generalizing consumer with
  | nil =>
    rw [← Next.suspend.inj h]
    exact ⟨rfl, rfl⟩
  | cons jobId rest ih =>
    have hnext : (∃ message, next = .sweepLapsedSettle message jobId rest now) ∨
        ∃ after : Consumer, (after.offer config now jobId rest).2 = .suspend next :=
      releaseThen_next h
    rcases hnext with ⟨message, rfl⟩ | ⟨after, hrest⟩
    · exact ⟨rfl, rfl⟩
    · unfold offer at hrest
      split at hrest
      · exact ih hrest
      · rw [← Next.suspend.inj hrest]
        exact ⟨rfl, rfl⟩

theorem offer_next {config : Config} {now : Instant} {jobId : Uuid} {rest : List Uuid}
    (h : (consumer.offer config now jobId rest).2 = .suspend next) : next.Idle := by
  unfold offer at h
  split at h
  · exact lapsedLoop_next h
  · rw [← Next.suspend.inj h]
    exact ⟨rfl, rfl⟩

theorem start_next {time : Instant} {call : Call}
    (h : (consumer.start time call).2 = .suspend next) : next.Idle := by
  cases call with
  | reserve owner lease waitFor => exact nextDelivery_next h
  | discard lease =>
    rcases releaseThen_next h with ⟨message, rfl⟩ | ⟨after, hrest⟩
    · exact ⟨rfl, rfl⟩
    · exact absurd hrest (by simp)
  | _ =>
    rw [← Next.suspend.inj h]
    exact ⟨rfl, rfl⟩

theorem reoffer_next {job : Job} {retryIn : Option Duration}
    (h : (consumer.reoffer job retryIn).2 = .suspend next) : next = .nackPublish job retryIn := by
  unfold reoffer at h
  split at h
  · exact (Next.suspend.inj h).symm
  · exact absurd h (by simp)

theorem orphanLoop_next {config : Config} {now : Instant} {ids : List Uuid}
    (h : (consumer.orphanLoop config now ids).2 = .suspend next) {old : Task}
    (hpending : old.pending = ids.map fun jobId ↦ (jobId, none)) :
    Task.Lighter ⟨next, none⟩ old := by
  cases ids with
  | nil => exact absurd h Next.noConfusion
  | cons jobId rest =>
    rw [← Next.suspend.inj h]
    refine ⟨fun entry hentry ↦ ?_, fun _ hjob ↦ absurd hjob (by simp [Task.marking])⟩
    rw [hpending]
    exact hentry

/-- A method takes on no job to publish, and none to mark, between one `await` and the next. -/
theorem resume_lighter {config : Config} {time : Instant} {frame : Frame} {reply : Reply}
    (h : (consumer.resume config time frame reply).2 = .suspend next) :
    Task.Lighter ⟨next, none⟩ ⟨frame, some reply⟩ := by
  have hsuspend : ∀ {frame : Frame}, (consumer, Next.suspend frame).2 = .suspend next →
      frame = next := Next.suspend.inj
  unfold resume at h
  split at h
  all_goals first
    | exact absurd h Next.noConfusion
    | exact (nextDelivery_next h).lighter _
    | exact (retireLoop_next h).lighter _
    | exact (lapsedLoop_next h).lighter _
    | exact (offer_next h).lighter _
    | skip
  · -- the insertion created the job
    split at h
    · rename_i hcreated
      obtain rfl := hsuspend h
      subst hcreated
      exact ⟨fun _ hentry ↦ hentry, fun _ hjob ↦ absurd hjob (by simp [Task.marking])⟩
    · exact absurd h Next.noConfusion
  · obtain rfl := hsuspend h
    exact ⟨fun _ hentry ↦ absurd hentry (by simp [Task.pending]), fun _ hjob ↦ hjob⟩
  · split at h
    · exact (received_next h).lighter _
    · obtain rfl := hsuspend h
      exact Frame.Idle.lighter ⟨rfl, rfl⟩ _
  · obtain rfl := hsuspend h
    exact Frame.Idle.lighter ⟨rfl, rfl⟩ _
  · rcases releaseThen_next h with ⟨message, rfl⟩ | ⟨after, hrest⟩
    · exact Frame.Idle.lighter ⟨rfl, rfl⟩ _
    · exact absurd hrest Next.noConfusion
  · rcases releaseThen_next h with ⟨message, rfl⟩ | ⟨after, hrest⟩
    · exact Frame.Idle.lighter ⟨rfl, rfl⟩ _
    · exact absurd hrest Next.noConfusion
  · -- the nack returned: its job is pending through the settling
    rcases releaseThen_next h with ⟨message, rfl⟩ | ⟨after, hrest⟩
    · exact ⟨fun _ hentry ↦ hentry, fun _ hjob ↦ absurd hjob (by simp [Task.marking])⟩
    · obtain rfl := reoffer_next hrest
      exact ⟨fun _ hentry ↦ hentry, fun _ hjob ↦ absurd hjob (by simp [Task.marking])⟩
  · rcases releaseThen_next h with ⟨message, rfl⟩ | ⟨after, hrest⟩
    · exact Frame.Idle.lighter ⟨rfl, rfl⟩ _
    · exact absurd hrest Next.noConfusion
  · obtain rfl := reoffer_next h
    exact ⟨fun _ hentry ↦ hentry, fun _ hjob ↦ absurd hjob (by simp [Task.marking])⟩
  · obtain rfl := hsuspend h
    exact ⟨fun _ hentry ↦ absurd hentry (by simp [Task.pending]), fun _ hjob ↦ hjob⟩
  · exact orphanLoop_next h rfl
  · obtain rfl := hsuspend h
    exact ⟨fun _ hentry ↦ List.mem_cons_of_mem _ hentry, fun _ hjob ↦ hjob⟩
  · exact orphanLoop_next h rfl
  · obtain rfl := hsuspend h
    exact Task.lighter_of_none _ _

end Consumer

/-- A reply changes nothing but the state of its method. -/
theorem Channel.tasks_of_answer {config : Config} {channel after : Channel} {task : ℕ}
    {frame : Frame} {earlier : Option Reply} {reply : Reply}
    (hstep : channel.step config (.answer task reply) = some after)
    (htask : channel.tasks task = some ⟨frame, earlier⟩) :
    after.tasks = Function.update channel.tasks task (some ⟨frame, some reply⟩) := by
  simp only [Channel.step, htask] at hstep
  split at hstep
  · rw [← Option.some.inj hstep]
    rfl
  · exact absurd hstep (by simp)

/-- The methods of a channel have nothing new to publish or to mark after a step that gives none of
them the reply to a store call or a publish. -/
theorem Channel.lighter_of_step {config : Config} {channel after : Channel} {action : Action}
    (hstep : channel.step config action = some after)
    (hquiet : ∀ task reply, action = .answer task reply →
      (∀ outcome, reply ≠ .returned outcome) ∧ reply ≠ .published) {task : ℕ} {state : Task}
    (hstate : after.tasks task = some state) :
    (∃ frame : Frame, frame.Idle ∧ state = ⟨frame, none⟩) ∨
      ∃ old, channel.tasks task = some old ∧ state.Lighter old := by
  -- the method that made the step, and what it had before
  have hown : ∀ (other : ℕ) (new : Option Task),
      after.tasks = Function.update channel.tasks other new →
      (∀ found, new = some found → (∃ frame : Frame, frame.Idle ∧ found = ⟨frame, none⟩) ∨
        ∃ old, channel.tasks other = some old ∧ found.Lighter old) →
      (∃ frame : Frame, frame.Idle ∧ state = ⟨frame, none⟩) ∨
        ∃ old, channel.tasks task = some old ∧ state.Lighter old := by
    intro other new hafter hnew
    rcases Channel.eq_some_of_update hafter hstate with ⟨rfl, hset⟩ | ⟨-, hold⟩
    · exact hnew state hset
    · exact Or.inr ⟨state, hold, ⟨fun _ hentry ↦ hentry, fun _ hjob ↦ hjob⟩⟩
  have hreply : ∀ {frame : Frame} {reply : Reply} (earlier : Option Reply),
      (∀ outcome, reply ≠ .returned outcome) → reply ≠ .published →
      Task.Lighter ⟨frame, some reply⟩ ⟨frame, earlier⟩ := by
    intro frame reply earlier hreturned hpublished
    have hnone := Task.lighter_of_none frame earlier
    refine ⟨fun entry hentry ↦ hnone.pending entry ?_, fun jobId hjob ↦ hnone.marking jobId ?_⟩
    · rwa [← Task.pending_of_reply (Or.inr hreturned)]
    · rwa [← Task.marking_of_reply hpublished]
  rcases Channel.step_cases hstep with ⟨body, rfl, rfl⟩ | ⟨other, call, time, rfl, hfree, rfl⟩ |
    ⟨other, reply, frame, earlier, rfl, hother, -, -, rfl⟩ |
    ⟨other, frame, message, rfl, hother, -, rfl⟩ |
    ⟨other, time, frame, reply, rfl, hother, rfl⟩
  · exact Or.inr ⟨state, hstate, ⟨fun _ hentry ↦ hentry, fun _ hjob ↦ hjob⟩⟩
  · refine hown other _ rfl fun found hfound ↦ ?_
    obtain ⟨next, hnext, rfl⟩ := Next.task_eq_some hfound
    exact Or.inl ⟨next, Consumer.start_next hnext, rfl⟩
  · refine hown other _ rfl fun found hfound ↦ ?_
    obtain rfl := Option.some.inj hfound
    obtain ⟨hreturned, hpublished⟩ := hquiet other reply rfl
    exact Or.inr ⟨_, hother, hreply earlier hreturned hpublished⟩
  · refine hown other _ rfl fun found hfound ↦ ?_
    obtain rfl := Option.some.inj hfound
    exact Or.inr ⟨_, hother, hreply none (by simp) (by simp)⟩
  · refine hown other _ rfl fun found hfound ↦ ?_
    obtain ⟨next, hnext, rfl⟩ := Next.task_eq_some hfound
    exact Or.inr ⟨_, hother, Consumer.resume_lighter hnext⟩

end Abacus.RabbitMQ
