import Abacus.RabbitMQ.JobQueue

/-!
# Prefetch slots

A delivery that the broker has handed over and that has not been acked takes up one of the
channel's prefetch slots. It moves from `_incoming` to a local variable of `reserve`, from there to
`_held` or to `_settle`, and from `_held` to `_settle` (`Accounted`). What one stretch of code keeps
is `Consumer.start_keeps` and `Consumer.resume_keeps`.

Two steps of `reserve` lose a delivery: a claim that raises, which drops the local variable, and a
claim that succeeds for a job that `_held` has an entry for, which overwrites it. Without them, and
with bodies that name jobs, `slots_accounted` says that every such delivery is in `_incoming` or in
`_held` whenever no method is in progress.
-/

set_option autoImplicit false
set_option relaxedAutoImplicit false

namespace Abacus.RabbitMQ

open Postgres (Outcome)

/-- A run of a channel whose steps all meet a condition on the step and the state before it. -/
inductive Channel.Run (config : Config) (allowed : Channel → Action → Prop) : Channel → Prop
  | new : Channel.Run config allowed .new
  | step {channel after : Channel} (before : Channel.Run config allowed channel) (action : Action)
      (hallowed : allowed channel action) (hstep : channel.step config action = some after) :
    Channel.Run config allowed after

/-! ### Where a delivery is -/

/-- The delivery a suspended method has in a local variable. -/
def Frame.message : Frame → Option Message
  | .reserveClaim message _ _ _ _ => some message
  | .reserveSettle message _ _ _ => some message
  | .ackSettle message _ => some message
  | .nackSettle message _ _ => some message
  | .discardSettle message => some message
  | .sweepRetireSettle message _ => some message
  | .sweepLapsedSettle message _ _ _ => some message
  | _ => none

/-- A method with a delivery in a local variable is settling it, or `reserve` is claiming its
job. -/
theorem Frame.message_eq_some {frame : Frame} {message : Message} (config : Config)
    (h : frame.message = some message) : frame.request config = .settle message ∨
      ∃ jobId deadline owner lease, frame = .reserveClaim message jobId deadline owner lease := by
  cases frame with
  | reserveClaim found jobId deadline owner lease =>
    obtain rfl : found = message := Option.some.inj h
    exact Or.inr ⟨jobId, deadline, owner, lease, rfl⟩
  | reserveSettle found => exact Or.inl (congrArg Request.settle (Option.some.inj h))
  | ackSettle found => exact Or.inl (congrArg Request.settle (Option.some.inj h))
  | nackSettle found => exact Or.inl (congrArg Request.settle (Option.some.inj h))
  | discardSettle found => exact Or.inl (congrArg Request.settle (Option.some.inj h))
  | sweepRetireSettle found => exact Or.inl (congrArg Request.settle (Option.some.inj h))
  | sweepLapsedSettle found => exact Or.inl (congrArg Request.settle (Option.some.inj h))
  | _ => exact absurd h (by simp [Frame.message])

/-- The delivery a method goes on with. -/
def Next.message : Next → Option Message
  | .suspend frame => frame.message
  | .finish _ => none

/-- A delivery the object can reach: in `_incoming` or in `_held`. -/
def Consumer.Holds (consumer : Consumer) (message : Message) : Prop :=
  message ∈ consumer.incoming ∨ ∃ jobId leaseId, consumer.held jobId = some (leaseId, message)

/-- A suspended `reserve` is claiming the job that its delivery names. -/
def Frame.Claims : Frame → Prop
  | .reserveClaim message jobId _ _ _ => message.body = some jobId
  | _ => True

/-- The bodies in `_incoming` name jobs, and `_held` has each delivery under the job it names. -/
structure Consumer.Tidy (consumer : Consumer) : Prop where
  bodies : ∀ message ∈ consumer.incoming, message.body ≠ none
  named : ∀ jobId leaseId message, consumer.held jobId = some (leaseId, message) →
    message.body = some jobId

/-- What a stretch of code keeps. It loses no delivery: one the object held it still holds, or the
method has it in hand at the next `await`. -/
structure Keeps (consumer : Consumer) (result : Consumer × Next) : Prop where
  tidy : result.1.Tidy
  claims : ∀ frame, result.2 = .suspend frame → frame.Claims
  holds : ∀ message, consumer.Holds message →
    result.1.Holds message ∨ result.2.message = some message

namespace Consumer

variable {consumer : Consumer}

theorem Tidy.keeps_suspend (h : consumer.Tidy) {frame : Frame} (hframe : frame.Claims) :
    Keeps consumer (consumer, .suspend frame) where
  tidy := h
  claims := by
    rintro found hfound
    rwa [← Next.suspend.inj hfound]
  holds := fun _ hheld ↦ Or.inl hheld

theorem Tidy.keeps_finish (h : consumer.Tidy) (result : Result) :
    Keeps consumer (consumer, .finish result) where
  tidy := h
  claims := by simp
  holds := fun _ hheld ↦ Or.inl hheld

/-- A release keeps every delivery but the one it gives back to be settled. -/
theorem release_keeps {jobId : Uuid} {leaseId : Option Uuid} {message : Message}
    (h : consumer.Holds message) :
    (consumer.release jobId leaseId).1.Holds message ∨
      (consumer.release jobId leaseId).2 = some message := by
  unfold release
  cases hheld : consumer.held jobId with
  | none => exact Or.inl h
  | some entry =>
    obtain ⟨heldLease, found⟩ := entry
    dsimp only
    split
    · exact Or.inl h
    · rcases h with hincoming | ⟨other, otherLease, hother⟩
      · exact Or.inl (Or.inl hincoming)
      · by_cases hjob : other = jobId
        · subst hjob
          rw [hheld, Option.some.injEq, Prod.mk.injEq] at hother
          exact Or.inr (congrArg some hother.2)
        · refine Or.inl (Or.inr ⟨other, otherLease, ?_⟩)
          rw [← hother]
          exact Function.update_of_ne hjob none consumer.held

theorem release_none {jobId : Uuid} {leaseId : Option Uuid}
    (h : (consumer.release jobId leaseId).2 = none) :
    (consumer.release jobId leaseId).1 = consumer := by
  unfold release at h ⊢
  split
  · rfl
  · rename_i heldLease message hheld
    rw [hheld] at h
    dsimp only at h ⊢
    split
    · rfl
    · rename_i hlease
      rw [if_neg hlease] at h
      exact absurd h (by simp)

theorem Tidy.release (h : consumer.Tidy) {jobId : Uuid} {leaseId : Option Uuid} :
    (consumer.release jobId leaseId).1.Tidy := by
  unfold Consumer.release
  split
  · exact h
  · split
    · exact h
    · refine ⟨h.bodies, fun other otherLease message hheld ↦ ?_⟩
      by_cases hjob : other = jobId
      · subst hjob
        simp at hheld
      · simp only [Function.update_of_ne hjob] at hheld
        exact h.named other otherLease message hheld

theorem Tidy.releaseThen_keeps (h : consumer.Tidy) {jobId : Uuid} {leaseId : Option Uuid}
    {settle : Message → Frame} {rest : Consumer → Consumer × Next}
    (hsettle : ∀ message, (settle message).message = some message ∧ (settle message).Claims)
    (hrest : Keeps consumer (rest consumer)) :
    Keeps consumer (consumer.releaseThen jobId leaseId settle rest) := by
  unfold releaseThen
  have hkept : ∀ message, consumer.Holds message →
      (consumer.release jobId leaseId).1.Holds message ∨
        (consumer.release jobId leaseId).2 = some message := fun _ ↦ release_keeps
  have hnone : (consumer.release jobId leaseId).2 = none →
      (consumer.release jobId leaseId).1 = consumer := release_none
  have htidy : (consumer.release jobId leaseId).1.Tidy := h.release
  generalize consumer.release jobId leaseId = released at hkept hnone htidy
  obtain ⟨after, settled⟩ := released
  cases settled with
  | some found =>
    refine ⟨htidy, fun frame hframe ↦ ?_, fun message hheld ↦ ?_⟩
    · rw [← Next.suspend.inj hframe]
      exact (hsettle found).2
    · rcases hkept message hheld with hstill | hfound
      · exact Or.inl hstill
      · exact Or.inr ((hsettle found).1.trans hfound)
  | none =>
    obtain rfl : after = consumer := hnone rfl
    exact hrest

theorem Tidy.received_keeps (h : consumer.Tidy) {message : Message} {deadline : Instant}
    {owner : String} {lease : Duration} {incoming : List Message}
    (hincoming : consumer.incoming = message :: incoming) :
    Keeps consumer (received { consumer with incoming := incoming } message deadline owner
      lease) := by
  have htidy : ({ consumer with incoming := incoming } : Consumer).Tidy :=
    ⟨fun found hfound ↦ h.bodies found (by simp [hincoming, hfound]), h.named⟩
  unfold received
  cases hjob : message.body with
  | none => exact absurd hjob (h.bodies message (by simp [hincoming]))
  | some jobId =>
    refine ⟨htidy, fun frame hframe ↦ ?_, fun found hfound ↦ ?_⟩
    · rw [← Next.suspend.inj hframe]
      exact hjob
    · rcases hfound with hmem | hheld
      · rw [hincoming, List.mem_cons] at hmem
        rcases hmem with rfl | hmem
        · exact Or.inr rfl
        · exact Or.inl (Or.inl hmem)
      · exact Or.inl (Or.inr hheld)

theorem Tidy.nextDelivery_keeps (h : consumer.Tidy) {time deadline : Instant} {owner : String}
    {lease : Duration} : Keeps consumer (consumer.nextDelivery time deadline owner lease) := by
  unfold nextDelivery
  split
  · rename_i message incoming hincoming
    exact h.received_keeps hincoming
  · split
    · exact h.keeps_finish _
    · exact h.keeps_suspend trivial

theorem Tidy.reoffer_keeps (h : consumer.Tidy) {job : Job} {retryIn : Option Duration} :
    Keeps consumer (consumer.reoffer job retryIn) := by
  unfold reoffer
  split
  · exact h.keeps_suspend trivial
  · exact h.keeps_finish _

theorem Tidy.retireLoop_keeps (h : consumer.Tidy) {time : Instant} {ids : List Uuid} :
    Keeps consumer (consumer.retireLoop time ids) := by
  induction ids with
  | nil => exact h.keeps_suspend trivial
  | cons jobId rest ih =>
    have hkeeps : Keeps consumer (consumer.releaseThen jobId none
        (fun message ↦ .sweepRetireSettle message rest) fun consumer ↦
          consumer.retireLoop time rest) := h.releaseThen_keeps (fun _ ↦ ⟨rfl, trivial⟩) ih
    exact hkeeps

theorem Tidy.lapsedLoop_keeps (h : consumer.Tidy) {config : Config} {now : Instant}
    {ids : List Uuid} : Keeps consumer (consumer.lapsedLoop config now ids) := by
  induction ids with
  | nil => exact h.keeps_suspend trivial
  | cons jobId rest ih =>
    have hkeeps : Keeps consumer (consumer.releaseThen jobId none
        (fun message ↦ .sweepLapsedSettle message jobId rest now) fun consumer ↦
          consumer.offer config now jobId rest) := by
      refine h.releaseThen_keeps (fun _ ↦ ⟨rfl, trivial⟩) ?_
      unfold offer
      split
      · exact ih
      · exact h.keeps_suspend trivial
    exact hkeeps

theorem Tidy.offer_keeps (h : consumer.Tidy) {config : Config} {now : Instant} {jobId : Uuid}
    {rest : List Uuid} : Keeps consumer (consumer.offer config now jobId rest) := by
  unfold offer
  split
  · exact h.lapsedLoop_keeps
  · exact h.keeps_suspend trivial

theorem Tidy.orphanLoop_keeps (h : consumer.Tidy) {config : Config} {now : Instant}
    {ids : List Uuid} : Keeps consumer (consumer.orphanLoop config now ids) := by
  cases ids with
  | nil => exact ⟨⟨h.bodies, h.named⟩, by simp [orphanLoop], fun _ hheld ↦ Or.inl hheld⟩
  | cons jobId rest => exact h.keeps_suspend trivial

/-- What a method keeps up to its first `await`. -/
theorem Tidy.start_keeps (h : consumer.Tidy) {time : Instant} {call : Call} :
    Keeps consumer (consumer.start time call) := by
  cases call with
  | reserve owner lease waitFor => exact h.nextDelivery_keeps
  | discard lease => exact h.releaseThen_keeps (fun _ ↦ ⟨rfl, trivial⟩) (h.keeps_finish _)
  | _ => exact h.keeps_suspend trivial

/-- What a method keeps from one `await` to the next, but for `reserve`, which overwrites the entry
of a job that `_held` has already. -/
theorem Tidy.resume_keeps (h : consumer.Tidy) {config : Config} {time : Instant} {frame : Frame}
    {reply : Reply} (hframe : frame.Claims)
    (hfree : ∀ message jobId deadline owner lease granted,
      frame = .reserveClaim message jobId deadline owner lease →
      reply = .returned (.claimed (some granted)) → consumer.held jobId = none) :
    Keeps consumer (consumer.resume config time frame reply) := by
  unfold resume
  split
  all_goals first
    | exact h.keeps_suspend trivial
    | exact h.keeps_finish _
    | exact h.nextDelivery_keeps
    | exact h.releaseThen_keeps (fun _ ↦ ⟨rfl, trivial⟩) (h.keeps_finish _)
    | exact h.releaseThen_keeps (fun _ ↦ ⟨rfl, trivial⟩) h.reoffer_keeps
    | exact h.reoffer_keeps
    | exact h.retireLoop_keeps
    | exact h.lapsedLoop_keeps
    | exact h.offer_keeps
    | exact h.orphanLoop_keeps
    | exact h.keeps_suspend hframe
    | skip
  · split
    · exact h.keeps_suspend trivial
    · exact h.keeps_finish _
  · split
    · rename_i message incoming hincoming
      exact h.received_keeps hincoming
    · exact h.keeps_suspend trivial
  · -- the claim succeeded: `_held` has a new entry, and the old ones as before
    rename_i message jobId deadline owner lease granted
    have hnone := hfree message jobId deadline owner lease granted rfl rfl
    refine ⟨⟨h.bodies, ?_⟩, by simp, ?_⟩
    · intro other otherLease found hfound
      by_cases hjob : other = jobId
      · subst hjob
        simp only [Function.update_self, Option.some.injEq, Prod.mk.injEq] at hfound
        rw [← hfound.2]
        exact hframe
      · simp only [Function.update_of_ne hjob] at hfound
        exact h.named other otherLease found hfound
    · rintro found (hincoming | ⟨other, otherLease, hother⟩)
      · exact Or.inl (Or.inl hincoming)
      · refine Or.inl (Or.inr ⟨other, otherLease, ?_⟩)
        have hne : other ≠ jobId := by
          rintro rfl
          rw [hnone] at hother
          exact absurd hother (by simp)
        rw [← hother]
        exact Function.update_of_ne hne _ consumer.held
  · -- the republish is noted in `_republished`, which holds no delivery
    rename_i jobId rest now
    have htidy : ({ consumer with
        republished := Function.update consumer.republished jobId (some now) } : Consumer).Tidy :=
      ⟨h.bodies, h.named⟩
    have hkeeps : Keeps _ (Consumer.lapsedLoop _ config now rest) := htidy.lapsedLoop_keeps
    exact ⟨hkeeps.tidy, hkeeps.claims, hkeeps.holds⟩

/-- A method that has a delivery in a local variable still has it, or has put it into `_held`, at
the next `await`, unless the delivery is settled or what it awaited raised. -/
theorem resume_message {config : Config} {time : Instant} {frame : Frame} {reply : Reply}
    {message : Message} (hmessage : frame.message = some message) (hsettled : reply ≠ .settled)
    (hraised : reply ≠ .raised) :
    (consumer.resume config time frame reply).1.Holds message ∨
      (consumer.resume config time frame reply).2.message = some message := by
  unfold resume
  split
  all_goals first
    | exact absurd rfl hsettled
    | exact absurd rfl hraised
    | exact Or.inr hmessage
    | (simp [Frame.message] at hmessage; done)
    | skip
  rename_i found jobId deadline owner lease granted
  obtain rfl : found = message := Option.some.inj hmessage
  exact Or.inl (Or.inr ⟨jobId, granted.id, Function.update_self jobId _ consumer.held⟩)

end Consumer

/-! ### The invariant of a channel -/

/-- The delivery a task has in a local variable and has not settled. -/
def Task.message (task : Task) : Option Message :=
  match task.reply with
  | some .settled => none
  | _ => task.frame.message

/-- Every delivery handed over and not acked is in `_incoming`, in `_held`, or in a local variable
of a method in progress. -/
structure Accounted (config : Config) (channel : Channel) : Prop where
  tags : ∀ message ∈ channel.unacked, message.tag < channel.nextTag
  distinct : channel.unacked.Nodup
  tidy : channel.consumer.Tidy
  claims : ∀ task state, channel.tasks task = some state → state.frame.Claims
  settling : ∀ task frame reply message, channel.tasks task = some ⟨frame, some reply⟩ →
    frame.request config = .settle message → reply = .settled
  placed : ∀ message ∈ channel.unacked, channel.consumer.Holds message ∨
    ∃ task state, channel.tasks task = some state ∧ state.message = some message

/-- The condition on a step: a body that arrives names a job, and when `reserve` goes on after its
claim, the claim did not raise, and if it succeeded `_held` has no entry for the job. -/
def KeepsSlots (channel : Channel) : Action → Prop
  | .deliver body => body ≠ none
  | .resume task _ => ∀ message jobId deadline owner lease reply,
    channel.tasks task = some ⟨.reserveClaim message jobId deadline owner lease, some reply⟩ →
      reply ≠ .raised ∧
      ∀ granted, reply = .returned (.claimed (some granted)) → channel.consumer.held jobId = none
  | _ => True

theorem Reply.eq_raised {reply : Reply} (h : reply.isRaised = true) : reply = .raised := by
  cases reply with
  | raised => rfl
  | _ => exact absurd h (by simp [Reply.isRaised])

theorem Next.task_eq_some {next : Next} {task : Task} (h : next.task = some task) :
    ∃ frame, next = .suspend frame ∧ task = ⟨frame, none⟩ := by
  cases next with
  | suspend frame => exact ⟨frame, rfl, (Option.some.inj h).symm⟩
  | finish result => exact absurd h (by simp [Next.task])

namespace Channel

variable {config : Config} {channel after : Channel}

@[simp] theorem setTask_tasks (task : ℕ) (state : Option Task) :
    (channel.setTask task state).tasks = Function.update channel.tasks task state :=
  rfl

@[simp] theorem setTask_consumer (task : ℕ) (state : Option Task) :
    (channel.setTask task state).consumer = channel.consumer :=
  rfl

@[simp] theorem setTask_unacked (task : ℕ) (state : Option Task) :
    (channel.setTask task state).unacked = channel.unacked :=
  rfl

@[simp] theorem setTask_nextTag (task : ℕ) (state : Option Task) :
    (channel.setTask task state).nextTag = channel.nextTag :=
  rfl

theorem setTask_of_ne {task other : ℕ} {state : Option Task} (hother : other ≠ task) :
    (channel.setTask task state).tasks other = channel.tasks other :=
  Function.update_of_ne hother _ _

/-- What a method has after a step that set one of them: it is the one, or it has what it had. -/
theorem eq_some_of_update {task other : ℕ} {state : Option Task} {found : Task}
    (htasks : after.tasks = Function.update channel.tasks task state)
    (h : after.tasks other = some found) :
    other = task ∧ state = some found ∨ other ≠ task ∧ channel.tasks other = some found := by
  rw [htasks] at h
  by_cases hother : other = task
  · rw [hother, Function.update_self] at h
    exact Or.inl ⟨hother, h⟩
  · rw [Function.update_of_ne hother] at h
    exact Or.inr ⟨hother, h⟩

theorem setTask_eq_some {task other : ℕ} {state : Option Task} {found : Task}
    (h : (channel.setTask task state).tasks other = some found) :
    other = task ∧ state = some found ∨ other ≠ task ∧ channel.tasks other = some found :=
  eq_some_of_update (setTask_tasks task state) h

/-- The same after one of them has run on: that one waits anew, if it does not end. -/
theorem proceed_eq_some {task other : ℕ} {result : Consumer × Next} {found : Task}
    (h : (channel.proceed task result).tasks other = some found) :
    (other = task ∧ ∃ frame, result.2 = .suspend frame ∧ found = ⟨frame, none⟩) ∨
      other ≠ task ∧ channel.tasks other = some found := by
  rcases setTask_eq_some h with ⟨heq, hnext⟩ | hold
  · exact Or.inl ⟨heq, Next.task_eq_some hnext⟩
  · exact Or.inr hold

/-- The steps of a channel: what each needs and what it makes of the channel. -/
theorem step_cases {action : Action} (h : channel.step config action = some after) :
    (∃ body, action = .deliver body ∧ after = { channel with
        consumer := { channel.consumer with
          incoming := channel.consumer.incoming ++ [⟨channel.nextTag, body⟩] }
        unacked := channel.unacked ++ [⟨channel.nextTag, body⟩]
        nextTag := channel.nextTag + 1 }) ∨
    (∃ task call time, action = .start task call time ∧ channel.tasks task = none ∧
      after = channel.proceed task (channel.consumer.start time call)) ∨
    (∃ task reply frame earlier, action = .answer task reply ∧
      channel.tasks task = some ⟨frame, earlier⟩ ∧
      (frame.request config).accepts reply = true ∧
      (earlier = none ∨ reply = .raised) ∧
      after = channel.setTask task (some ⟨frame, some reply⟩)) ∨
    (∃ task frame message, action = .settle task ∧ channel.tasks task = some ⟨frame, none⟩ ∧
      frame.request config = .settle message ∧
      after = { channel with unacked := channel.unacked.erase message }.setTask task
        (some ⟨frame, some .settled⟩)) ∨
    ∃ task time frame reply, action = .resume task time ∧
      channel.tasks task = some ⟨frame, some reply⟩ ∧
      after = channel.proceed task (channel.consumer.resume config time frame reply) := by
  cases action with
  | deliver body =>
    simp only [step] at h
    split at h
    · exact Or.inl ⟨body, rfl, (Option.some.inj h).symm⟩
    · exact absurd h (by simp)
  | start task call time =>
    simp only [step] at h
    split at h
    · exact absurd h (by simp)
    · rename_i hfree
      exact Or.inr (Or.inl ⟨task, call, time, rfl, hfree, (Option.some.inj h).symm⟩)
  | answer task reply =>
    simp only [step] at h
    split at h
    · rename_i frame earlier htask
      split at h
      · rename_i hguard
        simp only [Bool.and_eq_true, Bool.or_eq_true] at hguard
        refine Or.inr (Or.inr (Or.inl ⟨task, reply, frame, earlier, rfl, htask, hguard.1, ?_,
          (Option.some.inj h).symm⟩))
        rcases hguard.2 with hnone | hraised
        · exact Or.inl (Option.isNone_iff_eq_none.mp hnone)
        · exact Or.inr (Reply.eq_raised hraised)
      · exact absurd h (by simp)
    · exact absurd h (by simp)
  | settle task =>
    simp only [step] at h
    split at h
    · rename_i frame htask
      split at h
      · rename_i message hrequest
        exact Or.inr (Or.inr (Or.inr (Or.inl ⟨task, frame, message, rfl, htask, hrequest,
          (Option.some.inj h).symm⟩)))
      · exact absurd h (by simp)
    · exact absurd h (by simp)
  | resume task time =>
    simp only [step] at h
    split at h
    · rename_i frame reply htask
      exact Or.inr (Or.inr (Or.inr (Or.inr ⟨task, time, frame, reply, rfl, htask,
        (Option.some.inj h).symm⟩)))
    · exact absurd h (by simp)

end Channel

/-- A new channel has nothing to account for. -/
theorem accounted_new (config : Config) : Accounted config .new where
  tags := by simp [Channel.new]
  distinct := .nil
  tidy := ⟨by simp [Channel.new, Consumer.new], by simp [Channel.new, Consumer.new]⟩
  claims := by simp [Channel.new]
  settling := by simp [Channel.new]
  placed := by simp [Channel.new]

/-- A method that runs to its next `await` keeps the account, if it keeps the deliveries and its
own. -/
theorem Accounted.proceed {config : Config} {channel : Channel} (h : Accounted config channel)
    {task : ℕ} {result : Consumer × Next} (hkeeps : Keeps channel.consumer result)
    (hown : ∀ state message, channel.tasks task = some state → state.message = some message →
      result.1.Holds message ∨ result.2.message = some message) :
    Accounted config (channel.proceed task result) where
  tags := h.tags
  distinct := h.distinct
  tidy := hkeeps.tidy
  claims := by
    intro other state hstate
    rcases Channel.proceed_eq_some hstate with ⟨-, frame, hnext, rfl⟩ | ⟨-, hold⟩
    · exact hkeeps.claims frame hnext
    · exact h.claims other state hold
  settling := by
    intro other frame reply message hstate hrequest
    rcases Channel.proceed_eq_some hstate with ⟨-, found, -, hnew⟩ | ⟨-, hold⟩
    · exact absurd (congrArg Task.reply hnew) (by simp)
    · exact h.settling other frame reply message hold hrequest
  placed := by
    intro message hmessage
    have hresult : result.1.Holds message ∨ result.2.message = some message →
        (channel.proceed task result).consumer.Holds message ∨
          ∃ other state, (channel.proceed task result).tasks other = some state ∧
            state.message = some message := by
      rintro (hholds | hnext)
      · exact Or.inl hholds
      · cases hcase : result.2 with
        | suspend frame =>
          rw [hcase] at hnext
          refine Or.inr ⟨task, ⟨frame, none⟩, ?_, hnext⟩
          simp [Channel.proceed, hcase, Next.task]
        | finish value =>
          rw [hcase] at hnext
          exact absurd hnext (by simp [Next.message])
    rcases h.placed message hmessage with hholds | ⟨other, state, hstate, hown'⟩
    · exact hresult (hkeeps.holds message hholds)
    · by_cases hother : other = task
      · subst hother
        exact hresult (hown state message hstate hown')
      · exact Or.inr ⟨other, state, (Channel.setTask_of_ne hother).trans hstate, hown'⟩

/-- A delivery that arrives is in `_incoming`. -/
theorem Accounted.deliver {config : Config} {channel : Channel} (h : Accounted config channel)
    {body : Option Uuid} (hbody : body ≠ none) : Accounted config { channel with
      consumer := { channel.consumer with
        incoming := channel.consumer.incoming ++ [⟨channel.nextTag, body⟩] }
      unacked := channel.unacked ++ [⟨channel.nextTag, body⟩]
      nextTag := channel.nextTag + 1 } where
  tags := by
    intro message hmessage
    rcases List.mem_append.mp hmessage with hold | hnew
    · exact Nat.lt_succ_of_lt (h.tags message hold)
    · rw [List.mem_singleton.mp hnew]
      exact Nat.lt_succ_self channel.nextTag
  distinct := by
    refine List.nodup_append.mpr ⟨h.distinct, List.nodup_singleton _, ?_⟩
    rintro message hold other hnew rfl
    rw [List.mem_singleton] at hnew
    have htag := h.tags message hold
    rw [hnew] at htag
    exact Nat.lt_irrefl _ htag
  tidy := by
    refine ⟨fun message hmessage ↦ ?_, h.tidy.named⟩
    rcases List.mem_append.mp hmessage with hold | hnew
    · exact h.tidy.bodies message hold
    · rw [List.mem_singleton.mp hnew]
      exact hbody
  claims := h.claims
  settling := h.settling
  placed := by
    intro message hmessage
    rcases List.mem_append.mp hmessage with hold | hnew
    · rcases h.placed message hold with (hincoming | hheld) | htask
      · exact Or.inl (Or.inl (List.mem_append_left _ hincoming))
      · exact Or.inl (Or.inr hheld)
      · exact Or.inr htask
    · exact Or.inl (Or.inl (List.mem_append_right _ hnew))

/-- A reply to a method moves no delivery. -/
theorem Accounted.answer {config : Config} {channel : Channel} (h : Accounted config channel)
    {task : ℕ} {frame : Frame} {earlier : Option Reply} {reply : Reply}
    (htask : channel.tasks task = some ⟨frame, earlier⟩)
    (haccepts : (frame.request config).accepts reply = true) :
    Accounted config (channel.setTask task (some ⟨frame, some reply⟩)) where
  tags := h.tags
  distinct := h.distinct
  tidy := h.tidy
  claims := by
    intro other state hstate
    rcases Channel.setTask_eq_some hstate with ⟨-, heq⟩ | ⟨-, hold⟩
    · obtain rfl := Option.some.inj heq
      exact h.claims task ⟨frame, earlier⟩ htask
    · exact h.claims other state hold
  settling := by
    intro other found later message hstate hrequest
    rcases Channel.setTask_eq_some hstate with ⟨-, heq⟩ | ⟨-, hold⟩
    · obtain ⟨rfl, -⟩ := Task.mk.inj (Option.some.inj heq)
      rw [hrequest] at haccepts
      exact absurd haccepts (by simp [Request.accepts])
    · exact h.settling other found later message hold hrequest
  placed := by
    intro message hmessage
    rcases h.placed message hmessage with hholds | ⟨other, state, hstate, hown⟩
    · exact Or.inl hholds
    · by_cases hother : other = task
      · subst hother
        obtain rfl : ⟨frame, earlier⟩ = state := Option.some.inj (htask.symm.trans hstate)
        have hsettled : reply ≠ .settled := by
          rintro rfl
          cases hrequest : frame.request config <;> simp [hrequest, Request.accepts] at haccepts
        have hframe : frame.message = some message := by
          unfold Task.message at hown
          dsimp only at hown
          split at hown
          · exact absurd hown (by simp)
          · exact hown
        refine Or.inr ⟨other, ⟨frame, some reply⟩, by simp, ?_⟩
        cases reply <;> first | exact hframe | exact absurd rfl hsettled
      · exact Or.inr ⟨other, state, (Channel.setTask_of_ne hother).trans hstate, hown⟩

/-- A delivery that is settled is no longer unacked, and every other is where it was. -/
theorem Accounted.settle {config : Config} {channel : Channel} (h : Accounted config channel)
    {task : ℕ} {frame : Frame} {message : Message}
    (htask : channel.tasks task = some ⟨frame, none⟩)
    (hrequest : frame.request config = .settle message) :
    Accounted config ({ channel with unacked := channel.unacked.erase message }.setTask task
      (some ⟨frame, some .settled⟩)) where
  tags := fun found hfound ↦ h.tags found (List.mem_of_mem_erase hfound)
  distinct := h.distinct.erase message
  tidy := h.tidy
  claims := by
    intro other state hstate
    rcases Channel.setTask_eq_some hstate with ⟨-, heq⟩ | ⟨-, hold⟩
    · obtain rfl := Option.some.inj heq
      exact h.claims task ⟨frame, none⟩ htask
    · exact h.claims other state hold
  settling := by
    intro other found reply later hstate hsettle
    rcases Channel.setTask_eq_some hstate with ⟨-, heq⟩ | ⟨-, hold⟩
    · obtain ⟨-, hreply⟩ := Task.mk.inj (Option.some.inj heq)
      exact (Option.some.inj hreply).symm
    · exact h.settling other found reply later hold hsettle
  placed := by
    intro found hfound
    obtain ⟨hne, hmem⟩ := h.distinct.mem_erase_iff.mp hfound
    rcases h.placed found hmem with hholds | ⟨other, state, hstate, hown⟩
    · exact Or.inl hholds
    · refine Or.inr ⟨other, state, ?_, hown⟩
      have hother : other ≠ task := by
        rintro rfl
        obtain rfl : ⟨frame, none⟩ = state := Option.some.inj (htask.symm.trans hstate)
        rcases Frame.message_eq_some config hown with hsettle | ⟨_, _, _, _, rfl⟩
        · rw [hrequest, Request.settle.injEq] at hsettle
          exact hne hsettle.symm
        · simp [Frame.request] at hrequest
      exact (Channel.setTask_of_ne hother).trans hstate

/-- Every step that meets the condition keeps the account. -/
theorem Accounted.step {config : Config} {channel after : Channel} (h : Accounted config channel)
    {action : Action} (hallowed : KeepsSlots channel action)
    (hstep : channel.step config action = some after) : Accounted config after := by
  rcases Channel.step_cases hstep with ⟨body, rfl, rfl⟩ | ⟨task, call, time, rfl, hfree, rfl⟩ |
    ⟨task, reply, frame, earlier, rfl, htask, haccepts, -, rfl⟩ |
    ⟨task, frame, message, rfl, htask, hrequest, rfl⟩ | ⟨task, time, frame, reply, rfl, htask, rfl⟩
  · exact h.deliver hallowed
  · refine h.proceed h.tidy.start_keeps ?_
    intro state message hstate
    rw [hfree] at hstate
    exact absurd hstate (by simp)
  · exact h.answer htask haccepts
  · exact h.settle htask hrequest
  · have hreply : ∀ message jobId deadline owner lease,
        frame = .reserveClaim message jobId deadline owner lease → reply ≠ .raised ∧
          ∀ granted, reply = .returned (.claimed (some granted)) →
            channel.consumer.held jobId = none := by
      rintro message jobId deadline owner lease rfl
      exact hallowed message jobId deadline owner lease reply htask
    have hkeeps : Keeps channel.consumer (channel.consumer.resume config time frame reply) :=
      h.tidy.resume_keeps (h.claims task _ htask)
        fun message jobId deadline owner lease granted hframe hgranted ↦
          (hreply message jobId deadline owner lease hframe).2 granted hgranted
    refine h.proceed hkeeps fun state message hstate hmessage ↦ ?_
    obtain rfl : ⟨frame, some reply⟩ = state := Option.some.inj (htask.symm.trans hstate)
    have hsettled : reply ≠ .settled := by
      rintro rfl
      simp [Task.message] at hmessage
    have hown : frame.message = some message := by
      cases reply <;> first | exact hmessage | exact absurd rfl hsettled
    refine Consumer.resume_message hown hsettled ?_
    rintro rfl
    rcases Frame.message_eq_some config hown with hrequest | ⟨jobId, deadline, owner, lease, hclaim⟩
    · exact absurd (h.settling task frame .raised message htask hrequest) (by simp)
    · exact (hreply message jobId deadline owner lease hclaim).1 rfl

theorem Channel.Run.accounted {config : Config} {channel : Channel}
    (h : Channel.Run config KeepsSlots channel) : Accounted config channel := by
  induction h with
  | new => exact accounted_new config
  | step before action hallowed hstep ih => exact ih.step hallowed hstep

/-- Prefetch slots are not leaked. In every run of a channel in which each body names a job, no
claim of `reserve` raises and `reserve` records no job that `_held` already has, whenever no method
is in progress, every delivery handed over and not acked is in `_incoming` or is the one that
`_held` has under its job. -/
theorem slots_accounted {config : Config} {channel : Channel}
    (h : Channel.Run config KeepsSlots channel) (hidle : ∀ task, channel.tasks task = none) :
    ∀ message ∈ channel.unacked, message ∈ channel.consumer.incoming ∨
      ∃ jobId leaseId, message.body = some jobId ∧
        channel.consumer.held jobId = some (leaseId, message) := by
  intro message hmessage
  have haccounted := h.accounted
  rcases haccounted.placed message hmessage with (hincoming | ⟨jobId, leaseId, hheld⟩) |
    ⟨task, state, hstate, -⟩
  · exact Or.inl hincoming
  · exact Or.inr ⟨jobId, leaseId, haccounted.tidy.named jobId leaseId message hheld, hheld⟩
  · rw [hidle task] at hstate
    exact absurd hstate (by simp)

/-- A delivery that arrives, is reserved and is held: the account of the idle channel. -/
theorem slots_accounted_held :
    ∃ channel : Channel, (∀ task, channel.tasks task = none) ∧
      channel.unacked = [⟨0, some ⟨9⟩⟩] ∧
      (⟨0, some ⟨9⟩⟩ ∈ channel.consumer.incoming ∨
        ∃ jobId leaseId, (⟨0, some ⟨9⟩⟩ : Message).body = some jobId ∧
          channel.consumer.held jobId = some (leaseId, ⟨0, some ⟨9⟩⟩)) := by
  let config : Config := ⟨1, 30, 120⟩
  let job : Job := ⟨⟨9⟩, "noop", .nil, .running, 1, 3, none, "key", none, none, false⟩
  let granted : Lease := ⟨⟨21⟩, job, "worker", 10⟩
  have hdelivered := (Channel.Run.new : Channel.Run config KeepsSlots .new).step
    (.deliver (some ⟨9⟩)) (by simp [KeepsSlots]) rfl
  have hreserving := hdelivered.step (.start 0 (.reserve "worker" 10 0) 0) trivial rfl
  have hclaimed := hreserving.step (.answer 0 (.returned (.claimed (some granted)))) trivial rfl
  have hheld := hclaimed.step (.resume 0 0) (by
    intro message jobId deadline owner lease reply htask
    have hreply := Option.some.inj (congrArg Task.reply (Option.some.inj htask))
    rw [← hreply]
    exact ⟨by simp, fun _ _ ↦ rfl⟩) rfl
  have hidle : ∀ task, Function.update (Function.update (Function.update (fun _ ↦ none) 0
      (some (⟨.reserveClaim ⟨0, some ⟨9⟩⟩ ⟨9⟩ 0 "worker" 10, none⟩ : Task))) 0
      (some ⟨.reserveClaim ⟨0, some ⟨9⟩⟩ ⟨9⟩ 0 "worker" 10,
        some (.returned (.claimed (some granted)))⟩)) 0 none task = none := by
    intro task
    by_cases htask : task = 0
    · simp [htask]
    · simp [htask]
  exact ⟨_, hidle, rfl, slots_accounted hheld hidle _ (List.mem_singleton_self _)⟩

/-- The store raises in the claim of `reserve`, with one slot: the delivery is unacked and nothing
has it. -/
theorem slots_leaked : ¬ ∀ config : Config, 1 ≤ config.prefetch → ∀ channel : Channel,
    Channel.Run config (fun _ _ ↦ True) channel → (∀ task, channel.tasks task = none) →
      ∀ message ∈ channel.unacked, message ∈ channel.consumer.incoming ∨
        ∃ jobId leaseId, message.body = some jobId ∧
          channel.consumer.held jobId = some (leaseId, message) := by
  intro hclaim
  let config : Config := ⟨1, 30, 120⟩
  have hdelivered := (Channel.Run.new : Channel.Run config (fun _ _ ↦ True) .new).step
    (.deliver (some ⟨9⟩)) trivial rfl
  have hreserving := hdelivered.step (.start 0 (.reserve "worker" 10 0) 0) trivial rfl
  have hraised := hreserving.step (.answer 0 .raised) trivial rfl
  have hover := hraised.step (.resume 0 0) trivial rfl
  have hidle : ∀ task, Function.update (Function.update (Function.update (fun _ ↦ none) 0
      (some (⟨.reserveClaim ⟨0, some ⟨9⟩⟩ ⟨9⟩ 0 "worker" 10, none⟩ : Task))) 0
      (some ⟨.reserveClaim ⟨0, some ⟨9⟩⟩ ⟨9⟩ 0 "worker" 10, some .raised⟩)) 0 none task = none := by
    intro task
    by_cases htask : task = 0
    · simp [htask]
    · simp [htask]
  rcases hclaim config (Nat.le_refl 1) _ hover hidle ⟨0, some ⟨9⟩⟩ (List.mem_singleton_self _) with
    hincoming | ⟨jobId, leaseId, -, hheld⟩
  · exact absurd hincoming (List.not_mem_nil)
  · exact absurd hheld (by rintro ⟨⟩)

end Abacus.RabbitMQ
