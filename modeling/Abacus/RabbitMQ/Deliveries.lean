import Abacus.RabbitMQ.Slots

/-!
# Doomed deliveries

A delivery that will be settled without another claim is `Doomed`: it is in `_held`, a method is
settling it, or the claim of its job has returned. `Channel.WellKept.step` says what a step of a
channel does to its deliveries: it dooms one only when the claim of its job returns, and it takes
only doomed ones off the channel.
-/

set_option autoImplicit false
set_option relaxedAutoImplicit false

namespace Abacus.RabbitMQ

/-! ### What dooms a delivery -/

/-- The delivery that a method will settle without another claim: it is settling it, or its claim
has returned. -/
def Task.doomed (task : Task) : Option Message :=
  match task.frame, task.reply with
  | .reserveClaim message _ _ _ _, some (.returned _) => some message
  | .reserveClaim _ _ _ _ _, _ => none
  | frame, _ => frame.message

/-- A delivery that will be settled without another claim. -/
def Channel.Doomed (channel : Channel) (message : Message) : Prop :=
  (∃ jobId leaseId, channel.consumer.held jobId = some (leaseId, message)) ∨
    ∃ task state, channel.tasks task = some state ∧ state.doomed = some message

/-- A delivery in a local variable: one that `reserve` is about to claim is known and names the job,
one that is being settled is doomed. -/
def Frame.Within (known doomed : Message → Prop) : Frame → Prop
  | .reserveClaim message jobId _ _ _ => known message ∧ message.body = some jobId
  | frame => ∀ message, frame.message = some message → doomed message

/-- A place in the code with no delivery. -/
theorem Frame.within_none {known doomed : Message → Prop} {frame : Frame}
    (h : frame.message = none) : frame.Within known doomed := by
  cases frame with
  | reserveClaim message => exact absurd h (by simp [Frame.message])
  | _ =>
    intro message hmessage
    rw [h] at hmessage
    exact absurd hmessage (by simp)

/-- The deliveries in `_incoming` are known and those in `_held` doomed. -/
structure Consumer.Within (known doomed : Message → Prop) (consumer : Consumer) : Prop where
  incoming : ∀ message ∈ consumer.incoming, known message
  held : ∀ jobId leaseId message, consumer.held jobId = some (leaseId, message) → doomed message

/-- A stretch of code that takes a delivery from nowhere else. -/
structure Stays (known doomed : Message → Prop) (result : Consumer × Next) : Prop where
  consumer : result.1.Within known doomed
  next : ∀ frame, result.2 = .suspend frame → frame.Within known doomed

namespace Consumer.Within

variable {known doomed : Message → Prop} {consumer : Consumer}

open RabbitMQ.Frame (within_none)

theorem suspend (h : consumer.Within known doomed) {frame : Frame}
    (hframe : frame.Within known doomed) : Stays known doomed (consumer, .suspend frame) := by
  refine ⟨h, ?_⟩
  rintro found hfound
  rwa [← Next.suspend.inj hfound]

theorem finish (h : consumer.Within known doomed) (result : Result) :
    Stays known doomed (consumer, .finish result) :=
  ⟨h, by simp⟩

theorem release (h : consumer.Within known doomed) {jobId : Uuid} {leaseId : Option Uuid} :
    (consumer.release jobId leaseId).1.Within known doomed ∧
      ∀ message, (consumer.release jobId leaseId).2 = some message → doomed message := by
  unfold Consumer.release
  split
  · exact ⟨h, by simp⟩
  · rename_i heldLease found hheld
    split
    · exact ⟨h, by simp⟩
    · refine ⟨⟨h.incoming, fun other otherLease message hother ↦ ?_⟩, fun message hmessage ↦ ?_⟩
      · by_cases hjob : other = jobId
        · subst hjob
          simp at hother
        · simp only [Function.update_of_ne hjob] at hother
          exact h.held other otherLease message hother
      · rw [← Option.some.inj hmessage]
        exact h.held jobId heldLease found hheld

theorem releaseThen (h : consumer.Within known doomed) {jobId : Uuid} {leaseId : Option Uuid}
    {settle : Message → Frame} {rest : Consumer → Consumer × Next}
    (hsettle : ∀ message, doomed message → (settle message).Within known doomed)
    (hrest : ∀ consumer : Consumer, consumer.Within known doomed →
      Stays known doomed (rest consumer)) :
    Stays known doomed (consumer.releaseThen jobId leaseId settle rest) := by
  unfold Consumer.releaseThen
  have hreleased : (consumer.release jobId leaseId).1.Within known doomed ∧
      ∀ message, (consumer.release jobId leaseId).2 = some message → doomed message := h.release
  obtain ⟨hafter, hdoomed⟩ := hreleased
  generalize consumer.release jobId leaseId = released at hafter hdoomed
  obtain ⟨after, settled⟩ := released
  cases settled with
  | some message => exact hafter.suspend (hsettle message (hdoomed message rfl))
  | none => exact hrest after hafter

theorem received (h : consumer.Within known doomed) {message : Message} {deadline : Instant}
    {owner : String} {lease : Duration} (hknown : known message) :
    Stays known doomed (consumer.received message deadline owner lease) := by
  unfold Consumer.received
  split
  · rename_i jobId hjob
    exact h.suspend ⟨hknown, hjob⟩
  · exact h.finish _

theorem nextDelivery (h : consumer.Within known doomed) {time deadline : Instant} {owner : String}
    {lease : Duration} : Stays known doomed (consumer.nextDelivery time deadline owner lease) := by
  unfold Consumer.nextDelivery
  split
  · rename_i message incoming hincoming
    have hrest : ({ consumer with incoming := incoming } : Consumer).Within known doomed :=
      ⟨fun found hfound ↦ h.incoming found (by simp [hincoming, hfound]), h.held⟩
    exact hrest.received (h.incoming message (by simp [hincoming]))
  · split
    · exact h.finish _
    · exact h.suspend (within_none rfl)

theorem reoffer (h : consumer.Within known doomed) {job : Job} {retryIn : Option Duration} :
    Stays known doomed (consumer.reoffer job retryIn) := by
  unfold Consumer.reoffer
  split
  · exact h.suspend (within_none rfl)
  · exact h.finish _

/-- A place in the code that settles a delivery has it alone. -/
theorem within_settle {frame : Frame} {message : Message}
    (hframe : ∀ message jobId deadline owner lease,
      frame ≠ .reserveClaim message jobId deadline owner lease)
    (hmessage : frame.message = some message) (hdoomed : doomed message) :
    frame.Within known doomed := by
  cases frame with
  | reserveClaim message jobId deadline owner lease => exact absurd rfl (hframe _ _ _ _ _)
  | _ =>
    intro found hfound
    rw [hmessage, Option.some.injEq] at hfound
    rwa [← hfound]

theorem retireLoop (h : consumer.Within known doomed) {time : Instant} {ids : List Uuid} :
    Stays known doomed (consumer.retireLoop time ids) := by
  induction ids generalizing consumer with
  | nil => exact h.suspend (within_none rfl)
  | cons jobId rest ih =>
    have hstays : Stays known doomed (consumer.releaseThen jobId none
        (fun message ↦ .sweepRetireSettle message rest) fun consumer ↦
          consumer.retireLoop time rest) :=
      h.releaseThen (fun _ hdoomed ↦ within_settle (by simp) rfl hdoomed) fun _ ↦ ih
    exact hstays

theorem lapsedLoop (h : consumer.Within known doomed) {config : Config} {now : Instant}
    {ids : List Uuid} : Stays known doomed (consumer.lapsedLoop config now ids) := by
  induction ids generalizing consumer with
  | nil => exact h.suspend (within_none rfl)
  | cons jobId rest ih =>
    have hstays : Stays known doomed (consumer.releaseThen jobId none
        (fun message ↦ .sweepLapsedSettle message jobId rest now) fun consumer ↦
          consumer.offer config now jobId rest) := by
      refine h.releaseThen (fun _ hdoomed ↦ within_settle (by simp) rfl hdoomed)
        fun after hafter ↦ ?_
      unfold Consumer.offer
      split
      · exact ih hafter
      · exact hafter.suspend (within_none rfl)
    exact hstays

theorem offer (h : consumer.Within known doomed) {config : Config} {now : Instant} {jobId : Uuid}
    {rest : List Uuid} : Stays known doomed (consumer.offer config now jobId rest) := by
  unfold Consumer.offer
  split
  · exact h.lapsedLoop
  · exact h.suspend (within_none rfl)

theorem orphanLoop (h : consumer.Within known doomed) {config : Config} {now : Instant}
    {ids : List Uuid} : Stays known doomed (consumer.orphanLoop config now ids) := by
  cases ids with
  | nil => exact ⟨⟨h.incoming, h.held⟩, by simp [Consumer.orphanLoop]⟩
  | cons jobId rest => exact h.suspend (within_none rfl)

theorem start (h : consumer.Within known doomed) {time : Instant} {call : Call} :
    Stays known doomed (consumer.start time call) := by
  cases call with
  | reserve owner lease waitFor => exact h.nextDelivery
  | discard lease =>
    exact h.releaseThen (fun _ hdoomed ↦ within_settle (by simp) rfl hdoomed) fun _ hafter ↦
      hafter.finish _
  | _ => exact h.suspend (within_none rfl)

/-- A method takes no delivery from nowhere between one `await` and the next. -/
theorem resume (h : consumer.Within known doomed) {config : Config} {time : Instant}
    {frame : Frame} {reply : Reply} (hframe : frame.Within known doomed)
    (hclaimed : ∀ message jobId deadline owner lease outcome,
      frame = .reserveClaim message jobId deadline owner lease → reply = .returned outcome →
      doomed message) :
    Stays known doomed (consumer.resume config time frame reply) := by
  have hsettle : ∀ settle : Message → Frame, (∀ message, (settle message).message = some message) →
      (∀ found message jobId deadline owner lease,
        settle found ≠ .reserveClaim message jobId deadline owner lease) →
      ∀ message, doomed message → (settle message).Within known doomed :=
    fun settle hmessage hne message hdoomed ↦ within_settle (hne message) (hmessage message) hdoomed
  unfold Consumer.resume
  split
  all_goals first
    | exact h.finish _
    | exact h.suspend hframe
    | exact h.suspend (within_none rfl)
    | exact h.nextDelivery
    | exact h.releaseThen (hsettle _ (fun _ ↦ rfl) (by simp)) fun _ hafter ↦ hafter.finish _
    | exact h.releaseThen (hsettle _ (fun _ ↦ rfl) (by simp)) fun _ hafter ↦ hafter.reoffer
    | exact h.reoffer
    | exact h.retireLoop
    | exact h.lapsedLoop
    | exact h.offer
    | exact h.orphanLoop
    | skip
  · split
    · exact h.suspend (within_none rfl)
    · exact h.finish _
  · split
    · rename_i message incoming hincoming
      have hrest : ({ consumer with incoming := incoming } : Consumer).Within known doomed :=
        ⟨fun found hfound ↦ h.incoming found (by simp [hincoming, hfound]), h.held⟩
      exact hrest.received (h.incoming message (by simp [hincoming]))
    · exact h.suspend (within_none rfl)
  · -- the claim succeeded: the delivery is in `_held` now
    rename_i message jobId deadline owner lease granted
    refine ⟨⟨h.incoming, fun other otherLease found hfound ↦ ?_⟩, by simp⟩
    by_cases hjob : other = jobId
    · subst hjob
      simp only [Function.update_self, Option.some.injEq, Prod.mk.injEq] at hfound
      rw [← hfound.2]
      exact hclaimed message other deadline owner lease _ rfl rfl
    · simp only [Function.update_of_ne hjob] at hfound
      exact h.held other otherLease found hfound
  · -- the claim was refused: the delivery is settled
    rename_i message jobId deadline owner lease
    have hdoomed := hclaimed message jobId deadline owner lease _ rfl rfl
    exact h.suspend (within_settle (by simp) rfl hdoomed)
  · rename_i jobId rest now
    have hnoted : ({ consumer with
        republished := Function.update consumer.republished jobId (some now) } :
          Consumer).Within known doomed := ⟨h.incoming, h.held⟩
    exact hnoted.lapsedLoop

end Consumer.Within

/-! ### What a step of a channel does to its deliveries -/

/-- Every delivery that the object or a method has was handed over, and `reserve` claims the job
that its delivery names. -/
structure Channel.WellKept (channel : Channel) : Prop where
  incoming : ∀ message ∈ channel.consumer.incoming, message.tag < channel.nextTag
  held : ∀ jobId leaseId message, channel.consumer.held jobId = some (leaseId, message) →
    message.tag < channel.nextTag
  frames : ∀ task state, channel.tasks task = some state →
    state.frame.Within (fun message ↦ message.tag < channel.nextTag)
      fun message ↦ message.tag < channel.nextTag

/-- A frame that has a doomed delivery, when its deliveries are all doomed. -/
theorem Frame.Within.of_doomed {known doomed doomed' : Message → Prop} {frame : Frame}
    (h : frame.Within known doomed)
    (hframe : (∀ message jobId deadline owner lease,
      frame ≠ .reserveClaim message jobId deadline owner lease) →
        ∀ message, frame.message = some message → doomed message → doomed' message) :
    frame.Within known doomed' := by
  cases frame with
  | reserveClaim message => exact h
  | _ => exact fun message hmessage ↦ hframe (by simp) message hmessage (h message hmessage)

/-- A method that awaits the settling of a delivery has it in hand, and is not claiming its job. -/
theorem Frame.message_of_settle {config : Config} {frame : Frame} {message : Message}
    (h : frame.request config = .settle message) : frame.message = some message ∧
      ∀ found jobId deadline owner lease,
        frame ≠ .reserveClaim found jobId deadline owner lease := by
  cases frame with
  | reserveSettle found => exact ⟨congrArg some (Request.settle.inj h), by simp⟩
  | ackSettle found => exact ⟨congrArg some (Request.settle.inj h), by simp⟩
  | nackSettle found => exact ⟨congrArg some (Request.settle.inj h), by simp⟩
  | discardSettle found => exact ⟨congrArg some (Request.settle.inj h), by simp⟩
  | sweepRetireSettle found => exact ⟨congrArg some (Request.settle.inj h), by simp⟩
  | sweepLapsedSettle found => exact ⟨congrArg some (Request.settle.inj h), by simp⟩
  | _ => exact absurd h (by simp [Frame.request])

theorem Task.doomed_of_settling {task : Task} {message : Message}
    (hframe : ∀ message jobId deadline owner lease,
      task.frame ≠ .reserveClaim message jobId deadline owner lease)
    (hmessage : task.frame.message = some message) : task.doomed = some message := by
  obtain ⟨frame, reply⟩ := task
  cases frame with
  | reserveClaim message jobId deadline owner lease => exact absurd rfl (hframe _ _ _ _ _)
  | _ => exact hmessage

theorem Task.message_of_doomed {task : Task} {message : Message}
    (h : task.doomed = some message) : task.frame.message = some message := by
  obtain ⟨frame, reply⟩ := task
  cases frame with
  | reserveClaim found jobId deadline owner lease =>
    match reply, h with
    | some (.returned _), h => exact h
  | _ => exact h

theorem Channel.mem_unacked_of_deliver {config : Config} {channel after : Channel}
    {body : Option Uuid} (h : channel.step config (.deliver body) = some after) :
    ⟨channel.nextTag, body⟩ ∈ after.unacked := by
  simp only [Channel.step] at h
  split at h
  · rw [← Option.some.inj h]
    exact List.mem_append_right _ (List.mem_singleton.mpr rfl)
  · exact absurd h (by simp)

namespace Channel.WellKept

variable {channel : Channel}

theorem new : Channel.new.WellKept :=
  ⟨by simp [Channel.new, Consumer.new], by simp [Channel.new, Consumer.new],
    by simp [Channel.new]⟩

theorem within (h : channel.WellKept) : channel.consumer.Within
    (fun message ↦ message.tag < channel.nextTag)
    fun message ↦ channel.Doomed message ∧ message.tag < channel.nextTag :=
  ⟨h.incoming, fun jobId leaseId message hheld ↦
    ⟨Or.inl ⟨jobId, leaseId, hheld⟩, h.held jobId leaseId message hheld⟩⟩

theorem frame_within (h : channel.WellKept) {task : ℕ} {state : Task}
    (htask : channel.tasks task = some state) : state.frame.Within
    (fun message ↦ message.tag < channel.nextTag)
    fun message ↦ channel.Doomed message ∧ message.tag < channel.nextTag :=
  (h.frames task state htask).of_doomed fun hframe _ hmessage htag ↦
    ⟨Or.inr ⟨task, state, htask, Task.doomed_of_settling hframe hmessage⟩, htag⟩

/-- A doomed delivery was handed over. -/
theorem tag_lt (h : channel.WellKept) {message : Message} (hdoomed : channel.Doomed message) :
    message.tag < channel.nextTag := by
  rcases hdoomed with ⟨jobId, leaseId, hheld⟩ | ⟨task, ⟨frame, reply⟩, htask, hdoomed⟩
  · exact h.held jobId leaseId message hheld
  · have hframe := h.frames task _ htask
    cases frame with
    | reserveClaim found jobId deadline owner lease =>
      obtain rfl : found = message := Option.some.inj (Task.message_of_doomed hdoomed)
      exact hframe.1
    | _ => exact hframe message hdoomed

/-- A method that runs to its next `await` dooms no delivery that was not doomed. -/
theorem proceed (h : channel.WellKept) {task : ℕ} {result : Consumer × Next}
    (hstays : Stays (fun message ↦ message.tag < channel.nextTag)
      (fun message ↦ channel.Doomed message ∧ message.tag < channel.nextTag) result) :
    (channel.proceed task result).WellKept ∧
      ∀ message, (channel.proceed task result).Doomed message → channel.Doomed message := by
  have htask : ∀ other state, (channel.proceed task result).tasks other = some state →
      channel.tasks other = some state ∨ result.2 = .suspend state.frame ∧ state.reply = none := by
    intro other state hstate
    rcases Channel.proceed_eq_some hstate with ⟨-, frame, hnext, rfl⟩ | ⟨-, hold⟩
    · exact Or.inr ⟨hnext, rfl⟩
    · exact Or.inl hold
  refine ⟨⟨hstays.consumer.incoming, ?_, ?_⟩, ?_⟩
  · exact fun jobId leaseId message hheld ↦ (hstays.consumer.held jobId leaseId message hheld).2
  · intro other state hstate
    rcases htask other state hstate with hold | ⟨hnext, -⟩
    · exact h.frames other state hold
    · exact (hstays.next state.frame hnext).of_doomed fun _ _ _ hdoomed ↦ hdoomed.2
  · rintro message (⟨jobId, leaseId, hheld⟩ | ⟨other, state, hstate, hdoomed⟩)
    · exact (hstays.consumer.held jobId leaseId message hheld).1
    · rcases htask other state hstate with hold | ⟨hnext, hreply⟩
      · exact Or.inr ⟨other, state, hold, hdoomed⟩
      · have hwithin := hstays.next state.frame hnext
        obtain ⟨frame, reply⟩ := state
        dsimp only at hreply hwithin
        subst hreply
        cases frame with
        | reserveClaim message => simp [Task.doomed] at hdoomed
        | _ => exact (hwithin message hdoomed).1

/-- A method that gets a reply dooms the delivery it has in hand if its claim returned, and no
other. -/
theorem answer (h : channel.WellKept) {task : ℕ} {frame : Frame} {earlier : Option Reply}
    {reply : Reply} (htask : channel.tasks task = some ⟨frame, earlier⟩) :
    (channel.setTask task (some ⟨frame, some reply⟩)).WellKept ∧
    ∀ message, (channel.setTask task (some ⟨frame, some reply⟩)).Doomed message →
      channel.Doomed message ∨ ∃ outcome jobId deadline owner lease,
        reply = .returned outcome ∧ frame = .reserveClaim message jobId deadline owner lease := by
  refine ⟨⟨h.incoming, h.held, ?_⟩, ?_⟩
  · intro other state hstate
    rcases Channel.setTask_eq_some hstate with ⟨-, heq⟩ | ⟨-, hold⟩
    · obtain rfl := Option.some.inj heq
      exact h.frames task ⟨frame, earlier⟩ htask
    · exact h.frames other state hold
  · rintro message (⟨jobId, leaseId, hheld⟩ | ⟨other, state, hstate, hdoomed⟩)
    · exact Or.inl (Or.inl ⟨jobId, leaseId, hheld⟩)
    · rcases Channel.setTask_eq_some hstate with ⟨-, heq⟩ | ⟨-, hold⟩
      · rw [← Option.some.inj heq] at hdoomed
        cases frame with
        | reserveClaim found jobId deadline owner lease =>
          cases reply with
          | returned outcome =>
            obtain rfl : found = message := Option.some.inj hdoomed
            exact Or.inr ⟨outcome, jobId, deadline, owner, lease, rfl, rfl⟩
          | _ => exact absurd hdoomed (by simp [Task.doomed])
        | _ => exact Or.inl (Or.inr ⟨task, _, htask, hdoomed⟩)
      · exact Or.inl (Or.inr ⟨other, state, hold, hdoomed⟩)

/-- A step of a channel keeps it well kept. It dooms a delivery that was not doomed only when the
claim of its job returns, and it takes from the channel only doomed ones. -/
theorem step (h : channel.WellKept) {config : Config} {action : Action} {after : Channel}
    (hstep : channel.step config action = some after) :
    after.WellKept ∧
    (∀ message, after.Doomed message → channel.Doomed message ∨
      ∃ task outcome jobId deadline owner lease earlier,
        action = .answer task (.returned outcome) ∧
        channel.tasks task = some ⟨.reserveClaim message jobId deadline owner lease, earlier⟩) ∧
    ∀ message ∈ channel.unacked, ¬ channel.Doomed message → message ∈ after.unacked := by
  rcases Channel.step_cases hstep with ⟨body, rfl, rfl⟩ | ⟨task, call, time, rfl, hfree, rfl⟩ |
    ⟨task, reply, frame, earlier, rfl, htask, -, -, rfl⟩ |
    ⟨task, frame, message, rfl, htask, hrequest, rfl⟩ | ⟨task, time, frame, reply, rfl, htask, rfl⟩
  · refine ⟨⟨fun message hmessage ↦ ?_, ?_, ?_⟩, fun message hdoomed ↦ Or.inl hdoomed,
      fun message hmessage _ ↦ List.mem_append_left _ hmessage⟩
    · rcases List.mem_append.mp hmessage with hold | hnew
      · exact Nat.lt_succ_of_lt (h.incoming message hold)
      · rw [List.mem_singleton.mp hnew]
        exact Nat.lt_succ_self channel.nextTag
    · exact fun jobId leaseId message hheld ↦ Nat.lt_succ_of_lt (h.held jobId leaseId message hheld)
    · intro task state hstate
      have hframe := h.frames task state hstate
      cases hcase : state.frame with
      | reserveClaim message =>
        rw [hcase] at hframe
        exact ⟨Nat.lt_succ_of_lt hframe.1, hframe.2⟩
      | _ =>
        rw [hcase] at hframe
        exact fun message hmessage ↦ Nat.lt_succ_of_lt (hframe message hmessage)
  · have hproceed : (channel.proceed task (channel.consumer.start time call)).WellKept ∧ _ :=
      h.proceed h.within.start
    exact ⟨hproceed.1, fun message hdoomed ↦ Or.inl (hproceed.2 message hdoomed),
      fun _ hmessage _ ↦ hmessage⟩
  · have hanswer : (channel.setTask task (some ⟨frame, some reply⟩)).WellKept ∧ _ :=
      h.answer htask
    refine ⟨hanswer.1, fun message hdoomed ↦ ?_, fun _ hmessage _ ↦ hmessage⟩
    rcases hanswer.2 message hdoomed with hold | ⟨outcome, jobId, deadline, owner, lease, rfl, rfl⟩
    · exact Or.inl hold
    · exact Or.inr ⟨task, outcome, jobId, deadline, owner, lease, earlier, rfl, htask⟩
  · have hsettling := Frame.message_of_settle hrequest
    have hkept : ({ channel with unacked := channel.unacked.erase message } : Channel).WellKept :=
      ⟨h.incoming, h.held, h.frames⟩
    have hanswer : (({ channel with unacked := channel.unacked.erase message } : Channel).setTask
        task (some ⟨frame, some .settled⟩)).WellKept ∧ _ := hkept.answer htask
    refine ⟨hanswer.1, fun found hdoomed ↦ ?_, fun found hfound hlive ↦ ?_⟩
    · rcases hanswer.2 found hdoomed with hold | ⟨outcome, jobId, deadline, owner, lease, hreply, -⟩
      · exact Or.inl hold
      · exact absurd hreply (by simp)
    · have hne : found ≠ message := by
        rintro rfl
        exact hlive (Or.inr ⟨task, _, htask, Task.doomed_of_settling hsettling.2 hsettling.1⟩)
      exact (List.mem_erase_of_ne hne).mpr hfound
  · have hclaimed : ∀ message jobId deadline owner lease outcome,
        frame = .reserveClaim message jobId deadline owner lease → reply = .returned outcome →
        channel.Doomed message ∧ message.tag < channel.nextTag := by
      rintro message jobId deadline owner lease outcome rfl rfl
      exact ⟨Or.inr ⟨task, _, htask, rfl⟩, (h.frames task _ htask).1⟩
    have hproceed : (channel.proceed task
        (channel.consumer.resume config time frame reply)).WellKept ∧ _ :=
      h.proceed (h.within.resume (h.frame_within htask) hclaimed)
    exact ⟨hproceed.1, fun message hdoomed ↦ Or.inl (hproceed.2 message hdoomed),
      fun _ hmessage _ ↦ hmessage⟩

end Channel.WellKept

end Abacus.RabbitMQ
