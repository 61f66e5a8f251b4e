import Abacus.Postgres.Epoch
import Abacus.RabbitMQ.Deliveries
import Abacus.RabbitMQ.Pending

/-!
# No job is lost between the row and the wire

A job whose row is waiting and has a `published_at` must have its id on the wire. The invariant
behind it is stronger (`System.Reaches`): a message for the job is where it will come to a claim no
earlier than the row's `run_after`, because a claim that comes earlier refuses the delivery and the
message is gone. A delivery that will be settled without another claim is `Doomed` and counts for
nothing.

A method between its publish and its `mark_published` answers for what it published as long as the
job has not been claimed since its publish was decided on (`Obliged`): the attempts of the row tell.
`waiting_job_on_wire` says that this is enough: in a run in which no `mark_published` takes effect
on a waiting unpublished row that has been claimed since the publish was decided on, no job is lost.
`waiting_job_lost` is the run in which one does.
-/

set_option autoImplicit false
set_option relaxedAutoImplicit false

namespace Abacus.RabbitMQ

open Postgres (Database Operation Outcome StoreError JobRow JobStep perform jobRow onChat HasShape
  Current Announced)

/-! ### Where a message for a job can be -/

namespace System

variable {Instance : Type}

/-- A message for the job will come to a claim, and no earlier than `runAfter`. -/
def Reaches (system : System Instance) (jobId : Uuid) (runAfter : Instant) : Prop :=
  (∃ ready, (jobId, ready) ∈ system.delay ∧ runAfter ≤ ready) ∨
    runAfter ≤ system.now ∧ (jobId ∈ system.work ∨
      ∃ consumer, ∃ message ∈ (system.channels consumer).unacked,
        message.body = some jobId ∧ ¬ (system.channels consumer).Doomed message)

theorem Reaches.onWire {system : System Instance} {jobId : Uuid} {runAfter : Instant}
    (h : system.Reaches jobId runAfter) : system.OnWire jobId := by
  rcases h with ⟨ready, hmem, -⟩ | ⟨-, hwork | ⟨consumer, message, hmem, hbody, -⟩⟩
  · exact Or.inr (Or.inl ⟨ready, hmem⟩)
  · exact Or.inl hwork
  · exact Or.inr (Or.inr ⟨consumer, message, hmem, hbody⟩)

theorem Reaches.tick {system : System Instance} {jobId : Uuid} {runAfter : Instant}
    (h : system.Reaches jobId runAfter) (duration : ℕ) :
    ({ system with now := system.now + duration } : System Instance).Reaches jobId runAfter := by
  rcases h with hdelay | ⟨hnow, hplace⟩
  · exact Or.inl hdelay
  · exact Or.inr ⟨le_trans hnow (le_add_of_nonneg_right (Int.natCast_nonneg duration)), hplace⟩

theorem Reaches.put {system : System Instance} {jobId other : Uuid} {runAfter : Instant}
    (h : system.Reaches jobId runAfter) (delay : Option Duration) :
    (system.put other delay).Reaches jobId runAfter := by
  unfold System.put
  rcases h with ⟨ready, hmem, hready⟩ | ⟨hnow, hwork | hdelivery⟩
  · split
    · exact Or.inl ⟨ready, List.mem_append_left _ hmem, hready⟩
    · exact Or.inl ⟨ready, hmem, hready⟩
  · split
    · exact Or.inr ⟨hnow, Or.inl hwork⟩
    · exact Or.inr ⟨hnow, Or.inl (List.mem_append_left _ hwork)⟩
  · split
    · exact Or.inr ⟨hnow, Or.inr hdelivery⟩
    · exact Or.inr ⟨hnow, Or.inr hdelivery⟩

@[simp] theorem put_now (system : System Instance) (jobId : Uuid) (delay : Option Duration) :
    (system.put jobId delay).now = system.now := by
  unfold System.put
  split <;> rfl

@[simp] theorem put_database (system : System Instance) (jobId : Uuid) (delay : Option Duration) :
    (system.put jobId delay).database = system.database := by
  unfold System.put
  split <;> rfl

@[simp] theorem put_channels (system : System Instance) (jobId : Uuid) (delay : Option Duration) :
    (system.put jobId delay).channels = system.channels := by
  unfold System.put
  split <;> rfl

@[simp] theorem put_cause (system : System Instance) (jobId : Uuid) (delay : Option Duration) :
    (system.put jobId delay).cause = system.cause := by
  unfold System.put
  split <;> rfl

/-- A publish puts a message for its job where it does not come to a claim before its delay. -/
theorem reaches_put {system : System Instance} {jobId : Uuid} {delay : Option Duration}
    {runAfter : Instant} (h : runAfter ≤ system.now + (parked delay).getD 0) :
    (system.put jobId delay).Reaches jobId runAfter := by
  unfold System.put
  split
  · rename_i duration hparked
    rw [hparked] at h
    exact Or.inl ⟨_, List.mem_append_right _ (List.mem_singleton.mpr rfl), h⟩
  · rename_i hparked
    rw [hparked, Option.getD_none, add_zero] at h
    exact Or.inr ⟨h, Or.inl (List.mem_append_right _ (List.mem_singleton.mpr rfl))⟩

theorem Reaches.expire {system : System Instance} {jobId other : Uuid} {runAfter ready : Instant}
    (h : system.Reaches jobId runAfter) (hready : ready ≤ system.now) :
    ({ system with
      delay := system.delay.erase (other, ready)
      work := system.work ++ [other] } : System Instance).Reaches jobId runAfter := by
  rcases h with ⟨found, hmem, hfound⟩ | ⟨hnow, hwork | hdelivery⟩
  · by_cases hentry : (jobId, found) = (other, ready)
    · obtain ⟨rfl, rfl⟩ := Prod.mk.inj hentry
      exact Or.inr ⟨le_trans hfound hready,
        Or.inl (List.mem_append_right _ (List.mem_singleton.mpr rfl))⟩
    · exact Or.inl ⟨found, (List.mem_erase_of_ne hentry).mpr hmem, hfound⟩
  · exact Or.inr ⟨hnow, Or.inl (List.mem_append_left _ hwork)⟩
  · exact Or.inr ⟨hnow, Or.inr hdelivery⟩

variable [DecidableEq Instance]

/-- What a step of a channel leaves of the rest of the system. -/
theorem act_eq {config : Instance → Config} {system after : System Instance} {consumer : Instance}
    {action : Action} (h : system.act config consumer action = some after) :
    ∃ channel, (system.channels consumer).step (config consumer) action = some channel ∧
      after = system.setChannel consumer channel := by
  obtain ⟨channel, hchannel, hafter⟩ := Option.map_eq_some_iff.mp h
  exact ⟨channel, hchannel, hafter.symm⟩

/-- A step of a channel loses no message for a job but by a claim of that job that comes to nothing
before its `run_after`. -/
theorem Reaches.setChannel {config : Instance → Config} {system : System Instance}
    {consumer : Instance} {action : Action} {channel : Channel} {jobId : Uuid}
    {runAfter : Instant} (h : system.Reaches jobId runAfter)
    (hkept : (system.channels consumer).WellKept)
    (hstep : (system.channels consumer).step (config consumer) action = some channel)
    (hclaim : ∀ task outcome message deadline owner lease earlier,
      action = .answer task (.returned outcome) → (system.channels consumer).tasks task =
        some ⟨.reserveClaim message jobId deadline owner lease, earlier⟩ →
      system.now < runAfter) : (system.setChannel consumer channel).Reaches jobId runAfter := by
  rcases h with hdelay | ⟨hnow, hwork | ⟨other, message, hmem, hbody, hlive⟩⟩
  · exact Or.inl hdelay
  · exact Or.inr ⟨hnow, Or.inl hwork⟩
  · refine Or.inr ⟨hnow, Or.inr ⟨other, message, ?_⟩⟩
    by_cases hother : other = consumer
    · subst hother
      obtain ⟨-, hdooms, hunacked⟩ := hkept.step hstep
      simp only [System.setChannel, Function.update_self]
      refine ⟨hunacked message hmem hlive, hbody, fun hdoomed ↦ ?_⟩
      rcases hdooms message hdoomed with hold | ⟨task, outcome, claimed, deadline, owner, lease,
        earlier, haction, htask⟩
      · exact hlive hold
      · obtain ⟨-, hnamed⟩ := hkept.frames task _ htask
        obtain rfl : jobId = claimed := Option.some.inj (hbody.symm.trans hnamed)
        exact not_lt.mpr hnow
          (hclaim task outcome message deadline owner lease earlier haction htask)
    · simp only [System.setChannel, Function.update_of_ne hother]
      exact ⟨hmem, hbody, hlive⟩

/-- A message that is handed over goes from the work queue to the channel. -/
theorem Reaches.deliver {config : Instance → Config} {system after : System Instance}
    {consumer : Instance} {jobId other : Uuid} {runAfter : Instant}
    (h : system.Reaches jobId runAfter) (hkept : (system.channels consumer).WellKept)
    (hact : ({ system with work := system.work.erase other } : System Instance).act config consumer
      (.deliver (some other)) = some after) : after.Reaches jobId runAfter := by
  obtain ⟨channel, hstep, rfl⟩ := act_eq hact
  have hplace : ({ system with work := system.work.erase other } : System Instance).Reaches jobId
      runAfter ∨ runAfter ≤ system.now ∧ jobId = other := by
    rcases h with hdelay | ⟨hnow, hwork | hdelivery⟩
    · exact Or.inl (Or.inl hdelay)
    · by_cases hjob : jobId = other
      · exact Or.inr ⟨hnow, hjob⟩
      · exact Or.inl (Or.inr ⟨hnow, Or.inl ((List.mem_erase_of_ne hjob).mpr hwork)⟩)
    · exact Or.inl (Or.inr ⟨hnow, Or.inr hdelivery⟩)
  rcases hplace with hreaches | ⟨hnow, rfl⟩
  · exact hreaches.setChannel hkept hstep (by simp)
  · -- the message just handed over has a tag that no other has
    obtain ⟨-, hdooms, -⟩ := hkept.step hstep
    refine Or.inr ⟨hnow, Or.inr ⟨consumer, ⟨(system.channels consumer).nextTag, some jobId⟩, ?_⟩⟩
    simp only [System.setChannel, Function.update_self]
    refine ⟨Channel.mem_unacked_of_deliver hstep, trivial, fun hdoomed ↦ ?_⟩
    rcases hdooms _ hdoomed with hold | ⟨_, _, _, _, _, _, _, haction, -⟩
    · exact absurd (hkept.tag_lt hold) (lt_irrefl _)
    · exact absurd haction (by simp)

/-- The deliveries of a queue object that dies go back to the work queue. -/
theorem Reaches.crash {system : System Instance} {jobId : Uuid} {runAfter : Instant}
    (consumer : Instance) (h : system.Reaches jobId runAfter) :
    (({ system with
      work := system.work ++ (system.channels consumer).unacked.filterMap Message.body } :
        System Instance).setChannel consumer .new).Reaches jobId runAfter := by
  rcases h with hdelay | ⟨hnow, hwork | ⟨other, message, hmem, hbody, hlive⟩⟩
  · exact Or.inl hdelay
  · exact Or.inr ⟨hnow, Or.inl (List.mem_append_left _ hwork)⟩
  · by_cases hother : other = consumer
    · subst hother
      exact Or.inr ⟨hnow, Or.inl (List.mem_append_right _
        (List.mem_filterMap.mpr ⟨message, hmem, hbody⟩))⟩
    · refine Or.inr ⟨hnow, Or.inr ⟨other, message, ?_⟩⟩
      simp only [System.setChannel, Function.update_of_ne hother]
      exact ⟨hmem, hbody, hlive⟩

end System

/-! ### The invariant -/

variable {Instance : Type}

/-- What a method answers for: the message it has yet to publish will not come to a claim too early,
and the one it has published will come to one. -/
structure Task.Obliged (task : Task) (cause : Uuid → ℕ) (system : System Instance) : Prop where
  pending : ∀ jobId delay, (jobId, delay) ∈ task.pending →
    Current (cause jobId) (fun runAfter ↦ runAfter ≤ system.now + (parked delay).getD 0)
      (jobRow system.database jobId)
  marking : ∀ jobId, task.marking = some jobId →
    Current (cause jobId) (system.Reaches jobId) (jobRow system.database jobId)

theorem Task.Obliged.of_lighter {new old : Task} {cause : Uuid → ℕ} {system : System Instance}
    (h : old.Obliged cause system) (hlighter : new.Lighter old) : new.Obliged cause system where
  pending := fun jobId delay hentry ↦ h.pending jobId delay (hlighter.pending _ hentry)
  marking := fun jobId hjob ↦ h.marking jobId (hlighter.marking jobId hjob)

theorem Task.obliged_of_idle {frame : Frame} (h : frame.Idle) (cause : Uuid → ℕ)
    (system : System Instance) : Task.Obliged ⟨frame, none⟩ cause system where
  pending := by simp [h.1]
  marking := by simp [h.2]

/-- The invariant of the system. -/
structure Wired (system : System Instance) : Prop where
  shape : ∀ jobId, HasShape (jobRow system.database jobId)
  kept : ∀ consumer, (system.channels consumer).WellKept
  announced : ∀ jobId, Announced (system.Reaches jobId) (jobRow system.database jobId)
  obliged : ∀ consumer task state, (system.channels consumer).tasks task = some state →
    state.Obliged (system.cause consumer task) system

/-- A change of the clock and of the wire on which every message that will come to a claim still
will. -/
structure System.Follows (after before : System Instance) : Prop where
  database : after.database = before.database
  cause : after.cause = before.cause
  now : before.now ≤ after.now
  reaches : ∀ jobId row, jobRow before.database jobId = some row → row.state.waiting = true →
    before.Reaches jobId row.runAfter → after.Reaches jobId row.runAfter

theorem Task.Obliged.follows {task : Task} {cause : Uuid → ℕ} {after before : System Instance}
    (h : task.Obliged cause before) (hfollows : after.Follows before) :
    task.Obliged cause after where
  pending := by
    intro jobId delay hentry
    rw [hfollows.database]
    exact (h.pending jobId delay hentry).mono fun found _ _ hle ↦
      le_trans hle (add_le_add_left hfollows.now _)
  marking := by
    intro jobId hjob
    rw [hfollows.database]
    exact (h.marking jobId hjob).mono (hfollows.reaches jobId)

theorem Wired.announced_follows {after before : System Instance} (h : Wired before)
    (hfollows : after.Follows before) (jobId : Uuid) :
    Announced (after.Reaches jobId) (jobRow after.database jobId) := by
  rw [hfollows.database]
  exact (h.announced jobId).mono (hfollows.reaches jobId)

/-- A change that touches no queue object. -/
theorem Wired.follows {after before : System Instance} (h : Wired before)
    (hfollows : after.Follows before) (hchannels : after.channels = before.channels) :
    Wired after where
  shape := by
    rw [hfollows.database]
    exact h.shape
  kept := by
    rw [hchannels]
    exact h.kept
  announced := h.announced_follows hfollows
  obliged := by
    rw [hchannels, hfollows.cause]
    exact fun consumer task state hstate ↦ (h.obliged consumer task state hstate).follows hfollows

section Steps

variable {config : Instance → Config} {system after : System Instance}

/-- A store call that is no `mark_published`, or one of a job that a message will bring to a
claim. -/
theorem Wired.perform (h : Wired system) (operation : Operation)
    (hmark : ∀ jobId row, operation = .markPublished jobId →
      jobRow system.database jobId = some row → row.state.waiting = true →
      row.publishedAt = none → system.Reaches jobId row.runAfter) :
    Wired { system with
      database := (Postgres.perform system.now operation system.database).2 } := by
  have hcurrent : ∀ jobId cause holds, Current cause holds (jobRow system.database jobId) →
      Current cause holds
        (jobRow (Postgres.perform system.now operation system.database).2 jobId) := by
    intro jobId cause holds hcurrent
    rcases Postgres.perform_jobStep system.now operation system.database jobId with
      ⟨outcome, -, hstep⟩ | ⟨error, -, hsame⟩
    · exact hstep.current (h.shape jobId) hcurrent
    · rw [hsame]
      exact hcurrent
  constructor
  · intro jobId
    rcases Postgres.perform_jobStep system.now operation system.database jobId with
      ⟨outcome, -, hstep⟩ | ⟨error, -, hsame⟩
    · exact hstep.shaped (h.shape jobId)
    · rw [hsame]
      exact h.shape jobId
  · exact h.kept
  · intro jobId
    rcases Postgres.perform_jobStep system.now operation system.database jobId with
      ⟨outcome, -, hstep⟩ | ⟨error, -, hsame⟩
    · exact hstep.announced (h.shape jobId) (h.announced jobId) fun hoperation row hrow ↦
        hmark jobId row hoperation hrow
    · rw [hsame]
      exact h.announced jobId
  · intro consumer task state hstate
    have hobliged := h.obliged consumer task state hstate
    exact ⟨fun jobId delay hentry ↦ hcurrent jobId _ _ (hobliged.pending jobId delay hentry),
      fun jobId hjob ↦ hcurrent jobId _ _ (hobliged.marking jobId hjob)⟩

theorem eq_ok_of_replyOf {reply : Except StoreError Outcome} {outcome : Outcome}
    (h : replyOf reply = .returned outcome) : reply = .ok outcome := by
  cases reply with
  | ok found => exact congrArg Except.ok (Reply.returned.inj h)
  | error error => exact absurd h (by simp [replyOf])

theorem replyOf_ne_published (reply : Except StoreError Outcome) :
    replyOf reply ≠ .published := by
  cases reply <;> simp [replyOf]

theorem current_of_row {database : Database} {jobId : Uuid} {row : JobRow}
    {holds : Instant → Prop} (hrow : jobRow database jobId = some row)
    (hstate : row.state ≠ .running) (h : row.state.waiting = true → holds row.runAfter) :
    Current (attemptsOf database jobId) holds (jobRow database jobId) := by
  have hattempts : attemptsOf database jobId = row.attempts := by simp [attemptsOf, hrow]
  rw [hattempts, hrow]
  exact .of_waiting hstate h

/-- A job that goes through the parking queue for its delay does not come to a claim before it. -/
theorem le_parked (now : Instant) (delay : Option Duration) :
    now + delay.getD 0 ≤ now + (parked delay).getD 0 := by
  cases delay with
  | none => exact le_refl _
  | some duration =>
    refine add_le_add_right ?_ now
    by_cases hpositive : 0 < duration
    · have hparked : parked (some duration) = some duration := if_pos (decide_eq_true hpositive)
      rw [hparked]
    · have hparked : parked (some duration) = none := if_neg (by simpa using hpositive)
      rw [hparked]
      exact not_lt.mp hpositive

/-- What a method knows after an insertion, a nack or a listing: the jobs it is going to publish
wait, and may be claimed as soon as their messages can come. -/
theorem Task.obliged_of_store {frame : Frame} {operation : Uuid → List Uuid → Operation}
    {drawn : Uuid} {scan : List Uuid} {own : Config}
    (hrequest : frame.request own = .store operation) (hdecides : frame.decides = true)
    (horphan : 0 ≤ own.orphanAfter) {reply : Except StoreError Outcome} {before : Database}
    (hperform : Postgres.perform system.now (operation drawn scan) before =
      (reply, system.database)) :
    Task.Obliged ⟨frame, some (replyOf reply)⟩ (attemptsOf system.database) system := by
  cases frame with
  | enqueueInsert request =>
    obtain rfl := Request.store.inj hrequest
    refine ⟨fun jobId delay hentry ↦ ?_, fun _ hjob ↦ absurd hjob (by simp [Task.marking])⟩
    obtain ⟨job, rfl, hpair⟩ := Task.of_mem_pending_enqueueInsert hentry
    obtain ⟨rfl, rfl⟩ := Prod.mk.inj hpair
    obtain ⟨hid, hrow⟩ := Postgres.jobRow_of_enqueued hperform
    rw [← hid] at hrow
    refine current_of_row hrow (by simp [JobRow.inserted]) fun _ ↦ ?_
    exact le_parked system.now (some request.delay)
  | nackStore lease error retryIn =>
    obtain rfl := Request.store.inj hrequest
    refine ⟨fun jobId delay hentry ↦ ?_, fun _ hjob ↦ absurd hjob (by simp [Task.marking])⟩
    obtain ⟨job, rfl, hpair⟩ := Task.of_mem_pending_nackStore hentry
    obtain ⟨rfl, rfl⟩ := Prod.mk.inj hpair
    obtain ⟨hid, row, hrow⟩ := Postgres.jobRow_of_nacked hperform
    rw [← hid] at hrow
    refine current_of_row hrow (Postgres.nackState_ne row).1 fun _ ↦ ?_
    exact le_parked system.now delay
  | sweepUnpublished started =>
    obtain rfl := Request.store.inj hrequest
    rw [Postgres.perform_unpublished, Prod.mk.injEq] at hperform
    obtain ⟨rfl, rfl⟩ := hperform
    refine ⟨fun jobId delay hentry ↦ ?_, fun _ hjob ↦ absurd hjob (by simp [Task.marking])⟩
    obtain ⟨listed, hlisted, hpair⟩ := List.mem_map.mp hentry
    obtain ⟨rfl, rfl⟩ := Prod.mk.inj hpair
    obtain ⟨-, hmatch⟩ := List.mem_filter.mp hlisted
    obtain ⟨row, hrow, hcondition⟩ := (Option.any_eq_true _ _).mp hmatch
    simp only [Bool.and_eq_true, decide_eq_true_eq] at hcondition
    obtain ⟨⟨-, hwaiting⟩, hpast⟩ := hcondition
    refine current_of_row hrow (Postgres.not_running_of_waiting hwaiting) fun _ ↦ ?_
    have hle : system.now - own.orphanAfter ≤ system.now := Int.sub_le_self _ horphan
    exact le_trans (le_trans hpast.le hle) (le_add_of_nonneg_right (le_refl 0))
  | _ => exact absurd hdecides (by simp [Frame.decides])

variable [DecidableEq Instance]

/-- A step that replaces one queue object, when what its methods then have to publish and to mark is
answered for. -/
theorem Wired.replace (h : Wired system) {consumer : Instance} {channel : Channel}
    (hfollows : after.Follows system)
    (hchannels : after.channels = Function.update system.channels consumer channel)
    (hkept : channel.WellKept)
    (htasks : ∀ task state, channel.tasks task = some state →
      state.Obliged (system.cause consumer task) after) : Wired after where
  shape := by
    rw [hfollows.database]
    exact h.shape
  kept := by
    intro other
    rw [hchannels]
    by_cases hother : other = consumer
    · subst hother
      rw [Function.update_self]
      exact hkept
    · rw [Function.update_of_ne hother]
      exact h.kept other
  announced := h.announced_follows hfollows
  obliged := by
    intro other task state hstate
    rw [hchannels] at hstate
    rw [hfollows.cause]
    by_cases hother : other = consumer
    · subst hother
      rw [Function.update_self] at hstate
      exact htasks task state hstate
    · rw [Function.update_of_ne hother] at hstate
      exact (h.obliged other task state hstate).follows hfollows

/-- What is left of the wire after a step of one queue object. Of the returns of claims, those count
that leave the job waiting for a moment to come. -/
theorem Wired.follows_setChannel (h : Wired system) {consumer : Instance} {action : Action}
    {channel : Channel}
    (hstep : (system.channels consumer).step (config consumer) action = some channel)
    (hclaim : ∀ task outcome message jobId deadline owner lease earlier row,
      action = .answer task (.returned outcome) → (system.channels consumer).tasks task =
        some ⟨.reserveClaim message jobId deadline owner lease, earlier⟩ →
      jobRow system.database jobId = some row → row.state.waiting = true →
      system.now < row.runAfter) : (system.setChannel consumer channel).Follows system where
  database := rfl
  cause := rfl
  now := le_refl _
  reaches := fun _ row hrow hwaiting hreaches ↦
    hreaches.setChannel (h.kept consumer) hstep
      fun task outcome message deadline owner lease earlier haction htask ↦
        hclaim task outcome message _ deadline owner lease earlier row haction htask hrow hwaiting

/-- A step of one queue object that gives no method the reply to a store call or a publish. -/
theorem Wired.quiet (h : Wired system) {consumer : Instance} {action : Action} {channel : Channel}
    (hstep : (system.channels consumer).step (config consumer) action = some channel)
    (hquiet : ∀ task reply, action = .answer task reply →
      (∀ outcome, reply ≠ .returned outcome) ∧ reply ≠ .published)
    (hfollows : after.Follows system)
    (hchannels : after.channels = Function.update system.channels consumer channel) :
    Wired after := by
  refine h.replace hfollows hchannels ((h.kept consumer).step hstep).1 fun task state hstate ↦ ?_
  rcases Channel.lighter_of_step hstep hquiet hstate with ⟨frame, hidle, rfl⟩ |
    ⟨old, hold, hlighter⟩
  · exact Task.obliged_of_idle hidle _ _
  · exact ((h.obliged consumer task old hold).follows hfollows).of_lighter hlighter

theorem Wired.act (h : Wired system) {consumer : Instance} {action : Action}
    (hact : system.act config consumer action = some after)
    (hquiet : ∀ task reply, action = .answer task reply →
      (∀ outcome, reply ≠ .returned outcome) ∧ reply ≠ .published) : Wired after := by
  obtain ⟨channel, hstep, rfl⟩ := System.act_eq hact
  refine h.quiet hstep hquiet (h.follows_setChannel hstep ?_) rfl
  exact fun task outcome _ _ _ _ _ _ _ haction ↦ absurd rfl ((hquiet task _ haction).1 outcome)

/-- The broker hands over a message. -/
theorem Wired.deliver (h : Wired system) {consumer : Instance} {jobId : Uuid}
    (hact : ({ system with work := system.work.erase jobId } : System Instance).act config consumer
      (.deliver (some jobId)) = some after) : Wired after := by
  have hreaches : ∀ other runAfter, system.Reaches other runAfter → after.Reaches other runAfter :=
    fun _ _ hreaches ↦ hreaches.deliver (h.kept consumer) hact
  obtain ⟨channel, hstep, rfl⟩ := System.act_eq hact
  exact h.quiet hstep (by simp)
    ⟨rfl, rfl, le_refl _, fun jobId row _ _ ↦ hreaches jobId row.runAfter⟩
    rfl

/-- A publish puts a message on the wire for the job that its method then has to mark. -/
theorem Wired.publish (h : Wired system) {consumer : Instance} {task : ℕ} {frame : Frame}
    {jobId : Uuid} {delay : Option Duration}
    (htask : (system.channels consumer).tasks task = some ⟨frame, none⟩)
    (hrequest : frame.request (config consumer) = .publish jobId delay)
    (hact : (system.put jobId delay).act config consumer (.answer task .published) = some after) :
    Wired after := by
  have hput : Wired (system.put jobId delay) :=
    h.follows ⟨by simp, by simp, by simp, fun _ _ _ _ hreaches ↦ hreaches.put delay⟩ (by simp)
  rw [← System.put_channels system jobId delay] at htask
  obtain ⟨channel, hstep, rfl⟩ := System.act_eq hact
  have hfollows : ((system.put jobId delay).setChannel consumer channel).Follows
      (system.put jobId delay) := hput.follows_setChannel hstep (by simp)
  refine hput.replace hfollows rfl ((hput.kept consumer).step hstep).1 fun other state hstate ↦ ?_
  rcases Channel.eq_some_of_update (Channel.tasks_of_answer hstep htask) hstate with
    ⟨rfl, hset⟩ | ⟨-, hold⟩
  · obtain rfl := Option.some.inj hset
    have hobliged := (hput.obliged consumer other _ htask).follows hfollows
    refine ⟨fun found duration hentry ↦ ?_, fun found hmarking ↦ ?_⟩
    · rw [Task.pending_of_reply (Or.inr (by simp))] at hentry
      exact hobliged.pending found duration hentry
    · -- what it had to publish it has put on the wire
      obtain ⟨rfl, hentry⟩ := Task.pending_of_published hrequest hmarking
      refine ((hput.obliged consumer other _ htask).pending found delay hentry).mono ?_
      intro row hrow hwaiting hle
      rw [System.put_now] at hle
      exact hfollows.reaches found row hrow hwaiting (System.reaches_put hle)
  · exact (hput.obliged consumer other state hold).follows hfollows

/-- A queue object dies, and another takes its place. -/
theorem Wired.crash (h : Wired system) (consumer : Instance) :
    Wired (({ system with
      work := system.work ++ (system.channels consumer).unacked.filterMap Message.body } :
        System Instance).setChannel consumer .new) := by
  refine h.replace ⟨rfl, rfl, le_refl _, fun jobId row _ _ ↦ System.Reaches.crash consumer⟩
    rfl .new ?_
  intro task state hstate
  exact absurd hstate (by simp [Channel.new])

/-- A method whose call decides on a publish has nothing to answer for before the call returns, so
the snapshot of the attempts may be taken anew. -/
theorem Wired.recause (h : Wired system) {consumer : Instance} {task : ℕ} {frame : Frame}
    (htask : (system.channels consumer).tasks task = some ⟨frame, none⟩)
    {attempts : Uuid → ℕ} : Wired { system with
      cause :=
        if frame.decides then
          Function.update system.cause consumer
            (Function.update (system.cause consumer) task attempts)
        else system.cause } := by
  refine ⟨h.shape, h.kept, h.announced, fun other otherTask state hstate ↦ ?_⟩
  by_cases hown : frame.decides = true ∧ other = consumer ∧ otherTask = task
  · obtain ⟨hdecides, rfl, rfl⟩ := hown
    obtain rfl := Option.some.inj (htask.symm.trans hstate)
    exact Task.obliged_of_idle (Frame.idle_of_decides hdecides) _ _
  · have hcause : (if frame.decides then Function.update system.cause consumer
        (Function.update (system.cause consumer) task attempts) else system.cause)
          other otherTask = system.cause other otherTask := by
      split
      · rename_i hdecides
        by_cases hother : other = consumer
        · subst hother
          have hne : otherTask ≠ task := fun hsame ↦ hown ⟨hdecides, rfl, hsame⟩
          rw [Function.update_self, Function.update_of_ne hne]
        · rw [Function.update_of_ne hother]
      · rfl
    have hold := h.obliged other otherTask state hstate
    dsimp only
    rw [hcause]
    exact ⟨hold.pending, hold.marking⟩

/-- A method gets the reply to its store call. -/
theorem Wired.reply (h : Wired system) {consumer : Instance} {task : ℕ} {frame : Frame}
    {operation : Uuid → List Uuid → Operation} {drawn : Uuid} {scan : List Uuid}
    (htask : (system.channels consumer).tasks task = some ⟨frame, none⟩)
    (hrequest : frame.request (config consumer) = .store operation)
    (horphan : 0 ≤ (config consumer).orphanAfter) {reply : Except StoreError Outcome}
    {before : Database} (hperform : Postgres.perform system.now (operation drawn scan) before =
      (reply, system.database)) {channel : Channel}
    (hstep : (system.channels consumer).step (config consumer) (.answer task (replyOf reply)) =
      some channel)
    (hcause : frame.decides = true →
      system.cause consumer task = attemptsOf system.database) :
    Wired (system.setChannel consumer channel) := by
  have hfollows : (system.setChannel consumer channel).Follows system := by
    refine h.follows_setChannel hstep ?_
    intro other outcome message jobId deadline owner lease earlier row haction hclaiming hrow
      hwaiting
    obtain ⟨rfl, hreturned⟩ := Action.answer.inj haction
    obtain ⟨rfl, -⟩ := Task.mk.inj (Option.some.inj (htask.symm.trans hclaiming))
    obtain rfl := Request.store.inj hrequest
    obtain rfl := eq_ok_of_replyOf hreturned
    have hpast := Postgres.waiting_eq_false_of_claimed hperform hrow
    simpa [JobRow.waiting, hwaiting] using hpast
  refine h.replace hfollows rfl ((h.kept consumer).step hstep).1 fun other state hstate ↦ ?_
  rcases Channel.eq_some_of_update (Channel.tasks_of_answer hstep htask) hstate with
    ⟨rfl, hset⟩ | ⟨-, hold⟩
  · obtain rfl := Option.some.inj hset
    cases hdecides : frame.decides with
    | true =>
      rw [hcause hdecides]
      exact (Task.obliged_of_store hrequest hdecides horphan hperform).follows hfollows
    | false =>
      have hobliged := (h.obliged consumer other _ htask).follows hfollows
      refine hobliged.of_lighter ⟨fun entry hentry ↦ ?_, fun jobId hjob ↦ ?_⟩
      · rwa [Task.pending_of_reply (Or.inl hdecides)] at hentry
      · rwa [Task.marking_of_reply (replyOf_ne_published reply)] at hjob
  · exact (h.obliged consumer other state hold).follows hfollows

/-- A store call that a method awaits commits or raises. -/
theorem Wired.store (h : Wired system) {consumer : Instance} {task : ℕ} {frame : Frame}
    {operation : Uuid → List Uuid → Operation} {drawn : Uuid} {scan : List Uuid}
    (htask : (system.channels consumer).tasks task = some ⟨frame, none⟩)
    (hrequest : frame.request (config consumer) = .store operation)
    (horphan : 0 ≤ (config consumer).orphanAfter)
    (hmark : ∀ jobId row, (⟨frame, none⟩ : Task).marking = some jobId →
      jobRow system.database jobId = some row → row.state.waiting = true →
      row.publishedAt = none → row.attempts = system.cause consumer task jobId)
    (hcommit : system.commit config consumer task frame (operation drawn scan) = some after) :
    Wired after := by
  -- first the database, then the snapshot of the attempts, then the reply
  have hdatabase : Wired { system with database :=
      (Postgres.perform system.now (operation drawn scan) system.database).2 } := by
    refine h.perform _ fun jobId row hoperation hrow hwaiting hnull ↦ ?_
    have hmarking := Frame.marking_of_request hrequest hoperation
    obtain ⟨found, hfound, -, -, hreaches⟩ :=
      (h.obliged consumer task _ htask).marking jobId hmarking
    obtain rfl : row = found := Option.some.inj (hrow.symm.trans hfound)
    exact hreaches hwaiting (hmark jobId row hmarking hrow hwaiting hnull)
  obtain ⟨acted, hact, hafter⟩ := Option.map_eq_some_iff.mp hcommit
  obtain ⟨channel, hstep, rfl⟩ := System.act_eq hact
  obtain ⟨reply, database, hperform⟩ : ∃ reply database, Postgres.perform system.now
      (operation drawn scan) system.database = (reply, database) := ⟨_, _, rfl⟩
  rw [hperform] at hafter hdatabase hstep
  have hsnapshot : Wired { system with
      database := database
      cause :=
        if frame.decides then
          Function.update system.cause consumer
            (Function.update (system.cause consumer) task (attemptsOf database))
        else system.cause } :=
    hdatabase.recause htask
  rw [← hafter]
  exact hsnapshot.reply htask hrequest horphan hperform hstep fun hdecides ↦ by simp [hdecides]

end Steps

/-! ### The theorem -/

/-- The condition of the theorem: no `mark_published` takes effect on a waiting row that has no
`published_at` and has been claimed since the publish was decided on. -/
def MarksInTime (system : System Instance) : Event Instance → Prop
  | .store consumer task _ _ =>
    ∀ state jobId row, (system.channels consumer).tasks task = some state →
      state.marking = some jobId → jobRow system.database jobId = some row →
      row.state.waiting = true → row.publishedAt = none →
      row.attempts = system.cause consumer task jobId
  | _ => True

/-- Every step that meets the condition keeps the invariant. -/
theorem Wired.step [DecidableEq Instance] {config : Instance → Config}
    {system after : System Instance} (h : Wired system)
    (horphan : ∀ consumer, 0 ≤ (config consumer).orphanAfter) {event : Event Instance}
    (hmarks : MarksInTime system event) (hstep : system.step config event = some after) :
    Wired after := by
  cases event with
  | tick duration =>
    rw [← Option.some.inj hstep]
    refine h.follows ⟨rfl, rfl, le_add_of_nonneg_right (Int.natCast_nonneg duration), ?_⟩ rfl
    exact fun _ _ _ _ hreaches ↦ hreaches.tick duration
  | chat operation =>
    simp only [System.step] at hstep
    split at hstep
    · rename_i hchat
      rw [← Option.some.inj hstep]
      refine h.perform operation fun jobId row hoperation ↦ ?_
      rw [hoperation] at hchat
      exact absurd hchat (by simp [onChat])
    · exact absurd hstep (by simp)
  | deliver consumer jobId =>
    simp only [System.step] at hstep
    split at hstep
    · exact h.deliver hstep
    · exact absurd hstep (by simp)
  | expire jobId ready =>
    simp only [System.step] at hstep
    split at hstep
    · rename_i hready
      rw [← Option.some.inj hstep]
      refine h.follows ⟨rfl, rfl, le_refl _, ?_⟩ rfl
      exact fun _ _ _ _ hreaches ↦ hreaches.expire hready.2
    · exact absurd hstep (by simp)
  | start consumer task call time => exact h.act hstep (by simp)
  | store consumer task drawn scan =>
    simp only [System.step] at hstep
    split at hstep
    · rename_i frame htask
      split at hstep
      · rename_i operation hrequest
        exact h.store htask hrequest (horphan consumer)
          (fun jobId row hmarking ↦ hmarks _ jobId row htask hmarking) hstep
      · exact absurd hstep (by simp)
    · exact absurd hstep (by simp)
  | publish consumer task =>
    simp only [System.step] at hstep
    split at hstep
    · rename_i frame htask
      split at hstep
      · rename_i jobId delay hrequest
        exact h.publish htask hrequest hstep
      · exact absurd hstep (by simp)
    · exact absurd hstep (by simp)
  | settle consumer task => exact h.act hstep (by simp)
  | fail consumer task =>
    refine h.act hstep fun found reply haction ↦ ?_
    rw [← (Action.answer.inj haction).2]
    exact ⟨by simp, by simp⟩
  | wake consumer task timedOut =>
    refine h.act hstep fun found reply haction ↦ ?_
    rw [← (Action.answer.inj haction).2]
    cases timedOut with
    | true => exact ⟨by simp, by simp⟩
    | false => exact ⟨by simp, by simp⟩
  | resume consumer task time => exact h.act hstep (by simp)
  | crash consumer =>
    rw [← Option.some.inj hstep]
    exact h.crash consumer

theorem Wired.initial : Wired (System.initial Instance) where
  shape := by
    intro jobId found hfound
    exact absurd hfound (by simp [System.initial, jobRow, Postgres.Database.empty])
  kept := fun _ ↦ .new
  announced := by
    intro jobId found hfound
    exact absurd hfound (by simp [System.initial, jobRow, Postgres.Database.empty])
  obliged := by
    intro consumer task state hstate
    exact absurd hstate (by simp [System.initial, Channel.new])

theorem System.Run.wired [DecidableEq Instance] {config : Instance → Config}
    (horphan : ∀ consumer, 0 ≤ (config consumer).orphanAfter) {system : System Instance}
    (h : System.Run config MarksInTime system) : Wired system := by
  induction h with
  | initial => exact .initial
  | step before event hmarks hstep ih => exact ih.step horphan hmarks hstep

/-- No job is lost between the row and the wire. In every run of any number of queue objects on one
database and one broker in which no `mark_published` takes effect on a waiting unpublished row
that has been claimed since its publish was decided on, every waiting job with a `published_at` has
its id in the work queue, in the delay queue, or in a delivery not yet acked. `orphan_after` is not
negative: a sweep does not publish a job before its `run_after`. -/
theorem waiting_job_on_wire {Instance : Type} [DecidableEq Instance] {config : Instance → Config}
    (horphan : ∀ consumer, 0 ≤ (config consumer).orphanAfter) {system : System Instance}
    (h : System.Run config MarksInTime system) {jobId : Uuid} {row : JobRow}
    (hrow : jobRow system.database jobId = some row) (hwaiting : row.state.waiting = true)
    (hpublished : row.publishedAt ≠ none) : system.OnWire jobId :=
  ((h.wired horphan).announced jobId row hrow hwaiting hpublished).onWire

/-- A job that one object enqueues, publishes and marks is on the wire. -/
theorem waiting_job_on_wire_enqueued :
    ∃ system : System Unit, ∃ row, jobRow system.database ⟨9⟩ = some row ∧
      row.state.waiting = true ∧ row.publishedAt ≠ none ∧ system.OnWire ⟨9⟩ := by
  have hrun : System.Run (fun _ : Unit ↦ ⟨1, 30000000, 120000000⟩) MarksInTime _ :=
    .step (.step (.step (.step (.step (.step .initial
      (.start () 0 (.enqueue ⟨"noop", .nil, none, "key", 3, 0⟩) 0) trivial rfl)
      (.store () 0 ⟨9⟩ [])
        (fun state jobId row hstate hmarking ↦ by
          obtain rfl := Option.some.inj hstate
          exact absurd hmarking (by simp [Task.marking])) rfl)
      (.resume () 0 0) trivial rfl)
      (.publish () 0) trivial rfl)
      (.resume () 0 0) trivial rfl)
      (.store () 0 ⟨0⟩ [])
        (fun state jobId row hstate hmarking hrow hwaiting hnull ↦ by
          obtain rfl := Option.some.inj hstate
          obtain rfl := Option.some.inj hmarking
          obtain rfl := Option.some.inj hrow
          rfl) rfl
  exact ⟨_, _, rfl, rfl, Option.some_ne_none _,
    waiting_job_on_wire (fun _ ↦ by decide) hrun rfl rfl (Option.some_ne_none _)⟩

/-- One object enqueues a job and publishes it. Before its `mark_published` commits, another object
claims the job, nacks it, settles its delivery, and its publish raises. -/
def lateMark : List (Event Bool) :=
  [.start true 0 (.enqueue ⟨"noop", .nil, none, "key", 3, 0⟩) 0,
    .store true 0 ⟨9⟩ [],
    .resume true 0 0,
    .publish true 0,
    .resume true 0 0,
    .deliver false ⟨9⟩,
    .start false 0 (.reserve "b" 10 0) 0,
    .store false 0 ⟨21⟩ [],
    .resume false 0 0,
    .start false 0 (.nack ⟨⟨21⟩,
      ⟨⟨9⟩, "noop", .nil, .running, 1, 3, none, "key", none, none, false⟩, "b", 10⟩ "boom" none) 0,
    .store false 0 ⟨0⟩ [],
    .resume false 0 0,
    .settle false 0,
    .resume false 0 0,
    .fail false 0,
    .resume false 0 0,
    .store true 0 ⟨0⟩ []]

/-- The mark that comes too late gives the failed row a `published_at`, and no message for the job
is anywhere. -/
theorem waiting_job_lost : ¬ ∀ (config : Bool → Config) (system : System Bool),
    System.Run config (fun _ _ ↦ True) system → ∀ jobId row,
      jobRow system.database jobId = some row → row.state.waiting = true →
      row.publishedAt ≠ none → system.OnWire jobId := by
  intro h
  have hsteps : (System.initial Bool).steps (fun _ ↦ ⟨1, 30000000, 120000000⟩) lateMark = some _ :=
    rfl
  have hwire := h _ _ (System.Run.steps .initial hsteps) ⟨9⟩ _ rfl rfl (Option.some_ne_none _)
  rcases hwire with hwork | ⟨ready, hdelay⟩ | ⟨consumer, message, hunacked, -⟩
  · exact List.not_mem_nil hwork
  · exact List.not_mem_nil hdelay
  · cases consumer with
    | true => exact List.not_mem_nil hunacked
    | false => exact List.not_mem_nil hunacked

end Abacus.RabbitMQ
