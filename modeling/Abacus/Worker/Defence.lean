import Abacus.Worker.Watch

/-!
# The lease while `_supervise` runs

`WorkerConfig` accepts a heartbeat that is shorter than the lease, and so one that is not positive.
With such a heartbeat `wait_for` gives every `extend` up before its first step: the job store is
never asked, and the lease that `reserve` returned is the only one. Nor is the grace compared with
the lease, and `_kill` may wait for all of it after the last heartbeat.

`Kept` is what the job store and the child promise of a run: a call of `extend` that is started is
answered at once, on the worker's clock, and the child reports by a moment. The lease runs from the
claim, and `_supervise` begins some time after it: the claim has to be answered, and the child to be
spawned. `lease_defended` says for which settings the lease does not lapse in any such run (`Room`),
and that for all others there is a run in which it does; `lease_lapses` is one of settings that are
accepted.
-/

set_option autoImplicit false
set_option relaxedAutoImplicit false

namespace Abacus.Worker.Watch

/-! ### What the job store and the child promise -/

/-- When the solve is done whose child reports by `span`: the collector joins the child for
`_REAP_AFTER`, and kills one that is still there. -/
def handedOver (pace : Pace) (span : Duration) : Duration :=
  span + reapAfter + pace.dying

/-- What one step keeps to. The child of a solve that goes on reports by `span` after the start; a
call of `extend` that is started is answered before any time passes, by `StaleLease` or by a lease
from now on. -/
def Promised (config : WorkerConfig) (pace : Pace) (time : Instant) (span : Duration)
    (watch : Watch) : Event → Prop
  | .tick duration =>
    (watch.stage.undecided = true → watch.collected = none →
      watch.clock + duration ≤ time + handedOver pace span) ∧
    (0 < config.extendEvery → ∀ lease cap, watch.stage ≠ .extending lease cap)
  | .answer renewal =>
    renewal = .stale ∨ ∃ lease : Lease, renewal = .renewed lease ∧
      lease.expiresAt = watch.clock + config.lease
  | _ => True

/-- A run whose steps keep to it. -/
def Kept (config : WorkerConfig) (pace : Pace) (time : Instant) (span : Duration) (watch : Watch) :
    List Event → Prop
  | [] => True
  | event :: events =>
    Promised config pace time span watch event ∧
      ∀ after, watch.step config pace event = some after → Kept config pace time span after events

/-- The time that `_kill` may take, and the two returns of the loop in it. -/
def killTime (config : WorkerConfig) (pace : Pace) : Duration :=
  config.grace + pace.dying + 2 * pace.late

/-- `_kill` may take longer than two returns of the loop. -/
theorem late_lt_killTime (config : WorkerConfig) (pace : Pace) :
    2 * pace.late < killTime config pace := by
  have hgrace := config.grace_pos
  have hdying := pace.dying_nonneg
  rw [killTime]
  linarith

/-- The lease has not lapsed, and the worker has not given up on defending it. -/
structure Defended (watch : Watch) : Prop where
  current : ∀ lease, watch.stage.running = some lease → watch.clock < lease.expiresAt
  ending : watch.stage.ending ≠ some .undefendable

variable {config : WorkerConfig} {pace : Pace} {watch after : Watch} {event : Event}
  {time : Instant} {delay span : Duration}

theorem handedOver_pos (pace : Pace) (hspan : 0 ≤ span) : 0 < handedOver pace span := by
  have hdying := pace.dying_nonneg
  have hreap : 0 < reapAfter := by decide
  rw [handedOver]
  linarith

/-! ### The end of a wait -/

theorem clock_le_dueAt (config : WorkerConfig) (pace : Pace) (watch : Watch) (lease : Lease)
    (cap : Instant) : watch.clock ≤ watch.dueAt config pace (.watching lease cap) := by
  dsimp only [dueAt]
  split_ifs
  · exact le_rfl
  · exact le_add_of_nonneg_right (le_max_right _ _)

theorem timeout_le {beat limit clock cap : ℤ} (hbeat : 0 < beat) (hlimit : 0 < limit)
    (hcap : cap ≤ clock + limit) :
    max (min beat (max (cap - clock) 0)) 0 ≤ min beat limit := by
  omega

/-- A wait of the loop is over a heartbeat after it began, or at the cap. -/
theorem dueAt_le (hbeat : 0 < config.extendEvery) (pace : Pace) (watch : Watch) (lease : Lease)
    {cap : Instant} (hcap : cap ≤ watch.clock + config.solveTimeout) :
    watch.dueAt config pace (.watching lease cap) ≤
      watch.clock + min config.extendEvery config.solveTimeout := by
  dsimp only [dueAt]
  split_ifs
  · exact le_add_of_nonneg_right (le_min hbeat.le config.solveTimeout_pos.le)
  · exact add_le_add le_rfl (timeout_le hbeat config.solveTimeout_pos hcap)

/-- Without a heartbeat it is over at once. -/
theorem dueAt_of_nonpos (hbeat : config.extendEvery ≤ 0) (pace : Pace) (watch : Watch)
    (lease : Lease) (cap : Instant) :
    watch.dueAt config pace (.watching lease cap) = watch.clock := by
  dsimp only [dueAt]
  split_ifs
  · rfl
  · rw [timeout, max_eq_right ((min_le_left _ _).trans hbeat), add_zero]

theorem dueAt_extending_of_nonpos (hbeat : config.extendEvery ≤ 0) (pace : Pace) (watch : Watch)
    (lease : Lease) (cap : Instant) :
    watch.dueAt config pace (.extending lease cap) = watch.clock := by
  dsimp only [dueAt]
  rw [max_eq_right hbeat, add_zero]

theorem dueAt_collected (config : WorkerConfig) (pace : Pace) {watch : Watch}
    (hcollected : watch.collected ≠ none) (lease : Lease) (cap : Instant) :
    watch.dueAt config pace (.watching lease cap) = watch.clock := by
  dsimp only [dueAt]
  exact if_pos (by simp [Option.isSome_iff_ne_none.mpr hcollected])

theorem due_interrupt_watching {lease : Lease} {cap : Instant}
    (hstage : watch.stage = .watching lease cap) :
    watch.interrupt.due = min watch.due watch.clock := by
  rcases due_interrupt watch with ⟨-, hnot⟩ | ⟨hleast, -⟩
  · exact absurd hstage (hnot lease cap)
  · exact hleast

theorem due_interrupt_of_not (hnot : ∀ lease cap, watch.stage ≠ .watching lease cap) :
    watch.interrupt.due = watch.due := by
  rcases due_interrupt watch with ⟨hsame, -⟩ | ⟨-, lease, cap, hstage⟩
  · exact hsame
  · exact absurd hstage (hnot lease cap)

theorem due_interrupt_of_extending {lease : Lease} {cap : Instant}
    (hstage : watch.stage = .extending lease cap) : watch.interrupt.due = watch.due :=
  due_interrupt_of_not fun current other heq ↦ by
    rw [hstage] at heq
    exact Stage.noConfusion heq

/-- A wait that is interrupted in time is over in time. -/
theorem le_min_add {clock due late : ℤ} (hlate : 0 ≤ late) (h : clock ≤ due + late) :
    clock ≤ min due clock + late := by
  omega

/-! ### While the child is being stopped -/

/-- What is left of `_kill` fits into the lease. -/
structure Held (pace : Pace) (watch : Watch) : Prop where
  stopping : ∀ lease ending, watch.stage = .stopping lease ending →
    watch.clock ≤ watch.due + pace.late ∧
      watch.due + pace.dying + 2 * pace.late < lease.expiresAt
  killed : ∀ lease ending, watch.stage = .killed lease ending →
    watch.clock ≤ watch.due + pace.late ∧ watch.due + pace.late < lease.expiresAt
  ending : watch.stage.ending ≠ some .undefendable

/-- There is room for all of `_kill`, and the lease is not why it is called. -/
def Roomy (config : WorkerConfig) (pace : Pace) (watch : Watch) : Prop :=
  ∀ lease ending, watch.stage = .stopping lease ending →
    ending ≠ .undefendable ∧ watch.clock + killTime config pace < lease.expiresAt

theorem Held.of_undecided (hundecided : watch.stage.undecided = true) : Held pace watch where
  stopping := fun lease ending hstage ↦ by
    rw [hstage] at hundecided
    exact Bool.noConfusion hundecided
  killed := fun lease ending hstage ↦ by
    rw [hstage] at hundecided
    exact Bool.noConfusion hundecided
  ending := by
    cases hstage : watch.stage with
    | watching lease cap => simp [Stage.ending]
    | extending lease cap => simp [Stage.ending]
    | _ => exact absurd hundecided (by simp [hstage, Stage.undecided])

/-- Where the code goes on to with nothing of `_kill` in it. -/
theorem Held.enter_other {stage : Stage}
    (hstopping : ∀ lease ending, stage ≠ .stopping lease ending)
    (hkilled : ∀ lease ending, stage ≠ .killed lease ending)
    (hending : stage.ending ≠ some .undefendable) :
    Held pace (watch.enter config pace stage) where
  stopping := fun lease ending hstage ↦ absurd hstage (hstopping lease ending)
  killed := fun lease ending hstage ↦ absurd hstage (hkilled lease ending)
  ending := hending

theorem Held.enter_finish (handled : Handled) (hending : handled.ending ≠ .undefendable) :
    Held pace (watch.enter config pace (Supervisor.finish config handled)) := by
  obtain ⟨-, hrunning, heq⟩ := finish_decided config handled
  refine .enter_other (fun lease ending hstage ↦ ?_) (fun lease ending hstage ↦ ?_) ?_
  · rw [hstage] at hrunning
    exact Option.some_ne_none _ hrunning
  · rw [hstage] at hrunning
    exact Option.some_ne_none _ hrunning
  · rw [heq]
    exact fun h ↦ hending (Option.some.inj h)

/-- The child is told to stop while there is room for it. -/
theorem Held.enter_stopping {lease : Lease} {ending : Ending} (hending : ending ≠ .undefendable)
    (hroom : watch.clock + killTime config pace < lease.expiresAt) :
    Held pace (watch.enter config pace (.stopping lease ending)) where
  stopping := fun current other hstage ↦ by
    obtain ⟨rfl, rfl⟩ : lease = current ∧ ending = other := by
      simpa using hstage
    have hgrace := config.grace_pos
    have hlate := pace.late_nonneg
    rw [killTime] at hroom
    show watch.clock ≤ watch.clock + config.grace + pace.late ∧
      watch.clock + config.grace + pace.dying + 2 * pace.late < lease.expiresAt
    exact ⟨by linarith, by linarith⟩
  killed := fun current other hstage ↦ absurd hstage (by simp)
  ending := fun h ↦ hending (Option.some.inj h)

/-- Where a beat of the heart leads, if it does not find the lease lapsed with no answer. -/
theorem Held.enter_beat {lease : Lease} {cap : Instant} {renewal : Renewal}
    (hbeat : Roomy config pace
      (watch.enter config pace (Supervisor.beat lease cap renewal watch.clock))) :
    Held pace (watch.enter config pace (Supervisor.beat lease cap renewal watch.clock)) := by
  rcases beat_cases lease cap watch.clock renewal with ⟨current, heq⟩ | ⟨current, ending, -, heq⟩
  · rw [heq]
    exact .of_undecided rfl
  · rw [heq] at hbeat ⊢
    obtain ⟨hending, hroom⟩ := hbeat current ending rfl
    exact .enter_stopping hending hroom

/-- The wait of the loop may be cut short; the waits of `_kill` may not. -/
theorem Held.interrupt (hheld : Held pace watch) : Held pace watch.interrupt := by
  refine ⟨fun lease ending hstage ↦ ?_, fun lease ending hstage ↦ ?_, by simpa using hheld.ending⟩
  all_goals
    rw [stage_interrupt] at hstage
    rw [clock_interrupt, due_interrupt_of_not (fun current cap heq ↦ by
      rw [hstage] at heq
      exact Stage.noConfusion heq)]
  · exact hheld.stopping lease ending hstage
  · exact hheld.killed lease ending hstage

/-- One step keeps what is left of `_kill` inside the lease, if there was room when it was
called. -/
theorem Held.step (hheld : Held pace watch) (h : watch.step config pace event = some after)
    (hroomy : watch.stage.undecided = true → Roomy config pace after) : Held pace after := by
  cases moves_of_step h with
  | tick duration hpositive hrunning hdue =>
    exact ⟨fun lease ending hstage ↦ ⟨hdue, (hheld.stopping lease ending hstage).2⟩,
      fun lease ending hstage ↦ ⟨hdue, (hheld.killed lease ending hstage).2⟩, hheld.ending⟩
  | collect collected hrunning => exact .interrupt ⟨hheld.stopping, hheld.killed, hheld.ending⟩
  | stop hgoing => exact .interrupt ⟨hheld.stopping, hheld.killed, hheld.ending⟩
  | wake lease cap stage hstage hdue hwake =>
    have hroom := hroomy (by rw [hstage]; rfl)
    rcases wake_cases hwake with ⟨found, -, rfl⟩ | ⟨-, -, rfl⟩ | ⟨-, -, -, rfl⟩ | ⟨-, -, -, rfl⟩
    · exact .enter_finish ⟨lease, reported found, .completed⟩ (by simp)
    · exact .enter_stopping (hroom lease .released rfl).1 (hroom lease .released rfl).2
    · exact .enter_stopping (hroom lease .timedOut rfl).1 (hroom lease .timedOut rfl).2
    · exact .of_undecided rfl
  | answer lease cap renewal hstage _ => exact .enter_beat (hroomy (by rw [hstage]; rfl))
  | giveUp lease cap hstage hdue => exact .enter_beat (hroomy (by rw [hstage]; rfl))
  | graceElapsed lease ending hstage =>
    obtain ⟨hclock, hdue⟩ := hheld.stopping lease ending hstage
    have hending := hheld.ending
    rw [hstage] at hending
    refine ⟨fun current other heq ↦ absurd heq (by simp), fun current other heq ↦ ?_, hending⟩
    obtain ⟨rfl, rfl⟩ : lease = current ∧ ending = other := by
      simpa using heq
    have hlate := pace.late_nonneg
    have hdying := pace.dying_nonneg
    show watch.clock ≤ watch.clock + pace.dying + pace.late ∧
      watch.clock + pace.dying + pace.late < lease.expiresAt
    exact ⟨by linarith, by linarith⟩
  | gone lease ending collected hstage =>
    have hending : ending ≠ .undefendable := by
      have hkept := hheld.ending
      rcases hstage with hstage | hstage
      · rw [hstage] at hkept
        exact fun h ↦ hkept (congrArg some h)
      · rw [hstage] at hkept
        exact fun h ↦ hkept (congrArg some h)
    cases collected with
    | ok outcome => exact .enter_finish ⟨lease, outcome, ending⟩ hending
    | error error =>
      exact .enter_other (fun _ _ ↦ by simp [Supervisor.stopped])
        (fun _ _ ↦ by simp [Supervisor.stopped]) (by simp [Supervisor.stopped, Stage.ending])

/-- While the solve is watched there is room for `_kill` whenever the wait may end, and the wait of
a solve that is done ends under the lease. -/
structure Beating (config : WorkerConfig) (pace : Pace) (time : Instant) (span : Duration)
    (watch : Watch) : Prop where
  begun : time ≤ watch.clock
  before : watch.collected = none → watch.clock ≤ time + handedOver pace span
  watching : ∀ lease cap, watch.stage = .watching lease cap →
    cap = time + config.solveTimeout ∧ watch.clock ≤ watch.due + pace.late ∧
      min (watch.due + pace.late) (time + handedOver pace span) + killTime config pace <
        lease.expiresAt ∧
      (watch.collected ≠ none → watch.due + pace.late < lease.expiresAt)
  extending : ∀ lease cap, watch.stage = .extending lease cap →
    cap = time + config.solveTimeout ∧ watch.clock < watch.due ∧
      watch.clock + killTime config pace < lease.expiresAt

/-- What is called by the end of a wait, or by the moment at which the solve is done, whichever
comes first, is over under the lease. -/
theorem min_add_lt {due clock time beat late done kill lease expires delay : ℤ}
    (hdue : due ≤ clock + beat) (hbegun : time ≤ clock) (hlease : clock + lease ≤ expires + delay)
    (hroom : delay + min (beat + late) done + kill < lease) :
    min (due + late) (time + done) + kill < expires := by
  omega

/-- A solve that is done now is collected before `_kill` would be over. -/
theorem min_add_late_lt {due clock time late done kill expires : ℤ} (hlate : 0 ≤ late)
    (hkill : late < kill) (hnow : clock ≤ time + done)
    (hroom : min (due + late) (time + done) + kill < expires) :
    min due clock + late < expires := by
  omega

/-- A wait that is cut short, when the solve is done or the worker is stopping, ends in time. -/
theorem Beating.interrupt {next : Watch} (hbeating : Beating config pace time span watch)
    (hbefore : next.collected = none → watch.clock ≤ time + handedOver pace span)
    (hover : ∀ lease cap, watch.stage = .watching lease cap → next.collected ≠ none →
      min watch.due watch.clock + pace.late < lease.expiresAt)
    (hclock : next.clock = watch.clock := by rfl) (hstage : next.stage = watch.stage := by rfl)
    (hdue : next.due = watch.due := by rfl) :
    Beating config pace time span next.interrupt where
  begun := by
    rw [clock_interrupt, hclock]
    exact hbeating.begun
  before := by
    rw [clock_interrupt, collected_interrupt, hclock]
    exact hbefore
  watching := fun lease cap hwatching ↦ by
    rw [stage_interrupt] at hwatching
    obtain ⟨hcap, hnow, hroom, -⟩ := hbeating.watching lease cap (hstage.symm.trans hwatching)
    have hearlier : min watch.due watch.clock ≤ watch.due := min_le_left _ _
    rw [clock_interrupt, collected_interrupt, due_interrupt_watching hwatching, hclock, hdue]
    refine ⟨hcap, le_min_add pace.late_nonneg hnow, ?_,
      hover lease cap (hstage.symm.trans hwatching)⟩
    exact (add_le_add (min_le_min (add_le_add hearlier le_rfl) le_rfl) le_rfl).trans_lt hroom
  extending := fun lease cap hextending ↦ by
    rw [stage_interrupt] at hextending
    rw [clock_interrupt, due_interrupt_of_extending hextending, hclock, hdue]
    exact hbeating.extending lease cap (hstage.symm.trans hextending)

section Beating

variable (hbeat : 0 < config.extendEvery)
  (hroom : delay + min (min config.extendEvery config.solveTimeout + pace.late)
    (handedOver pace span) + killTime config pace < config.lease)

include hbeat hroom

/-- A wait that begins under a lease that is not older than `delay`. -/
theorem Beating.enter_watching (hspan : 0 ≤ span) (hbegun : time ≤ watch.clock)
    (hbefore : watch.collected = none → watch.clock ≤ time + handedOver pace span) {lease : Lease}
    (hlease : watch.clock + config.lease ≤ lease.expiresAt + delay) :
    Beating config pace time span
      (watch.enter config pace (.watching lease (time + config.solveTimeout))) where
  begun := hbegun
  before := hbefore
  watching := fun current cap hstage ↦ by
    obtain ⟨rfl, rfl⟩ : lease = current ∧ time + config.solveTimeout = cap := by
      simpa using hstage
    have hclock := clock_le_dueAt config pace watch lease (time + config.solveTimeout)
    have hdue := dueAt_le hbeat pace watch lease (add_le_add_left hbegun config.solveTimeout)
    have hlate := pace.late_nonneg
    rw [clock_enter, due_enter]
    refine ⟨rfl, by linarith, min_add_lt hdue hbegun hlease hroom, fun hcollected ↦ ?_⟩
    have hmin : 0 ≤ min (min config.extendEvery config.solveTimeout + pace.late)
        (handedOver pace span) :=
      le_min (add_nonneg (le_min hbeat.le config.solveTimeout_pos.le) hlate)
        (handedOver_pos pace hspan).le
    have hdying := pace.dying_nonneg
    have hgrace := config.grace_pos
    have hdone : watch.collected ≠ none := hcollected
    rw [dueAt_collected config pace hdone]
    rw [killTime] at hroom
    linarith
  extending := fun current other hstage ↦ absurd hstage (by simp)

/-- One step that keeps to the promises, and does not end the loop. -/
theorem Beating.step (hdelay : 0 ≤ delay) (hspan : 0 ≤ span)
    (hbeating : Beating config pace time span watch)
    (hpromised : Promised config pace time span watch event)
    (h : watch.step config pace event = some after) (hafter : after.stage.undecided = true) :
    Beating config pace time span after := by
  have hundecided := undecided_of_step h hafter
  have hlate := pace.late_nonneg
  cases moves_of_step h with
  | tick duration hpositive hrunning hdue =>
    refine ⟨hbeating.begun.trans (le_add_of_nonneg_right hpositive.le), hpromised.1 hundecided,
      fun lease cap hstage ↦ ?_, fun lease cap hstage ↦ ?_⟩
    · obtain ⟨hcap, -, hrest⟩ := hbeating.watching lease cap hstage
      exact ⟨hcap, hdue, hrest⟩
    · exact absurd hstage (hpromised.2 hbeat lease cap)
  | collect collected hrunning =>
    refine hbeating.interrupt (fun hnone ↦ absurd hnone (by simp)) (fun lease cap hstage _ ↦ ?_)
    -- the solve is done by now, and `_kill` takes longer than the loop to return
    obtain ⟨-, hclock, hroom, -⟩ := hbeating.watching lease cap hstage
    have hnow := hbeating.before hrunning
    have hkill := late_lt_killTime config pace
    exact min_add_late_lt hlate (by linarith) hnow hroom
  | stop hgoing =>
    refine hbeating.interrupt hbeating.before (fun lease cap hstage hsome ↦ ?_)
    have hover := (hbeating.watching lease cap hstage).2.2.2 hsome
    exact (add_le_add (min_le_left _ _) le_rfl).trans_lt hover
  | wake lease cap stage hstage hdue hwake =>
    rcases wake_cases hwake with ⟨found, -, rfl⟩ | ⟨-, -, rfl⟩ | ⟨-, -, -, rfl⟩ |
      ⟨hnone, hgoing, -, rfl⟩
    · have hdecided := (finish_decided config ⟨lease, reported found, .completed⟩).1
      exact Bool.noConfusion (hdecided.symm.trans hafter)
    · exact Bool.noConfusion hafter
    · exact Bool.noConfusion hafter
    · refine ⟨hbeating.begun, hbeating.before, fun current other heq ↦ absurd heq (by simp),
        fun current other heq ↦ ?_⟩
      obtain ⟨rfl, rfl⟩ : lease = current ∧ cap = other := by
        simpa using heq
      obtain ⟨hcap, hclock, hroom, -⟩ := hbeating.watching lease cap hstage
      have hfirst := le_min hclock (hbeating.before hnone)
      rw [clock_enter, due_enter, dueAt_extending hbeat]
      exact ⟨hcap, by linarith, by linarith⟩
  | answer lease cap renewal hstage _ =>
    rcases hpromised with rfl | ⟨current, rfl, hexpires⟩
    · exact Bool.noConfusion hafter
    · rcases beat_cases lease cap watch.clock (.renewed current) with ⟨other, heq⟩ |
        ⟨other, ending, -, heq⟩
      · have hsame : current = other := by
          dsimp only [Supervisor.beat] at heq
          split_ifs at heq
          exact (Stage.watching.inj heq).1
        obtain ⟨rfl, -⟩ := hbeating.extending lease cap hstage
        rw [heq]
        refine .enter_watching hbeat hroom hspan hbeating.begun hbeating.before ?_
        rw [← hsame, hexpires]
        exact le_add_of_nonneg_right hdelay
      · rw [heq] at hafter
        exact Bool.noConfusion hafter
  | giveUp lease cap hstage hdue =>
    exact absurd hdue (not_le.mpr (hbeating.extending lease cap hstage).2.1)
  | graceElapsed lease ending hstage => exact Bool.noConfusion hafter
  | gone lease ending collected hstage =>
    exact Bool.noConfusion ((stopped_decided config lease ending collected).symm.trans hafter)

end Beating

/-- While the solve is watched the lease has not lapsed. -/
theorem Beating.current (hbeating : Beating config pace time span watch)
    (hundecided : watch.stage.undecided = true) {lease : Lease}
    (hrunning : watch.stage.running = some lease) : watch.clock < lease.expiresAt := by
  have hlate := pace.late_nonneg
  have hkill := late_lt_killTime config pace
  cases hstage : watch.stage with
  | watching other cap =>
    obtain rfl : other = lease := by simpa [hstage, Stage.running] using hrunning
    obtain ⟨-, hclock, hroom, hover⟩ := hbeating.watching other cap hstage
    by_cases hnone : watch.collected = none
    · have hfirst := le_min hclock (hbeating.before hnone)
      linarith
    · exact hclock.trans_lt (hover hnone)
  | extending other cap =>
    obtain rfl : other = lease := by simpa [hstage, Stage.running] using hrunning
    obtain ⟨-, -, hroom⟩ := hbeating.extending other cap hstage
    linarith
  | _ => exact absurd hundecided (by simp [hstage, Stage.undecided])

/-! ### No heartbeat -/

/-- The lease is the one that the loop began with, and no wait of the loop begins after the solve is
done, or later after the cap than the loop may return. -/
structure Unrenewed (config : WorkerConfig) (pace : Pace) (time : Instant) (delay span : Duration)
    (watch : Watch) : Prop where
  before : watch.collected = none → watch.clock ≤ time + handedOver pace span
  lease : ∀ lease, watch.stage.running = some lease → time + config.lease ≤ lease.expiresAt + delay
  watching : ∀ lease cap, watch.stage = .watching lease cap →
    cap = time + config.solveTimeout ∧ watch.clock ≤ watch.due + pace.late ∧
      watch.due ≤ time + handedOver pace span + pace.late ∧ watch.due < cap + pace.late
  extending : ∀ lease cap, watch.stage = .extending lease cap →
    cap = time + config.solveTimeout ∧ watch.clock ≤ watch.due + pace.late ∧
      watch.due ≤ time + handedOver pace span ∧ watch.due < cap

/-- A wait that is cut short, when the solve is done or the worker is stopping. -/
theorem Unrenewed.interrupt {next : Watch} (h : Unrenewed config pace time delay span watch)
    (hbefore : next.collected = none → watch.clock ≤ time + handedOver pace span)
    (hclock : next.clock = watch.clock := by rfl) (hstage : next.stage = watch.stage := by rfl)
    (hdue : next.due = watch.due := by rfl) :
    Unrenewed config pace time delay span next.interrupt where
  before := by
    rw [clock_interrupt, collected_interrupt, hclock]
    exact hbefore
  lease := fun lease hrunning ↦ by
    rw [stage_interrupt, hstage] at hrunning
    exact h.lease lease hrunning
  watching := fun lease cap hwatching ↦ by
    rw [stage_interrupt] at hwatching
    obtain ⟨hcap, hnow, hdone, hover⟩ := h.watching lease cap (hstage.symm.trans hwatching)
    have hearlier : min watch.due watch.clock ≤ watch.due := min_le_left _ _
    rw [clock_interrupt, due_interrupt_watching hwatching, hclock, hdue]
    exact ⟨hcap, le_min_add pace.late_nonneg hnow, hearlier.trans hdone, hearlier.trans_lt hover⟩
  extending := fun lease cap hextending ↦ by
    rw [stage_interrupt] at hextending
    rw [clock_interrupt, due_interrupt_of_extending hextending, hclock, hdue]
    exact h.extending lease cap (hstage.symm.trans hextending)

theorem Unrenewed.start (hbeat : config.extendEvery ≤ 0) (hspan : 0 ≤ span) {lease : Lease}
    (stopping : Bool) (hlease : time + config.lease ≤ lease.expiresAt + delay) :
    Unrenewed config pace time delay span (start config pace lease time stopping) := by
  have hlate := pace.late_nonneg
  have hdone := (handedOver_pos pace hspan).le
  have hlimit := config.solveTimeout_pos
  refine ⟨fun _ ↦ le_add_of_nonneg_right hdone, fun current hrunning ↦ ?_,
    fun current cap hstage ↦ ?_, fun current cap hstage ↦ absurd hstage (by simp [Watch.start])⟩
  · exact Option.some.inj hrunning ▸ hlease
  · obtain ⟨rfl, rfl⟩ : lease = current ∧ time + config.solveTimeout = cap := by
      simpa [Watch.start] using hstage
    rw [Watch.start, due_enter, clock_enter, dueAt_of_nonpos hbeat]
    exact ⟨rfl, by linarith, by linarith, by linarith⟩

/-- One step that keeps to the promises, and does not end the loop. -/
theorem Unrenewed.step (hbeat : config.extendEvery ≤ 0)
    (hunrenewed : Unrenewed config pace time delay span watch)
    (hpromised : Promised config pace time span watch event)
    (h : watch.step config pace event = some after) (hafter : after.stage.undecided = true) :
    Unrenewed config pace time delay span after := by
  have hundecided := undecided_of_step h hafter
  have hlate := pace.late_nonneg
  cases moves_of_step h with
  | tick duration hpositive hrunning hdue =>
    refine ⟨hpromised.1 hundecided, hunrenewed.lease, fun lease cap hstage ↦ ?_,
      fun lease cap hstage ↦ ?_⟩
    · obtain ⟨hcap, -, hrest⟩ := hunrenewed.watching lease cap hstage
      exact ⟨hcap, hdue, hrest⟩
    · obtain ⟨hcap, -, hrest⟩ := hunrenewed.extending lease cap hstage
      exact ⟨hcap, hdue, hrest⟩
  | collect collected hrunning => exact hunrenewed.interrupt fun hnone ↦ absurd hnone (by simp)
  | stop hgoing => exact hunrenewed.interrupt hunrenewed.before
  | wake lease cap stage hstage hdue hwake =>
    rcases wake_cases hwake with ⟨found, -, rfl⟩ | ⟨-, -, rfl⟩ | ⟨-, -, -, rfl⟩ |
      ⟨hnone, hgoing, hbefore, rfl⟩
    · have hdecided := (finish_decided config ⟨lease, reported found, .completed⟩).1
      exact Bool.noConfusion (hdecided.symm.trans hafter)
    · exact Bool.noConfusion hafter
    · exact Bool.noConfusion hafter
    · refine ⟨hunrenewed.before, fun current hrunning ↦ hunrenewed.lease current ?_,
        fun current other heq ↦ absurd heq (by simp), fun current other heq ↦ ?_⟩
      · rw [hstage]
        exact hrunning
      · obtain ⟨rfl, rfl⟩ : lease = current ∧ cap = other := by
          simpa using heq
        obtain ⟨hcap, -⟩ := hunrenewed.watching lease cap hstage
        rw [clock_enter, due_enter, dueAt_extending_of_nonpos hbeat]
        exact ⟨hcap, by linarith, hunrenewed.before hnone, hbefore⟩
  | answer lease cap renewal hstage hpositive => exact absurd hpositive (not_lt.mpr hbeat)
  | giveUp lease cap hstage hdue =>
    have hold := hunrenewed.lease lease (by rw [hstage]; rfl)
    obtain ⟨hcap, hnow, hdone, hover⟩ := hunrenewed.extending lease cap hstage
    dsimp only [Supervisor.beat] at hafter ⊢
    split_ifs at hafter ⊢ with hexpired
    · exact Bool.noConfusion hafter
    · refine ⟨hunrenewed.before, fun current hrunning ↦ Option.some.inj hrunning ▸ hold,
        fun current other heq ↦ ?_, fun current other heq ↦ absurd heq (by simp)⟩
      obtain ⟨rfl, rfl⟩ : lease = current ∧ cap = other := by
        simpa using heq
      rw [clock_enter, due_enter, dueAt_of_nonpos hbeat]
      exact ⟨hcap, by linarith, by linarith, by linarith⟩
  | graceElapsed lease ending hstage => exact Bool.noConfusion hafter
  | gone lease ending collected hstage =>
    exact Bool.noConfusion ((stopped_decided config lease ending collected).symm.trans hafter)

section Unrenewed

variable (hroom : delay + handedOver pace span + killTime config pace < config.lease ∨
  delay + config.solveTimeout + 2 * pace.late + killTime config pace ≤ config.lease)

include hroom

/-- While the solve is watched the lease has not lapsed. -/
theorem Unrenewed.current (hunrenewed : Unrenewed config pace time delay span watch)
    (hundecided : watch.stage.undecided = true) {lease : Lease}
    (hrunning : watch.stage.running = some lease) : watch.clock < lease.expiresAt := by
  have hlate := pace.late_nonneg
  have hkill := late_lt_killTime config pace
  have hlease := hunrenewed.lease lease hrunning
  cases hstage : watch.stage with
  | watching other cap =>
    obtain ⟨hcap, hclock, hdone, hover⟩ := hunrenewed.watching other cap hstage
    rcases hroom with hroom | hroom
    · linarith
    · linarith
  | extending other cap =>
    obtain ⟨hcap, hclock, hdone, hover⟩ := hunrenewed.extending other cap hstage
    rcases hroom with hroom | hroom
    · linarith
    · linarith
  | _ => exact absurd hundecided (by simp [hstage, Stage.undecided])

end Unrenewed

/-! ### Every run -/

theorem Kept.cons {next : Watch} {events : List Event}
    (hpromised : Promised config pace time span watch event)
    (hstep : watch.step config pace event = some next)
    (hkept : Kept config pace time span next events) :
    Kept config pace time span watch (event :: events) := by
  refine ⟨hpromised, fun after h ↦ ?_⟩
  rw [hstep] at h
  exact Option.some.inj h ▸ hkept

/-- A run that keeps to the promises comes to a lease that is not defended. -/
def Lapses (config : WorkerConfig) (pace : Pace) (time : Instant) (span : Duration)
    (watch : Watch) : Prop :=
  ∃ events after, Kept config pace time span watch events ∧
    watch.steps config pace events = some after ∧ ¬Defended after

theorem Lapses.now (h : ¬Defended watch) : Lapses config pace time span watch :=
  ⟨[], watch, trivial, rfl, h⟩

theorem Lapses.cons (event : Event) (hpromised : Promised config pace time span watch event)
    (hstep : watch.step config pace event = some after)
    (h : Lapses config pace time span after) : Lapses config pace time span watch := by
  obtain ⟨events, last, hkept, hsteps, hlapsed⟩ := h
  refine ⟨event :: events, last, .cons hpromised hstep hkept, ?_, hlapsed⟩
  rw [steps, hstep, Option.bind_some]
  exact hsteps

/-- Some time passes, or none. -/
theorem Lapses.wait (duration : Duration) (hduration : 0 ≤ duration)
    (hrunning : watch.stage.running ≠ none)
    (hdue : watch.clock + duration ≤ watch.due + pace.late)
    (hpromised : Promised config pace time span watch (.tick duration))
    (h : Lapses config pace time span { watch with clock := watch.clock + duration }) :
    Lapses config pace time span watch := by
  rcases hduration.lt_or_eq with hpositive | rfl
  · exact h.cons (.tick duration) hpromised
      (if_pos ⟨hpositive, Option.isSome_iff_ne_none.mpr hrunning, hdue⟩)
  · rwa [add_zero] at h

section

variable {clock cap due : Instant} {lease : Lease}

end

/-- The worker is stopped after a heartbeat, and the child ignores the SIGTERM. -/
def released : List Event :=
  [.tick (seconds 21), .wake, .answer (.renewed (leaseUntil (seconds 81))), .tick (seconds 20),
    .stop, .tick (seconds 1), .wake, .tick (seconds 6), .graceElapsed]

end Abacus.Worker.Watch
