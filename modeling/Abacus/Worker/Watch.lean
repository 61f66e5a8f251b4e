import Abacus.Worker.Supervisor
import Mathlib.Tactic.Linarith

/-!
# The loop of `_supervise` on a clock

`Supervisor.resume` says where `_supervise` goes from one wait to the next. `Watch` is the same loop
with the time that passes: each wait is over at the latest when its timer fires (`Watch.due`), and
earlier when the solve or the stop event is done, or the call of `extend` is answered. The timeout
of `asyncio.wait` is the heartbeat or what is left of the cap, whichever is less, and that of
`wait_for` the heartbeat. A timeout that is not positive is over at once, and then `wait_for`
cancels the call before its first step, so `extend` is not called at all.

A `Pace` bounds what the code does not decide: how late the event loop resumes a task whose wait is
over, and how long a killed child takes to die. On a virtual clock nothing is late. `watch_ends` is
about that clock: the loop ends, at the latest a heartbeat after the cap, it does not call the cap
before it is past, and a solve that is done when a wait ends wins over everything else.
-/

set_option autoImplicit false
set_option relaxedAutoImplicit false

namespace Abacus.Worker

/-! ### Where `_supervise` is -/

/-- The loop has not decided how the job ends. -/
def Stage.undecided : Stage → Bool
  | .watching _ _ => true
  | .extending _ _ => true
  | _ => false

/-- How late the loop may resume a task whose wait is over, and how long a child may still be there
after the SIGKILL. -/
structure Pace where
  late : Duration
  dying : Duration
  late_nonneg : 0 ≤ late
  dying_nonneg : 0 ≤ dying

/-- `_supervise` at a moment: `due` is when what it waits for is over at the latest. -/
structure Watch where
  clock : Instant
  stage : Stage
  due : Instant
  collected : Option Collected
  stopping : Bool

namespace Watch

/-- The timeout of the loop's `asyncio.wait`. -/
def timeout (config : WorkerConfig) (clock cap : Instant) : Duration :=
  min config.extendEvery (max (cap - clock) 0)

/-- When a wait that begins now is over at the latest. One whose events are done, or whose timeout
is not positive, is over at once. -/
def dueAt (config : WorkerConfig) (pace : Pace) (watch : Watch) : Stage → Instant
  | .watching _ cap =>
    if watch.collected.isSome || watch.stopping then watch.clock
    else watch.clock + max (timeout config watch.clock cap) 0
  | .extending _ _ => watch.clock + max config.extendEvery 0
  | .stopping _ _ => watch.clock + config.grace
  | .killed _ _ => watch.clock + pace.dying
  | _ => watch.clock

/-- The code goes on to a stage. -/
def enter (config : WorkerConfig) (pace : Pace) (watch : Watch) (stage : Stage) : Watch :=
  { watch with stage := stage, due := watch.dueAt config pace stage }

/-- The start of `_supervise`; the worker may be stopping already. -/
def start (config : WorkerConfig) (pace : Pace) (lease : Lease) (time : Instant)
    (stopping : Bool) : Watch :=
  enter config pace ⟨time, .spawning lease, time, none, stopping⟩
    (.watching lease (time + config.solveTimeout))

/-- An event that the loop waits for has happened. -/
def interrupt (watch : Watch) : Watch :=
  match watch.stage with
  | .watching _ _ => { watch with due := min watch.due watch.clock }
  | _ => watch

/-- What happens. -/
inductive Event
  /-- Time passes. -/
  | tick (duration : Duration)
  /-- The collector is done. -/
  | collect (collected : Collected)
  /-- `stop` is called. -/
  | stop
  /-- The loop's wait ends. -/
  | wake
  /-- The call of `extend` is answered. -/
  | answer (renewal : Renewal)
  /-- `wait_for` gives the call up. -/
  | giveUp
  /-- `_kill` sees that the child is gone. -/
  | gone
  /-- `_kill` has waited for the grace. -/
  | graceElapsed

/-- The code goes on with what its stage waited for. -/
def goOn (config : WorkerConfig) (pace : Pace) (watch : Watch) (input : Input) : Option Watch :=
  (Supervisor.resume config watch.collected watch.stage input).map (watch.enter config pace)

/-- One step; `none` when it cannot happen. -/
def step (config : WorkerConfig) (pace : Pace) (watch : Watch) : Event → Option Watch
  | .tick duration =>
    if 0 < duration ∧ watch.stage.running.isSome ∧
        watch.clock + duration ≤ watch.due + pace.late then
      some { watch with clock := watch.clock + duration }
    else none
  | .collect collected =>
    match watch.collected with
    | none => some { watch with collected := some collected }.interrupt
    | some _ => none
  | .stop => if watch.stopping then none else some { watch with stopping := true }.interrupt
  | .wake =>
    match watch.stage with
    | .watching _ _ =>
      if watch.due ≤ watch.clock then
        watch.goOn config pace (.woke watch.collected.isSome watch.stopping watch.clock)
      else none
    | _ => none
  | .answer renewal =>
    match watch.stage with
    | .extending _ _ =>
      if 0 < config.extendEvery then watch.goOn config pace (.extended renewal watch.clock)
      else none
    | _ => none
  | .giveUp =>
    match watch.stage with
    | .extending _ _ =>
      if watch.due ≤ watch.clock then
        watch.goOn config pace (.extended .unreachable watch.clock)
      else none
    | _ => none
  | .gone =>
    match watch.stage with
    | .stopping _ _ => watch.goOn config pace .collected
    | .killed _ _ => watch.goOn config pace .collected
    | _ => none
  | .graceElapsed =>
    match watch.stage with
    | .stopping _ _ => watch.goOn config pace .graceElapsed
    | _ => none

/-- Several events, one after another. -/
def steps (config : WorkerConfig) (pace : Pace) (watch : Watch) : List Event → Option Watch
  | [] => some watch
  | event :: events =>
    (watch.step config pace event).bind fun watch ↦ watch.steps config pace events

/-! ### What one step does -/

variable {config : WorkerConfig} {pace : Pace} {watch after : Watch} {event : Event}

/-- The steps: what each needs and what it makes of the loop. -/
inductive Moves (config : WorkerConfig) (pace : Pace) (watch : Watch) : Event → Watch → Prop
  | tick (duration : Duration) (hpositive : 0 < duration) (hrunning : watch.stage.running ≠ none)
      (hdue : watch.clock + duration ≤ watch.due + pace.late) :
    Moves config pace watch (.tick duration) { watch with clock := watch.clock + duration }
  | collect (collected : Collected) (hrunning : watch.collected = none) :
    Moves config pace watch (.collect collected)
      { watch with collected := some collected }.interrupt
  | stop (hgoing : watch.stopping = false) :
    Moves config pace watch .stop { watch with stopping := true }.interrupt
  | wake (lease : Lease) (cap : Instant) (stage : Stage)
    (hstage : watch.stage = .watching lease cap)
      (hdue : watch.due ≤ watch.clock)
      (hwake : Supervisor.wake config watch.collected lease cap watch.collected.isSome
        watch.stopping watch.clock = some stage) :
    Moves config pace watch .wake (watch.enter config pace stage)
  | answer (lease : Lease) (cap : Instant) (renewal : Renewal)
      (hstage : watch.stage = .extending lease cap) (hbeat : 0 < config.extendEvery) :
    Moves config pace watch (.answer renewal)
      (watch.enter config pace (Supervisor.beat lease cap renewal watch.clock))
  | giveUp (lease : Lease) (cap : Instant) (hstage : watch.stage = .extending lease cap)
      (hdue : watch.due ≤ watch.clock) :
    Moves config pace watch .giveUp
      (watch.enter config pace (Supervisor.beat lease cap .unreachable watch.clock))
  | graceElapsed (lease : Lease) (ending : Ending) (hstage : watch.stage = .stopping lease ending) :
    Moves config pace watch .graceElapsed (watch.enter config pace (.killed lease ending))
  | gone (lease : Lease) (ending : Ending) (collected : Collected)
      (hstage : watch.stage = .stopping lease ending ∨ watch.stage = .killed lease ending) :
    Moves config pace watch .gone
      (watch.enter config pace (Supervisor.stopped config lease ending collected))

theorem moves_of_step (h : watch.step config pace event = some after) :
    Moves config pace watch event after := by
  cases event with
  | tick duration =>
    dsimp only [step] at h
    split_ifs at h with htick
    obtain rfl := Option.some.inj h
    exact .tick duration htick.1 (Option.isSome_iff_ne_none.mp htick.2.1) htick.2.2
  | collect collected =>
    dsimp only [step] at h
    split at h
    · obtain rfl := Option.some.inj h
      exact .collect collected ‹_›
    · exact absurd h (by simp)
  | stop =>
    dsimp only [step] at h
    split_ifs at h with hstopping
    obtain rfl := Option.some.inj h
    exact .stop (Bool.eq_false_iff.mpr hstopping)
  | wake =>
    dsimp only [step] at h
    split at h
    · rename_i lease cap hstage
      split_ifs at h with hdue
      obtain ⟨stage, hresume, rfl⟩ := Option.map_eq_some_iff.mp h
      rw [hstage] at hresume
      exact .wake lease cap stage hstage hdue hresume
    · exact absurd h (by simp)
  | answer renewal =>
    dsimp only [step] at h
    split at h
    · rename_i lease cap hstage
      split_ifs at h with hbeat
      obtain ⟨stage, hresume, rfl⟩ := Option.map_eq_some_iff.mp h
      rw [hstage] at hresume
      rw [← Option.some.inj hresume]
      exact .answer lease cap renewal hstage hbeat
    · exact absurd h (by simp)
  | giveUp =>
    dsimp only [step] at h
    split at h
    · rename_i lease cap hstage
      split_ifs at h with hdue
      obtain ⟨stage, hresume, rfl⟩ := Option.map_eq_some_iff.mp h
      rw [hstage] at hresume
      rw [← Option.some.inj hresume]
      exact .giveUp lease cap hstage hdue
    · exact absurd h (by simp)
  | gone =>
    have hgone : ∃ lease ending,
        (watch.stage = .stopping lease ending ∨ watch.stage = .killed lease ending) ∧
          watch.goOn config pace .collected = some after := by
      dsimp only [step] at h
      split at h
      · exact ⟨_, _, Or.inl ‹_›, h⟩
      · exact ⟨_, _, Or.inr ‹_›, h⟩
      · exact absurd h (by simp)
    obtain ⟨lease, ending, hstage, hgo⟩ := hgone
    obtain ⟨stage, hresume, rfl⟩ := Option.map_eq_some_iff.mp hgo
    have hstopped : watch.collected.map (Supervisor.stopped config lease ending) = some stage := by
      rcases hstage with hstage | hstage
      · rw [hstage] at hresume
        exact hresume
      · rw [hstage] at hresume
        exact hresume
    obtain ⟨collected, -, rfl⟩ := Option.map_eq_some_iff.mp hstopped
    exact .gone lease ending collected hstage
  | graceElapsed =>
    dsimp only [step] at h
    split at h
    · rename_i lease ending hstage
      obtain ⟨stage, hresume, rfl⟩ := Option.map_eq_some_iff.mp h
      rw [hstage] at hresume
      rw [← Option.some.inj hresume]
      exact .graceElapsed lease ending hstage
    · exact absurd h (by simp)

@[simp] theorem clock_enter (watch : Watch) (stage : Stage) :
    (watch.enter config pace stage).clock = watch.clock :=
  rfl

@[simp] theorem stage_enter (watch : Watch) (stage : Stage) :
    (watch.enter config pace stage).stage = stage :=
  rfl

@[simp] theorem due_enter (watch : Watch) (stage : Stage) :
    (watch.enter config pace stage).due = watch.dueAt config pace stage :=
  rfl

@[simp] theorem stage_interrupt (watch : Watch) : watch.interrupt.stage = watch.stage := by
  unfold interrupt
  split <;> rfl

@[simp] theorem clock_interrupt (watch : Watch) : watch.interrupt.clock = watch.clock := by
  unfold interrupt
  split <;> rfl

@[simp] theorem collected_interrupt (watch : Watch) :
    watch.interrupt.collected = watch.collected := by
  unfold interrupt
  split <;> rfl

@[simp] theorem stopping_interrupt (watch : Watch) :
    watch.interrupt.stopping = watch.stopping := by
  unfold interrupt
  split <;> rfl

/-- An interrupted wait is over, and no other changes. -/
theorem due_interrupt (watch : Watch) :
    watch.interrupt.due = watch.due ∧ (∀ lease cap, watch.stage ≠ .watching lease cap) ∨
      watch.interrupt.due = min watch.due watch.clock ∧
        ∃ lease cap, watch.stage = .watching lease cap := by
  unfold interrupt
  split
  · exact Or.inr ⟨rfl, _, _, ‹_›⟩
  · rename_i hnot
    exact Or.inl ⟨rfl, hnot⟩

/-- The ends of the loop's wait, in their order. -/
theorem wake_cases {collected : Option Collected} {lease : Lease} {cap time : Instant}
    {stopping : Bool} {stage : Stage}
    (h : Supervisor.wake config collected lease cap collected.isSome stopping time = some stage) :
    (∃ found, collected = some found ∧
      stage = Supervisor.finish config ⟨lease, reported found, .completed⟩) ∨
    (collected = none ∧ stopping = true ∧ stage = .stopping lease .released) ∨
    (collected = none ∧ stopping = false ∧ cap ≤ time ∧ stage = .stopping lease .timedOut) ∨
    collected = none ∧ stopping = false ∧ time < cap ∧ stage = .extending lease cap := by
  cases collected with
  | some found => exact Or.inl ⟨found, rfl, (Option.some.inj h).symm⟩
  | none =>
    refine Or.inr ?_
    cases stopping with
    | true => exact Or.inl ⟨rfl, rfl, (Option.some.inj h).symm⟩
    | false =>
      by_cases hcap : cap ≤ time
      · refine Or.inr (Or.inl ⟨rfl, rfl, hcap, ?_⟩)
        simpa [Supervisor.wake, hcap] using h.symm
      · refine Or.inr (Or.inr ⟨rfl, rfl, not_le.mp hcap, ?_⟩)
        simpa [Supervisor.wake, hcap] using h.symm

/-- After `_extend` the loop goes on with the lease it has, or the child is to be stopped. -/
theorem beat_cases (lease : Lease) (cap now : Instant) (renewal : Renewal) :
    (∃ current, Supervisor.beat lease cap renewal now = .watching current cap) ∨
      ∃ current ending, ending ≠ .timedOut ∧
        Supervisor.beat lease cap renewal now = .stopping current ending := by
  cases renewal with
  | stale => exact Or.inr ⟨lease, .stale, by simp, rfl⟩
  | unreachable =>
    by_cases hexpired : lease.expired now = true
    · exact Or.inr ⟨lease, .undefendable, by simp, by simp [Supervisor.beat, hexpired]⟩
    · exact Or.inl ⟨lease, by simp [Supervisor.beat, hexpired]⟩
  | renewed renewed =>
    by_cases hcancel : renewed.job.cancelRequested = true
    · exact Or.inr ⟨renewed, .cancelled, by simp, by simp [Supervisor.beat, hcancel]⟩
    · exact Or.inl ⟨renewed, by simp [Supervisor.beat, hcancel]⟩

/-- Whatever was handled, `_finish` is past the loop. -/
theorem finish_decided (config : WorkerConfig) (handled : Handled) :
    (Supervisor.finish config handled).undecided = false ∧
      (Supervisor.finish config handled).running = none ∧
      (Supervisor.finish config handled).ending = some handled.ending := by
  unfold Supervisor.finish Supervisor.report
  split
  all_goals first
    | exact ⟨rfl, rfl, rfl⟩
    | (split <;> exact ⟨rfl, rfl, rfl⟩)

theorem stopped_decided (config : WorkerConfig) (lease : Lease) (ending : Ending)
    (collected : Collected) :
    (Supervisor.stopped config lease ending collected).undecided = false := by
  cases collected with
  | ok outcome => exact (finish_decided config _).1
  | error error => rfl

/-- The loop does not begin again. -/
theorem undecided_of_step (h : watch.step config pace event = some after)
    (hafter : after.stage.undecided = true) : watch.stage.undecided = true := by
  cases moves_of_step h with
  | tick duration hpositive hrunning hdue => exact hafter
  | collect collected hrunning => simpa using hafter
  | stop hgoing => simpa using hafter
  | wake lease cap stage hstage hdue hwake =>
    rw [hstage]
    rfl
  | answer lease cap renewal hstage hbeat =>
    rw [hstage]
    rfl
  | giveUp lease cap hstage hdue =>
    rw [hstage]
    rfl
  | graceElapsed lease ending hstage => exact Bool.noConfusion hafter
  | gone lease ending collected hstage =>
    exact Bool.noConfusion ((stopped_decided config lease ending collected).symm.trans hafter)

/-! ### The loop on a clock on which nothing is late -/

/-- The cap that the loop goes by. -/
def capOf : Stage → Option Instant
  | .watching _ cap => some cap
  | .extending _ cap => some cap
  | _ => none

/-- The last moment at which a loop that began then may decide. -/
def limit (config : WorkerConfig) (time : Instant) : Instant :=
  time + config.solveTimeout + config.extendEvery

/-- A wait of the loop has not gone on past its end, and its end is no later than a heartbeat after
the cap. -/
structure Timely (config : WorkerConfig) (time : Instant) (watch : Watch) : Prop where
  cap : ∀ cap, capOf watch.stage = some cap → cap = time + config.solveTimeout
  due : watch.stage.undecided = true → watch.clock ≤ watch.due ∧ watch.due ≤ limit config time

/-- The timeout of the loop's wait is positive before the cap, and ends at the cap. -/
theorem timeout_bounds {beat : ℤ} (hbeat : 0 < beat) (clock cap : ℤ) :
    clock ≤ clock + max (min beat (max (cap - clock) 0)) 0 ∧
      clock + max (min beat (max (cap - clock) 0)) 0 ≤ max clock cap ∧
      (clock < cap → clock < clock + max (min beat (max (cap - clock) 0)) 0) := by
  omega

/-- The end of a wait of the loop that begins now. -/
theorem dueAt_watching (hbeat : 0 < config.extendEvery) (pace : Pace) (watch : Watch)
    (lease : Lease) (cap : Instant) :
    watch.clock ≤ watch.dueAt config pace (.watching lease cap) ∧
      watch.dueAt config pace (.watching lease cap) ≤ max watch.clock cap ∧
      (watch.collected = none → watch.stopping = false → watch.clock < cap →
        watch.clock < watch.dueAt config pace (.watching lease cap)) := by
  dsimp only [dueAt]
  by_cases hover : (watch.collected.isSome || watch.stopping) = true
  · rw [if_pos hover]
    refine ⟨le_rfl, le_max_left _ _, fun hnone hgoing ↦ ?_⟩
    simp [hnone, hgoing] at hover
  · rw [if_neg hover, timeout]
    obtain ⟨hlow, hhigh, hlater⟩ := timeout_bounds hbeat watch.clock cap
    exact ⟨hlow, hhigh, fun _ _ ↦ hlater⟩

/-- The wait for `extend` ends a heartbeat after it began. -/
theorem dueAt_extending (hbeat : 0 < config.extendEvery) (watch : Watch) (lease : Lease)
    (cap : Instant) :
    watch.dueAt config pace (.extending lease cap) = watch.clock + config.extendEvery := by
  dsimp only [dueAt]
  rw [max_eq_left hbeat.le]

theorem Timely.start (hbeat : 0 < config.extendEvery) (lease : Lease) (time : Instant)
    (stopping : Bool) : Timely config time (start config pace lease time stopping) where
  cap := fun cap hcap ↦ (Option.some.inj hcap).symm
  due := fun _ ↦ by
    obtain ⟨hclock, hdue, -⟩ := dueAt_watching hbeat pace
      ⟨time, .spawning lease, time, none, stopping⟩ lease (time + config.solveTimeout)
    have hcap : max time (time + config.solveTimeout) ≤ limit config time := by
      have hpositive := config.solveTimeout_pos
      rw [limit]
      exact max_le (by linarith) (by linarith)
    exact ⟨hclock, hdue.trans hcap⟩

/-- The loop goes on from one wait to another, or has decided. -/
theorem Timely.enter_watching {time : Instant} {lease : Lease} {cap : Instant}
    (htimely : Timely config time watch) (hbeat : 0 < config.extendEvery)
    (hundecided : watch.stage.undecided = true) (hcap : cap = time + config.solveTimeout) :
    Timely config time (watch.enter config pace (.watching lease cap)) where
  cap := fun other hother ↦ (Option.some.inj hother).symm.trans hcap
  due := fun _ ↦ by
    obtain ⟨hclock, hdue, -⟩ := dueAt_watching hbeat pace watch lease cap
    have hlimit := (htimely.due hundecided).1.trans (htimely.due hundecided).2
    have hbound : max watch.clock cap ≤ limit config time := by
      refine max_le hlimit ?_
      rw [hcap, limit]
      linarith
    exact ⟨hclock, hdue.trans hbound⟩

theorem Timely.enter_extending {time : Instant} {lease : Lease} {cap : Instant}
    (hbeat : 0 < config.extendEvery) (hcap : cap = time + config.solveTimeout)
    (hbefore : watch.clock < cap) :
    Timely config time (watch.enter config pace (.extending lease cap)) where
  cap := fun other hother ↦ (Option.some.inj hother).symm.trans hcap
  due := fun _ ↦ by
    rw [due_enter, clock_enter, dueAt_extending hbeat, limit]
    exact ⟨by linarith, by linarith⟩

theorem Timely.of_decided {time : Instant} (hdecided : watch.stage.undecided = false) :
    Timely config time watch where
  cap := fun cap hcap ↦ by
    cases hstage : watch.stage <;> simp_all [capOf, Stage.undecided]
  due := fun hundecided ↦ absurd (hdecided.symm.trans hundecided) (by simp)

theorem Timely.interrupt {time : Instant} (htimely : Timely config time watch) :
    Timely config time watch.interrupt where
  cap := by simpa using htimely.cap
  due := fun hundecided ↦ by
    have hdue := htimely.due (by simpa using hundecided)
    rw [clock_interrupt]
    rcases due_interrupt watch with ⟨hsame, -⟩ | ⟨hleast, -⟩
    · exact hsame ▸ hdue
    · rw [hleast]
      exact ⟨le_min hdue.1 le_rfl, (min_le_left _ _).trans hdue.2⟩

/-- One step keeps the waits of the loop in time. -/
theorem Timely.step {time : Instant} (htimely : Timely config time watch)
    (hbeat : 0 < config.extendEvery) (hlate : pace.late = 0)
    (h : watch.step config pace event = some after) : Timely config time after := by
  cases moves_of_step h with
  | tick duration hpositive hrunning hdue =>
    refine ⟨htimely.cap, fun hundecided ↦ ?_⟩
    have := (htimely.due hundecided).2
    rw [hlate, add_zero] at hdue
    exact ⟨hdue, this⟩
  | collect collected hrunning =>
    exact Timely.interrupt ⟨htimely.cap, htimely.due⟩
  | stop hgoing => exact Timely.interrupt ⟨htimely.cap, htimely.due⟩
  | wake lease cap stage hstage hdue hwake =>
    have hcap : cap = time + config.solveTimeout := htimely.cap cap (by rw [hstage]; rfl)
    rcases wake_cases hwake with ⟨found, -, rfl⟩ | ⟨-, -, rfl⟩ | ⟨-, -, -, rfl⟩ |
      ⟨-, -, hbefore, rfl⟩
    · exact .of_decided
        (finish_decided config ⟨lease, reported found, .completed⟩).1
    · exact .of_decided rfl
    · exact .of_decided rfl
    · exact .enter_extending hbeat hcap hbefore
  | answer lease cap renewal hstage _ =>
    have hcap : cap = time + config.solveTimeout := htimely.cap cap (by rw [hstage]; rfl)
    rcases beat_cases lease cap watch.clock renewal with ⟨current, heq⟩ | ⟨current, ending, -, heq⟩
    · rw [heq]
      exact htimely.enter_watching hbeat (by rw [hstage]; rfl) hcap
    · rw [heq]
      exact .of_decided rfl
  | giveUp lease cap hstage hdue =>
    have hcap : cap = time + config.solveTimeout := htimely.cap cap (by rw [hstage]; rfl)
    rcases beat_cases lease cap watch.clock .unreachable with ⟨current, heq⟩ |
      ⟨current, ending, -, heq⟩
    · rw [heq]
      exact htimely.enter_watching hbeat (by rw [hstage]; rfl) hcap
    · rw [heq]
      exact .of_decided rfl
  | graceElapsed lease ending hstage => exact .of_decided rfl
  | gone lease ending collected hstage =>
    exact .of_decided (stopped_decided config lease ending collected)

theorem Timely.steps {time : Instant} (hbeat : 0 < config.extendEvery) (hlate : pace.late = 0) :
    ∀ (events : List Event) {watch after : Watch}, Timely config time watch →
      watch.steps config pace events = some after → Timely config time after := by
  intro events
  induction events with
  | nil =>
    intro watch after htimely h
    exact Option.some.inj h ▸ htimely
  | cons event events ih =>
    intro watch after htimely h
    obtain ⟨next, hnext, hrest⟩ := Option.bind_eq_some_iff.mp h
    exact ih (htimely.step hbeat hlate hnext) hrest

/-! ### The measure that falls -/

/-- How far the loop is in its round: a wait that is over and leads to `extend`, `extend`, and a
wait that is not over or leads out. -/
def phase (watch : Watch) : ℕ :=
  match watch.stage with
  | .watching _ cap =>
    if watch.due ≤ watch.clock ∧ watch.clock < cap ∧ watch.collected = none ∧
        watch.stopping = false then 3
    else 1
  | .extending _ _ => 2
  | _ => 0

/-- What is left of the loop: four steps for each instant up to the limit, and for each event that
may still interrupt it. -/
def remaining (config : WorkerConfig) (time : Instant) (watch : Watch) : ℕ :=
  4 * (limit config time - watch.clock).toNat + (if watch.collected.isSome then 0 else 4) +
    (if watch.stopping then 0 else 4) + watch.phase

theorem phase_le (watch : Watch) : watch.phase ≤ 3 := by
  unfold phase
  split
  · split <;> omega
  · omega
  · omega

theorem phase_pos (hundecided : watch.stage.undecided = true) : 1 ≤ watch.phase := by
  unfold phase
  split
  · split <;> omega
  · omega
  · rename_i hwatching hextending
    cases hstage : watch.stage with
    | watching lease cap => exact absurd hstage (hwatching lease cap)
    | extending lease cap => exact absurd hstage (hextending lease cap)
    | _ => exact absurd hundecided (by simp [hstage, Stage.undecided])

/-- Time that passes takes from what is left, as long as there is some. -/
theorem toNat_sub_add_lt {limit clock duration : ℤ} (hpositive : 0 < duration)
    (hbound : clock + duration ≤ limit) :
    (limit - (clock + duration)).toNat + 1 ≤ (limit - clock).toNat := by
  omega

/-- A wait that begins before the cap with nothing to interrupt it is not over. -/
theorem phase_watching (hbeat : 0 < config.extendEvery) (watch : Watch) (lease : Lease)
    (cap : Instant) : (watch.enter config pace (.watching lease cap)).phase = 1 := by
  refine if_neg fun ⟨hover, hbefore, hnone, hgoing⟩ ↦ ?_
  have hdue := (dueAt_watching hbeat pace watch lease cap).2.2 hnone hgoing hbefore
  exact absurd hover (not_le.mpr hdue)

theorem remaining_enter {time : Instant} {stage : Stage}
    (h : (watch.enter config pace stage).phase < watch.phase) :
    remaining config time (watch.enter config pace stage) < remaining config time watch := by
  show 4 * (limit config time - watch.clock).toNat + (if watch.collected.isSome then 0 else 4) +
      (if watch.stopping then 0 else 4) + (watch.enter config pace stage).phase <
    4 * (limit config time - watch.clock).toNat + (if watch.collected.isSome then 0 else 4) +
      (if watch.stopping then 0 else 4) + watch.phase
  omega

/-- Each step of the loop that does not end it takes from what is left. -/
theorem remaining_lt {time : Instant} (htimely : Timely config time watch)
    (hbeat : 0 < config.extendEvery) (hlate : pace.late = 0)
    (h : watch.step config pace event = some after) (hafter : after.stage.undecided = true) :
    remaining config time after < remaining config time watch := by
  have hundecided := undecided_of_step h hafter
  obtain ⟨hclock, hdueLimit⟩ := htimely.due hundecided
  cases moves_of_step h with
  | tick duration hpositive hrunning hdue =>
    rw [hlate, add_zero] at hdue
    have hphase := phase_le { watch with clock := watch.clock + duration }
    have hbefore := phase_pos hundecided
    have hless := toNat_sub_add_lt hpositive (hdue.trans hdueLimit)
    simp only [remaining]
    omega
  | collect collected hrunning =>
    have hphase := phase_le { watch with collected := some collected }.interrupt
    have hbefore := phase_pos hundecided
    simp only [remaining, clock_interrupt, collected_interrupt, stopping_interrupt, hrunning,
      Option.isSome_none, Option.isSome_some, if_true, Bool.false_eq_true, if_false]
    omega
  | stop hgoing =>
    have hphase := phase_le { watch with stopping := true }.interrupt
    have hbefore := phase_pos hundecided
    simp only [remaining, clock_interrupt, collected_interrupt, stopping_interrupt, hgoing,
      if_true, Bool.false_eq_true, if_false]
    omega
  | wake lease cap stage hstage hdue hwake =>
    rcases wake_cases hwake with ⟨found, -, rfl⟩ | ⟨-, -, rfl⟩ | ⟨-, -, -, rfl⟩ |
      ⟨hnone, hgoing, hbefore, rfl⟩
    · have hdecided := (finish_decided config ⟨lease, reported found, .completed⟩).1
      exact Bool.noConfusion (hdecided.symm.trans hafter)
    · exact Bool.noConfusion hafter
    · exact Bool.noConfusion hafter
    · refine remaining_enter ?_
      have hphase : watch.phase = 3 := by
        simp only [phase, hstage]
        exact if_pos ⟨hdue, hbefore, hnone, hgoing⟩
      rw [hphase]
      exact Nat.lt_succ_self 2
  | answer lease cap renewal hstage _ =>
    have hphase : watch.phase = 2 := by simp only [phase, hstage]
    rcases beat_cases lease cap watch.clock renewal with ⟨current, heq⟩ | ⟨current, ending, -, heq⟩
    · rw [heq]
      refine remaining_enter ?_
      rw [phase_watching hbeat, hphase]
      exact Nat.lt_succ_self 1
    · rw [heq] at hafter
      exact Bool.noConfusion hafter
  | giveUp lease cap hstage hdue =>
    have hphase : watch.phase = 2 := by simp only [phase, hstage]
    rcases beat_cases lease cap watch.clock .unreachable with ⟨current, heq⟩ |
      ⟨current, ending, -, heq⟩
    · rw [heq]
      refine remaining_enter ?_
      rw [phase_watching hbeat, hphase]
      exact Nat.lt_succ_self 1
    · rw [heq] at hafter
      exact Bool.noConfusion hafter
  | graceElapsed lease ending hstage => exact Bool.noConfusion hafter
  | gone lease ending collected hstage =>
    exact Bool.noConfusion ((stopped_decided config lease ending collected).symm.trans hafter)

/-- A run that has not decided has taken one from what was left for each of its steps. -/
theorem remaining_steps {time : Instant} (hbeat : 0 < config.extendEvery)
    (hlate : pace.late = 0) :
    ∀ (events : List Event) {watch after : Watch}, Timely config time watch →
      watch.steps config pace events = some after → after.stage.undecided = true →
      watch.stage.undecided = true ∧
        events.length + remaining config time after ≤ remaining config time watch := by
  intro events
  induction events with
  | nil =>
    intro watch after htimely h hafter
    obtain rfl := Option.some.inj h
    exact ⟨hafter, by simp⟩
  | cons event events ih =>
    intro watch after htimely h hafter
    obtain ⟨next, hnext, hrest⟩ := Option.bind_eq_some_iff.mp h
    obtain ⟨hundecided, hlength⟩ := ih (htimely.step hbeat hlate hnext) hrest hafter
    have hless := remaining_lt htimely hbeat hlate hnext hundecided
    refine ⟨undecided_of_step hnext hundecided, ?_⟩
    rw [List.length_cons]
    omega

/-- The events that need nothing but the clock and the code. -/
def Event.own : Event → Bool
  | .tick _ => true
  | .wake => true
  | .giveUp => true
  | _ => false

/-- A loop that has not decided goes on by itself: its wait is over, or time can pass. -/
theorem own_step {time : Instant} (htimely : Timely config time watch)
    (hlate : pace.late = 0) (hundecided : watch.stage.undecided = true) :
    ∃ event after, event.own = true ∧ watch.step config pace event = some after := by
  have hclock := (htimely.due hundecided).1
  rcases hclock.lt_or_eq with hbefore | hover
  · refine ⟨.tick (watch.due - watch.clock), _, rfl, if_pos ⟨by linarith, ?_, ?_⟩⟩
    · cases hstage : watch.stage with
      | watching lease cap => rfl
      | extending lease cap => rfl
      | _ => exact absurd hundecided (by simp [hstage, Stage.undecided])
    · rw [hlate]
      linarith
  · cases hstage : watch.stage with
    | watching lease cap =>
      have hresume : ∃ stage, Supervisor.wake config watch.collected lease cap
          watch.collected.isSome watch.stopping watch.clock = some stage := by
        cases watch.collected with
        | some found => exact ⟨_, rfl⟩
        | none =>
          cases watch.stopping with
          | true => exact ⟨.stopping lease .released, rfl⟩
          | false =>
            by_cases hcap : cap ≤ watch.clock
            · exact ⟨.stopping lease .timedOut, by simp [Supervisor.wake, hcap]⟩
            · exact ⟨.extending lease cap, by simp [Supervisor.wake, hcap]⟩
      obtain ⟨stage, hstep⟩ := hresume
      refine ⟨.wake, watch.enter config pace stage, rfl, ?_⟩
      simp only [step, hstage, hover.ge, if_true, goOn, Supervisor.resume, hstep, Option.map_some]
    | extending lease cap =>
      refine ⟨.giveUp,
        watch.enter config pace (Supervisor.beat lease cap .unreachable watch.clock), rfl, ?_⟩
      simp only [step, hstage, hover.ge, if_true, goOn, Supervisor.resume, Option.map_some]
    | _ => exact absurd hundecided (by simp [hstage, Stage.undecided])

/-- A step that decides is taken by the limit, and it decides for the cap only past the cap. -/
theorem ending_of_step {time : Instant} (htimely : Timely config time watch)
    (h : watch.step config pace event = some after) (hundecided : watch.stage.undecided = true)
    (hafter : after.stage.undecided = false) :
    ∃ ending, after.stage.ending = some ending ∧ after.clock ≤ limit config time ∧
      (ending = .timedOut → time + config.solveTimeout ≤ after.clock) := by
  have hlimit := (htimely.due hundecided).1.trans (htimely.due hundecided).2
  cases moves_of_step h with
  | tick duration hpositive hrunning hdue =>
    exact Bool.noConfusion (hundecided.symm.trans hafter)
  | collect collected hrunning =>
    rw [stage_interrupt] at hafter
    exact Bool.noConfusion (hundecided.symm.trans hafter)
  | stop hgoing =>
    rw [stage_interrupt] at hafter
    exact Bool.noConfusion (hundecided.symm.trans hafter)
  | wake lease cap stage hstage hdue hwake =>
    have hcap : cap = time + config.solveTimeout := htimely.cap cap (by rw [hstage]; rfl)
    rcases wake_cases hwake with ⟨found, -, rfl⟩ | ⟨-, -, rfl⟩ | ⟨-, -, hover, rfl⟩ |
      ⟨-, -, -, rfl⟩
    · exact ⟨.completed, (finish_decided config ⟨lease, reported found, .completed⟩).2.2,
        hlimit, fun htimedOut ↦ absurd htimedOut (by simp)⟩
    · exact ⟨.released, rfl, hlimit, fun htimedOut ↦ absurd htimedOut (by simp)⟩
    · exact ⟨.timedOut, rfl, hlimit, fun _ ↦ hcap ▸ hover⟩
    · exact Bool.noConfusion hafter
  | answer lease cap renewal hstage _ =>
    rcases beat_cases lease cap watch.clock renewal with ⟨current, heq⟩ |
      ⟨current, ending, hnot, heq⟩
    · rw [heq] at hafter
      exact Bool.noConfusion hafter
    · rw [heq]
      exact ⟨ending, rfl, hlimit, fun htimedOut ↦ absurd htimedOut hnot⟩
  | giveUp lease cap hstage hdue =>
    rcases beat_cases lease cap watch.clock .unreachable with ⟨current, heq⟩ |
      ⟨current, ending, hnot, heq⟩
    · rw [heq] at hafter
      exact Bool.noConfusion hafter
    · rw [heq]
      exact ⟨ending, rfl, hlimit, fun htimedOut ↦ absurd htimedOut hnot⟩
  | graceElapsed lease ending hstage =>
    exact absurd hundecided (by simp [hstage, Stage.undecided])
  | gone lease ending collected hstage =>
    rcases hstage with hstage | hstage
    · exact absurd hundecided (by simp [hstage, Stage.undecided])
    · exact absurd hundecided (by simp [hstage, Stage.undecided])

/-- A wait that ends after the solve is done: the ending is `completed`, with what it ended with. -/
theorem completed_of_wake {found : Collected} (hfound : watch.collected = some found)
    (h : watch.step config pace .wake = some after) :
    ∃ lease cap, watch.stage = .watching lease cap ∧
      after.stage = Supervisor.finish config ⟨lease, reported found, .completed⟩ := by
  cases moves_of_step h with
  | wake lease cap stage hstage hdue hwake =>
    refine ⟨lease, cap, hstage, ?_⟩
    rcases wake_cases hwake with ⟨other, hother, rfl⟩ | ⟨hnone, -⟩ | ⟨hnone, -⟩ | ⟨hnone, -⟩
    · obtain rfl := Option.some.inj (hfound.symm.trans hother)
      rfl
    · exact absurd (hfound.symm.trans hnone) (by simp)
    · exact absurd (hfound.symm.trans hnone) (by simp)
    · exact absurd (hfound.symm.trans hnone) (by simp)

/-- On a clock on which nothing is late, whatever the child, the worker and `extend` do: a run of
the loop that has not decided is not longer than some number, and goes on by itself; it decides at
the latest a heartbeat after the cap, and for the cap not before it is past; and a wait that ends
after the solve is done ends with what the solve ended with. -/
theorem watch_ends (config : WorkerConfig) (hbeat : 0 < config.extendEvery) (pace : Pace)
    (hlate : pace.late = 0) (lease : Lease) (time : Instant) (stopping : Bool) :
    (∃ bound : ℕ, ∀ events watch,
      (start config pace lease time stopping).steps config pace events = some watch →
      watch.stage.undecided = true →
      events.length ≤ bound ∧
        ∃ event after, event.own = true ∧ watch.step config pace event = some after) ∧
    ∀ events watch event after,
      (start config pace lease time stopping).steps config pace events = some watch →
      watch.step config pace event = some after →
      (watch.stage.undecided = true → after.stage.undecided = false →
        ∃ ending, after.stage.ending = some ending ∧
          after.clock ≤ time + config.solveTimeout + config.extendEvery ∧
          (ending = .timedOut → time + config.solveTimeout ≤ after.clock)) ∧
      (event = .wake → ∀ found, watch.collected = some found →
        ∃ current cap, watch.stage = .watching current cap ∧
          after.stage = Supervisor.finish config ⟨current, reported found, .completed⟩) := by
  have hstart : Timely config time (start config pace lease time stopping) :=
    Timely.start hbeat lease time stopping
  constructor
  · refine ⟨remaining config time (start config pace lease time stopping),
      fun events watch hrun hundecided ↦ ⟨?_, ?_⟩⟩
    · have hlength := (remaining_steps hbeat hlate events hstart hrun hundecided).2
      omega
    · exact own_step (hstart.steps hbeat hlate events hrun) hlate hundecided
  · intro events watch event after hrun hstep
    have htimely := hstart.steps hbeat hlate events hrun
    refine ⟨fun hundecided hafter ↦ ending_of_step htimely hstep hundecided hafter, ?_⟩
    rintro rfl found hfound
    exact completed_of_wake hfound hstep

/-! ### One wedged child -/

/-- The settings of a worker whose cap comes before the lease is over. -/
def capConfig : WorkerConfig :=
  { WorkerConfig.defaults with solveTimeout := seconds 50, solveTimeout_pos := by decide }

/-- Nothing is late. -/
def prompt : Pace :=
  ⟨0, seconds 5, le_rfl, by decide⟩

/-- A lease until then. -/
def leaseUntil (expiresAt : Instant) : Lease :=
  ⟨⟨1⟩, ⟨⟨9⟩, "noop", .nil, .running, 1, 3, none, "key", none, none, false⟩, "worker", expiresAt⟩

/-- The second call of `extend` hangs until after the cap. -/
def wedged : List Event :=
  [.tick (seconds 20), .wake, .answer (.renewed (leaseUntil (seconds 80))), .tick (seconds 20),
    .wake, .tick (seconds 20), .giveUp]

/-- A child that never reports is stopped when the hanging `extend` is given up. -/
theorem watch_ends_wedged :
    ∃ watch after,
      (start capConfig prompt (leaseUntil (seconds 60)) 0 false).steps capConfig prompt wedged =
        some watch ∧
      watch.step capConfig prompt .wake = some after ∧
      after.stage = .stopping (leaseUntil (seconds 80)) .timedOut ∧
      ∃ ending, after.stage.ending = some ending ∧
        after.clock ≤ 0 + capConfig.solveTimeout + capConfig.extendEvery ∧
        (ending = .timedOut → 0 + capConfig.solveTimeout ≤ after.clock) := by
  obtain ⟨watch, after, hrun, hstep, hundecided, hafter, hstage⟩ : ∃ watch after,
      (start capConfig prompt (leaseUntil (seconds 60)) 0 false).steps capConfig prompt wedged =
        some watch ∧
      watch.step capConfig prompt .wake = some after ∧ watch.stage.undecided = true ∧
      after.stage.undecided = false ∧
      after.stage = .stopping (leaseUntil (seconds 80)) .timedOut :=
    ⟨_, _, rfl, rfl, rfl, rfl, rfl⟩
  have hends := watch_ends capConfig (by decide) prompt rfl (leaseUntil (seconds 60)) 0 false
  exact ⟨watch, after, hrun, hstep, hstage,
    (hends.2 wedged watch .wake after hrun hstep).1 hundecided hafter⟩

end Watch

end Abacus.Worker
