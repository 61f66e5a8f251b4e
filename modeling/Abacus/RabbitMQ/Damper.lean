import Abacus.Damping.Ledger
import Abacus.RabbitMQ.Sweep
import Mathlib.Algebra.Order.Group.Int

/-!
# The republish damper

`_sweep` offers a lapsed job again unless it did so less than `_republish_quiet` ago, and keeps the
times at which it did in `_republished`. `Maintenance` is a queue object whose maintenance loop
makes one pass after another, with any other methods in between; beside the channel it notes the
pass in progress, the time the pass read, the jobs it was given, and every republish that succeeded.
None of this is read by a step.

`_republished` is a damper in the sense of `Abacus.Damping`: its times are those of the successful
republishes (`Damped.ledger`). `republish_damper` is what follows for every run whose passes read
times at least a maintenance interval apart: two republishes of a job are at least
`_REPUBLISH_QUIET_PASSES` intervals apart, a pass that runs to its end has republished every job it
was given that had not been republished for that long, and leaves exactly the jobs republished
within that time in `_republished`. The time of a pass is what it reads after `retire_lapsed`; its
start may be earlier, and between the starts the law fails (`republished_three_intervals_later`).
-/

set_option autoImplicit false
set_option relaxedAutoImplicit false

namespace Abacus.RabbitMQ

open Damping (Ledger damps)

/-! ### A maintenance loop -/

/-- A queue object with its maintenance loop. -/
structure Maintenance where
  channel : Channel
  /-- The task of the pass in progress. -/
  pass : Option ℕ
  /-- The time that the latest pass read. -/
  clock : Option Instant
  /-- The lapsed jobs that the latest pass was given. -/
  listed : List Uuid
  /-- The republishes of lapsed jobs that succeeded, with the times of their passes. -/
  republishes : List (Uuid × Instant)

namespace Maintenance

/-- The loop before its first pass. -/
def new : Maintenance where
  channel := .new
  pass := none
  clock := none
  listed := []
  republishes := []

/-- The stretch of code that the pass in progress goes on with, if the action lets it go on: the
place it waited at, the reply, and where it comes to. -/
def stretch (config : Config) (state : Maintenance) : Action → Option (Frame × Reply × Next)
  | .resume task time =>
    match state.channel.tasks task with
    | some ⟨frame, some reply⟩ =>
      if state.pass = some task then
        some (frame, reply, (state.channel.consumer.resume config time frame reply).2)
      else none
    | _ => none
  | _ => none

/-- The time that a stretch of a pass reads: before it lists the lapsed jobs. -/
def read : Frame × Reply × Next → Option Instant
  | (.sweepRetire, _, .suspend (.sweepLapsed now)) => some now
  | (.sweepRetireSettle _ _, _, .suspend (.sweepLapsed now)) => some now
  | _ => none

/-- What a pass was given, what it published and what it reads are noted, and its end. -/
def note (state : Maintenance) : Frame × Reply × Next → Maintenance
  | (frame, reply, next) =>
    { state with
      pass :=
        match next with
        | .suspend _ => state.pass
        | .finish _ => none
      clock := (read (frame, reply, next)).or state.clock
      listed :=
        match frame, reply with
        | .sweepLapsed _, .returned (.jobIds ids) => ids
        | _, _ => state.listed
      republishes :=
        match frame, reply with
        | .sweepRepublish jobId _ now, .published => state.republishes ++ [(jobId, now)]
        | _, _ => state.republishes }

/-- The loop starts a pass when the one before is over. -/
def starts (state : Maintenance) : Action → Option Maintenance
  | .start task .sweep _ =>
    if state.pass = none then some { state with pass := some task } else none
  | _ => some state

/-- One step; `none` when it cannot happen. -/
def step (config : Config) (state : Maintenance) (action : Action) : Option Maintenance :=
  (state.channel.step config action).bind fun channel ↦
    (state.starts action).map fun started ↦
      { ((state.stretch config action).elim started started.note) with channel := channel }

/-- A pass reads a time that is at least an interval after the one that the pass before read. -/
def Spaced (config : Config) (state : Maintenance) (action : Action) : Prop :=
  ∀ last ∈ state.clock, ∀ now ∈ (state.stretch config action).bind read,
    last + config.maintenanceInterval ≤ now

instance (config : Config) (state : Maintenance) (action : Action) :
    Decidable (state.Spaced config action) :=
  inferInstanceAs (Decidable (∀ last ∈ state.clock,
    ∀ now ∈ (state.stretch config action).bind read, last + config.maintenanceInterval ≤ now))

/-- A run of the loop. -/
inductive Run (config : Config) : Maintenance → Prop
  | new : Run config .new
  | step {state after : Maintenance} (before : Run config state) (action : Action)
      (hspaced : state.Spaced config action) (hstep : state.step config action = some after) :
    Run config after

/-- Several steps of a run, one after another. -/
def steps (config : Config) (state : Maintenance) : List Action → Option Maintenance
  | [] => some state
  | action :: actions =>
    if state.Spaced config action then
      (state.step config action).bind fun state ↦ state.steps config actions
    else none

theorem Run.steps {config : Config} {state after : Maintenance} {actions : List Action}
    (h : Run config state) (hsteps : state.steps config actions = some after) :
    Run config after := by
  induction actions generalizing state with
  | nil =>
    rw [← Option.some.inj hsteps]
    exact h
  | cons action actions ih =>
    simp only [Maintenance.steps] at hsteps
    split_ifs at hsteps with hspaced
    obtain ⟨middle, hstep, hrest⟩ := Option.bind_eq_some_iff.mp hsteps
    exact ih (.step h action hspaced hstep) hrest

/-- The action lets the pass in progress run to its end. -/
def Completes (config : Config) (state : Maintenance) (action : Action) : Prop :=
  ∃ frame reply, state.stretch config action = some (frame, reply, .finish .unit)

end Maintenance

/-! ### Methods that are no pass -/

/-- What a stretch of code that belongs to no pass does: it leaves `_republished` alone. -/
structure Leaves (before : Consumer) (result : Consumer × Next) : Prop where
  republished : result.1.republished = before.republished
  sweeps : ∀ frame, result.2 = .suspend frame → frame.sweeps = false

namespace Leaves

variable {consumer : Consumer}

theorem suspend {frame : Frame} (h : frame.sweeps = false) :
    Leaves consumer (consumer, .suspend frame) where
  republished := rfl
  sweeps := by
    intro found hfound
    rw [← Next.suspend.inj hfound]
    exact h

theorem finish (result : Result) : Leaves consumer (consumer, .finish result) where
  republished := rfl
  sweeps := by simp

theorem of_republished {before : Consumer} {result : Consumer × Next} (h : Leaves consumer result)
    (hsame : consumer.republished = before.republished) : Leaves before result where
  republished := h.republished.trans hsame
  sweeps := h.sweeps

end Leaves

namespace Consumer

variable {consumer : Consumer}

theorem release_republished (consumer : Consumer) (jobId : Uuid) (leaseId : Option Uuid) :
    (consumer.release jobId leaseId).1.republished = consumer.republished := by
  unfold release
  split
  · rfl
  · split <;> rfl

/-- `_release` and what follows it. -/
theorem releaseThen_leaves {jobId : Uuid} {leaseId : Option Uuid} {settle : Message → Frame}
    {rest : Consumer → Consumer × Next} (hsettle : ∀ message, (settle message).sweeps = false)
    (hrest : ∀ released : Consumer, released.republished = consumer.republished →
      Leaves released (rest released)) :
    Leaves consumer (consumer.releaseThen jobId leaseId settle rest) := by
  have hsame := consumer.release_republished jobId leaseId
  unfold releaseThen
  generalize consumer.release jobId leaseId = released at hsame
  obtain ⟨after, message⟩ := released
  cases message with
  | some message => exact (Leaves.suspend (hsettle message)).of_republished hsame
  | none => exact (hrest after hsame).of_republished hsame

theorem received_leaves {message : Message} {deadline : Instant} {owner : String}
    {lease : Duration} : Leaves consumer (consumer.received message deadline owner lease) := by
  unfold received
  split
  · exact .suspend rfl
  · exact .finish _

theorem nextDelivery_leaves {time deadline : Instant} {owner : String} {lease : Duration} :
    Leaves consumer (consumer.nextDelivery time deadline owner lease) := by
  unfold nextDelivery
  split
  · exact received_leaves.of_republished rfl
  · split
    · exact .finish _
    · exact .suspend rfl

theorem reoffer_leaves {job : Job} {retryIn : Option Duration} :
    Leaves consumer (consumer.reoffer job retryIn) := by
  unfold reoffer
  split
  · exact .suspend rfl
  · exact .finish _

/-- A method that is no pass, up to its first `await`. -/
theorem start_leaves {time : Instant} {call : Call} (hcall : call ≠ .sweep) :
    Leaves consumer (consumer.start time call) := by
  cases call with
  | reserve owner lease waitFor => exact nextDelivery_leaves
  | discard lease => exact releaseThen_leaves (fun _ ↦ rfl) fun _ _ ↦ .finish _
  | sweep => exact absurd rfl hcall
  | _ => exact .suspend rfl

/-- A method that is no pass, from one `await` to the next. -/
theorem resume_leaves {config : Config} {time : Instant} {frame : Frame} {reply : Reply}
    (hframe : frame.sweeps = false) :
    Leaves consumer (consumer.resume config time frame reply) := by
  unfold resume
  split
  all_goals first
    | exact .suspend rfl
    | exact .suspend hframe
    | exact Bool.noConfusion hframe
    | exact .finish _
    | exact nextDelivery_leaves
    | exact reoffer_leaves
    | exact releaseThen_leaves (fun _ ↦ rfl) fun _ _ ↦ .finish _
    | exact releaseThen_leaves (fun _ ↦ rfl) fun _ _ ↦ reoffer_leaves
    | skip
  · split
    · exact .suspend rfl
    · exact .finish _
  · split
    · exact received_leaves.of_republished rfl
    · exact .suspend rfl
  · exact (Leaves.finish _).of_republished rfl

end Consumer

/-! ### The pass in progress -/

/-- A lapsed job that a pass has dealt with: it was republished at the time of the pass, or less
than `_republish_quiet` before. -/
def Handled (quiet : Duration) (now : Instant) (republishes : List (Uuid × Instant))
    (jobId : Uuid) : Prop :=
  ∃ time, (jobId, time) ∈ republishes ∧ (time = now ∨ now - time < quiet)

/-- The pass that read this time has these jobs left of those it was given. -/
def Maintenance.Left (quiet : Duration) (state : Maintenance) (now : Instant) (rest : List Uuid) :
    Prop :=
  state.clock = some now ∧
    ∃ done, state.listed = done ++ rest ∧
      ∀ jobId ∈ done, Handled quiet now state.republishes jobId

/-- What is true where a pass waits. -/
def Frame.Stage (quiet : Duration) (recent : Uuid → Option Instant) (state : Maintenance) :
    Frame → Prop
  | .sweepLapsed now => state.clock = some now
  | .sweepLapsedSettle _ jobId rest now => state.Left quiet now (jobId :: rest)
  | .sweepRepublish jobId rest now =>
    state.Left quiet now (jobId :: rest) ∧ damps quiet recent now jobId = false
  | .sweepUnpublished now => state.Left quiet now []
  | .sweepOrphanPublish _ _ now => state.Left quiet now []
  | .sweepOrphanMark _ _ now => state.Left quiet now []
  | _ => True

/-- What a stretch of a pass leaves: `_republished` is still the memory of a damper, and the pass
waits where it should or is over. -/
structure Onward (quiet : Duration) (noted : Maintenance) (result : Consumer × Next) : Prop where
  ledger : Ledger quiet result.1.republished noted.republishes noted.clock
  stage : ∀ frame, result.2 = .suspend frame →
    frame.sweeps = true ∧ frame.Stage quiet result.1.republished noted

/-- A job that the damper holds back was republished less than `_republish_quiet` ago. -/
theorem handled_of_damps {quiet : Duration} {recent : Uuid → Option Instant}
    {republishes : List (Uuid × Instant)} {clock : Option Instant} {now : Instant} {jobId : Uuid}
    (h : Ledger quiet recent republishes clock) (hdamps : damps quiet recent now jobId = true) :
    Handled quiet now republishes jobId := by
  obtain ⟨last, hlast, hquiet⟩ := (Option.any_eq_true _ _).mp hdamps
  exact ⟨last, (h.latest jobId last hlast).1, Or.inr (of_decide_eq_true hquiet)⟩

/-- A pass that has dealt with a job goes on to the next. -/
theorem Maintenance.Left.next {quiet : Duration} {state : Maintenance} {now : Instant}
    {jobId : Uuid} {rest : List Uuid} (h : state.Left quiet now (jobId :: rest))
    (hhandled : Handled quiet now state.republishes jobId) : state.Left quiet now rest := by
  obtain ⟨hclock, done, hlisted, hdone⟩ := h
  refine ⟨hclock, done ++ [jobId], by simp [hlisted], fun other hother ↦ ?_⟩
  rcases List.mem_append.mp hother with hother | hother
  · exact hdone other hother
  · rw [List.mem_singleton.mp hother]
    exact hhandled

/-- A pass that has republished a job notes it and goes on to the next. -/
theorem Maintenance.Left.record {quiet : Duration} {state noted : Maintenance} {now : Instant}
    {jobId : Uuid} {rest : List Uuid} (h : state.Left quiet now (jobId :: rest))
    (hclock : noted.clock = state.clock) (hlisted : noted.listed = state.listed)
    (hrepublishes : noted.republishes = state.republishes ++ [(jobId, now)]) :
    noted.Left quiet now rest := by
  obtain ⟨hnow, done, hdone, hhandled⟩ := h
  have hnoted : noted.Left quiet now (jobId :: rest) := by
    refine ⟨hclock.trans hnow, done, hlisted.trans hdone, fun other hother ↦ ?_⟩
    obtain ⟨time, hmem, htime⟩ := hhandled other hother
    exact ⟨time, by rw [hrepublishes]; exact List.mem_append_left _ hmem, htime⟩
  exact hnoted.next ⟨now, by simp [hrepublishes], Or.inl rfl⟩

namespace Onward

variable {config : Config} {quiet : Duration} {noted : Maintenance} {consumer : Consumer}
  {now : Instant}

theorem suspend (h : Ledger quiet consumer.republished noted.republishes noted.clock)
    {frame : Frame} (hsweeps : frame.sweeps = true)
    (hstage : frame.Stage quiet consumer.republished noted) :
    Onward quiet noted (consumer, .suspend frame) where
  ledger := h
  stage := by
    intro found hfound
    rw [← Next.suspend.inj hfound]
    exact ⟨hsweeps, hstage⟩

theorem finish (h : Ledger quiet consumer.republished noted.republishes noted.clock)
    (result : Result) : Onward quiet noted (consumer, .finish result) where
  ledger := h
  stage := by simp

/-- An exception ends the pass, and it notes nothing. -/
theorem raised {state : Maintenance} {frame : Frame}
    (h : Ledger quiet consumer.republished state.republishes state.clock) :
    Onward quiet (state.note (frame, .raised, .finish .raised)) (consumer, .finish .raised) := by
  have hrepublishes : (state.note (frame, .raised, .finish .raised)).republishes =
      state.republishes := by
    cases frame <;> rfl
  have hclock : (state.note (frame, .raised, .finish .raised)).clock = state.clock := by
    cases frame <;> rfl
  apply finish
  rw [hrepublishes, hclock]
  exact h

/-- The first loop reads the time when it is through. -/
theorem retireLoop {time : Instant} {ids : List Uuid}
    (h : Ledger quiet consumer.republished noted.republishes noted.clock)
    (hclock : (consumer.retireLoop time ids).2 = .suspend (.sweepLapsed time) →
      noted.clock = some time) :
    Onward quiet noted (consumer.retireLoop time ids) := by
  induction ids generalizing consumer with
  | nil => exact suspend h rfl (hclock rfl)
  | cons jobId rest ih =>
    have hsame := consumer.release_republished jobId none
    unfold Consumer.retireLoop at hclock ⊢
    generalize consumer.release jobId none = released at hsame hclock
    obtain ⟨after, message⟩ := released
    have hledger : Ledger quiet after.republished noted.republishes noted.clock := by
      rw [hsame]
      exact h
    cases message with
    | some message => exact suspend hledger rfl trivial
    | none => exact ih hledger hclock

/-- A stretch of the first loop, which reads the time if it is through. -/
theorem retiring {state : Maintenance} {frame : Frame} {reply : Reply} {time : Instant}
    {ids : List Uuid} (hframe : frame = .sweepRetire ∨
      ∃ message rest, frame = .sweepRetireSettle message rest)
    (h : Ledger quiet consumer.republished state.republishes state.clock)
    (hlater : ∀ last now, state.clock = some last →
      Maintenance.read (frame, reply, (consumer.retireLoop time ids).2) = some now → last ≤ now) :
    Onward quiet (state.note (frame, reply, (consumer.retireLoop time ids).2))
      (consumer.retireLoop time ids) := by
  have hrepublishes : ∀ next, (state.note (frame, reply, next)).republishes =
      state.republishes := by
    intro next
    rcases hframe with rfl | ⟨message, rest, rfl⟩ <;> rfl
  have hread : Maintenance.read (frame, reply, .suspend (.sweepLapsed time)) = some time := by
    rcases hframe with rfl | ⟨message, rest, rfl⟩ <;> rfl
  apply retireLoop
  · rw [hrepublishes]
    show Ledger _ _ _ ((Maintenance.read (frame, reply, _)).or state.clock)
    cases hnow : Maintenance.read (frame, reply, (consumer.retireLoop time ids).2) with
    | none => exact h
    | some now => exact h.later fun last hlast ↦ hlater last now hlast hnow
  · intro hnext
    show (Maintenance.read (frame, reply, _)).or state.clock = some time
    rw [hnext, hread]
    rfl

/-- The second loop offers the first job that is not damped, or is through. -/
theorem lapsedLoop {ids : List Uuid}
    (h : Ledger config.republishQuiet consumer.republished noted.republishes noted.clock)
    (hleft : noted.Left config.republishQuiet now ids) :
    Onward config.republishQuiet noted (consumer.lapsedLoop config now ids) := by
  induction ids generalizing consumer with
  | nil => exact suspend h rfl hleft
  | cons jobId rest ih =>
    have hsame := consumer.release_republished jobId none
    unfold Consumer.lapsedLoop
    generalize consumer.release jobId none = released at hsame
    obtain ⟨after, message⟩ := released
    have hledger : Ledger config.republishQuiet after.republished noted.republishes
        noted.clock := by
      rw [hsame]
      exact h
    cases message with
    | some message => exact suspend hledger rfl hleft
    | none =>
      dsimp only
      split
      · rename_i hdamped
        exact ih hledger (hleft.next (handled_of_damps hledger hdamped))
      · rename_i hfree
        exact suspend hledger rfl ⟨hleft, Bool.eq_false_iff.mpr hfree⟩

theorem offer {jobId : Uuid} {rest : List Uuid}
    (h : Ledger config.republishQuiet consumer.republished noted.republishes noted.clock)
    (hleft : noted.Left config.republishQuiet now (jobId :: rest)) :
    Onward config.republishQuiet noted (consumer.offer config now jobId rest) := by
  unfold Consumer.offer
  split
  · rename_i hdamped
    exact lapsedLoop h (hleft.next (handled_of_damps h hdamped))
  · rename_i hfree
    exact suspend h rfl ⟨hleft, Bool.eq_false_iff.mpr hfree⟩

/-- The third loop prunes `_republished` when it is through. -/
theorem orphanLoop {ids : List Uuid}
    (h : Ledger config.republishQuiet consumer.republished noted.republishes noted.clock)
    (hleft : noted.Left config.republishQuiet now []) :
    Onward config.republishQuiet noted (consumer.orphanLoop config now ids) := by
  cases ids with
  | nil =>
    have hpruned : Ledger config.republishQuiet (consumer.prune config now).republished
        noted.republishes noted.clock := by
      rw [hleft.1] at h ⊢
      exact h.prune
    exact finish hpruned .unit
  | cons jobId rest => exact suspend h rfl hleft

end Onward

/-- What a pass does from one `await` to the next. -/
theorem Consumer.resume_onward {config : Config} {state : Maintenance} {consumer : Consumer}
    {time : Instant} {frame : Frame} {reply : Reply} (hsweeps : frame.sweeps = true)
    (h : Ledger config.republishQuiet consumer.republished state.republishes state.clock)
    (hstage : frame.Stage config.republishQuiet consumer.republished state)
    (hlater : ∀ last now, state.clock = some last →
      Maintenance.read (frame, reply, (consumer.resume config time frame reply).2) = some now →
      last ≤ now) :
    Onward config.republishQuiet
      (state.note (frame, reply, (consumer.resume config time frame reply).2))
      (consumer.resume config time frame reply) := by
  cases frame with
  | sweepRetire =>
    cases reply with
    | returned outcome =>
      cases outcome with
      | jobIds ids => exact Onward.retiring (Or.inl rfl) h hlater
      | _ => exact Onward.suspend h rfl trivial
    | raised => exact Onward.raised h
    | _ => exact Onward.suspend h rfl trivial
  | sweepRetireSettle message rest =>
    cases reply with
    | settled => exact Onward.retiring (Or.inr ⟨message, rest, rfl⟩) h hlater
    | raised => exact Onward.raised h
    | _ => exact Onward.suspend h rfl trivial
  | sweepLapsed now =>
    cases reply with
    | returned outcome =>
      cases outcome with
      | jobIds ids => exact Onward.lapsedLoop h ⟨hstage, [], rfl, by simp⟩
      | _ => exact Onward.suspend h rfl hstage
    | raised => exact Onward.raised h
    | _ => exact Onward.suspend h rfl hstage
  | sweepLapsedSettle message jobId rest now =>
    cases reply with
    | settled => exact Onward.offer h hstage
    | raised => exact Onward.raised h
    | _ => exact Onward.suspend h rfl hstage
  | sweepRepublish jobId rest now =>
    cases reply with
    | published =>
      obtain ⟨hleft, hfree⟩ := hstage
      have hrecorded : Ledger config.republishQuiet
          (Function.update consumer.republished jobId (some now))
          (state.republishes ++ [(jobId, now)]) state.clock := by
        rw [hleft.1] at h ⊢
        exact h.record hfree
      exact Onward.lapsedLoop hrecorded (hleft.record rfl rfl rfl)
    | raised => exact Onward.raised h
    | _ => exact Onward.suspend h rfl hstage
  | sweepUnpublished now =>
    cases reply with
    | returned outcome =>
      cases outcome with
      | jobIds ids => exact Onward.orphanLoop h hstage
      | _ => exact Onward.suspend h rfl hstage
    | raised => exact Onward.raised h
    | _ => exact Onward.suspend h rfl hstage
  | sweepOrphanPublish jobId rest now =>
    cases reply with
    | raised => exact Onward.raised h
    | _ => exact Onward.suspend h rfl hstage
  | sweepOrphanMark jobId rest now =>
    cases reply with
    | returned outcome => exact Onward.orphanLoop h hstage
    | raised => exact Onward.raised h
    | _ => exact Onward.suspend h rfl hstage
  | _ => exact absurd hsweeps (by simp [Frame.sweeps])

/-! ### Whole runs -/

/-- The invariant of a maintenance loop: `_republished` is the memory of a damper, and the pass in
progress is the only task at a place of `_sweep` and is where it should be. -/
structure Damped (config : Config) (state : Maintenance) : Prop where
  ledger : Ledger config.republishQuiet state.channel.consumer.republished state.republishes
    state.clock
  passes : ∀ task frame reply, state.channel.tasks task = some ⟨frame, reply⟩ →
    frame.sweeps = true → state.pass = some task
  stage : ∀ task, state.pass = some task → ∃ frame reply,
    state.channel.tasks task = some ⟨frame, reply⟩ ∧ frame.sweeps = true ∧
      frame.Stage config.republishQuiet state.channel.consumer.republished state

section Run

variable {config : Config} {state after : Maintenance}

theorem damped_new (config : Config) : Damped config .new where
  ledger := .empty
  passes := by simp [Maintenance.new, Channel.new]
  stage := by simp [Maintenance.new]

/-- A step that leaves `_republished` and the places of `_sweep` alone. -/
theorem Damped.quiet (h : Damped config state) {channel : Channel}
    (hsame : channel.consumer.republished = state.channel.consumer.republished)
    (hpasses : ∀ task frame reply, channel.tasks task = some ⟨frame, reply⟩ →
      frame.sweeps = true → ∃ earlier, state.channel.tasks task = some ⟨frame, earlier⟩)
    (hkept : ∀ task frame reply, state.channel.tasks task = some ⟨frame, reply⟩ →
      frame.sweeps = true → ∃ later, channel.tasks task = some ⟨frame, later⟩) :
    Damped config { state with channel := channel } where
  ledger := by
    show Ledger _ channel.consumer.republished _ _
    rw [hsame]
    exact h.ledger
  passes := by
    intro task frame reply htask hsweeps
    obtain ⟨earlier, hearlier⟩ := hpasses task frame reply htask hsweeps
    exact h.passes task frame earlier hearlier hsweeps
  stage := by
    intro task hpass
    obtain ⟨frame, reply, htask, hsweeps, hstage⟩ := h.stage task hpass
    obtain ⟨later, hlater⟩ := hkept task frame reply htask hsweeps
    refine ⟨frame, later, hlater, hsweeps, ?_⟩
    show frame.Stage _ channel.consumer.republished _
    rw [hsame]
    exact hstage

/-- A reply comes to a method. -/
theorem Damped.reply (h : Damped config state) {channel : Channel} {task : ℕ} {frame : Frame}
    {earlier later : Option Reply} (htask : state.channel.tasks task = some ⟨frame, earlier⟩)
    (hconsumer : channel.consumer = state.channel.consumer)
    (htasks : channel.tasks = Function.update state.channel.tasks task (some ⟨frame, later⟩)) :
    Damped config { state with channel := channel } := by
  apply h.quiet (by rw [hconsumer])
  · intro other found reply hother _
    rcases Channel.eq_some_of_update htasks hother with ⟨rfl, hset⟩ | ⟨-, hold⟩
    · obtain ⟨rfl, -⟩ := Task.mk.inj (Option.some.inj hset)
      exact ⟨earlier, htask⟩
    · exact ⟨reply, hold⟩
  · intro other found reply hother _
    rw [htasks]
    by_cases hsame : other = task
    · subst hsame
      obtain ⟨rfl, -⟩ := Task.mk.inj (Option.some.inj (htask.symm.trans hother))
      exact ⟨later, Function.update_self _ _ _⟩
    · exact ⟨reply, by rw [Function.update_of_ne hsame, hother]⟩

/-- A method that is no pass runs to its next `await`. -/
theorem Damped.leaves (h : Damped config state) {task : ℕ} {result : Consumer × Next}
    (hfree : ∀ frame reply, state.channel.tasks task = some ⟨frame, reply⟩ → frame.sweeps = false)
    (hleaves : Leaves state.channel.consumer result) :
    Damped config { state with channel := state.channel.proceed task result } := by
  apply h.quiet hleaves.republished
  · intro other frame reply hother hsweeps
    rcases Channel.proceed_eq_some hother with ⟨-, found, hnext, hnew⟩ | ⟨-, hold⟩
    · obtain ⟨rfl, -⟩ := Task.mk.inj hnew
      exact Bool.noConfusion ((hleaves.sweeps _ hnext).symm.trans hsweeps)
    · exact ⟨reply, hold⟩
  · intro other frame reply hother hsweeps
    have hne : other ≠ task := by
      rintro rfl
      exact Bool.noConfusion ((hfree frame reply hother).symm.trans hsweeps)
    exact ⟨reply, (Channel.setTask_of_ne hne).trans hother⟩

/-- The loop starts a pass. -/
theorem Damped.start (h : Damped config state) {task : ℕ} {time : Instant}
    (hpass : state.pass = none) :
    Damped config { state with
      pass := some task
      channel := state.channel.proceed task (state.channel.consumer.start time .sweep) } where
  ledger := h.ledger
  passes := by
    intro other frame reply hother hsweeps
    rcases Channel.proceed_eq_some hother with ⟨rfl, -⟩ | ⟨-, hold⟩
    · rfl
    · exact absurd ((h.passes other frame reply hold hsweeps).symm.trans hpass) (by simp)
  stage := by
    intro other hother
    obtain rfl := Option.some.inj hother
    refine ⟨.sweepRetire, none, ?_, rfl, trivial⟩
    simp [Channel.proceed, Consumer.start, Next.task]

/-- The pass in progress goes on. -/
theorem Damped.pass (h : Damped config state) (hinterval : 0 < config.maintenanceInterval)
    {task : ℕ} {time : Instant} {frame : Frame} {reply : Reply}
    (htask : state.channel.tasks task = some ⟨frame, some reply⟩)
    (hpass : state.pass = some task)
    (hspaced : state.Spaced config (.resume task time)) :
    Damped config
      { state.note (frame, reply, (state.channel.consumer.resume config time frame reply).2) with
        channel := state.channel.proceed task
          (state.channel.consumer.resume config time frame reply) } := by
  obtain ⟨found, earlier, hfound, hsweeps, hstage⟩ := h.stage task hpass
  obtain ⟨rfl, -⟩ := Task.mk.inj (Option.some.inj (htask.symm.trans hfound))
  have hstretch : state.stretch config (.resume task time) =
      some (frame, reply, (state.channel.consumer.resume config time frame reply).2) := by
    simp [Maintenance.stretch, htask, hpass]
  have hlater : ∀ last now, state.clock = some last →
      Maintenance.read (frame, reply,
        (state.channel.consumer.resume config time frame reply).2) = some now → last ≤ now := by
    intro last now hlast hnow
    have hgap := hspaced last hlast now (by rw [hstretch]; exact hnow)
    exact (le_add_of_nonneg_right hinterval.le).trans hgap
  have honward := Consumer.resume_onward hsweeps h.ledger hstage hlater
  generalize state.channel.consumer.resume config time frame reply = result at honward
  obtain ⟨consumer, next⟩ := result
  constructor
  · exact honward.ledger
  · intro other place answer hother hplace
    rcases Channel.proceed_eq_some hother with ⟨rfl, found, hnext, -⟩ | ⟨hne, hold⟩
    · obtain rfl : next = .suspend found := hnext
      exact hpass
    · have hown := h.passes other place answer hold hplace
      exact absurd (Option.some.inj (hown.symm.trans hpass)) hne
  · intro other hother
    cases next with
    | suspend next =>
      obtain rfl := Option.some.inj (hpass.symm.trans hother)
      obtain ⟨hplace, hreached⟩ := honward.stage next rfl
      refine ⟨next, none, ?_, hplace, hreached⟩
      simp [Channel.proceed, Next.task]
    | finish value => exact absurd hother (by simp [Maintenance.note])

/-- A step of the loop keeps the invariant. -/
theorem Damped.step (h : Damped config state) (hinterval : 0 < config.maintenanceInterval)
    {action : Action} (hspaced : state.Spaced config action)
    (hstep : state.step config action = some after) : Damped config after := by
  obtain ⟨channel, hchannel, hnoted⟩ := Option.bind_eq_some_iff.mp hstep
  obtain ⟨started, hstarted, rfl⟩ := Option.map_eq_some_iff.mp hnoted
  rcases Channel.step_cases hchannel with ⟨body, rfl, rfl⟩ | ⟨task, call, time, rfl, hfree, rfl⟩ |
    ⟨task, reply, frame, earlier, rfl, htask, -, -, rfl⟩ |
    ⟨task, frame, message, rfl, htask, -, rfl⟩ | ⟨task, time, frame, reply, rfl, htask, rfl⟩
  · obtain rfl := Option.some.inj hstarted
    exact h.quiet rfl (fun _ _ reply htask _ ↦ ⟨reply, htask⟩)
      fun _ _ reply htask _ ↦ ⟨reply, htask⟩
  · by_cases hcall : call = .sweep
    · subst hcall
      dsimp only [Maintenance.starts] at hstarted
      split_ifs at hstarted with hpass
      obtain rfl := Option.some.inj hstarted
      exact h.start hpass
    · have hsame : state = started := by
        cases call with
        | sweep => exact absurd rfl hcall
        | _ => exact Option.some.inj hstarted
      subst hsame
      exact h.leaves (fun _ _ htask ↦ absurd htask (by simp [hfree])) (Consumer.start_leaves hcall)
  · obtain rfl := Option.some.inj hstarted
    exact h.reply htask rfl rfl
  · obtain rfl := Option.some.inj hstarted
    exact h.reply htask rfl rfl
  · obtain rfl := Option.some.inj hstarted
    by_cases hpass : state.pass = some task
    · have hafter := h.pass hinterval htask hpass hspaced
      simpa only [Maintenance.stretch, htask, if_pos hpass, Option.elim_some] using hafter
    · have hnot : frame.sweeps = false := by
        rw [Bool.eq_false_iff]
        exact fun hsweeps ↦ hpass (h.passes task frame _ htask hsweeps)
      have hfree : ∀ found earlier, state.channel.tasks task = some ⟨found, earlier⟩ →
          found.sweeps = false := by
        intro found earlier hfound
        obtain ⟨rfl, -⟩ := Task.mk.inj (Option.some.inj (htask.symm.trans hfound))
        exact hnot
      have hleaves : Leaves state.channel.consumer
          (state.channel.consumer.resume config time frame reply) := Consumer.resume_leaves hnot
      have hafter := h.leaves hfree hleaves
      simpa only [Maintenance.stretch, htask, if_neg hpass, Option.elim_none] using hafter

theorem Maintenance.Run.damped (hinterval : 0 < config.maintenanceInterval)
    (h : Maintenance.Run config state) : Damped config state := by
  induction h with
  | new => exact damped_new config
  | step _ action hspaced hstep ih => exact ih.step hinterval hspaced hstep

/-! ### The theorem -/

theorem Consumer.retireLoop_suspends (consumer : Consumer) (time : Instant) (ids : List Uuid) :
    ∃ frame, (consumer.retireLoop time ids).2 = .suspend frame := by
  induction ids generalizing consumer with
  | nil => exact ⟨_, rfl⟩
  | cons jobId rest ih =>
    unfold Consumer.retireLoop
    split
    · exact ⟨_, rfl⟩
    · exact ih _

theorem Consumer.lapsedLoop_suspends (consumer : Consumer) (now : Instant) (ids : List Uuid) :
    ∃ frame, (consumer.lapsedLoop config now ids).2 = .suspend frame := by
  induction ids generalizing consumer with
  | nil => exact ⟨_, rfl⟩
  | cons jobId rest ih =>
    unfold Consumer.lapsedLoop
    split
    · exact ⟨_, rfl⟩
    · split
      · exact ih _
      · exact ⟨_, rfl⟩

theorem Consumer.offer_suspends (consumer : Consumer) (now : Instant) (jobId : Uuid)
    (rest : List Uuid) : ∃ frame, (consumer.offer config now jobId rest).2 = .suspend frame := by
  unfold Consumer.offer
  split
  · exact consumer.lapsedLoop_suspends now rest
  · exact ⟨_, rfl⟩

/-- A stretch of a pass that ends it without an exception has nothing left to go through, and prunes
`_republished`. -/
theorem Consumer.resume_completes {consumer : Consumer} {time : Instant} {frame : Frame}
    {reply : Reply} {quiet : Duration} {recent : Uuid → Option Instant}
    (hsweeps : frame.sweeps = true) (hstage : frame.Stage quiet recent state)
    (hends : (consumer.resume config time frame reply).2 = .finish .unit) :
    ∃ now, state.Left quiet now [] ∧
      (consumer.resume config time frame reply).1 = consumer.prune config now ∧
      (state.note (frame, reply, .finish .unit)).republishes = state.republishes := by
  have hnot : ∀ {next : Next}, (∃ frame, next = .suspend frame) → next ≠ .finish .unit := by
    rintro _ ⟨place, rfl⟩ heq
    exact Next.noConfusion heq
  have horphan : ∀ now ids, state.Left quiet now [] →
      (consumer.orphanLoop config now ids).2 = .finish .unit →
      state.Left quiet now [] ∧
        (consumer.orphanLoop config now ids).1 = consumer.prune config now := by
    intro now ids hleft hloop
    cases ids with
    | nil => exact ⟨hleft, rfl⟩
    | cons jobId rest => exact Next.noConfusion hloop
  cases frame with
  | sweepRetire =>
    cases reply with
    | returned outcome =>
      cases outcome with
      | jobIds ids => exact absurd hends (hnot (consumer.retireLoop_suspends time ids))
      | _ => exact Next.noConfusion hends
    | raised => exact Result.noConfusion (Next.finish.inj hends)
    | _ => exact Next.noConfusion hends
  | sweepRetireSettle message rest =>
    cases reply with
    | settled => exact absurd hends (hnot (consumer.retireLoop_suspends time rest))
    | raised => exact Result.noConfusion (Next.finish.inj hends)
    | _ => exact Next.noConfusion hends
  | sweepLapsed now =>
    cases reply with
    | returned outcome =>
      cases outcome with
      | jobIds ids => exact absurd hends (hnot (consumer.lapsedLoop_suspends now ids))
      | _ => exact Next.noConfusion hends
    | raised => exact Result.noConfusion (Next.finish.inj hends)
    | _ => exact Next.noConfusion hends
  | sweepLapsedSettle message jobId rest now =>
    cases reply with
    | settled => exact absurd hends (hnot (consumer.offer_suspends now jobId rest))
    | raised => exact Result.noConfusion (Next.finish.inj hends)
    | _ => exact Next.noConfusion hends
  | sweepRepublish jobId rest now =>
    cases reply with
    | published => exact absurd hends (hnot (Consumer.lapsedLoop_suspends _ now rest))
    | raised => exact Result.noConfusion (Next.finish.inj hends)
    | _ => exact Next.noConfusion hends
  | sweepUnpublished now =>
    cases reply with
    | returned outcome =>
      cases outcome with
      | jobIds ids =>
        obtain ⟨hleft, hpruned⟩ := horphan now ids hstage hends
        exact ⟨now, hleft, hpruned, rfl⟩
      | _ => exact Next.noConfusion hends
    | raised => exact Result.noConfusion (Next.finish.inj hends)
    | _ => exact Next.noConfusion hends
  | sweepOrphanPublish jobId rest now =>
    cases reply with
    | raised => exact Result.noConfusion (Next.finish.inj hends)
    | _ => exact Next.noConfusion hends
  | sweepOrphanMark jobId rest now =>
    cases reply with
    | returned outcome =>
      obtain ⟨hleft, hpruned⟩ := horphan now rest hstage hends
      exact ⟨now, hleft, hpruned, rfl⟩
    | raised => exact Result.noConfusion (Next.finish.inj hends)
    | _ => exact Next.noConfusion hends
  | _ => exact Bool.noConfusion hsweeps

/-- A pass that runs to its end has nothing left to go through, and prunes `_republished`. -/
theorem Damped.completes (h : Damped config state) {action : Action} {frame : Frame}
    {reply : Reply} (hstep : state.step config action = some after)
    (hstretch : state.stretch config action = some (frame, reply, .finish .unit)) :
    ∃ now, state.Left config.republishQuiet now [] ∧
      after.channel.consumer.republished =
        Damping.prune config.republishQuiet state.channel.consumer.republished now ∧
      after.republishes = state.republishes := by
  obtain ⟨channel, hchannel, hnoted⟩ := Option.bind_eq_some_iff.mp hstep
  obtain ⟨started, hstarted, rfl⟩ := Option.map_eq_some_iff.mp hnoted
  cases action with
  | resume task time =>
    obtain rfl := Option.some.inj hstarted
    have hgoes : ∃ place answer, state.channel.tasks task = some ⟨place, some answer⟩ ∧
        state.pass = some task ∧
        (place, answer, (state.channel.consumer.resume config time place answer).2) =
          (frame, reply, Next.finish .unit) := by
      dsimp only [Maintenance.stretch] at hstretch
      split at hstretch
      · rename_i place answer htask
        split_ifs at hstretch with hpass
        exact ⟨place, answer, htask, hpass, Option.some.inj hstretch⟩
      · exact absurd hstretch (by simp)
    obtain ⟨place, answer, htask, hpass, heq⟩ := hgoes
    obtain ⟨rfl, hrest⟩ := Prod.mk.inj heq
    obtain ⟨rfl, hends⟩ := Prod.mk.inj hrest
    obtain ⟨found, earlier, hfound, hsweeps, hstage⟩ := h.stage task hpass
    obtain ⟨rfl, -⟩ := Task.mk.inj (Option.some.inj (htask.symm.trans hfound))
    obtain ⟨now, hleft, hpruned, hrepublishes⟩ :=
      Consumer.resume_completes hsweeps hstage hends
    have hproceed : channel = state.channel.proceed task
        (state.channel.consumer.resume config time place answer) := by
      simp only [Channel.step, htask, Option.some.injEq] at hchannel
      exact hchannel.symm
    refine ⟨now, hleft, ?_, ?_⟩
    · show channel.consumer.republished = _
      rw [hproceed]
      show (state.channel.consumer.resume config time place answer).1.republished = _
      rw [hpruned]
      rfl
    · rw [hstretch]
      exact hrepublishes
  | _ => exact absurd hstretch (by simp [Maintenance.stretch])

/-- For every run of the maintenance loop whose passes read times at least an interval apart, with
any listings, any failures and any other methods in between: two successful republishes of a job are
at least `_REPUBLISH_QUIET_PASSES` intervals apart; and a pass that runs to its end, at the time
`now` that it read, has republished every lapsed job it was given whose republishes before are all
that long ago, forgets no time that would damp a republish from then on, and leaves exactly the jobs
republished within that time. -/
theorem republish_damper (hinterval : 0 < config.maintenanceInterval)
    (hrun : Maintenance.Run config state) :
    (state.republishes.Pairwise fun first second ↦ first.1 = second.1 →
      config.maintenanceInterval * republishQuietPasses ≤ second.2 - first.2) ∧
    ∀ {action : Action} {after : Maintenance}, state.step config action = some after →
      state.Completes config action →
      ∃ now, state.clock = some now ∧
        (∀ jobId ∈ state.listed, (∀ time < now, (jobId, time) ∈ state.republishes →
            config.republishQuiet ≤ now - time) → (jobId, now) ∈ state.republishes) ∧
        (∀ jobId time, state.channel.consumer.republished jobId = some time →
          after.channel.consumer.republished jobId = none →
            ∀ later, now ≤ later → config.republishQuiet ≤ later - time) ∧
        ∀ jobId time, after.channel.consumer.republished jobId = some time ↔
          (jobId, time) ∈ after.republishes ∧ now - time < config.republishQuiet := by
  have hdamped := hrun.damped hinterval
  refine ⟨hdamped.ledger.spaced, ?_⟩
  rintro action after hstep ⟨frame, reply, hstretch⟩
  obtain ⟨now, hleft, hpruned, hrepublishes⟩ := hdamped.completes hstep hstretch
  obtain ⟨hclock, done, hlisted, hhandled⟩ := hleft
  have hledger := hdamped.ledger
  rw [hclock] at hledger
  refine ⟨now, hclock, ?_, ?_, ?_⟩
  · intro jobId hjob hlong
    rw [hlisted, List.append_nil] at hjob
    obtain ⟨time, hmem, rfl | hquiet⟩ := hhandled jobId hjob
    · exact hmem
    · obtain ⟨clock, hsame, hpast⟩ := hledger.past _ hmem
      obtain rfl := Option.some.inj hsame
      rcases hpast.eq_or_lt with heq | hbefore
      · exact heq ▸ hmem
      · exact absurd (hlong time hbefore hmem) (not_le.mpr hquiet)
  · intro jobId time hheld hgone later hlater
    rw [hpruned] at hgone
    have hfree := hledger.quiet_le_of_free (Damping.Ledger.damps_eq_false_of_prune hgone)
      (hledger.latest jobId time hheld).1
    exact hfree.trans (sub_le_sub_right hlater time)
  · intro jobId time
    rw [hpruned, hrepublishes]
    exact hledger.mem_prune_iff jobId time

end Run

/-- A pass that is given one lapsed job and leaves it alone: it starts at a time and reads the clock
later, when `retire_lapsed` has answered. -/
def silentPass (start now : Instant) : List Action :=
  [.start 0 .sweep start, .answer 0 (.returned (.jobIds [])), .resume 0 now,
    .answer 0 (.returned (.jobIds [⟨1⟩])), .resume 0 now, .answer 0 (.returned (.jobIds [])),
    .resume 0 now]

/-- A pass that republishes its job, up to its last step. -/
def offeringPass (start now : Instant) : List Action :=
  [.start 0 .sweep start, .answer 0 (.returned (.jobIds [])), .resume 0 now,
    .answer 0 (.returned (.jobIds [⟨1⟩])), .resume 0 now, .answer 0 .published, .resume 0 now,
    .answer 0 (.returned (.jobIds []))]

/-- Four passes with an interval of 10. The last one waits from 30 to 40 for `retire_lapsed`. -/
def fourPasses : List Action :=
  offeringPass 0 0 ++ .resume 0 0 :: silentPass 10 10 ++ silentPass 20 20 ++ offeringPass 30 40

/-- The law at work: of the four passes the first and the last republish the job, at 0 and at 40,
and the last leaves the latter time in `_republished`. -/
theorem republish_damper_twice :
    ∃ state after : Maintenance,
      Maintenance.new.steps ⟨1, 10, 30⟩ fourPasses = some state ∧
        state.step ⟨1, 10, 30⟩ (.resume 0 40) = some after ∧
        state.republishes = [(⟨1⟩, 0), (⟨1⟩, 40)] ∧
        (10 : Duration) * republishQuietPasses ≤ (40 : Instant) - 0 ∧
        (after.channel.consumer.republished ⟨1⟩ = some 40 ↔
          (⟨1⟩, 40) ∈ after.republishes ∧ (40 : Instant) - 40 < 40) := by
  obtain ⟨state, after, hsteps, hlast, hends, hclock, hrepublishes⟩ :
      ∃ state after : Maintenance,
        Maintenance.new.steps ⟨1, 10, 30⟩ fourPasses = some state ∧
          state.step ⟨1, 10, 30⟩ (.resume 0 40) = some after ∧
          state.Completes ⟨1, 10, 30⟩ (.resume 0 40) ∧ state.clock = some 40 ∧
          state.republishes = [(⟨1⟩, 0), (⟨1⟩, 40)] :=
    ⟨_, _, rfl, rfl, ⟨_, _, rfl⟩, rfl, rfl⟩
  obtain ⟨hspaced, hpasses⟩ := republish_damper (by decide : (0 : Duration) < 10)
    (Maintenance.Run.new.steps hsteps)
  obtain ⟨now, hnow, -, -, hexact⟩ := hpasses hlast hends
  obtain rfl : now = 40 := Option.some.inj (hnow.symm.trans hclock)
  rw [hrepublishes, List.pairwise_pair] at hspaced
  exact ⟨state, after, hsteps, hlast, hrepublishes, hspaced rfl, hexact ⟨1⟩ 40⟩

/-- The times at which passes start. -/
def passStarts (actions : List Action) : List Instant :=
  actions.filterMap fun action ↦
    match action with
    | .start _ .sweep time => some time
    | _ => none

/-- The republishes that actions lead to, each with the start of its pass; `started` is the start
of the pass in progress. -/
def republishStarts (config : Config) (state : Maintenance) (started : Instant) :
    List Action → List (Uuid × Instant)
  | [] => []
  | action :: actions =>
    match state.step config action with
    | none => []
    | some after =>
      (after.republishes.drop state.republishes.length).map
        (fun republish ↦ (republish.1, started)) ++
        republishStarts config after ((passStarts [action]).head?.getD started) actions

/-- Between the starts of the passes the distance may be smaller: the passes start an interval
apart, and a job is republished by the first and by the fourth, which are three intervals apart. The
pass takes its time after `retire_lapsed`, for which the fourth waited. -/
theorem republished_three_intervals_later :
    (passStarts fourPasses).Pairwise (fun first second ↦ first + 10 ≤ second) ∧
      (Maintenance.new.steps ⟨1, 10, 30⟩ fourPasses).isSome ∧
      republishStarts ⟨1, 10, 30⟩ .new 0 fourPasses = [(⟨1⟩, 0), (⟨1⟩, 30)] ∧
      (30 : Instant) - 0 < (10 : Duration) * republishQuietPasses :=
  ⟨by decide, rfl, rfl, by decide⟩

end Abacus.RabbitMQ
