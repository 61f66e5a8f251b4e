import Abacus.Worker.Children

/-!
# The loop around the turns

`Supervisor.run` makes one turn after another until `stop` is called. A turn that raises is followed
by a sleep, and the test of the loop comes again after it. `Shift` is a fleet whose supervisors run
this loop: what happens in a turn is what happens in the fleet (`Shift.fleet_steps`), a wait sees
the stop event only when it is set, and a worker that crashed is replaced by one that begins its
loop.

A worker watches the child of the turn that it is in, and none between its turns (`Shift.Sound`).

`children` and `failures` are not part of the program: they keep how many children a worker has
started whose collector is not done, and when its turns raised.
-/

set_option autoImplicit false
set_option relaxedAutoImplicit false

namespace Abacus.Worker

/-! ### The loop -/

/-- Where `run` is. -/
inductive LoopPlace
  /-- Before its first turn. -/
  | starting
  /-- In `run_once`. -/
  | turning
  /-- In the sleep after a turn that raised. -/
  | pausing (wakeAt : Instant)
  | returned
  deriving DecidableEq, Repr

/-- A fleet whose supervisors run the loop. -/
structure Shift (Worker : Type) where
  fleet : Fleet Worker
  places : Worker → LoopPlace
  /-- The stop event is set. -/
  stopping : Worker → Bool
  children : Worker → ℕ
  failures : Worker → List Instant

namespace Shift

/-- What happens. -/
inductive Happening (Worker : Type)
  /-- Something in the fleet. -/
  | fleet (event : Event Worker)
  /-- `stop` is called. -/
  | stop (worker : Worker)
  /-- The loop goes on after a turn or a sleep, or begins. -/
  | loop (worker : Worker)

variable {Worker : Type}

/-- No worker has begun. -/
def initial (Worker : Type) : Shift Worker where
  fleet := .initial Worker
  places := fun _ ↦ .starting
  stopping := fun _ ↦ false
  children := fun _ ↦ 0
  failures := fun _ ↦ []

/-- A turn goes on only while `run` is in it, and a wait sees the stop event only when it is set.
The next turn is the loop's. -/
def allows (shift : Shift Worker) : Event Worker → Bool
  | .tick _ => true
  | .client _ => true
  | .store worker _ _ _ _ => shift.places worker = .turning
  | .put worker _ _ => shift.places worker = .turning
  | .child worker _ _ => shift.places worker = .turning
  | .input worker input =>
    decide (shift.places worker = .turning) &&
      match input with
      | .woke _ true _ => shift.stopping worker
      | _ => true
  | .restart _ => false
  | .crash _ => true

variable [DecidableEq Worker]

/-- A table with an entry for each process: that of a crashed one begins anew. -/
def renewed {α : Type} (table : Worker → α) (fresh : α) : Event Worker → Worker → α
  | .crash worker => Function.update table worker fresh
  | _ => table

/-- How many children are watched, after something in the fleet. -/
def watched (shift : Shift Worker) (event : Event Worker) : Worker → ℕ :=
  match event with
  | .input worker (.spawned _) =>
    Function.update shift.children worker (shift.children worker + 1)
  | .child worker _ _ => Function.update shift.children worker (shift.children worker - 1)
  | .crash worker => Function.update shift.children worker 0
  | _ => shift.children

/-- What else changes with the fleet. -/
def follow (shift : Shift Worker) (event : Event Worker) (fleet : Fleet Worker) :
    Shift Worker where
  fleet := fleet
  places := renewed shift.places .starting event
  stopping := renewed shift.stopping false event
  children := shift.watched event
  failures := renewed shift.failures [] event

/-- The test of the loop: `run` returns, or makes its next turn. -/
def test (shift : Shift Worker) (worker : Worker) : Shift Worker :=
  if shift.stopping worker then
    { shift with places := Function.update shift.places worker .returned }
  else
    { shift with
      fleet := shift.fleet.setWorker worker .idle
      places := Function.update shift.places worker .turning }

/-- A turn raised: `run` logs it and sleeps. -/
def fail (config : Worker → WorkerConfig) (shift : Shift Worker) (worker : Worker) :
    Shift Worker :=
  { shift with
    places := Function.update shift.places worker
      (.pausing (shift.fleet.now + (config worker).errorPause))
    failures := Function.update shift.failures worker
      (shift.failures worker ++ [shift.fleet.now]) }

/-- One step; `none` when it cannot happen. -/
def step (config : Worker → WorkerConfig) (owner : Worker → String) (shift : Shift Worker) :
    Happening Worker → Option (Shift Worker)
  | .fleet event =>
    if shift.allows event then (shift.fleet.step config owner event).map (shift.follow event)
    else none
  | .stop worker => some { shift with stopping := Function.update shift.stopping worker true }
  | .loop worker =>
    match shift.places worker with
    | .starting => some (shift.test worker)
    | .turning =>
      match (shift.fleet.workers worker).stage with
      | .finished .raised => some (shift.fail config worker)
      | .finished _ => some (shift.test worker)
      | _ => none
    | .pausing wakeAt => if wakeAt ≤ shift.fleet.now then some (shift.test worker) else none
    | .returned => none

/-- Several steps, one after another. -/
def steps (config : Worker → WorkerConfig) (owner : Worker → String) (shift : Shift Worker) :
    List (Happening Worker) → Option (Shift Worker)
  | [] => some shift
  | happening :: later =>
    (shift.step config owner happening).bind fun shift ↦ shift.steps config owner later

/-! ### What a step can do -/

/-- The loop comes to its test: it begins, its turn returned, or its sleep is over. -/
inductive Tests (shift : Shift Worker) (worker : Worker) : Prop
  | starting (hplace : shift.places worker = .starting)
  | turned (result : Result) (hplace : shift.places worker = .turning)
    (hresult : result ≠ .raised) (hstage : (shift.fleet.workers worker).stage = .finished result)
  | paused (wakeAt : Instant) (hplace : shift.places worker = .pausing wakeAt)
    (hnow : wakeAt ≤ shift.fleet.now)

/-- Every step is of one of these kinds. -/
inductive Moves (config : Worker → WorkerConfig) (owner : Worker → String) (shift : Shift Worker) :
    Happening Worker → Shift Worker → Prop
  | fleet (event : Event Worker) (fleet : Fleet Worker) (hallows : shift.allows event = true)
    (hstep : shift.fleet.step config owner event = some fleet) :
    Moves config owner shift (.fleet event) (shift.follow event fleet)
  | stop (worker : Worker) :
    Moves config owner shift (.stop worker)
      { shift with stopping := Function.update shift.stopping worker true }
  | fail (worker : Worker) (hplace : shift.places worker = .turning)
    (hstage : (shift.fleet.workers worker).stage = .finished .raised) :
    Moves config owner shift (.loop worker) (shift.fail config worker)
  | test (worker : Worker) (htests : shift.Tests worker) :
    Moves config owner shift (.loop worker) (shift.test worker)

variable {config : Worker → WorkerConfig} {owner : Worker → String} {shift after : Shift Worker}

theorem step_moves {happening : Happening Worker}
    (h : shift.step config owner happening = some after) :
    Moves config owner shift happening after := by
  cases happening with
  | fleet event =>
    simp only [step] at h
    split_ifs at h with hallows
    obtain ⟨fleet, hstep, rfl⟩ := Option.map_eq_some_iff.mp h
    exact .fleet event fleet hallows hstep
  | stop worker =>
    rw [← Option.some.inj h]
    exact .stop worker
  | loop worker =>
    simp only [step] at h
    split at h
    · next hplace =>
      rw [← Option.some.inj h]
      exact .test worker (.starting hplace)
    · next hplace =>
      split at h
      · next hstage =>
        rw [← Option.some.inj h]
        exact .fail worker hplace hstage
      · next result hresult hstage =>
        rw [← Option.some.inj h]
        exact .test worker (.turned result hplace hresult hstage)
      · exact absurd h (by simp)
    · next wakeAt hplace =>
      split_ifs at h with hnow
      rw [← Option.some.inj h]
      exact .test worker (.paused wakeAt hplace hnow)
    · exact absurd h (by simp)

end Shift

/-! ### What happens to one supervisor -/

/-- The supervisor that an event is about. -/
def Event.worker {Worker : Type} : Event Worker → Option Worker
  | .tick _ => none
  | .client _ => none
  | .store worker _ _ _ _ => some worker
  | .put worker _ _ => some worker
  | .child worker _ _ => some worker
  | .input worker _ => some worker
  | .restart worker => some worker
  | .crash worker => some worker

/-- What a supervisor may get by an event of its own: only a spawn says that it spawned. -/
def Event.Brings {Worker : Type} (input : Input) : Event Worker → Prop
  | .store _ _ _ _ _ => ∀ time, input ≠ .spawned time
  | .put _ _ _ => ∀ time, input ≠ .spawned time
  | .input _ found => found = input
  | _ => False

/-- What an event makes of one supervisor. -/
inductive Fleet.Makes {Worker : Type} (config : Worker → WorkerConfig) (fleet : Fleet Worker)
    (worker : Worker) : Event Worker → Process → Prop
  | other (event : Event Worker) (hother : event.worker ≠ some worker) :
    Makes config fleet worker event (fleet.workers worker)
  | unheard (jobId drawn : Uuid) (lost : Bool) (clock : Instant) :
    Makes config fleet worker (.store worker jobId drawn lost clock) (fleet.workers worker)
  | resumed (event : Event Worker) (input : Input) (stage : Stage)
    (hworker : event.worker = some worker) (hbrings : event.Brings input)
    (hresume : Supervisor.resume (config worker) (fleet.workers worker).collected
      (fleet.workers worker).stage input = some stage) :
    Makes config fleet worker event ⟨stage, (fleet.workers worker).collected⟩
  | child (read : PipeRead) (exitcode : Int) (lease : Lease)
    (hrunning : (fleet.workers worker).stage.running = some lease)
    (hcollected : (fleet.workers worker).collected = none) :
    Makes config fleet worker (.child worker read exitcode)
      ⟨(fleet.workers worker).stage, some (readAndReap read exitcode)⟩
  | restart : Makes config fleet worker (.restart worker) .idle
  | crash : Makes config fleet worker (.crash worker) .idle

section Makes

variable {Worker : Type} [DecidableEq Worker] {config : Worker → WorkerConfig}
  {owner : Worker → String} {fleet after : Fleet Worker} {worker : Worker}

theorem Fleet.setWorker_makes {caller : Worker} {process : Process} {event : Event Worker}
    (hcaller : event.worker = some caller)
    (hself : caller = worker → fleet.Makes config worker event process) :
    fleet.Makes config worker event ((fleet.setWorker caller process).workers worker) := by
  by_cases hworker : worker = caller
  · subst hworker
    simpa only [setWorker, Function.update_self] using hself rfl
  · have hother : event.worker ≠ some worker := by
      rw [hcaller]
      exact fun hsame ↦ hworker (Option.some.inj hsame).symm
    simpa only [setWorker, Function.update_of_ne hworker] using
      Fleet.Makes.other event hother

theorem Fleet.resume_makes {middle : Fleet Worker} {caller : Worker} {input : Input}
    {event : Event Worker} (h : middle.resume config caller input = some after)
    (hworkers : middle.workers = fleet.workers) (hcaller : event.worker = some caller)
    (hbrings : event.Brings input) :
    fleet.Makes config worker event (after.workers worker) := by
  obtain ⟨stage, hstage, rfl⟩ := Option.map_eq_some_iff.mp h
  rw [hworkers] at hstage
  rw [show (middle.advance caller stage).workers =
      (fleet.setWorker caller ⟨stage, (fleet.workers caller).collected⟩).workers by
    simp only [advance, setWorker, hworkers]]
  refine setWorker_makes hcaller ?_
  rintro rfl
  exact .resumed event input stage hcaller hbrings hstage

omit [DecidableEq Worker] in
theorem Fleet.write_workers (fleet : Fleet Worker) (handled : Handled) (solved : Solved)
    (applied : Bool) : (fleet.write handled solved applied).workers = fleet.workers := by
  simp only [write]

/-- What a supervisor makes of a reply is never that its child was spawned. -/
theorem Stage.reply_ne_spawned {stage : Stage} {lost : Bool} {clock time : Instant}
    {reply : Except Postgres.StoreError Postgres.Outcome} {input : Input}
    (h : (if lost then stage.noReply clock else stage.reply clock reply) = some input) :
    input ≠ .spawned time := by
  rintro rfl
  split at h
  · unfold Stage.noReply at h
    split at h <;> exact absurd h (by simp)
  · unfold Stage.reply at h
    split at h <;> exact absurd h (by simp)

/-- Every step of a fleet makes one of these of each supervisor. -/
theorem Fleet.step_makes {event : Event Worker} (h : fleet.step config owner event = some after)
    (worker : Worker) : fleet.Makes config worker event (after.workers worker) := by
  cases step_moves h with
  | tick duration => exact .other _ (by simp [Event.worker])
  | client operation hclient => exact .other _ (by simp [Event.worker])
  | unheard caller jobId drawn lost clock operation hcall hfresh =>
    by_cases hcaller : caller = worker
    · subst hcaller
      exact .unheard jobId drawn lost clock
    · exact .other _ (by simpa [Event.worker] using hcaller)
  | heard caller jobId drawn lost clock operation input hcall hfresh hinput hresume =>
    exact resume_makes hresume rfl rfl fun _ ↦ Stage.reply_ne_spawned hinput
  | notStored caller applied error handled solved hputting hresume =>
    exact resume_makes hresume (write_workers _ _ _ _) rfl fun _ ↦ by simp
  | stored caller applied handled solved hputting hresume =>
    exact resume_makes hresume (write_workers _ _ _ _) rfl fun _ ↦ by simp
  | child caller read exitcode lease hrunning hcollected =>
    show fleet.Makes config worker _ ((fleet.setWorker caller
      ⟨(fleet.workers caller).stage, some (readAndReap read exitcode)⟩).workers worker)
    refine setWorker_makes rfl ?_
    rintro rfl
    exact .child read exitcode lease hrunning hcollected
  | input caller input hallows hresume => exact resume_makes hresume rfl rfl rfl
  | restart caller =>
    refine setWorker_makes rfl ?_
    rintro rfl
    exact .restart
  | crash caller =>
    refine setWorker_makes rfl ?_
    rintro rfl
    exact .crash

end Makes

/-! ### The child that is watched -/

/-- The child of a turn is watched until its collector is done. -/
def Process.watches (process : Process) : ℕ :=
  if process.stage.running.isSome && process.collected.isNone then 1 else 0

/-- A turn that is past its watch has seen its collector done. -/
def Process.Waited (process : Process) : Prop :=
  process.collected = none → process.stage.running = none → process.stage = .reserving ∨
    (∃ lease, process.stage = .spawning lease) ∨ ∃ result, process.stage = .finished result

/-- A turn begins to watch with the spawn, and watches until the collector is done. -/
theorem Supervisor.resume_running {config : WorkerConfig} {old new : Stage} {input : Input}
    (h : Supervisor.resume config none old input = some new) :
    (new.running.isSome = true ↔ old.running.isSome = true ∨ ∃ time, input = .spawned time) := by
  unfold Supervisor.resume at h
  split at h
  case h_6 lease cap solved stopping time =>
    unfold wake at h
    split_ifs at h
    · exact absurd h (by simp)
    all_goals
      rw [← Option.some.inj h]
      simp [Stage.running]
  case h_7 lease cap renewal clock =>
    rw [← Option.some.inj h]
    unfold beat
    split
    · simp [Stage.running]
    all_goals
      split_ifs
      all_goals simp [Stage.running]
  case h_8 | h_10 | h_21 | h_23 | h_24 => exact absurd h (by simp)
  all_goals
    rw [← Option.some.inj h]
    simp [Stage.running]

/-- Between its turns a worker watches no child. -/
theorem Process.watches_of_over {process : Process}
    (h : process = .idle ∨ ∃ result, process.stage = .finished result) : process.watches = 0 := by
  rcases h with rfl | ⟨result, hstage⟩
  · rfl
  · simp [watches, hstage, Stage.running]

/-- Only a turn that spawns its child hears that it has. -/
theorem Supervisor.resume_spawned {config : WorkerConfig} {collected : Option Collected}
    {old new : Stage} {time : Instant}
    (h : Supervisor.resume config collected old (.spawned time) = some new) :
    ∃ lease, old = .spawning lease ∧ new = .watching lease (time + config.solveTimeout) := by
  cases old with
  | spawning lease => exact ⟨lease, rfl, (Option.some.inj h).symm⟩
  | _ => exact absurd h (by simp [Supervisor.resume])

/-- A turn that goes on, but not from its spawn, watches what it watched. -/
theorem Process.watches_resume {config : WorkerConfig} {process : Process} {input : Input}
    {stage : Stage}
    (h : Supervisor.resume config process.collected process.stage input = some stage)
    (hspawned : ∀ time, input ≠ .spawned time) :
    Process.watches ⟨stage, process.collected⟩ = process.watches := by
  obtain ⟨old, collected⟩ := process
  cases collected with
  | none =>
    have hiff := Supervisor.resume_running h
    rw [or_iff_left (not_exists.mpr hspawned)] at hiff
    simp only [watches, Bool.eq_iff_iff.mpr hiff]
  | some result => simp [watches]

/-- What a turn waited for, it has waited for at its next stage. -/
theorem Process.Waited.resume {config : WorkerConfig} {process : Process} {input : Input}
    {stage : Stage} (h : process.Waited)
    (hresume : Supervisor.resume config process.collected process.stage input = some stage) :
    Process.Waited ⟨stage, process.collected⟩ := by
  intro hcollected hrunning
  obtain ⟨old, collected⟩ := process
  obtain rfl : collected = none := hcollected
  have hold : old.running = none := by
    have hiff := Supervisor.resume_running hresume
    by_contra hsome
    have hnew := hiff.mpr (Or.inl (Option.isSome_iff_ne_none.mpr hsome))
    rw [show stage.running = none from hrunning] at hnew
    exact Bool.noConfusion hnew
  rcases h rfl hold with hstage | ⟨lease, hstage⟩ | ⟨result, hstage⟩
  · obtain rfl : old = .reserving := hstage
    cases input with
    | reserved lease =>
      cases lease with
      | none => exact Or.inr (Or.inr ⟨_, (Option.some.inj hresume).symm⟩)
      | some lease => exact Or.inr (Or.inl ⟨lease, (Option.some.inj hresume).symm⟩)
    | raised => exact Or.inr (Or.inr ⟨_, (Option.some.inj hresume).symm⟩)
    | _ => exact absurd hresume (by simp [Supervisor.resume])
  · obtain rfl : old = .spawning lease := hstage
    cases input with
    | spawned time =>
      obtain rfl := Option.some.inj hresume
      exact absurd hrunning (by simp [Stage.running])
    | raised => exact Or.inr (Or.inr ⟨_, (Option.some.inj hresume).symm⟩)
    | _ => exact absurd hresume (by simp [Supervisor.resume])
  · obtain rfl : old = .finished result := hstage
    exact absurd hresume (by simp [Supervisor.resume])

namespace Shift

variable {Worker : Type} [DecidableEq Worker] {config : Worker → WorkerConfig}
  {owner : Worker → String} {shift after : Shift Worker} {worker : Worker}

/-! ### What holds of the loops -/

/-- The loop is where the turn lets it be, and a worker watches the child of its turn. -/
structure Sound (shift : Shift Worker) : Prop where
  fleet : shift.fleet.Sound
  starting : ∀ worker, shift.places worker = .starting → shift.fleet.workers worker = .idle
  pausing : ∀ worker wakeAt, shift.places worker = .pausing wakeAt →
    ∃ result, (shift.fleet.workers worker).stage = .finished result
  returned : ∀ worker, shift.places worker = .returned → shift.fleet.workers worker = .idle ∨
    ∃ result, (shift.fleet.workers worker).stage = .finished result
  waited : ∀ worker, (shift.fleet.workers worker).Waited
  children : ∀ worker, shift.children worker = (shift.fleet.workers worker).watches

theorem renewed_crash {α : Type} (table : Worker → α) (fresh : α) :
    renewed table fresh (.crash worker) worker = fresh := by
  simp only [renewed, Function.update_self]

theorem renewed_of_ne {α : Type} {table : Worker → α} {fresh : α} {event : Event Worker}
    (h : event ≠ .crash worker) : renewed table fresh event worker = table worker := by
  cases event with
  | crash caller =>
    have hcaller : worker ≠ caller := by
      rintro rfl
      exact h rfl
    exact Function.update_of_ne hcaller fresh table
  | _ => rfl

omit [DecidableEq Worker] in
/-- What is allowed of a worker is in its turn, or is its crash. -/
theorem turning_of_allows {event : Event Worker} (hallows : shift.allows event = true)
    (hworker : event.worker = some worker) :
    shift.places worker = .turning ∨ event = .crash worker := by
  cases event with
  | tick | client => exact absurd hworker (by simp [Event.worker])
  | restart => exact absurd hallows (by simp [allows])
  | crash caller => exact Or.inr (congrArg Event.crash (Option.some.inj hworker))
  | input caller input =>
    obtain rfl := Option.some.inj hworker
    exact Or.inl (of_decide_eq_true (Bool.and_eq_true_iff.mp hallows).1)
  | store caller | put caller | child caller =>
    obtain rfl := Option.some.inj hworker
    exact Or.inl (of_decide_eq_true hallows)

/-- What happens in the fleet leaves a worker in its place, and outside its turn it leaves the
worker; or it is the worker's crash. -/
theorem follow_place {event : Event Worker} {fleet : Fleet Worker}
    (hallows : shift.allows event = true)
    (hstep : shift.fleet.step config owner event = some fleet) (worker : Worker) :
    ((shift.follow event fleet).places worker = shift.places worker ∧
      (shift.places worker ≠ .turning → fleet.workers worker = shift.fleet.workers worker)) ∨
    event = .crash worker ∧ (shift.follow event fleet).places worker = .starting ∧
      fleet.workers worker = .idle := by
  by_cases hcrash : event = .crash worker
  · subst hcrash
    obtain rfl := Option.some.inj hstep
    exact Or.inr ⟨rfl, renewed_crash _ _, by simp only [Fleet.setWorker, Function.update_self]⟩
  · refine Or.inl ⟨renewed_of_ne hcrash, fun hplace ↦ ?_⟩
    have hother : event.worker ≠ some worker := fun hworker ↦
      (turning_of_allows hallows hworker).elim hplace hcrash
    have hmakes := Fleet.step_makes hstep worker
    generalize fleet.workers worker = process at hmakes
    cases hmakes with
    | other => rfl
    | unheard => rfl
    | resumed _ _ _ hworker => exact absurd hworker hother
    | _ => exact absurd rfl hother

/-- What is watched after an event that is about another worker. -/
theorem watched_of_other {event : Event Worker} (hother : event.worker ≠ some worker) :
    shift.watched event worker = shift.children worker := by
  have hne (caller : Worker) (hcaller : event.worker = some caller) : worker ≠ caller := by
    rintro rfl
    exact hother hcaller
  cases event with
  | input caller input =>
    cases input with
    | spawned time => exact Function.update_of_ne (hne caller rfl) _ _
    | _ => rfl
  | child caller => exact Function.update_of_ne (hne caller rfl) _ _
  | crash caller => exact Function.update_of_ne (hne caller rfl) _ _
  | _ => rfl

/-- What is watched after an event that spawns nothing and whose collector ends otherwise. -/
theorem watched_of_brings {event : Event Worker} {input : Input} (hbrings : event.Brings input)
    (hspawned : ∀ time, input ≠ .spawned time) :
    shift.watched event worker = shift.children worker := by
  cases event with
  | input caller found =>
    obtain rfl : found = input := hbrings
    cases found with
    | spawned time => exact absurd rfl (hspawned time)
    | _ => rfl
  | store | put => rfl
  | _ => exact False.elim hbrings

namespace Sound

omit [DecidableEq Worker] in
theorem initial : (Shift.initial Worker).Sound where
  fleet := .initial
  starting _ _ := rfl
  pausing _ _ hplace := nomatch hplace
  returned _ hplace := nomatch hplace
  waited _ _ _ := Or.inl rfl
  children _ := rfl

/-- The count goes with the turn. -/
theorem watched (h : shift.Sound) {event : Event Worker} {fleet : Fleet Worker}
    (hallows : shift.allows event = true)
    (hstep : shift.fleet.step config owner event = some fleet) (worker : Worker) :
    shift.watched event worker = (fleet.workers worker).watches := by
  have hmakes := Fleet.step_makes hstep worker
  have hcount := h.children worker
  generalize fleet.workers worker = process at hmakes
  cases hmakes with
  | other _ hother => rw [watched_of_other hother, hcount]
  | unheard => exact hcount
  | restart => exact Bool.noConfusion hallows
  | crash => simp only [Shift.watched, Function.update_self]; rfl
  | child read exitcode lease hrunning hcollected =>
    simp only [Shift.watched, Function.update_self, hcount]
    simp [Process.watches, hrunning, hcollected]
  | resumed _ input stage hworker hbrings hresume =>
    by_cases hspawned : ∃ time, input = .spawned time
    · obtain ⟨time, rfl⟩ := hspawned
      obtain ⟨lease, hstage, rfl⟩ := Supervisor.resume_spawned hresume
      have hcollected : (shift.fleet.workers worker).collected = none :=
        (h.fleet.processes worker).starting (Or.inr ⟨lease, hstage⟩)
      obtain rfl : event = .input worker (.spawned time) := by
        cases event with
        | input caller found =>
          obtain rfl := Option.some.inj hworker
          exact congrArg (Event.input caller) hbrings
        | store | put => exact absurd rfl (hbrings time)
        | _ => exact False.elim hbrings
      simp only [Shift.watched, Function.update_self, hcount]
      simp [Process.watches, hstage, hcollected, Stage.running]
    · have hnever := not_exists.mp hspawned
      rw [watched_of_brings hbrings hnever, hcount, Process.watches_resume hresume hnever]

/-- Something happens in the fleet. -/
theorem follow (h : shift.Sound) {event : Event Worker} {fleet : Fleet Worker}
    (hallows : shift.allows event = true)
    (hstep : shift.fleet.step config owner event = some fleet) :
    (shift.follow event fleet).Sound where
  fleet := h.fleet.step hstep
  starting worker hplace := by
    rcases follow_place hallows hstep worker with ⟨hsame, hleft⟩ | ⟨-, -, hidle⟩
    · rw [hsame] at hplace
      exact (hleft (by simp [hplace])).trans (h.starting worker hplace)
    · exact hidle
  pausing worker wakeAt hplace := by
    rcases follow_place hallows hstep worker with ⟨hsame, hleft⟩ | ⟨-, hstarting, -⟩
    · rw [hsame] at hplace
      obtain ⟨result, hstage⟩ := h.pausing worker wakeAt hplace
      exact ⟨result, (congrArg Process.stage (hleft (by simp [hplace]))).trans hstage⟩
    · exact nomatch hstarting.symm.trans hplace
  returned worker hplace := by
    rcases follow_place hallows hstep worker with ⟨hsame, hleft⟩ | ⟨-, hstarting, -⟩
    · rw [hsame] at hplace
      show fleet.workers worker = .idle ∨ ∃ result, (fleet.workers worker).stage = .finished result
      rw [hleft (by simp [hplace])]
      exact h.returned worker hplace
    · exact nomatch hstarting.symm.trans hplace
  waited worker := by
    show (fleet.workers worker).Waited
    have hmakes := Fleet.step_makes hstep worker
    generalize fleet.workers worker = process at hmakes
    cases hmakes with
    | other => exact h.waited worker
    | unheard => exact h.waited worker
    | resumed _ input stage hworker hbrings hresume => exact (h.waited worker).resume hresume
    | child => exact fun hnone ↦ nomatch hnone
    | restart => exact fun _ _ ↦ Or.inl rfl
    | crash => exact fun _ _ ↦ Or.inl rfl
  children worker := h.watched hallows hstep worker

omit [DecidableEq Worker] in
/-- At its test the loop is between two turns. -/
theorem between (h : shift.Sound) (htests : shift.Tests worker) :
    shift.fleet.workers worker = .idle ∨
      ∃ result, (shift.fleet.workers worker).stage = .finished result := by
  cases htests with
  | starting hplace => exact Or.inl (h.starting worker hplace)
  | turned result hplace hresult hstage => exact Or.inr ⟨result, hstage⟩
  | paused wakeAt hplace hnow => exact Or.inr (h.pausing worker wakeAt hplace)

/-- One loop comes to another place, at which its worker may be. -/
theorem place (h : shift.Sound) {place : LoopPlace} (hstarting : place ≠ .starting)
    (hover : place ≠ .turning → shift.fleet.workers worker = .idle ∨
      ∃ result, (shift.fleet.workers worker).stage = .finished result)
    (hpausing : ∀ wakeAt, place = .pausing wakeAt →
      ∃ result, (shift.fleet.workers worker).stage = .finished result)
    (hfleet : after.fleet = shift.fleet)
    (hplaces : after.places = Function.update shift.places worker place)
    (hchildren : after.children = shift.children) : after.Sound := by
  have hother (other : Worker) (hne : other ≠ worker) :
      after.places other = shift.places other := by
    rw [hplaces, Function.update_of_ne hne]
  have hself : after.places worker = place := by
    rw [hplaces, Function.update_self]
  constructor
  · exact hfleet ▸ h.fleet
  · intro other hplace
    rw [hfleet]
    by_cases hne : other = worker
    · subst hne
      exact absurd (hself.symm.trans hplace) hstarting
    · exact h.starting other ((hother other hne).symm.trans hplace)
  · intro other wakeAt hplace
    rw [hfleet]
    by_cases hne : other = worker
    · subst hne
      exact hpausing wakeAt (hself.symm.trans hplace)
    · exact h.pausing other wakeAt ((hother other hne).symm.trans hplace)
  · intro other hplace
    rw [hfleet]
    by_cases hne : other = worker
    · subst hne
      exact hover (by rw [hself.symm.trans hplace]; simp)
    · exact h.returned other ((hother other hne).symm.trans hplace)
  · exact hfleet ▸ h.waited
  · rw [hfleet, hchildren]
    exact h.children

/-- A worker begins its next turn. -/
theorem turn (h : shift.Sound) (htests : shift.Tests worker) :
    Shift.Sound { shift with
      fleet := shift.fleet.setWorker worker .idle
      places := Function.update shift.places worker .turning } := by
  have hidle : (shift.fleet.setWorker worker .idle).workers worker = .idle := by
    simp only [Fleet.setWorker, Function.update_self]
  have hother (other : Worker) (hne : other ≠ worker) :
      (shift.fleet.setWorker worker .idle).workers other = shift.fleet.workers other := by
    simp only [Fleet.setWorker, Function.update_of_ne hne]
  have hplace (other : Worker) {place : LoopPlace} (hturning : place ≠ .turning)
      (hfound : Function.update shift.places worker .turning other = place) :
      other ≠ worker ∧ shift.places other = place := by
    by_cases hne : other = worker
    · subst hne
      rw [Function.update_self] at hfound
      exact absurd hfound.symm hturning
    · rw [Function.update_of_ne hne] at hfound
      exact ⟨hne, hfound⟩
  constructor
  · exact h.fleet.idle worker
  · intro other hfound
    obtain ⟨hne, hold⟩ := hplace other (by simp) hfound
    exact (hother other hne).trans (h.starting other hold)
  · intro other wakeAt hfound
    obtain ⟨hne, hold⟩ := hplace other (by simp) hfound
    simp only [hother other hne]
    exact h.pausing other wakeAt hold
  · intro other hfound
    obtain ⟨hne, hold⟩ := hplace other (by simp) hfound
    simp only [hother other hne]
    exact h.returned other hold
  · intro other
    by_cases hne : other = worker
    · subst hne
      simp only [hidle]
      exact fun _ _ ↦ Or.inl rfl
    · simp only [hother other hne]
      exact h.waited other
  · intro other
    by_cases hne : other = worker
    · subst hne
      simp only [hidle]
      exact (h.children other).trans (Process.watches_of_over (h.between htests))
    · simp only [hother other hne]
      exact h.children other

theorem step (h : shift.Sound) {happening : Happening Worker}
    (hstep : shift.step config owner happening = some after) : after.Sound := by
  cases step_moves hstep with
  | fleet event fleet hallows hfleet => exact h.follow hallows hfleet
  | stop worker => exact ⟨h.fleet, h.starting, h.pausing, h.returned, h.waited, h.children⟩
  | fail worker hplace hstage =>
    exact h.place (by simp) (fun _ ↦ Or.inr ⟨_, hstage⟩) (fun _ _ ↦ ⟨_, hstage⟩) rfl rfl rfl
  | test worker htests =>
    unfold Shift.test
    split_ifs
    · exact h.place (by simp) (fun _ ↦ h.between htests) (by simp) rfl rfl rfl
    · exact h.turn htests

theorem steps (h : shift.Sound) {later : List (Happening Worker)}
    (hsteps : shift.steps config owner later = some after) : after.Sound := by
  induction later generalizing shift with
  | nil =>
    rw [← Option.some.inj hsteps]
    exact h
  | cons happening later ih =>
    obtain ⟨middle, hstep, hrest⟩ := Option.bind_eq_some_iff.mp hsteps
    exact ih (h.step hstep) hrest

end Sound

/-! ### The fleet of a shift -/

/-- What happens in a shift happens in its fleet, or nothing does. -/
theorem Sound.fleet_step (h : shift.Sound) {happening : Happening Worker}
    (hstep : shift.step config owner happening = some after) :
    after.fleet = shift.fleet ∨
      ∃ event, shift.fleet.step config owner event = some after.fleet := by
  cases step_moves hstep with
  | fleet event fleet hallows hfleet => exact Or.inr ⟨event, hfleet⟩
  | stop worker => exact Or.inl rfl
  | fail worker hplace hstage => exact Or.inl rfl
  | test worker htests =>
    unfold test
    split_ifs
    · exact Or.inl rfl
    · rcases h.between htests with hidle | ⟨result, hstage⟩
      · left
        simp only [Fleet.setWorker, ← hidle, Function.update_eq_self]
      · right
        refine ⟨.restart worker, ?_⟩
        simp only [Fleet.step, hstage]

/-- The turns of a shift are those of a fleet: what holds in every run of a fleet holds here. -/
theorem fleet_steps (h : shift.Sound) {later : List (Happening Worker)}
    (hsteps : shift.steps config owner later = some after) :
    ∃ events, shift.fleet.steps config owner events = some after.fleet := by
  induction later generalizing shift with
  | nil =>
    rw [← Option.some.inj hsteps]
    exact ⟨[], rfl⟩
  | cons happening later ih =>
    obtain ⟨middle, hstep, hrest⟩ := Option.bind_eq_some_iff.mp hsteps
    obtain ⟨events, hevents⟩ := ih (h.step hstep) hrest
    rcases h.fleet_step hstep with hsame | ⟨event, hevent⟩
    · exact ⟨events, hsame ▸ hevents⟩
    · refine ⟨event :: events, ?_⟩
      simp only [Fleet.steps, hevent, Option.bind_some, hevents]

end Shift

end Abacus.Worker
