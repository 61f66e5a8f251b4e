import Abacus.Worker.Shift

/-!
# After the stop

`stop` sets an event, and the loop that it interrupts acts on it. A worker that is asked to stop is
granted one more lease at most, that of the turn that it is in. Each of its steps takes it nearer to
the end of its turn (`Stage.rank`), but for a wait that was over before the event was seen, after
which it renews its lease once more; and wherever it is, it may come to its end, with nothing of the
others but time (`Shift.Sound.returns`).
-/

set_option autoImplicit false
set_option relaxedAutoImplicit false

namespace Abacus.Worker

/-! ### The stages of a turn -/

/-- How many stages a turn has still to go through, if it does not go on watching. -/
def Stage.rank : Stage → ℕ
  | .reserving => 9
  | .spawning _ => 8
  | .extending _ _ => 8
  | .watching _ _ => 7
  | .stopping _ _ => 6
  | .killed _ _ => 5
  | .putting _ _ => 4
  | .discarding _ => 3
  | .nacking _ _ _ => 3
  | .acking _ _ => 3
  | .closing _ => 2
  | .reaping _ => 1
  | .finished _ => 0

theorem Supervisor.rank_finish (config : WorkerConfig) (handled : Handled) :
    (finish config handled).rank ≤ 4 := by
  unfold finish
  split
  case h_6 =>
    unfold report
    split <;> simp [Stage.rank]
  all_goals simp [Stage.rank]

theorem Supervisor.rank_stopped (config : WorkerConfig) (lease : Lease) (ending : Ending)
    (collected : Collected) : (stopped config lease ending collected).rank ≤ 4 := by
  cases collected with
  | ok outcome => exact rank_finish config _
  | error error => simp [stopped, Stage.rank]

/-- A turn does not come back to its reservation. -/
theorem Supervisor.resume_ne_reserving {config : WorkerConfig} {collected : Option Collected}
    {old new : Stage} {input : Input} (h : resume config collected old input = some new) :
    new ≠ .reserving := by
  by_cases hreserved : ∃ lease, input = .reserved (some lease)
  · obtain ⟨lease, rfl⟩ := hreserved
    rintro rfl
    cases old <;> exact absurd h (by simp [resume])
  · exact (resume_follows (not_exists.mp hreserved) h).starts.1

/-- A wait that ends in a beat: the turn goes on watching. -/
def Stage.Beats (old new : Stage) : Prop :=
  ∃ lease cap, old = .watching lease cap ∧ new = .extending lease cap

/-- A turn that goes on has fewer stages to go through, but for a beat. -/
theorem Supervisor.resume_rank {config : WorkerConfig} {collected : Option Collected}
    {old new : Stage} {input : Input} (h : resume config collected old input = some new) :
    new.rank + 1 ≤ old.rank ∨ old.Beats new := by
  unfold resume at h
  split at h
  case h_6 lease cap solved stopping time =>
    unfold wake at h
    split_ifs at h
    · obtain ⟨result, -, rfl⟩ := Option.map_eq_some_iff.mp h
      have hrank := rank_finish config ⟨lease, reported result, .completed⟩
      exact Or.inl ((Nat.succ_le_succ hrank).trans (by simp [Stage.rank]))
    · rw [← Option.some.inj h]
      exact Or.inl le_rfl
    · rw [← Option.some.inj h]
      exact Or.inl le_rfl
    · rw [← Option.some.inj h]
      exact Or.inr ⟨lease, cap, rfl, rfl⟩
  case h_7 lease cap renewal clock =>
    rw [← Option.some.inj h]
    refine Or.inl ?_
    unfold beat
    split
    · simp [Stage.rank]
    all_goals
      split_ifs
      all_goals simp [Stage.rank]
  case h_8 lease ending =>
    obtain ⟨result, -, rfl⟩ := Option.map_eq_some_iff.mp h
    have hrank := rank_stopped config lease ending result
    exact Or.inl ((Nat.succ_le_succ hrank).trans (by simp [Stage.rank]))
  case h_10 lease ending =>
    obtain ⟨result, -, rfl⟩ := Option.map_eq_some_iff.mp h
    have hrank := rank_stopped config lease ending result
    exact Or.inl ((Nat.succ_le_succ hrank).trans (by simp [Stage.rank]))
  case h_21 result =>
    obtain ⟨ended, -, rfl⟩ := Option.map_eq_some_iff.mp h
    cases ended <;> exact Or.inl (by simp [closed, Stage.rank])
  case h_23 result =>
    obtain ⟨ended, -, rfl⟩ := Option.map_eq_some_iff.mp h
    cases ended <;> exact Or.inl (by simp [closed, Stage.rank])
  case h_24 => exact absurd h (by simp)
  all_goals
    rw [← Option.some.inj h]
    exact Or.inl (by simp [Stage.rank])

namespace Shift

variable {Worker : Type} [DecidableEq Worker] {config : Worker → WorkerConfig}
  {owner : Worker → String} {shift after : Shift Worker} {worker : Worker}

/-- What the steps of a run count for, together. -/
def total (config : Worker → WorkerConfig) (owner : Worker → String)
    (count : Shift Worker → Happening Worker → Shift Worker → ℕ) (shift : Shift Worker) :
    List (Happening Worker) → ℕ
  | [] => 0
  | happening :: later =>
    match shift.step config owner happening with
    | some next => count shift happening next + next.total config owner count later
    | none => 0

/-- A potential pays for what the steps of a run count for, with what they bring in. -/
theorem total_le (paid income : Shift Worker → Happening Worker → Shift Worker → ℕ)
    (potential : Shift Worker → ℕ) (keeps : Shift Worker → Prop)
    {permitted : Happening Worker → Prop}
    (hpays : ∀ shift happening next, keeps shift → permitted happening →
      shift.step config owner happening = some next → keeps next ∧
        paid shift happening next + potential next ≤ potential shift + income shift happening next)
    (hkeeps : keeps shift) {later : List (Happening Worker)}
    (hpermitted : ∀ happening ∈ later, permitted happening)
    (hsteps : shift.steps config owner later = some after) :
    shift.total config owner paid later + potential after ≤
      potential shift + shift.total config owner income later := by
  induction later generalizing shift with
  | nil =>
    rw [← Option.some.inj hsteps]
    simp [total]
  | cons happening later ih =>
    obtain ⟨next, hstep, hrest⟩ := Option.bind_eq_some_iff.mp hsteps
    obtain ⟨hnext, hpaid⟩ := hpays shift happening next hkeeps
      (hpermitted happening List.mem_cons_self) hstep
    have hlater := ih hnext (fun found hfound ↦ hpermitted found (List.mem_cons_of_mem _ hfound))
      hrest
    simp only [total, hstep]
    omega

theorem total_zero (later : List (Happening Worker)) :
    shift.total config owner (fun _ _ _ ↦ 0) later = 0 := by
  induction later generalizing shift with
  | nil => rfl
  | cons happening later ih =>
    simp only [total]
    split
    · rw [ih]
    · rfl

/-- The lease that a worker is granted with a step: its claim commits on a row that may be claimed,
whether its reply is lost or not. -/
def grants (config : Worker → WorkerConfig) (owner : Worker → String) (worker : Worker)
    (shift : Shift Worker) (happening : Happening Worker) (_ : Shift Worker) : ℕ :=
  match happening with
  | .fleet (.store caller jobId drawn _ _) =>
    match (shift.fleet.workers worker).stage, (Postgres.perform shift.fleet.now
        (.claim jobId drawn (owner worker) (config worker).lease) shift.fleet.database).1 with
    | .reserving, .ok (.claimed (some _)) => if caller = worker then 1 else 0
    | _, _ => 0
  | _ => 0

/-- A worker comes to another place. -/
def moves (worker : Worker) (shift : Shift Worker) (_ : Happening Worker)
    (next : Shift Worker) : ℕ :=
  if shift.places worker = next.places worker ∧
      (shift.fleet.workers worker).stage = (next.fleet.workers worker).stage then 0 else 1

/-- A worker goes on to renew its lease. -/
def beats (worker : Worker) (shift : Shift Worker) (_ : Happening Worker)
    (next : Shift Worker) : ℕ :=
  match (shift.fleet.workers worker).stage, (next.fleet.workers worker).stage with
  | .watching _ _, .extending _ _ => 1
  | _, _ => 0

/-- How many places a worker that is to stop has still to go through. -/
def rank (worker : Worker) (shift : Shift Worker) : ℕ :=
  match shift.places worker with
  | .starting => 1
  | .turning => (shift.fleet.workers worker).stage.rank + 2
  | .pausing _ => 1
  | .returned => 0

/-- Whether a worker that is to stop may still be granted a lease. -/
def mayClaim (worker : Worker) (shift : Shift Worker) : ℕ :=
  if shift.places worker = .turning ∧ (shift.fleet.workers worker).stage = .reserving then 1 else 0

/-- A worker that is asked to stop stays so. -/
theorem step_stopping {happening : Happening Worker}
    (hstep : shift.step config owner happening = some after)
    (hcrash : happening ≠ .fleet (.crash worker)) (h : shift.stopping worker = true) :
    after.stopping worker = true := by
  cases step_moves hstep with
  | fleet event fleet =>
    exact (renewed_of_ne fun hevent ↦ hcrash (congrArg Happening.fleet hevent)).trans h
  | stop caller =>
    by_cases hcaller : worker = caller
    · subst hcaller
      exact Function.update_self worker true shift.stopping
    · exact (Function.update_of_ne hcaller true shift.stopping).trans h
  | fail => exact h
  | test caller =>
    unfold test
    split_ifs
    · exact h
    · exact h

/-- What a step makes of one worker that does not crash. -/
inductive Goes (config : Worker → WorkerConfig) (worker : Worker) (shift after : Shift Worker) :
    Happening Worker → Prop
  | leaves (happening : Happening Worker) (hplace : after.places worker = shift.places worker)
    (hstage : (after.fleet.workers worker).stage = (shift.fleet.workers worker).stage) :
    Goes config worker shift after happening
  | resumes (event : Event Worker) (input : Input) (hbrings : event.Brings input)
    (hplace : shift.places worker = .turning) (hafter : after.places worker = .turning)
    (hresume : Supervisor.resume (config worker) (shift.fleet.workers worker).collected
      (shift.fleet.workers worker).stage input = some (after.fleet.workers worker).stage) :
    Goes config worker shift after (.fleet event)
  | fails (hplace : shift.places worker = .turning)
    (hstage : (shift.fleet.workers worker).stage = .finished .raised)
    (hafter : after = shift.fail config worker) :
    Goes config worker shift after (.loop worker)
  | tests (htests : shift.Tests worker) (hafter : after = shift.test worker) :
    Goes config worker shift after (.loop worker)

theorem step_goes {happening : Happening Worker}
    (hstep : shift.step config owner happening = some after)
    (hcrash : happening ≠ .fleet (.crash worker)) :
    Goes config worker shift after happening := by
  cases step_moves hstep with
  | fleet event fleet hallows hfleet =>
    rcases follow_place hallows hfleet worker with ⟨hsame, hleft⟩ | ⟨hevent, -, -⟩
    · by_cases hplace : shift.places worker = .turning
      · have hmakes := Fleet.step_makes hfleet worker
        generalize hprocess : fleet.workers worker = process at hmakes
        have hafter : (shift.follow event fleet).fleet.workers worker = process := hprocess
        cases hmakes with
        | other => exact .leaves _ hsame (congrArg Process.stage hafter)
        | unheard => exact .leaves _ hsame (congrArg Process.stage hafter)
        | resumed _ input stage hworker hbrings hresume =>
          refine .resumes event input hbrings hplace (hsame.trans hplace) ?_
          rw [hafter]
          exact hresume
        | child => exact .leaves _ hsame (by rw [hafter])
        | restart => exact Bool.noConfusion hallows
        | crash => exact absurd rfl hcrash
      · exact .leaves _ hsame (congrArg Process.stage (hleft hplace))
    · exact absurd (congrArg Happening.fleet hevent) hcrash
  | stop caller => exact .leaves _ rfl rfl
  | fail caller hplace hstage =>
    by_cases hcaller : worker = caller
    · subst hcaller
      exact .fails hplace hstage rfl
    · exact .leaves _ (Function.update_of_ne hcaller _ _) rfl
  | test caller htests =>
    by_cases hcaller : worker = caller
    · subst hcaller
      exact .tests htests rfl
    · unfold test
      split_ifs
      · exact .leaves _ (Function.update_of_ne hcaller _ _) rfl
      · refine .leaves _ (Function.update_of_ne hcaller _ _) (congrArg Process.stage ?_)
        exact Function.update_of_ne hcaller _ _

/-- The test of a worker that is to stop is its last. -/
theorem test_of_stopping (h : shift.stopping worker = true) :
    shift.test worker =
      { shift with places := Function.update shift.places worker .returned } :=
  if_pos h

/-- Each step of a worker that is to stop takes it nearer to its end, but for its beats. -/
theorem rank_step {happening : Happening Worker}
    (hstep : shift.step config owner happening = some after)
    (hcrash : happening ≠ .fleet (.crash worker)) (hstopping : shift.stopping worker = true) :
    moves worker shift happening after + after.rank worker ≤
      shift.rank worker + 2 * beats worker shift happening after := by
  have hmoves : moves worker shift happening after ≤ 1 := by
    unfold moves
    split_ifs <;> simp
  cases step_goes hstep hcrash with
  | leaves _ hplace hstage =>
    have hstill : moves worker shift happening after = 0 := if_pos ⟨hplace.symm, hstage.symm⟩
    have hrank : after.rank worker = shift.rank worker := by
      simp only [rank, hplace, hstage]
    omega
  | resumes event input hbrings hplace hafter hresume =>
    have hold : shift.rank worker = (shift.fleet.workers worker).stage.rank + 2 := by
      simp only [rank, hplace]
    have hnew : after.rank worker = (after.fleet.workers worker).stage.rank + 2 := by
      simp only [rank, hafter]
    rcases Supervisor.resume_rank hresume with hless | ⟨lease, cap, hbefore, hbeat⟩
    · omega
    · have hbeats : beats worker shift (.fleet event) after = 1 := by
        simp only [beats, hbefore, hbeat]
      rw [hbefore] at hold
      rw [hbeat] at hnew
      simp only [Stage.rank] at hold hnew
      omega
  | fails hplace hstage hafter =>
    have hold : shift.rank worker = 2 := by
      simp only [rank, hplace, hstage, Stage.rank]
    have hnew : after.rank worker = 1 := by
      simp only [hafter, fail, rank, Function.update_self]
    omega
  | tests htests hafter =>
    have hnew : after.rank worker = 0 := by
      simp only [hafter, test_of_stopping hstopping, rank, Function.update_self]
    have hold : 1 ≤ shift.rank worker := by
      cases htests with
      | starting hplace => simp [rank, hplace]
      | turned result hplace => simp [rank, hplace]
      | paused wakeAt hplace => simp [rank, hplace]
    omega

/-- A worker that is granted a lease has done with its claims, and so has one that hears that its
claim raised. -/
theorem granted_leaves {fleet next : Fleet Worker} {jobId drawn : Uuid} {lost : Bool}
    {clock : Instant} {lease : Lease}
    (hstep : fleet.step config owner (.store worker jobId drawn lost clock) = some next)
    (hstage : (fleet.workers worker).stage = .reserving)
    (hreply : (Postgres.perform fleet.now
      (.claim jobId drawn (owner worker) (config worker).lease) fleet.database).1 =
        .ok (.claimed (some lease))) : (next.workers worker).stage ≠ .reserving := by
  have hresume : ∃ input, (fleet.perform
      (.claim jobId drawn (owner worker) (config worker).lease)).resume config worker input =
        some next := by
    simp only [Fleet.step, hstage, Stage.call] at hstep
    split_ifs at hstep with hfresh hlost
    · exact ⟨.raised, hstep⟩
    · rw [hreply] at hstep
      exact ⟨.reserved (some lease), hstep⟩
  obtain ⟨input, hinput⟩ := hresume
  obtain ⟨stage, hnew, rfl⟩ := Option.map_eq_some_iff.mp hinput
  simp only [Fleet.advance, Function.update_self]
  exact Supervisor.resume_ne_reserving hnew

/-- A worker that is to stop is granted a lease at most in the turn that it is in. -/
theorem mayClaim_step {happening : Happening Worker}
    (hstep : shift.step config owner happening = some after)
    (hcrash : happening ≠ .fleet (.crash worker)) (hstopping : shift.stopping worker = true) :
    grants config owner worker shift happening after + after.mayClaim worker ≤
      shift.mayClaim worker := by
  have hkept : after.mayClaim worker ≤ shift.mayClaim worker := by
    cases step_goes hstep hcrash with
    | leaves _ hplace hstage => simp only [mayClaim, hplace, hstage, le_refl]
    | resumes event input hbrings hplace hafter hresume =>
      simp [mayClaim, Supervisor.resume_ne_reserving hresume]
    | fails hplace hstage hafter => simp [mayClaim, hafter, fail]
    | tests htests hafter => simp [mayClaim, hafter, test_of_stopping hstopping]
  by_cases hgrants : grants config owner worker shift happening after = 0
  · omega
  · have hone : grants config owner worker shift happening after = 1 ∧
        shift.mayClaim worker = 1 ∧ after.mayClaim worker = 0 := by
      unfold grants at hgrants ⊢
      split at hgrants
      swap
      · exact absurd rfl hgrants
      split at hgrants
      swap
      · exact absurd rfl hgrants
      next caller jobId drawn lost clock _ _ lease hstage hreply =>
      obtain rfl : caller = worker := by
        by_contra hcaller
        exact hgrants (if_neg hcaller)
      cases step_moves hstep with
      | fleet event fleet hallows hfleet =>
        have hplace : shift.places caller = .turning := of_decide_eq_true hallows
        have hleft : (fleet.workers caller).stage ≠ .reserving :=
          granted_leaves hfleet hstage hreply
        exact ⟨if_pos rfl, if_pos ⟨hplace, hstage⟩, if_neg fun hboth ↦ hleft hboth.2⟩
    omega

/-! ### The way out -/

theorem steps_append (first second : List (Happening Worker)) :
    shift.steps config owner (first ++ second) =
      (shift.steps config owner first).bind fun next ↦ next.steps config owner second := by
  induction first generalizing shift with
  | nil => rfl
  | cons happening first ih =>
    simp only [List.cons_append, steps, Option.bind_assoc]
    congr 1
    funext next
    exact ih

/-- How far a worker that is to stop is from its end, with the child that it watches. -/
def distance (worker : Worker) (shift : Shift Worker) : ℕ :=
  2 * shift.rank worker + (shift.fleet.workers worker).watches

/-- What a worker needs nobody else for: time passes, or its own code goes on. -/
def Happening.Alone (worker : Worker) : Happening Worker → Prop
  | .fleet (.tick _) => True
  | .fleet (.store own _ _ _ _) => own = worker
  | .fleet (.put own _ _) => own = worker
  | .fleet (.child own _ _) => own = worker
  | .fleet (.input own _) => own = worker
  | .loop own => own = worker
  | _ => False

/-- A worker that may come nearer to its end without the others. -/
def Nears (config : Worker → WorkerConfig) (owner : Worker → String) (worker : Worker)
    (shift : Shift Worker) : Prop :=
  ∃ first next, shift.steps config owner first = some next ∧
    (∀ happening ∈ first, happening.Alone worker) ∧ next.distance worker < shift.distance worker

omit [DecidableEq Worker] in
theorem not_mem_crash {first : List (Happening Worker)}
    (halone : ∀ happening ∈ first, happening.Alone worker) : .fleet (.crash worker) ∉ first :=
  fun hmem ↦ halone _ hmem

theorem Nears.of_step {happening : Happening Worker}
    (hstep : shift.step config owner happening = some after) (halone : happening.Alone worker)
    (hless : after.distance worker < shift.distance worker) : Nears config owner worker shift := by
  refine ⟨[happening], after, ?_, ?_, hless⟩
  · simp only [steps, hstep]
    rfl
  · intro other hmem
    rwa [List.mem_singleton.mp hmem]

/-- A turn goes on, and not by a beat. -/
theorem Nears.of_resume (event : Event Worker) (input : Input) {middle : Fleet Worker}
    {stage : Stage} (hplace : shift.places worker = .turning)
    (hallows : shift.allows event = true) (halone : (Happening.fleet event).Alone worker)
    (hworkers : middle.workers = shift.fleet.workers)
    (hstep : shift.fleet.step config owner event = middle.resume config worker input)
    (hspawned : ∀ time, input ≠ .spawned time)
    (hresume : Supervisor.resume (config worker) (shift.fleet.workers worker).collected
      (shift.fleet.workers worker).stage input = some stage)
    (hbeats : ∀ lease cap, stage ≠ .extending lease cap) : Nears config owner worker shift := by
  have hfleet : shift.fleet.step config owner event = some (middle.advance worker stage) := by
    rw [hstep, Fleet.resume, hworkers, hresume]
    rfl
  have hworker : (middle.advance worker stage).workers worker =
      ⟨stage, (shift.fleet.workers worker).collected⟩ := by
    simp only [Fleet.advance, Function.update_self, hworkers]
  have hafter : shift.step config owner (.fleet event) =
      some (shift.follow event (middle.advance worker stage)) := by
    simp only [step, if_pos hallows, hfleet]
    rfl
  refine .of_step hafter halone ?_
  have hcrash : event ≠ .crash worker := fun hsame ↦ by
    rw [hsame] at halone
    exact halone
  have hnewPlace : (shift.follow event (middle.advance worker stage)).places worker = .turning :=
    (renewed_of_ne hcrash).trans hplace
  have hwatches := Process.watches_resume hresume hspawned
  have hrank : stage.rank + 1 ≤ (shift.fleet.workers worker).stage.rank := by
    rcases Supervisor.resume_rank hresume with hless | ⟨lease, cap, -, hbeat⟩
    · exact hless
    · exact absurd hbeat (hbeats lease cap)
  have hnew : (shift.follow event (middle.advance worker stage)).fleet.workers worker =
      ⟨stage, (shift.fleet.workers worker).collected⟩ := hworker
  simp only [distance, rank, hplace, hnewPlace, hnew, hwatches]
  omega

/-- A turn gets what it waits for. -/
theorem Nears.of_input (input : Input) {old new : Stage} (hplace : shift.places worker = .turning)
    (hstage : (shift.fleet.workers worker).stage = old) (hallows : old.allows input = true)
    (hwoke : ∀ solved time, input = .woke solved true time → shift.stopping worker = true)
    (hspawned : ∀ time, input ≠ .spawned time)
    (hresume : Supervisor.resume (config worker) (shift.fleet.workers worker).collected old input =
      some new)
    (hbeats : ∀ lease cap, new ≠ .extending lease cap) : Nears config owner worker shift := by
  subst hstage
  refine .of_resume (.input worker input) input hplace ?_ rfl rfl (if_pos hallows) hspawned
    hresume hbeats
  cases input with
  | woke solved stopping time =>
    cases stopping with
    | true => simp [allows, hplace, hwoke solved time rfl]
    | false => simp [allows, hplace]
  | _ => simp [allows, hplace]

/-- The child of a turn is gone. -/
theorem Nears.of_child {lease : Lease} (hplace : shift.places worker = .turning)
    (hrunning : (shift.fleet.workers worker).stage.running = some lease)
    (hcollected : (shift.fleet.workers worker).collected = none) :
    Nears config owner worker shift := by
  obtain ⟨fleet, hfleet, hworker⟩ : ∃ fleet : Fleet Worker,
      shift.fleet.step config owner (.child worker .closed 0) = some fleet ∧
        fleet.workers worker =
          ⟨(shift.fleet.workers worker).stage, some (readAndReap .closed 0)⟩ := by
    simp only [Fleet.step, hrunning, hcollected]
    exact ⟨_, rfl, by simp only [Fleet.setWorker, Function.update_self]⟩
  have hallows : shift.allows (.child worker .closed 0) = true := decide_eq_true hplace
  have hafter : shift.step config owner (.fleet (.child worker .closed 0)) =
      some (shift.follow (.child worker .closed 0) fleet) := by
    simp only [step, if_pos hallows, hfleet]
    rfl
  refine .of_step hafter rfl ?_
  have hnew : (shift.follow (.child worker .closed 0) fleet).fleet.workers worker =
      ⟨(shift.fleet.workers worker).stage, some (readAndReap .closed 0)⟩ := hworker
  have hnewPlace : (shift.follow (.child worker .closed 0) fleet).places worker = .turning := hplace
  simp [distance, rank, hplace, hnewPlace, hnew, Process.watches, hrunning, hcollected]

/-- The loop comes to its test. -/
theorem Sound.nears_test (h : shift.Sound) (hstopping : shift.stopping worker = true)
    (htests : shift.Tests worker)
    (hstep : shift.step config owner (.loop worker) = some (shift.test worker)) :
    Nears config owner worker shift := by
  refine .of_step hstep rfl ?_
  have hover := Process.watches_of_over (h.between htests)
  rw [test_of_stopping hstopping]
  cases htests with
  | starting hplace => simp [distance, rank, hplace, hover]
  | turned result hplace => simp [distance, rank, hplace, hover]
  | paused wakeAt hplace => simp [distance, rank, hplace, hover]

/-- Time passes until the sleep is over, and the loop comes to its test. -/
theorem Sound.nears_wake (h : shift.Sound) (hstopping : shift.stopping worker = true)
    {wakeAt : Instant} (hplace : shift.places worker = .pausing wakeAt) :
    Nears config owner worker shift := by
  obtain ⟨result, hstage⟩ := h.pausing worker wakeAt hplace
  have hwatches := Process.watches_of_over (Or.inr ⟨result, hstage⟩)
  obtain ⟨waited, hstep, hfleet, hplaces, hstops, hnow⟩ : ∃ waited : Shift Worker,
      shift.step config owner (.fleet (.tick (wakeAt - shift.fleet.now).toNat)) = some waited ∧
        waited.fleet.workers = shift.fleet.workers ∧ waited.places = shift.places ∧
          waited.stopping = shift.stopping ∧ wakeAt ≤ waited.fleet.now :=
    ⟨_, rfl, rfl, rfl, rfl, sub_le_iff_le_add'.mp (Int.self_le_toNat (wakeAt - shift.fleet.now))⟩
  rw [← hplaces] at hplace
  have hloop : waited.step config owner (.loop worker) = some (waited.test worker) := by
    simp only [Shift.step, hplace, if_pos hnow]
  refine ⟨[.fleet (.tick (wakeAt - shift.fleet.now).toNat), .loop worker], waited.test worker, ?_,
    by simp [Happening.Alone], ?_⟩
  · simp only [Shift.steps, hstep, Option.bind_some, hloop]
  · rw [hplaces] at hplace
    rw [test_of_stopping (hstops ▸ hstopping)]
    simp [distance, rank, hplace, hfleet, hwatches]

/-- A worker that is to stop may always come nearer to its end. -/
theorem Sound.nears (h : shift.Sound) (hstopping : shift.stopping worker = true)
    (hreturned : shift.places worker ≠ .returned) : Nears config owner worker shift := by
  cases hplace : shift.places worker with
  | returned => exact absurd hplace hreturned
  | starting =>
    exact h.nears_test hstopping (.starting hplace) (by simp only [Shift.step, hplace])
  | pausing wakeAt => exact h.nears_wake hstopping hplace
  | turning =>
    cases hstage : (shift.fleet.workers worker).stage with
    | reserving =>
      exact .of_input (.reserved none) hplace hstage rfl (by simp) (by simp) rfl (by simp)
    | spawning lease =>
      exact .of_input .raised hplace hstage rfl (by simp) (by simp) rfl (by simp)
    | watching lease cap =>
      exact .of_input (.woke false true 0) hplace hstage rfl (fun _ _ _ ↦ hstopping) (by simp) rfl
        (by simp)
    | extending lease cap =>
      refine .of_input (.extended .unreachable 0) hplace hstage rfl (by simp) (by simp) rfl ?_
      intro found other
      unfold Supervisor.beat
      split_ifs <;> simp
    | stopping lease ending =>
      exact .of_input .graceElapsed hplace hstage rfl (by simp) (by simp) rfl (by simp)
    | killed lease ending =>
      cases hcollected : (shift.fleet.workers worker).collected with
      | none => exact .of_child hplace (by rw [hstage]; rfl) hcollected
      | some collected =>
        refine .of_input .collected hplace hstage rfl (by simp) (by simp)
          (congrArg (Option.map (Supervisor.stopped (config worker) lease ending)) hcollected) ?_
        intro found cap hextending
        have hrank := Supervisor.rank_stopped (config worker) lease ending collected
        rw [hextending] at hrank
        exact absurd hrank (by simp [Stage.rank])
    | discarding handled =>
      exact .of_input .settled hplace hstage rfl (by simp) (by simp) rfl (by simp)
    | nacking handled error retryIn =>
      exact .of_input .raised hplace hstage rfl (by simp) (by simp) rfl (by simp)
    | putting handled solved =>
      refine .of_resume (.put worker false (some "")) (.notStored "") hplace (decide_eq_true hplace)
        rfl (Fleet.write_workers _ handled solved false) ?_ (by simp) (by rw [hstage]; rfl)
        (by simp)
      simp only [Fleet.step, hstage]
    | acking handled resultRef =>
      exact .of_input .raised hplace hstage rfl (by simp) (by simp) rfl (by simp)
    | closing result =>
      exact .of_input .graceElapsed hplace hstage rfl (by simp) (by simp) rfl (by simp)
    | reaping result =>
      cases hcollected : (shift.fleet.workers worker).collected with
      | none =>
        have hwaited := h.waited worker hcollected (by rw [hstage]; rfl)
        simp [hstage] at hwaited
      | some collected =>
        refine .of_input .collected hplace hstage rfl (by simp) (by simp)
          (congrArg (Option.map (Supervisor.closed result)) hcollected) ?_
        cases collected <;> simp [Supervisor.closed]
    | finished result =>
      by_cases hraised : result = .raised
      · subst hraised
        have hloop : shift.step config owner (.loop worker) = some (shift.fail config worker) := by
          simp only [Shift.step, hplace, hstage]
        refine .of_step hloop rfl ?_
        have hwatches := Process.watches_of_over (Or.inr ⟨_, hstage⟩)
        simp [distance, rank, hplace, hstage, Shift.fail, Stage.rank]
      · refine h.nears_test hstopping (.turned result hplace hraised hstage) ?_
        cases result with
        | raised => exact absurd rfl hraised
        | _ => simp only [Shift.step, hplace, hstage]

/-- So it does along a run. -/
theorem steps_stopping {later : List (Happening Worker)}
    (hsteps : shift.steps config owner later = some after)
    (hcrash : .fleet (.crash worker) ∉ later) (h : shift.stopping worker = true) :
    after.stopping worker = true := by
  induction later generalizing shift with
  | nil =>
    rw [← Option.some.inj hsteps]
    exact h
  | cons happening later ih =>
    obtain ⟨next, hstep, hrest⟩ := Option.bind_eq_some_iff.mp hsteps
    rw [List.mem_cons, not_or] at hcrash
    exact ih hrest hcrash.2 (step_stopping hstep (Ne.symm hcrash.1) h)

/-- A worker that is to stop may always end, with nothing of the others but time. -/
theorem Sound.returns (h : shift.Sound) (hstopping : shift.stopping worker = true) :
    ∃ last final, shift.steps config owner last = some final ∧
      (∀ happening ∈ last, happening.Alone worker) ∧ final.places worker = .returned := by
  induction hdistance : shift.distance worker using Nat.strong_induction_on
    generalizing shift with
  | h distance ih =>
    by_cases hplace : shift.places worker = .returned
    · exact ⟨[], shift, rfl, by simp, hplace⟩
    · have hnears : Nears config owner worker shift := h.nears hstopping hplace
      obtain ⟨first, next, hfirst, halone, hless⟩ := hnears
      have hnext : next.stopping worker = true :=
        steps_stopping hfirst (not_mem_crash halone) hstopping
      obtain ⟨last, final, hlast, hlater, hreturned⟩ := ih (next.distance worker)
        (hdistance ▸ hless) (h.steps hfirst) hnext rfl
      refine ⟨first ++ last, final, ?_, ?_, hreturned⟩
      · rw [steps_append, hfirst]
        exact hlast
      · intro happening hmem
        exact (List.mem_append.mp hmem).elim (halone happening) (hlater happening)

/-- A loop that has returned makes no step. -/
theorem returned_stays {happening : Happening Worker}
    (hstep : shift.step config owner happening = some after)
    (hcrash : happening ≠ .fleet (.crash worker)) (hplace : shift.places worker = .returned) :
    after.places worker = .returned ∧ moves worker shift happening after = 0 := by
  cases step_goes hstep hcrash with
  | leaves _ hsame hstage => exact ⟨hsame.trans hplace, if_pos ⟨hsame.symm, hstage.symm⟩⟩
  | resumes event input hbrings hturning => exact nomatch hplace.symm.trans hturning
  | fails hturning => exact nomatch hplace.symm.trans hturning
  | tests htests =>
    cases htests with
    | starting hstarting => exact nomatch hplace.symm.trans hstarting
    | turned result hturning => exact nomatch hplace.symm.trans hturning
    | paused wakeAt hpausing => exact nomatch hplace.symm.trans hpausing

omit [DecidableEq Worker] in
theorem rank_le (worker : Worker) (shift : Shift Worker) : shift.rank worker ≤ 11 := by
  unfold rank
  split
  · simp
  · have hstage : (shift.fleet.workers worker).stage.rank ≤ 9 := by
      cases (shift.fleet.workers worker).stage <;> simp [Stage.rank]
    omega
  · simp
  · simp

/-- A worker that is asked to stop ends. From any moment of any run at which its stop event is set,
whatever follows but its crash,

* it is granted one more lease at most;
* it comes to at most eleven more places, and two for each time that it renews its lease because the
  wait was over before the loop saw the event;
* it can always come to its end, with nothing of the other workers but time;
* once `run` has returned it watches no child and comes to no other place. -/
theorem stopped_worker_ends {earlier later : List (Happening Worker)}
    (hearlier : (initial Worker).steps config owner earlier = some shift)
    (hstopping : shift.stopping worker = true)
    (hlater : shift.steps config owner later = some after)
    (hcrash : .fleet (.crash worker) ∉ later) :
    shift.total config owner (grants config owner worker) later ≤ 1 ∧
      shift.total config owner (moves worker) later ≤
        11 + shift.total config owner (fun shift happening next ↦
          2 * beats worker shift happening next) later ∧
      (∃ last final, after.steps config owner last = some final ∧
        (∀ happening ∈ last, happening.Alone worker) ∧ final.places worker = .returned) ∧
      (after.places worker = .returned → after.children worker = 0 ∧
        ∀ happening next, happening ≠ .fleet (.crash worker) →
          after.step config owner happening = some next →
            next.places worker = .returned ∧ moves worker after happening next = 0) := by
  have hsound : after.Sound := (Sound.initial.steps hearlier).steps hlater
  have hpermitted : ∀ happening ∈ later, happening ≠ .fleet (.crash worker) :=
    fun happening hmem hsame ↦ hcrash (hsame ▸ hmem)
  have hmay : shift.mayClaim worker ≤ 1 := by
    unfold mayClaim
    split_ifs <;> simp
  have hgrants := total_le (grants config owner worker) (fun _ _ _ ↦ 0) (mayClaim worker)
    (fun shift ↦ shift.stopping worker = true)
    (fun shift happening next hkeeps hpermits hstep ↦
      ⟨step_stopping hstep hpermits hkeeps, mayClaim_step hstep hpermits hkeeps⟩)
    hstopping hpermitted hlater
  rw [total_zero] at hgrants
  have hrank := rank_le worker shift
  have hmoves := total_le (moves worker)
    (fun shift happening next ↦ 2 * beats worker shift happening next) (rank worker)
    (fun shift ↦ shift.stopping worker = true)
    (fun shift happening next hkeeps hpermits hstep ↦
      ⟨step_stopping hstep hpermits hkeeps, rank_step hstep hpermits hkeeps⟩)
    hstopping hpermitted hlater
  refine ⟨by omega, by omega, hsound.returns (steps_stopping hlater hcrash hstopping),
    fun hreturned ↦ ⟨?_, fun happening next hother hstep ↦ ?_⟩⟩
  · exact (hsound.children worker).trans
      (Process.watches_of_over (hsound.returned worker hreturned))
  · exact returned_stays hstep hother hreturned

/-- A worker is asked to stop while its child runs. -/
def asked : List (Happening Unit) :=
  [.loop (), .fleet (.client (.insertOrGet ⟨9⟩ ⟨"noop", .nil, none, "key", 3, 0⟩)),
    .fleet (.store () ⟨9⟩ ⟨21⟩ false 0), .fleet (.input () (.spawned 0)), .stop ()]

/-- It kills the child, gives the job back, and returns. -/
def released : List (Happening Unit) :=
  [.fleet (.input () (.woke false true 1)), .fleet (.child () .closed (-15)),
    .fleet (.input () .collected), .fleet (.store () ⟨9⟩ ⟨22⟩ false 0),
    .fleet (.input () .collected), .loop ()]

/-- Five places, no lease, and no child is left. -/
theorem stopped_worker_ends_releasing : ∃ shift after : Shift Unit,
    (initial Unit).steps (fun _ ↦ .defaults) (fun _ ↦ "worker") asked = some shift ∧
      shift.steps (fun _ ↦ .defaults) (fun _ ↦ "worker") released = some after ∧
      shift.total (fun _ ↦ .defaults) (fun _ ↦ "worker") (moves ()) released = 5 ∧
      after.places () = .returned ∧ after.children () = 0 := by
  obtain ⟨shift, hasked, hstopping, hmoves, after, hreleased, hplace⟩ : ∃ shift,
      (initial Unit).steps (fun _ ↦ .defaults) (fun _ ↦ "worker") asked = some shift ∧
        shift.stopping () = true ∧
        shift.total (fun _ ↦ .defaults) (fun _ ↦ "worker") (moves ()) released = 5 ∧ ∃ after,
          shift.steps (fun _ ↦ .defaults) (fun _ ↦ "worker") released = some after ∧
            after.places () = .returned :=
    ⟨_, rfl, rfl, rfl, _, rfl, rfl⟩
  obtain ⟨-, -, -, hreturned⟩ := stopped_worker_ends hasked hstopping hreleased (by simp [released])
  exact ⟨shift, after, hasked, hreleased, hmoves, hplace, (hreturned hplace).1⟩

end Shift

end Abacus.Worker
