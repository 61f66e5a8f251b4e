import Abacus.Worker.Shift

/-!
# The pause after a turn that raised

What `run_once` raises is no failure of a job: it is the broker or the database that is down. `run`
sleeps for the pause before it tests its loop again, so that this does not become a storm of
retries. In every run the turns of a worker that raise are a pause apart, and in any window of time
there are as many as pauses fit in, and one more (`failed_turns_apart`).
-/

set_option autoImplicit false
set_option relaxedAutoImplicit false

namespace Abacus.Worker.Shift

variable {Worker : Type} [DecidableEq Worker] {config : Worker → WorkerConfig}
  {owner : Worker → String} {shift after : Shift Worker} {worker : Worker}

omit [DecidableEq Worker] in
theorem write_now (fleet : Fleet Worker) (handled : Handled) (solved : Solved) (applied : Bool) :
    (fleet.write handled solved applied).now = fleet.now := by
  simp only [Fleet.write]

/-- The clock does not go back. -/
theorem now_le {fleet next : Fleet Worker} {event : Event Worker}
    (h : fleet.step config owner event = some next) : fleet.now ≤ next.now := by
  have hresume {middle : Fleet Worker} {caller : Worker} {input : Input}
      (hnext : middle.resume config caller input = some next) : next.now = middle.now := by
    obtain ⟨stage, -, rfl⟩ := Option.map_eq_some_iff.mp hnext
    rfl
  cases Fleet.step_moves h with
  | tick duration => exact Int.le_add_of_nonneg_right (Int.natCast_nonneg duration)
  | heard caller jobId drawn lost clock operation input hcall hfresh hinput hnext =>
    exact (hresume hnext).ge
  | notStored caller applied error handled solved hputting hnext =>
    exact ((hresume hnext).trans (write_now _ _ _ _)).ge
  | stored caller applied handled solved hputting hnext =>
    exact ((hresume hnext).trans (write_now _ _ _ _)).ge
  | input caller input hallows hnext => exact (hresume hnext).ge
  | _ => exact le_rfl

/-- When the turns of a worker raised: apart by the pause, and the last one a pause before the end
of the sleep, or before now. -/
structure Paced (pause : Duration) (worker : Worker) (shift : Shift Worker) : Prop where
  apart : (shift.failures worker).Pairwise fun first second ↦ first + pause ≤ second
  past : ∀ time ∈ shift.failures worker, time ≤ shift.fleet.now
  sleeps : ∀ wakeAt, shift.places worker = .pausing wakeAt →
    ∀ time ∈ shift.failures worker, time + pause ≤ wakeAt
  slept : (∀ wakeAt, shift.places worker ≠ .pausing wakeAt) →
    ∀ time ∈ shift.failures worker, time + pause ≤ shift.fleet.now

omit [DecidableEq Worker] in
/-- A step that leaves the place of the worker, or its failures, in the past. -/
theorem Paced.later {pause : Duration} (h : shift.Paced pause worker)
    (hfailures : after.failures worker = shift.failures worker)
    (hplace : after.places worker = shift.places worker)
    (hnow : shift.fleet.now ≤ after.fleet.now) : after.Paced pause worker where
  apart := hfailures ▸ h.apart
  past time hmem := (h.past time (hfailures ▸ hmem)).trans hnow
  sleeps wakeAt hpausing time hmem :=
    h.sleeps wakeAt (hplace.symm.trans hpausing) time (hfailures ▸ hmem)
  slept hnever time hmem := (h.slept (hplace ▸ hnever) time (hfailures ▸ hmem)).trans hnow

omit [DecidableEq Worker] in
/-- A loop that begins. -/
theorem Paced.begins {pause : Duration} (hfailures : shift.failures worker = []) :
    shift.Paced pause worker where
  apart := by
    rw [hfailures]
    exact .nil
  past time hmem := absurd hmem (by simp [hfailures])
  sleeps _ _ time hmem := absurd hmem (by simp [hfailures])
  slept _ time hmem := absurd hmem (by simp [hfailures])

/-- A turn raises: those that raised before are a pause in the past. -/
theorem Paced.fail (h : shift.Paced (config worker).errorPause worker)
    (hplace : shift.places worker = .turning) :
    (shift.fail config worker).Paced (config worker).errorPause worker := by
  have hfailures : (shift.fail config worker).failures worker =
      shift.failures worker ++ [shift.fleet.now] := by
    simp only [Shift.fail, Function.update_self]
  have hpausing : (shift.fail config worker).places worker =
      .pausing (shift.fleet.now + (config worker).errorPause) := by
    simp only [Shift.fail, Function.update_self]
  have hslept := h.slept (by simp [hplace])
  have hpast : ∀ time ∈ (shift.fail config worker).failures worker, time ≤ shift.fleet.now := by
    intro time hmem
    rw [hfailures, List.mem_append, List.mem_singleton] at hmem
    rcases hmem with hold | rfl
    · exact h.past time hold
    · exact le_rfl
  constructor
  · rw [hfailures]
    refine List.pairwise_append.mpr ⟨h.apart, List.pairwise_singleton _ _, ?_⟩
    intro first hfirst second hsecond
    obtain rfl := List.mem_singleton.mp hsecond
    exact hslept first hfirst
  · exact hpast
  · intro wakeAt hfound time hmem
    obtain rfl := LoopPlace.pausing.inj (hpausing.symm.trans hfound)
    exact Int.add_le_add_right (hpast time hmem) _
  · exact fun hnever ↦ absurd hpausing (hnever _)

/-- The loop comes to its test: its sleep, if it slept, is over. -/
theorem Paced.test {pause : Duration} (h : shift.Paced pause worker)
    (htests : shift.Tests worker) : (shift.test worker).Paced pause worker := by
  have hpast : ∀ time ∈ shift.failures worker, time + pause ≤ shift.fleet.now := by
    cases htests with
    | starting hplace => exact h.slept (by simp [hplace])
    | turned result hplace => exact h.slept (by simp [hplace])
    | paused wakeAt hplace hnow =>
      exact fun time hmem ↦ (h.sleeps wakeAt hplace time hmem).trans hnow
  have hplace : ∀ wakeAt, (shift.test worker).places worker ≠ .pausing wakeAt := by
    intro wakeAt
    unfold Shift.test
    split_ifs <;> simp
  have hfailures : (shift.test worker).failures = shift.failures := by
    unfold Shift.test
    split_ifs <;> rfl
  have hnow : (shift.test worker).fleet.now = shift.fleet.now := by
    unfold Shift.test
    split_ifs <;> rfl
  constructor
  · exact hfailures ▸ h.apart
  · rw [hfailures, hnow]
    exact h.past
  · exact fun wakeAt hfound ↦ absurd hfound (hplace wakeAt)
  · rw [hfailures, hnow]
    exact fun _ ↦ hpast

theorem Paced.step (h : shift.Paced (config worker).errorPause worker)
    {happening : Happening Worker} (hstep : shift.step config owner happening = some after) :
    after.Paced (config worker).errorPause worker := by
  cases step_moves hstep with
  | fleet event fleet hallows hfleet =>
    by_cases hcrash : event = .crash worker
    · subst hcrash
      exact .begins (renewed_crash _ _)
    · exact h.later (renewed_of_ne hcrash) (renewed_of_ne hcrash) (now_le hfleet)
  | stop caller => exact h.later rfl rfl le_rfl
  | fail caller hplace hstage =>
    by_cases hcaller : worker = caller
    · subst hcaller
      exact h.fail hplace
    · exact h.later (Function.update_of_ne hcaller _ _) (Function.update_of_ne hcaller _ _) le_rfl
  | test caller htests =>
    by_cases hcaller : worker = caller
    · subst hcaller
      exact h.test htests
    · unfold Shift.test
      split_ifs
      · exact h.later rfl (Function.update_of_ne hcaller _ _) le_rfl
      · exact h.later rfl (Function.update_of_ne hcaller _ _) le_rfl

theorem Paced.steps (h : shift.Paced (config worker).errorPause worker)
    {later : List (Happening Worker)} (hsteps : shift.steps config owner later = some after) :
    after.Paced (config worker).errorPause worker := by
  induction later generalizing shift with
  | nil =>
    rw [← Option.some.inj hsteps]
    exact h
  | cons happening later ih =>
    obtain ⟨next, hstep, hrest⟩ := Option.bind_eq_some_iff.mp hsteps
    exact ih (h.step hstep) hrest

/-- Times that are apart by a pause are few. -/
theorem length_mul_le_of_apart (finish : ℤ) {pause : ℤ} (hpause : 0 ≤ pause) {times : List ℤ}
    (h : times.Pairwise fun first second ↦ first + pause ≤ second) {start : ℤ}
    (hle : start ≤ finish) (hbounds : ∀ time ∈ times, start ≤ time ∧ time ≤ finish) :
    (times.length : ℤ) * pause ≤ finish - start + pause := by
  induction times generalizing start with
  | nil =>
    rw [List.length_nil, Nat.cast_zero, zero_mul]
    omega
  | cons time times ih =>
    obtain ⟨hfirst, hrest⟩ := List.pairwise_cons.mp h
    obtain ⟨hstart, hfinish⟩ := hbounds time List.mem_cons_self
    rw [List.length_cons, Nat.cast_succ, add_one_mul]
    by_cases hnext : time + pause ≤ finish
    · have hlater := ih hrest hnext fun other hmem ↦
        ⟨hfirst other hmem, (hbounds other (List.mem_cons_of_mem time hmem)).2⟩
      omega
    · -- The sleep outlasts the window.
      have hnone : times = [] := by
        refine List.eq_nil_iff_forall_not_mem.mpr fun other hmem ↦ hnext ?_
        exact (hfirst other hmem).trans (hbounds other (List.mem_cons_of_mem time hmem)).2
      rw [hnone, List.length_nil, Nat.cast_zero, zero_mul]
      omega

/-- The turns of a worker that raise are apart by the pause, in every run, whatever else happens. So
in any window of time there are at most as many of them as pauses fit in, and one more. -/
theorem failed_turns_apart {events : List (Happening Worker)}
    (hsteps : (initial Worker).steps config owner events = some shift) (worker : Worker) :
    ((shift.failures worker).Pairwise fun first second ↦
        first + (config worker).errorPause ≤ second) ∧
      ∀ (start : Instant) (duration : ℕ), 0 ≤ (config worker).errorPause →
        ((((shift.failures worker).filter fun time ↦
            decide (start ≤ time ∧ time ≤ start + duration)).length : ℕ) : ℤ) *
          (config worker).errorPause ≤ duration + (config worker).errorPause := by
  have hpaced : shift.Paced (config worker).errorPause worker :=
    Paced.steps (.begins rfl) hsteps
  refine ⟨hpaced.apart, fun start duration hpause ↦ ?_⟩
  have hbound := length_mul_le_of_apart (start + duration) hpause
    (hpaced.apart.filter fun time ↦ decide (start ≤ time ∧ time ≤ start + duration))
    (Int.le_add_of_nonneg_right (Int.natCast_nonneg duration))
    (fun time hmem ↦ of_decide_eq_true (List.mem_filter.mp hmem).2)
  rwa [add_sub_cancel_left] at hbound

/-- The queue is down at two turns. -/
def outage : List (Happening Unit) :=
  [.loop (), .fleet (.input () .raised), .loop (), .fleet (.tick 1000000), .loop (),
    .fleet (.input () .raised), .loop ()]

/-- The second failure is a pause after the first. -/
theorem failed_turns_apart_outage : ∃ shift : Shift Unit,
    (initial Unit).steps (fun _ ↦ .defaults) (fun _ ↦ "worker") outage = some shift ∧
      shift.failures () = [0, seconds 1] ∧ ([0, seconds 1] : List Int).Pairwise (fun first second ↦
        first + seconds 1 ≤ second) := by
  obtain ⟨shift, hsteps, hfailures⟩ : ∃ shift,
      (initial Unit).steps (fun _ ↦ .defaults) (fun _ ↦ "worker") outage = some shift ∧
        shift.failures () = [0, seconds 1] :=
    ⟨_, rfl, rfl⟩
  obtain ⟨hapart, -⟩ := failed_turns_apart hsteps ()
  rw [hfailures] at hapart
  exact ⟨shift, hsteps, hfailures, hapart⟩

end Abacus.Worker.Shift
