import Abacus.Worker.Fleet

/-!
# One attempt, stage by stage

What `Supervisor.resume` can do to an attempt (`Stage.Follows`): it keeps the lease, or takes the
one that `extend` returned; it keeps the ending once it is decided; it comes to a `put` only from an
outcome that the child reported and the ending `completed`; and it comes to an `ack` only from a put
that was stored.
-/

set_option autoImplicit false
set_option relaxedAutoImplicit false

namespace Abacus.Worker

/-- The lease that a stage will still use. -/
def Stage.lease : Stage → Option Lease
  | .spawning lease => some lease
  | .watching lease _ => some lease
  | .extending lease _ => some lease
  | .stopping lease _ => some lease
  | .killed lease _ => some lease
  | .discarding handled => some handled.lease
  | .nacking handled _ _ => some handled.lease
  | .putting handled _ => some handled.lease
  | .acking handled _ => some handled.lease
  | _ => none

/-- What a stage and the next one of the same attempt have to do with each other. -/
structure Stage.Follows (collected : Option Collected) (input : Input) (old new : Stage) :
    Prop where
  lease : ∀ lease, new.lease = some lease → ∃ before, old.lease = some before ∧
    (lease = before ∨ ∃ cap clock, old = .extending before cap ∧
      input = .extended (.renewed lease) clock)
  ending : new.lease ≠ none → old.ending = none ∨ new.ending = old.ending
  running : new.running ≠ none → (∃ lease, old = .spawning lease) ∨ old.running ≠ none
  starts : new ≠ .reserving ∧ ∀ lease, new ≠ .spawning lease
  putting : ∀ handled solved, new = .putting handled solved → handled.ending = .completed ∧
    ∃ before, old.running = some before ∧ handled.lease = before ∧
      collected = some (.ok (.solved solved))
  acking : ∀ handled resultRef, new = .acking handled resultRef → ∃ solved,
    old = .putting handled solved ∧ input = .stored ∧
      resultRef = artifactKey handled.lease.job.id handled.lease.id
  decided : ∀ entry, new.decided = some entry → old.ending = none

namespace Stage.Follows

variable {collected : Option Collected} {input : Input} {old new : Stage}

/-- A stage after which the lease is not used. -/
theorem of_closing (hlease : new.lease = none) (hrunning : new.running = none)
    (hdecided : new.decided = none) (hreserving : new ≠ .reserving) :
    Stage.Follows collected input old new where
  lease := by simp [hlease]
  ending := by simp [hlease]
  running := by simp [hrunning]
  starts := ⟨hreserving, by rintro lease rfl; simp [Stage.lease] at hlease⟩
  putting := by rintro handled solved rfl; simp [Stage.lease] at hlease
  acking := by rintro handled resultRef rfl; simp [Stage.lease] at hlease
  decided := by simp [hdecided]

/-- A stage of the loop, or the one that ends it, after another stage of the loop. -/
theorem of_running {lease before : Lease} (hnew : new.lease = some lease)
    (hold : old.lease = some before)
    (hlease : lease = before ∨ ∃ cap clock, old = .extending before cap ∧
      input = .extended (.renewed lease) clock)
    (hending : old.ending = none) (hrunning : (∃ lease, old = .spawning lease) ∨ old.running ≠ none)
    (hnewRunning : new.running = some lease) : Stage.Follows collected input old new where
  lease := by
    intro found hfound
    obtain rfl : lease = found := Option.some.inj (hnew.symm.trans hfound)
    exact ⟨before, hold, hlease⟩
  ending := fun _ ↦ Or.inl hending
  running := fun _ ↦ hrunning
  starts := by
    constructor
    · rintro rfl
      simp [Stage.lease] at hnew
    · rintro found rfl
      simp [Stage.running] at hnewRunning
  putting := by
    rintro handled solved rfl
    simp [Stage.running] at hnewRunning
  acking := by
    rintro handled resultRef rfl
    simp [Stage.running] at hnewRunning
  decided := fun _ _ ↦ hending

/-- `_finish`, whatever the ending. -/
theorem of_finish {config : WorkerConfig} {handled : Handled}
    (hold : old.running = some handled.lease)
    (hlease : old.lease = some handled.lease)
    (hending : old.ending = none ∨ old.ending = some handled.ending)
    (hsolved : ∀ solved, handled.outcome = .solved solved →
      collected = some (.ok (.solved solved))) :
    Stage.Follows collected input old (Supervisor.finish config handled) := by
  have hsame : ∀ stage : Stage, stage.lease = some handled.lease →
      stage.ending = some handled.ending → stage.running = none → stage.decided = none →
      (∀ other solved, stage = .putting other solved → handled.ending = .completed ∧
        handled.outcome = .solved solved) →
      (∀ other resultRef, stage ≠ .acking other resultRef) →
      Stage.Follows collected input old stage := by
    intro stage hnew hnewEnding hrunning hdecided hputting hacking
    refine ⟨?_, ?_, by simp [hrunning], ?_, ?_, ?_, by simp [hdecided]⟩
    · intro lease hfound
      obtain rfl : handled.lease = lease := Option.some.inj (hnew.symm.trans hfound)
      exact ⟨handled.lease, hlease, Or.inl rfl⟩
    · intro _
      rw [hnewEnding]
      exact hending.imp id Eq.symm
    · constructor
      · rintro rfl
        simp [Stage.lease] at hnew
      · rintro lease rfl
        simp [Stage.ending] at hnewEnding
    · intro other solved hstage
      obtain ⟨hcompleted, houtcome⟩ := hputting other solved hstage
      subst hstage
      have hotherEnding : other.ending = handled.ending := Option.some.inj hnewEnding
      have hotherLease : other.lease = handled.lease := Option.some.inj hnew
      exact ⟨hotherEnding.trans hcompleted, handled.lease, hold, hotherLease,
        hsolved solved houtcome⟩
    · exact fun other resultRef hstage ↦ absurd hstage (hacking other resultRef)
  unfold Supervisor.finish
  split
  case h_6 hcompleted =>
    unfold Supervisor.report
    split
    case h_1 solved houtcome =>
      refine hsame _ rfl rfl rfl rfl (fun other found hstage ↦ ?_) (by simp)
      obtain ⟨-, rfl⟩ := Stage.putting.inj hstage
      exact ⟨hcompleted, houtcome⟩
    all_goals exact hsame _ rfl rfl rfl rfl (by simp) (by simp)
  all_goals exact hsame _ rfl rfl rfl rfl (by simp) (by simp)

/-- The end of `_kill`. -/
theorem of_stopped {config : WorkerConfig} {lease : Lease} {ending : Ending}
    (hold : old.running = some lease) (hlease : old.lease = some lease)
    (hending : old.ending = some ending) (result : Collected) :
    Stage.Follows (some result) input old (Supervisor.stopped config lease ending result) := by
  cases result with
  | ok outcome =>
    refine .of_finish hold hlease (Or.inr hending) fun solved houtcome ↦ ?_
    rw [show outcome = .solved solved from houtcome]
  | error error => exact .of_closing rfl rfl rfl Stage.noConfusion

/-- The SIGKILL of `_kill`. -/
theorem of_killed {lease : Lease} {ending : Ending} :
    Stage.Follows collected input (.stopping lease ending) (.killed lease ending) where
  lease := fun _ hfound ↦ ⟨lease, rfl, Or.inl (Option.some.inj hfound).symm⟩
  ending := fun _ ↦ Or.inr rfl
  running := fun _ ↦ Or.inr (by simp [Stage.running])
  starts := ⟨by simp, by simp⟩
  putting := by simp
  acking := by simp
  decided := by simp [Stage.decided]

/-- A put that was stored. -/
theorem of_stored {handled : Handled} {solved : Solved} :
    Stage.Follows collected .stored (.putting handled solved)
      (.acking handled (artifactKey handled.lease.job.id handled.lease.id)) where
  lease := fun _ hfound ↦ ⟨handled.lease, rfl, Or.inl (Option.some.inj hfound).symm⟩
  ending := fun _ ↦ Or.inr rfl
  running := by simp [Stage.running]
  starts := ⟨by simp, by simp⟩
  putting := by simp
  acking := by
    intro other resultRef hacking
    obtain ⟨rfl, rfl⟩ := Stage.acking.inj hacking
    exact ⟨solved, rfl, rfl, rfl⟩
  decided := by simp [Stage.decided]

/-- A put that raised. -/
theorem of_notStored {handled : Handled} {solved : Solved} {error : String}
    {retryIn : Option Duration} :
    Stage.Follows collected input (.putting handled solved) (.nacking handled error retryIn) where
  lease := fun _ hfound ↦ ⟨handled.lease, rfl, Or.inl (Option.some.inj hfound).symm⟩
  ending := fun _ ↦ Or.inr rfl
  running := by simp [Stage.running]
  starts := ⟨by simp, by simp⟩
  putting := by simp
  acking := by simp
  decided := by simp [Stage.decided]

end Stage.Follows

/-- A stage of an attempt follows the one before it. -/
theorem Supervisor.resume_follows {config : WorkerConfig} {collected : Option Collected}
    {old new : Stage} {input : Input} (hstart : ∀ lease, input ≠ .reserved (some lease))
    (h : Supervisor.resume config collected old input = some new) :
    Stage.Follows collected input old new := by
  unfold Supervisor.resume at h
  split at h
  all_goals first
    | (obtain rfl := Option.some.inj h; exact .of_closing rfl rfl rfl Stage.noConfusion)
    | skip
  case h_2 lease => exact absurd rfl (hstart lease)
  case h_4 lease time =>
    obtain rfl := Option.some.inj h
    exact .of_running rfl rfl (Or.inl rfl) rfl (Or.inl ⟨lease, rfl⟩) rfl
  case h_6 lease cap solved stopping time =>
    unfold wake at h
    split at h
    · obtain ⟨result, rfl, rfl⟩ := Option.map_eq_some_iff.mp h
      refine .of_finish rfl rfl (Or.inl rfl) fun found houtcome ↦ ?_
      cases result with
      | ok outcome => rw [show outcome = .solved found from houtcome]
      | error error => exact absurd houtcome (by simp [reported])
    · split at h
      · obtain rfl := Option.some.inj h
        exact .of_running rfl rfl (Or.inl rfl) rfl (Or.inr (by simp [Stage.running])) rfl
      · split at h
        · obtain rfl := Option.some.inj h
          exact .of_running rfl rfl (Or.inl rfl) rfl (Or.inr (by simp [Stage.running])) rfl
        · obtain rfl := Option.some.inj h
          exact .of_running rfl rfl (Or.inl rfl) rfl (Or.inr (by simp [Stage.running])) rfl
  case h_7 lease cap renewal clock =>
    obtain rfl := Option.some.inj h
    unfold beat
    split
    · exact .of_running rfl rfl (Or.inl rfl) rfl (Or.inr (by simp [Stage.running])) rfl
    · split
      · exact .of_running rfl rfl (Or.inl rfl) rfl (Or.inr (by simp [Stage.running])) rfl
      · exact .of_running rfl rfl (Or.inl rfl) rfl (Or.inr (by simp [Stage.running])) rfl
    · split
      · exact .of_running rfl rfl (Or.inr ⟨cap, clock, rfl, rfl⟩) rfl
          (Or.inr (by simp [Stage.running])) rfl
      · exact .of_running rfl rfl (Or.inr ⟨cap, clock, rfl, rfl⟩) rfl
          (Or.inr (by simp [Stage.running])) rfl
  case h_8 lease ending =>
    obtain ⟨result, rfl, rfl⟩ := Option.map_eq_some_iff.mp h
    exact .of_stopped rfl rfl rfl result
  case h_9 lease ending =>
    obtain rfl := Option.some.inj h
    exact .of_killed
  case h_10 lease ending =>
    obtain ⟨result, rfl, rfl⟩ := Option.map_eq_some_iff.mp h
    exact .of_stopped rfl rfl rfl result
  case h_16 handled solved =>
    obtain rfl := Option.some.inj h
    exact .of_stored
  case h_17 handled solved error =>
    obtain rfl := Option.some.inj h
    exact .of_notStored
  case h_21 result =>
    obtain ⟨ended, rfl, rfl⟩ := Option.map_eq_some_iff.mp h
    cases ended <;> exact .of_closing rfl rfl rfl Stage.noConfusion
  case h_23 result =>
    obtain ⟨ended, rfl, rfl⟩ := Option.map_eq_some_iff.mp h
    cases ended <;> exact .of_closing rfl rfl rfl Stage.noConfusion
  case h_24 => exact absurd h (by simp)

end Abacus.Worker
