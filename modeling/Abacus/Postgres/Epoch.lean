import Abacus.Postgres.Run

/-!
# What a store call does to a waiting job

The attempts of a row tell one wait from the next: they grow with every claim and with nothing else.
A fact about a job's `run_after` that held when its attempts were `cause` is `Current` if it still
holds unless the job has been claimed since, and every store call keeps it so
(`JobStep.current`). A fact that holds of every waiting row with a `published_at` is `Announced`;
only `mark_published` can make a row announced (`JobStep.announced`).
-/

set_option autoImplicit false
set_option relaxedAutoImplicit false

namespace Abacus.Postgres

open RowLocking

/-- The job has a row, and if it waits and has not been claimed since its attempts were `cause`, the
fact holds of its `run_after`. -/
def Current (cause : ℕ) (holds : Instant → Prop) (row : Option JobRow) : Prop :=
  ∃ found, row = some found ∧ cause ≤ found.attempts ∧
    (found.state = .running → cause < found.attempts) ∧
    (found.state.waiting = true → found.attempts = cause → holds found.runAfter)

/-- If the job waits and has a `published_at`, the fact holds of its `run_after`. -/
def Announced (holds : Instant → Prop) (row : Option JobRow) : Prop :=
  ∀ found, row = some found → found.state.waiting = true → found.publishedAt ≠ none →
    holds found.runAfter

theorem Current.mono {cause : ℕ} {holds holds' : Instant → Prop} {row : Option JobRow}
    (h : Current cause holds row)
    (himp : ∀ found, row = some found → found.state.waiting = true → holds found.runAfter →
      holds' found.runAfter) : Current cause holds' row := by
  obtain ⟨found, hfound, hle, hrunning, hholds⟩ := h
  exact ⟨found, hfound, hle, hrunning, fun hwaiting hcause ↦
    himp found hfound hwaiting (hholds hwaiting hcause)⟩

theorem Announced.mono {holds holds' : Instant → Prop} {row : Option JobRow}
    (h : Announced holds row)
    (himp : ∀ found, row = some found → found.state.waiting = true → holds found.runAfter →
      holds' found.runAfter) : Announced holds' row :=
  fun found hfound hwaiting hpublished ↦
    himp found hfound hwaiting (h found hfound hwaiting hpublished)

/-- A row that waits is current from the moment it is looked at. -/
theorem Current.of_waiting {row : JobRow} {holds : Instant → Prop} (hstate : row.state ≠ .running)
    (h : row.state.waiting = true → holds row.runAfter) :
    Current row.attempts holds (some row) :=
  ⟨row, rfl, le_refl _, fun hrunning ↦ absurd hrunning hstate, fun hwaiting _ ↦ h hwaiting⟩

/-- A change that leaves a current row in its state, with its attempts and its `run_after`. -/
theorem Current.of_eq {cause : ℕ} {holds : Instant → Prop} {row new : JobRow}
    (h : Current cause holds (some row)) (hstate : new.state = row.state)
    (hattempts : new.attempts = row.attempts) (hrunAfter : new.runAfter = row.runAfter) :
    Current cause holds (some new) := by
  obtain ⟨found, hfound, hle, hrunning, hholds⟩ := h
  obtain rfl : row = found := Option.some.inj hfound
  refine ⟨new, rfl, ?_, ?_, ?_⟩
  · rw [hattempts]
    exact hle
  · rw [hattempts, hstate]
    exact hrunning
  · rw [hattempts, hstate, hrunAfter]
    exact hholds

/-- A change that stops a waiting job. -/
theorem Current.of_stopped {cause : ℕ} {holds : Instant → Prop} {row new : JobRow}
    (h : Current cause holds (some row)) (hattempts : new.attempts = row.attempts)
    (hrunning : new.state ≠ .running) (hwaiting : new.state.waiting = false) :
    Current cause holds (some new) := by
  obtain ⟨found, hfound, hle, -, -⟩ := h
  obtain rfl : row = found := Option.some.inj hfound
  refine ⟨new, rfl, ?_, fun hstate ↦ absurd hstate hrunning, fun hstate ↦ ?_⟩
  · rw [hattempts]
    exact hle
  · rw [hwaiting] at hstate
    exact absurd hstate (by simp)

/-- A change that ends an attempt: the job has been claimed since. -/
theorem Current.of_running {cause : ℕ} {holds : Instant → Prop} {row new : JobRow}
    (h : Current cause holds (some row)) (hrow : row.state = .running)
    (hattempts : new.attempts = row.attempts) (hrunning : new.state ≠ .running) :
    Current cause holds (some new) := by
  obtain ⟨found, hfound, -, hlt, -⟩ := h
  obtain rfl : row = found := Option.some.inj hfound
  have hclaimed : cause < new.attempts := by
    rw [hattempts]
    exact hlt hrow
  refine ⟨new, rfl, hclaimed.le, fun hstate ↦ absurd hstate hrunning, fun _ hcause ↦ ?_⟩
  exact absurd hcause hclaimed.ne'

/-- Every store call keeps a current fact current. -/
theorem JobStep.current {now : Instant} {jobId : Uuid} {operation : Operation} {outcome : Outcome}
    {before after : Option JobRow} (hstep : JobStep now jobId operation outcome before after)
    (hshape : HasShape before) {cause : ℕ} {holds : Instant → Prop}
    (h : Current cause holds before) : Current cause holds after := by
  cases hstep with
  | unchanged row hmoves => exact h
  | inserted request hattempts =>
    obtain ⟨found, hfound, -⟩ := h
    exact absurd hfound (by simp)
  | published row => exact h.of_eq rfl rfl rfl
  | cancelled row outcome hwaiting =>
    have hstate := cancelled_state_of_waiting hwaiting
    exact h.of_stopped rfl (by simp [hstate]) (by simp [hstate, JobState.waiting])
  | flagged row outcome hrunning => exact h.of_eq (by simp [JobRow.cancelled, hrunning]) rfl rfl
  | claimed row leaseId owner lease hreservable =>
    obtain ⟨found, hfound, hle, -, -⟩ := h
    obtain rfl : row = found := Option.some.inj hfound
    refine ⟨_, rfl, Nat.le_succ_of_le hle, fun _ ↦ Nat.lt_succ_of_le hle, fun hwaiting ↦ ?_⟩
    simp [JobRow.claimed, JobState.waiting] at hwaiting
  | retired row scan ids hmem hretirable =>
    exact h.of_running (running_of_retirable hretirable) rfl
      (retired_state_ne row).1
  | extended row lease duration hjob hfenced => exact h.of_eq rfl rfl rfl
  | acked row lease resultRef hjob hfenced =>
    exact h.of_running ((hshape row rfl).running_of_fenced hfenced) rfl
      (by simp [JobRow.acked])
  | nacked row lease error retryIn hjob hfenced =>
    exact h.of_running ((hshape row rfl).running_of_fenced hfenced) rfl (nackState_ne row).1

/-- A nack that gives the job back clears its `published_at`. -/
theorem publishedAt_of_nackState_waiting {row : JobRow} {now : Instant} {error : String}
    {retryIn : Option Duration} (h : row.nackState.waiting = true) :
    (row.nacked now error retryIn).publishedAt = none := by
  unfold JobRow.nackState at h
  split at h
  · simp [JobState.waiting] at h
  · rename_i hcancel
    split at h
    · simp [JobState.waiting] at h
    · rename_i hattempts
      simp [JobRow.nacked, JobRow.released, hcancel, not_le.mp hattempts]

/-- A store call announces no job but through a `mark_published` of a waiting row. -/
theorem JobStep.announced {now : Instant} {jobId : Uuid} {operation : Operation} {outcome : Outcome}
    {before after : Option JobRow} (hstep : JobStep now jobId operation outcome before after)
    (hshape : HasShape before) {holds : Instant → Prop} (h : Announced holds before)
    (hmark : operation = .markPublished jobId → ∀ row, before = some row →
      row.state.waiting = true → row.publishedAt = none → holds row.runAfter) :
    Announced holds after := by
  intro new hnew hwaiting hpublished
  cases hstep with
  | unchanged row hmoves => exact h new hnew hwaiting hpublished
  | inserted request hattempts =>
    rw [← Option.some.inj hnew] at hpublished
    exact absurd rfl hpublished
  | published row =>
    obtain rfl : row.published now = new := Option.some.inj hnew
    by_cases hnull : row.publishedAt = none
    · exact hmark rfl row rfl hwaiting hnull
    · exact h row rfl hwaiting hnull
  | cancelled row outcome hbefore =>
    rw [← Option.some.inj hnew, cancelled_state_of_waiting hbefore] at hwaiting
    simp [JobState.waiting] at hwaiting
  | flagged row outcome hrunning =>
    rw [← Option.some.inj hnew] at hwaiting
    simp [JobRow.cancelled, hrunning, JobState.waiting] at hwaiting
  | claimed row leaseId owner lease hreservable =>
    rw [← Option.some.inj hnew] at hwaiting
    simp [JobRow.claimed, JobState.waiting] at hwaiting
  | retired row scan ids hmem hretirable =>
    rw [← Option.some.inj hnew] at hwaiting
    cases hcancel : row.cancelRequested <;>
      simp [JobRow.retired, hcancel, JobState.waiting] at hwaiting
  | extended row lease duration hjob hfenced =>
    have hrunning := (hshape row rfl).running_of_fenced hfenced
    rw [← Option.some.inj hnew] at hwaiting
    simp [JobRow.extended, hrunning, JobState.waiting] at hwaiting
  | acked row lease resultRef hjob hfenced =>
    rw [← Option.some.inj hnew] at hwaiting
    simp [JobRow.acked, JobState.waiting] at hwaiting
  | nacked row lease error retryIn hjob hfenced =>
    rw [← Option.some.inj hnew] at hwaiting hpublished
    exact absurd (publishedAt_of_nackState_waiting hwaiting) hpublished

/-! ### What a call that returned did -/

/-- An insertion that created its job left it waiting. -/
theorem jobRow_of_enqueued {now : Instant} {jobId : Uuid} {request : JobRequest} {job : Job}
    {before after : Database}
    (h : perform now (.insertOrGet jobId request) before = (.ok (.enqueued job true), after)) :
    job.id = jobId ∧ jobRow after jobId = some (JobRow.inserted now request) := by
  have hstep := (perform_stepsJob h jobId).1
  generalize jobRow before jobId = row at hstep
  generalize hafter : jobRow after jobId = new at hstep
  cases hstep with
  | unchanged row hmoves => exact absurd hmoves (by simp [Operation.moves])
  | inserted request hattempts => exact ⟨rfl, rfl⟩

/-- A nack that returned left the row that `nack` computes. -/
theorem jobRow_of_nacked {now : Instant} {lease : Lease} {error : String}
    {retryIn : Option Duration} {job : Job} {before after : Database}
    (h : perform now (.nack lease error retryIn) before = (.ok (.nacked job), after)) :
    job.id = lease.job.id ∧
      ∃ row : JobRow, jobRow after lease.job.id = some (row.nacked now error retryIn) := by
  have hstep := (perform_stepsJob h lease.job.id).1
  generalize jobRow before lease.job.id = row at hstep
  generalize jobRow after lease.job.id = new at hstep
  cases hstep with
  | unchanged row hmoves => exact absurd hmoves (by simp [Operation.moves])
  | nacked row lease error retryIn hjob hfenced => exact ⟨rfl, row, rfl⟩

/-- A listing returns what it finds and changes nothing. -/
theorem perform_unpublished (now : Instant) (scan : List Uuid) (olderThan : Duration)
    (database : Database) : perform now (.unpublished scan olderThan) database =
      (.ok (.jobIds (scan.filter fun jobId ↦ (jobRow database jobId).any fun row ↦
        row.publishedAt.isNone && row.state.waiting && decide (row.runAfter < now - olderThan))),
        database) :=
  rfl

theorem updateJob_execute_of_match {A : Type} {jobId : Uuid} {set : JobRow → Option JobRow}
    {rest : Option JobRow → Sql A} {database : Database} {row new : JobRow}
    (hrow : jobRow database jobId = some row) (hset : set row = some new) :
    (updateJob jobId set >>= rest).execute database =
      (rest (some new)).execute (database.set (.job jobId) (some new)) := by
  have hmatch : ((database.row (.job jobId) : Option JobRow).bind set).map some =
      some (some new) := by
    rw [show (database.row (.job jobId) : Option JobRow) = some row from hrow, Option.bind_some,
      hset]
    rfl
  rw [Program.execute_bind, updateJob, Program.execute_update_of_match hmatch]
  rfl

/-- A claim of a job that is reservable does not return without a lease. -/
theorem claim_isSome_of_reservable {now : Instant} {jobId leaseId : Uuid} {owner : String}
    {duration : Duration} {lease : Option Lease} {before after : Database} {row : JobRow}
    (h : (claim now jobId leaseId owner duration).execute before = .ok (lease, after))
    (hrow : jobRow before jobId = some row)
    (hreservable : (row.waiting now || row.lapsed now) = true) : lease.isSome = true := by
  have hset : whenever (fun row ↦ row.waiting now || row.lapsed now)
      (fun row ↦ row.claimed now leaseId owner duration) row =
        some (row.claimed now leaseId owner duration) := if_pos hreservable
  rw [claim, updateJob_execute_of_match hrow hset] at h
  obtain ⟨_, _, -, hvalue, -⟩ := Program.yields_bind (Program.yields_of_execute h)
  rw [← hvalue]
  rfl

/-- A claim that returned, with a lease or without, leaves the job in no state to be claimed from
waiting. -/
theorem waiting_eq_false_of_claimed {now : Instant} {jobId leaseId : Uuid} {owner : String}
    {duration : Duration} {outcome : Outcome} {before after : Database}
    (h : perform now (.claim jobId leaseId owner duration) before = (.ok outcome, after))
    {row : JobRow} (hrow : jobRow after jobId = some row) : row.waiting now = false := by
  obtain ⟨lease, hlease, rfl⟩ := Program.execute_map (Program.execute_of_run_ok h)
  have hstep := (perform_stepsJob h jobId).1
  rw [hrow] at hstep
  generalize hbefore : jobRow before jobId = old at hstep
  cases hstep with
  | unchanged _ hmoves =>
    by_contra hwaiting
    have hreservable : (row.waiting now || row.lapsed now) = true := by
      rw [Bool.or_eq_true]
      exact Or.inl (Bool.eq_true_of_not_eq_false hwaiting)
    have hsome := claim_isSome_of_reservable hlease hbefore hreservable
    simp [Operation.moves, hsome] at hmoves
  | claimed row _ _ _ hreservable => simp [JobRow.claimed, JobRow.waiting, JobState.waiting]

end Abacus.Postgres
