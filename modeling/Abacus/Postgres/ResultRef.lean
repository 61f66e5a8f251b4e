import Abacus.Postgres.Fencing

/-!
# Where a job's result comes from

Along a run of the job store, a job with a `result_ref` is done, the `result_ref` is what its one
successful ack passed (`Run.acked_of_resultRef`), and no later call changes it
(`JobStep.resultRef_of_done`).
-/

set_option autoImplicit false
set_option relaxedAutoImplicit false

namespace Abacus.Postgres

/-- A row has no result, or is done and has one that an ack passed. -/
def ResultFrom (passed : String → Prop) (row : Option JobRow) : Prop :=
  ∀ found, row = some found → ∀ resultRef, found.resultRef = some resultRef →
    found.state = .done ∧ passed resultRef

/-- A row that is not done has no result. -/
theorem ResultFrom.none_of_not_done {passed : String → Prop} {row : JobRow}
    (h : ResultFrom passed (some row)) (hstate : row.state ≠ .done) : row.resultRef = none := by
  cases href : row.resultRef with
  | none => rfl
  | some resultRef => exact absurd (h row rfl resultRef href).1 hstate

/-- A change that leaves the result as it was, of a row that has none or stays as it is. -/
theorem ResultFrom.of_none {passed : String → Prop} {row new : JobRow}
    (h : ResultFrom passed (some row)) (hstate : row.state ≠ .done)
    (hsame : new.resultRef = row.resultRef) : ResultFrom passed (some new) := by
  intro found hfound resultRef href
  rw [← Option.some.inj hfound, hsame, h.none_of_not_done hstate] at href
  exact absurd href (by simp)

/-- Only an ack gives a job a result. -/
theorem JobStep.resultFrom {now : Instant} {jobId : Uuid} {operation : Operation}
    {outcome : Outcome} {before after : Option JobRow}
    (hstep : JobStep now jobId operation outcome before after) (hshape : HasShape before)
    {passed : String → Prop} (h : ResultFrom passed before)
    (hack : ∀ lease resultRef, operation = .ack lease (some resultRef) → lease.job.id = jobId →
      passed resultRef) : ResultFrom passed after := by
  have hne : ∀ {row : JobRow}, row.state = .running → row.state ≠ .done := by
    intro row hrunning hdone
    rw [hrunning] at hdone
    exact absurd hdone (by simp)
  have hwaitingNe : ∀ {row : JobRow}, row.state.waiting = true → row.state ≠ .done := by
    intro row hwaiting hdone
    rw [hdone] at hwaiting
    exact absurd hwaiting (by simp [JobState.waiting])
  cases hstep with
  | unchanged row hmoves => exact h
  | inserted request hattempts =>
    intro found hfound resultRef href
    rw [← Option.some.inj hfound] at href
    exact absurd href (by simp [JobRow.inserted])
  | published row =>
    intro found hfound resultRef href
    rw [← Option.some.inj hfound] at href ⊢
    exact h row rfl resultRef href
  | cancelled row outcome hwaiting => exact h.of_none (hwaitingNe hwaiting) rfl
  | flagged row outcome hrunning => exact h.of_none (hne hrunning) rfl
  | claimed row leaseId owner lease hreservable =>
    rcases waiting_or_running_of_reservable hreservable with hwaiting | hrunning
    · exact h.of_none (hwaitingNe hwaiting) rfl
    · exact h.of_none (hne hrunning) rfl
  | retired row scan ids hmem hretirable =>
    exact h.of_none (hne (running_of_retirable hretirable)) rfl
  | extended row lease duration hjob hfenced =>
    exact h.of_none (hne ((hshape row rfl).running_of_fenced hfenced)) rfl
  | acked row lease resultRef hjob hfenced =>
    intro found hfound passedRef href
    rw [← Option.some.inj hfound] at href ⊢
    obtain rfl : resultRef = some passedRef := href
    exact ⟨rfl, hack lease passedRef rfl hjob⟩
  | nacked row lease error retryIn hjob hfenced =>
    exact h.of_none (hne ((hshape row rfl).running_of_fenced hfenced)) rfl

/-- No call changes the result of a job that is done. -/
theorem JobStep.resultRef_of_done {now : Instant} {jobId : Uuid} {operation : Operation}
    {outcome : Outcome} {row : JobRow} {after : Option JobRow}
    (hstep : JobStep now jobId operation outcome (some row) after) (hshape : row.Shaped)
    (hdone : row.state = .done) :
    ∃ new, after = some new ∧ new.state = .done ∧ new.resultRef = row.resultRef := by
  obtain ⟨⟨new, rfl, hnew⟩, hnoAck⟩ := hstep.done hshape hdone
  refine ⟨new, rfl, hnew, ?_⟩
  cases hstep with
  | unchanged row hmoves => rfl
  | published row => rfl
  | cancelled row outcome hwaiting => rfl
  | flagged row outcome hrunning => rfl
  | claimed row leaseId owner lease hreservable => rfl
  | retired row scan ids hmem hretirable => rfl
  | extended row lease duration hjob hfenced => rfl
  | acked row lease resultRef hjob hfenced => exact absurd hjob (hnoAck lease resultRef rfl)
  | nacked row lease error retryIn hjob hfenced => rfl

/-- The result of a job is what an ack of it that succeeded passed. -/
theorem Run.acked_of_resultRef {history : List Entry} {database : Database}
    (h : Run history database) (jobId : Uuid) :
    ResultFrom (fun resultRef ↦ ∃ entry ∈ history, ∃ lease outcome,
      entry.call.operation = .ack lease (some resultRef) ∧ entry.reply = .ok outcome ∧
        lease.job.id = jobId) (jobRow database jobId) := by
  induction h with
  | empty =>
    intro found hfound
    exact absurd hfound (by simp [jobRow, Database.empty])
  | @step history database before call hclock hfresh ih =>
    have hearlier : ∀ row, ResultFrom (fun resultRef ↦ ∃ entry ∈ history, ∃ lease outcome,
        entry.call.operation = .ack lease (some resultRef) ∧ entry.reply = .ok outcome ∧
          lease.job.id = jobId) row →
        ResultFrom (fun resultRef ↦ ∃ entry ∈ history ++
          [⟨call, (perform call.now call.operation database).1⟩], ∃ lease outcome,
          entry.call.operation = .ack lease (some resultRef) ∧ entry.reply = .ok outcome ∧
            lease.job.id = jobId) row := by
      intro row hrow found hfound resultRef href
      obtain ⟨hdone, entry, hentry, hacked⟩ := hrow found hfound resultRef href
      exact ⟨hdone, entry, List.mem_append_left _ hentry, hacked⟩
    rcases perform_jobStep call.now call.operation database jobId with
      ⟨outcome, hreply, hstep⟩ | ⟨error, -, hsame⟩
    · refine hstep.resultFrom (before.hasShape jobId) (hearlier _ ih)
        fun lease resultRef hack hjob ↦ ?_
      exact ⟨_, List.mem_append_right _ (List.mem_singleton.mpr rfl), lease, outcome, hack, hreply,
        hjob⟩
    · rw [hsame]
      exact hearlier _ ih

/-- A job is acked by one call. -/
theorem Run.acked_unique {history : List Entry} {database : Database} (h : Run history database)
    {jobId : Uuid} {first second : Entry} (hfirst : first ∈ history) (hsecond : second ∈ history)
    (hfirstAcked : first.acked jobId = true) (hsecondAcked : second.acked jobId = true) :
    first = second := by
  have hmem : first ∈ history.filter (Entry.acked jobId) ∧
      second ∈ history.filter (Entry.acked jobId) :=
    ⟨List.mem_filter.mpr ⟨hfirst, hfirstAcked⟩, List.mem_filter.mpr ⟨hsecond, hsecondAcked⟩⟩
  have hlength : (history.filter (Entry.acked jobId)).length ≤ 1 := by
    rw [← List.countP_eq_length_filter]
    rcases h.at_most_one_ack jobId with hzero | ⟨hone, -⟩
    · omega
    · omega
  obtain ⟨only, honly⟩ : ∃ only, history.filter (Entry.acked jobId) = [only] := by
    refine List.length_eq_one_iff.mp (le_antisymm hlength ?_)
    exact List.length_pos_of_mem hmem.1
  rw [honly] at hmem
  rw [List.mem_singleton.mp hmem.1, List.mem_singleton.mp hmem.2]

end Abacus.Postgres
