import Abacus.Postgres.JobStep

/-!
# The shape of a job's row

The three lease columns of a row are set exactly while the job is running (`JobRow.Shaped`), and
every step of a job keeps it so (`JobStep.shaped`). `ack`, `nack` and `extend` test the token and
not the state; that a row which answers to a token is running is this invariant.
-/

set_option autoImplicit false
set_option relaxedAutoImplicit false

namespace Abacus.Postgres

/-- A row carries a token, a deadline and an owner exactly while it is running. -/
structure JobRow.Shaped (row : JobRow) : Prop where
  token : row.leaseId ≠ none ↔ row.state = .running
  deadline : row.leaseExpiresAt ≠ none ↔ row.state = .running
  owner : row.leaseOwner ≠ none ↔ row.state = .running

namespace JobRow.Shaped

/-- A change of other columns keeps the shape. -/
theorem of_eq {row new : JobRow} (h : row.Shaped) (hstate : new.state = row.state)
    (htoken : new.leaseId = row.leaseId) (hdeadline : new.leaseExpiresAt = row.leaseExpiresAt)
    (howner : new.leaseOwner = row.leaseOwner) : new.Shaped where
  token := by rw [htoken, hstate, h.token]
  deadline := by rw [hdeadline, hstate, h.deadline]
  owner := by rw [howner, hstate, h.owner]

/-- A row whose lease was dropped and which is not running. -/
theorem of_released {row : JobRow} (htoken : row.leaseId = none)
    (hdeadline : row.leaseExpiresAt = none) (howner : row.leaseOwner = none)
    (hstate : row.state ≠ .running) : row.Shaped where
  token := by simp [htoken, hstate]
  deadline := by simp [hdeadline, hstate]
  owner := by simp [howner, hstate]

/-- A row that answers to a lease is running. -/
theorem running_of_fenced {row : JobRow} (h : row.Shaped) {lease : Lease}
    (hfenced : row.fenced lease = true) : row.state = .running := by
  rw [JobRow.fenced, beq_iff_eq] at hfenced
  refine h.token.mp ?_
  rw [hfenced]
  exact Option.some_ne_none lease.id

end JobRow.Shaped

/-- The row of a job, if it has one, is well shaped. -/
def HasShape (row : Option JobRow) : Prop :=
  ∀ found, row = some found → found.Shaped

theorem hasShape_some {row : JobRow} (h : row.Shaped) : HasShape (some row) := by
  intro found hfound
  rw [← Option.some.inj hfound]
  exact h

theorem nackState_ne (row : JobRow) : row.nackState ≠ .running ∧ row.nackState ≠ .queued := by
  rw [JobRow.nackState]
  split
  · exact ⟨by simp, by simp⟩
  · split
    · exact ⟨by simp, by simp⟩
    · exact ⟨by simp, by simp⟩

theorem retired_state_ne (row : JobRow) :
    row.retired.state ≠ .running ∧ row.retired.state ≠ .queued := by
  cases hcancel : row.cancelRequested <;> simp [JobRow.retired, hcancel]

theorem not_running_of_waiting {row : JobRow} (h : row.state.waiting = true) :
    row.state ≠ .running := by
  rintro hrunning
  simp [hrunning, JobState.waiting] at h

theorem cancelled_state_of_waiting {row : JobRow} (h : row.state.waiting = true) :
    row.cancelled.state = .cancelled := by
  simp [JobRow.cancelled, not_running_of_waiting h]

theorem running_of_retirable {row : JobRow} {now : Instant} (h : row.retirable now = true) :
    row.state = .running := by
  simp only [JobRow.retirable, Bool.and_eq_true, beq_iff_eq] at h
  exact h.1.1

theorem waiting_or_running_of_reservable {row : JobRow} {now : Instant}
    (h : (row.waiting now || row.lapsed now) = true) :
    row.state.waiting = true ∨ row.state = .running := by
  rw [Bool.or_eq_true] at h
  rcases h with h | h
  · simp only [JobRow.waiting, Bool.and_eq_true] at h
    exact Or.inl h.1
  · simp only [JobRow.lapsed, Bool.and_eq_true, beq_iff_eq] at h
    exact Or.inr h.1.1.1

/-- Every step of a job keeps its row well shaped. -/
theorem JobStep.shaped {now : Instant} {jobId : Uuid} {operation : Operation} {outcome : Outcome}
    {before after : Option JobRow} (hstep : JobStep now jobId operation outcome before after)
    (h : HasShape before) : HasShape after := by
  cases hstep with
  | unchanged row hmoves => exact h
  | inserted request hattempts =>
    exact hasShape_some (.of_released rfl rfl rfl (by simp [JobRow.inserted]))
  | published row => exact hasShape_some ((h row rfl).of_eq rfl rfl rfl rfl)
  | cancelled row outcome hwaiting =>
    have hrunning := not_running_of_waiting hwaiting
    have hshape := h row rfl
    refine hasShape_some (.of_released ?_ ?_ ?_ ?_)
    · exact not_not.mp (mt hshape.token.mp hrunning)
    · exact not_not.mp (mt hshape.deadline.mp hrunning)
    · exact not_not.mp (mt hshape.owner.mp hrunning)
    · rw [cancelled_state_of_waiting hwaiting]
      simp
  | flagged row outcome hrunning =>
    exact hasShape_some ((h row rfl).of_eq (by simp [JobRow.cancelled, hrunning]) rfl rfl rfl)
  | claimed row leaseId owner lease hreservable =>
    refine hasShape_some ⟨?_, ?_, ?_⟩ <;> simp [JobRow.claimed]
  | retired row scan ids hmem hretirable =>
    exact hasShape_some (.of_released rfl rfl rfl (retired_state_ne row).1)
  | extended row lease duration hjob hfenced =>
    have hrunning := (h row rfl).running_of_fenced hfenced
    refine hasShape_some ⟨?_, ?_, ?_⟩
    · exact (h row rfl).token
    · simp [JobRow.extended, hrunning]
    · exact (h row rfl).owner
  | acked row lease resultRef hjob hfenced =>
    exact hasShape_some (.of_released rfl rfl rfl (by simp [JobRow.acked]))
  | nacked row lease error retryIn hjob hfenced =>
    exact hasShape_some (.of_released rfl rfl rfl (nackState_ne row).1)

end Abacus.Postgres
