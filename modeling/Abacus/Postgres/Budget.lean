import Abacus.Postgres.RowShape

/-!
# The attempt budget

A claim spends one attempt, and the branch of `claim` for waiting jobs does not look at the budget.
That it is never overdrawn rests on what every waiting row satisfies: it has an attempt left
(`Budget.waiting`). A nack makes a job wait only when one is left, and a retirement never does.
-/

set_option autoImplicit false
set_option relaxedAutoImplicit false

namespace Abacus.Postgres

/-- Whether a call that returned `outcome` is a successful claim of the job. -/
def Operation.claims (jobId : Uuid) : Operation → Outcome → Bool
  | .claim claimedId _ _ _, .claimed lease => lease.isSome && decide (claimedId = jobId)
  | _, _ => false

/-- A row that was claimed so often: its attempts are the claims, the budget covers them, and one is
left while it waits. -/
structure Budget (claims : ℕ) (row : JobRow) : Prop where
  attempts : row.attempts = claims
  covered : row.attempts ≤ row.maxAttempts
  waiting : row.state.waiting = true → row.attempts < row.maxAttempts

/-- A job that does not exist was not claimed. -/
def HasBudget (claims : ℕ) : Option JobRow → Prop
  | some row => Budget claims row
  | none => claims = 0

namespace Budget

variable {claims : ℕ} {row new : JobRow}

/-- A step that is no claim leaves the attempts, and the row not waiting but where it was. -/
theorem of_eq (h : Budget claims row) (hattempts : new.attempts = row.attempts)
    (hmax : new.maxAttempts = row.maxAttempts)
    (hwaiting : new.state.waiting = true → row.state.waiting = true) : Budget claims new where
  attempts := hattempts.trans h.attempts
  covered := by
    rw [hattempts, hmax]
    exact h.covered
  waiting hnew := by
    rw [hattempts, hmax]
    exact h.waiting (hwaiting hnew)

/-- Only a job that waits or has lapsed is claimed, and both have an attempt left. -/
theorem left_of_reservable (h : Budget claims row) {now : Instant}
    (hreservable : (row.waiting now || row.lapsed now) = true) :
    row.attempts < row.maxAttempts := by
  rw [Bool.or_eq_true] at hreservable
  rcases hreservable with hwaiting | hlapsed
  · simp only [JobRow.waiting, Bool.and_eq_true] at hwaiting
    exact h.waiting hwaiting.1
  · simp only [JobRow.lapsed, Bool.and_eq_true, decide_eq_true_eq] at hlapsed
    exact hlapsed.1.2

theorem claimed (h : Budget claims row) {now : Instant} {leaseId : Uuid} {owner : String}
    {lease : Duration} (hreservable : (row.waiting now || row.lapsed now) = true) :
    Budget (claims + 1) (row.claimed now leaseId owner lease) where
  attempts := by
    have hattempts := h.attempts
    show row.attempts + 1 = claims + 1
    omega
  covered := h.left_of_reservable hreservable
  waiting hwaiting := by simp [JobRow.claimed, JobState.waiting] at hwaiting

theorem nacked (h : Budget claims row) (now : Instant) (error : String)
    (retryIn : Option Duration) : Budget claims (row.nacked now error retryIn) where
  attempts := h.attempts
  covered := h.covered
  waiting hwaiting := by
    by_contra hspent
    have hmax : row.maxAttempts ≤ row.attempts := not_lt.mp hspent
    cases hcancel : row.cancelRequested <;>
      simp [JobRow.nacked, JobRow.nackState, hcancel, hmax, JobState.waiting] at hwaiting

end Budget

/-- A step of a job keeps its budget, with one more claim if it is one. -/
theorem JobStep.budget {now : Instant} {jobId : Uuid} {operation : Operation} {outcome : Outcome}
    {before after : Option JobRow} {claims : ℕ}
    (hstep : JobStep now jobId operation outcome before after) (h : HasBudget claims before) :
    HasBudget (claims + if operation.claims jobId outcome then 1 else 0) after := by
  cases hstep with
  | unchanged row hmoves =>
    have hnone : operation.claims jobId outcome = false := by
      cases operation with
      | claim claimedId leaseId owner lease =>
        cases outcome with
        | claimed granted => exact hmoves
        | _ => rfl
      | _ => rfl
    rw [hnone]
    exact h
  | inserted request hattempts =>
    obtain rfl : claims = 0 := h
    exact ⟨rfl, Nat.zero_le _, fun _ ↦ Nat.pos_of_ne_zero hattempts⟩
  | published row => exact Budget.of_eq h rfl rfl fun hwaiting ↦ hwaiting
  | cancelled row outcome hwaiting =>
    refine Budget.of_eq h rfl rfl fun _ ↦ hwaiting
  | flagged row outcome hrunning =>
    refine Budget.of_eq h rfl rfl fun hwaiting ↦ ?_
    simp [JobRow.cancelled, hrunning, JobState.waiting] at hwaiting
  | claimed row leaseId owner lease hreservable =>
    rw [if_pos (by simp [Operation.claims])]
    exact Budget.claimed h hreservable
  | retired row scan ids hmem hretirable =>
    refine Budget.of_eq h rfl rfl fun hwaiting ↦ ?_
    cases hcancel : row.cancelRequested <;>
      simp [JobRow.retired, hcancel, JobState.waiting] at hwaiting
  | extended row lease duration hjob hfenced =>
    exact Budget.of_eq h rfl rfl fun hwaiting ↦ hwaiting
  | acked row lease resultRef hjob hfenced =>
    refine Budget.of_eq h rfl rfl fun hwaiting ↦ ?_
    simp [JobRow.acked, JobState.waiting] at hwaiting
  | nacked row lease error retryIn hjob hfenced => exact Budget.nacked h now error retryIn

/-- Whether a commit is a successful claim of the job. -/
def Commit.claims (jobId : Uuid) (commit : Commit) : Bool :=
  commit.label.operation.claims jobId commit.result

/-- In every run the row of a job keeps to its budget. -/
theorem hasBudget_of_execution {Backend : Type} [DecidableEq Backend] {history : List Commit}
    {system : System Backend} (h : Execution history system) (jobId : Uuid) :
    HasBudget (history.countP (Commit.claims jobId)) (jobRow system.committed jobId) := by
  let Kept (history : List Commit) (database : Database) : Prop :=
    HasBudget (history.countP (Commit.claims jobId)) (jobRow database jobId)
  have hempty : Kept [] Database.empty := rfl
  refine RowLocking.Execution.history_invariant hempty ?_ h
  intro history commit hkept hyields
  have hstep := (Operation.program_stepsJob hyields jobId).1.budget hkept
  show HasBudget _ _
  rwa [List.countP_append, List.countP_singleton]

end Abacus.Postgres
