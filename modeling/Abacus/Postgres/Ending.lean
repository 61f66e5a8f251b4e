import Abacus.Postgres.Budget
import Abacus.Postgres.Constraints
import Abacus.Postgres.Lifecycle
import Abacus.Postgres.Succeeds

/-!
# Every job ends

A job that runs has been put into at most two states for each of its attempts, one that waits into
one more, and one that has ended into one more than twice its limit (`JobRow.span`). A job that has
not ended can be put into another state as soon as it is due, by a claim or by a retirement. So it
ends, whatever the workers that take it come to, if only it goes on being offered
(`every_job_ends`), and a session's log has at most `2 * max_attempts + 1` entries of it.
-/

set_option autoImplicit false
set_option relaxedAutoImplicit false

namespace Abacus.Postgres

open RowLocking

/-! ### How many transitions -/

/-- How many states a row may have been put into. -/
def JobRow.span (row : JobRow) : ℕ :=
  if row.state = .running then 2 * row.attempts
  else if row.state.waiting then 2 * row.attempts + 1
  else 2 * row.maxAttempts + 1

theorem JobRow.span_of_running {row : JobRow} (h : row.state = .running) :
    row.span = 2 * row.attempts :=
  if_pos h

theorem JobRow.span_of_waiting {row : JobRow} (h : row.state.waiting = true) :
    row.span = 2 * row.attempts + 1 := by
  rw [JobRow.span, if_neg (not_running_of_waiting h), if_pos h]

theorem JobRow.span_of_terminal {row : JobRow} (h : row.state.terminal = true) :
    row.span = 2 * row.maxAttempts + 1 := by
  rcases row.state.waiting_or_running_or_terminal with hcase | hcase | ⟨hwaiting, hrunning, -⟩
  · exact absurd (hcase.2.2.symm.trans h) (by simp)
  · exact absurd (hcase.2.2.symm.trans h) (by simp)
  · rw [JobRow.span, if_neg hrunning, hwaiting, if_neg (by simp)]

/-- A job that does not exist was put into no state. -/
def HasSpan (count : ℕ) : Option JobRow → Prop
  | some row => count ≤ row.span
  | none => count = 0

theorem HasSpan.mono {few many : ℕ} {row : Option JobRow} (h : HasSpan many row)
    (hle : few ≤ many) : HasSpan few row := by
  cases row with
  | none =>
    obtain rfl : many = 0 := h
    exact Nat.le_zero.mp hle
  | some row => exact hle.trans h

/-- A change of columns that no state rests on. -/
theorem HasSpan.of_eq {count : ℕ} {row new : JobRow} (h : HasSpan count (some row))
    (hstate : new.state = row.state) (hattempts : new.attempts = row.attempts)
    (hmax : new.maxAttempts = row.maxAttempts) : HasSpan count (some new) := by
  have hspan : new.span = row.span := by rw [JobRow.span, hstate, hattempts, hmax, JobRow.span]
  exact h.trans hspan.ge

/-- A running job may go on to any state. -/
theorem HasSpan.of_running {count claims : ℕ} {row new : JobRow} (h : HasSpan count (some row))
    (hbudget : Budget claims row) (hrunning : row.state = .running)
    (hattempts : new.attempts = row.attempts) (hmax : new.maxAttempts = row.maxAttempts)
    (hnew : new.state ≠ .running) : HasSpan (count + 1) (some new) := by
  have hcount : count ≤ 2 * row.attempts := h.trans (JobRow.span_of_running hrunning).le
  have hcovered := hbudget.covered
  rcases new.state.waiting_or_running_or_terminal with ⟨hwaiting, -⟩ | ⟨-, hcase, -⟩ |
    ⟨-, -, hterminal⟩
  · show count + 1 ≤ new.span
    rw [JobRow.span_of_waiting hwaiting]
    omega
  · exact absurd hcase hnew
  · show count + 1 ≤ new.span
    rw [JobRow.span_of_terminal hterminal]
    omega

/-- One step of a job puts it into one more state if it is a transition. -/
theorem JobStep.span {now : Instant} {jobId : Uuid} {operation : Operation} {outcome : Outcome}
    {before after : Option JobRow} {count claims : ℕ}
    (hstep : JobStep now jobId operation outcome before after) (hshape : HasShape before)
    (hbudget : HasBudget claims before) (h : HasSpan count before) :
    HasSpan (count + if operation.moves jobId before after outcome then 1 else 0) after := by
  have hone : ∀ {moved : Bool} {row : JobRow}, HasSpan (count + 1) (some row) →
      HasSpan (count + if moved then 1 else 0) (some row) := by
    intro moved row hrow
    exact hrow.mono (Nat.add_le_add_left (by split_ifs <;> simp) count)
  cases hstep with
  | unchanged row hmoves =>
    rw [hmoves]
    exact h
  | inserted request hattempts =>
    obtain rfl : count = 0 := h
    exact hone (le_refl 1)
  | published row =>
    rw [show (Operation.markPublished jobId).moves _ _ _ _ = false from rfl]
    exact HasSpan.of_eq h rfl rfl rfl
  | cancelled row outcome hwaiting =>
    have hleft := hbudget.waiting hwaiting
    have hcount : count ≤ 2 * row.attempts + 1 := h.trans (JobRow.span_of_waiting hwaiting).le
    have hterminal : row.cancelled.state.terminal = true := by
      rw [cancelled_state_of_waiting hwaiting]
      rfl
    refine hone ?_
    show count + 1 ≤ row.cancelled.span
    rw [JobRow.span_of_terminal hterminal]
    show count + 1 ≤ 2 * row.maxAttempts + 1
    omega
  | flagged row outcome hrunning =>
    have hmoves : (Operation.cancel jobId).moves jobId (some row) (some row.cancelled) outcome =
        false := by
      simp [Operation.moves, hrunning, JobState.waiting]
    rw [hmoves]
    exact HasSpan.of_eq h (by simp [JobRow.cancelled, hrunning]) rfl rfl
  | claimed row leaseId owner lease hreservable =>
    have hcount : count ≤ 2 * row.attempts + 1 := by
      rcases waiting_or_running_of_reservable hreservable with hwaiting | hrunning
      · exact h.trans (JobRow.span_of_waiting hwaiting).le
      · exact (h.trans (JobRow.span_of_running hrunning).le).trans (Nat.le_succ _)
    refine hone ?_
    show count + 1 ≤ (row.claimed now leaseId owner lease).span
    rw [JobRow.span_of_running (by rfl)]
    show count + 1 ≤ 2 * (row.attempts + 1)
    omega
  | retired row scan ids hmem hretirable =>
    exact hone (h.of_running hbudget (running_of_retirable hretirable) rfl rfl
      (retired_state_ne row).1)
  | extended row lease duration hjob hfenced =>
    rw [show (Operation.extend lease duration).moves _ _ _ _ = false from rfl]
    exact HasSpan.of_eq h rfl rfl rfl
  | acked row lease resultRef hjob hfenced =>
    exact hone (h.of_running hbudget ((hshape row rfl).running_of_fenced hfenced) rfl rfl
      (by simp [JobRow.acked]))
  | nacked row lease error retryIn hjob hfenced =>
    exact hone (h.of_running hbudget ((hshape row rfl).running_of_fenced hfenced) rfl rfl
      (nackState_ne row).1)

/-- A commit puts a job into one state at most. -/
theorem length_jobState_le (jobId : Uuid) (commit : Commit) :
    (Commit.jobState jobId commit).length ≤
      if commit.label.operation.moves jobId (jobRow commit.before jobId)
        (jobRow commit.after jobId) commit.result then 1 else 0 := by
  unfold Commit.jobState
  split_ifs
  · cases jobRow commit.after jobId <;> simp
  · exact le_refl 0

section Runs

variable {Backend : Type} [DecidableEq Backend] {history : List Commit} {system : System Backend}

/-- Over a run a job was put into so many states at most. -/
theorem hasSpan_of_execution (h : Execution history system) (jobId : Uuid) :
    HasSpan (jobHistory jobId history).length (jobRow system.committed jobId) := by
  let Kept (history : List Commit) (database : Database) : Prop :=
    HasShape (jobRow database jobId) ∧
      HasBudget (history.countP (Commit.claims jobId)) (jobRow database jobId) ∧
      HasSpan (jobHistory jobId history).length (jobRow database jobId)
  have hempty : Kept [] Database.empty := ⟨hasShape_empty jobId, rfl, rfl⟩
  have hkept : Kept history system.committed := by
    refine Execution.history_invariant hempty ?_ h
    rintro history commit ⟨hshape, hbudget, hspan⟩ hyields
    have hstep := (Operation.program_stepsJob hyields jobId).1
    refine ⟨hstep.shaped hshape, ?_, ?_⟩
    · have hclaims := hstep.budget hbudget
      rwa [List.countP_append, List.countP_singleton]
    · have hlength : (jobHistory jobId (history ++ [commit])).length =
          (jobHistory jobId history).length + (Commit.jobState jobId commit).length := by
        simp [jobHistory]
      rw [hlength]
      exact (hstep.span hshape hbudget hspan).mono
        (Nat.add_le_add_left (length_jobState_le jobId commit) _)
  exact hkept.2.2

/-- The session of a job is open. -/
theorem sessionOpen_of_execution (h : Execution history system) {jobId : Uuid} {row : JobRow}
    (hrow : jobRow system.committed jobId = some row) : SessionOpen system.committed row :=
  fun _ hsession ↦ Option.ne_none_iff_exists'.mp (session_of_jobRow h hrow hsession)

/-- A job that has not ended is due from its `run_after` on while it waits, and after its deadline
while it runs. -/
theorem due_of_not_terminal (h : Execution history system) {jobId : Uuid} {row : JobRow}
    (hrow : jobRow system.committed jobId = some row) (hlive : row.state.terminal = false)
    {now : Instant} (hrunAfter : row.runAfter ≤ now)
    (hdeadline : ∀ deadline, row.leaseExpiresAt = some deadline → deadline < now) :
    (row.waiting now || row.lapsed now) = true ∨ row.retirable now = true := by
  rcases row.state.waiting_or_running_or_terminal with ⟨hwaiting, -⟩ | ⟨-, hrunning, -⟩ |
    ⟨-, -, hterminal⟩
  · exact Or.inl (by simp [JobRow.waiting, hwaiting, hrunAfter])
  · have hshape := (recounted_of_execution h jobId).shape row hrow
    obtain ⟨deadline, hsome⟩ := Option.ne_none_iff_exists'.mp (hshape.deadline.mpr hrunning)
    rcases lapsed_xor_retirable hrunning hsome (hdeadline deadline hsome) with
      ⟨hlapsed, -⟩ | ⟨hretirable, -⟩
    · exact Or.inl (by simp [hlapsed])
    · exact Or.inr hretirable
  · exact absurd (hterminal.symm.trans hlive) (by simp)

end Runs

/-- A retirement ends a job. -/
theorem retired_terminal (row : JobRow) : row.retired.state.terminal = true := by
  cases hcancel : row.cancelRequested <;> simp [JobRow.retired, hcancel, JobState.terminal]

/-- Every job ends. In every run a job is put into at most `2 * max_attempts + 1` states, which are
its entries in the log of its session if it has one. And in every committed state in which it has
not ended, it can be put into another as soon as it is due: a claim takes it and spends an attempt,
or the retirement ends it. -/
theorem every_job_ends {Backend : Type} [DecidableEq Backend] {history : List Commit}
    {system : System Backend} (h : Execution history system) {jobId : Uuid} {row : JobRow}
    (hrow : jobRow system.committed jobId = some row) :
    (jobHistory jobId history).length ≤ 2 * row.maxAttempts + 1 ∧
    (jobEventRows system.committed jobId).length ≤ 2 * row.maxAttempts + 1 ∧
    (row.state.terminal = false → ∀ now, row.runAfter ≤ now →
      (∀ deadline, row.leaseExpiresAt = some deadline → deadline < now) →
      ∀ scan, (∀ other otherRow, jobRow system.committed other = some otherRow → other ∈ scan) →
        (∀ leaseId owner duration, ∃ lease after,
          perform now (.claim jobId leaseId owner duration) system.committed =
            (.ok (.claimed (some lease)), after) ∧
          jobRow after jobId = some (row.claimed now leaseId owner duration)) ∨
        ∃ ids after, perform now (.retireLapsed scan) system.committed =
            (.ok (.jobIds ids), after) ∧
          jobRow after jobId = some row.retired ∧ row.retired.state.terminal = true) := by
  have hspan := hasSpan_of_execution h jobId
  have hbudget := hasBudget_of_execution h jobId
  obtain ⟨-, hlife, hevents⟩ := recounted_of_execution h jobId
  rw [hrow] at hspan hbudget hlife hevents
  have hbound : (jobHistory jobId history).length ≤ 2 * row.maxAttempts + 1 := by
    have hcovered := hbudget.covered
    have hcount : (jobHistory jobId history).length ≤ row.span := hspan
    rcases row.state.waiting_or_running_or_terminal with ⟨hwaiting, -⟩ | ⟨-, hrunning, -⟩ |
      ⟨-, -, hterminal⟩
    · rw [JobRow.span_of_waiting hwaiting] at hcount
      omega
    · rw [JobRow.span_of_running hrunning] at hcount
      omega
    · exact hcount.trans (JobRow.span_of_terminal hterminal).le
  refine ⟨hbound, ?_, fun hlive now hrunAfter hdeadline scan hscan ↦ ?_⟩
  · cases hsession : row.sessionId with
    | none =>
      simp only [EventsList, hsession] at hevents
      rw [hevents]
      exact Nat.zero_le _
    | some sessionId =>
      simp only [EventsList, hsession] at hevents
      rw [← hevents.1, List.length_map] at hbound
      exact hbound
  · rcases due_of_not_terminal h hrow hlive hrunAfter hdeadline with hreservable | hretirable
    · refine Or.inl fun leaseId owner duration ↦ ?_
      obtain ⟨after, hperform, hsets⟩ :=
        claim_sets hrow hreservable (sessionOpen_of_execution h hrow)
      exact ⟨_, after, hperform, by rw [hsets.rows, Function.update_self]⟩
    · obtain ⟨ids, after, hperform, hrows, -⟩ := retireLapsed_retires now hscan
        fun other otherRow hother ↦ sessionOpen_of_execution h hother
      refine Or.inr ⟨ids, after, hperform, ?_, retired_terminal row⟩
      rw [hrows jobId, hrow, Option.map_some, JobRow.retire, if_pos hretirable]

/-- A job that was claimed for its only attempt, and never heard of again, is retired. -/
theorem every_job_ends_crashed :
    ∃ (history : List Commit) (system : System Unit) (row : JobRow) (ids : List Uuid)
      (after : Database), Execution history system ∧
      jobRow system.committed ⟨9⟩ = some row ∧ row.state = .running ∧
      perform 100 (.retireLapsed [⟨9⟩]) system.committed = (.ok (.jobIds ids), after) ∧
      jobRow after ⟨9⟩ = some row.retired ∧ row.retired.state.terminal = true := by
  have hidle : Execution [] (RowLocking.System.idle Database.empty : System Unit) := .idle
  have hinserted := hidle.serial () (show (Call.program
    ⟨1, .insertOrGet ⟨9⟩ ⟨"noop", .nil, none, "key", 1, 0⟩⟩).execute _ =
      .ok (.enqueued _ true, _) from rfl)
  have hclaimed := hinserted.serial () (show (Call.program
    ⟨2, .claim ⟨9⟩ ⟨21⟩ "worker" 60⟩).execute _ = .ok (.claimed (some _), _) from rfl)
  obtain ⟨history, system, row, hexecution, hrow, hrunning, hdue, hexpires, hspent, honly⟩ :
      ∃ history system row, Execution history (system : System Unit) ∧
        jobRow system.committed ⟨9⟩ = some row ∧ row.state = .running ∧ row.runAfter ≤ 100 ∧
        row.leaseExpiresAt = some 62 ∧
        (perform 100 (.claim ⟨9⟩ ⟨22⟩ "worker" 60) system.committed).1 = .ok (.claimed none) ∧
        ∀ other ≠ (⟨9⟩ : Uuid), jobRow system.committed other = none := by
    refine ⟨_, _, _, hclaimed, rfl, rfl, by decide, rfl, rfl, fun other hother ↦ ?_⟩
    have hne : RowKey.job other ≠ .job ⟨9⟩ := fun hsame ↦ hother (RowKey.job.inj hsame)
    exact (Database.set_row_of_ne _ _ hne).trans (Database.set_row_of_ne _ _ hne)
  have hlapsed : ∀ deadline, row.leaseExpiresAt = some deadline → deadline < 100 := by
    intro deadline hdeadline
    obtain rfl := Option.some.inj (hexpires.symm.trans hdeadline)
    decide
  have hvisits : ∀ other otherRow, jobRow system.committed other = some otherRow →
      other ∈ [(⟨9⟩ : Uuid)] := by
    intro other otherRow hother
    by_contra hnot
    exact nomatch (honly other (fun hsame ↦ hnot (List.mem_singleton.mpr hsame))).symm.trans hother
  obtain ⟨-, -, hends⟩ := every_job_ends hexecution hrow
  rcases hends (by rw [hrunning]; rfl) 100 hdue hlapsed [⟨9⟩] hvisits with hreserved | hretired
  · obtain ⟨lease, after, hperform, -⟩ := hreserved ⟨22⟩ "worker" 60
    exact nomatch (congrArg Prod.fst hperform).symm.trans hspent
  · obtain ⟨ids, after, hperform, hafter, hterminal⟩ := hretired
    exact ⟨history, system, row, ids, after, hexecution, hrow, hrunning, hperform, hafter,
      hterminal⟩

end Abacus.Postgres
