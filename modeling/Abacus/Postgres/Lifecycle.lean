import Abacus.Postgres.Epoch
import Abacus.Postgres.Fencing

/-!
# The ends of a job

What no later call undoes. A terminal row keeps its state, attempts, result, error and cancel flag
(`JobRow.SameEnd`); a row that was cancelled while it ran is run by nobody else and does not end as
a failure (`JobRow.Cancelled`). Both are kept by every step of a job, so they hold from the commit
that established them to the end of the run (`row_shape_and_ends`, `cancelled_never_rerun`).

The rows past their deadline are divided between `lapsed_reservable` and `retire_lapsed`, whose
predicates are complements on them (`lapsed_xor_retirable`).
-/

set_option autoImplicit false
set_option relaxedAutoImplicit false

namespace Abacus.Postgres

open RowLocking (Program)

/-! ### A terminal row -/

/-- The columns that say how a job ended. -/
def JobRow.SameEnd (row new : JobRow) : Prop :=
  new.state = row.state ∧ new.attempts = row.attempts ∧ new.resultRef = row.resultRef ∧
    new.error = row.error ∧ new.cancelRequested = row.cancelRequested

/-- The job has a row that ended as this one did. -/
def EndedAs (jobId : Uuid) (row : JobRow) (database : Database) : Prop :=
  ∃ new, jobRow database jobId = some new ∧ row.SameEnd new

theorem not_waiting_of_terminal {row : JobRow} (h : row.state.terminal = true) :
    row.state.waiting = false ∧ row.state ≠ .running := by
  rcases row.state.waiting_or_running_or_terminal with hcase | hcase | hcase
  · exact absurd (hcase.2.2.symm.trans h) (by simp)
  · exact absurd (hcase.2.2.symm.trans h) (by simp)
  · exact ⟨hcase.1, hcase.2.1⟩

theorem not_reservable_of_terminal {row : JobRow} {now : Instant}
    (h : row.state.terminal = true) : (row.waiting now || row.lapsed now) = false := by
  obtain ⟨hwaiting, hrunning⟩ := not_waiting_of_terminal h
  simp [JobRow.waiting, JobRow.lapsed, hwaiting, hrunning]

/-- A step of a terminal job leaves how it ended. -/
theorem JobStep.sameEnd {now : Instant} {jobId : Uuid} {operation : Operation} {outcome : Outcome}
    {row : JobRow} {after : Option JobRow}
    (hstep : JobStep now jobId operation outcome (some row) after) (hshape : row.Shaped)
    (hterminal : row.state.terminal = true) : ∃ new, after = some new ∧ row.SameEnd new := by
  obtain ⟨hwaiting, hrunning⟩ := not_waiting_of_terminal hterminal
  cases hstep with
  | unchanged row hmoves => exact ⟨row, rfl, rfl, rfl, rfl, rfl, rfl⟩
  | published row => exact ⟨row.published now, rfl, rfl, rfl, rfl, rfl, rfl⟩
  | cancelled row outcome hfound => exact absurd (hwaiting.symm.trans hfound) (by simp)
  | flagged row outcome hfound => exact absurd hfound hrunning
  | claimed row leaseId owner lease hreservable =>
    exact absurd ((not_reservable_of_terminal hterminal).symm.trans hreservable) (by simp)
  | retired row scan ids hmem hretirable => exact absurd (running_of_retirable hretirable) hrunning
  | extended row lease duration hjob hfenced =>
    exact absurd (hshape.running_of_fenced hfenced) hrunning
  | acked row lease resultRef hjob hfenced =>
    exact absurd (hshape.running_of_fenced hfenced) hrunning
  | nacked row lease error retryIn hjob hfenced =>
    exact absurd (hshape.running_of_fenced hfenced) hrunning

theorem JobRow.SameEnd.trans {first second third : JobRow} (h : first.SameEnd second)
    (h' : second.SameEnd third) : first.SameEnd third := by
  obtain ⟨hstate, hattempts, hresult, herror, hcancel⟩ := h
  obtain ⟨hstate', hattempts', hresult', herror', hcancel'⟩ := h'
  exact ⟨hstate'.trans hstate, hattempts'.trans hattempts, hresult'.trans hresult,
    herror'.trans herror, hcancel'.trans hcancel⟩

/-! ### A row that was cancelled -/

/-- A row that a cancel was accepted on: flagged, on its way to an end that is no failure, and at
the same attempt. -/
structure JobRow.Cancelled (attempts : ℕ) (row : JobRow) : Prop where
  flag : row.cancelRequested = true
  state : row.state = .running ∨ row.state = .done ∨ row.state = .cancelled
  attempts : row.attempts = attempts

/-- How a running row that was cancelled may stop running. -/
def StopsCancelled (now : Instant) (jobId : Uuid) (operation : Operation) (row new : JobRow) :
    Prop :=
  (new.state = .done ∧ ∃ lease resultRef, operation = .ack lease resultRef ∧
      lease.job.id = jobId ∧ row.leaseId = some lease.id) ∨
    (new.state = .cancelled ∧ ∃ lease error retryIn, operation = .nack lease error retryIn ∧
      lease.job.id = jobId ∧ row.leaseId = some lease.id) ∨
    (new.state = .cancelled ∧ new.error = row.error ∧ ∃ scan deadline,
      operation = .retireLapsed scan ∧ row.leaseExpiresAt = some deadline ∧ deadline < now)

/-- The job has a row that a cancel was accepted on, at this attempt. -/
def CancelledAt (jobId : Uuid) (attempts : ℕ) (database : Database) : Prop :=
  ∃ row, jobRow database jobId = some row ∧ row.Cancelled attempts

/-- What a commit may do about a cancelled job: it is no claim of it, and if it stops the job
running then as the job's consumer or as a retirement does. -/
def HeedsCancel (jobId : Uuid) (attempts : ℕ) (commit : Commit) : Prop :=
  ∃ before after, jobRow commit.before jobId = some before ∧
    jobRow commit.after jobId = some after ∧ after.Cancelled attempts ∧
    (∀ leaseId owner lease, commit.label.operation = .claim jobId leaseId owner lease →
      ∀ granted, commit.result ≠ .claimed (some granted)) ∧
    (before.state = .running → after.state ≠ .running →
      StopsCancelled commit.label.now jobId commit.label.operation before after)

theorem JobRow.Cancelled.not_waiting {attempts : ℕ} {row : JobRow} (h : row.Cancelled attempts) :
    row.state.waiting = false := by
  rcases h.state with hstate | hstate | hstate
  · rw [hstate]
    rfl
  · rw [hstate]
    rfl
  · rw [hstate]
    rfl

theorem JobRow.Cancelled.of_eq {attempts : ℕ} {row new : JobRow} (h : row.Cancelled attempts)
    (hflag : new.cancelRequested = row.cancelRequested) (hstate : new.state = row.state)
    (hattempts : new.attempts = row.attempts) : new.Cancelled attempts where
  flag := hflag.trans h.flag
  state := by
    rw [hstate]
    exact h.state
  attempts := hattempts.trans h.attempts

/-- A row past its deadline has one, which is past. -/
theorem deadline_of_retirable {row : JobRow} {now : Instant} (h : row.retirable now = true) :
    ∃ deadline, row.leaseExpiresAt = some deadline ∧ deadline < now := by
  simp only [JobRow.retirable, JobRow.expired, Bool.and_eq_true, Option.any_eq_true,
    decide_eq_true_eq] at h
  obtain ⟨⟨-, deadline, hdeadline, hpast⟩, -⟩ := h
  exact ⟨deadline, hdeadline, hpast⟩

/-- A step of a cancelled job is no claim of it, keeps it cancelled, and if it stops the job then as
the job's consumer or as a retirement does. -/
theorem JobStep.cancelled_kept {now : Instant} {jobId : Uuid} {operation : Operation}
    {outcome : Outcome} {row : JobRow} {after : Option JobRow} {attempts : ℕ}
    (hstep : JobStep now jobId operation outcome (some row) after) (h : row.Cancelled attempts) :
    ∃ new, after = some new ∧ new.Cancelled attempts ∧
      (∀ leaseId owner lease, operation = .claim jobId leaseId owner lease →
        ∀ granted, outcome ≠ .claimed (some granted)) ∧
      (row.state = .running → new.state ≠ .running →
        StopsCancelled now jobId operation row new) := by
  cases hstep with
  | unchanged row hmoves =>
    refine ⟨row, rfl, h, ?_, fun hrunning hstops ↦ absurd hrunning hstops⟩
    rintro leaseId owner lease rfl granted rfl
    simp [Operation.moves] at hmoves
  | published row =>
    exact ⟨_, rfl, h.of_eq rfl rfl rfl, by simp, fun hrunning hstops ↦ absurd hrunning hstops⟩
  | cancelled row outcome hwaiting =>
    exact absurd (h.not_waiting.symm.trans hwaiting) (by simp)
  | flagged row outcome hrunning =>
    have hstate : row.cancelled.state = row.state := by simp [JobRow.cancelled, hrunning]
    exact ⟨_, rfl, h.of_eq h.flag.symm hstate rfl, by simp,
      fun hrunning hstops ↦ absurd (hstate.trans hrunning) hstops⟩
  | claimed row leaseId owner lease hreservable =>
    simp [JobRow.waiting, JobRow.lapsed, h.not_waiting, h.flag] at hreservable
  | retired row scan ids hmem hretirable =>
    obtain ⟨deadline, hdeadline, hpast⟩ := deadline_of_retirable hretirable
    have hstate : row.retired.state = .cancelled := by simp [JobRow.retired, h.flag]
    have herror : row.retired.error = row.error := by simp [JobRow.retired, h.flag]
    refine ⟨_, rfl, ⟨h.flag, Or.inr (Or.inr hstate), h.attempts⟩, by simp, fun _ _ ↦ ?_⟩
    exact Or.inr (Or.inr ⟨hstate, herror, scan, deadline, rfl, hdeadline, hpast⟩)
  | extended row lease duration hjob hfenced =>
    exact ⟨_, rfl, h.of_eq rfl rfl rfl, by simp, fun hrunning hstops ↦ absurd hrunning hstops⟩
  | acked row lease resultRef hjob hfenced =>
    rw [JobRow.fenced, beq_iff_eq] at hfenced
    refine ⟨_, rfl, ⟨h.flag, Or.inr (Or.inl rfl), h.attempts⟩, by simp, fun _ _ ↦ ?_⟩
    exact Or.inl ⟨rfl, lease, resultRef, rfl, hjob, hfenced⟩
  | nacked row lease error retryIn hjob hfenced =>
    rw [JobRow.fenced, beq_iff_eq] at hfenced
    have hstate : (row.nacked now error retryIn).state = .cancelled := by
      simp [JobRow.nacked, JobRow.nackState, h.flag]
    refine ⟨_, rfl, ⟨h.flag, Or.inr (Or.inr hstate), h.attempts⟩, by simp, fun _ _ ↦ ?_⟩
    exact Or.inr (Or.inl ⟨hstate, lease, error, retryIn, rfl, hjob, hfenced⟩)

/-- A cancel was accepted on the row it found, which was not terminal: the row that it left is
flagged. -/
structure CancelAccepted (jobId : Uuid) (row : JobRow) (commit : Commit) : Prop where
  call : commit.label.operation = .cancel jobId
  found : jobRow commit.before jobId = some row
  live : row.state.terminal = false
  flagged : ∃ new, jobRow commit.after jobId = some new ∧ new.cancelRequested = true

/-- A flagged row is not waiting: a cancel that finds a row waiting ends it. -/
def FlagHeeded (row : Option JobRow) : Prop :=
  ∀ found, row = some found → found.cancelRequested = true → found.state.waiting = false

theorem flagHeeded_empty (jobId : Uuid) : FlagHeeded (jobRow Database.empty jobId) := by
  intro found hfound
  exact nomatch hfound

theorem flagHeeded_of_not_waiting {row : JobRow} (h : row.state.waiting = false) :
    FlagHeeded (some row) := by
  rintro found hfound -
  exact Option.some.inj hfound ▸ h

theorem flagHeeded_of_eq {row new : JobRow} (h : FlagHeeded (some row))
    (hflag : new.cancelRequested = row.cancelRequested) (hstate : new.state = row.state) :
    FlagHeeded (some new) := by
  rintro found hfound hrequested
  obtain rfl := Option.some.inj hfound
  rw [hstate]
  exact h row rfl (hflag.symm.trans hrequested)

theorem JobStep.flagHeeded {now : Instant} {jobId : Uuid} {operation : Operation}
    {outcome : Outcome} {row new : Option JobRow}
    (hstep : JobStep now jobId operation outcome row new) (h : FlagHeeded row) :
    FlagHeeded new := by
  have hcancelled : ∀ row : JobRow, row.cancelled.state.waiting = false := by
    intro row
    by_cases hrunning : row.state = .running
    · simp [JobRow.cancelled, hrunning, JobState.waiting]
    · simp [JobRow.cancelled, hrunning, JobState.waiting]
  cases hstep with
  | unchanged row hmoves => exact h
  | inserted request hattempts =>
    rintro found hfound hflag
    rw [← Option.some.inj hfound] at hflag
    exact absurd hflag (by simp [JobRow.inserted])
  | published row => exact flagHeeded_of_eq h rfl rfl
  | cancelled row outcome hwaiting => exact flagHeeded_of_not_waiting (hcancelled row)
  | flagged row outcome hrunning => exact flagHeeded_of_not_waiting (hcancelled row)
  | claimed row leaseId owner lease hreservable => exact flagHeeded_of_not_waiting rfl
  | retired row scan ids hmem hretirable =>
    refine flagHeeded_of_not_waiting ?_
    cases hflag : row.cancelRequested with
    | true => simp [JobRow.retired, hflag, JobState.waiting]
    | false => simp [JobRow.retired, hflag, JobState.waiting]
  | extended row lease duration hjob hfenced => exact flagHeeded_of_eq h rfl rfl
  | acked row lease resultRef hjob hfenced => exact flagHeeded_of_not_waiting rfl
  | nacked row lease error retryIn hjob hfenced =>
    rintro found hfound hflag
    obtain rfl := Option.some.inj hfound
    have hrequested : row.cancelRequested = true := hflag
    simp [JobRow.nacked, JobRow.nackState, hrequested, JobState.waiting]

theorem flagHeeded_yields (jobId : Uuid) (label : Call) (database : Database) (outcome : Outcome)
    (final : Database) (h : FlagHeeded (jobRow database jobId))
    (hyields : label.program.Yields database outcome final) :
    FlagHeeded (jobRow final jobId) :=
  (Operation.program_stepsJob hyields jobId).1.flagHeeded h

theorem JobRow.cancelled_cancelled (row : JobRow) :
    row.cancelled.Cancelled row.attempts where
  flag := rfl
  state := by
    by_cases hrunning : row.state = .running
    · exact Or.inl (by simp [JobRow.cancelled, hrunning])
    · exact Or.inr (Or.inr (by simp [JobRow.cancelled, hrunning]))
  attempts := rfl

/-- What an accepted cancel commits: the row that it found is one that a cancel was accepted on. -/
theorem CancelAccepted.cancelledAt {jobId : Uuid} {row : JobRow} {commit : Commit}
    (h : CancelAccepted jobId row commit) (hheeded : FlagHeeded (jobRow commit.before jobId))
    (hyields : commit.label.program.Yields commit.before commit.result commit.after) :
    CancelledAt jobId row.attempts commit.after := by
  obtain ⟨new, hnew, hflag⟩ := h.flagged
  have hstep := (Operation.program_stepsJob hyields jobId).1
  rw [h.call, h.found, hnew] at hstep
  refine ⟨new, hnew, ?_⟩
  cases hstep with
  | unchanged row hmoves =>
    -- flagged before, and neither terminal nor waiting
    have hwaiting := hheeded row h.found hflag
    rcases row.state.waiting_or_running_or_terminal with hcase | hcase | hcase
    · exact Bool.noConfusion (hwaiting.symm.trans hcase.1)
    · exact ⟨hflag, Or.inl hcase.2.1, rfl⟩
    · exact Bool.noConfusion (h.live.symm.trans hcase.2.2)
  | cancelled row outcome hwaiting => exact row.cancelled_cancelled
  | flagged row outcome hrunning => exact row.cancelled_cancelled

/-! ### Rows past their deadline -/

/-- A running row past its deadline either goes round again or is retired, and not both. -/
theorem lapsed_xor_retirable {row : JobRow} {now deadline : Instant}
    (hrunning : row.state = .running) (hdeadline : row.leaseExpiresAt = some deadline)
    (hpast : deadline < now) : Xor (row.lapsed now = true) (row.retirable now = true) := by
  have hexpired : row.expired now = true := by simp [JobRow.expired, hdeadline, hpast]
  by_cases hlapsed : row.attempts < row.maxAttempts ∧ row.cancelRequested = false
  · refine Or.inl ⟨?_, ?_⟩
    · simp [JobRow.lapsed, hrunning, hexpired, hlapsed]
    · simp [JobRow.retirable, hlapsed]
  · refine Or.inr ⟨?_, ?_⟩
    · rw [not_and_or, not_lt, Bool.not_eq_false] at hlapsed
      simpa [JobRow.retirable, hrunning, hexpired] using hlapsed
    · simpa [JobRow.lapsed, hrunning, hexpired] using hlapsed

/-- `lapsed_reservable` lists the jobs it scans that have lapsed. -/
theorem mem_lapsedReservable {now : Instant} {jobId : Uuid} {row : JobRow} {scan ids : List Uuid}
    {database : Database} (hrow : jobRow database jobId = some row) (hscan : jobId ∈ scan)
    (h : (perform now (.lapsedReservable scan) database).1 = .ok (.jobIds ids)) :
    jobId ∈ ids ↔ row.lapsed now = true := by
  have hids : scan.filter (fun jobId ↦ (jobRow database jobId).any fun row ↦ row.lapsed now) =
      ids := Outcome.jobIds.inj (Except.ok.inj h)
  rw [← hids, List.mem_filter, hrow]
  simp [hscan]

/-- The update of `retire_lapsed` returns every job it scans that can be retired. -/
theorem mem_retireRows {now : Instant} {jobId : Uuid} {row : JobRow} {scan : List Uuid}
    {rows : List (Uuid × JobRow)} {before after : Database}
    (hrow : jobRow before jobId = some row) (hretirable : row.retirable now = true)
    (hscan : jobId ∈ scan) (h : (retireRows now scan).execute before = .ok (rows, after)) :
    jobId ∈ rows.map Prod.fst := by
  induction scan generalizing before rows with
  | nil => exact absurd hscan (by simp)
  | cons head scan ih =>
    obtain ⟨returned, between, hupdate, hrest⟩ := Program.execute_bind_ok h
    obtain ⟨tail, final, htail, hrows⟩ := Program.execute_bind_ok hrest
    obtain ⟨rfl, rfl⟩ : (returned.map fun row ↦ (head, row)).toList ++ tail = rows ∧
        final = after := by simpa [Program.execute] using hrows
    rw [List.map_append, List.mem_append]
    by_cases hjob : jobId = head
    · subst hjob
      have hset : whenever (fun row ↦ row.retirable now) JobRow.retired row =
          some row.retired := if_pos hretirable
      have hmatch : ((before.row (.job jobId) : Option JobRow).bind
          (whenever (fun row ↦ row.retirable now) JobRow.retired)).map some =
            some (some row.retired) := by
        rw [show (before.row (.job jobId) : Option JobRow) = some row from hrow, Option.bind_some,
          hset]
        rfl
      rw [updateJob, Program.execute_update_of_match hmatch] at hupdate
      obtain ⟨rfl, -⟩ : some row.retired = returned ∧ _ = between := by
        simpa [Program.execute] using hupdate
      exact Or.inl (by simp)
    · right
      refine ih ?_ ?_ htail
      · rcases updateJob_whenever_yields (Program.yields_of_execute hupdate) with
          ⟨_, -, -, -, rfl⟩ | ⟨-, rfl⟩
        · rw [jobRow_set_of_ne before _ (by simpa using hjob)]
          exact hrow
        · exact hrow
      · exact (List.mem_cons.mp hscan).resolve_left hjob

/-- `retire_lapsed` returns the jobs it scans that can be retired. -/
theorem mem_retireLapsed {now : Instant} {jobId : Uuid} {row : JobRow} {scan ids : List Uuid}
    {database : Database} (hrow : jobRow database jobId = some row) (hscan : jobId ∈ scan)
    (h : (perform now (.retireLapsed scan) database).1 = .ok (.jobIds ids)) :
    jobId ∈ ids ↔ row.retirable now = true := by
  cases hperform : perform now (.retireLapsed scan) database with
  | mk reply after =>
    rw [hperform] at h
    obtain rfl : reply = .ok (.jobIds ids) := h
    obtain ⟨retired, hexecute, hids⟩ := Program.execute_map (Program.execute_of_run_ok hperform)
    obtain rfl : retired = ids := Outcome.jobIds.inj hids
    constructor
    · intro hmem
      rcases retireLapsed_yields (Program.yields_of_execute hexecute) jobId with
        ⟨hnot, -⟩ | ⟨-, -, found, hfound, hretirable, -⟩
      · exact absurd hmem hnot
      · rwa [Option.some.inj (hrow.symm.trans hfound)]
    · intro hretirable
      obtain ⟨rows, between, hrows, hrest⟩ := Program.execute_bind_ok hexecute
      obtain ⟨_, _, -, hreturned⟩ := Program.execute_bind_ok hrest
      obtain ⟨rfl, -⟩ : rows.map Prod.fst = retired ∧ _ = after := by
        simpa [Program.execute] using hreturned
      exact mem_retireRows hrow hretirable hscan hrows

/-! ### Along a run -/

section Runs

variable {Backend : Type} [DecidableEq Backend]

omit [DecidableEq Backend] in
theorem hasShape_empty (jobId : Uuid) : HasShape (jobRow Database.empty jobId) :=
  fun _ hfound ↦ absurd hfound (by simp [jobRow, Database.empty])

/-- A commit keeps every row well shaped. -/
theorem hasShape_yields (jobId : Uuid) (call : Call) (before : Database) (outcome : Outcome)
    (after : Database) (h : HasShape (jobRow before jobId))
    (hyields : call.program.Yields before outcome after) : HasShape (jobRow after jobId) :=
  (Operation.program_stepsJob hyields jobId).1.shaped h

/-- A job that has ended stays as it ended. -/
theorem Execution.endedAs {earlier later : List Commit} {mark : Commit} {system : System Backend}
    (h : Execution (earlier ++ mark :: later) system) {jobId : Uuid} {row : JobRow}
    (hrow : jobRow mark.after jobId = some row) (hterminal : row.state.terminal = true) :
    EndedAs jobId row system.committed := by
  have hkept : ∀ commit : Commit, HasShape (jobRow commit.before jobId) →
      EndedAs jobId row commit.before →
      commit.label.program.Yields commit.before commit.result commit.after →
      EndedAs jobId row commit.after ∧ True := by
    rintro commit hshape ⟨found, hfound, hsame⟩ hyields
    have hstep := (Operation.program_stepsJob hyields jobId).1
    rw [hfound] at hstep
    obtain ⟨new, hnew, hsameNew⟩ := hstep.sameEnd (hshape found hfound) (hsame.1 ▸ hterminal)
    exact ⟨⟨new, hnew, hsame.trans hsameNew⟩, trivial⟩
  have hmark : HasShape (jobRow mark.before jobId) →
      mark.label.program.Yields mark.before mark.result mark.after →
      EndedAs jobId row mark.after :=
    fun _ _ ↦ ⟨row, hrow, rfl, rfl, rfl, rfl, rfl⟩
  exact (RowLocking.Execution.since (hasShape_empty jobId) (hasShape_yields jobId) hmark hkept h).1

/-- Row shape and absorbing ends. In every run of the job store:

* a row has a token, a deadline and an owner exactly while it is running;
* a running row whose deadline is past is returned by exactly one of `lapsed_reservable` and
  `retire_lapsed`, of those that scan it;
* a row that was terminal after some commit has the same state, attempts, result, error and cancel
  flag in every later state. -/
theorem row_shape_and_ends {history : List Commit} {system : System Backend}
    (h : Execution history system) (jobId : Uuid) :
    (∀ row, jobRow system.committed jobId = some row → row.Shaped) ∧
    (∀ row now deadline, jobRow system.committed jobId = some row → row.state = .running →
      row.leaseExpiresAt = some deadline → deadline < now →
        Xor (row.lapsed now = true) (row.retirable now = true) ∧
        ∀ scan listed retired, jobId ∈ scan →
          (perform now (.lapsedReservable scan) system.committed).1 = .ok (.jobIds listed) →
          (perform now (.retireLapsed scan) system.committed).1 = .ok (.jobIds retired) →
            Xor (jobId ∈ listed) (jobId ∈ retired)) ∧
    ∀ earlier mark later row, history = earlier ++ mark :: later →
      jobRow mark.after jobId = some row → row.state.terminal = true →
        EndedAs jobId row system.committed := by
  refine ⟨?_, ?_, ?_⟩
  · exact RowLocking.Execution.invariant (hasShape_empty jobId) (hasShape_yields jobId) h
  · intro row now deadline hrow hrunning hdeadline hpast
    have hone := lapsed_xor_retirable hrunning hdeadline hpast
    refine ⟨hone, fun scan listed retired hscan hlisted hretired ↦ ?_⟩
    rw [mem_lapsedReservable hrow hscan hlisted, mem_retireLapsed hrow hscan hretired]
    exact hone
  · rintro earlier mark later row rfl hrow hterminal
    exact h.endedAs hrow hterminal

/-- A job claimed for ten microseconds, two past its deadline. -/
theorem row_shape_and_ends_claimed :
    ∃ (history : List Commit) (system : System Unit) (row : JobRow), Execution history system ∧
      jobRow system.committed ⟨9⟩ = some row ∧ row.Shaped ∧
      Xor (row.lapsed 13 = true) (row.retirable 13 = true) := by
  have hidle : Execution [] (RowLocking.System.idle Database.empty : System Unit) := .idle
  have hinserted := hidle.serial () (show (Call.program
    ⟨0, .insertOrGet ⟨9⟩ ⟨"noop", .nil, none, "key", 3, 0⟩⟩).execute _ =
      .ok (.enqueued _ true, _) from rfl)
  have hclaimed := hinserted.serial () (show (Call.program
    ⟨1, .claim ⟨9⟩ ⟨21⟩ "worker" 10⟩).execute _ = .ok (.claimed (some _), _) from rfl)
  obtain ⟨hshape, hpast, -⟩ := row_shape_and_ends hclaimed ⟨9⟩
  exact ⟨_, _, _, hclaimed, rfl, hshape _ rfl, (hpast _ 13 11 rfl rfl rfl (by decide)).1⟩

/-- A cancelled job is never reported as a failure and never run again. From the commit of a cancel
that found the job not terminal on, in every state the job is flagged, running, done or cancelled,
and at the same attempt; no commit is a claim of it; and one that stops it running is an ack or a
nack under the row's own token, or a retirement after the deadline that keeps its error. -/
theorem cancelled_never_rerun {earlier later : List Commit} {cancelling : Commit}
    {system : System Backend} (h : Execution (earlier ++ cancelling :: later) system)
    {jobId : Uuid} {row : JobRow} (haccepted : CancelAccepted jobId row cancelling) :
    CancelledAt jobId row.attempts system.committed ∧
      ∀ commit ∈ later, HeedsCancel jobId row.attempts commit := by
  have hmark : FlagHeeded (jobRow cancelling.before jobId) →
      cancelling.label.program.Yields cancelling.before cancelling.result cancelling.after →
      CancelledAt jobId row.attempts cancelling.after := haccepted.cancelledAt
  have hkept : ∀ commit : Commit, FlagHeeded (jobRow commit.before jobId) →
      CancelledAt jobId row.attempts commit.before →
      commit.label.program.Yields commit.before commit.result commit.after →
      CancelledAt jobId row.attempts commit.after ∧ HeedsCancel jobId row.attempts commit := by
    rintro commit - ⟨before, hbefore, hcancelled⟩ hyields
    have hstep := (Operation.program_stepsJob hyields jobId).1
    rw [hbefore] at hstep
    obtain ⟨after, hafter, hstill, hclaim, hstops⟩ := hstep.cancelled_kept hcancelled
    exact ⟨⟨after, hafter, hstill⟩, before, after, hbefore, hafter, hstill, hclaim, hstops⟩
  exact RowLocking.Execution.since (flagHeeded_empty jobId) (flagHeeded_yields jobId) hmark hkept h

/-- A job cancelled while it runs, whose consumer gives it back with attempts left. -/
theorem cancelled_never_rerun_nacked :
    ∃ (earlier later : List Commit) (cancelling : Commit) (system : System Unit),
      Execution (earlier ++ cancelling :: later) system ∧
      CancelAccepted ⟨9⟩ ((JobRow.inserted 0 ⟨"noop", .nil, none, "key", 3, 0⟩).claimed 1
        ⟨21⟩ "worker" 10) cancelling ∧
      CancelledAt ⟨9⟩ 1 system.committed ∧ ∀ commit ∈ later, HeedsCancel ⟨9⟩ 1 commit := by
  have hidle : Execution [] (RowLocking.System.idle Database.empty : System Unit) := .idle
  have hinserted := hidle.serial () (show (Call.program
    ⟨0, .insertOrGet ⟨9⟩ ⟨"noop", .nil, none, "key", 3, 0⟩⟩).execute _ =
      .ok (.enqueued _ true, _) from rfl)
  have hclaimed := hinserted.serial () (show (Call.program
    ⟨1, .claim ⟨9⟩ ⟨21⟩ "worker" 10⟩).execute _ = .ok (.claimed (some _), _) from rfl)
  have hcancelled := hclaimed.serial () (show (Call.program ⟨2, .cancel ⟨9⟩⟩).execute _ =
    .ok (.found _, _) from rfl)
  have hnacked := hcancelled.serial () (show (Call.program
    ⟨3, .nack ⟨⟨21⟩, (JobRow.inserted 0 ⟨"noop", .nil, none, "key", 3, 0⟩).toJob ⟨9⟩,
      "worker", 11⟩ "cancelled while running" none⟩).execute _ = .ok (.nacked _, _) from rfl)
  obtain ⟨earlier, cancelling, later, system, hrun, haccepted⟩ : ∃ earlier cancelling later,
      ∃ system : System Unit, Execution (earlier ++ cancelling :: later) system ∧
        CancelAccepted ⟨9⟩ ((JobRow.inserted 0 ⟨"noop", .nil, none, "key", 3, 0⟩).claimed 1
          ⟨21⟩ "worker" 10) cancelling :=
    ⟨[_, _], _, [_], _, hnacked, rfl, rfl, rfl, _, rfl, rfl⟩
  exact ⟨earlier, later, cancelling, system, hrun, haccepted, cancelled_never_rerun hrun haccepted⟩

end Runs

end Abacus.Postgres
