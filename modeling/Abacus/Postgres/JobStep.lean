import Abacus.Postgres.Operation
import Abacus.Postgres.JobTransition
import Abacus.RowLocking.Triple

/-!
# The steps of a job

One inversion theorem for all the methods of the two stores: whatever a call commits, among any
other transactions, a job's row is left alone or changed in one of nine ways (`JobStep`), and the
job's event rows grow by one when the call is a transition of the job and not otherwise
(`Operation.program_stepsJob`). `Operation.moves` says which calls are transitions: an insertion, a
successful claim, an ack, a nack, a retirement, and the cancel of a job that no consumer holds.
-/

set_option autoImplicit false
set_option relaxedAutoImplicit false

namespace Abacus.Postgres

open RowLocking

/-- Whether a call that returned `outcome` is a transition of the job. A cancel is one when it took
the job from waiting to cancelled; the other calls say so in what they return. -/
def Operation.moves (jobId : Uuid) (before after : Option JobRow) : Operation → Outcome → Bool
  | .insertOrGet insertedId _, .enqueued _ created => created && decide (insertedId = jobId)
  | .claim claimedId _ _ _, .claimed lease => lease.isSome && decide (claimedId = jobId)
  | .ack lease _, _ => decide (lease.job.id = jobId)
  | .nack lease _ _, _ => decide (lease.job.id = jobId)
  | .retireLapsed _, .jobIds ids => decide (jobId ∈ ids)
  | .cancel cancelledId, _ =>
    decide (cancelledId = jobId) && before.any (fun row ↦ row.state.waiting) &&
      after.any fun row ↦ row.state == .cancelled
  | _, _ => false

/-- What a call can do to a job: the call, what it returned, and the job's row before and after. -/
inductive JobStep (now : Instant) (jobId : Uuid) :
    Operation → Outcome → Option JobRow → Option JobRow → Prop
  /-- The job is left alone, and the call is no transition of it. -/
  | unchanged {operation : Operation} {outcome : Outcome} (row : Option JobRow)
      (hmoves : operation.moves jobId row row outcome = false) :
    JobStep now jobId operation outcome row row
  | inserted (request : JobRequest) (hattempts : request.maxAttempts ≠ 0) :
    JobStep now jobId (.insertOrGet jobId request)
      (.enqueued ((JobRow.inserted now request).toJob jobId) true)
      none (some (JobRow.inserted now request))
  | published (row : JobRow) :
    JobStep now jobId (.markPublished jobId) .unit (some row) (some (row.published now))
  | cancelled (row : JobRow) (outcome : Outcome) (hwaiting : row.state.waiting = true) :
    JobStep now jobId (.cancel jobId) outcome (some row) (some row.cancelled)
  /-- A running job keeps its state: only its consumer may stop it. -/
  | flagged (row : JobRow) (outcome : Outcome) (hrunning : row.state = .running) :
    JobStep now jobId (.cancel jobId) outcome (some row) (some row.cancelled)
  | claimed (row : JobRow) (leaseId : Uuid) (owner : String) (lease : Duration)
      (hreservable : (row.waiting now || row.lapsed now) = true) :
    JobStep now jobId (.claim jobId leaseId owner lease)
      (.claimed (some ⟨leaseId, (row.claimed now leaseId owner lease).toJob jobId, owner,
        now + lease⟩))
      (some row) (some (row.claimed now leaseId owner lease))
  | retired (row : JobRow) (scan ids : List Uuid) (hmem : jobId ∈ ids)
      (hretirable : row.retirable now = true) :
    JobStep now jobId (.retireLapsed scan) (.jobIds ids) (some row) (some row.retired)
  | extended (row : JobRow) (lease : Lease) (duration : Duration) (hjob : lease.job.id = jobId)
      (hfenced : row.fenced lease = true) :
    JobStep now jobId (.extend lease duration)
      (.extended ⟨lease.id, (row.extended now duration).toJob jobId, lease.owner, now + duration⟩)
      (some row) (some (row.extended now duration))
  | acked (row : JobRow) (lease : Lease) (resultRef : Option String) (hjob : lease.job.id = jobId)
      (hfenced : row.fenced lease = true) :
    JobStep now jobId (.ack lease resultRef) .unit (some row) (some (row.acked resultRef))
  | nacked (row : JobRow) (lease : Lease) (error : String) (retryIn : Option Duration)
      (hjob : lease.job.id = jobId) (hfenced : row.fenced lease = true) :
    JobStep now jobId (.nack lease error retryIn)
      (.nacked ((row.nacked now error retryIn).toJob jobId))
      (some row) (some (row.nacked now error retryIn))

/-- What a call does to a job between two databases: a step of its row, logged if it is a
transition. -/
def StepsJob (now : Instant) (jobId : Uuid) (operation : Operation) (outcome : Outcome)
    (before after : Database) : Prop :=
  JobStep now jobId operation outcome (jobRow before jobId) (jobRow after jobId) ∧
    Logged (operation.moves jobId (jobRow before jobId) (jobRow after jobId) outcome) jobId
      before after

/-- A call that leaves the job and its events alone, and is no transition of it. -/
theorem StepsJob.of_eq {now : Instant} {jobId : Uuid} {operation : Operation} {outcome : Outcome}
    {before after : Database} (hrow : jobRow after jobId = jobRow before jobId)
    (hevents : jobEventRows after jobId = jobEventRows before jobId)
    (hmoves : ∀ row, operation.moves jobId row row outcome = false) :
    StepsJob now jobId operation outcome before after := by
  refine ⟨?_, ?_⟩
  · rw [hrow]
    exact .unchanged _ (hmoves _)
  · rw [hrow, hmoves]
    exact .of_eq hevents

/-- A transition of another job. -/
theorem StepsJob.of_transition_of_ne {now : Instant} {jobId other : Uuid} {operation : Operation}
    {outcome : Outcome} {condition : JobRow → Bool} {set : JobRow → JobRow}
    {before after : Database} (h : Transition other condition set before after)
    (hjob : other ≠ jobId) (hmoves : ∀ row, operation.moves jobId row row outcome = false) :
    StepsJob now jobId operation outcome before after := by
  have hlogged := h.logged jobId
  refine .of_eq (h.jobRow_of_ne (Ne.symm hjob)) ?_ hmoves
  obtain ⟨seq, hevents⟩ := hlogged
  simpa [hjob] using hevents

/-- A transition of the job itself. -/
theorem StepsJob.of_transition_self {now : Instant} {jobId : Uuid} {operation : Operation}
    {outcome : Outcome} {condition : JobRow → Bool} {set : JobRow → JobRow}
    {before after : Database} (h : Transition jobId condition set before after)
    (hmoves : ∀ row, condition row = true →
      operation.moves jobId (some row) (some (set row)) outcome = true)
    (hstep : ∀ row, condition row = true → jobRow after jobId = some (set row) →
      JobStep now jobId operation outcome (some row) (some (set row))) :
    StepsJob now jobId operation outcome before after := by
  obtain ⟨row, hbefore, hcondition, hafter⟩ := h.jobRow_self
  have hlogged := h.logged jobId
  refine ⟨?_, ?_⟩
  · rw [hbefore, hafter]
    exact hstep row hcondition hafter
  · rw [hbefore, hafter, hmoves row hcondition]
    simpa using hlogged

/-! ### The chat repository leaves jobs alone -/

/-- A program that leaves every job's row and events as they were. -/
def LeavesJobs {A : Type} (program : Sql A) : Prop :=
  ∀ jobId row events,
    Triple (fun database ↦ jobRow database jobId = row ∧ jobEventRows database jobId = events)
      program fun _ database ↦ jobRow database jobId = row ∧ jobEventRows database jobId = events

namespace LeavesJobs

theorem commit {A : Type} (result : A) : LeavesJobs (.commit result) :=
  fun _ _ _ ↦ Triple.commit fun _ h ↦ h

theorem raise {A : Type} (error : StoreError) : LeavesJobs (.raise error : Sql A) :=
  fun _ _ _ ↦ Triple.raise error

theorem update {A : Type} {key : RowKey} {statement : Row key → Option (Row key)}
    {next : Option (Row key) → Sql A} (hkey : ∀ jobId, RowKey.job jobId ≠ key)
    (hnext : ∀ row, LeavesJobs (next row)) : LeavesJobs (.update key statement next) :=
  fun jobId row events ↦ Triple.update_frame
    (fun _ set h ↦ ⟨(jobRow_set_of_ne _ set (hkey jobId)).trans h.1, h.2⟩)
    fun returned ↦ hnext returned jobId row events

theorem insertMessageEntry {A : Type} {sessionId messageId : Uuid} {seq : ℕ} {next : Sql A}
    (hnext : LeavesJobs next) : LeavesJobs (.insert (.message sessionId seq messageId) next) := by
  intro jobId row events
  refine Triple.insert (fun database h ↦ ⟨h.1, ?_⟩) (hnext jobId row events)
  rw [← h.2]
  simp [jobEventRows]

theorem select {A : Type} {next : Database → Sql A}
    (hnext : ∀ snapshot, LeavesJobs (next snapshot)) :
    LeavesJobs (.select next) :=
  fun jobId row events ↦ Triple.select fun snapshot ↦ hnext snapshot jobId row events

theorem bind {A B : Type} {program : Sql A} {rest : A → Sql B} (hprogram : LeavesJobs program)
    (hrest : ∀ value, LeavesJobs (rest value)) : LeavesJobs (program >>= rest) :=
  fun jobId row events ↦
    Triple.bind (hprogram jobId row events) fun value ↦ hrest value jobId row events

theorem stepsJob {A : Type} {now : Instant} {jobId : Uuid} {operation : Operation}
    {outcome : Outcome} {program : Sql A} {before after : Database} {value : A}
    (hprogram : LeavesJobs program) (h : program.Yields before value after)
    (hmoves : ∀ row, operation.moves jobId row row outcome = false) :
    StepsJob now jobId operation outcome before after := by
  obtain ⟨hrow, hevents⟩ := hprogram jobId _ _ before value after ⟨rfl, rfl⟩ h
  exact .of_eq hrow hevents hmoves

end LeavesJobs

theorem allocateSeq_leavesJobs (sessionId : Uuid) : LeavesJobs (allocateSeq sessionId) :=
  .update (by simp) fun row ↦ by
    split
    · exact .commit _
    · exact .raise _

theorem ensureSession_leavesJobs (sessionId : Uuid) : LeavesJobs (ensureSession sessionId) :=
  .update (by simp) fun _ ↦ .commit _

theorem insertMessage_leavesJobs (messageId : Uuid) (row : ChatMessageRow) :
    LeavesJobs (insertMessage messageId row) :=
  .update (by simp) fun inserted ↦ by
    cases inserted with
    | some _ => exact .insertMessageEntry (.commit _)
    | none => exact .raise _

theorem recordUserMessage_leavesJobs (sessionId : Uuid) (clientMsgId text : String)
    (messageId : Uuid) : LeavesJobs (recordUserMessage sessionId clientMsgId text messageId) := by
  refine .bind (allocateSeq_leavesJobs sessionId) fun seq ↦ .update (by simp) fun entry ↦ ?_
  cases entry with
  | some _ => exact .bind (insertMessage_leavesJobs messageId _) fun _ ↦ .commit _
  | none => exact .raise _

theorem byClientMsgId_leavesJobs (sessionId : Uuid) (clientMsgId : String) :
    LeavesJobs (byClientMsgId sessionId clientMsgId) := by
  refine .select fun snapshot ↦ ?_
  split
  · split
    · exact .commit _
    · exact .raise _
  · exact .raise _

theorem startAssistantMessage_leavesJobs (sessionId messageId : Uuid) :
    LeavesJobs (startAssistantMessage sessionId messageId) :=
  .bind (allocateSeq_leavesJobs sessionId) fun _ ↦ insertMessage_leavesJobs messageId _

theorem finishMessage_leavesJobs (messageId : Uuid) (status : Status) (text : Option String) :
    LeavesJobs (finishMessage messageId status text) :=
  .update (by simp) fun _ ↦ .commit _

theorem logSince_leavesJobs (sessionId : Uuid) (afterSeq limit : ℕ) :
    LeavesJobs (logSince sessionId afterSeq limit) :=
  fun _ _ _ ↦ Triple.readOnly (logSince_readOnly sessionId afterSeq limit)

/-! ### Every method -/

theorem insertOrGet_stepsJob {now : Instant} {insertedId : Uuid} {request : JobRequest} {job : Job}
    {created : Bool} {before after : Database}
    (h : (insertOrGet now insertedId request).Yields before (job, created) after) (jobId : Uuid) :
    StepsJob now jobId (.insertOrGet insertedId request) (.enqueued job created) before after := by
  rcases insertOrGet_yields h with ⟨rfl, hattempts, hfree, rfl, hrecorded⟩ | ⟨rfl, rfl⟩
  · obtain ⟨seq, hevents⟩ := hrecorded.jobEventRows_eq
    have hafter := hrecorded.jobRow_eq jobId
    by_cases hjob : insertedId = jobId
    · subst hjob
      rw [jobRow_set_self] at hafter
      refine ⟨?_, seq, ?_⟩
      · rw [hfree, hafter]
        exact .inserted request hattempts
      · simpa [Operation.moves, hafter] using hevents insertedId
    · refine .of_eq ?_ ?_ ?_
      · rw [hafter, jobRow_set_of_ne _ _ (by simpa using Ne.symm hjob),
          jobRow_set_of_ne _ _ (by simp)]
      · simpa [Ne.symm hjob] using hevents jobId
      · simp [Operation.moves, hjob]
  · exact .of_eq rfl rfl (by simp [Operation.moves])

theorem markPublished_stepsJob {now : Instant} {publishedId : Uuid} {value : Unit}
    {before after : Database} (h : (markPublished now publishedId).Yields before value after)
    (jobId : Uuid) : StepsJob now jobId (.markPublished publishedId) .unit before after := by
  rcases markPublished_yields h with ⟨row, hrow, rfl⟩ | rfl
  · by_cases hjob : publishedId = jobId
    · subst hjob
      refine ⟨?_, .of_eq rfl⟩
      rw [hrow, jobRow_set_self]
      exact .published row
    · exact .of_eq (jobRow_set_of_ne _ _ (by simpa using Ne.symm hjob)) rfl fun _ ↦ rfl
  · exact .of_eq rfl rfl fun _ ↦ rfl

theorem moves_cancel_self_eq_false (jobId cancelledId : Uuid) (row : Option JobRow)
    (outcome : Outcome) :
    (Operation.cancel cancelledId).moves jobId row row outcome = false := by
  cases row with
  | none => simp [Operation.moves]
  | some row =>
    cases hstate : row.state <;> simp [Operation.moves, JobState.waiting, hstate]

theorem cancel_stepsJob {now : Instant} {cancelledId : Uuid} {value : Option Job}
    {before after : Database} (h : (cancel cancelledId).Yields before value after)
    (jobId : Uuid) : StepsJob now jobId (.cancel cancelledId) (.found value) before after := by
  have hmoves := fun row ↦ moves_cancel_self_eq_false jobId cancelledId row (.found value)
  rcases cancel_yields h with htransition | ⟨row, hrow, hrunning, rfl⟩ | rfl
  · by_cases hjob : cancelledId = jobId
    · subst hjob
      refine .of_transition_self htransition (fun row hwaiting ↦ ?_) fun row hwaiting _ ↦
        .cancelled row _ hwaiting
      have hstate : row.state ≠ .running := by
        rintro hrunning
        simp [hrunning, JobState.waiting] at hwaiting
      simp [Operation.moves, hwaiting, JobRow.cancelled, hstate]
    · exact .of_transition_of_ne htransition hjob hmoves
  · by_cases hjob : cancelledId = jobId
    · subst hjob
      refine ⟨?_, ?_⟩
      · rw [hrow, jobRow_set_self]
        exact .flagged row _ hrunning
      · rw [hrow]
        have hstill : (Operation.cancel cancelledId).moves cancelledId (some row)
            (jobRow (before.set (.job cancelledId) (some row.cancelled)) cancelledId)
            (.found value) = false := by
          simp [Operation.moves, hrunning, JobState.waiting]
        rw [hstill]
        exact .of_eq rfl
    · exact .of_eq (jobRow_set_of_ne _ _ (by simpa using Ne.symm hjob)) rfl hmoves
  · exact .of_eq rfl rfl hmoves

theorem claim_stepsJob {now : Instant} {claimedId leaseId : Uuid} {owner : String}
    {lease : Duration} {value : Option Lease} {before after : Database}
    (h : (claim now claimedId leaseId owner lease).Yields before value after) (jobId : Uuid) :
    StepsJob now jobId (.claim claimedId leaseId owner lease) (.claimed value) before after := by
  rcases claim_yields h with ⟨new, hnew, rfl, htransition⟩ | ⟨rfl, rfl⟩
  · by_cases hjob : claimedId = jobId
    · subst hjob
      refine .of_transition_self htransition (fun row _ ↦ by simp [Operation.moves])
        fun row hreservable hafter ↦ ?_
      rw [hafter, Option.some.injEq] at hnew
      subst hnew
      exact .claimed row leaseId owner lease hreservable
    · exact .of_transition_of_ne htransition hjob (by simp [Operation.moves, hjob])
  · exact .of_eq rfl rfl (by simp [Operation.moves])

theorem retireLapsed_stepsJob {now : Instant} {scan ids : List Uuid} {before after : Database}
    (h : (retireLapsed now scan).Yields before ids after) (jobId : Uuid) :
    StepsJob now jobId (.retireLapsed scan) (.jobIds ids) before after := by
  rcases retireLapsed_yields h jobId with ⟨hnotMem, hrow, hlogged⟩ |
    ⟨hmem, hlogged, row, hbefore, hretirable, hafter⟩
  · refine ⟨?_, by simpa [Operation.moves, hnotMem] using hlogged⟩
    rw [hrow]
    exact .unchanged _ (by simp [Operation.moves, hnotMem])
  · refine ⟨?_, by simpa [Operation.moves, hmem] using hlogged⟩
    rw [hbefore, hafter]
    exact .retired row scan ids hmem hretirable

theorem extend_stepsJob {now : Instant} {lease renewed : Lease} {duration : Duration}
    {before after : Database} (h : (extend now lease duration).Yields before renewed after)
    (jobId : Uuid) :
    StepsJob now jobId (.extend lease duration) (.extended renewed) before after := by
  obtain ⟨row, hrow, hfenced, rfl, rfl⟩ := extend_yields h
  by_cases hjob : lease.job.id = jobId
  · subst hjob
    refine ⟨?_, .of_eq rfl⟩
    rw [hrow, jobRow_set_self]
    exact .extended row lease duration rfl hfenced
  · exact .of_eq (jobRow_set_of_ne _ _ (by simpa using Ne.symm hjob)) rfl fun _ ↦ rfl

theorem ack_stepsJob {now : Instant} {lease : Lease} {resultRef : Option String} {value : Unit}
    {before after : Database} (h : (ack lease resultRef).Yields before value after)
    (jobId : Uuid) : StepsJob now jobId (.ack lease resultRef) .unit before after := by
  have htransition := ack_yields h
  by_cases hjob : lease.job.id = jobId
  · subst hjob
    exact .of_transition_self htransition (fun row _ ↦ by simp [Operation.moves])
      fun row hfenced _ ↦ .acked row lease resultRef rfl hfenced
  · exact .of_transition_of_ne htransition hjob (by simp [Operation.moves, hjob])

theorem nack_stepsJob {now : Instant} {lease : Lease} {error : String} {retryIn : Option Duration}
    {value : Job} {before after : Database}
    (h : (nack now lease error retryIn).Yields before value after) (jobId : Uuid) :
    StepsJob now jobId (.nack lease error retryIn) (.nacked value) before after := by
  obtain ⟨⟨new, hnew, rfl⟩, htransition⟩ := nack_yields h
  by_cases hjob : lease.job.id = jobId
  · subst hjob
    refine .of_transition_self htransition (fun row _ ↦ by simp [Operation.moves])
      fun row hfenced hafter ↦ ?_
    rw [hafter, Option.some.injEq] at hnew
    subst hnew
    exact .nacked row lease error retryIn rfl hfenced
  · exact .of_transition_of_ne htransition hjob (by simp [Operation.moves, hjob])

/-- Whatever a call commits among any other transactions, it makes one of the steps to each job,
and logs it if it is a transition of the job. -/
theorem Operation.program_stepsJob {now : Instant} {operation : Operation} {outcome : Outcome}
    {before after : Database} (h : (operation.program now).Yields before outcome after)
    (jobId : Uuid) : StepsJob now jobId operation outcome before after := by
  cases operation with
  | insertOrGet insertedId request =>
    obtain ⟨⟨job, created⟩, hcall, rfl⟩ := Program.yields_map h
    exact insertOrGet_stepsJob hcall jobId
  | markPublished publishedId =>
    obtain ⟨_, hcall, rfl⟩ := Program.yields_map h
    exact markPublished_stepsJob hcall jobId
  | getJob foundId =>
    obtain ⟨_, hcall, rfl⟩ := Program.yields_map h
    rw [getJob_yields hcall]
    exact .of_eq rfl rfl fun _ ↦ rfl
  | cancel cancelledId =>
    obtain ⟨_, hcall, rfl⟩ := Program.yields_map h
    exact cancel_stepsJob hcall jobId
  | claim claimedId leaseId owner lease =>
    obtain ⟨_, hcall, rfl⟩ := Program.yields_map h
    exact claim_stepsJob hcall jobId
  | lapsedReservable scan =>
    obtain ⟨_, ⟨_, -, rfl⟩, rfl⟩ := Program.yields_map h
    exact .of_eq rfl rfl fun _ ↦ rfl
  | retireLapsed scan =>
    obtain ⟨_, hcall, rfl⟩ := Program.yields_map h
    exact retireLapsed_stepsJob hcall jobId
  | unpublished scan olderThan =>
    obtain ⟨_, ⟨_, -, rfl⟩, rfl⟩ := Program.yields_map h
    exact .of_eq rfl rfl fun _ ↦ rfl
  | extend lease duration =>
    obtain ⟨_, hcall, rfl⟩ := Program.yields_map h
    exact extend_stepsJob hcall jobId
  | ack lease resultRef =>
    obtain ⟨_, hcall, rfl⟩ := Program.yields_map h
    exact ack_stepsJob hcall jobId
  | nack lease error retryIn =>
    obtain ⟨_, hcall, rfl⟩ := Program.yields_map h
    exact nack_stepsJob hcall jobId
  | ensureSession sessionId =>
    obtain ⟨_, hcall, rfl⟩ := Program.yields_map h
    exact (ensureSession_leavesJobs sessionId).stepsJob hcall fun _ ↦ rfl
  | recordUserMessage sessionId clientMsgId text messageId =>
    obtain ⟨_, hcall, rfl⟩ := Program.yields_map h
    exact (recordUserMessage_leavesJobs sessionId clientMsgId text messageId).stepsJob
      hcall fun _ ↦ rfl
  | byClientMsgId sessionId clientMsgId =>
    obtain ⟨_, hcall, rfl⟩ := Program.yields_map h
    exact (byClientMsgId_leavesJobs sessionId clientMsgId).stepsJob hcall fun _ ↦ rfl
  | startAssistantMessage sessionId messageId =>
    obtain ⟨_, hcall, rfl⟩ := Program.yields_map h
    exact (startAssistantMessage_leavesJobs sessionId messageId).stepsJob hcall fun _ ↦ rfl
  | completeAssistantMessage messageId text =>
    obtain ⟨_, hcall, rfl⟩ := Program.yields_map h
    exact (finishMessage_leavesJobs messageId .complete (some text)).stepsJob hcall fun _ ↦ rfl
  | failAssistantMessage messageId =>
    obtain ⟨_, hcall, rfl⟩ := Program.yields_map h
    exact (finishMessage_leavesJobs messageId .failed none).stepsJob hcall fun _ ↦ rfl
  | logSince sessionId afterSeq limit =>
    obtain ⟨_, hcall, rfl⟩ := Program.yields_map h
    exact (logSince_leavesJobs sessionId afterSeq limit).stepsJob hcall fun _ ↦ rfl

end Abacus.Postgres
