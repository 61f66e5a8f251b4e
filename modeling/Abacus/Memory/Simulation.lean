import Abacus.Memory.JobQueue
import Abacus.Postgres.Columns
import Abacus.Postgres.Succeeds

/-!
# The queue in memory and the store

The same operations on `MemoryJobQueue` and on `PostgresJobStore` (`onStore`): the scan of a
`reserve` is a `retire_lapsed` and then a claim of the job that the queue in memory chose. The two
agree row by row (`Simulates`), and `same_machine` says what follows for every run: the same
answers, the same snapshots and deadlines, and the same jobs on offer.

They differ in three places, which `InTime` leaves out. A lease whose deadline is this very instant
has lapsed in memory and not in the store; a job that is retired with an empty error gets the text
of an expired lease in memory and keeps its own in the store; and the store refuses or changes a
value that its columns do not hold, which the queue in memory keeps. `reserved_at_deadline` is a run
that comes to the first.
-/

set_option autoImplicit false
set_option relaxedAutoImplicit false

namespace Abacus.Memory

open Postgres (Database JobRow Outcome StoreError jobRow nextSeq perform SessionOpen SetsJob)

/-! ### The same operations on the store -/

/-- What a call of the store gives the caller of the queue. -/
def answerOf : Except StoreError Outcome → Answer
  | .ok (.enqueued job _) => .job job
  | .ok (.found job) => .found job
  | .ok (.claimed lease) => .reserved lease
  | .ok (.extended lease) => .extended lease
  | .ok (.nacked _) => .unit
  | .ok .unit => .unit
  | .error (.staleLease leaseId jobId) => .staleLease leaseId jobId
  | _ => .raised

/-- One call of the store. -/
def call (now : Instant) (operation : Postgres.Operation) (database : Database) :
    Answer × Database :=
  (answerOf (perform now operation database).1, (perform now operation database).2)

/-- An operation of the queue on the store. A scan visits the table in some order, and claims the
job it is told to, or none. -/
def onStore (now : Instant) (scan : List Uuid) (choice : Option Uuid) (database : Database) :
    Operation → Answer × Database
  | .enqueue jobId request => call now (.insertOrGet jobId request) database
  | .get jobId => call now (.getJob jobId) database
  | .cancel jobId => call now (.cancel jobId) database
  | .reserve leaseId owner lease =>
    match choice with
    | some jobId =>
      call now (.claim jobId leaseId owner lease) (perform now (.retireLapsed scan) database).2
    | none => (.reserved none, (perform now (.retireLapsed scan) database).2)
  | .extend lease duration => call now (.extend lease duration) database
  | .ack lease resultRef => call now (.ack lease resultRef) database
  | .nack lease error retryIn => call now (.nack lease error retryIn) database

/-- The job that the scan of the queue in memory takes. -/
def JobQueue.choice (queue : JobQueue) (now : Instant) : Option Uuid :=
  ((queue.retireLapsed now).chosen now).map Prod.fst

/-! ### Rows that agree -/

/-- A row in memory and a row of the table that say the same. -/
structure Row.Agrees (jobId : Uuid) (row : Row) (stored : JobRow) : Prop where
  job : row.job = stored.toJob jobId
  runAfter : row.runAfter = stored.runAfter
  leaseId : row.leaseId = stored.leaseId
  leaseExpiresAt : row.leaseExpiresAt = stored.leaseExpiresAt
  leaseOwner : row.leaseOwner = stored.leaseOwner

/-- The two ways to write the error of a retired job give the same, but for an empty error. -/
theorem textOr_of_ne {text : Option String} (h : text ≠ some "") :
    textOr text leaseExpired = text.getD Postgres.leaseExpiredError := by
  cases text with
  | none => rfl
  | some text =>
    have hne : text ≠ "" := fun hsame ↦ h (congrArg some hsame)
    rw [textOr, if_neg hne, Option.getD_some]

/-- A running row that is exactly at its deadline. -/
def Row.AtDeadline (row : Row) (now : Instant) : Prop :=
  row.job.state = .running ∧ row.leaseExpiresAt = some now

namespace Row.Agrees

variable {jobId : Uuid} {row : Row} {stored : JobRow} {now : Instant}

@[simp] theorem state (h : row.Agrees jobId stored) : row.job.state = stored.state := by
  rw [h.job, JobRow.toJob]

@[simp] theorem attempts (h : row.Agrees jobId stored) : row.job.attempts = stored.attempts := by
  rw [h.job, JobRow.toJob]

@[simp] theorem maxAttempts (h : row.Agrees jobId stored) :
    row.job.maxAttempts = stored.maxAttempts := by
  rw [h.job, JobRow.toJob]

@[simp] theorem cancelRequested (h : row.Agrees jobId stored) :
    row.job.cancelRequested = stored.cancelRequested := by
  rw [h.job, JobRow.toJob]

@[simp] theorem error (h : row.Agrees jobId stored) : row.job.error = stored.error := by
  rw [h.job, JobRow.toJob]

/-- A deadline that is not this instant is past in memory when it is in the store. -/
theorem lapsed (h : row.Agrees jobId stored) (hdeadline : row.leaseExpiresAt ≠ some now) :
    row.lapsed now = stored.expired now := by
  unfold Row.lapsed JobRow.expired
  rw [← h.leaseExpiresAt]
  cases hexpires : row.leaseExpiresAt with
  | none => rfl
  | some deadline =>
    have hne : deadline ≠ now := fun hsame ↦ hdeadline (hexpires.trans (congrArg some hsame))
    rw [Option.any_some, Option.any_some, decide_eq_decide]
    exact ⟨fun hle ↦ lt_of_le_of_ne hle hne, le_of_lt⟩

theorem enqueued (now : Instant) (jobId : Uuid) (request : JobRequest) :
    (Row.enqueued now jobId request).Agrees jobId (JobRow.inserted now request) where
  job := rfl
  runAfter := rfl
  leaseId := rfl
  leaseExpiresAt := rfl
  leaseOwner := rfl

theorem claim (h : row.Agrees jobId stored) (leaseId : Uuid) (owner : String) (lease : Duration) :
    (row.claim now leaseId owner lease).Agrees jobId (stored.claimed now leaseId owner lease) where
  job := by
    rw [Row.claim, h.job]
    rfl
  runAfter := h.runAfter
  leaseId := rfl
  leaseExpiresAt := rfl
  leaseOwner := rfl

theorem extend (h : row.Agrees jobId stored) (duration : Duration) :
    (row.extend now duration).Agrees jobId (stored.extended now duration) where
  job := h.job
  runAfter := h.runAfter
  leaseId := h.leaseId
  leaseExpiresAt := rfl
  leaseOwner := h.leaseOwner

theorem ack (h : row.Agrees jobId stored) (resultRef : Option String) :
    (row.ack resultRef).Agrees jobId (stored.acked resultRef) where
  job := by
    rw [Row.ack, Row.release, h.job]
    rfl
  runAfter := h.runAfter
  leaseId := rfl
  leaseExpiresAt := rfl
  leaseOwner := rfl

theorem nack (h : row.Agrees jobId stored) (text : String) (retryIn : Option Duration) :
    (row.nack now text retryIn).Agrees jobId (stored.nacked now text retryIn) where
  job := by
    have hstate : row.nackState = stored.nackState := by
      simp [Row.nackState, JobRow.nackState, h.cancelRequested, h.maxAttempts, h.attempts]
    rw [Row.nack, Row.release, hstate, h.job]
    rfl
  runAfter := rfl
  leaseId := rfl
  leaseExpiresAt := rfl
  leaseOwner := rfl

theorem cancel (h : row.Agrees jobId stored) (hlive : stored.state.terminal = false) :
    row.cancel.Agrees jobId stored.cancelled := by
  unfold Row.cancel
  rw [h.state, hlive]
  by_cases hrunning : stored.state = .running
  · simp only [hrunning, if_true, Bool.false_eq_true, if_false]
    refine ⟨?_, h.runAfter, h.leaseId, h.leaseExpiresAt, h.leaseOwner⟩
    rw [h.job]
    simp [JobRow.cancelled, JobRow.toJob, hrunning]
  · simp only [hrunning, Bool.false_eq_true, if_false]
    refine ⟨?_, h.runAfter, h.leaseId, h.leaseExpiresAt, h.leaseOwner⟩
    rw [h.job]
    simp [JobRow.cancelled, JobRow.toJob, hrunning]

/-- A row is on offer in memory when it is in the store, unless it is at its deadline and would go
round again. -/
theorem reservable (h : row.Agrees jobId stored)
    (hdeadline : row.AtDeadline now →
      row.job.maxAttempts ≤ row.job.attempts ∨ row.job.cancelRequested = true) :
    row.reservable now = (stored.waiting now || stored.lapsed now) := by
  unfold Row.reservable JobRow.waiting JobRow.lapsed
  rw [h.state, h.runAfter, h.attempts, h.maxAttempts, h.cancelRequested]
  cases hstate : stored.state with
  | running =>
    by_cases hexact : row.leaseExpiresAt = some now
    · rcases hdeadline ⟨h.state.trans hstate, hexact⟩ with hspent | hcancelled
      · rw [h.maxAttempts, h.attempts] at hspent
        simp [JobState.waiting, not_lt.mpr hspent]
      · rw [h.cancelRequested] at hcancelled
        simp [JobState.waiting, hcancelled]
    · rw [h.lapsed hexact]
      simp [JobState.waiting]
  | _ => simp [JobState.waiting]

/-- A row is retired in memory as in the store, unless it is at its deadline or its error is an
empty text. -/
theorem retire (h : row.Agrees jobId stored) (hdeadline : ¬ row.AtDeadline now)
    (hempty : row.job.state = .running → row.lapsed now = true →
      row.job.cancelRequested = false → row.job.maxAttempts ≤ row.job.attempts →
      row.job.error ≠ some "") :
    (row.retireLapsed now).Agrees jobId (stored.retire now) := by
  unfold Row.retireLapsed JobRow.retire
  by_cases hrunning : stored.state = .running
  · have hlapsed : row.lapsed now = stored.expired now :=
      h.lapsed fun hexact ↦ hdeadline ⟨h.state.trans hrunning, hexact⟩
    have herror : stored.expired now = true → stored.cancelRequested = false →
        stored.maxAttempts ≤ stored.attempts → stored.error ≠ some "" := by
      rw [← h.error, ← h.attempts, ← h.maxAttempts, ← h.cancelRequested, ← hlapsed]
      exact hempty (h.state.trans hrunning)
    rw [h.state, h.cancelRequested, h.maxAttempts, h.attempts, h.error, hlapsed,
      if_neg (not_not.mpr hrunning)]
    cases hexpired : stored.expired now with
    | false =>
      have hkept : stored.retirable now = false := by simp [JobRow.retirable, hexpired]
      rw [if_pos rfl, hkept, if_neg Bool.false_ne_true]
      exact h
    | true =>
      rw [if_neg (by simp)]
      cases hcancel : stored.cancelRequested with
      | true =>
        have hretired : stored.retirable now = true := by
          simp [JobRow.retirable, hrunning, hexpired, hcancel]
        rw [if_pos rfl, if_pos hretired]
        refine ⟨?_, h.runAfter, rfl, rfl, rfl⟩
        rw [Row.release, h.job]
        simp [JobRow.toJob, JobRow.retired, JobRow.released, hcancel]
      | false =>
        rw [if_neg (by simp)]
        by_cases hspent : stored.maxAttempts ≤ stored.attempts
        · have hretired : stored.retirable now = true := by
            simp [JobRow.retirable, hrunning, hexpired, hspent]
          have htext : some (textOr stored.error leaseExpired) =
              some (stored.error.getD Postgres.leaseExpiredError) :=
            congrArg some (textOr_of_ne (herror hexpired hcancel hspent))
          rw [if_pos hspent, if_pos hretired]
          refine ⟨?_, h.runAfter, rfl, rfl, rfl⟩
          rw [Row.release, htext, h.job]
          simp [JobRow.toJob, JobRow.retired, JobRow.released, hcancel]
        · have hkept : stored.retirable now = false := by
            simp [JobRow.retirable, hcancel, hspent]
          rw [if_neg hspent, hkept, if_neg Bool.false_ne_true]
          exact h
  · have hkept : stored.retirable now = false := by simp [JobRow.retirable, hrunning]
    rw [h.state, if_pos hrunning, hkept, if_neg Bool.false_ne_true]
    exact h

end Row.Agrees

/-! ### The simulation -/

/-- The queue in memory and the table of jobs agree row by row and key by key. -/
structure Simulates (queue : JobQueue) (database : Database) : Prop where
  rows : ∀ jobId, Option.Rel (Row.Agrees jobId) (queue.rows jobId) (jobRow database jobId)
  keys : ∀ sessionId key, queue.keys sessionId key = database.row (.idempotency sessionId key)
  known : ∀ sessionId key jobId, queue.keys sessionId key = some jobId →
    ∃ row, queue.rows jobId = some row
  order : ∀ jobId row, queue.rows jobId = some row → jobId ∈ queue.order
  sessions : ∀ jobId stored, jobRow database jobId = some stored → SessionOpen database stored

/-- Sessions stay open across a call. -/
theorem sessionOpen_of_perform {now : Instant} {operation : Postgres.Operation}
    {database after : Database} {reply : Except StoreError Outcome} {stored : JobRow}
    (hperform : perform now operation database = (reply, after))
    (h : SessionOpen database stored) : SessionOpen after stored := by
  intro sessionId hsession
  obtain ⟨seq, hseq⟩ := h sessionId hsession
  obtain ⟨next, hnext, -⟩ :=
    Postgres.perform_kept now operation database (.chatSession sessionId) seq hseq
  rw [hperform] at hnext
  exact ⟨next, hnext⟩

namespace Simulates

variable {queue : JobQueue} {database after : Database} {now : Instant} {jobId : Uuid} {row : Row}

/-- A row in memory has one in the table that agrees. -/
theorem stored (h : Simulates queue database) (hrow : queue.rows jobId = some row) :
    ∃ stored, jobRow database jobId = some stored ∧ row.Agrees jobId stored := by
  have hrel := h.rows jobId
  rw [hrow] at hrel
  generalize hfound : jobRow database jobId = found at hrel
  cases hrel with
  | some hagrees => exact ⟨_, rfl, hagrees⟩

theorem absent (h : Simulates queue database) (hrow : queue.rows jobId = none) :
    jobRow database jobId = none := by
  have hrel := h.rows jobId
  rw [hrow] at hrel
  generalize jobRow database jobId = found at hrel ⊢
  cases hrel with
  | none => rfl

/-- A job the table has is one the memory has. -/
theorem remembered (h : Simulates queue database) {stored : JobRow}
    (hstored : jobRow database jobId = some stored) :
    ∃ row, queue.rows jobId = some row ∧ row.Agrees jobId stored := by
  have hrel := h.rows jobId
  rw [hstored] at hrel
  generalize hfound : queue.rows jobId = found at hrel
  cases hrel with
  | some hagrees => exact ⟨_, rfl, hagrees⟩

/-- A call that sets the row of one job on both sides. -/
theorem setRow (h : Simulates queue database) {operation : Postgres.Operation}
    {reply : Except StoreError Outcome} {new : Row} {old stored : JobRow}
    (hrow : queue.rows jobId = some row) (hold : jobRow database jobId = some old)
    (hperform : perform now operation database = (reply, after))
    (hsets : SetsJob jobId stored database after) (hagrees : new.Agrees jobId stored)
    (hsession : stored.sessionId = old.sessionId) :
    Simulates (queue.setRow jobId new) after where
  rows := by
    intro other
    rw [hsets.rows]
    by_cases hother : other = jobId
    · subst hother
      simp only [JobQueue.setRow, Function.update_self]
      exact .some hagrees
    · simp only [JobQueue.setRow, Function.update_of_ne hother]
      exact h.rows other
  keys := fun sessionId key ↦ (h.keys sessionId key).trans (hsets.keys sessionId key).symm
  known := by
    intro sessionId key known hknown
    obtain ⟨found, hfound⟩ := h.known sessionId key known hknown
    by_cases hother : known = jobId
    · exact ⟨new, by simp only [JobQueue.setRow, hother, Function.update_self]⟩
    · exact ⟨found, by simp only [JobQueue.setRow, Function.update_of_ne hother, hfound]⟩
  order := by
    intro other found hfound
    by_cases hother : other = jobId
    · rw [hother]
      exact h.order jobId row hrow
    · simp only [JobQueue.setRow, Function.update_of_ne hother] at hfound
      exact h.order other found hfound
  sessions := by
    intro other found hfound
    rw [hsets.rows] at hfound
    by_cases hother : other = jobId
    · subst hother
      rw [Function.update_self] at hfound
      obtain rfl := Option.some.inj hfound
      refine sessionOpen_of_perform hperform ?_
      intro sessionId hopen
      exact h.sessions other old hold sessionId (hsession.symm.trans hopen)
    · rw [Function.update_of_ne hother] at hfound
      exact sessionOpen_of_perform hperform (h.sessions other found hfound)

/-- A call that adds a job and its key on both sides. -/
theorem insert (h : Simulates queue database) {operation : Postgres.Operation}
    {reply : Except StoreError Outcome} {request : JobRequest} (hfresh : queue.rows jobId = none)
    (hperform : perform now operation database = (reply, after))
    (hsets : SetsJob jobId (JobRow.inserted now request)
      (database.set (.idempotency request.sessionId request.idempotencyKey) (some jobId)) after)
    (hopen : SessionOpen database (JobRow.inserted now request)) :
    Simulates
      { order := if (queue.rows jobId).isSome then queue.order else queue.order ++ [jobId]
        rows := Function.update queue.rows jobId (some (Row.enqueued now jobId request))
        keys := Function.update queue.keys request.sessionId
          (Function.update (queue.keys request.sessionId) request.idempotencyKey (some jobId)) }
      after where
  rows := by
    intro other
    rw [hsets.rows]
    by_cases hother : other = jobId
    · subst hother
      simp only [Function.update_self]
      exact .some (.enqueued now other request)
    · simp only [Function.update_of_ne hother]
      rw [Postgres.jobRow_set_of_ne _ _ (by simp)]
      exact h.rows other
  keys := by
    intro sessionId key
    dsimp only
    rw [hsets.keys]
    by_cases hsame : sessionId = request.sessionId ∧ key = request.idempotencyKey
    · obtain ⟨rfl, rfl⟩ := hsame
      rw [Function.update_self, Function.update_self]
      have hset := RowLocking.Database.set_row_self database
        (.idempotency request.sessionId request.idempotencyKey) (some jobId)
      exact hset.symm
    · have hkept : (database.set (.idempotency request.sessionId request.idempotencyKey)
          (some jobId)).row (.idempotency sessionId key) =
            database.row (.idempotency sessionId key) :=
        RowLocking.Database.set_row_of_ne _ _ (by simpa using hsame)
      rw [hkept, ← h.keys sessionId key]
      by_cases hsession : sessionId = request.sessionId
      · subst hsession
        rw [Function.update_self, Function.update_of_ne fun hkey ↦ hsame ⟨rfl, hkey⟩]
      · rw [Function.update_of_ne hsession]
  known := by
    intro sessionId key known hknown
    dsimp only at hknown ⊢
    by_cases hother : known = jobId
    · exact ⟨_, by rw [hother, Function.update_self]⟩
    · have hold : queue.keys sessionId key = some known := by
        by_cases hsession : sessionId = request.sessionId
        · subst hsession
          rw [Function.update_self] at hknown
          by_cases hkey : key = request.idempotencyKey
          · rw [hkey, Function.update_self] at hknown
            exact absurd (Option.some.inj hknown).symm hother
          · rwa [Function.update_of_ne hkey] at hknown
        · rwa [Function.update_of_ne hsession] at hknown
      obtain ⟨row, hrow⟩ := h.known sessionId key known hold
      exact ⟨row, by rw [Function.update_of_ne hother, hrow]⟩
  order := by
    intro other row hrow
    dsimp only at hrow ⊢
    rw [hfresh, Option.isSome_none, if_neg Bool.false_ne_true, List.mem_append]
    by_cases hother : other = jobId
    · exact Or.inr (List.mem_singleton.mpr hother)
    · rw [Function.update_of_ne hother] at hrow
      exact Or.inl (h.order other row hrow)
  sessions := by
    intro other stored hstored
    rw [hsets.rows] at hstored
    by_cases hother : other = jobId
    · subst hother
      rw [Function.update_self] at hstored
      rw [← Option.some.inj hstored]
      exact sessionOpen_of_perform hperform hopen
    · rw [Function.update_of_ne hother, Postgres.jobRow_set_of_ne _ _ (by simp)] at hstored
      exact sessionOpen_of_perform hperform (h.sessions other stored hstored)

/-- `_retire_lapsed` and `retire_lapsed`. -/
theorem retire (h : Simulates queue database) {scan : List Uuid}
    (hscan : ∀ jobId stored, jobRow database jobId = some stored → jobId ∈ scan)
    (hdeadline : ∀ jobId row, queue.rows jobId = some row → ¬ row.AtDeadline now)
    (hempty : ∀ jobId row, queue.rows jobId = some row → row.job.state = .running →
      row.lapsed now = true → row.job.cancelRequested = false →
      row.job.maxAttempts ≤ row.job.attempts → row.job.error ≠ some "") :
    Simulates (queue.retireLapsed now) (perform now (.retireLapsed scan) database).2 := by
  obtain ⟨ids, after, hperform, hrows, hkeys⟩ :=
    Postgres.retireLapsed_retires now hscan h.sessions
  rw [hperform]
  constructor
  · intro jobId
    rw [hrows]
    cases hrow : queue.rows jobId with
    | none =>
      rw [h.absent hrow]
      simp only [JobQueue.retireLapsed, hrow, Option.map_none]
      exact .none
    | some row =>
      obtain ⟨stored, hstored, hagrees⟩ := h.stored hrow
      rw [hstored]
      simp only [JobQueue.retireLapsed, hrow, Option.map_some]
      exact .some (hagrees.retire (hdeadline jobId row hrow) (hempty jobId row hrow))
  · exact fun sessionId key ↦ (h.keys sessionId key).trans (hkeys sessionId key).symm
  · intro sessionId key known hknown
    obtain ⟨row, hrow⟩ := h.known sessionId key known hknown
    exact ⟨row.retireLapsed now, by simp [JobQueue.retireLapsed, hrow]⟩
  · intro jobId row hrow
    obtain ⟨found, hfound, -⟩ := Option.map_eq_some_iff.mp hrow
    exact h.order jobId found hfound
  · intro jobId stored hstored
    rw [hrows] at hstored
    obtain ⟨old, hold, rfl⟩ := Option.map_eq_some_iff.mp hstored
    refine sessionOpen_of_perform hperform ?_
    intro sessionId hsession
    refine h.sessions jobId old hold sessionId ?_
    rw [← hsession, JobRow.retire]
    split <;> rfl

end Simulates

/-- A call on both sides gave the same answer and left the two in agreement. -/
structure InStep (memory : Answer × JobQueue) (store : Answer × Database) : Prop where
  answer : memory.1 = store.1
  simulates : Simulates memory.2 store.2

namespace Simulates

variable {queue : JobQueue} {database : Database}

theorem enqueue (h : Simulates queue database) {now : Instant} {jobId : Uuid}
    {request : JobRequest} (hattempts : 0 < request.maxAttempts)
    (hopen : ∀ sessionId, request.sessionId = some sessionId →
      ∃ seq, nextSeq database sessionId = some seq) (hfresh : queue.rows jobId = none) :
    InStep (queue.enqueue now jobId request) (call now (.insertOrGet jobId request) database) := by
  have hkey := h.keys request.sessionId request.idempotencyKey
  have hattempts : request.maxAttempts ≠ 0 := Nat.pos_iff_ne_zero.mp hattempts
  unfold JobQueue.enqueue
  cases hknown : queue.keys request.sessionId request.idempotencyKey with
  | some known =>
    obtain ⟨row, hrow⟩ := h.known _ _ known hknown
    obtain ⟨stored, hstored, hagrees⟩ := h.stored hrow
    have hperform := Postgres.insertOrGet_finds now jobId hattempts
      (hkey.symm.trans hknown) hstored
    simp only [hrow]
    constructor
    · rw [call, hperform, hagrees.job]
      rfl
    · rw [call, hperform]
      exact h
  | none =>
    obtain ⟨after, hperform, hsets⟩ := Postgres.insertOrGet_creates now hattempts
      (hkey.symm.trans hknown) (h.absent hfresh) hopen
    constructor
    · rw [call, hperform]
      rfl
    · rw [call, hperform]
      exact h.insert hfresh hperform hsets hopen

/-- A method of a lease's holder, whose statement is fenced on the token. -/
theorem whileLive (h : Simulates queue database) {now : Instant} {lease : Lease}
    {operation : Postgres.Operation} {answer : Row → Answer} {set : Row → Row}
    (hlease : operation.lease = some lease)
    (hsets : ∀ row stored, row.Agrees lease.job.id stored →
      jobRow database lease.job.id = some stored → stored.fenced lease = true →
      ∃ outcome after new, perform now operation database = (.ok outcome, after) ∧
        SetsJob lease.job.id new database after ∧ (set row).Agrees lease.job.id new ∧
        new.sessionId = stored.sessionId ∧ answerOf (.ok outcome) = answer (set row)) :
    InStep (queue.whileLive lease answer set) (call now operation database) := by
  unfold JobQueue.whileLive
  cases hlive : queue.live lease with
  | some row =>
    obtain ⟨hrow, htoken⟩ := Option.filter_eq_some_iff.mp hlive
    obtain ⟨stored, hstored, hagrees⟩ := h.stored hrow
    have hfenced : stored.fenced lease = true := by
      rw [JobRow.fenced, ← hagrees.leaseId]
      exact htoken
    obtain ⟨outcome, after, new, hperform, hset, hnew, hsession, hanswer⟩ :=
      hsets row stored hagrees hstored hfenced
    constructor
    · rw [call, hperform]
      exact hanswer.symm
    · rw [call, hperform]
      exact h.setRow hrow hstored hperform hset hnew hsession
  | none =>
    have hstale : perform now operation database =
        (.error (.staleLease lease.id lease.job.id), database) := by
      refine Postgres.perform_stale hlease fun stored hstored ↦ ?_
      obtain ⟨row, hrow, hagrees⟩ := h.remembered hstored
      rw [JobRow.fenced, ← hagrees.leaseId]
      simpa using Option.filter_eq_none_iff.mp hlive row hrow
    constructor
    · rw [call, hstale]
      rfl
    · rw [call, hstale]
      exact h

theorem extend (h : Simulates queue database) (now : Instant) (lease : Lease)
    (duration : Duration) :
    InStep (queue.extend now lease duration) (call now (.extend lease duration) database) := by
  refine h.whileLive rfl fun row stored hagrees hstored hfenced ↦ ?_
  obtain ⟨after, hperform, hsets⟩ := Postgres.extend_sets now duration hstored hfenced
  refine ⟨_, after, _, hperform, hsets, hagrees.extend duration, rfl, ?_⟩
  rw [(hagrees.extend duration).job]
  rfl

theorem ack (h : Simulates queue database) (now : Instant) (lease : Lease)
    (resultRef : Option String) :
    InStep (queue.ack lease resultRef) (call now (.ack lease resultRef) database) := by
  refine h.whileLive rfl fun row stored hagrees hstored hfenced ↦ ?_
  obtain ⟨after, hperform, hsets⟩ := Postgres.ack_sets now resultRef hstored hfenced
    (h.sessions _ stored hstored)
  exact ⟨_, after, _, hperform, hsets, hagrees.ack resultRef, rfl, rfl⟩

theorem nack (h : Simulates queue database) (now : Instant) (lease : Lease) (error : String)
    (retryIn : Option Duration) :
    InStep (queue.nack now lease error retryIn)
      (call now (.nack lease error retryIn) database) := by
  refine h.whileLive rfl fun row stored hagrees hstored hfenced ↦ ?_
  obtain ⟨after, hperform, hsets⟩ :=
    Postgres.nack_sets now error retryIn hstored hfenced (h.sessions _ stored hstored)
  exact ⟨_, after, _, hperform, hsets, hagrees.nack error retryIn, rfl, rfl⟩

theorem cancel (h : Simulates queue database) (now : Instant) (jobId : Uuid) :
    InStep (queue.cancel jobId) (call now (.cancel jobId) database) := by
  unfold JobQueue.cancel
  cases hrow : queue.rows jobId with
  | none =>
    have habsent := h.absent hrow
    have hterminal : ∀ found, jobRow database jobId = some found →
        found.state.terminal = true := by
      intro found hfound
      exact nomatch habsent.symm.trans hfound
    have hperform := Postgres.cancel_reads now hterminal
    constructor
    · rw [call, hperform, habsent]
      rfl
    · rw [call, hperform]
      exact h
  | some row =>
    obtain ⟨stored, hstored, hagrees⟩ := h.stored hrow
    dsimp only
    cases hlive : stored.state.terminal with
    | true =>
      have hterminal : ∀ found, jobRow database jobId = some found →
          found.state.terminal = true := by
        intro found hfound
        rwa [Option.some.inj (hfound.symm.trans hstored)]
      have hperform := Postgres.cancel_reads now hterminal
      have hkept : row.cancel = row := by
        rw [Row.cancel, hagrees.state, hlive, if_pos rfl]
      have hsame : queue.setRow jobId row = queue := by
        rw [JobQueue.setRow, ← hrow, Function.update_eq_self]
      rw [hkept, hsame]
      constructor
      · rw [call, hperform, hstored, hagrees.job]
        rfl
      · rw [call, hperform]
        exact h
    | false =>
      obtain ⟨after, hperform, hsets⟩ := Postgres.cancel_sets now hstored hlive
        (h.sessions jobId stored hstored)
      constructor
      · rw [call, hperform, (hagrees.cancel hlive).job]
        rfl
      · rw [call, hperform]
        exact h.setRow hrow hstored hperform hsets (hagrees.cancel hlive) rfl

theorem get (h : Simulates queue database) (now : Instant) (jobId : Uuid) :
    InStep (.found ((queue.rows jobId).map Row.job), queue)
      (call now (.getJob jobId) database) := by
  constructor
  · have hread : (call now (.getJob jobId) database).1 =
        .found ((jobRow database jobId).map fun row ↦ row.toJob jobId) := rfl
    rw [hread]
    cases hrow : queue.rows jobId with
    | none =>
      rw [h.absent hrow]
      rfl
    | some row =>
      obtain ⟨stored, hstored, hagrees⟩ := h.stored hrow
      rw [hstored, Option.map_some, Option.map_some, hagrees.job]
  · exact h

/-- The row that a scan takes is one on offer. -/
theorem reservable_of_chosen {jobId : Uuid} {row : Row} {now : Instant}
    (hchosen : queue.chosen now = some (jobId, row)) :
    queue.rows jobId = some row ∧ row.reservable now = true := by
  have hmem : (jobId, row) ∈ queue.candidates now := List.argmin_mem hchosen
  obtain ⟨other, -, hentry⟩ := List.mem_filterMap.mp hmem
  obtain ⟨found, hfound, hsame⟩ := Option.map_eq_some_iff.mp hentry
  obtain ⟨rfl, rfl⟩ := Prod.mk.inj hsame
  exact Option.filter_eq_some_iff.mp hfound

/-- A scan that takes nothing found no row on offer. -/
theorem not_reservable_of_chosen_none (h : Simulates queue database) {now : Instant}
    (hchosen : queue.chosen now = none) {jobId : Uuid} {row : Row}
    (hrow : queue.rows jobId = some row) : row.reservable now = false := by
  by_contra hreservable
  have hcandidates : queue.candidates now = [] := List.argmin_eq_none.mp hchosen
  have hmem : (jobId, row) ∈ queue.candidates now := by
    refine List.mem_filterMap.mpr ⟨jobId, h.order jobId row hrow, ?_⟩
    rw [hrow, Option.filter_some, if_pos (by simpa using hreservable)]
    rfl
  rw [hcandidates] at hmem
  exact List.not_mem_nil hmem

end Simulates

/-! ### The condition -/

/-- Whether an operation is a scan. -/
def Operation.scans : Operation → Bool
  | .reserve _ _ _ => true
  | _ => false

/-- A request that the columns hold, with a payload that `JSONB` gives back. -/
structure IsStorable (request : JobRequest) : Prop where
  kind : Postgres.IsText request.kind
  payload : Postgres.isJsonObject request.payload = true
  idempotencyKey : Postgres.IsKey request.idempotencyKey
  maxAttempts : request.maxAttempts < Postgres.integerEnd

/-- The columns hold the values of an operation, and the moments it sets are dates. -/
def Operation.IsStorable (now : Instant) : Operation → Prop
  | .enqueue _ request => Memory.IsStorable request ∧ IsDatetime (now + request.delay)
  | .reserve _ owner lease => Postgres.IsText owner ∧ IsDatetime (now + lease)
  | .extend _ duration => IsDatetime (now + duration)
  | .ack _ resultRef => ∀ text, resultRef = some text → Postgres.IsText text
  | .nack _ error retryIn => Postgres.IsText error ∧ IsDatetime (now + retryIn.getD 0)
  | _ => True

/-- The condition on a step. The store holds its values. A running row that is exactly at its
deadline is met by no scan, and otherwise has no attempts left or was cancelled; and a scan retires
no job whose error is an empty text. -/
structure InTime (queue : JobQueue) (now : Instant) (operation : Operation) : Prop where
  storable : operation.IsStorable now
  deadlines : ∀ jobId row, queue.rows jobId = some row → row.AtDeadline now →
    operation.scans = false ∧
      (row.job.maxAttempts ≤ row.job.attempts ∨ row.job.cancelRequested = true)
  errors : operation.scans = true → ∀ jobId row, queue.rows jobId = some row →
    row.job.state = .running → row.lapsed now = true → row.job.cancelRequested = false →
      row.job.maxAttempts ≤ row.job.attempts → row.job.error ≠ some ""

/-- The job can be claimed now. -/
def Claimable (database : Database) (now : Instant) (jobId : Uuid) : Prop :=
  ∃ leaseId owner lease granted,
    (perform now (.claim jobId leaseId owner lease) database).1 = .ok (.claimed (some granted))

namespace Simulates

variable {queue : JobQueue} {database : Database} {now : Instant}

/-- A job is on offer in memory when it can be claimed from the store. -/
theorem reservable_iff (h : Simulates queue database)
    (hdeadline : ∀ jobId row, queue.rows jobId = some row → row.AtDeadline now →
      row.job.maxAttempts ≤ row.job.attempts ∨ row.job.cancelRequested = true) (jobId : Uuid) :
    (∃ row, queue.rows jobId = some row ∧ row.reservable now = true) ↔
      Claimable database now jobId := by
  constructor
  · rintro ⟨row, hrow, hreservable⟩
    obtain ⟨stored, hstored, hagrees⟩ := h.stored hrow
    rw [hagrees.reservable (hdeadline jobId row hrow)] at hreservable
    obtain ⟨granted, hgranted⟩ := Postgres.claim_succeeds hstored hreservable
      (h.sessions jobId stored hstored)
    exact ⟨⟨0⟩, "", 0, granted, hgranted⟩
  · rintro ⟨leaseId, owner, lease, granted, hgranted⟩
    by_contra hnone
    have hrefused : perform now (.claim jobId leaseId owner lease) database =
        (.ok (.claimed none), database) := by
      refine Postgres.claim_refuses fun stored hstored ↦ ?_
      obtain ⟨row, hrow, hagrees⟩ := h.remembered hstored
      rw [← hagrees.reservable (hdeadline jobId row hrow)]
      exact Bool.eq_false_of_not_eq_true fun hreservable ↦ hnone ⟨row, hrow, hreservable⟩
    rw [hrefused] at hgranted
    exact nomatch hgranted

/-- No row is at its deadline after the retirement of a scan that met none. -/
theorem not_atDeadline_retired {operation : Operation} (hscans : operation.scans = true)
    (hintime : InTime queue now operation) {jobId : Uuid} {row : Row}
    (hrow : (queue.retireLapsed now).rows jobId = some row) : ¬ row.AtDeadline now := by
  obtain ⟨old, hold, rfl⟩ := Option.map_eq_some_iff.mp hrow
  rintro ⟨hrunning, hexact⟩
  have hkept : old.AtDeadline now := by
    unfold Row.retireLapsed at hrunning hexact
    split_ifs at hrunning hexact
    · exact ⟨hrunning, hexact⟩
    · exact ⟨hrunning, hexact⟩
    · exact nomatch hexact
    · exact nomatch hexact
    · exact ⟨hrunning, hexact⟩
  exact Bool.noConfusion (hscans.symm.trans (hintime.deadlines jobId old hold hkept).1)

/-- The retirement of a scan that meets the condition. -/
theorem retire_of_inTime (h : Simulates queue database) {scan : List Uuid} {operation : Operation}
    (hscan : ∀ jobId stored, jobRow database jobId = some stored → jobId ∈ scan)
    (hscans : operation.scans = true) (hintime : InTime queue now operation) :
    Simulates (queue.retireLapsed now) (perform now (.retireLapsed scan) database).2 := by
  refine h.retire hscan (fun jobId row hrow hexact ↦ ?_) fun jobId row hrow ↦ ?_
  · exact Bool.noConfusion (hscans.symm.trans (hintime.deadlines jobId row hrow hexact).1)
  · exact hintime.errors hscans jobId row hrow

/-- The scan of a `reserve`. -/
theorem reserve (h : Simulates queue database) {scan : List Uuid}
    (hscan : ∀ jobId stored, jobRow database jobId = some stored → jobId ∈ scan)
    (leaseId : Uuid) (owner : String) (lease : Duration)
    (hintime : InTime queue now (.reserve leaseId owner lease)) :
    InStep (queue.claim now leaseId owner lease)
      (onStore now scan (queue.choice now) database (.reserve leaseId owner lease)) := by
  have hretired := h.retire_of_inTime hscan rfl hintime
  unfold JobQueue.claim onStore JobQueue.choice
  cases hchosen : (queue.retireLapsed now).chosen now with
  | none => exact ⟨rfl, hretired⟩
  | some entry =>
    obtain ⟨jobId, row⟩ := entry
    obtain ⟨hrow, hreservable⟩ := reservable_of_chosen hchosen
    obtain ⟨stored, hstored, hagrees⟩ := hretired.stored hrow
    rw [hagrees.reservable fun hexact ↦ absurd hexact (not_atDeadline_retired rfl hintime hrow)]
      at hreservable
    obtain ⟨after, hperform, hsets⟩ := Postgres.claim_sets hstored hreservable
      (hretired.sessions jobId stored hstored)
    dsimp only [Option.map_some]
    constructor
    · rw [call, hperform, (hagrees.claim leaseId owner lease).job]
      rfl
    · rw [call, hperform]
      exact hretired.setRow hrow hstored hperform hsets (hagrees.claim leaseId owner lease) rfl

/-- A scan that takes nothing leaves nothing to claim. -/
theorem unclaimable (h : Simulates queue database) {scan : List Uuid} {operation : Operation}
    (hscan : ∀ jobId stored, jobRow database jobId = some stored → jobId ∈ scan)
    (hscans : operation.scans = true) (hintime : InTime queue now operation)
    (hchoice : queue.choice now = none) (jobId : Uuid) :
    ¬ Claimable (perform now (.retireLapsed scan) database).2 now jobId := by
  have hretired := h.retire_of_inTime hscan hscans hintime
  rw [← hretired.reservable_iff fun other row hrow hexact ↦
    absurd hexact (not_atDeadline_retired hscans hintime hrow)]
  rintro ⟨row, hrow, hreservable⟩
  have hnone := hretired.not_reservable_of_chosen_none (Option.map_eq_none_iff.mp hchoice) hrow
  exact Bool.noConfusion (hnone.symm.trans hreservable)

end Simulates

/-! ### Runs -/

/-- The scan comes to every job of the table. -/
def Covers (scan : List Uuid) (database : Database) : Prop :=
  ∀ jobId stored, jobRow database jobId = some stored → jobId ∈ scan

/-- What is asked of a call: an enqueue asks for an attempt, in a session that exists if in any, and
draws an identity that no job has. -/
def Admits (queue : JobQueue) (database : Database) : Operation → Prop
  | .enqueue jobId request => 0 < request.maxAttempts ∧
    (∀ sessionId, request.sessionId = some sessionId →
      ∃ seq, nextSeq database sessionId = some seq) ∧ queue.rows jobId = none
  | _ => True

/-- The two states after the same operations at the same moments, on a clock that does not go back,
from an empty queue and a database with no jobs, each step under a condition. -/
inductive Run (allowed : JobQueue → Instant → Operation → Prop) :
    Instant → JobQueue → Database → Prop
  | initial (now : Instant) (database : Database) (hjobs : ∀ jobId, jobRow database jobId = none)
      (hkeys : ∀ sessionId key, database.row (.idempotency sessionId key) = (none : Option Uuid)) :
    Run allowed now .new database
  | step {earlier : Instant} {queue : JobQueue} {database : Database}
      (before : Run allowed earlier queue database) (now : Instant) (hclock : earlier ≤ now)
      (scan : List Uuid) (hscan : Covers scan database) (operation : Operation)
      (hadmits : Admits queue database operation) (hallowed : allowed queue now operation) :
    Run allowed now (queue.serve now operation).2
      (onStore now scan (queue.choice now) database operation).2

theorem Simulates.initial {database : Database} (hjobs : ∀ jobId, jobRow database jobId = none)
    (hkeys : ∀ sessionId key, database.row (.idempotency sessionId key) = (none : Option Uuid)) :
    Simulates .new database where
  rows := by
    intro jobId
    rw [hjobs]
    exact .none
  keys := fun sessionId key ↦ (hkeys sessionId key).symm
  known := fun _ _ _ hknown ↦ nomatch hknown
  order := fun _ _ hrow ↦ nomatch hrow
  sessions := by
    intro jobId stored hstored
    exact nomatch (hjobs jobId).symm.trans hstored

/-- One operation on both sides. -/
theorem Simulates.step {queue : JobQueue} {database : Database} (h : Simulates queue database)
    {now : Instant} {scan : List Uuid} {operation : Operation} (hscan : Covers scan database)
    (hadmits : Admits queue database operation) (hintime : InTime queue now operation) :
    InStep (queue.serve now operation)
      (onStore now scan (queue.choice now) database operation) := by
  cases operation with
  | enqueue jobId request => exact h.enqueue hadmits.1 hadmits.2.1 hadmits.2.2
  | get jobId => exact h.get now jobId
  | cancel jobId => exact h.cancel now jobId
  | reserve leaseId owner lease => exact h.reserve hscan leaseId owner lease hintime
  | extend lease duration => exact h.extend now lease duration
  | ack lease resultRef => exact h.ack now lease resultRef
  | nack lease error retryIn => exact h.nack now lease error retryIn

theorem Run.simulates {now : Instant} {queue : JobQueue} {database : Database}
    (h : Run InTime now queue database) : Simulates queue database := by
  induction h with
  | initial now database hjobs hkeys => exact .initial hjobs hkeys
  | step before now hclock scan hscan operation hadmits hintime ih =>
    exact (ih.step hscan hadmits hintime).simulates

/-- A run under a condition is a run under none. -/
theorem Run.unconditional {allowed : JobQueue → Instant → Operation → Prop} {now : Instant}
    {queue : JobQueue} {database : Database} (h : Run allowed now queue database) :
    Run (fun _ _ _ ↦ True) now queue database := by
  induction h with
  | initial now database hjobs hkeys => exact .initial now database hjobs hkeys
  | step before now hclock scan hscan operation hadmits hallowed ih =>
    exact ih.step now hclock scan hscan operation hadmits trivial

/-- The dictionary's order is a scan of the table. -/
theorem Simulates.covers {queue : JobQueue} {database : Database} (h : Simulates queue database) :
    Covers queue.order database := by
  intro jobId stored hstored
  obtain ⟨row, hrow, -⟩ := h.remembered hstored
  exact h.order jobId row hrow

/-- The two states give the same snapshot and the same deadline of every job. -/
structure Same (queue : JobQueue) (database : Database) : Prop where
  jobs : ∀ jobId, (queue.rows jobId).map Row.job =
    (jobRow database jobId).map fun stored ↦ stored.toJob jobId
  deadlines : ∀ jobId, (queue.rows jobId).map Row.leaseExpiresAt =
    (jobRow database jobId).map JobRow.leaseExpiresAt

theorem Simulates.same {queue : JobQueue} {database : Database} (h : Simulates queue database) :
    Same queue database where
  jobs := by
    intro jobId
    cases hrow : queue.rows jobId with
    | none => rw [h.absent hrow, Option.map_none, Option.map_none]
    | some row =>
      obtain ⟨stored, hstored, hagrees⟩ := h.stored hrow
      rw [hstored, Option.map_some, Option.map_some, hagrees.job]
  deadlines := by
    intro jobId
    cases hrow : queue.rows jobId with
    | none => rw [h.absent hrow, Option.map_none, Option.map_none]
    | some row =>
      obtain ⟨stored, hstored, hagrees⟩ := h.stored hrow
      rw [hstored, Option.map_some, Option.map_some, hagrees.leaseExpiresAt]

/-- What an operation finds and gives on both sides: the same answer, the same jobs on offer, and,
when the scan of the queue in memory takes nothing, nothing that the store could claim. -/
structure Alike (queue : JobQueue) (database : Database) (now : Instant) (scan : List Uuid)
    (operation : Operation) : Prop where
  answer : (queue.serve now operation).1 =
    (onStore now scan (queue.choice now) database operation).1
  offered : ∀ jobId, (∃ row, queue.rows jobId = some row ∧ row.reservable now = true) ↔
    Claimable database now jobId
  unclaimed : operation.scans = true → queue.choice now = none →
    ∀ jobId, ¬ Claimable (perform now (.retireLapsed scan) database).2 now jobId

/-- The queue in memory and the store are the same machine. In every run of both whose values the
store holds, in which no step meets a running row exactly at its deadline that it would treat
differently, and no scan retires a job whose error is an empty text, the two states give the same
snapshots and deadlines, and the next operation that meets the condition finds the same jobs on
offer and gives the same answer. -/
theorem same_machine {now : Instant} {queue : JobQueue} {database : Database}
    (h : Run InTime now queue database) : Same queue database ∧
      ∀ later scan operation, now ≤ later → Covers scan database →
        Admits queue database operation → InTime queue later operation →
        Alike queue database later scan operation := by
  have hsimulates := h.simulates
  refine ⟨hsimulates.same, fun later scan operation _ hscan hadmits hintime ↦ ?_⟩
  constructor
  · exact (hsimulates.step hscan hadmits hintime).answer
  · exact hsimulates.reservable_iff fun jobId row hrow hexact ↦
      (hintime.deadlines jobId row hrow hexact).2
  · exact fun hscans hchoice ↦ hsimulates.unclaimable hscan hscans hintime hchoice

/-- A job that three attempts are left for. -/
def oneJob : JobRequest :=
  ⟨"noop", .cons (.str "region") (.str "north") .nil, none, "key", 3, 0⟩

theorem storable_oneJob : IsStorable oneJob where
  kind := by decide
  payload := by decide
  idempotencyKey := by decide
  maxAttempts := by decide

/-- A step on a queue with no job meets the condition. -/
theorem inTime_new {now : Instant} {operation : Operation} (hstorable : operation.IsStorable now) :
    InTime .new now operation where
  storable := hstorable
  deadlines := fun _ _ hrow ↦ nomatch hrow
  errors := fun _ _ _ hrow ↦ nomatch hrow

/-- A step on a queue with one job, whose lease has not lapsed if it has one, meets the
condition. -/
theorem Simulates.inTime {queue : JobQueue} {database : Database} (h : Simulates queue database)
    {jobId : Uuid} {row : Row} (horder : queue.order = [jobId]) (hrow : queue.rows jobId = some row)
    {now : Instant} (hlapsed : row.lapsed now = false) {operation : Operation}
    (hstorable : operation.IsStorable now) : InTime queue now operation := by
  have honly : ∀ other found, queue.rows other = some found → found.lapsed now = false := by
    intro other found hfound
    have hmem := h.order other found hfound
    rw [horder, List.mem_singleton] at hmem
    subst hmem
    obtain rfl := Option.some.inj (hrow.symm.trans hfound)
    exact hlapsed
  refine ⟨hstorable, fun other found hfound hexact ↦ ?_, fun _ other found hfound _ hpast ↦ ?_⟩
  · have hpast : found.lapsed now = true := by
      rw [Row.lapsed, hexact.2]
      simp
    exact Bool.noConfusion (hpast.symm.trans (honly other found hfound))
  · exact Bool.noConfusion (hpast.symm.trans (honly other found hfound))

/-- The first operation: a job is enqueued. -/
theorem run_enqueued : Run InTime 0 (JobQueue.new.serve 0 (.enqueue ⟨9⟩ oneJob)).2
    (onStore 0 [] (JobQueue.new.choice 0) .empty (.enqueue ⟨9⟩ oneJob)).2 :=
  .step (.initial 0 .empty (fun _ ↦ rfl) fun _ _ ↦ rfl) 0 (le_refl 0) []
    (fun _ _ hstored ↦ nomatch hstored) _
    ⟨by decide, (fun _ hsession ↦ nomatch hsession), rfl⟩
    (inTime_new ⟨storable_oneJob, by decide⟩)

/-- A worker takes the job, another finds nothing while the lease runs, the first gives it back, and
the other takes it when its time has come. -/
theorem same_machine_retried : ∃ queue database, Run InTime 4 queue database ∧
    Same queue database ∧ Alike queue database 7 queue.order (.reserve ⟨22⟩ "b" 10) ∧
      (queue.serve 7 (.reserve ⟨22⟩ "b" 10)).1 ≠ .reserved none := by
  have hreserved := run_enqueued.step 0 (le_refl 0) _ run_enqueued.simulates.covers
    (.reserve ⟨21⟩ "a" 10) trivial
    (run_enqueued.simulates.inTime rfl rfl rfl ⟨by decide, by decide⟩)
  have hrefused := hreserved.step 3 (by decide) _ hreserved.simulates.covers
    (.reserve ⟨22⟩ "b" 10) trivial (hreserved.simulates.inTime rfl rfl rfl ⟨by decide, by decide⟩)
  have hreturned := hrefused.step 4 (by decide) _ hrefused.simulates.covers
    (.nack ⟨⟨21⟩, (Row.enqueued 0 ⟨9⟩ oneJob).job, "a", 10⟩ "no luck" (some 3)) trivial
    (hrefused.simulates.inTime rfl rfl rfl ⟨by decide, by decide⟩)
  obtain ⟨hsame, halike⟩ := same_machine hreturned
  refine ⟨_, _, hreturned, hsame,
    halike 7 _ _ (by decide) hreturned.simulates.covers trivial ?_, ?_⟩
  · exact hreturned.simulates.inTime rfl rfl rfl ⟨by decide, by decide⟩
  · exact fun hnone ↦ Option.some_ne_none _ (Answer.reserved.inj hnone)

/-- A scan at the deadline of a lease takes the job in memory and not from the store. -/
theorem reserved_at_deadline : ¬ ∀ (now : Instant) (queue : JobQueue) (database : Database),
    Run (fun _ _ _ ↦ True) now queue database → Same queue database ∧
      ∀ later scan operation, now ≤ later → Covers scan database →
        Admits queue database operation → Alike queue database later scan operation := by
  intro h
  have hreserved := run_enqueued.step 0 (le_refl 0) _ run_enqueued.simulates.covers
    (.reserve ⟨21⟩ "a" 10) trivial
    (run_enqueued.simulates.inTime rfl rfl rfl ⟨by decide, by decide⟩)
  have halike := (h _ _ _ hreserved.unconditional).2 10 _ (.reserve ⟨22⟩ "b" 10) (by decide)
    hreserved.simulates.covers trivial
  exact Option.some_ne_none _ (Answer.reserved.inj halike.answer)

end Abacus.Memory
