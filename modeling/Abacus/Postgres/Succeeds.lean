import Abacus.Postgres.Lifecycle
import Abacus.Postgres.RowKept

/-!
# What a call leaves when it does not raise

The methods of the job store on a row that satisfies their statement, in a database that has the
session of the row: each returns, sets the row of its job, and leaves every other job and every
idempotency key as it was (`SetsJob`). `insert_or_get` also adds its key (`insertOrGet_creates`),
and `retire_lapsed` sets every row that it can retire, if its scan comes to all of them
(`retireLapsed_retires`).
-/

set_option autoImplicit false
set_option relaxedAutoImplicit false

namespace Abacus.Postgres

open RowLocking (Program Triple Database.set_row_of_ne)

/-- The job of a row has its session in `chat_sessions`, if it has one. -/
def SessionOpen (database : Database) (row : JobRow) : Prop :=
  ∀ sessionId, row.sessionId = some sessionId → ∃ seq, nextSeq database sessionId = some seq

/-- One job's row was set; the other jobs and the idempotency keys are as they were. -/
structure SetsJob (jobId : Uuid) (new : JobRow) (before after : Database) : Prop where
  rows : jobRow after = Function.update (jobRow before) jobId (some new)
  keys : ∀ sessionId key, after.row (.idempotency sessionId key) =
    before.row (.idempotency sessionId key)

/-- The database with one job's row set. -/
theorem SetsJob.of_set (database : Database) (jobId : Uuid) (new : JobRow) :
    SetsJob jobId new database (database.set (.job jobId) (some new)) where
  rows := by
    ext1 other
    by_cases hother : other = jobId
    · rw [hother, jobRow_set_self, Function.update_self]
    · rw [jobRow_set_of_ne _ _ (by simpa using hother), Function.update_of_ne hother]
  keys := fun _ _ ↦ Database.set_row_of_ne _ _ (by simp)

/-- Recording an event leaves the idempotency keys alone. -/
theorem Recorded.keys_eq {jobId : Uuid} {row : JobRow} {before after : Database}
    (h : Recorded jobId row before after) (sessionId : Option Uuid) (key : String) :
    after.row (.idempotency sessionId key) = before.row (.idempotency sessionId key) := by
  unfold Recorded at h
  split at h
  · rw [h]
  · rename_i session _
    obtain ⟨seq, -, rfl⟩ := h
    have hset : (before.set (.chatSession session) (some (seq + 1))).row
        (.idempotency sessionId key) = before.row (.idempotency sessionId key) :=
      Database.set_row_of_ne before _ (by simp)
    exact hset

/-- A row that is set and then recorded. -/
theorem SetsJob.record {jobId : Uuid} {new : JobRow} {before between after : Database}
    (h : SetsJob jobId new before between) (hrecorded : Recorded jobId new between after) :
    SetsJob jobId new before after where
  rows := by
    rw [← h.rows]
    exact funext hrecorded.jobRow_eq
  keys := fun sessionId key ↦ (hrecorded.keys_eq sessionId key).trans (h.keys sessionId key)

/-! ### Transitions of one job -/

/-- Recording an event of a job whose session is open does not raise. -/
theorem recordEvent_execute {jobId : Uuid} {row : JobRow} {database : Database}
    (hopen : SessionOpen database row) :
    ∃ after, (recordEvent jobId row).execute database = .ok ((), after) := by
  unfold recordEvent
  cases hsession : row.sessionId with
  | none => exact ⟨database, rfl⟩
  | some sessionId =>
    obtain ⟨seq, hseq⟩ := hopen sessionId hsession
    have hmatch : (database.row (.chatSession sessionId) : Option ℕ).map
        (fun next ↦ some (next + 1)) = some (some (seq + 1)) := by
      rw [show (database.row (.chatSession sessionId) : Option ℕ) = some seq from hseq]
      rfl
    rw [Program.execute_bind, allocateSeq, Program.execute_update_of_match hmatch]
    exact ⟨_, rfl⟩

/-- What follows an event in a method. -/
theorem execute_after_record {A : Type} {jobId : Uuid} {row : JobRow} {before after : Database}
    (result : A) (h : (recordEvent jobId row).execute before = .ok ((), after)) :
    (recordEvent jobId row >>= fun _ ↦ (pure result : Sql A)).execute before =
      .ok (result, after) := by
  rw [Program.execute_bind, h]
  rfl

/-- A transition of one job sets its row, if the row satisfies its predicate and the job's session
is open. -/
theorem transition_sets {A : Type} {jobId : Uuid} (condition : JobRow → Bool)
    (set : JobRow → JobRow) (rest : JobRow → A) {next : Option JobRow → Sql A} {row : JobRow}
    {database : Database} (hrow : jobRow database jobId = some row)
    (hcondition : condition row = true) (hsession : (set row).sessionId = row.sessionId)
    (hopen : SessionOpen database row)
    (hnext : ∀ new before after, (recordEvent jobId new).execute before = .ok ((), after) →
      (next (some new)).execute before = .ok (rest new, after)) :
    ∃ after, (updateJob jobId (whenever condition set) >>= next).execute database =
      .ok (rest (set row), after) ∧ SetsJob jobId (set row) database after := by
  have hset : whenever condition set row = some (set row) := if_pos hcondition
  have hopenSet : SessionOpen (database.set (.job jobId) (some (set row))) (set row) := by
    intro sessionId hfound
    obtain ⟨seq, hseq⟩ := hopen sessionId (hsession.symm.trans hfound)
    exact ⟨seq, hseq⟩
  obtain ⟨after, hrecord⟩ := recordEvent_execute hopenSet
  refine ⟨after, ?_, ?_⟩
  · rw [updateJob_execute_of_match hrow hset]
    exact hnext _ _ _ hrecord
  · exact (SetsJob.of_set database jobId (set row)).record
      (recordEvent_yields (Program.yields_of_execute hrecord))

/-- A claim of a reservable job returns a lease, if the job's session is open. -/
theorem claim_sets {now : Instant} {jobId leaseId : Uuid} {owner : String} {lease : Duration}
    {row : JobRow} {database : Database} (hrow : jobRow database jobId = some row)
    (hreservable : (row.waiting now || row.lapsed now) = true) (hopen : SessionOpen database row) :
    ∃ after, perform now (.claim jobId leaseId owner lease) database =
        (.ok (.claimed (some ⟨leaseId, (row.claimed now leaseId owner lease).toJob jobId, owner,
          now + lease⟩)), after) ∧
      SetsJob jobId (row.claimed now leaseId owner lease) database after := by
  obtain ⟨after, hexecute, hsets⟩ : ∃ after,
      (claim now jobId leaseId owner lease).execute database =
        .ok (some ⟨leaseId, (row.claimed now leaseId owner lease).toJob jobId, owner, now + lease⟩,
          after) ∧ SetsJob jobId (row.claimed now leaseId owner lease) database after := by
    rw [claim]
    exact transition_sets (fun row ↦ row.waiting now || row.lapsed now)
      (fun row ↦ row.claimed now leaseId owner lease)
      (fun row ↦ (some ⟨leaseId, row.toJob jobId, owner, now + lease⟩ : Option Lease)) hrow
      hreservable rfl hopen fun _ _ _ hrecord ↦ execute_after_record _ hrecord
  exact ⟨after, Program.run_of_execute_ok (Program.execute_map_of_ok hexecute), hsets⟩

/-- A claim of a reservable job is granted. -/
theorem claim_succeeds {now : Instant} {jobId leaseId : Uuid} {owner : String} {lease : Duration}
    {row : JobRow} {database : Database} (hrow : jobRow database jobId = some row)
    (hreservable : (row.waiting now || row.lapsed now) = true) (hopen : SessionOpen database row) :
    ∃ granted, (perform now (.claim jobId leaseId owner lease) database).1 =
      .ok (.claimed (some granted)) := by
  obtain ⟨after, hperform, -⟩ := claim_sets hrow hreservable hopen
  exact ⟨_, by rw [hperform]⟩

/-- A claim of a job that is not reservable returns no lease and changes nothing. -/
theorem claim_refuses {now : Instant} {jobId leaseId : Uuid} {owner : String} {lease : Duration}
    {database : Database} (hrefused : ∀ row, jobRow database jobId = some row →
      (row.waiting now || row.lapsed now) = false) :
    perform now (.claim jobId leaseId owner lease) database = (.ok (.claimed none), database) := by
  have hmismatch : (jobRow database jobId).bind (whenever (fun row ↦ row.waiting now ||
      row.lapsed now) fun row ↦ row.claimed now leaseId owner lease) = none := by
    cases hfound : jobRow database jobId with
    | none => rfl
    | some row => simp [whenever, hrefused row hfound]
  have hexecute :
      (claim now jobId leaseId owner lease).execute database = .ok (none, database) := by
    rw [claim, updateJob_execute_of_mismatch hmismatch]
    rfl
  exact Program.run_of_execute_ok (Program.execute_map_of_ok hexecute)

/-- An ack under the row's token. -/
theorem ack_sets (now : Instant) (resultRef : Option String) {lease : Lease} {row : JobRow}
    {database : Database} (hrow : jobRow database lease.job.id = some row)
    (hfenced : row.fenced lease = true) (hopen : SessionOpen database row) :
    ∃ after, perform now (.ack lease resultRef) database = (.ok .unit, after) ∧
      SetsJob lease.job.id (row.acked resultRef) database after := by
  obtain ⟨after, hexecute, hsets⟩ : ∃ after, (ack lease resultRef).execute database =
      .ok ((), after) ∧ SetsJob lease.job.id (row.acked resultRef) database after := by
    rw [ack]
    refine transition_sets (fun row ↦ row.fenced lease) (fun row ↦ row.acked resultRef)
      (fun _ ↦ ()) hrow hfenced rfl hopen ?_
    exact fun _ _ _ hrecord ↦ hrecord
  exact ⟨after, Program.run_of_execute_ok (Program.execute_map_of_ok hexecute), hsets⟩

/-- A nack under the row's token. -/
theorem nack_sets (now : Instant) (error : String) (retryIn : Option Duration) {lease : Lease}
    {row : JobRow} {database : Database} (hrow : jobRow database lease.job.id = some row)
    (hfenced : row.fenced lease = true) (hopen : SessionOpen database row) :
    ∃ after, perform now (.nack lease error retryIn) database =
        (.ok (.nacked ((row.nacked now error retryIn).toJob lease.job.id)), after) ∧
      SetsJob lease.job.id (row.nacked now error retryIn) database after := by
  obtain ⟨after, hexecute, hsets⟩ : ∃ after, (nack now lease error retryIn).execute database =
      .ok ((row.nacked now error retryIn).toJob lease.job.id, after) ∧
      SetsJob lease.job.id (row.nacked now error retryIn) database after := by
    rw [nack]
    exact transition_sets (fun row ↦ row.fenced lease) (fun row ↦ row.nacked now error retryIn)
      (fun row ↦ row.toJob lease.job.id) hrow hfenced rfl hopen
      fun _ _ _ hrecord ↦ execute_after_record _ hrecord
  exact ⟨after, Program.run_of_execute_ok (Program.execute_map_of_ok hexecute), hsets⟩

/-- A nack under the row's token leaves the row that it computes. -/
theorem nack_succeeds {now : Instant} {lease : Lease} {error : String} {retryIn : Option Duration}
    {row : JobRow} {database : Database} (hrow : jobRow database lease.job.id = some row)
    (hfenced : row.fenced lease = true) (hopen : SessionOpen database row) :
    jobRow (perform now (.nack lease error retryIn) database).2 lease.job.id =
      some (row.nacked now error retryIn) := by
  obtain ⟨after, hperform, hsets⟩ := nack_sets now error retryIn hrow hfenced hopen
  rw [hperform, hsets.rows, Function.update_self]

/-- An extension under the row's token; it records nothing. -/
theorem extend_sets (now : Instant) (duration : Duration) {lease : Lease} {row : JobRow}
    {database : Database} (hrow : jobRow database lease.job.id = some row)
    (hfenced : row.fenced lease = true) :
    ∃ after, perform now (.extend lease duration) database =
        (.ok (.extended ⟨lease.id, (row.extended now duration).toJob lease.job.id, lease.owner,
          now + duration⟩), after) ∧
      SetsJob lease.job.id (row.extended now duration) database after := by
  have hset : whenever (fun row ↦ row.fenced lease) (fun row ↦ row.extended now duration) row =
      some (row.extended now duration) := if_pos hfenced
  have hexecute : (extend now lease duration).execute database =
      .ok (⟨lease.id, (row.extended now duration).toJob lease.job.id, lease.owner, now + duration⟩,
        database.set (.job lease.job.id) (some (row.extended now duration))) := by
    rw [extend, updateJob_execute_of_match hrow hset]
    rfl
  exact ⟨_, Program.run_of_execute_ok (Program.execute_map_of_ok hexecute), SetsJob.of_set _ _ _⟩

/-- A cancel of a job that is not terminal. -/
theorem cancel_sets (now : Instant) {jobId : Uuid} {row : JobRow} {database : Database}
    (hrow : jobRow database jobId = some row) (hlive : row.state.terminal = false)
    (hopen : SessionOpen database row) :
    ∃ after, perform now (.cancel jobId) database =
        (.ok (.found (some (row.cancelled.toJob jobId))), after) ∧
      SetsJob jobId row.cancelled database after := by
  have hcondition : (!row.state.terminal) = true := by simp [hlive]
  obtain ⟨after, hexecute, hsets⟩ : ∃ after, (cancel jobId).execute database =
      .ok (some (row.cancelled.toJob jobId), after) ∧
      SetsJob jobId row.cancelled database after := by
    have hset : whenever (fun row ↦ !row.state.terminal) JobRow.cancelled row =
        some row.cancelled := if_pos hcondition
    rw [cancel, updateJob_execute_of_match hrow hset]
    by_cases hrunning : row.cancelled.state = .running
    · simp only [hrunning, ne_eq, not_true_eq_false, if_false]
      exact ⟨_, rfl, SetsJob.of_set _ _ _⟩
    · have hopenSet :
          SessionOpen (database.set (.job jobId) (some row.cancelled)) row.cancelled := by
        intro sessionId hfound
        obtain ⟨seq, hseq⟩ := hopen sessionId hfound
        exact ⟨seq, hseq⟩
      obtain ⟨after, hrecord⟩ := recordEvent_execute hopenSet
      refine ⟨after, ?_, ?_⟩
      · simp only [hrunning, ne_eq, not_false_eq_true, if_true]
        rw [Program.execute_bind, hrecord]
        rfl
      · exact (SetsJob.of_set database jobId row.cancelled).record
          (recordEvent_yields (Program.yields_of_execute hrecord))
  exact ⟨after, Program.run_of_execute_ok (Program.execute_map_of_ok hexecute), hsets⟩

/-- A cancel of a job that is terminal or unknown only reads it. -/
theorem cancel_reads (now : Instant) {jobId : Uuid} {database : Database}
    (hterminal : ∀ row, jobRow database jobId = some row → row.state.terminal = true) :
    perform now (.cancel jobId) database =
      (.ok (.found ((jobRow database jobId).map fun row ↦ row.toJob jobId)), database) := by
  have hmismatch : (jobRow database jobId).bind (whenever (fun row ↦ !row.state.terminal)
      JobRow.cancelled) = none := by
    cases hfound : jobRow database jobId with
    | none => rfl
    | some row => simp [whenever, hterminal row hfound]
  have hexecute : (cancel jobId).execute database =
      .ok ((jobRow database jobId).map fun row ↦ row.toJob jobId, database) := by
    rw [cancel, updateJob_execute_of_mismatch hmismatch]
    rfl
  exact Program.run_of_execute_ok (Program.execute_map_of_ok hexecute)

/-! ### Insertion -/

/-- An insertion under a key that is known returns the job that has it. -/
theorem insertOrGet_finds (now : Instant) (jobId : Uuid) {existingId : Uuid} {request : JobRequest}
    {row : JobRow} {database : Database} (hattempts : request.maxAttempts ≠ 0)
    (hkey : database.row (.idempotency request.sessionId request.idempotencyKey) = some existingId)
    (hrow : jobRow database existingId = some row) :
    perform now (.insertOrGet jobId request) database =
      (.ok (.enqueued (row.toJob existingId) false), database) := by
  have hmismatch : ifAbsent jobId
      (database.row (.idempotency request.sessionId request.idempotencyKey)) = none := by
    rw [hkey]
    rfl
  have hexecute : (insertOrGet now jobId request).execute database =
      .ok ((row.toJob existingId, false), database) := by
    rw [insertOrGet, if_neg hattempts, Program.execute_update_of_mismatch hmismatch]
    simp only [Program.execute, hkey, hrow]
    rfl
  exact Program.run_of_execute_ok (Program.execute_map_of_ok hexecute)

/-- An insertion under a new key and a new identity adds the row and the key. -/
theorem insertOrGet_creates (now : Instant) {jobId : Uuid} {request : JobRequest}
    {database : Database} (hattempts : request.maxAttempts ≠ 0)
    (hkey : database.row (.idempotency request.sessionId request.idempotencyKey) =
      (none : Option Uuid))
    (hfree : jobRow database jobId = none)
    (hopen : SessionOpen database (JobRow.inserted now request)) :
    ∃ after, perform now (.insertOrGet jobId request) database =
        (.ok (.enqueued ((JobRow.inserted now request).toJob jobId) true), after) ∧
      SetsJob jobId (JobRow.inserted now request)
        (database.set (.idempotency request.sessionId request.idempotencyKey) (some jobId))
        after := by
  set keyed : Database :=
    database.set (.idempotency request.sessionId request.idempotencyKey) (some jobId) with hkeyed
  have hentry : ifAbsent jobId
      (database.row (.idempotency request.sessionId request.idempotencyKey)) =
        some (some jobId) := by
    rw [hkey]
    rfl
  have hfreeKeyed : jobRow keyed jobId = none :=
    (jobRow_set_of_ne database _ (by simp)).trans hfree
  have hinsert : ifAbsent (JobRow.inserted now request) (keyed.row (.job jobId)) =
      some (some (JobRow.inserted now request)) := by
    rw [show (keyed.row (.job jobId) : Option JobRow) = none from hfreeKeyed]
    rfl
  have hopenSet : SessionOpen (keyed.set (.job jobId) (some (JobRow.inserted now request)))
      (JobRow.inserted now request) := by
    intro sessionId hfound
    obtain ⟨seq, hseq⟩ := hopen sessionId hfound
    exact ⟨seq, hseq⟩
  obtain ⟨after, hrecord⟩ := recordEvent_execute hopenSet
  have hexecute : (insertOrGet now jobId request).execute database =
      .ok (((JobRow.inserted now request).toJob jobId, true), after) := by
    rw [insertOrGet, if_neg hattempts, Program.execute_update_of_match hentry,
      Program.execute_update_of_match hinsert]
    exact execute_after_record _ hrecord
  refine ⟨after, Program.run_of_execute_ok (Program.execute_map_of_ok hexecute), ?_⟩
  exact (SetsJob.of_set keyed jobId (JobRow.inserted now request)).record
    (recordEvent_yields (Program.yields_of_execute hrecord))

/-! ### Retirement -/

/-- What `retire_lapsed` makes of a row. -/
def JobRow.retire (row : JobRow) (now : Instant) : JobRow :=
  if row.retirable now then row.retired else row

/-- The scan never raises. -/
theorem retireRows_execute (now : Instant) (scan : List Uuid) (database : Database) :
    ∃ rows after, (retireRows now scan).execute database = .ok (rows, after) := by
  induction scan generalizing database with
  | nil => exact ⟨[], database, rfl⟩
  | cons jobId scan ih =>
    obtain ⟨returned, between, hupdate⟩ : ∃ returned between,
        (updateJob jobId (whenever (fun row ↦ row.retirable now) JobRow.retired)).execute database =
          .ok (returned, between) := by
      unfold updateJob
      cases hmatch : ((database.row (.job jobId) : Option JobRow).bind
          (whenever (fun row ↦ row.retirable now) JobRow.retired)).map some with
      | some row => exact ⟨_, _, Program.execute_update_of_match hmatch⟩
      | none => exact ⟨_, _, Program.execute_update_of_mismatch hmatch⟩
    obtain ⟨rows, after, hrest⟩ := ih between
    refine ⟨(returned.map fun row ↦ (jobId, row)).toList ++ rows, after, ?_⟩
    rw [retireRows, Program.execute_bind, hupdate]
    exact (Program.execute_bind _ _ between).trans (by rw [hrest]; rfl)

/-- The events never raise, if the sessions of the rows are open. -/
theorem recordEvents_execute {rows : List (Uuid × JobRow)} {database : Database}
    (hopen : ∀ row ∈ rows, SessionOpen database row.2) :
    ∃ after, (recordEvents rows).execute database = .ok ((), after) := by
  induction rows generalizing database with
  | nil => exact ⟨database, rfl⟩
  | cons row rows ih =>
    obtain ⟨between, hrecord⟩ := recordEvent_execute (hopen row List.mem_cons_self)
    have hopenBetween : ∀ other ∈ rows, SessionOpen between other.2 := by
      intro other hother sessionId hsession
      obtain ⟨seq, hseq⟩ := hopen other (List.mem_cons_of_mem row hother) sessionId hsession
      obtain ⟨next, hnext, -⟩ := (recordEvent_respects row.1 row.2).row_kept rowKept_refl
        rowKept_trans (Program.yields_of_execute hrecord) (.chatSession sessionId) seq hseq
      exact ⟨next, hnext⟩
    obtain ⟨after, hrest⟩ := ih hopenBetween
    refine ⟨after, ?_⟩
    rw [recordEvents, Program.execute_bind, hrecord]
    exact hrest

/-- A program that leaves the idempotency keys alone. -/
def LeavesKeys {A : Type} (program : Sql A) : Prop :=
  ∀ sessionId key entry, Triple
    (fun database : Database ↦ database.row (.idempotency sessionId key) = entry) program
    fun _ database ↦ database.row (.idempotency sessionId key) = entry

theorem retireRows_leavesKeys (now : Instant) (scan : List Uuid) :
    LeavesKeys (retireRows now scan) := by
  intro sessionId key entry
  induction scan with
  | nil => exact Triple.commit fun _ h ↦ h
  | cons jobId scan ih =>
    have hrest : ∀ returned : Option JobRow, Triple
        (fun database : Database ↦ database.row (.idempotency sessionId key) = entry)
        (retireRows now scan >>= fun rows ↦
          pure ((returned.map fun row ↦ (jobId, row)).toList ++ rows))
        fun _ database ↦ database.row (.idempotency sessionId key) = entry :=
      fun _ ↦ Triple.bind ih fun _ ↦ Triple.commit fun _ h ↦ h
    refine Triple.update_frame (fun database row h ↦ ?_) fun row ↦ hrest row.join
    exact (Database.set_row_of_ne database row (by simp)).trans h

theorem recordEvents_leavesKeys (rows : List (Uuid × JobRow)) : LeavesKeys (recordEvents rows) := by
  intro sessionId key entry
  induction rows with
  | nil => exact Triple.commit fun _ h ↦ h
  | cons row rows ih =>
    refine Triple.bind (fun database _ after h hyields ↦ ?_) fun _ ↦ ih
    exact ((recordEvent_yields hyields).keys_eq sessionId key).trans h

/-- `retire_lapsed` sets every row that it can retire, if its scan comes to all the jobs and their
sessions are open, and changes no other row and no idempotency key. -/
theorem retireLapsed_retires (now : Instant) {scan : List Uuid} {database : Database}
    (hscan : ∀ jobId row, jobRow database jobId = some row → jobId ∈ scan)
    (hopen : ∀ jobId row, jobRow database jobId = some row → SessionOpen database row) :
    ∃ ids after, perform now (.retireLapsed scan) database = (.ok (.jobIds ids), after) ∧
      (∀ jobId, jobRow after jobId = (jobRow database jobId).map fun row ↦ row.retire now) ∧
      ∀ sessionId key, after.row (.idempotency sessionId key) =
        database.row (.idempotency sessionId key) := by
  obtain ⟨rows, between, hrows⟩ := retireRows_execute now scan database
  have hyields := Program.yields_of_execute hrows
  obtain ⟨-, hjobs⟩ := retireRows_yields hyields
  have hopenRows : ∀ row ∈ rows.insertionSort sessionOrder, SessionOpen between row.2 := by
    rintro ⟨jobId, row⟩ hrow sessionId hsession
    rw [(List.perm_insertionSort sessionOrder rows).mem_iff] at hrow
    have hmem : (jobId, row) ∈ rowsOf jobId rows := by simpa [rowsOf] using hrow
    rcases hjobs jobId with ⟨hnone, -⟩ | ⟨found, hfound, -, hone, -⟩
    · exact absurd hmem (by simp [hnone])
    · rw [hone, List.mem_singleton] at hmem
      obtain ⟨-, rfl⟩ := Prod.mk.inj hmem
      obtain ⟨seq, hseq⟩ := hopen jobId found hfound sessionId hsession
      obtain ⟨next, hnext, -⟩ := (retireRows_respects now scan).row_kept rowKept_refl rowKept_trans
        hyields (.chatSession sessionId) seq hseq
      exact ⟨next, hnext⟩
  obtain ⟨after, hrecord⟩ := recordEvents_execute hopenRows
  have hevents := Program.yields_of_execute hrecord
  have hexecute : (retireLapsed now scan).execute database = .ok (rows.map Prod.fst, after) := by
    rw [retireLapsed, Program.execute_bind, hrows]
    exact (Program.execute_bind _ _ between).trans (by rw [hrecord]; rfl)
  refine ⟨rows.map Prod.fst, after,
    Program.run_of_execute_ok (Program.execute_map_of_ok hexecute), fun jobId ↦ ?_, ?_⟩
  · rw [(recordEvents_yields hevents jobId).1]
    rcases hjobs jobId with ⟨hnone, hsame⟩ | ⟨row, hrow, hretirable, -, hafter⟩
    · rw [hsame]
      cases hrow : jobRow database jobId with
      | none => rfl
      | some row =>
        -- a row that could be retired would have been returned
        have hkept : row.retirable now = false := by
          by_contra hretirable
          have hmem := mem_retireRows hrow (by simpa using hretirable) (hscan jobId row hrow) hrows
          exact (mem_ids_iff_rowsOf_ne_nil jobId rows).mp hmem hnone
        simp [JobRow.retire, hkept]
    · rw [hafter, hrow, Option.map_some, JobRow.retire, if_pos hretirable]
  · intro sessionId key
    refine recordEvents_leavesKeys _ sessionId key _ between () after ?_ hevents
    exact retireRows_leavesKeys now scan sessionId key _ database rows between rfl hyields

end Abacus.Postgres
