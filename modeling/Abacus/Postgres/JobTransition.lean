import Abacus.Postgres.Operation

/-!
# What a method of the store commits

One lemma for each method of the job store (`claim_yields`, `ack_yields` and so on): what it commits
among any other transactions, as the row it wrote and the event it recorded. A method that puts a
job into another state is a `Transition`: it changes the row it finds, if the row meets the
condition of its statement, and records the event that the new row calls for (`Recorded`).

The blocks are `updateJob_yields` and `recordEvent_yields`; the frame lemmas say which rows a
recorded event leaves alone, and which event rows a job gains (`Logged`).
-/

set_option autoImplicit false
set_option relaxedAutoImplicit false

namespace Abacus.Postgres

open RowLocking

/-! ### The transitions of a job in the log -/

/-- The event rows of a job, with their sessions, in the order they were committed. -/
def jobEventRows (database : Database) (jobId : Uuid) : List (Uuid × JobEvent) :=
  database.log.filterMap fun
    | .message _ _ _ => none
    | .event sessionId transition =>
      if transition.jobId = jobId then some (sessionId, transition) else none

/-- The event row a job's row calls for, numbered `seq`: one if the job has a session. -/
def newEventRows (jobId : Uuid) (row : Option JobRow) (seq : ℕ) : List (Uuid × JobEvent) :=
  match row with
  | some row => (row.sessionId.map fun sessionId ↦ (sessionId, ⟨seq, jobId, row.state⟩)).toList
  | none => []

/-- Between two databases a job's event rows grew by the one its row calls for now, if it moved,
and not otherwise. -/
def Logged (moved : Bool) (jobId : Uuid) (before after : Database) : Prop :=
  ∃ seq, jobEventRows after jobId = jobEventRows before jobId ++
    if moved then newEventRows jobId (jobRow after jobId) seq else []

theorem Logged.of_eq {jobId : Uuid} {before after : Database}
    (h : jobEventRows after jobId = jobEventRows before jobId) :
    Logged false jobId before after :=
  ⟨0, by simpa using h⟩

@[simp] theorem jobEventRows_set (database : Database) (key : RowKey) (row : Row key)
    (jobId : Uuid) : jobEventRows (database.set key row) jobId = jobEventRows database jobId :=
  rfl

theorem jobRow_set_self (database : Database) (jobId : Uuid) (row : JobRow) :
    jobRow (database.set (.job jobId) (some row)) jobId = some row :=
  Database.set_row_self database (.job jobId) (some row)

theorem jobRow_set_of_ne (database : Database) {key : RowKey} {jobId : Uuid} (row : Row key)
    (h : .job jobId ≠ key) : jobRow (database.set key row) jobId = jobRow database jobId :=
  Database.set_row_of_ne database row h

/-- A job row with its event recorded: the session's counter moves on and the log has one more
entry; a job with no session changes nothing. -/
def Recorded (jobId : Uuid) (row : JobRow) (before after : Database) : Prop :=
  match row.sessionId with
  | none => after = before
  | some sessionId => ∃ seq, nextSeq before sessionId = some seq ∧
      after = (before.set (.chatSession sessionId) (some (seq + 1))).insert
        (.event sessionId ⟨seq, jobId, row.state⟩)

theorem allocateSeq_yields {sessionId : Uuid} {before after : Database} {seq : ℕ}
    (h : (allocateSeq sessionId).Yields before seq after) :
    nextSeq before sessionId = some seq ∧
      after = before.set (.chatSession sessionId) (some (seq + 1)) := by
  rcases h with ⟨row, hmatch, h⟩ | h
  · cases hnext : (before.row (.chatSession sessionId) : Option ℕ) with
    | none => simp [hnext] at hmatch
    | some next =>
      simp only [hnext, Option.map_some, Option.some.injEq] at hmatch
      subst hmatch
      obtain ⟨hseq, hafter⟩ := h
      simp only [Nat.add_sub_cancel] at hseq
      subst hseq
      exact ⟨hnext, hafter.symm⟩
  · exact h.elim

theorem recordEvent_yields {jobId : Uuid} {row : JobRow} {before after : Database} {value : Unit}
    (h : (recordEvent jobId row).Yields before value after) : Recorded jobId row before after := by
  unfold recordEvent at h
  unfold Recorded
  cases hsession : row.sessionId with
  | none =>
    rw [hsession] at h
    exact h.2.symm
  | some sessionId =>
    rw [hsession] at h
    obtain ⟨seq, between, hallocate, h⟩ := Program.yields_bind h
    obtain ⟨hnext, rfl⟩ := allocateSeq_yields hallocate
    exact ⟨seq, hnext, h.2.symm⟩

theorem Recorded.jobRow_eq {jobId : Uuid} {row : JobRow} {before after : Database}
    (h : Recorded jobId row before after) (other : Uuid) :
    jobRow after other = jobRow before other := by
  unfold Recorded at h
  split at h
  · rw [h]
  · rename_i sessionId _
    obtain ⟨seq, -, rfl⟩ := h
    have hset : jobRow (before.set (.chatSession sessionId) (some (seq + 1))) other =
        jobRow before other := jobRow_set_of_ne before _ (by simp)
    exact hset

/-- Recording an event adds the one the row calls for to the job's event rows and none to those of
another job. -/
theorem Recorded.jobEventRows_eq {jobId : Uuid} {row : JobRow} {before after : Database}
    (h : Recorded jobId row before after) :
    ∃ seq, ∀ other, jobEventRows after other = jobEventRows before other ++
      if other = jobId then newEventRows jobId (some row) seq else [] := by
  unfold Recorded at h
  split at h
  · rename_i hsession
    exact ⟨0, fun other ↦ by simp [h, newEventRows, hsession]⟩
  · rename_i sessionId hsession
    obtain ⟨seq, -, rfl⟩ := h
    refine ⟨seq, fun other ↦ ?_⟩
    by_cases hjob : jobId = other
    · subst hjob
      simp [jobEventRows, newEventRows, hsession]
    · simp [jobEventRows, hjob, Ne.symm hjob]

/-! ### The update of a job's row -/

/-- An update of a job either sets the row it found or changes nothing. -/
theorem updateJob_yields {jobId : Uuid} {set : JobRow → Option JobRow} {before after : Database}
    {returned : Option JobRow} (h : (updateJob jobId set).Yields before returned after) :
    (∃ row new, jobRow before jobId = some row ∧ set row = some new ∧ returned = some new ∧
      after = before.set (.job jobId) (some new)) ∨ (returned = none ∧ after = before) := by
  rcases h with ⟨result, hmatch, hvalue, hafter⟩ | ⟨hvalue, hafter⟩
  · left
    have hset : ((jobRow before jobId).bind set).map some = some result := hmatch
    obtain ⟨new, hnew, rfl⟩ := Option.map_eq_some_iff.mp hset
    obtain ⟨row, hrow, hnew⟩ := Option.bind_eq_some_iff.mp hnew
    exact ⟨row, new, hrow, hnew, hvalue.symm, hafter.symm⟩
  · exact Or.inr ⟨hvalue.symm, hafter.symm⟩

theorem updateJob_whenever_yields {jobId : Uuid} {condition : JobRow → Bool}
    {set : JobRow → JobRow} {before after : Database} {returned : Option JobRow}
    (h : (updateJob jobId (whenever condition set)).Yields before returned after) :
    (∃ row, jobRow before jobId = some row ∧ condition row = true ∧ returned = some (set row) ∧
      after = before.set (.job jobId) (some (set row))) ∨ (returned = none ∧ after = before) := by
  rcases updateJob_yields h with ⟨row, new, hrow, hset, hreturned, hafter⟩ | hnone
  · left
    unfold whenever at hset
    split at hset
    · rename_i hcondition
      rw [Option.some.injEq] at hset
      subst hset
      exact ⟨row, hrow, hcondition, hreturned, hafter⟩
    · exact absurd hset (by simp)
  · exact Or.inr hnone

/-- A transition of one job: the row satisfied the statement's predicate, was set, and its new
state was recorded. -/
def Transition (jobId : Uuid) (condition : JobRow → Bool) (set : JobRow → JobRow)
    (before after : Database) : Prop :=
  ∃ row, jobRow before jobId = some row ∧ condition row = true ∧
    Recorded jobId (set row) (before.set (.job jobId) (some (set row))) after

namespace Transition

variable {jobId : Uuid} {condition : JobRow → Bool} {set : JobRow → JobRow}
  {before after : Database}

theorem jobRow_self (h : Transition jobId condition set before after) :
    ∃ row, jobRow before jobId = some row ∧ condition row = true ∧
      jobRow after jobId = some (set row) := by
  obtain ⟨row, hrow, hcondition, hrecorded⟩ := h
  refine ⟨row, hrow, hcondition, ?_⟩
  rw [hrecorded.jobRow_eq, jobRow_set_self]

theorem jobRow_of_ne (h : Transition jobId condition set before after) {other : Uuid}
    (hother : other ≠ jobId) : jobRow after other = jobRow before other := by
  obtain ⟨row, -, -, hrecorded⟩ := h
  rw [hrecorded.jobRow_eq, jobRow_set_of_ne before _ (by simpa using hother)]

/-- A transition of a job is logged for that job and for no other. -/
theorem logged (h : Transition jobId condition set before after) (other : Uuid) :
    Logged (decide (jobId = other)) other before after := by
  obtain ⟨row, hrow, hcondition, hafter⟩ := h.jobRow_self
  obtain ⟨found, hfound, -, hrecorded⟩ := h
  obtain rfl : row = found := by
    rw [hrow] at hfound
    exact Option.some.inj hfound
  obtain ⟨seq, hevents⟩ := hrecorded.jobEventRows_eq
  refine ⟨seq, ?_⟩
  rw [hevents other]
  by_cases hjob : jobId = other
  · subst hjob
    simp [hafter]
  · simp [hjob, Ne.symm hjob]

end Transition

/-! ### The methods on one job -/

theorem claim_yields {now : Instant} {jobId leaseId : Uuid} {owner : String} {lease : Duration}
    {before after : Database} {value : Option Lease}
    (h : (claim now jobId leaseId owner lease).Yields before value after) :
    (∃ row, jobRow after jobId = some row ∧
      value = some ⟨leaseId, row.toJob jobId, owner, now + lease⟩ ∧
      Transition jobId (fun row ↦ row.waiting now || row.lapsed now)
        (fun row ↦ row.claimed now leaseId owner lease) before after) ∨
      (value = none ∧ after = before) := by
  obtain ⟨returned, between, hupdate, hrest⟩ := Program.yields_bind h
  rcases updateJob_whenever_yields hupdate with ⟨row, hrow, hcondition, rfl, rfl⟩ | ⟨rfl, rfl⟩
  · left
    obtain ⟨_, final, hrecord, rfl, rfl⟩ := Program.yields_bind hrest
    have hrecorded := recordEvent_yields hrecord
    refine ⟨row.claimed now leaseId owner lease, ?_, rfl, row, hrow, hcondition, hrecorded⟩
    rw [hrecorded.jobRow_eq, jobRow_set_self]
  · exact Or.inr ⟨hrest.1.symm, hrest.2.symm⟩

theorem ack_yields {lease : Lease} {resultRef : Option String} {before after : Database}
    {value : Unit} (h : (ack lease resultRef).Yields before value after) :
    Transition lease.job.id (fun row ↦ row.fenced lease) (fun row ↦ row.acked resultRef)
      before after := by
  obtain ⟨returned, between, hupdate, hrest⟩ := Program.yields_bind h
  rcases updateJob_whenever_yields hupdate with ⟨row, hrow, hcondition, rfl, rfl⟩ | ⟨rfl, rfl⟩
  · exact ⟨row, hrow, hcondition, recordEvent_yields hrest⟩
  · exact hrest.elim

theorem nack_yields {now : Instant} {lease : Lease} {error : String} {retryIn : Option Duration}
    {before after : Database} {value : Job}
    (h : (nack now lease error retryIn).Yields before value after) :
    (∃ row, jobRow after lease.job.id = some row ∧ value = row.toJob lease.job.id) ∧
      Transition lease.job.id (fun row ↦ row.fenced lease)
        (fun row ↦ row.nacked now error retryIn) before after := by
  obtain ⟨returned, between, hupdate, hrest⟩ := Program.yields_bind h
  rcases updateJob_whenever_yields hupdate with ⟨row, hrow, hcondition, rfl, rfl⟩ | ⟨rfl, rfl⟩
  · obtain ⟨_, final, hrecord, rfl, rfl⟩ := Program.yields_bind hrest
    have hrecorded := recordEvent_yields hrecord
    refine ⟨⟨row.nacked now error retryIn, ?_, rfl⟩, row, hrow, hcondition, hrecorded⟩
    rw [hrecorded.jobRow_eq, jobRow_set_self]
  · exact hrest.elim

theorem extend_yields {now : Instant} {lease renewed : Lease} {duration : Duration}
    {before after : Database} (h : (extend now lease duration).Yields before renewed after) :
    ∃ row, jobRow before lease.job.id = some row ∧ row.fenced lease = true ∧
      renewed = ⟨lease.id, (row.extended now duration).toJob lease.job.id, lease.owner,
        now + duration⟩ ∧
      after = before.set (.job lease.job.id) (some (row.extended now duration)) := by
  obtain ⟨returned, between, hupdate, hrest⟩ := Program.yields_bind h
  rcases updateJob_whenever_yields hupdate with ⟨row, hrow, hcondition, rfl, rfl⟩ | ⟨rfl, rfl⟩
  · exact ⟨row, hrow, hcondition, hrest.1.symm, hrest.2.symm⟩
  · exact hrest.elim

theorem markPublished_yields {now : Instant} {jobId : Uuid} {before after : Database}
    {value : Unit} (h : (markPublished now jobId).Yields before value after) :
    (∃ row, jobRow before jobId = some row ∧
      after = before.set (.job jobId) (some (row.published now))) ∨ after = before := by
  obtain ⟨returned, between, hupdate, -, rfl⟩ := Program.yields_bind h
  rcases updateJob_yields hupdate with ⟨row, new, hrow, hset, -, hafter⟩ | ⟨-, hafter⟩
  · rw [Option.some.injEq] at hset
    subst hset
    exact Or.inl ⟨row, hrow, hafter⟩
  · exact Or.inr hafter

theorem getJob_yields {jobId : Uuid} {before after : Database} {value : Option Job}
    (h : (getJob jobId).Yields before value after) : after = before := by
  obtain ⟨_, -, hafter⟩ := h
  exact hafter.symm

/-- A cancel makes a waiting job cancelled, flags a running one, or changes nothing. -/
theorem cancel_yields {jobId : Uuid} {before after : Database} {value : Option Job}
    (h : (cancel jobId).Yields before value after) :
    Transition jobId (fun row ↦ row.state.waiting) JobRow.cancelled before after ∨
      (∃ row, jobRow before jobId = some row ∧ row.state = .running ∧
        after = before.set (.job jobId) (some row.cancelled)) ∨ after = before := by
  obtain ⟨returned, between, hupdate, hrest⟩ := Program.yields_bind h
  rcases updateJob_whenever_yields hupdate with ⟨row, hrow, hcondition, rfl, rfl⟩ | ⟨rfl, rfl⟩
  · by_cases hrunning : row.state = .running
    · refine Or.inr (Or.inl ⟨row, hrow, hrunning, ?_⟩)
      simp only [JobRow.cancelled, hrunning, if_true, ne_eq, not_true_eq_false, if_false] at hrest ⊢
      exact hrest.2.symm
    · refine Or.inl ⟨row, hrow, ?_, ?_⟩
      · rcases row.state.waiting_or_running_or_terminal with hcase | hcase | hcase
        · exact hcase.1
        · exact absurd hcase.2.1 hrunning
        · simp [hcase.2.2] at hcondition
      · have hstate : row.cancelled.state ≠ .running := by
          simp [JobRow.cancelled, hrunning]
        simp only [hstate, ne_eq, not_false_eq_true, if_true] at hrest
        obtain ⟨_, final, hrecord, -, rfl⟩ := Program.yields_bind hrest
        exact recordEvent_yields hrecord
  · exact Or.inr (Or.inr (getJob_yields hrest))

/-- An insertion adds the job's row and records it, under an identity no job had, or changes
nothing and returns a job that exists. -/
theorem insertOrGet_yields {now : Instant} {jobId : Uuid} {request : JobRequest}
    {before after : Database} {job : Job} {created : Bool}
    (h : (insertOrGet now jobId request).Yields before (job, created) after) :
    (created = true ∧ request.maxAttempts ≠ 0 ∧ jobRow before jobId = none ∧
      job = (JobRow.inserted now request).toJob jobId ∧
      Recorded jobId (JobRow.inserted now request)
        ((before.set (.idempotency request.sessionId request.idempotencyKey) (some jobId)).set
          (.job jobId) (some (JobRow.inserted now request))) after) ∨
      (created = false ∧ after = before) := by
  unfold insertOrGet at h
  split at h
  · exact h.elim
  · rename_i hattempts
    rcases h with ⟨entry, hentry, h⟩ | ⟨snapshot, h⟩
    · obtain ⟨-, rfl⟩ := ifAbsent_eq_some hentry
      rcases h with ⟨inserted, hinserted, h⟩ | h
      · obtain ⟨hnone, rfl⟩ := ifAbsent_eq_some hinserted
        obtain ⟨_, final, hrecord, hvalue, rfl⟩ := Program.yields_bind h
        simp only [Prod.mk.injEq] at hvalue
        exact Or.inl ⟨hvalue.2.symm, hattempts, hnone, hvalue.1.symm, recordEvent_yields hrecord⟩
      · exact h.elim
    · dsimp only at h
      split at h
      · split at h
        · obtain ⟨hvalue, hafter⟩ := h
          simp only [Prod.mk.injEq] at hvalue
          exact Or.inr ⟨hvalue.2.symm, hafter.symm⟩
        · exact h.elim
      · exact h.elim

/-! ### Retirement, which ranges over the table -/

/-- The rows of one job among those a statement returned. -/
def rowsOf (jobId : Uuid) (rows : List (Uuid × JobRow)) : List (Uuid × JobRow) :=
  rows.filter fun row ↦ row.1 = jobId

theorem mem_ids_iff_rowsOf_ne_nil (jobId : Uuid) (rows : List (Uuid × JobRow)) :
    jobId ∈ rows.map Prod.fst ↔ rowsOf jobId rows ≠ [] := by
  simp [rowsOf, List.filter_eq_nil_iff]

theorem not_retirable_retired (row : JobRow) (now : Instant) :
    row.retired.retirable now = false := by
  cases hcancel : row.cancelRequested <;> simp [JobRow.retirable, JobRow.retired, hcancel]

/-- A retired job was retirable, is returned once and has been set; any other job's row is as it
was and is not returned. -/
theorem retireRows_yields {now : Instant} {scan : List Uuid} {before after : Database}
    {rows : List (Uuid × JobRow)} (h : (retireRows now scan).Yields before rows after) :
    after.log = before.log ∧ ∀ jobId,
      (rowsOf jobId rows = [] ∧ jobRow after jobId = jobRow before jobId) ∨
      ∃ row, jobRow before jobId = some row ∧ row.retirable now = true ∧
        rowsOf jobId rows = [(jobId, row.retired)] ∧
        jobRow after jobId = some row.retired := by
  induction scan generalizing before rows with
  | nil =>
    obtain ⟨rfl, rfl⟩ := h
    exact ⟨rfl, fun jobId ↦ Or.inl ⟨rfl, rfl⟩⟩
  | cons head scan ih =>
    obtain ⟨returned, between, hupdate, h⟩ := Program.yields_bind h
    obtain ⟨tail, final, htail, rfl, rfl⟩ := Program.yields_bind h
    obtain ⟨hlog, hjobs⟩ := ih htail
    rcases updateJob_whenever_yields hupdate with ⟨row, hrow, hretirable, rfl, rfl⟩ | ⟨rfl, rfl⟩
    · refine ⟨hlog, fun jobId ↦ ?_⟩
      by_cases hjob : head = jobId
      · subst hjob
        have hself := jobRow_set_self before head row.retired
        rcases hjobs head with ⟨hnone, hsame⟩ | ⟨again, hagain, hretirableAgain, -, -⟩
        · refine Or.inr ⟨row, hrow, hretirable, ?_, hsame.trans hself⟩
          rw [rowsOf] at hnone ⊢
          simp [hnone]
        · rw [hself, Option.some.injEq] at hagain
          rw [← hagain, not_retirable_retired] at hretirableAgain
          exact absurd hretirableAgain (by simp)
      · have hsame := jobRow_set_of_ne before (some row.retired : Row (.job head))
          (show RowKey.job jobId ≠ .job head by simpa using Ne.symm hjob)
        have hrows : rowsOf jobId ([(head, row.retired)] ++ tail) = rowsOf jobId tail := by
          simp [rowsOf, hjob]
        have htail := hjobs jobId
        rw [hsame] at htail
        simpa only [Option.map_some, Option.toList_some, hrows] using htail
    · exact ⟨hlog, hjobs⟩

theorem recordEvents_yields {rows : List (Uuid × JobRow)} {before after : Database} {value : Unit}
    (h : (recordEvents rows).Yields before value after) (jobId : Uuid) :
    jobRow after jobId = jobRow before jobId ∧
      ∃ seqs : List ℕ, seqs.length = (rowsOf jobId rows).length ∧
        jobEventRows after jobId = jobEventRows before jobId ++
          ((rowsOf jobId rows).zip seqs).flatMap fun row ↦
            newEventRows jobId (some row.1.2) row.2 := by
  induction rows generalizing before with
  | nil =>
    obtain ⟨-, rfl⟩ := h
    exact ⟨rfl, [], rfl, by simp [rowsOf]⟩
  | cons head rows ih =>
    obtain ⟨headId, row⟩ := head
    obtain ⟨_, between, hrecord, h⟩ := Program.yields_bind h
    have hrecorded := recordEvent_yields hrecord
    obtain ⟨hrow, seqs, hlength, hevents⟩ := ih h
    obtain ⟨seq, hfirst⟩ := hrecorded.jobEventRows_eq
    refine ⟨hrow.trans (hrecorded.jobRow_eq jobId), ?_⟩
    by_cases hjob : headId = jobId
    · subst hjob
      refine ⟨seq :: seqs, by simpa [rowsOf] using hlength, ?_⟩
      rw [hevents, hfirst]
      simp [rowsOf]
    · have hrows : rowsOf jobId ((headId, row) :: rows) = rowsOf jobId rows := by
        simp [rowsOf, hjob]
      refine ⟨seqs, by rw [hrows, hlength], ?_⟩
      rw [hevents, hfirst, hrows]
      simp [Ne.symm hjob]

/-- Retirement retires and logs each job it returns, and leaves every other alone. -/
theorem retireLapsed_yields {now : Instant} {scan ids : List Uuid} {before after : Database}
    (h : (retireLapsed now scan).Yields before ids after) (jobId : Uuid) :
    (jobId ∉ ids ∧ jobRow after jobId = jobRow before jobId ∧ Logged false jobId before after) ∨
      jobId ∈ ids ∧ Logged true jobId before after ∧
        ∃ row, jobRow before jobId = some row ∧ row.retirable now = true ∧
          jobRow after jobId = some row.retired := by
  obtain ⟨rows, between, hretire, h⟩ := Program.yields_bind h
  obtain ⟨_, final, hrecord, rfl, rfl⟩ := Program.yields_bind h
  obtain ⟨hlog, hjobs⟩ := retireRows_yields hretire
  obtain ⟨hrow, seqs, hlength, hevents⟩ := recordEvents_yields hrecord jobId
  have hbetween : jobEventRows between jobId = jobEventRows before jobId := by
    rw [jobEventRows, hlog, jobEventRows]
  have hsorted : (rowsOf jobId (rows.insertionSort sessionOrder)).Perm (rowsOf jobId rows) :=
    (List.perm_insertionSort sessionOrder rows).filter _
  rw [mem_ids_iff_rowsOf_ne_nil]
  rcases hjobs jobId with ⟨hnone, hsame⟩ | ⟨row, hbefore, hretirable, hone, hafter⟩
  · left
    rw [hnone, List.perm_nil] at hsorted
    rw [hsorted] at hevents
    refine ⟨by simp [hnone], hrow.trans hsame, Logged.of_eq ?_⟩
    simpa [hbetween] using hevents
  · right
    rw [hone, List.perm_singleton] at hsorted
    rw [hsorted] at hevents hlength
    obtain ⟨seq, rfl⟩ := List.length_eq_one_iff.mp hlength
    refine ⟨by simp [hone], ⟨seq, ?_⟩, row, hbefore, hretirable, hrow.trans hafter⟩
    rw [hevents, hbetween, hrow, hafter]
    simp

end Abacus.Postgres
