import Abacus.Postgres.EventLog
import Abacus.Postgres.LockOrder
import Abacus.Postgres.RowKept
import Abacus.Postgres.Succeeds
import Abacus.RowLocking.Rely

/-!
# One row for each idempotency key

`RowOf` is a job with a given `(session_id, idempotency_key)`, the session null or not. `Indexed`
says that the entries of `uq_jobs_session_id_idempotency_key` are those of the rows: only
`insert_or_get` writes one (`Operation.program_keyless`), together with its row. So a key has one
row at most, and the row of a key stays what it is (`RowOf.kept`).

`Getting` is what a running `insert_or_get` knows. One that did not insert has found the key taken
by a row that is committed, which no other transaction can take away: its re-read finds that row and
no other, whoever the creator was and however many waited for it. `recorded_once` is about the event
of the creation.
-/

set_option autoImplicit false
set_option relaxedAutoImplicit false

namespace Abacus.Postgres

open RowLocking

/-! ### Only `insert_or_get` writes a key -/

/-- Any key but an idempotency key. -/
def RowKey.Other (key : RowKey) : Prop :=
  0 < key.tier

theorem allocateSeq_keyless (sessionId : Uuid) : (allocateSeq sessionId).Within RowKey.Other := by
  refine ⟨Nat.zero_lt_two, ?_⟩
  rintro (_ | _ | next) <;> trivial

theorem recordEvent_keyless (jobId : Uuid) (row : JobRow) :
    (recordEvent jobId row).Within RowKey.Other := by
  unfold recordEvent
  cases row.sessionId with
  | none => trivial
  | some sessionId => exact (allocateSeq_keyless sessionId).bind fun _ ↦ trivial

theorem recordEvents_keyless (rows : List (Uuid × JobRow)) :
    (recordEvents rows).Within RowKey.Other := by
  induction rows with
  | nil => trivial
  | cons row rows ih => exact (recordEvent_keyless row.1 row.2).bind fun _ ↦ ih

theorem updateJob_keyless (jobId : Uuid) (set : JobRow → Option JobRow) :
    (updateJob jobId set).Within RowKey.Other :=
  ⟨Nat.zero_lt_one, fun _ ↦ trivial⟩

theorem retireRows_keyless (now : Instant) (scan : List Uuid) :
    (retireRows now scan).Within RowKey.Other := by
  induction scan with
  | nil => trivial
  | cons jobId scan ih => exact (updateJob_keyless jobId _).bind fun _ ↦ ih.bind fun _ ↦ trivial

theorem insertMessage_keyless (messageId : Uuid) (row : ChatMessageRow) :
    (insertMessage messageId row).Within RowKey.Other := by
  refine ⟨Nat.zero_lt_succ 3, ?_⟩
  rintro (_ | row) <;> trivial

/-- A statement on a job and what follows it. -/
theorem transition_keyless {A : Type} {jobId : Uuid} {set : JobRow → Option JobRow}
    {rest : Option JobRow → Sql A} (hrest : ∀ row, (rest row).Within RowKey.Other) :
    (updateJob jobId set >>= rest).Within RowKey.Other :=
  (updateJob_keyless jobId set).bind hrest

/-- Every other method leaves the idempotency keys alone. -/
theorem Operation.program_keyless (now : Instant) {operation : Operation}
    (hother : ∀ jobId request, operation ≠ .insertOrGet jobId request) :
    (operation.program now).Within RowKey.Other := by
  cases operation with
  | insertOrGet jobId request => exact absurd rfl (hother jobId request)
  | markPublished jobId => exact Program.Within.map _ (transition_keyless fun _ ↦ trivial)
  | getJob jobId => exact fun _ ↦ trivial
  | cancel jobId =>
    refine (transition_keyless ?_).map _
    rintro (_ | row)
    · exact fun _ ↦ trivial
    · dsimp only
      split_ifs
      · exact (recordEvent_keyless jobId row).bind fun _ ↦ trivial
      · trivial
  | claim jobId leaseId owner lease =>
    refine (transition_keyless ?_).map _
    rintro (_ | row)
    · trivial
    · exact (recordEvent_keyless jobId row).bind fun _ ↦ trivial
  | lapsedReservable scan => exact fun _ ↦ trivial
  | retireLapsed scan =>
    refine Program.Within.map _ (Program.Within.bind (retireRows_keyless now scan) fun rows ↦ ?_)
    exact (recordEvents_keyless _).bind fun _ ↦ trivial
  | unpublished scan olderThan => exact fun _ ↦ trivial
  | extend lease duration =>
    refine (transition_keyless ?_).map _
    rintro (_ | row) <;> trivial
  | ack lease resultRef =>
    refine (transition_keyless ?_).map _
    rintro (_ | row)
    · trivial
    · exact recordEvent_keyless lease.job.id row
  | nack lease error retryIn =>
    refine (transition_keyless ?_).map _
    rintro (_ | row)
    · trivial
    · exact (recordEvent_keyless lease.job.id row).bind fun _ ↦ trivial
  | ensureSession sessionId => exact ⟨Nat.zero_lt_two, fun _ ↦ trivial⟩
  | recordUserMessage sessionId clientMsgId text messageId =>
    refine Program.Within.map _ ((allocateSeq_keyless sessionId).bind fun seq ↦ ?_)
    refine ⟨Nat.zero_lt_succ 2, ?_⟩
    rintro (_ | row)
    · trivial
    · exact (insertMessage_keyless messageId _).bind fun _ ↦ trivial
  | byClientMsgId sessionId clientMsgId =>
    refine Program.Within.map _ fun snapshot ↦ ?_
    dsimp only
    split
    · split <;> trivial
    · trivial
  | startAssistantMessage sessionId messageId =>
    exact Program.Within.map _ ((allocateSeq_keyless sessionId).bind fun _ ↦
      insertMessage_keyless messageId _)
  | completeAssistantMessage messageId text => exact ⟨Nat.zero_lt_succ 3, fun _ ↦ trivial⟩
  | failAssistantMessage messageId => exact ⟨Nat.zero_lt_succ 3, fun _ ↦ trivial⟩
  | logSince sessionId afterSeq limit =>
    exact .of_readOnly ((logSince_readOnly sessionId afterSeq limit).map _)

/-- A method that is not `insert_or_get` leaves every idempotency key as it was. -/
theorem keys_eq_of_yields {now : Instant} {operation : Operation}
    (hother : ∀ jobId request, operation ≠ .insertOrGet jobId request) {before after : Database}
    {outcome : Outcome} (h : (operation.program now).Yields before outcome after)
    (sessionId : Option Uuid) (key : String) :
    after.row (.idempotency sessionId key) = before.row (.idempotency sessionId key) :=
  (Operation.program_keyless now hother).row_eq h (Nat.lt_irrefl 0)

/-! ### The row of a key -/

/-- A job with this session, or none, and this key. -/
def RowOf (sessionId : Option Uuid) (key : String) (database : Database) (jobId : Uuid) : Prop :=
  ∃ row, jobRow database jobId = some row ∧ row.sessionId = sessionId ∧ row.idempotencyKey = key

/-- The entries of `uq_jobs_session_id_idempotency_key` are those of the rows. -/
def Indexed (database : Database) : Prop :=
  ∀ sessionId key jobId, database.row (.idempotency sessionId key) = some jobId ↔
    RowOf sessionId key database jobId

variable {now : Instant} {before after : Database} {jobId : Uuid} {sessionId : Option Uuid}
  {key : String}

/-- A key has at most one row. -/
theorem Indexed.unique {database : Database} (h : Indexed database) {first second : Uuid}
    (hfirst : RowOf sessionId key database first) (hsecond : RowOf sessionId key database second) :
    first = second :=
  Option.some.inj
    (((h sessionId key first).mpr hfirst).symm.trans ((h sessionId key second).mpr hsecond))

/-- A row has one session and one key. -/
theorem RowOf.key_eq {database : Database} {otherSession : Option Uuid} {otherKey : String}
    (hfirst : RowOf sessionId key database jobId)
    (hsecond : RowOf otherSession otherKey database jobId) :
    sessionId = otherSession ∧ key = otherKey := by
  obtain ⟨row, hrow, rfl, rfl⟩ := hfirst
  obtain ⟨other, hother, rfl, rfl⟩ := hsecond
  obtain rfl := Option.some.inj (hrow.symm.trans hother)
  exact ⟨rfl, rfl⟩

/-- A call keeps the row of a key, and its session and key. -/
theorem RowOf.kept {operation : Operation} {outcome : Outcome}
    (h : RowOf sessionId key before jobId)
    (hyields : (operation.program now).Yields before outcome after) :
    RowOf sessionId key after jobId := by
  obtain ⟨row, hrow, hsession, hkey⟩ := h
  have hkept : RowKept (.job jobId) (before.row (.job jobId)) (after.row (.job jobId)) :=
    (operation.program_respects now).row_kept rowKept_refl rowKept_trans hyields (.job jobId)
  obtain ⟨new, hnew, hsame⟩ := hkept row hrow
  exact ⟨new, hnew, hsame.1.trans hsession, hsame.2.1.trans hkey⟩

/-- What an insertion did: the key was free, and is now the key of the row under the identity it
drew. -/
structure Inserts (jobId : Uuid) (request : JobRequest) (before after : Database) : Prop where
  free : before.row (.idempotency request.sessionId request.idempotencyKey) = (none : Option Uuid)
  new : jobRow before jobId = none
  row : RowOf request.sessionId request.idempotencyKey after jobId
  others : ∀ other, other ≠ jobId → jobRow after other = jobRow before other
  keys : ∀ sessionId key, after.row (.idempotency sessionId key) =
    if sessionId = request.sessionId ∧ key = request.idempotencyKey then some jobId
    else before.row (.idempotency sessionId key)

theorem insertOrGet_inserts {request : JobRequest} {job : Job}
    (h : (insertOrGet now jobId request).Yields before (job, true) after) :
    job.id = jobId ∧ Inserts jobId request before after := by
  have hfree : before.row (.idempotency request.sessionId request.idempotencyKey) =
      (none : Option Uuid) := by
    unfold insertOrGet at h
    split at h
    · exact h.elim
    · rcases h with ⟨entry, hentry, -⟩ | ⟨snapshot, h⟩
      · exact (ifAbsent_eq_some hentry).1
      · dsimp only at h
        split at h
        · split at h
          · exact absurd (Prod.mk.inj h.1).2 (by simp)
          · exact h.elim
        · exact h.elim
  rcases insertOrGet_yields h with ⟨-, -, hnew, rfl, hrecorded⟩ | ⟨hcreated, -⟩
  · have hrows := hrecorded.jobRow_eq
    refine ⟨rfl, hfree, hnew, ⟨JobRow.inserted now request, ?_, rfl, rfl⟩, fun other hother ↦ ?_,
      fun session other ↦ ?_⟩
    · rw [hrows, jobRow_set_self]
    · rw [hrows, jobRow_set_of_ne _ _ (by simpa using hother), jobRow_set_of_ne _ _ (by simp)]
    · rw [hrecorded.keys_eq, Database.set_row_of_ne _ _ (by simp)]
      split_ifs with hsame
      · obtain ⟨rfl, rfl⟩ := hsame
        exact Database.set_row_self _ _ _
      · exact Database.set_row_of_ne _ _ (by simpa using hsame)
  · exact absurd hcreated (by simp)

/-- A call that inserts nothing changes no key, and no row gets another one. -/
theorem insertOrGet_eq_of_found {request : JobRequest} {job : Job}
    (h : (insertOrGet now jobId request).Yields before (job, false) after) : after = before := by
  rcases insertOrGet_yields h with ⟨hcreated, -⟩ | ⟨-, rfl⟩
  · exact absurd hcreated (by simp)
  · rfl

theorem Indexed.inserts {request : JobRequest} (h : Indexed before)
    (hinserts : Inserts jobId request before after) : Indexed after := by
  intro session other found
  rw [hinserts.keys]
  split_ifs with hsame
  · obtain ⟨rfl, rfl⟩ := hsame
    constructor
    · intro hfound
      exact Option.some.inj hfound ▸ hinserts.row
    · rintro ⟨row, hrow, hsession, hkey⟩
      by_cases hid : found = jobId
      · rw [hid]
      · -- the key would have been taken before
        rw [hinserts.others found hid] at hrow
        have htaken := (h _ _ found).mpr ⟨row, hrow, hsession, hkey⟩
        exact absurd (hinserts.free.symm.trans htaken) (by simp)
  · rw [h session other found]
    by_cases hid : found = jobId
    · subst hid
      constructor
      · rintro ⟨row, hrow, -⟩
        exact absurd (hinserts.new.symm.trans hrow) (by simp)
      · exact fun hrow ↦ absurd (hrow.key_eq hinserts.row) hsame
    · simp only [RowOf, hinserts.others found hid]

/-- Every method keeps the index in step with the rows. -/
theorem Indexed.kept {operation : Operation} {outcome : Outcome} (h : Indexed before)
    (hyields : (operation.program now).Yields before outcome after) : Indexed after := by
  by_cases hinsert : ∃ jobId request, operation = .insertOrGet jobId request
  · obtain ⟨jobId, request, rfl⟩ := hinsert
    obtain ⟨⟨job, created⟩, hcall, -⟩ := Program.yields_map hyields
    cases created with
    | true => exact h.inserts (insertOrGet_inserts hcall).2
    | false =>
      rw [insertOrGet_eq_of_found hcall]
      exact h
  · have hother : ∀ jobId request, operation ≠ .insertOrGet jobId request :=
      fun jobId request heq ↦ hinsert ⟨jobId, request, heq⟩
    intro session other found
    rw [keys_eq_of_yields hother hyields, h session other found]
    constructor
    · exact fun hrow ↦ hrow.kept hyields
    · rintro ⟨row, hrow, rfl, rfl⟩
      have hstep := (Operation.program_stepsJob hyields found).1
      rw [hrow] at hstep
      cases hbefore : jobRow before found with
      | none =>
        -- only an insertion makes a row
        rw [hbefore] at hstep
        cases hstep with
        | inserted request hattempts => exact absurd rfl (hother found request)
      | some earlier =>
        have hearlier : RowOf earlier.sessionId earlier.idempotencyKey before found :=
          ⟨earlier, hbefore, rfl, rfl⟩
        obtain ⟨hsession, hkey⟩ := (hearlier.kept hyields).key_eq ⟨row, hrow, rfl, rfl⟩
        rw [← hsession, ← hkey]
        exact hearlier

theorem indexed_of_execution {Backend : Type} [DecidableEq Backend] {history : List Commit}
    {system : System Backend} (h : Execution history system) : Indexed system.committed := by
  have hempty : Indexed Database.empty := by
    intro session other found
    constructor
    · exact fun hfound ↦ absurd hfound (by simp [Database.empty])
    · rintro ⟨row, hrow, -⟩
      exact absurd hrow (by simp [jobRow, Database.empty])
  exact Execution.invariant hempty (fun _ _ _ _ hindexed hyields ↦ hindexed.kept hyields) h

/-! ### One event of the creation -/

/-- Along the diagram no state after the first is `queued`. -/
theorem not_queued_of_mem_tail {states : List JobState} (h : states.IsChain Edge)
    {state : JobState} (hstate : state ∈ states.tail) : state ≠ .queued := by
  induction h with
  | nil => simp at hstate
  | singleton first => simp at hstate
  | cons_cons hedge _ ih =>
    rw [List.tail_cons, List.mem_cons] at hstate
    rcases hstate with rfl | hstate
    · rcases hedge with ⟨-, rfl | rfl⟩ | ⟨-, hnot⟩
      · simp
      · simp
      · exact hnot
    · exact ih hstate

theorem count_queued_le {states : List JobState} (h : states.IsChain Edge) :
    states.count .queued ≤ 1 := by
  cases states with
  | nil => exact Nat.zero_le 1
  | cons first rest =>
    have hrest : rest.count .queued = 0 :=
      List.count_eq_zero.mpr fun hmem ↦ not_queued_of_mem_tail h hmem rfl
    rw [List.count_cons, hrest]
    split <;> omega

/-- A job has at most one `queued` event. -/
theorem recorded_once {Backend : Type} [DecidableEq Backend] {history : List Commit}
    {system : System Backend} (h : Execution history system) (jobId : Uuid) :
    ((jobEventRows system.committed jobId).map fun event ↦ event.2.state).count .queued ≤ 1 := by
  obtain ⟨-, hlife, hevents⟩ := recounted_of_execution h jobId
  cases hrow : jobRow system.committed jobId with
  | none =>
    rw [hrow] at hevents
    rw [hevents.1]
    exact Nat.zero_le 1
  | some row =>
    rw [hrow] at hlife hevents
    cases hsession : row.sessionId with
    | none =>
      simp only [EventsList, hsession] at hevents
      rw [hevents]
      exact Nat.zero_le 1
    | some session =>
      simp only [EventsList, hsession] at hevents
      rw [hevents.1]
      exact count_queued_le hlife.chain

/-! ### The re-read of an insertion that found the key taken -/

/-- What the re-read makes of what it sees. -/
def found (request : JobRequest) (database : Database) : Sql (Job × Bool) :=
  match database.row (.idempotency request.sessionId request.idempotencyKey) with
  | some existingId =>
    match jobRow database existingId with
    | some existing => pure (existing.toJob existingId, false)
    | none => .raise .noResultFound
  | none => .raise .noResultFound

/-- `insert_or_get` as a call of the store returns it. -/
def asOutcome (program : Sql (Job × Bool)) : Sql Outcome :=
  (fun created ↦ .enqueued created.1 created.2) <$> program

/-- The statements of `insert_or_get` after the insertion of the key. -/
def insertRow (now : Instant) (jobId : Uuid) (request : JobRequest) : Sql (Job × Bool) :=
  .update (.job jobId) (ifAbsent (JobRow.inserted now request)) fun
    | some _ => do
      recordEvent jobId (JobRow.inserted now request)
      pure ((JobRow.inserted now request).toJob jobId, true)
    | none => .raise .uniqueViolation

/-- A key that is taken is found with its row. -/
theorem found_of_taken {request : JobRequest} {database : Database} {existingId : Uuid}
    {row : JobRow}
    (hkey : database.row (.idempotency request.sessionId request.idempotencyKey) = some existingId)
    (hrow : jobRow database existingId = some row) :
    found request database = .commit (row.toJob existingId, false) := by
  unfold found
  split
  · rename_i other hother
    obtain rfl := Option.some.inj (hkey.symm.trans hother)
    rw [hrow]
    rfl
  · rename_i hnone
    exact absurd (hkey.symm.trans hnone) (by simp)

/-- A job that may not be attempted is refused by the table. -/
theorem insertOrGet_program_of_zero (now : Instant) (jobId : Uuid) {request : JobRequest}
    (hattempts : request.maxAttempts = 0) :
    (Operation.insertOrGet jobId request).program now = .raise .checkViolation := by
  show asOutcome (insertOrGet now jobId request) = _
  rw [insertOrGet, if_pos hattempts]
  rfl

theorem insertOrGet_program (now : Instant) (jobId : Uuid) {request : JobRequest}
    (hattempts : request.maxAttempts ≠ 0) :
    (Operation.insertOrGet jobId request).program now =
      .update (.idempotency request.sessionId request.idempotencyKey) (ifAbsent jobId) fun
        | some _ => asOutcome (insertRow now jobId request)
        | none => .select fun seen ↦ asOutcome (found request seen) := by
  show asOutcome (insertOrGet now jobId request) = _
  rw [insertOrGet, if_neg hattempts]
  refine congrArg (Program.update _ _) (funext fun row ↦ ?_)
  cases row <;> rfl

/-- An insertion that has its key returns a job that it created. -/
theorem insertRow_ends (now : Instant) (jobId : Uuid) (request : JobRequest) :
    (asOutcome (insertRow now jobId request)).Ends fun outcome ↦
      ∃ job, outcome = .enqueued job true := by
  refine Program.Ends.map ?_
  rintro (_ | row)
  · trivial
  · exact Program.Ends.bind fun _ ↦ ⟨_, rfl⟩

/-- What a running `insert_or_get` knows of the committed rows: nothing yet; that its key is taken;
the row of its key, which it will return; or that it has inserted the key itself. -/
def Getting (now : Instant) (jobId : Uuid) (request : JobRequest) (committed : Database)
    (transaction : RowLocking.Transaction Call RowKey Row LogEntry StoreError Outcome) : Prop :=
  (transaction.program = (Operation.insertOrGet jobId request).program now ∧
    transaction.writes = fun _ ↦ none) ∨
  (transaction.program = (.select fun seen ↦ asOutcome (found request seen)) ∧
    (transaction.writes = fun _ ↦ none) ∧
    ∃ existingId, committed.row (.idempotency request.sessionId request.idempotencyKey) =
      some existingId) ∨
  (∃ job, transaction.program = .commit (.enqueued job false) ∧
    RowOf request.sessionId request.idempotencyKey committed job.id) ∨
  transaction.program.Ends fun outcome ↦ ∃ job, outcome = .enqueued job true

/-- What a running `insert_or_get` knows no commit takes away. -/
theorem Getting.kept {request : JobRequest} {label : Call} {outcome : Outcome}
    {transaction : RowLocking.Transaction Call RowKey Row LogEntry StoreError Outcome}
    (h : Getting now jobId request before transaction)
    (hyields : label.program.Yields before outcome after) :
    Getting now jobId request after transaction := by
  rcases h with hbegun | ⟨hprogram, hwrites, existingId, hkey⟩ | ⟨job, hprogram, hrow⟩ | hends
  · exact Or.inl hbegun
  · have hkept : RowKept (.idempotency request.sessionId request.idempotencyKey)
        (before.row (.idempotency request.sessionId request.idempotencyKey))
        (after.row (.idempotency request.sessionId request.idempotencyKey)) :=
      (label.operation.program_respects label.now).row_kept rowKept_refl rowKept_trans hyields _
    obtain ⟨same, hsame, rfl⟩ := hkept existingId hkey
    exact Or.inr (Or.inl ⟨hprogram, hwrites, existingId, hsame⟩)
  · exact Or.inr (Or.inr (Or.inl ⟨job, hprogram, hrow.kept hyields⟩))
  · exact Or.inr (Or.inr (Or.inr hends))

/-- One statement of a running `insert_or_get`. -/
theorem Getting.statement {request : JobRequest} {committed : Database}
    {transaction next : RowLocking.Transaction Call RowKey Row LogEntry StoreError Outcome}
    (h : Getting now jobId request committed transaction) (hindexed : Indexed committed)
    (hstatement : Statement committed transaction next) :
    Getting now jobId request committed next := by
  rcases h with ⟨hprogram, hwrites⟩ | ⟨hprogram, hwrites, existingId, hkey⟩ | ⟨job, hprogram, -⟩ |
    hends
  · by_cases hattempts : request.maxAttempts = 0
    · have hraise := hprogram.trans (insertOrGet_program_of_zero now jobId hattempts)
      cases hstatement <;> exact absurd hraise (by simp)
    · rw [insertOrGet_program now jobId hattempts] at hprogram
      cases hstatement with
      | update row hmatch =>
        cases hprogram
        refine Or.inr (Or.inr (Or.inr ?_))
        obtain ⟨-, rfl⟩ := ifAbsent_eq_some hmatch
        exact insertRow_ends now jobId request
      | mismatch hmismatch =>
        cases hprogram
        refine Or.inr (Or.inl ⟨rfl, hwrites, ?_⟩)
        have hwritten := congrFun hwrites (.idempotency request.sessionId request.idempotencyKey)
        dsimp only at hwritten
        rw [hwritten, Option.getD_none] at hmismatch
        cases hfound : committed.row (.idempotency request.sessionId request.idempotencyKey) with
        | none => exact absurd hmismatch (by simp [hfound, ifAbsent])
        | some existingId => exact ⟨existingId, rfl⟩
      | insert => exact absurd hprogram (by simp)
      | select => exact absurd hprogram (by simp)
  · cases hstatement with
    | update row hmatch => exact absurd hprogram (by simp)
    | mismatch hmismatch => exact absurd hprogram (by simp)
    | insert => exact absurd hprogram (by simp)
    | @select label next writes inserted =>
      cases hprogram
      obtain ⟨row, hrow, hsession, hname⟩ := (hindexed _ _ existingId).mp hkey
      let view := (⟨label, .select fun seen ↦ asOutcome (found request seen), writes, inserted⟩ :
        RowLocking.Transaction Call RowKey Row LogEntry StoreError Outcome).view committed
      have hview : ∀ key, view.row key = committed.row key := fun key ↦ by
        have hwritten : writes key = none := congrFun hwrites key
        show (writes key).getD (committed.row key) = committed.row key
        rw [hwritten, Option.getD_none]
      have hfound : found request view = .commit (row.toJob existingId, false) :=
        found_of_taken ((hview _).trans hkey) ((hview (.job existingId)).trans hrow)
      refine Or.inr (Or.inr (Or.inl ⟨row.toJob existingId, ?_, row, hrow, hsession, hname⟩))
      show asOutcome (found request view) = _
      rw [hfound]
      rfl
  · cases hstatement <;> exact absurd hprogram (by simp)
  · exact Or.inr (Or.inr (Or.inr (hstatement.ends hends)))

section Runs

variable {Backend : Type} [DecidableEq Backend] {history : List Commit} {system : System Backend}

theorem getting_of_execution (h : Execution history system) {backend : Backend}
    {transaction : RowLocking.Transaction Call RowKey Row LogEntry StoreError Outcome}
    (hrunning : system.running backend = some transaction) {request : JobRequest}
    (hlabel : transaction.label = ⟨now, .insertOrGet jobId request⟩) :
    Getting now jobId request system.committed transaction := by
  let Holds (committed : Database)
      (transaction : RowLocking.Transaction Call RowKey Row LogEntry StoreError Outcome) : Prop :=
    ∀ now jobId request, transaction.label = ⟨now, .insertOrGet jobId request⟩ →
      Getting now jobId request committed transaction
  have hstart : ∀ committed label, Holds committed (Transaction.start Call.program label) := by
    rintro committed label now jobId request rfl
    exact Or.inl ⟨rfl, rfl⟩
  have hown : ∀ committed before after, Indexed committed → Holds committed before →
      Statement committed before after → Holds committed after :=
    fun committed before after hindexed hbefore hstatement now jobId request hafter ↦
      (hbefore now jobId request (hstatement.label_eq ▸ hafter)).statement hindexed hstatement
  have hrely : ∀ (label : Call) before result after transaction,
      label.program.Yields before result after → Holds before transaction →
      Holds after transaction :=
    fun label before result after transaction hyields hbefore now jobId request heq ↦
      (hbefore now jobId request heq).kept hyields
  have hall : Holds system.committed transaction :=
    Execution.running_invariant indexed_of_execution hstart hown hrely h hrunning
  exact hall now jobId request hlabel

/-- What an `insert_or_get` that commits returns: the row of its key. It has created it only where
the key was free. -/
theorem enqueued_of_commit (h : Execution history system) {commit : Commit}
    {after : System Backend} (hstep : Step Call.program system (some commit) after)
    {request : JobRequest} (hlabel : commit.label = ⟨now, .insertOrGet jobId request⟩) :
    ∃ job created, commit.result = .enqueued job created ∧
      RowOf request.sessionId request.idempotencyKey after.committed job.id ∧
      (created = true → system.committed.row
        (.idempotency request.sessionId request.idempotencyKey) = (none : Option Uuid)) := by
  obtain ⟨backend, transaction, hrunning, hsame, hprogram, -, -⟩ := hstep.commit_inv
  have hgetting := getting_of_execution h hrunning (hsame.trans hlabel)
  rcases h.sound.step_committed hstep with ⟨hnone, -⟩ | ⟨made, hmade, hbefore, hafter, hyields⟩
  · exact absurd hnone (by simp)
  · obtain rfl := Option.some.inj hmade
    rw [hlabel, hbefore, hafter] at hyields
    obtain ⟨⟨job, created⟩, hcall, hresult⟩ := Program.yields_map hyields
    refine ⟨job, created, hresult.symm, ?_⟩
    cases created with
    | true =>
      obtain ⟨hid, hinserts⟩ := insertOrGet_inserts hcall
      exact ⟨hid ▸ hinserts.row, fun _ ↦ hinserts.free⟩
    | false =>
      rw [insertOrGet_eq_of_found hcall]
      refine ⟨?_, fun hcreated ↦ absurd hcreated (by simp)⟩
      rw [← hresult] at hprogram
      rcases hgetting with ⟨hbegun, -⟩ | ⟨hselect, -⟩ | ⟨found, hcommit, hrow⟩ | hends
      · rw [hprogram] at hbegun
        by_cases hattempts : request.maxAttempts = 0
        · have hraise := hbegun.trans (insertOrGet_program_of_zero now jobId hattempts)
          exact absurd hraise (by simp)
        · exact absurd (hbegun.trans (insertOrGet_program now jobId hattempts)) (by simp)
      · exact absurd (hprogram.symm.trans hselect) (by simp)
      · have hjob := hprogram.symm.trans hcommit
        simp only [Program.commit.injEq, Outcome.enqueued.injEq, and_true] at hjob
        exact hjob ▸ hrow
      · rw [hprogram] at hends
        obtain ⟨other, hother⟩ := hends
        exact absurd hother (by simp)

/-- A row of a key that was there after a commit is there now. -/
theorem RowOf.of_commit (h : Execution history system) {commit : Commit}
    (hcommit : commit ∈ history)
    (hrow : RowOf sessionId key commit.after jobId) :
    RowOf sessionId key system.committed jobId := by
  induction h with
  | idle => exact absurd hcommit (by simp)
  | @step history system made after before step ih =>
    rcases before.sound.step_committed step with ⟨rfl, hsame⟩ |
      ⟨made, rfl, hbefore, hafter, hyields⟩
    · rw [hsame]
      exact ih (by simpa using hcommit)
    · rcases List.mem_append.mp hcommit with hold | hnew
      · rw [← hafter]
        rw [hbefore] at hyields
        exact (ih hold).kept hyields
      · rw [List.mem_singleton.mp hnew] at hrow
        exact hafter ▸ hrow

end Runs

end Abacus.Postgres
