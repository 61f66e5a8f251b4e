import Abacus.Postgres.Deduplication
import Abacus.Postgres.StoredMessage

/-!
# The constraints of the schema

The tables of `Tables` are keyed rows and a log, and nothing in a transaction program tests what
`adapters/postgres/tables.py` declares beside the columns: the foreign keys, the unique constraints
on `(session_id, seq)`, the partial unique index and the checks. `Constrained` spells them out, one
field for each, and `constraints_hold` says that no interleaving of the methods ever commits a state
that breaks one, so that the database has nothing to refuse but what a method already answers for.

The checks on `role`, `status` and `state` are the types of these columns.
-/

set_option autoImplicit false
set_option relaxedAutoImplicit false

namespace Abacus.Postgres

open RowLocking

/-- What `tables.py` declares of the rows. -/
structure Constrained (database : Database) : Prop where
  /-- `chat_messages.session_id` references `chat_sessions.id`. -/
  messageSession : ∀ messageId row, messageRow database messageId = some row →
    nextSeq database row.sessionId ≠ none
  /-- `jobs.session_id` references `chat_sessions.id`, where it is not null. -/
  jobSession : ∀ jobId row sessionId, jobRow database jobId = some row →
    row.sessionId = some sessionId → nextSeq database sessionId ≠ none
  /-- `job_events.session_id` references `chat_sessions.id`. -/
  eventSession : ∀ sessionId transition, .event sessionId transition ∈ database.log →
    nextSeq database sessionId ≠ none
  /-- `job_events.job_id` references `jobs.id`, and the session it repeats is the job's. -/
  eventJob : ∀ sessionId transition, .event sessionId transition ∈ database.log →
    ∃ row, jobRow database transition.jobId = some row ∧ row.sessionId = some sessionId
  /-- `(session_id, seq)` is unique in `chat_messages`. -/
  messageSeq : ∀ first second row other, messageRow database first = some row →
    messageRow database second = some other → row.sessionId = other.sessionId →
      row.seq = other.seq → first = second
  /-- `(session_id, seq)` is unique in `job_events`. -/
  eventSeq : ∀ sessionId, ((sessionEvents database sessionId).map JobEvent.seq).Nodup
  /-- `client_msg_id_matches_role`. -/
  keyMatchesRole : ∀ messageId row, messageRow database messageId = some row →
    (row.role = .user ↔ row.clientMsgId ≠ none)
  /-- `uq_chat_messages_session_id_client_msg_id`. -/
  clientMsgId : ∀ first second sessionId clientMsgId,
    MessageOf sessionId clientMsgId database first →
      MessageOf sessionId clientMsgId database second → first = second
  /-- `uq_jobs_session_id_idempotency_key`, null sessions being equal. -/
  idempotencyKey : ∀ first second sessionId key, RowOf sessionId key database first →
    RowOf sessionId key database second → first = second
  /-- `lease_is_whole`. -/
  leaseIsWhole : ∀ jobId row, jobRow database jobId = some row →
    (row.leaseId = none ↔ row.leaseExpiresAt = none)
  /-- `attempts_sane`. -/
  attemptsSane : ∀ jobId row, jobRow database jobId = some row →
    0 ≤ row.attempts ∧ 0 < row.maxAttempts

/-! ### What follows from the numbering -/

section Numbering

variable {database : Database}

/-- A session with an entry in its log has a counter. -/
theorem GapFree.session_of_mem (h : GapFree database) {entry : LogEntry}
    (hentry : entry ∈ database.log) : nextSeq database entry.sessionId ≠ none := by
  intro hnone
  have hentries := h.numbered entry.sessionId
  rw [hnone] at hentries
  have hmem : entry ∈ sessionEntries database entry.sessionId :=
    List.mem_filter.mpr ⟨hentry, by simp⟩
  rw [show sessionEntries database entry.sessionId = [] from hentries] at hmem
  exact nomatch hmem

/-- Two entries of a session with one number are one entry. -/
theorem GapFree.entry_unique (h : GapFree database) {first second : LogEntry}
    (hfirst : first ∈ database.log) (hsecond : second ∈ database.log)
    (hsession : first.sessionId = second.sessionId) (hseq : first.seq = second.seq) :
    first = second := by
  have hdistinct : ((sessionEntries database second.sessionId).map LogEntry.seq).Nodup :=
    (h.pairwise_seq second.sessionId).imp fun hlt ↦ hlt.ne
  have hmem : ∀ entry ∈ database.log, entry.sessionId = second.sessionId →
      entry ∈ sessionEntries database second.sessionId :=
    fun entry hentry hsame ↦ List.mem_filter.mpr ⟨hentry, by simpa using hsame⟩
  exact List.inj_on_of_nodup_map hdistinct (hmem first hfirst hsession) (hmem second hsecond rfl)
    hseq

/-- Two messages of a session with one number are one message. -/
theorem GapFree.message_unique (h : GapFree database) {first second : Uuid}
    {row other : ChatMessageRow} (hrow : messageRow database first = some row)
    (hother : messageRow database second = some other) (hsession : row.sessionId = other.sessionId)
    (hseq : row.seq = other.seq) : first = second := by
  have hfirst := (h.messages row.sessionId row.seq first).mpr ⟨row, hrow, rfl, rfl⟩
  have hsecond := (h.messages other.sessionId other.seq second).mpr ⟨other, hother, rfl, rfl⟩
  exact (LogEntry.message.inj (h.entry_unique hfirst hsecond hsession hseq)).2.2

/-- The events of a session have different numbers. -/
theorem GapFree.nodup_eventSeqs (h : GapFree database) (sessionId : Uuid) :
    ((sessionEvents database sessionId).map JobEvent.seq).Nodup := by
  have hseqs : (sessionSeqs database sessionId).Nodup :=
    (h.sessionSeqs_perm sessionId).nodup_iff.mpr List.nodup_range'
  exact hseqs.of_append_right

end Numbering

/-! ### What follows from the events -/

/-- An event in the log is one of the events of its job. -/
theorem mem_jobEventRows {database : Database} {sessionId : Uuid} {transition : JobEvent}
    (h : .event sessionId transition ∈ database.log) :
    (sessionId, transition) ∈ jobEventRows database transition.jobId :=
  List.mem_filterMap.mpr ⟨_, h, if_pos rfl⟩

/-- A job of a session has an event in its log. -/
theorem exists_event_of_jobRow {database : Database} {jobId : Uuid} {history : List Commit}
    {row : JobRow} {sessionId : Uuid} (h : Recounted jobId history database)
    (hrow : jobRow database jobId = some row) (hsession : row.sessionId = some sessionId) :
    ∃ transition, .event sessionId transition ∈ database.log := by
  obtain ⟨-, hlife, hevents⟩ := h
  rw [hrow] at hlife hevents
  simp only [EventsList, hsession] at hevents
  obtain ⟨hstates, hsessions⟩ := hevents
  have hqueued : .queued ∈ (jobEventRows database jobId).map fun event ↦ event.2.state := by
    rw [hstates]
    exact List.mem_of_head? hlife.head
  obtain ⟨⟨session, transition⟩, hevent, -⟩ := List.mem_map.mp hqueued
  obtain rfl : session = sessionId := hsessions _ hevent
  obtain ⟨entry, hentry, hsome⟩ := List.mem_filterMap.mp hevent
  cases entry with
  | message other seq messageId => cases hsome
  | event other found =>
    dsimp only at hsome
    split_ifs at hsome
    obtain ⟨rfl, rfl⟩ := Prod.mk.inj (Option.some.inj hsome)
    exact ⟨_, hentry⟩

/-- An event is of a job of its session. -/
theorem jobRow_of_event {database : Database} {history : List Commit} {sessionId : Uuid}
    {transition : JobEvent} (h : Recounted transition.jobId history database)
    (hentry : .event sessionId transition ∈ database.log) :
    ∃ row, jobRow database transition.jobId = some row ∧ row.sessionId = some sessionId := by
  have hmem := mem_jobEventRows hentry
  have hevents := h.events
  cases hrow : jobRow database transition.jobId with
  | none =>
    rw [hrow] at hevents
    rw [hevents.1] at hmem
    exact nomatch hmem
  | some row =>
    rw [hrow] at hevents
    refine ⟨row, rfl, ?_⟩
    cases hsession : row.sessionId with
    | none =>
      simp only [EventsList, hsession] at hevents
      rw [hevents] at hmem
      exact nomatch hmem
    | some other =>
      simp only [EventsList, hsession] at hevents
      rw [← hevents.2 _ hmem]

/-! ### The attempts of a row -/

/-- A job is inserted with an attempt, and keeps its limit. -/
theorem JobStep.maxAttempts_pos {now : Instant} {jobId : Uuid} {operation : Operation}
    {outcome : Outcome} {before after : Option JobRow}
    (hstep : JobStep now jobId operation outcome before after)
    (h : ∀ row, before = some row → 0 < row.maxAttempts) {new : JobRow} (hnew : after = some new) :
    0 < new.maxAttempts := by
  cases hstep with
  | unchanged => exact h new hnew
  | inserted request hattempts =>
    rw [← Option.some.inj hnew]
    exact Nat.pos_of_ne_zero hattempts
  | _ =>
    rw [← Option.some.inj hnew]
    have hbefore := h _ rfl
    exact hbefore

section Runs

variable {Backend : Type} [DecidableEq Backend] {history : List Commit} {system : System Backend}

theorem maxAttempts_pos_of_execution (h : Execution history system) (jobId : Uuid) (row : JobRow)
    (hrow : jobRow system.committed jobId = some row) : 0 < row.maxAttempts := by
  let Positive (database : Database) : Prop :=
    ∀ row, jobRow database jobId = some row → 0 < row.maxAttempts
  have hempty : Positive Database.empty := fun row hrow ↦ nomatch hrow
  have hpositive : Positive system.committed := by
    refine Execution.invariant hempty ?_ h
    intro call database outcome final hbefore hyields new hnew
    exact (Operation.program_stepsJob hyields jobId).1.maxAttempts_pos hbefore hnew
  exact hpositive row hrow

/-- A job's session has a counter, as the job's events are in the session's log. -/
theorem session_of_jobRow (h : Execution history system) {jobId sessionId : Uuid} {row : JobRow}
    (hrow : jobRow system.committed jobId = some row) (hsession : row.sessionId = some sessionId) :
    nextSeq system.committed sessionId ≠ none := by
  obtain ⟨transition, hevent⟩ :=
    exists_event_of_jobRow (recounted_of_execution h jobId) hrow hsession
  exact (gapFree_of_execution h).session_of_mem hevent

/-- Whatever runs beside each other and fails, every committed state satisfies every constraint that
the schema declares. -/
theorem constraints_hold (h : Execution history system) : Constrained system.committed := by
  have hgapFree := gapFree_of_execution h
  have hkeys := messageKeys_of_execution h
  have hindexed := indexed_of_execution h
  constructor
  · intro messageId row hrow
    exact hgapFree.session_of_mem ((hgapFree.messages _ _ messageId).mpr ⟨row, hrow, rfl, rfl⟩)
  · exact fun jobId row sessionId hrow hsession ↦ session_of_jobRow h hrow hsession
  · intro sessionId transition hevent
    exact hgapFree.session_of_mem hevent
  · intro sessionId transition hevent
    exact jobRow_of_event (recounted_of_execution h transition.jobId) hevent
  · exact fun first second row other hrow hother ↦ hgapFree.message_unique hrow hother
  · exact hgapFree.nodup_eventSeqs
  · exact hkeys.role
  · intro first second sessionId clientMsgId hfirst hsecond
    have hentry := (hkeys.index sessionId clientMsgId first).mpr hfirst
    exact Option.some.inj (hentry.symm.trans ((hkeys.index _ _ second).mpr hsecond))
  · exact fun first second sessionId key hfirst hsecond ↦ hindexed.unique hfirst hsecond
  · intro jobId row hrow
    have hshaped := (recounted_of_execution h jobId).shape row hrow
    exact not_iff_not.mp (hshaped.token.trans hshaped.deadline.symm)
  · exact fun jobId row hrow ↦ ⟨Nat.zero_le _, maxAttempts_pos_of_execution h jobId row hrow⟩

end Runs

/-- A session with a question, its reply, and a job that was enqueued for it. -/
theorem constraints_hold_asked : ∃ (history : List Commit) (system : System Unit),
    Execution history system ∧ system.committed.log.length = 3 ∧
      Constrained system.committed := by
  have hidle : Execution [] (RowLocking.System.idle Database.empty : System Unit) := .idle
  have hopened := hidle.serial () (show (Call.program ⟨0, .ensureSession ⟨7⟩⟩).execute _ =
    .ok (.unit, _) from rfl)
  have hasked := hopened.serial () (show (Call.program
    ⟨1, .recordUserMessage ⟨7⟩ "key" "why?" ⟨2⟩⟩).execute _ = .ok (.recorded _, _) from rfl)
  have hanswered := hasked.serial () (show (Call.program
    ⟨2, .startAssistantMessage ⟨7⟩ ⟨3⟩⟩).execute _ = .ok (.opened _, _) from rfl)
  have hinserted := hanswered.serial () (show (Call.program
    ⟨3, .insertOrGet ⟨9⟩ ⟨"noop", .nil, some ⟨7⟩, "key", 1, 0⟩⟩).execute _ =
      .ok (.enqueued _ true, _) from rfl)
  exact ⟨_, _, hinserted, rfl, constraints_hold hinserted⟩

end Abacus.Postgres
