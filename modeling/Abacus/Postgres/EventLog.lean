import Abacus.Postgres.RowShape
import Abacus.Postgres.GapFree
import Mathlib.Data.List.Chain

/-!
# The event log is the job's history

`jobHistory` reads off a run the states that the calls of the run put a job into, one for each
transition. `Life` is what holds of a job's history and its row: the history starts at `queued`,
follows the edges of the state diagram (`Edge`), ends at the row's state, and has one `running` for
each attempt. One step of a job preserves it (`JobStep.life`), and so every run does.

`event_log_is_history` puts this beside the log: the event rows of a job with a session list its
history in the order of their numbers, and a job without a session has none.
-/

set_option autoImplicit false
set_option relaxedAutoImplicit false

namespace Abacus.Postgres

open RowLocking

/-! ### The state diagram -/

/-- An edge of the state diagram. -/
def Edge (source target : JobState) : Prop :=
  (source.waiting = true ∧ (target = .running ∨ target = .cancelled)) ∨
    (source = .running ∧ target ≠ .queued)

/-- Nothing leaves a terminal state. -/
theorem Edge.not_terminal {source target : JobState} (h : Edge source target) :
    source.terminal = false := by
  rcases h with ⟨hwaiting, -⟩ | ⟨rfl, -⟩
  · rcases source.waiting_or_running_or_terminal with hcase | hcase | hcase
    · exact hcase.2.2
    · exact hcase.2.2
    · rw [hcase.1] at hwaiting
      exact absurd hwaiting (by simp)
  · rfl

/-- Along the diagram only the last state can be terminal. -/
theorem not_terminal_of_mem_dropLast {states : List JobState} (h : states.IsChain Edge)
    {state : JobState} (hstate : state ∈ states.dropLast) : state.terminal = false := by
  induction h with
  | nil => simp at hstate
  | singleton first => simp at hstate
  | cons_cons hedge _ ih =>
    rw [List.dropLast_cons_cons, List.mem_cons] at hstate
    rcases hstate with rfl | hstate
    · exact hedge.not_terminal
    · exact ih hstate

/-! ### The life of a job -/

/-- What holds of the states a job has been put into and its row. -/
structure Life (states : List JobState) (row : JobRow) : Prop where
  head : states.head? = some .queued
  chain : states.IsChain Edge
  last : states.getLast? = some row.state
  attempts : states.count .running = row.attempts

/-- A job that does not exist has no history. -/
def HasLife (states : List JobState) : Option JobRow → Prop
  | some row => Life states row
  | none => states = []

/-- A transition along an edge extends the life of a job. -/
theorem Life.append {states : List JobState} {row new : JobRow} (h : Life states row)
    (hedge : Edge row.state new.state)
    (hattempts : new.attempts = row.attempts + if new.state = .running then 1 else 0) :
    Life (states ++ [new.state]) new where
  head := by rw [List.head?_append, h.head, Option.some_or]
  chain := by
    refine h.chain.append (.singleton _) fun last hlast first hfirst ↦ ?_
    rw [h.last, Option.mem_some_iff] at hlast
    rw [List.head?_cons, Option.mem_some_iff] at hfirst
    rw [← hlast, ← hfirst]
    exact hedge
  last := List.getLast?_concat
  attempts := by
    rw [List.count_append, h.attempts, hattempts]
    by_cases hrunning : new.state = .running <;> simp [hrunning]

/-- A change of other columns keeps the life of a job. -/
theorem Life.of_eq {states : List JobState} {row new : JobRow} (h : Life states row)
    (hstate : new.state = row.state) (hattempts : new.attempts = row.attempts) :
    Life states new where
  head := h.head
  chain := h.chain
  last := hstate ▸ h.last
  attempts := hattempts ▸ h.attempts

/-- One step of a job preserves its life, the history growing by the new state when the step is a
transition. -/
theorem JobStep.life {now : Instant} {jobId : Uuid} {operation : Operation} {outcome : Outcome}
    {before after : Option JobRow} (hstep : JobStep now jobId operation outcome before after)
    {states : List JobState} (hshape : HasShape before) (h : HasLife states before) :
    HasLife (states ++ if operation.moves jobId before after outcome then
      (after.map JobRow.state).toList else []) after := by
  cases hstep with
  | unchanged row hmoves =>
    rw [hmoves]
    simpa using h
  | inserted request hattempts =>
    obtain rfl : states = [] := h
    simp only [Operation.moves, decide_true, Bool.and_true]
    exact ⟨rfl, .singleton _, rfl, rfl⟩
  | published row =>
    rw [show (Operation.markPublished jobId).moves _ _ _ _ = false from rfl]
    simp only [Bool.false_eq_true, if_false, List.append_nil]
    exact Life.of_eq h rfl rfl
  | cancelled row outcome hwaiting =>
    have hcancelled := cancelled_state_of_waiting hwaiting
    simp only [Operation.moves, decide_true, Option.any_some, hwaiting, hcancelled,
      beq_self_eq_true,
      Bool.and_self, if_true]
    refine Life.append h ?_ ?_
    · rw [hcancelled]
      exact Or.inl ⟨hwaiting, Or.inr rfl⟩
    · rw [hcancelled]
      rfl
  | flagged row outcome hrunning =>
    have hmoves : (Operation.cancel jobId).moves jobId (some row) (some row.cancelled) outcome =
        false := by
      simp [Operation.moves, hrunning, JobState.waiting]
    rw [hmoves]
    simp only [Bool.false_eq_true, if_false, List.append_nil]
    exact Life.of_eq h (by simp [JobRow.cancelled, hrunning]) rfl
  | claimed row leaseId owner lease hreservable =>
    simp only [Operation.moves, Option.isSome_some, decide_true, Bool.and_self, if_true]
    refine Life.append h ?_ rfl
    rcases waiting_or_running_of_reservable hreservable with hwaiting | hrunning
    · exact Or.inl ⟨hwaiting, Or.inl rfl⟩
    · exact Or.inr ⟨hrunning, by simp [JobRow.claimed]⟩
  | retired row scan ids hmem hretirable =>
    have hne := retired_state_ne row
    simp only [Operation.moves, hmem, decide_true, if_true]
    refine Life.append h ?_ ?_
    · exact Or.inr ⟨running_of_retirable hretirable, hne.2⟩
    · rw [if_neg hne.1]
      rfl
  | extended row lease duration hjob hfenced =>
    rw [show (Operation.extend lease duration).moves _ _ _ _ = false from rfl]
    simp only [Bool.false_eq_true, if_false, List.append_nil]
    exact Life.of_eq h rfl rfl
  | acked row lease resultRef hjob hfenced =>
    simp only [Operation.moves, hjob, decide_true, if_true]
    refine Life.append h ?_ rfl
    exact Or.inr ⟨(hshape row rfl).running_of_fenced hfenced, by simp [JobRow.acked]⟩
  | nacked row lease error retryIn hjob hfenced =>
    have hne := nackState_ne row
    simp only [Operation.moves, hjob, decide_true, if_true]
    refine Life.append h ?_ ?_
    · exact Or.inr ⟨(hshape row rfl).running_of_fenced hfenced, hne.2⟩
    · rw [show (row.nacked now error retryIn).state = row.nackState from rfl, if_neg hne.1]
      rfl

/-- A job keeps its session. -/
theorem JobStep.sessionId_eq {now : Instant} {jobId : Uuid} {operation : Operation}
    {outcome : Outcome} {row : JobRow} {after : Option JobRow}
    (hstep : JobStep now jobId operation outcome (some row) after) :
    ∃ new, after = some new ∧ new.sessionId = row.sessionId := by
  cases hstep <;> exact ⟨_, rfl, rfl⟩

/-- A call that is no transition of a job that does not exist does not make it. -/
theorem JobStep.eq_none {now : Instant} {jobId : Uuid} {operation : Operation} {outcome : Outcome}
    {after : Option JobRow} (hstep : JobStep now jobId operation outcome none after)
    (hmoves : ¬ operation.moves jobId none after outcome = true) : after = none := by
  cases hstep with
  | unchanged => rfl
  | inserted request hattempts => exact absurd (by simp [Operation.moves]) hmoves

/-! ### The history of a run -/

/-- The state a commit put a job into, if the call was a transition of the job. -/
def Commit.jobState (jobId : Uuid) (commit : Commit) : List JobState :=
  if commit.label.operation.moves jobId (jobRow commit.before jobId) (jobRow commit.after jobId)
      commit.result then
    ((jobRow commit.after jobId).map JobRow.state).toList
  else []

/-- The states a job was put into over a run: one for each insertion, successful claim, ack, nack,
retirement and cancel of a job that was waiting, in the order of the commits. -/
def jobHistory (jobId : Uuid) (history : List Commit) : List JobState :=
  history.flatMap (Commit.jobState jobId)

/-- The event rows of a job beside its history: they list it, in the job's session. -/
def EventsList (events : List (Uuid × JobEvent)) (states : List JobState) : Option JobRow → Prop
  | some row =>
    match row.sessionId with
    | some sessionId =>
      events.map (fun event ↦ event.2.state) = states ∧ ∀ event ∈ events, event.1 = sessionId
    | none => events = []
  | none => events = [] ∧ states = []

/-- Appending what one transition logs keeps the events beside the history. -/
theorem EventsList.append {events : List (Uuid × JobEvent)} {states : List JobState}
    {jobId : Uuid} {before : Option JobRow} {new : JobRow} (seq : ℕ)
    (h : EventsList events states before)
    (hsession : ∀ row, before = some row → new.sessionId = row.sessionId) :
    EventsList (events ++ newEventRows jobId (some new) seq) (states ++ [new.state])
      (some new) := by
  cases before with
  | none =>
    obtain ⟨rfl, rfl⟩ := h
    cases hnew : new.sessionId <;> simp [EventsList, newEventRows, hnew]
  | some row =>
    have hsame := hsession row rfl
    cases hrow : row.sessionId with
    | none =>
      rw [hrow] at hsame
      simp only [EventsList, hrow] at h
      simp [EventsList, newEventRows, hsame, h]
    | some sessionId =>
      rw [hrow] at hsame
      simp only [EventsList, hrow] at h
      obtain ⟨hstates, hsessions⟩ := h
      simp only [EventsList, newEventRows, hsame, Option.map_some, Option.toList_some,
        List.map_append, hstates, List.map_cons, List.map_nil, List.mem_append, List.mem_singleton,
        true_and]
      rintro event (hold | rfl)
      · exact hsessions event hold
      · rfl

/-- A commit keeps the events of a job beside its history. -/
theorem StepsJob.eventsList {now : Instant} {jobId : Uuid} {operation : Operation}
    {outcome : Outcome} {before after : Database} {states : List JobState}
    (hstep : StepsJob now jobId operation outcome before after)
    (h : EventsList (jobEventRows before jobId) states (jobRow before jobId)) :
    EventsList (jobEventRows after jobId)
      (states ++ Commit.jobState jobId ⟨⟨now, operation⟩, outcome, before, after⟩)
      (jobRow after jobId) := by
  obtain ⟨hjob, seq, hevents⟩ := hstep
  rw [hevents, Commit.jobState]
  split
  · cases hafter : jobRow after jobId with
    | none =>
      cases hbefore : jobRow before jobId with
      | none =>
        rw [hbefore] at h
        obtain ⟨hnone, rfl⟩ := h
        simp [EventsList, hnone, newEventRows]
      | some row =>
        rw [hbefore, hafter] at hjob
        obtain ⟨new, hnew, -⟩ := hjob.sessionId_eq
        exact absurd hnew (by simp)
    | some new =>
      refine h.append seq fun row hbefore ↦ ?_
      rw [hbefore, hafter] at hjob
      obtain ⟨found, hfound, hsession⟩ := hjob.sessionId_eq
      rw [Option.some.inj hfound]
      exact hsession
  · rename_i hmoves
    rw [List.append_nil, List.append_nil]
    cases hbefore : jobRow before jobId with
    | none =>
      rw [hbefore] at hjob hmoves h
      rw [hjob.eq_none hmoves]
      exact h
    | some row =>
      rw [hbefore] at hjob h
      obtain ⟨new, hnew, hsession⟩ := hjob.sessionId_eq
      rw [hnew]
      simpa only [EventsList, hsession] using h

/-- What a run has made of a job: its history has a life and its events list it. -/
structure Recounted (jobId : Uuid) (history : List Commit) (database : Database) : Prop where
  shape : HasShape (jobRow database jobId)
  life : HasLife (jobHistory jobId history) (jobRow database jobId)
  events : EventsList (jobEventRows database jobId) (jobHistory jobId history)
    (jobRow database jobId)

/-- One more commit is one more step of the job. -/
theorem Recounted.commit {jobId : Uuid} {history : List Commit} {commit : Commit}
    (h : Recounted jobId history commit.before)
    (hyields : commit.label.program.Yields commit.before commit.result commit.after) :
    Recounted jobId (history ++ [commit]) commit.after := by
  have hsteps := Operation.program_stepsJob hyields jobId
  have hhistory : jobHistory jobId (history ++ [commit]) =
      jobHistory jobId history ++ Commit.jobState jobId commit := by
    simp [jobHistory]
  refine ⟨hsteps.1.shaped h.shape, ?_, ?_⟩
  · rw [hhistory]
    exact hsteps.1.life h.shape h.life
  · rw [hhistory]
    exact hsteps.eventsList h.events

theorem recounted_of_execution {Backend : Type} [DecidableEq Backend] {history : List Commit}
    {system : System Backend} (h : Execution history system) (jobId : Uuid) :
    Recounted jobId history system.committed := by
  have hstart : Recounted jobId [] Database.empty :=
    ⟨fun _ hfound ↦ absurd hfound (by simp [jobRow, Database.empty]), rfl, rfl, rfl⟩
  exact Execution.history_invariant hstart (fun _ _ hheld hyields ↦ hheld.commit hyields) h

/-! ### The order of the numbers -/

/-- The event rows of a job that are all in one session are among the entries of that session, in
the same order. -/
theorem jobEventRows_sublist {database : Database} {jobId sessionId : Uuid}
    (h : ∀ event ∈ jobEventRows database jobId, event.1 = sessionId) :
    ((jobEventRows database jobId).map fun event ↦ event.2.seq).Sublist
      ((sessionEntries database sessionId).map LogEntry.seq) := by
  rw [jobEventRows] at h ⊢
  rw [sessionEntries]
  generalize database.log = entries at h ⊢
  induction entries with
  | nil => exact .slnil
  | cons entry entries ih =>
    cases entry with
    | message session seq messageId =>
      have htail := ih (by simpa using h)
      by_cases hsession : session = sessionId
      · simpa [hsession] using htail.cons seq
      · simpa [hsession] using htail
    | event session transition =>
      by_cases hjob : transition.jobId = jobId
      · simp only [List.filterMap_cons, hjob, if_true, List.mem_cons, forall_eq_or_imp] at h
        obtain ⟨rfl, hrest⟩ := h
        have htail := ih (by simpa using hrest)
        simpa [hjob] using htail.cons_cons transition.seq
      · have htail := ih (by simpa [hjob] using h)
        by_cases hsession : session = sessionId
        · simpa [hsession, hjob] using htail.cons transition.seq
        · simpa [hsession, hjob] using htail

/-- The entries of a session carry increasing numbers. -/
theorem GapFree.pairwise_seq {database : Database} (h : GapFree database) (sessionId : Uuid) :
    ((sessionEntries database sessionId).map LogEntry.seq).Pairwise (· < ·) := by
  have hentries := h.numbered sessionId
  cases hnext : nextSeq database sessionId with
  | none =>
    rw [hnext] at hentries
    rw [show sessionEntries database sessionId = [] from hentries]
    exact .nil
  | some next =>
    rw [hnext] at hentries
    rw [hentries.2]
    exact List.pairwise_lt_range'

/-- The event log is the job's history. In every committed state of every run, the event rows of a
job with a session are rows of that session and, in the order of their numbers, list exactly the
states the calls of the run put the job into: one for each insertion, successful claim, ack, nack,
retirement and cancel of a waiting job, and none for any other call (`Operation.moves`). Hence the
last is the row's state, `running` occurs once for each attempt, the first is `queued`, each follows
the one before it along an edge of the state diagram, and only the last can be terminal. A job
without a session has no events. -/
theorem event_log_is_history {Backend : Type} [DecidableEq Backend] {history : List Commit}
    {system : System Backend} (h : Execution history system) (jobId : Uuid) (row : JobRow)
    (hrow : jobRow system.committed jobId = some row) :
    (row.sessionId = none → jobEventRows system.committed jobId = []) ∧
    ∀ sessionId, row.sessionId = some sessionId →
      ((jobEventRows system.committed jobId).map fun event ↦ event.2.seq).Pairwise (· < ·) ∧
      (∀ event ∈ jobEventRows system.committed jobId, event.1 = sessionId) ∧
      ∀ states, states = (jobEventRows system.committed jobId).map (fun event ↦ event.2.state) →
        states = jobHistory jobId history ∧
        states.head? = some .queued ∧
        states.getLast? = some row.state ∧
        states.count .running = row.attempts ∧
        (∀ state ∈ states.dropLast, state.terminal = false) ∧
        states.IsChain Edge := by
  obtain ⟨-, hlife, hevents⟩ := recounted_of_execution h jobId
  rw [hrow] at hlife hevents
  refine ⟨fun hnone ↦ ?_, fun sessionId hsession ↦ ?_⟩
  · simpa only [EventsList, hnone] using hevents
  · simp only [EventsList, hsession] at hevents
    obtain ⟨hstates, hsessions⟩ := hevents
    refine ⟨?_, hsessions, fun states heq ↦ ?_⟩
    · exact ((gapFree_of_execution h).pairwise_seq sessionId).sublist
        (jobEventRows_sublist hsessions)
    · obtain rfl : states = jobHistory jobId history := heq.trans hstates
      exact ⟨rfl, hlife.head, hlife.last, hlife.attempts,
        fun state ↦ not_terminal_of_mem_dropLast hlife.chain, hlife.chain⟩

/-- A job inserted into an open session and cancelled: its history is `queued`, `cancelled`. -/
theorem event_log_is_history_cancelled :
    ∃ (history : List Commit) (system : System Unit), Execution history system ∧
      jobHistory ⟨9⟩ history = [.queued, .cancelled] ∧
      ((jobEventRows system.committed ⟨9⟩).map fun event ↦ event.2.state) =
        jobHistory ⟨9⟩ history := by
  have hidle : Execution [] (RowLocking.System.idle Database.empty : System Unit) := .idle
  have hopened := hidle.serial () (show (Call.program ⟨0, .ensureSession ⟨7⟩⟩).execute _ =
    .ok (.unit, _) from rfl)
  have hinserted := hopened.serial () (show (Call.program
    ⟨1, .insertOrGet ⟨9⟩ ⟨"noop", .nil, some ⟨7⟩, "key", 1, 0⟩⟩).execute _ =
      .ok (.enqueued _ true, _) from rfl)
  have hcancelled := hinserted.serial () (show (Call.program ⟨2, .cancel ⟨9⟩⟩).execute _ =
    .ok (.found _, _) from rfl)
  exact ⟨_, _, hcancelled, rfl,
    (((event_log_is_history hcancelled ⟨9⟩ _ rfl).2 ⟨7⟩ rfl).2.2 _ rfl).1⟩

end Abacus.Postgres
