import Abacus.Postgres.JobTransition
import Abacus.Postgres.Operation
import Abacus.RowLocking.Triple

/-!
# One gap-free sequence per session

A session's log is numbered `1, 2, 3, …` in the order of the commits, whatever transactions run
beside each other. `Numbered` says so of a committed state; it follows from the counter because a
transaction that has taken a number holds the session's row, so that the number is used or rolled
back before another is taken. Within such a transaction the state is `Allocated`: the counter is
one ahead of the log.

`MessagesLogged` ties the entries of the log to the rows of `chat_messages`, so that the statement
for readers, `session_log_gap_free`, is about the rows that `log_since` selects.
-/

set_option autoImplicit false
set_option relaxedAutoImplicit false

namespace Abacus.Postgres

open RowLocking

/-! ### The numbering of a committed state -/

/-- The entries of a session, in the order they were committed. -/
def sessionEntries (database : Database) (sessionId : Uuid) : List LogEntry :=
  database.log.filter fun entry ↦ entry.sessionId = sessionId

/-- Entries numbered from 1 up to the number before `next`; without a counter there are none. -/
def NumberedTo (next : Option ℕ) (entries : List LogEntry) : Prop :=
  match next with
  | some next => 1 ≤ next ∧ entries.map LogEntry.seq = List.range' 1 (next - 1)
  | none => entries = []

/-- Every session's log is numbered up to its counter. -/
def Numbered (database : Database) : Prop :=
  ∀ sessionId, NumberedTo (nextSeq database sessionId) (sessionEntries database sessionId)

/-- The state within a transaction that has taken a number and not used it yet. -/
structure Allocated (sessionId : Uuid) (seq : ℕ) (database : Database) : Prop where
  counter : nextSeq database sessionId = some (seq + 1)
  entries : NumberedTo (some seq) (sessionEntries database sessionId)
  others : ∀ other, other ≠ sessionId →
    NumberedTo (nextSeq database other) (sessionEntries database other)

/-- The entries of the log that are messages are exactly the rows of `chat_messages`. -/
def MessagesLogged (database : Database) : Prop :=
  ∀ sessionId seq messageId, .message sessionId seq messageId ∈ database.log ↔
    ∃ row, messageRow database messageId = some row ∧ row.sessionId = sessionId ∧ row.seq = seq

theorem sessionEntries_insert (database : Database) (entry : LogEntry) (sessionId : Uuid) :
    sessionEntries (database.insert entry) sessionId = sessionEntries database sessionId ++
      if entry.sessionId = sessionId then [entry] else [] := by
  by_cases hsession : entry.sessionId = sessionId <;> simp [sessionEntries, hsession]

/-- Using the number that was taken completes the log again. -/
theorem Allocated.insert {sessionId : Uuid} {seq : ℕ} {database : Database} {entry : LogEntry}
    (h : Allocated sessionId seq database) (hsession : entry.sessionId = sessionId)
    (hseq : entry.seq = seq) : Numbered (database.insert entry) := by
  intro other
  rw [sessionEntries_insert]
  change NumberedTo (nextSeq database other) _
  by_cases hother : other = sessionId
  · subst hother
    obtain ⟨hpos, hentries⟩ := h.entries
    rw [h.counter, if_pos hsession]
    refine ⟨by omega, ?_⟩
    obtain ⟨previous, rfl⟩ : ∃ previous, seq = previous + 1 := ⟨seq - 1, by omega⟩
    rw [List.map_append, hentries, List.map_singleton, hseq]
    simp only [Nat.add_sub_cancel]
    rw [List.range'_1_concat, Nat.add_comm 1 previous]
  · have hne : entry.sessionId ≠ other := hsession ▸ Ne.symm hother
    rw [if_neg hne, List.append_nil]
    exact h.others other hother

/-! ### The keys the numbering does not depend on -/

/-- A key of neither the counters nor the messages. -/
def Unnumbered (key : RowKey) : Prop :=
  (∀ sessionId, RowKey.chatSession sessionId ≠ key) ∧
    ∀ messageId, RowKey.chatMessage messageId ≠ key

theorem nextSeq_set_of_ne (database : Database) {key : RowKey} {sessionId : Uuid} (row : Row key)
    (h : .chatSession sessionId ≠ key) :
    nextSeq (database.set key row) sessionId = nextSeq database sessionId :=
  Database.set_row_of_ne database row h

theorem messageRow_insert (database : Database) (entry : LogEntry) (messageId : Uuid) :
    messageRow (database.insert entry) messageId = messageRow database messageId :=
  rfl

theorem messageRow_set_of_ne (database : Database) {key : RowKey} {messageId : Uuid}
    (row : Row key) (h : .chatMessage messageId ≠ key) :
    messageRow (database.set key row) messageId = messageRow database messageId :=
  Database.set_row_of_ne database row h

theorem Numbered.set {database : Database} (h : Numbered database) {key : RowKey} (row : Row key)
    (hkey : ∀ sessionId, RowKey.chatSession sessionId ≠ key) : Numbered (database.set key row) := by
  intro sessionId
  rw [nextSeq_set_of_ne database row (hkey sessionId)]
  exact h sessionId

theorem Allocated.set {sessionId : Uuid} {seq : ℕ} {database : Database}
    (h : Allocated sessionId seq database) {key : RowKey} (row : Row key)
    (hkey : ∀ sessionId, RowKey.chatSession sessionId ≠ key) :
    Allocated sessionId seq (database.set key row) where
  counter := (nextSeq_set_of_ne database row (hkey sessionId)).trans h.counter
  entries := h.entries
  others := by
    intro other hother
    rw [nextSeq_set_of_ne database row (hkey other)]
    exact h.others other hother

theorem MessagesLogged.set {database : Database} (h : MessagesLogged database) {key : RowKey}
    (row : Row key) (hkey : ∀ messageId, RowKey.chatMessage messageId ≠ key) :
    MessagesLogged (database.set key row) := by
  intro sessionId seq messageId
  rw [messageRow_set_of_ne database row (hkey messageId)]
  exact h sessionId seq messageId

/-! ### What the transactions preserve -/

/-- What every committed state satisfies: the log is numbered and its messages are the rows. -/
structure GapFree (database : Database) : Prop where
  numbered : Numbered database
  messages : MessagesLogged database

theorem GapFree.set {database : Database} (h : GapFree database) {key : RowKey} (row : Row key)
    (hkey : Unnumbered key) : GapFree (database.set key row) :=
  ⟨h.numbered.set row hkey.1, h.messages.set row hkey.2⟩

/-- What holds within a transaction that has taken a number. -/
structure Taken (sessionId : Uuid) (seq : ℕ) (database : Database) : Prop where
  allocated : Allocated sessionId seq database
  messages : MessagesLogged database

theorem Taken.set {sessionId : Uuid} {seq : ℕ} {database : Database}
    (h : Taken sessionId seq database) {key : RowKey} (row : Row key) (hkey : Unnumbered key) :
    Taken sessionId seq (database.set key row) :=
  ⟨h.allocated.set row hkey.1, h.messages.set row hkey.2⟩

/-- A program that preserves the numbering. -/
def KeepsGapFree {A : Type} (program : Sql A) : Prop :=
  Triple GapFree program fun _ ↦ GapFree

/-- Taking a number leaves the counter one ahead of the log. -/
theorem allocateSeq_taken (sessionId : Uuid) :
    Triple GapFree (allocateSeq sessionId) fun seq ↦ Taken sessionId seq := by
  intro database seq after h hyields
  obtain ⟨hnext, rfl⟩ := allocateSeq_yields hyields
  have hentries := h.numbered sessionId
  rw [hnext] at hentries
  refine ⟨⟨?_, hentries, ?_⟩, h.messages.set _ (by simp)⟩
  · exact Database.set_row_self database (.chatSession sessionId) (some (seq + 1))
  · intro other hother
    rw [nextSeq_set_of_ne database _ (by simpa using hother)]
    exact h.numbered other

theorem recordEvent_keepsGapFree (jobId : Uuid) (row : JobRow) :
    KeepsGapFree (recordEvent jobId row) := by
  unfold recordEvent
  split
  · exact Triple.commit fun _ h ↦ h
  · rename_i sessionId _
    refine Triple.bind (allocateSeq_taken sessionId) fun seq ↦ ?_
    have hinsert : ∀ database, Taken sessionId seq database →
        GapFree (database.insert (.event sessionId ⟨seq, jobId, row.state⟩)) := by
      intro database h
      refine ⟨h.allocated.insert rfl rfl, fun session number messageId ↦ ?_⟩
      rw [messageRow_insert]
      simpa using h.messages session number messageId
    exact Triple.insert hinsert (Triple.commit fun _ h ↦ h)

/-- The message row and its entry use the number that was taken. -/
theorem insertMessage_gapFree (messageId : Uuid) (row : ChatMessageRow) :
    Triple (Taken row.sessionId row.seq) (insertMessage messageId row) fun _ ↦ GapFree := by
  rintro database stored after h (⟨entry, hentry, hinsert⟩ | hnone)
  · obtain ⟨hfree, rfl⟩ := ifAbsent_eq_some hentry
    obtain ⟨-, rfl⟩ := hinsert
    have hallocated : Allocated row.sessionId row.seq
        (database.set (.chatMessage messageId) (some row)) := h.allocated.set _ (by simp)
    refine ⟨hallocated.insert rfl rfl, ?_⟩
    intro sessionId seq other
    change _ ∈ database.log ++ [_] ↔
      ∃ found, messageRow (database.set (.chatMessage messageId) (some row)) other = some found ∧ _
    rw [List.mem_append, List.mem_singleton, h.messages sessionId seq other]
    by_cases hother : other = messageId
    · subst hother
      have hself : messageRow (database.set (.chatMessage other) (some row)) other = some row :=
        Database.set_row_self database (.chatMessage other) (some row)
      have habsent : messageRow database other = none := hfree
      simp [hself, habsent, eq_comm]
    · rw [messageRow_set_of_ne database _ (by simpa using hother)]
      simp [hother]
  · exact hnone.elim

theorem updateJob_keepsGapFree (jobId : Uuid) (set : JobRow → Option JobRow) :
    KeepsGapFree (updateJob jobId set) :=
  Triple.update_frame (fun _ row h ↦ h.set row ⟨by simp, by simp⟩) fun _ ↦ Triple.commit fun _ h ↦ h

theorem retireRows_keepsGapFree (now : Instant) (scan : List Uuid) :
    KeepsGapFree (retireRows now scan) := by
  induction scan with
  | nil => exact Triple.commit fun _ h ↦ h
  | cons head scan ih =>
    exact Triple.bind (updateJob_keepsGapFree head _) fun _ ↦
      Triple.bind ih fun _ ↦ Triple.commit fun _ h ↦ h

theorem recordEvents_keepsGapFree (rows : List (Uuid × JobRow)) :
    KeepsGapFree (recordEvents rows) := by
  induction rows with
  | nil => exact Triple.commit fun _ h ↦ h
  | cons head rows ih => exact Triple.bind (recordEvent_keepsGapFree head.1 head.2) fun _ ↦ ih

/-- The update of one job and whatever the method does with the row it returned. -/
theorem KeepsGapFree.updateJob {A : Type} {jobId : Uuid} {set : JobRow → Option JobRow}
    {rest : Option JobRow → Sql A} (hrest : ∀ row, KeepsGapFree (rest row)) :
    KeepsGapFree (Postgres.updateJob jobId set >>= rest) :=
  Triple.bind (updateJob_keepsGapFree jobId set) hrest

/-- An event recorded before a commit. -/
theorem KeepsGapFree.recordEvent {A : Type} (jobId : Uuid) (row : JobRow) (result : A) :
    KeepsGapFree (Postgres.recordEvent jobId row >>= fun _ ↦ .commit result) :=
  Triple.bind (recordEvent_keepsGapFree jobId row) fun _ ↦ Triple.commit fun _ h ↦ h

theorem KeepsGapFree.commit {A : Type} (result : A) : KeepsGapFree (.commit result) :=
  Triple.commit fun _ h ↦ h

theorem KeepsGapFree.raise {A : Type} (error : StoreError) : KeepsGapFree (.raise error : Sql A) :=
  Triple.raise error

theorem KeepsGapFree.select {A : Type} {next : Database → Sql A}
    (h : ∀ snapshot, KeepsGapFree (next snapshot)) : KeepsGapFree (.select next) :=
  Triple.select h

theorem logSince_keepsGapFree (sessionId : Uuid) (afterSeq limit : ℕ) :
    KeepsGapFree (logSince sessionId afterSeq limit) :=
  Triple.readOnly (logSince_readOnly sessionId afterSeq limit)

theorem getJob_keepsGapFree (jobId : Uuid) : KeepsGapFree (getJob jobId) :=
  .select fun _ ↦ .commit _

theorem insertOrGet_keepsGapFree (now : Instant) (jobId : Uuid) (request : JobRequest) :
    KeepsGapFree (insertOrGet now jobId request) := by
  unfold insertOrGet
  split
  · exact .raise _
  · refine Triple.update_frame (fun _ row h ↦ h.set row ⟨by simp, by simp⟩) fun entry ↦ ?_
    cases entry with
    | some _ =>
      refine Triple.update_frame (fun _ row h ↦ h.set row ⟨by simp, by simp⟩) fun inserted ↦ ?_
      cases inserted with
      | some _ => exact KeepsGapFree.recordEvent jobId _ _
      | none => exact .raise _
    | none =>
      refine KeepsGapFree.select fun snapshot ↦ ?_
      split
      · split
        · exact KeepsGapFree.commit _
        · exact .raise _
      · exact .raise _

theorem cancel_keepsGapFree (jobId : Uuid) : KeepsGapFree (cancel jobId) := by
  refine .updateJob fun row ↦ ?_
  cases row with
  | some row =>
    by_cases hstate : row.state = .running
    · simp only [hstate, ne_eq, not_true_eq_false, if_false]
      exact .commit _
    · simp only [hstate, ne_eq, not_false_eq_true, if_true]
      exact .recordEvent jobId row _
  | none => exact getJob_keepsGapFree jobId

/-- The shape of `claim`, `ack` and `nack`: update the row, record the event, return, and otherwise
write nothing more. -/
theorem KeepsGapFree.transition {A : Type} {jobId : Uuid} {set : JobRow → Option JobRow}
    {result : JobRow → A} {otherwise : Sql A} (h : KeepsGapFree otherwise) :
    KeepsGapFree (Postgres.updateJob jobId set >>= fun
      | some row => Postgres.recordEvent jobId row >>= fun _ ↦ .commit (result row)
      | none => otherwise) := by
  refine .updateJob fun row ↦ ?_
  cases row with
  | some row => exact .recordEvent jobId row _
  | none => exact h

theorem ensureSession_keepsGapFree (sessionId : Uuid) : KeepsGapFree (ensureSession sessionId) := by
  rintro database value after h (⟨created, hcreated, -, rfl⟩ | ⟨-, rfl⟩)
  · obtain ⟨habsent, rfl⟩ := ifAbsent_eq_some hcreated
    refine ⟨fun other ↦ ?_, h.messages.set _ (by simp)⟩
    by_cases hother : other = sessionId
    · subst hother
      have hnone : nextSeq database other = none := habsent
      have hself : nextSeq (database.set (.chatSession other) (some 1)) other = some 1 :=
        Database.set_row_self database (.chatSession other) (some 1)
      have hentries := h.numbered other
      rw [hnone] at hentries
      rw [hself]
      refine ⟨Nat.le_refl 1, ?_⟩
      change (sessionEntries database other).map LogEntry.seq = _
      rw [show sessionEntries database other = [] from hentries]
      rfl
    · rw [nextSeq_set_of_ne database _ (by simpa using hother)]
      exact h.numbered other
  · exact h

theorem recordUserMessage_keepsGapFree (sessionId : Uuid) (clientMsgId text : String)
    (messageId : Uuid) :
    KeepsGapFree (recordUserMessage sessionId clientMsgId text messageId) := by
  refine Triple.bind (allocateSeq_taken sessionId) fun seq ↦ ?_
  refine Triple.update_frame (fun _ row h ↦ h.set row ⟨by simp, by simp⟩) fun entry ↦ ?_
  cases entry with
  | some _ =>
    exact Triple.bind (insertMessage_gapFree messageId
      ⟨sessionId, seq, .user, .complete, text, some clientMsgId⟩) fun _ ↦ Triple.commit fun _ h ↦ h
  | none => exact Triple.raise _

theorem byClientMsgId_keepsGapFree (sessionId : Uuid) (clientMsgId : String) :
    KeepsGapFree (byClientMsgId sessionId clientMsgId) := by
  refine .select fun snapshot ↦ ?_
  split
  · split
    · exact .commit _
    · exact .raise _
  · exact .raise _

theorem startAssistantMessage_keepsGapFree (sessionId messageId : Uuid) :
    KeepsGapFree (startAssistantMessage sessionId messageId) :=
  Triple.bind (allocateSeq_taken sessionId) fun seq ↦
    insertMessage_gapFree messageId ⟨sessionId, seq, .assistant, .streaming, "", none⟩

/-- Finishing a message keeps its number. -/
theorem finishMessage_keepsGapFree (messageId : Uuid) (status : Status) (text : Option String) :
    KeepsGapFree (finishMessage messageId status text) := by
  rintro database value after h (⟨finished, hfinished, -, rfl⟩ | ⟨-, rfl⟩)
  · obtain ⟨row, hrow, rfl⟩ := Option.map_eq_some_iff.mp hfinished
    refine ⟨h.numbered.set _ (by simp), fun sessionId seq other ↦ ?_⟩
    change .message sessionId seq other ∈ database.log ↔ _
    rw [h.messages sessionId seq other]
    by_cases hother : other = messageId
    · subst hother
      have hbefore : messageRow database other = some row := hrow
      have hself : messageRow (database.set (.chatMessage other)
          (some { row with status := status, text := text.getD row.text })) other =
            some { row with status := status, text := text.getD row.text } :=
        Database.set_row_self database (.chatMessage other) _
      simp [hbefore, hself]
    · rw [messageRow_set_of_ne database _ (by simpa using hother)]
  · exact h

/-- A method whose result is passed through a function. -/
theorem KeepsGapFree.map {A B : Type} {program : Sql A} {f : A → B} (h : KeepsGapFree program) :
    KeepsGapFree (f <$> program) :=
  Triple.map h

/-- Every call keeps the numbering. -/
theorem Operation.program_keepsGapFree (now : Instant) (operation : Operation) :
    KeepsGapFree (operation.program now) := by
  cases operation with
  | insertOrGet jobId request => exact (insertOrGet_keepsGapFree now jobId request).map
  | markPublished jobId => exact (KeepsGapFree.updateJob fun _ ↦ .commit _).map
  | getJob jobId => exact (getJob_keepsGapFree jobId).map
  | cancel jobId => exact (cancel_keepsGapFree jobId).map
  | claim jobId leaseId owner lease => exact (KeepsGapFree.transition (.commit _)).map
  | lapsedReservable scan => exact (KeepsGapFree.select fun _ ↦ .commit _).map
  | retireLapsed scan =>
    exact KeepsGapFree.map (Triple.bind (retireRows_keepsGapFree now scan) fun rows ↦
      Triple.bind (recordEvents_keepsGapFree _) fun _ ↦ KeepsGapFree.commit _)
  | unpublished scan olderThan => exact (KeepsGapFree.select fun _ ↦ .commit _).map
  | extend lease duration =>
    refine KeepsGapFree.map (KeepsGapFree.updateJob fun row ↦ ?_)
    cases row with
    | some row => exact .commit _
    | none => exact .raise _
  | ack lease resultRef =>
    refine KeepsGapFree.map (KeepsGapFree.updateJob fun row ↦ ?_)
    cases row with
    | some row => exact recordEvent_keepsGapFree lease.job.id row
    | none => exact .raise _
  | nack lease error retryIn => exact (KeepsGapFree.transition (.raise _)).map
  | ensureSession sessionId => exact (ensureSession_keepsGapFree sessionId).map
  | recordUserMessage sessionId clientMsgId text messageId =>
    exact (recordUserMessage_keepsGapFree sessionId clientMsgId text messageId).map
  | byClientMsgId sessionId clientMsgId =>
    exact (byClientMsgId_keepsGapFree sessionId clientMsgId).map
  | startAssistantMessage sessionId messageId =>
    exact (startAssistantMessage_keepsGapFree sessionId messageId).map
  | completeAssistantMessage messageId text =>
    exact (finishMessage_keepsGapFree messageId .complete (some text)).map
  | failAssistantMessage messageId => exact (finishMessage_keepsGapFree messageId .failed none).map
  | logSince sessionId afterSeq limit => exact (logSince_keepsGapFree sessionId afterSeq limit).map

/-! ### What a reader sees -/

/-- The numbers of the rows of a session, in both tables. -/
def sessionSeqs (database : Database) (sessionId : Uuid) : List ℕ :=
  (sessionMessages database sessionId).map StoredMessage.seq ++
    (sessionEvents database sessionId).map JobEvent.seq

/-- The message rows of some entries of the log carry the numbers of their entries. -/
theorem messages_seq_eq {database : Database} (h : MessagesLogged database) (sessionId : Uuid)
    {entries : List LogEntry} (hentries : ∀ entry ∈ entries, entry ∈ database.log) :
    (sessionMessages { database with log := entries } sessionId).map StoredMessage.seq =
      (entries.filter fun entry ↦ entry.sessionId = sessionId).filterMap fun
        | .message _ seq _ => some seq
        | .event _ _ => none := by
  induction entries with
  | nil => rfl
  | cons entry entries ih =>
    have htail := ih fun other hother ↦ hentries other (List.mem_cons_of_mem entry hother)
    cases entry with
    | event session transition =>
      rw [sessionMessages] at htail ⊢
      by_cases hsession : session = sessionId <;>
        simpa [hsession, List.filter_cons] using htail
    | message session seq messageId =>
      obtain ⟨row, hrow, -, hseq⟩ :=
        (h session seq messageId).mp (hentries _ List.mem_cons_self)
      have hlookup : (database.row (.chatMessage messageId) : Option ChatMessageRow) = some row :=
        hrow
      rw [sessionMessages] at htail ⊢
      by_cases hsession : session = sessionId
      · simpa [hsession, hlookup, ChatMessageRow.toMessage, hseq] using htail
      · simpa [hsession] using htail

/-- The numbers in the two tables are those of the log, in another order. -/
theorem sessionSeqs_perm {database : Database} (h : MessagesLogged database) (sessionId : Uuid) :
    (sessionSeqs database sessionId).Perm
      ((sessionEntries database sessionId).map LogEntry.seq) := by
  have hmessages := messages_seq_eq h sessionId fun entry hentry ↦ hentry
  have hevents : (sessionEvents database sessionId).map JobEvent.seq =
      (sessionEntries database sessionId).filterMap fun
        | .message _ _ _ => none
        | .event _ transition => some transition.seq := by
    rw [sessionEvents, sessionEntries]
    induction database.log with
    | nil => rfl
    | cons entry entries ih =>
      cases entry with
      | message session seq messageId =>
        by_cases hsession : session = sessionId <;>
          simpa [hsession, List.filter_cons] using ih
      | event session transition =>
        by_cases hsession : session = sessionId <;>
          simpa [hsession, List.filter_cons] using ih
  rw [sessionSeqs, hmessages, hevents]
  change ((sessionEntries database sessionId).filterMap _ ++ _).Perm _
  induction sessionEntries database sessionId with
  | nil => exact .nil
  | cons entry entries ih =>
    cases entry with
    | message session seq messageId => simpa using ih
    | event session transition =>
      simp only [List.filterMap_cons, List.map_cons]
      exact List.perm_middle.trans (ih.cons transition.seq)

/-! ### Runs -/

theorem gapFree_empty : GapFree Database.empty where
  numbered := fun _ ↦ rfl
  messages := fun _ _ _ ↦ by simp [Database.empty, messageRow]

/-- Every committed state of a run is numbered. -/
theorem gapFree_of_execution {Backend : Type} [DecidableEq Backend] {history : List Commit}
    {system : System Backend} (h : Execution history system) : GapFree system.committed :=
  Execution.invariant gapFree_empty
    (fun call database outcome after hgapFree hyields ↦
      call.operation.program_keepsGapFree call.now database outcome after hgapFree hyields) h

/-- A session's rows are numbered from 1 to the number before its counter, each number once. -/
theorem GapFree.sessionSeqs_perm {database : Database} (h : GapFree database) (sessionId : Uuid) :
    (sessionSeqs database sessionId).Perm
      (List.range' 1 ((nextSeq database sessionId).getD 1 - 1)) := by
  have hentries := h.numbered sessionId
  refine (Postgres.sessionSeqs_perm h.messages sessionId).trans ?_
  cases hnext : nextSeq database sessionId with
  | none =>
    rw [hnext] at hentries
    rw [show sessionEntries database sessionId = [] from hentries]
    exact .nil
  | some next =>
    rw [hnext] at hentries
    rw [hentries.2]
    rfl

/-- A recorded user message had a key that was not recorded. -/
theorem recordUserMessage_fresh {sessionId messageId : Uuid} {clientMsgId text : String}
    {before after : Database} {message : RecordedUserMessage}
    (h : (recordUserMessage sessionId clientMsgId text messageId).Yields before message after) :
    before.row (.clientMessage sessionId clientMsgId) = (none : Option Uuid) := by
  obtain ⟨seq, between, hallocate, h⟩ := Program.yields_bind h
  obtain ⟨-, rfl⟩ := allocateSeq_yields hallocate
  rcases h with ⟨entry, hentry, -⟩ | h
  · have habsent := (ifAbsent_eq_some hentry).1
    rwa [Database.set_row_of_ne _ _ (by simp)] at habsent
  · exact h.elim

theorem byClientMsgId_yields {sessionId : Uuid} {clientMsgId : String} {before after : Database}
    {message : RecordedUserMessage}
    (h : (byClientMsgId sessionId clientMsgId).Yields before message after) : after = before := by
  obtain ⟨snapshot, h⟩ := h
  dsimp only at h
  split at h
  · split at h
    · exact h.2.symm
    · exact h.elim
  · exact h.elim

/-- One gap-free sequence per session, in commit order. In every committed state of every run the
rows of a session are numbered `1, …, next_seq - 1`, each number once, and the entries of its log
carry these numbers in the order of the commits. A duplicate consumes none: a second job under an
idempotency key commits nothing, a second message under a client key never commits, and reading the
first one commits nothing. And whatever moment a reader of the log takes its snapshot at, it sees
the rows numbered `1, …, n` for some `n` and no others. -/
theorem session_log_gap_free {Backend : Type} [DecidableEq Backend] {history : List Commit}
    {system : System Backend} (h : Execution history system) :
    (∀ sessionId, (nextSeq system.committed sessionId = none →
        sessionSeqs system.committed sessionId = []) ∧
      ∀ next, nextSeq system.committed sessionId = some next →
        (sessionSeqs system.committed sessionId).Perm (List.range' 1 (next - 1)) ∧
        (sessionEntries system.committed sessionId).map LogEntry.seq = List.range' 1 (next - 1)) ∧
    (∀ commit ∈ history,
      (∀ job, commit.result = .enqueued job false → commit.after = commit.before) ∧
      (∀ sessionId clientMsgId text messageId, commit.label.operation =
          .recordUserMessage sessionId clientMsgId text messageId →
        commit.before.row (.clientMessage sessionId clientMsgId) = (none : Option Uuid)) ∧
      ∀ sessionId clientMsgId, commit.label.operation = .byClientMsgId sessionId clientMsgId →
        commit.after = commit.before) ∧
    ∀ backend transaction, system.running backend = some transaction →
      ∀ sessionId afterSeq limit,
        transaction.label.operation = .logSince sessionId afterSeq limit →
        ∃ n, (sessionSeqs (transaction.view system.committed) sessionId).Perm
          (List.range' 1 n) := by
  have hgapFree := gapFree_of_execution h
  refine ⟨fun sessionId ↦ ⟨fun hnone ↦ ?_, fun next hnext ↦ ⟨?_, ?_⟩⟩,
    fun commit hcommit ↦ ?_, ?_⟩
  · have hseqs := hgapFree.sessionSeqs_perm sessionId
    rw [hnone] at hseqs
    exact hseqs.eq_nil
  · have hseqs := hgapFree.sessionSeqs_perm sessionId
    rwa [hnext] at hseqs
  · have hentries := hgapFree.numbered sessionId
    rw [hnext] at hentries
    exact hentries.2
  · obtain ⟨⟨now, operation⟩, result, before, after⟩ := commit
    have hyields : (operation.program now).Yields before result after := h.commit_yields hcommit
    refine ⟨?_, ?_, ?_⟩
    · rintro job rfl
      cases operation with
      | insertOrGet jobId request =>
        obtain ⟨⟨found, created⟩, hcall, houtcome⟩ := Program.yields_map hyields
        simp only [Outcome.enqueued.injEq] at houtcome
        obtain ⟨rfl, rfl⟩ := houtcome
        rcases insertOrGet_yields hcall with ⟨hcreated, -⟩ | ⟨-, hsame⟩
        · exact absurd hcreated (by simp)
        · exact hsame
      | _ =>
        obtain ⟨_, -, houtcome⟩ := Program.yields_map hyields
        simp at houtcome
    · rintro sessionId clientMsgId text messageId rfl
      obtain ⟨_, hcall, -⟩ := Program.yields_map hyields
      exact recordUserMessage_fresh hcall
    · rintro sessionId clientMsgId rfl
      obtain ⟨_, hcall, -⟩ := Program.yields_map hyields
      exact byClientMsgId_yields hcall
  · intro backend transaction hrunning sessionId afterSeq limit hoperation
    have hreads : (transaction.label.program).ReadOnly := by
      rw [Call.program, hoperation]
      exact (logSince_readOnly sessionId afterSeq limit).map _
    rw [h.view_of_readOnly hrunning hreads]
    exact ⟨_, hgapFree.sessionSeqs_perm sessionId⟩

/-- A user message takes number 1 of its session, and its transaction dies while a reply waits for
the lock. The reply is number 1, and the message, sent once more, is number 2. -/
theorem session_log_gap_free_aborted :
    ∃ (history : List Commit) (system : System Bool), Execution history system ∧
      history.length = 3 ∧ nextSeq system.committed ⟨7⟩ = some 3 ∧
      (sessionSeqs system.committed ⟨7⟩).Perm (List.range' 1 2) := by
  have hidle : Execution [] (RowLocking.System.idle Database.empty : System Bool) := .idle
  have hopened := hidle.serial true (show (Call.program ⟨0, .ensureSession ⟨7⟩⟩).execute _ =
    .ok (.unit, _) from rfl)
  have hasked := hopened.step (.start true ⟨1, .recordUserMessage ⟨7⟩ "key" "hi" ⟨8⟩⟩ rfl)
  have hnumbered := hasked.step (.update true _ (.chatSession ⟨7⟩) _ _ _ _ (some 2) rfl ?_ rfl)
  · have hwaiting := hnumbered.step (.start false ⟨2, .startAssistantMessage ⟨7⟩ ⟨9⟩⟩ rfl)
    have hdied := hwaiting.step (.abort true _ rfl)
    simp only [Option.toList_none, List.append_nil, List.nil_append] at hdied
    rw [RowLocking.System.put_comm _ _ _ (show false ≠ true by decide)] at hdied
    simp only [RowLocking.System.put_put, RowLocking.System.idle_put_none] at hdied
    have hstarted := hdied.finish (show
      (Call.program ⟨2, .startAssistantMessage ⟨7⟩ ⟨9⟩⟩).execute _ =
        .ok (.opened ⟨1, ⟨9⟩, .assistant, .streaming, ""⟩, _) from rfl)
    have hresent := hstarted.serial true (show
      (Call.program ⟨3, .recordUserMessage ⟨7⟩ "key" "hi" ⟨8⟩⟩).execute _ =
        .ok (.recorded ⟨⟨2, ⟨8⟩, .user, .complete, "hi"⟩, true⟩, _) from rfl)
    exact ⟨_, _, hresent, rfl, rfl, (((session_log_gap_free hresent).1 ⟨7⟩).2 3 rfl).1⟩
  · intro other transaction hother hrunning
    cases other with
    | true => exact absurd rfl hother
    | false => exact absurd hrunning (by simp [RowLocking.System.put, RowLocking.System.idle])

end Abacus.Postgres
