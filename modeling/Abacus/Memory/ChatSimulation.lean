import Abacus.Memory.ChatRepository
import Abacus.Postgres.Constraints
import Abacus.Postgres.JobCalls
import Abacus.Postgres.LogSince

/-!
# The repository in memory and the tables

The same operations on `MockChatRepository` and on `PostgresChatRepository` (`onTables`), between
transactions of the job store, whose events `record_job_event` puts into the repository in memory.
The two agree on every counter, message, key and event (`Simulates`), and every step keeps it so.

They differ in two places. To finish a message that does not exist raises in memory and is nothing
to the tables; neither changes anything. And the tables refuse what their columns cannot hold, which
the repository in memory takes: the operations here are those that they store (`IsStorable`).
-/

set_option autoImplicit false
set_option relaxedAutoImplicit false

namespace Abacus.Memory

open Postgres (ChatMessageRow Database GapFree LogEntry MessageKeys Outcome StoreError StoresMessage
  messageRow newEvents nextSeq onChat perform)

/-! ### The same operations on the tables -/

/-- What a call of the repository gives its caller. -/
def chatAnswerOf : Except StoreError Outcome → ChatAnswer
  | .ok .unit => .unit
  | .ok (.recorded message) => .recorded message
  | .ok (.opened message) => .opened message
  | .ok (.log rows) => .log rows
  | .error (.lookupError sessionId) => .lookupError sessionId
  | _ => .raised

/-- One transaction of the repository. -/
def chatCall (now : Instant) (operation : Postgres.Operation) (database : Database) :
    ChatAnswer × Database :=
  (chatAnswerOf (perform now operation database).1, (perform now operation database).2)

/-- A method of the repository on the tables. `record_user_message` reads a key that was recorded in
a second transaction. -/
def onTables (now : Instant) (database : Database) : ChatOperation → ChatAnswer × Database
  | .ensureSession sessionId => chatCall now (.ensureSession sessionId) database
  | .recordUserMessage sessionId clientMsgId text drawn =>
    match perform now (.recordUserMessage sessionId clientMsgId text drawn) database with
    | (.error (.alreadyRecorded _ _), after) =>
      chatCall now (.byClientMsgId sessionId clientMsgId) after
    | (reply, after) => (chatAnswerOf reply, after)
  | .startAssistantMessage sessionId drawn =>
    chatCall now (.startAssistantMessage sessionId drawn) database
  | .completeAssistantMessage messageId text =>
    chatCall now (.completeAssistantMessage messageId text) database
  | .failAssistantMessage messageId => chatCall now (.failAssistantMessage messageId) database
  | .logSince sessionId afterSeq limit =>
    chatCall now (.logSince sessionId afterSeq limit) database

/-- Several events put into the repository in memory, each under the number it is given there. -/
def MockChatRepository.recordJobEvents (repository : MockChatRepository) :
    List (Uuid × JobEvent) → Option (List (Uuid × JobEvent) × MockChatRepository)
  | [] => some ([], repository)
  | (sessionId, event) :: events =>
    (repository.recordJobEvent sessionId event.jobId event.state).bind fun recorded ↦
      (recorded.2.recordJobEvents events).map fun rest ↦
        ((sessionId, recorded.1) :: rest.1, rest.2)

/-! ### States that agree -/

/-- The messages of a log, in the order in which they were inserted. -/
def messageIds (entries : List LogEntry) : List Uuid :=
  entries.filterMap fun
    | .message _ _ messageId => some messageId
    | .event _ _ => none

/-- The events of a log, with their sessions. -/
def eventRows (entries : List LogEntry) : List (Uuid × JobEvent) :=
  entries.filterMap fun
    | .message _ _ _ => none
    | .event sessionId transition => some (sessionId, transition)

/-- The repository in memory holds what the tables hold. -/
structure MockChatRepository.Simulates (repository : MockChatRepository) (database : Database) :
    Prop where
  counters : ∀ sessionId, repository.nextSeq sessionId = Postgres.nextSeq database sessionId
  messages : ∀ messageId, repository.chatMessages messageId =
    (messageRow database messageId).map fun row ↦ (row.sessionId, row.toMessage messageId)
  order : repository.order = messageIds database.log
  keys : ∀ sessionId clientMsgId, repository.clientKeys sessionId clientMsgId =
    database.row (.clientMessage sessionId clientMsgId)
  events : repository.jobEvents = eventRows database.log
  gapFree : GapFree database
  indexed : MessageKeys database

namespace MockChatRepository.Simulates

variable {repository : MockChatRepository} {database : Database} {now : Instant}

theorem new : MockChatRepository.new.Simulates Database.empty where
  counters _ := rfl
  messages _ := rfl
  order := rfl
  keys _ _ := rfl
  events := rfl
  gapFree := Postgres.gapFree_empty
  indexed := .empty

/-! ### The log -/

/-- The messages of some entries of the log, as the repository in memory has them. -/
theorem messages_eq_of_entries (h : repository.Simulates database) (sessionId : Uuid)
    {entries : List LogEntry} (hentries : ∀ entry ∈ entries, entry ∈ database.log) :
    (((messageIds entries).filterMap repository.chatMessages).filter
        fun row ↦ row.1 = sessionId).map Prod.snd =
      Postgres.sessionMessages { database with log := entries } sessionId := by
  induction entries with
  | nil => rfl
  | cons entry entries ih =>
    have htail := ih fun other hother ↦ hentries other (List.mem_cons_of_mem entry hother)
    rw [Postgres.sessionMessages] at htail ⊢
    cases entry with
    | event session transition => simpa [messageIds] using htail
    | message session seq messageId =>
      obtain ⟨row, hrow, rfl, -⟩ :=
        (h.gapFree.messages session seq messageId).mp (hentries _ List.mem_cons_self)
      have hmessage : repository.chatMessages messageId =
          some (row.sessionId, row.toMessage messageId) := by
        rw [h.messages, hrow, Option.map_some]
      have hlookup : (database.row (.chatMessage messageId) : Option ChatMessageRow) = some row :=
        hrow
      by_cases hsession : row.sessionId = sessionId
      · simpa [messageIds, hmessage, hsession, hlookup] using htail
      · simpa [messageIds, hmessage, hsession] using htail

/-- The events of a session are the same in both. -/
theorem events_eq (h : repository.Simulates database) (sessionId : Uuid) :
    (repository.jobEvents.filter fun row ↦ row.1 = sessionId).map Prod.snd =
      Postgres.sessionEvents database sessionId := by
  rw [h.events, Postgres.sessionEvents]
  induction database.log with
  | nil => rfl
  | cons entry entries ih =>
    cases entry with
    | message session seq messageId => simpa [eventRows] using ih
    | event session transition =>
      by_cases hsession : session = sessionId
      · simpa [eventRows, hsession] using ih
      · simpa [eventRows, hsession] using ih

/-- `_since` is the query of either table. -/
theorem since_eq {Row : Type} (seq : Row → ℕ) {rows : List (Uuid × Row)} {found : List Row}
    {sessionId : Uuid} (h : (rows.filter fun row ↦ row.1 = sessionId).map Prod.snd = found)
    (afterSeq limit : ℕ) : since seq rows sessionId afterSeq limit =
      Postgres.orderedBySeq seq limit (found.filter fun row ↦ afterSeq < seq row) := by
  have hkept : (rows.filter fun row ↦ row.1 = sessionId ∧ afterSeq < seq row.2).map Prod.snd =
      found.filter fun row ↦ afterSeq < seq row := by
    rw [← h, List.filter_map, List.filter_filter]
    congr 2
    funext row
    rw [Bool.decide_and]
    exact Bool.and_comm _ _
  simp only [since, Postgres.orderedBySeq, hkept]

/-- `log_since` gives the same rows. -/
theorem logSince_eq (h : repository.Simulates database) (sessionId : Uuid) (afterSeq limit : ℕ) :
    repository.logSince sessionId afterSeq limit =
      Postgres.mergedSince (Postgres.sessionMessages database sessionId)
        (Postgres.sessionEvents database sessionId) afterSeq limit := by
  have hvalues : (repository.values.filter fun row ↦ row.1 = sessionId).map Prod.snd =
      Postgres.sessionMessages database sessionId := by
    rw [values, h.order]
    exact h.messages_eq_of_entries sessionId fun _ hentry ↦ hentry
  simp only [MockChatRepository.logSince, since_eq _ hvalues, since_eq _ (h.events_eq sessionId)]
  rfl

/-! ### The methods -/

/-- A message stored in both. -/
theorem stores (h : repository.Simulates database) {after : MockChatRepository} {drawn : Uuid}
    {row : ChatMessageRow} (hstores : StoresMessage drawn row database
      (database.storeMessage drawn row)) (hrole : row.role = .user ↔ row.clientMsgId ≠ none)
    (hgapFree : GapFree (database.storeMessage drawn row))
    (hcounters : after.nextSeq =
      Function.update repository.nextSeq row.sessionId (some (row.seq + 1)))
    (hmessages : after.chatMessages = Function.update repository.chatMessages drawn
      (some (row.sessionId, row.toMessage drawn)))
    (horder : after.order = repository.order ++ [drawn])
    (hkeys : ∀ sessionId clientMsgId, after.clientKeys sessionId clientMsgId =
      if sessionId = row.sessionId ∧ row.clientMsgId = some clientMsgId then some drawn
      else repository.clientKeys sessionId clientMsgId)
    (hevents : after.jobEvents = repository.jobEvents) :
    after.Simulates (database.storeMessage drawn row) where
  counters sessionId := by
    rw [hcounters, Function.update_apply, Postgres.nextSeq_storeMessage, h.counters]
  messages messageId := by
    rw [hmessages, Function.update_apply, Postgres.messageRow_storeMessage]
    split_ifs with hmessage
    · rw [hmessage, Option.map_some]
    · exact h.messages messageId
  order := by
    rw [horder, h.order, Postgres.storeMessage_log]
    simp [messageIds]
  keys sessionId clientMsgId := by
    rw [hkeys, Postgres.clientMessage_storeMessage, h.keys]
  events := by
    rw [hevents, h.events, Postgres.storeMessage_log]
    simp [eventRows]
  gapFree := hgapFree
  indexed := h.indexed.stores hrole hstores

/-- What one operation makes of both: the same answer, and states that agree. -/
structure InStep (memory : ChatAnswer × MockChatRepository) (tables : ChatAnswer × Database) :
    Prop where
  answer : memory.1 = tables.1
  simulates : memory.2.Simulates tables.2

theorem absent_of_messageRow (h : repository.Simulates database) {messageId : Uuid}
    (habsent : messageRow database messageId = none) :
    repository.chatMessages messageId = none := by
  rw [h.messages, habsent, Option.map_none]

theorem ensureSession (h : repository.Simulates database) (sessionId : Uuid) :
    InStep (.unit, repository.ensureSession sessionId)
      (chatCall now (.ensureSession sessionId) database) := by
  have hgapFree := Postgres.perform_gapFree now (.ensureSession sessionId) h.gapFree
  cases hnext : Postgres.nextSeq database sessionId with
  | some seq =>
    have hsame : repository.ensureSession sessionId = repository := by
      have hcounter := (h.counters sessionId).trans hnext
      rw [MockChatRepository.ensureSession, hcounter, Option.some_or, ← hcounter,
        Function.update_eq_self]
    rw [chatCall, Postgres.perform_ensureSession_of_some now hnext, hsame]
    exact ⟨rfl, h⟩
  | none =>
    rw [Postgres.perform_ensureSession_of_none now hnext] at hgapFree
    rw [chatCall, Postgres.perform_ensureSession_of_none now hnext]
    refine ⟨rfl, ?_, ?_, h.order, ?_, h.events, hgapFree, ?_⟩
    · intro other
      have hcounter := (h.counters sessionId).trans hnext
      rw [MockChatRepository.ensureSession, hcounter, Option.none_or]
      dsimp only
      rw [Function.update_apply]
      split_ifs with hother
      · rw [hother]
        exact (RowLocking.Database.set_row_self database (.chatSession sessionId) (some 1)).symm
      · rw [Postgres.nextSeq_set_of_ne _ _ (by simpa using hother)]
        exact h.counters other
    · intro messageId
      rw [Postgres.messageRow_set_of_ne _ _ (by simp)]
      exact h.messages messageId
    · intro other clientMsgId
      rw [RowLocking.Database.set_row_of_ne _ _ (by simp)]
      exact h.keys other clientMsgId
    · exact h.indexed.of_eq (fun messageId ↦ Postgres.messageRow_set_of_ne _ _ (by simp))
        fun other clientMsgId ↦ RowLocking.Database.set_row_of_ne _ _ (by simp)

theorem startAssistantMessage (h : repository.Simulates database) (sessionId : Uuid) {drawn : Uuid}
    (habsent : messageRow database drawn = none) :
    InStep (repository.startAssistantMessage sessionId drawn)
      (chatCall now (.startAssistantMessage sessionId drawn) database) := by
  have hcounter := h.counters sessionId
  have hgapFree := Postgres.perform_gapFree now (.startAssistantMessage sessionId drawn) h.gapFree
  cases hnext : Postgres.nextSeq database sessionId with
  | none =>
    rw [hnext] at hcounter
    rw [chatCall, Postgres.perform_startAssistantMessage_of_none now hnext,
      MockChatRepository.startAssistantMessage, allocate_of_none hcounter]
    exact ⟨rfl, h⟩
  | some seq =>
    rw [hnext] at hcounter
    rw [Postgres.perform_startAssistantMessage_eq now hnext habsent] at hgapFree
    rw [chatCall, Postgres.perform_startAssistantMessage_eq now hnext habsent,
      MockChatRepository.startAssistantMessage, allocate_of_some hcounter]
    refine ⟨rfl, h.stores ⟨hnext, habsent, fun _ hkey ↦ ?_, rfl⟩ (by simp) hgapFree rfl rfl ?_
      (fun _ _ ↦ ?_) rfl⟩
    · exact nomatch hkey
    · simp [put, h.absent_of_messageRow habsent]
    · simp [put]

/-- The message of a key that was recorded is there, and so is its session. -/
theorem recorded (h : repository.Simulates database) {sessionId known : Uuid} {clientMsgId : String}
    (hkey : database.row (.clientMessage sessionId clientMsgId) = some known) :
    ∃ row seq, messageRow database known = some row ∧
      Postgres.nextSeq database sessionId = some seq := by
  obtain ⟨row, hrow, rfl, -⟩ := (h.indexed.index _ _ _).mp hkey
  have hentry := (h.gapFree.messages _ _ known).mpr ⟨row, hrow, rfl, rfl⟩
  obtain ⟨seq, hseq⟩ := Option.ne_none_iff_exists'.mp (h.gapFree.session_of_mem hentry)
  exact ⟨row, seq, hrow, hseq⟩

theorem recordUserMessage (h : repository.Simulates database) (sessionId : Uuid)
    (clientMsgId text : String) {drawn : Uuid} (habsent : messageRow database drawn = none) :
    InStep (repository.recordUserMessage sessionId clientMsgId text drawn)
      (onTables now database (.recordUserMessage sessionId clientMsgId text drawn)) := by
  have hcounter := h.counters sessionId
  have hclient := h.keys sessionId clientMsgId
  have hgapFree := Postgres.perform_gapFree now
    (.recordUserMessage sessionId clientMsgId text drawn) h.gapFree
  cases hkey : (database.row (.clientMessage sessionId clientMsgId) : Option Uuid) with
  | some known =>
    obtain ⟨row, seq, hrow, hnext⟩ := h.recorded hkey
    have hmessage := h.messages known
    rw [hrow] at hmessage
    rw [hkey] at hclient
    rw [onTables, Postgres.perform_recordUserMessage_of_recorded now hnext hkey]
    dsimp only
    rw [chatCall, Postgres.perform_byClientMsgId_eq now hkey hrow,
      MockChatRepository.recordUserMessage, hclient]
    dsimp only
    rw [hmessage]
    exact ⟨rfl, h⟩
  | none =>
    rw [hkey] at hclient
    cases hnext : Postgres.nextSeq database sessionId with
    | none =>
      rw [hnext] at hcounter
      rw [onTables, Postgres.perform_recordUserMessage_of_none now hnext,
        MockChatRepository.recordUserMessage, hclient, allocate_of_none hcounter]
      exact ⟨rfl, h⟩
    | some seq =>
      rw [hnext] at hcounter
      rw [Postgres.perform_recordUserMessage_eq now hnext hkey habsent] at hgapFree
      rw [onTables, Postgres.perform_recordUserMessage_eq now hnext hkey habsent,
        MockChatRepository.recordUserMessage, hclient, allocate_of_some hcounter]
      refine ⟨rfl, h.stores ⟨hnext, habsent, ?_, rfl⟩ (by simp) hgapFree rfl rfl ?_ ?_ rfl⟩
      · rintro other hother
        obtain rfl := Option.some.inj hother
        exact hkey
      · simp [put, h.absent_of_messageRow habsent]
      · intro other otherKey
        dsimp only [put]
        by_cases hother : other = sessionId
        · subst hother
          rw [Function.update_self, Function.update_apply]
          simp [eq_comm]
        · rw [Function.update_of_ne hother]
          simp [hother]

/-- A message that is there is finished in both. -/
theorem finish (h : repository.Simulates database) {messageId : Uuid} {row : ChatMessageRow}
    (hrow : messageRow database messageId = some row) {operation : Postgres.Operation}
    {changes : StoredMessage → StoredMessage} {status : Status} {text : String}
    (hperform : perform now operation database = (.ok .unit, database.set (.chatMessage messageId)
      (some { row with status := status, text := text })))
    (hchanges : changes (row.toMessage messageId) =
      { row.toMessage messageId with status := status, text := text }) :
    InStep (repository.update messageId changes) (chatCall now operation database) := by
  have hgapFree := Postgres.perform_gapFree now operation h.gapFree
  have hmessage := h.messages messageId
  rw [hrow, Option.map_some] at hmessage
  rw [hperform] at hgapFree
  rw [MockChatRepository.update, hmessage, chatCall, hperform]
  refine ⟨rfl, ?_, ?_, h.order, ?_, h.events, hgapFree, h.indexed.finishes hrow status text⟩
  · intro sessionId
    rw [Postgres.nextSeq_set_of_ne _ _ (by simp)]
    exact h.counters sessionId
  · intro other
    dsimp only
    rw [Function.update_apply]
    split_ifs with hother
    · rw [hother, hchanges, messageRow, RowLocking.Database.set_row_self]
      rfl
    · rw [Postgres.messageRow_set_of_ne _ _ (by simpa using hother)]
      exact h.messages other
  · intro sessionId clientMsgId
    rw [RowLocking.Database.set_row_of_ne _ _ (by simp)]
    exact h.keys sessionId clientMsgId

theorem completeAssistantMessage (h : repository.Simulates database) {messageId : Uuid}
    {row : ChatMessageRow} (hrow : messageRow database messageId = some row) (text : String) :
    InStep (repository.completeAssistantMessage messageId text)
      (chatCall now (.completeAssistantMessage messageId text) database) :=
  h.finish hrow (RowLocking.Program.run_of_execute_ok (RowLocking.Program.execute_map_of_ok
    (Postgres.finishMessage_execute hrow .complete (some text)))) rfl

theorem failAssistantMessage (h : repository.Simulates database) {messageId : Uuid}
    {row : ChatMessageRow} (hrow : messageRow database messageId = some row) :
    InStep (repository.failAssistantMessage messageId)
      (chatCall now (.failAssistantMessage messageId) database) :=
  h.finish hrow (RowLocking.Program.run_of_execute_ok (RowLocking.Program.execute_map_of_ok
    (Postgres.finishMessage_execute hrow .failed none))) rfl

theorem logSince (h : repository.Simulates database) (sessionId : Uuid) {afterSeq limit : ℕ}
    (hbound : Postgres.IsBound afterSeq limit) :
    InStep (.log (repository.logSince sessionId afterSeq limit), repository)
      (chatCall now (.logSince sessionId afterSeq limit) database) := by
  have hrows : repository.logSince sessionId afterSeq limit =
      (Postgres.logAfter database sessionId afterSeq).take limit := by
    rw [h.logSince_eq, Postgres.mergedSince_eq_take]
    rfl
  rw [chatCall, Postgres.perform_logSince, if_pos hbound, hrows]
  exact ⟨rfl, h⟩

end MockChatRepository.Simulates

/-- The message that an operation finishes. -/
def ChatOperation.finishes : ChatOperation → Option Uuid
  | .completeAssistantMessage messageId _ => some messageId
  | .failAssistantMessage messageId => some messageId
  | _ => none

/-- The identity that an operation may draw. -/
def ChatOperation.drawn : ChatOperation → Option Uuid
  | .recordUserMessage _ _ _ drawn => some drawn
  | .startAssistantMessage _ drawn => some drawn
  | _ => none

/-- The columns hold the texts and the numbers of an operation. -/
def ChatOperation.IsStorable : ChatOperation → Prop
  | .recordUserMessage _ clientMsgId text _ => Postgres.IsKey clientMsgId ∧ Postgres.IsText text
  | .completeAssistantMessage _ text => Postgres.IsText text
  | .logSince _ afterSeq limit => Postgres.IsBound afterSeq limit
  | _ => True

/-- What an operation draws is the name of no message yet. -/
def DrawsFresh (database : Database) (operation : ChatOperation) : Prop :=
  ∀ drawn, operation.drawn = some drawn → messageRow database drawn = none

namespace MockChatRepository.Simulates

variable {repository : MockChatRepository} {database : Database} {now : Instant}

/-- One operation on both sides, whatever it finishes being there. -/
theorem serve (h : repository.Simulates database) {operation : ChatOperation}
    (hstorable : operation.IsStorable) (hfresh : DrawsFresh database operation)
    (hthere : ∀ messageId, operation.finishes = some messageId →
      messageRow database messageId ≠ none) :
    InStep (repository.serve operation) (onTables now database operation) := by
  cases operation with
  | ensureSession sessionId => exact h.ensureSession sessionId
  | recordUserMessage sessionId clientMsgId text drawn =>
    exact h.recordUserMessage sessionId clientMsgId text (hfresh drawn rfl)
  | startAssistantMessage sessionId drawn =>
    exact h.startAssistantMessage sessionId (hfresh drawn rfl)
  | completeAssistantMessage messageId text =>
    obtain ⟨row, hrow⟩ := Option.ne_none_iff_exists'.mp (hthere messageId rfl)
    exact h.completeAssistantMessage hrow text
  | failAssistantMessage messageId =>
    obtain ⟨row, hrow⟩ := Option.ne_none_iff_exists'.mp (hthere messageId rfl)
    exact h.failAssistantMessage hrow
  | logSince sessionId afterSeq limit => exact h.logSince sessionId hstorable

/-- To finish a message that is not there is a `KeyError` in memory and nothing to the tables. -/
theorem serve_absent (h : repository.Simulates database) {operation : ChatOperation}
    {messageId : Uuid} (hfinishes : operation.finishes = some messageId)
    (habsent : messageRow database messageId = none) :
    repository.serve operation = (.keyError messageId, repository) ∧
      onTables now database operation = (.unit, database) := by
  have hmessage := h.absent_of_messageRow habsent
  cases operation with
  | completeAssistantMessage finished text =>
    obtain rfl := Option.some.inj hfinishes
    constructor
    · rw [MockChatRepository.serve, MockChatRepository.completeAssistantMessage, update, hmessage]
    · rw [onTables, chatCall, Postgres.perform_completeAssistantMessage_of_none now habsent]
      rfl
  | failAssistantMessage finished =>
    obtain rfl := Option.some.inj hfinishes
    constructor
    · rw [MockChatRepository.serve, MockChatRepository.failAssistantMessage, update, hmessage]
    · rw [onTables, chatCall, Postgres.perform_failAssistantMessage_of_none now habsent]
      rfl
  | _ => cases hfinishes

/-! ### The events of the job store -/

/-- A statement on a job or an idempotency key is nothing to the repository. -/
theorem set (h : repository.Simulates database) {key : Postgres.RowKey} (row : Postgres.Row key)
    (hkey : key.tier ≤ 1) : repository.Simulates (database.set key row) := by
  have hother : ∀ other : Postgres.RowKey, 2 ≤ other.tier → other ≠ key := by
    rintro other htier rfl
    exact absurd (htier.trans hkey) (by decide)
  have hcounter : ∀ sessionId, Postgres.RowKey.chatSession sessionId ≠ key :=
    fun sessionId ↦ hother _ (le_refl 2)
  have hmessage : ∀ messageId, Postgres.RowKey.chatMessage messageId ≠ key :=
    fun messageId ↦ hother _ (by simp [Postgres.RowKey.tier])
  have hclient : ∀ sessionId clientMsgId,
      Postgres.RowKey.clientMessage sessionId clientMsgId ≠ key :=
    fun sessionId clientMsgId ↦ hother _ (by simp [Postgres.RowKey.tier])
  constructor
  · intro sessionId
    rw [Postgres.nextSeq_set_of_ne _ _ (hcounter sessionId)]
    exact h.counters sessionId
  · intro messageId
    rw [Postgres.messageRow_set_of_ne _ _ (hmessage messageId)]
    exact h.messages messageId
  · exact h.order
  · intro sessionId clientMsgId
    rw [RowLocking.Database.set_row_of_ne _ _ (hclient sessionId clientMsgId)]
    exact h.keys sessionId clientMsgId
  · exact h.events
  · exact h.gapFree.set row ⟨hcounter, hmessage⟩
  · exact h.indexed.of_eq (fun messageId ↦ Postgres.messageRow_set_of_ne _ _ (hmessage messageId))
      fun sessionId clientMsgId ↦
        RowLocking.Database.set_row_of_ne _ _ (hclient sessionId clientMsgId)

/-- An event recorded in both has the same number. -/
theorem recordJobEvent (h : repository.Simulates database) {sessionId jobId : Uuid} {seq : ℕ}
    {state : JobState} (hnext : Postgres.nextSeq database sessionId = some seq)
    (hgapFree : GapFree ((database.set (.chatSession sessionId) (some (seq + 1))).insert
      (.event sessionId ⟨seq, jobId, state⟩))) :
    ∃ after, repository.recordJobEvent sessionId jobId state = some (⟨seq, jobId, state⟩, after) ∧
      after.Simulates ((database.set (.chatSession sessionId) (some (seq + 1))).insert
        (.event sessionId ⟨seq, jobId, state⟩)) := by
  have hcounter := (h.counters sessionId).trans hnext
  have hrecorded : repository.recordJobEvent sessionId jobId state =
      some (⟨seq, jobId, state⟩, { repository with
        nextSeq := Function.update repository.nextSeq sessionId (some (seq + 1))
        jobEvents := repository.jobEvents ++ [(sessionId, ⟨seq, jobId, state⟩)] }) := by
    rw [MockChatRepository.recordJobEvent, allocate_of_some hcounter, Option.map_some]
  refine ⟨_, hrecorded, ?_, ?_, ?_, ?_, ?_, hgapFree, ?_⟩
  · intro other
    dsimp only
    rw [Function.update_apply]
    split_ifs with hother
    · rw [hother]
      exact (RowLocking.Database.set_row_self database (.chatSession sessionId) _).symm
    · exact (h.counters other).trans
        (Postgres.nextSeq_set_of_ne database _ (by simpa using hother)).symm
  · intro messageId
    rw [Postgres.messageRow_insert, Postgres.messageRow_set_of_ne _ _ (by simp)]
    exact h.messages messageId
  · rw [RowLocking.Database.insert_log, RowLocking.Database.set_log]
    simpa [messageIds] using h.order
  · intro other clientMsgId
    rw [RowLocking.Database.insert_row, RowLocking.Database.set_row_of_ne _ _ (by simp)]
    exact h.keys other clientMsgId
  · rw [RowLocking.Database.insert_log, RowLocking.Database.set_log]
    simpa [eventRows] using h.events
  · refine h.indexed.of_eq (fun messageId ↦ ?_) fun other clientMsgId ↦ ?_
    · rw [Postgres.messageRow_insert, Postgres.messageRow_set_of_ne _ _ (by simp)]
    · rw [RowLocking.Database.insert_row, RowLocking.Database.set_row_of_ne _ _ (by simp)]

end MockChatRepository.Simulates

/-- Of some events, one more is recorded after the others. -/
theorem recordJobEvents_concat {repository between after : MockChatRepository}
    {events recorded : List (Uuid × JobEvent)} {sessionId : Uuid} {event given : JobEvent}
    (hevents : repository.recordJobEvents events = some (recorded, between))
    (hevent : between.recordJobEvent sessionId event.jobId event.state = some (given, after)) :
    repository.recordJobEvents (events ++ [(sessionId, event)]) =
      some (recorded ++ [(sessionId, given)], after) := by
  induction events generalizing repository recorded with
  | nil =>
    obtain ⟨rfl, rfl⟩ := Prod.mk.inj (Option.some.inj hevents)
    simp [MockChatRepository.recordJobEvents, hevent]
  | cons head events ih =>
    obtain ⟨first, hfirst, hrest⟩ := Option.bind_eq_some_iff.mp hevents
    obtain ⟨rest, hrecords, hequal⟩ := Option.map_eq_some_iff.mp hrest
    obtain ⟨rfl, rfl⟩ := Prod.mk.inj hequal
    rw [List.cons_append, MockChatRepository.recordJobEvents, hfirst, Option.bind_some,
      ih hrecords, Option.map_some]
    rfl

/-- The log of the tables has gained events, and the repository in memory, given them, numbers them
as they are numbered there. -/
def Gains (repository : MockChatRepository) (start database : Database) : Prop :=
  ∃ events after, repository.recordJobEvents events = some (events, after) ∧
    after.Simulates database ∧
      database.log = start.log ++ events.map fun event ↦ .event event.1 event.2

theorem gains_recordEvent {repository : MockChatRepository} {start : Database} (jobId : Uuid)
    (row : Postgres.JobRow) : RowLocking.Triple (Gains repository start)
      (Postgres.recordEvent jobId row) fun _ ↦ Gains repository start := by
  rintro database value after ⟨events, between, hevents, hsimulates, hlog⟩ hyields
  have hgapFree := Postgres.recordEvent_keepsGapFree jobId row database value after
    hsimulates.gapFree hyields
  have hrecorded := Postgres.recordEvent_yields hyields
  unfold Postgres.Recorded at hrecorded
  cases hsession : row.sessionId with
  | none =>
    simp only [hsession] at hrecorded
    subst hrecorded
    exact ⟨events, between, hevents, hsimulates, hlog⟩
  | some sessionId =>
    simp only [hsession] at hrecorded
    obtain ⟨seq, hnext, rfl⟩ := hrecorded
    obtain ⟨final, hevent, hfinal⟩ := hsimulates.recordJobEvent hnext hgapFree
    let event : JobEvent := ⟨seq, jobId, row.state⟩
    have hgiven : between.recordJobEvent sessionId event.jobId event.state = some (event, final) :=
      hevent
    refine ⟨_, final, recordJobEvents_concat hevents hgiven, hfinal, ?_⟩
    rw [RowLocking.Database.insert_log, RowLocking.Database.set_log, hlog, List.map_append,
      ← List.append_assoc]
    rfl

/-- A transaction of the job store, and its events put into the repository in memory. -/
theorem MockChatRepository.Simulates.job {repository : MockChatRepository} {database : Database}
    (h : repository.Simulates database) (now : Instant) {operation : Postgres.Operation}
    (hjob : onChat operation = false) :
    ∃ after, repository.recordJobEvents (newEvents database (perform now operation database).2) =
        some (newEvents database (perform now operation database).2, after) ∧
      after.Simulates (perform now operation database).2 := by
  have hnone : Gains repository database database := ⟨[], repository, rfl, h, by simp⟩
  have hgains : Gains repository database (perform now operation database).2 := by
    cases hperform : perform now operation database with
    | mk reply after =>
      cases reply with
      | error error =>
        obtain rfl : after = database := Postgres.perform_error hperform
        exact hnone
      | ok outcome =>
        refine Postgres.Operation.job_triple ?_ gains_recordEvent hjob database outcome after hnone
          (Postgres.perform_yields hperform)
        rintro other key row htier ⟨events, final, hevents, hsimulates, hlog⟩
        exact ⟨events, final, hevents, hsimulates.set row htier, hlog⟩
  obtain ⟨events, after, hevents, hsimulates, hlog⟩ := hgains
  rw [Postgres.newEvents_of_append hlog]
  exact ⟨after, hevents, hsimulates⟩

/-! ### Runs -/

/-- The two states after the same operations at any moments, from nothing, with transactions of the
job store between them. The tables store what an operation puts, and what it draws is fresh. -/
inductive ChatRun : MockChatRepository → Database → Prop
  | new : ChatRun .new .empty
  | chat {repository : MockChatRepository} {database : Database}
      (before : ChatRun repository database) (now : Instant) (operation : ChatOperation)
      (hstorable : operation.IsStorable) (hfresh : DrawsFresh database operation) :
    ChatRun (repository.serve operation).2 (onTables now database operation).2
  | job {repository after : MockChatRepository} {database : Database}
      {events : List (Uuid × JobEvent)} (before : ChatRun repository database) (now : Instant)
      (operation : Postgres.Operation) (hjob : onChat operation = false)
      (hrecords : repository.recordJobEvents
        (newEvents database (perform now operation database).2) = some (events, after)) :
    ChatRun after (perform now operation database).2

/-- Whether an operation finishes a message that is there, if it finishes one. -/
theorem thereOrAbsent (database : Database) (operation : ChatOperation) :
    (∀ messageId, operation.finishes = some messageId → messageRow database messageId ≠ none) ∨
      ∃ messageId, operation.finishes = some messageId ∧ messageRow database messageId = none := by
  by_cases habsent : ∃ messageId, operation.finishes = some messageId ∧
      messageRow database messageId = none
  · exact Or.inr habsent
  · exact Or.inl fun messageId hfinishes hnone ↦ habsent ⟨messageId, hfinishes, hnone⟩

theorem ChatRun.simulates {repository : MockChatRepository} {database : Database}
    (h : ChatRun repository database) : repository.Simulates database := by
  induction h with
  | new => exact .new
  | chat before now operation hstorable hfresh ih =>
    rcases thereOrAbsent _ operation with hthere | ⟨messageId, hfinishes, habsent⟩
    · exact (ih.serve hstorable hfresh hthere).simulates
    · obtain ⟨hmemory, htables⟩ := ih.serve_absent hfinishes habsent
      rw [hmemory, htables]
      exact ih
  | job before now operation hjob hrecords ih =>
    obtain ⟨after, hafter, hsimulates⟩ := ih.job now hjob
    obtain ⟨-, rfl⟩ := Prod.mk.inj (Option.some.inj (hafter.symm.trans hrecords))
    exact hsimulates

/-- The repository in memory and the tables are the same repository. After the same operations, with
any transactions of the job store between them, they hold the same counters, messages, keys and
events. The next operation that the tables can store gives the same answer on both, unless it
finishes a message that is in neither: then it raises in memory, and changes nothing in either. And
the events of the next transaction of the job store get in memory the numbers that they have in the
tables. -/
theorem same_repository {repository : MockChatRepository} {database : Database}
    (h : ChatRun repository database) : repository.Simulates database ∧
      (∀ now operation, operation.IsStorable → DrawsFresh database operation →
        (repository.serve operation).1 = (onTables now database operation).1 ∨
          ∃ messageId, operation.finishes = some messageId ∧
            messageRow database messageId = none ∧
              repository.serve operation = (.keyError messageId, repository) ∧
                onTables now database operation = (.unit, database)) ∧
      ∀ now operation, onChat operation = false →
        ∃ after, repository.recordJobEvents
          (newEvents database (perform now operation database).2) =
            some (newEvents database (perform now operation database).2, after) := by
  have hsimulates := h.simulates
  refine ⟨hsimulates, fun now operation hstorable hfresh ↦ ?_,
    fun now operation hjob ↦ ?_⟩
  · rcases thereOrAbsent database operation with hthere | ⟨messageId, hfinishes, habsent⟩
    · exact Or.inl (hsimulates.serve hstorable hfresh hthere).answer
    · exact Or.inr ⟨messageId, hfinishes, habsent, hsimulates.serve_absent hfinishes habsent⟩
  · obtain ⟨after, hafter, -⟩ := hsimulates.job now hjob
    exact ⟨after, hafter⟩

/-- An operation that draws nothing draws nothing that is there. -/
theorem drawsFresh_of_none {database : Database} {operation : ChatOperation}
    (h : operation.drawn = none) : DrawsFresh database operation := by
  intro drawn hdrawn
  exact nomatch h.symm.trans hdrawn

/-- The one message that an operation draws is not there. -/
theorem drawsFresh_of_some {database : Database} {operation : ChatOperation} {drawn : Uuid}
    (h : operation.drawn = some drawn) (habsent : messageRow database drawn = none) :
    DrawsFresh database operation := by
  intro other hother
  obtain rfl := Option.some.inj (h.symm.trans hother)
  exact habsent

/-- A question, its reply, a job of the session, and the log of it all, on both sides. -/
theorem same_repository_asked : ∃ repository database, ChatRun repository database ∧
    database.log.length = 3 ∧ repository.Simulates database ∧
      (repository.serve (.logSince ⟨7⟩ 1 10)).1 =
        (onTables 4 database (.logSince ⟨7⟩ 1 10)).1 := by
  have hopened := ChatRun.new.chat 0 (.ensureSession ⟨7⟩) trivial (drawsFresh_of_none rfl)
  have hstorable : ChatOperation.IsStorable (.recordUserMessage ⟨7⟩ "key" "why?" ⟨2⟩) :=
    ⟨⟨by decide, by decide⟩, by decide⟩
  have hasked := hopened.chat 1 _ hstorable (drawsFresh_of_some rfl rfl)
  have hanswered := hasked.chat 2 (.startAssistantMessage ⟨7⟩ ⟨3⟩) trivial
    (drawsFresh_of_some rfl rfl)
  have hinserted := hanswered.job 3 (.insertOrGet ⟨9⟩ ⟨"noop", .nil, some ⟨7⟩, "key", 1, 0⟩) rfl rfl
  obtain ⟨hsimulates, hanswers, -⟩ := same_repository hinserted
  refine ⟨_, _, hinserted, rfl, hsimulates, ?_⟩
  have hbound : Postgres.IsBound 1 10 := by decide
  rcases hanswers 4 (.logSince ⟨7⟩ 1 10) hbound (drawsFresh_of_none rfl) with
    hsame | ⟨_, hfinishes, -⟩
  · exact hsame
  · exact nomatch hfinishes

end Abacus.Memory
