import Abacus.Postgres.MessageStatus

/-!
# The rows of the messages and their keys

What storing a message does to the tables, in one place (`Database.storeMessage`): a number of its
session is taken, the client's key, if there is one, becomes a key of this row, and the row and its
entry in the log carry the number. `record_user_message` and `start_assistant_message` are the two
methods that store one (`StoresMessage`), and `_finish` is the one that changes what was stored.

`MessageKeys` says of the rows what the check `client_msg_id_matches_role` and the partial unique
index `uq_chat_messages_session_id_client_msg_id` say. Every method keeps it, whatever runs beside
it.
-/

set_option autoImplicit false
set_option relaxedAutoImplicit false

namespace Abacus.Postgres

open RowLocking

/-! ### What stores a message -/

/-- The database with one more message. -/
def Database.storeMessage (database : Database) (messageId : Uuid) (row : ChatMessageRow) :
    Database :=
  let numbered := database.set (.chatSession row.sessionId) (some (row.seq + 1))
  let keyed := match row.clientMsgId with
    | some clientMsgId => numbered.set (.clientMessage row.sessionId clientMsgId) (some messageId)
    | none => numbered
  (keyed.set (.chatMessage messageId) (some row)).insert (.message row.sessionId row.seq messageId)

section

variable (database : Database) (messageId : Uuid) (row : ChatMessageRow)

@[simp] theorem storeMessage_log : (database.storeMessage messageId row).log =
    database.log ++ [.message row.sessionId row.seq messageId] := by
  unfold Database.storeMessage
  cases row.clientMsgId <;> rfl

theorem nextSeq_storeMessage (sessionId : Uuid) :
    nextSeq (database.storeMessage messageId row) sessionId =
      if sessionId = row.sessionId then some (row.seq + 1) else nextSeq database sessionId := by
  have hset : nextSeq (database.set (.chatSession row.sessionId) (some (row.seq + 1))) sessionId =
      if sessionId = row.sessionId then some (row.seq + 1) else nextSeq database sessionId := by
    split_ifs with hsession
    · rw [hsession]
      exact Database.set_row_self database (.chatSession row.sessionId) _
    · exact Database.set_row_of_ne database _ (by simpa using hsession)
  rw [← hset]
  unfold Database.storeMessage
  cases row.clientMsgId <;> simp [nextSeq, Database.set_row_of_ne]

theorem messageRow_storeMessage (other : Uuid) :
    messageRow (database.storeMessage messageId row) other =
      if other = messageId then some row else messageRow database other := by
  unfold Database.storeMessage
  split_ifs with hother
  · rw [hother]
    exact Database.set_row_self _ (RowKey.chatMessage messageId) _
  · cases row.clientMsgId <;> simp [messageRow, Database.set_row_of_ne, hother]

theorem clientMessage_storeMessage (sessionId : Uuid) (clientMsgId : String) :
    (database.storeMessage messageId row).row (.clientMessage sessionId clientMsgId) =
      if sessionId = row.sessionId ∧ row.clientMsgId = some clientMsgId then some messageId
      else database.row (.clientMessage sessionId clientMsgId) := by
  unfold Database.storeMessage
  cases hkey : row.clientMsgId with
  | none => simp [Database.set_row_of_ne]
  | some key =>
    simp only [Database.insert_row, Option.some.injEq]
    rw [Database.set_row_of_ne _ _ (by simp)]
    split_ifs with hsame
    · obtain ⟨rfl, rfl⟩ := hsame
      exact Database.set_row_self _ (RowKey.clientMessage row.sessionId key) _
    · rw [Database.set_row_of_ne, Database.set_row_of_ne _ _ (by simp)]
      rintro hequal
      obtain ⟨hsession, hother⟩ := RowKey.clientMessage.inj hequal
      exact hsame ⟨hsession, hother.symm⟩

end

/-- A message was stored between two databases: its number was the next of its session, and its name
and its key were free. -/
structure StoresMessage (messageId : Uuid) (row : ChatMessageRow) (before after : Database) :
    Prop where
  next : nextSeq before row.sessionId = some row.seq
  absent : messageRow before messageId = none
  free : ∀ clientMsgId, row.clientMsgId = some clientMsgId →
    before.row (.clientMessage row.sessionId clientMsgId) = (none : Option Uuid)
  stored : after = before.storeMessage messageId row

variable {before after : Database} {messageId : Uuid}

/-- `start_assistant_message` stores a row that streams. -/
theorem startAssistantMessage_stores {sessionId : Uuid} {message : StoredMessage}
    (h : (startAssistantMessage sessionId messageId).Yields before message after) :
    ∃ seq, message = ⟨seq, messageId, .assistant, .streaming, ""⟩ ∧
      StoresMessage messageId ⟨sessionId, seq, .assistant, .streaming, "", none⟩ before after := by
  obtain ⟨seq, between, hallocate, h⟩ := Program.yields_bind h
  obtain ⟨hnext, rfl⟩ := allocateSeq_yields hallocate
  obtain ⟨habsent, hmessage, rfl⟩ := insertMessage_yields h
  rw [messageRow_set_of_ne _ _ (by simp)] at habsent
  exact ⟨seq, hmessage, hnext, habsent, (fun _ hkey ↦ absurd hkey (by simp)), rfl⟩

/-- `record_user_message` stores a complete row under a key that was free. -/
theorem recordUserMessage_stores {sessionId : Uuid} {clientMsgId text : String}
    {recorded : RecordedUserMessage}
    (h : (recordUserMessage sessionId clientMsgId text messageId).Yields before recorded after) :
    ∃ seq, recorded = ⟨⟨seq, messageId, .user, .complete, text⟩, true⟩ ∧
      StoresMessage messageId ⟨sessionId, seq, .user, .complete, text, some clientMsgId⟩
        before after := by
  have hfree := recordUserMessage_fresh h
  obtain ⟨seq, between, hallocate, h⟩ := Program.yields_bind h
  obtain ⟨hnext, rfl⟩ := allocateSeq_yields hallocate
  rcases h with ⟨entry, hentry, h⟩ | h
  · obtain ⟨-, rfl⟩ := ifAbsent_eq_some hentry
    obtain ⟨message, final, hinsert, hrecorded, rfl⟩ := Program.yields_bind h
    obtain ⟨habsent, hmessage, rfl⟩ := insertMessage_yields hinsert
    rw [messageRow_set_of_ne _ _ (by simp), messageRow_set_of_ne _ _ (by simp)] at habsent
    refine ⟨seq, ?_, hnext, habsent, ?_, rfl⟩
    · rw [← hrecorded, hmessage]
      rfl
    · rintro key hkey
      obtain rfl := Option.some.inj hkey
      exact hfree
  · exact h.elim

/-- `_finish` changes the status and the text of a row, or finds none and changes nothing. -/
theorem finishMessage_yields {status : Status} {text : Option String} {value : Unit}
    (h : (finishMessage messageId status text).Yields before value after) :
    after = before ∨ ∃ row, messageRow before messageId = some row ∧
      after = before.set (.chatMessage messageId)
        (some { row with status := status, text := text.getD row.text }) := by
  rcases h with ⟨finished, hfinished, -, rfl⟩ | ⟨-, rfl⟩
  · obtain ⟨row, hrow, rfl⟩ := Option.map_eq_some_iff.mp hfinished
    exact Or.inr ⟨row, hrow, rfl⟩
  · exact Or.inl rfl

/-! ### The same calls, run alone -/

section Alone

variable {database : Database} {sessionId : Uuid} {clientMsgId text : String} {seq : ℕ}
  (now : Instant)

theorem allocateSeq_execute (h : nextSeq database sessionId = some seq) :
    (allocateSeq sessionId).execute database =
      .ok (seq, database.set (.chatSession sessionId) (some (seq + 1))) := by
  have hmatch : (database.row (.chatSession sessionId) : Option ℕ).map
      (fun next ↦ some (next + 1)) = some (some (seq + 1)) := by
    rw [show (database.row (.chatSession sessionId) : Option ℕ) = some seq from h]
    rfl
  rw [allocateSeq, Program.execute_update_of_match hmatch]
  rfl

theorem allocateSeq_execute_of_none (h : nextSeq database sessionId = none) :
    (allocateSeq sessionId).execute database = .error (.lookupError sessionId) := by
  have hmismatch : (database.row (.chatSession sessionId) : Option ℕ).map
      (fun next ↦ some (next + 1)) = none := by
    rw [show (database.row (.chatSession sessionId) : Option ℕ) = none from h]
    rfl
  rw [allocateSeq, Program.execute_update_of_mismatch hmismatch]
  rfl

theorem insertMessage_execute {row : ChatMessageRow} (h : messageRow database messageId = none) :
    (insertMessage messageId row).execute database =
      .ok (row.toMessage messageId, (database.set (.chatMessage messageId) (some row)).insert
        (.message row.sessionId row.seq messageId)) := by
  have hmatch : ifAbsent row (database.row (.chatMessage messageId)) = some (some row) := by
    rw [show (database.row (.chatMessage messageId) : Option ChatMessageRow) = none from h]
    rfl
  rw [insertMessage, Program.execute_update_of_match hmatch]
  rfl

/-- `ensure_session` of a session that exists. -/
theorem perform_ensureSession_of_some (h : nextSeq database sessionId = some seq) :
    perform now (.ensureSession sessionId) database = (.ok .unit, database) := by
  have hexecute : (ensureSession sessionId).execute database = .ok ((), database) := by
    rw [ensureSession, Program.execute_update_of_mismatch]
    · rfl
    · rw [show (database.row (.chatSession sessionId) : Option ℕ) = some seq from h]
      rfl
  exact Program.run_of_execute_ok (Program.execute_map_of_ok hexecute)

/-- `ensure_session` of a session that does not exist. -/
theorem perform_ensureSession_of_none (h : nextSeq database sessionId = none) :
    perform now (.ensureSession sessionId) database =
      (.ok .unit, database.set (.chatSession sessionId) (some 1)) := by
  have hexecute : (ensureSession sessionId).execute database =
      .ok ((), database.set (.chatSession sessionId) (some 1)) := by
    have hmatch : ifAbsent 1 (database.row (.chatSession sessionId)) = some (some 1) := by
      rw [show (database.row (.chatSession sessionId) : Option ℕ) = none from h]
      rfl
    rw [ensureSession, Program.execute_update_of_match hmatch]
    rfl
  exact Program.run_of_execute_ok (Program.execute_map_of_ok hexecute)

/-- `start_assistant_message` in a session that exists, under a fresh name. -/
theorem perform_startAssistantMessage_eq (hnext : nextSeq database sessionId = some seq)
    (habsent : messageRow database messageId = none) :
    perform now (.startAssistantMessage sessionId messageId) database =
      (.ok (.opened ⟨seq, messageId, .assistant, .streaming, ""⟩),
        database.storeMessage messageId ⟨sessionId, seq, .assistant, .streaming, "", none⟩) := by
  refine Program.run_of_execute_ok (Program.execute_map_of_ok ?_)
  rw [startAssistantMessage, Program.execute_bind, allocateSeq_execute hnext]
  exact insertMessage_execute ((messageRow_set_of_ne _ _ (by simp)).trans habsent)

/-- `start_assistant_message` in a session that does not exist. -/
theorem perform_startAssistantMessage_of_none (hnone : nextSeq database sessionId = none) :
    perform now (.startAssistantMessage sessionId messageId) database =
      (.error (.lookupError sessionId), database) := by
  refine Program.run_of_execute_error (Program.execute_map_of_error ?_)
  rw [startAssistantMessage, Program.execute_bind, allocateSeq_execute_of_none hnone]
  rfl

/-- `record_user_message` under a key that is free. -/
theorem perform_recordUserMessage_eq (hnext : nextSeq database sessionId = some seq)
    (hfree : database.row (.clientMessage sessionId clientMsgId) = (none : Option Uuid))
    (habsent : messageRow database messageId = none) :
    perform now (.recordUserMessage sessionId clientMsgId text messageId) database =
      (.ok (.recorded ⟨⟨seq, messageId, .user, .complete, text⟩, true⟩),
        database.storeMessage messageId
          ⟨sessionId, seq, .user, .complete, text, some clientMsgId⟩) := by
  refine Program.run_of_execute_ok (Program.execute_map_of_ok ?_)
  have hmatch : ifAbsent messageId ((database.set (.chatSession sessionId) (some (seq + 1))).row
      (.clientMessage sessionId clientMsgId)) = some (some messageId) := by
    rw [Database.set_row_of_ne _ _ (by simp), hfree]
    rfl
  rw [recordUserMessage, Program.execute_bind, allocateSeq_execute hnext]
  show Program.execute (.update _ _ _) _ = _
  rw [Program.execute_update_of_match hmatch]
  dsimp only
  rw [Program.execute_bind, insertMessage_execute]
  · rfl
  · rw [messageRow_set_of_ne _ _ (by simp), messageRow_set_of_ne _ _ (by simp), habsent]

/-- `record_user_message` under a key that was recorded. -/
theorem perform_recordUserMessage_of_recorded {known : Uuid}
    (hnext : nextSeq database sessionId = some seq)
    (hkey : database.row (.clientMessage sessionId clientMsgId) = some known) :
    perform now (.recordUserMessage sessionId clientMsgId text messageId) database =
      (.error (.alreadyRecorded sessionId clientMsgId), database) := by
  refine Program.run_of_execute_error (Program.execute_map_of_error ?_)
  have hmismatch : ifAbsent messageId ((database.set (.chatSession sessionId) (some (seq + 1))).row
      (.clientMessage sessionId clientMsgId)) = none := by
    rw [Database.set_row_of_ne _ _ (by simp), hkey]
    rfl
  rw [recordUserMessage, Program.execute_bind, allocateSeq_execute hnext]
  show Program.execute (.update _ _ _) _ = _
  rw [Program.execute_update_of_mismatch hmismatch]
  rfl

/-- `record_user_message` in a session that does not exist. -/
theorem perform_recordUserMessage_of_none (hnone : nextSeq database sessionId = none) :
    perform now (.recordUserMessage sessionId clientMsgId text messageId) database =
      (.error (.lookupError sessionId), database) := by
  refine Program.run_of_execute_error (Program.execute_map_of_error ?_)
  rw [recordUserMessage, Program.execute_bind, allocateSeq_execute_of_none hnone]
  rfl

/-- `_by_client_msg_id` of a key that was recorded. -/
theorem perform_byClientMsgId_eq {known : Uuid} {row : ChatMessageRow}
    (hkey : database.row (.clientMessage sessionId clientMsgId) = some known)
    (hrow : messageRow database known = some row) :
    perform now (.byClientMsgId sessionId clientMsgId) database =
      (.ok (.recorded ⟨row.toMessage known, false⟩), database) := by
  refine Program.run_of_execute_ok (Program.execute_map_of_ok ?_)
  have hlookup : (database.row (.chatMessage known) : Option ChatMessageRow) = some row := hrow
  simp only [byClientMsgId, Program.execute, hkey, hlookup, Program.pure_eq]

/-- `_finish` of a message that is not there. -/
theorem finishMessage_execute_of_none (h : messageRow database messageId = none) (status : Status)
    (text : Option String) :
    (finishMessage messageId status text).execute database = .ok ((), database) := by
  have hrow : (database.row (.chatMessage messageId) : Option ChatMessageRow) = none := h
  simp only [finishMessage, Program.execute, hrow, Option.map_none, Program.pure_eq]

theorem perform_completeAssistantMessage_of_none (h : messageRow database messageId = none) :
    perform now (.completeAssistantMessage messageId text) database = (.ok .unit, database) :=
  Program.run_of_execute_ok
    (Program.execute_map_of_ok (finishMessage_execute_of_none h .complete (some text)))

theorem perform_failAssistantMessage_of_none (h : messageRow database messageId = none) :
    perform now (.failAssistantMessage messageId) database = (.ok .unit, database) :=
  Program.run_of_execute_ok
    (Program.execute_map_of_ok (finishMessage_execute_of_none h .failed none))

end Alone

/-! ### The keys of the messages -/

/-- A message of this session that carries this key. -/
def MessageOf (sessionId : Uuid) (clientMsgId : String) (database : Database) (messageId : Uuid) :
    Prop :=
  ∃ row, messageRow database messageId = some row ∧ row.sessionId = sessionId ∧
    row.clientMsgId = some clientMsgId

/-- A user row carries a key and no other row does, and the entries of the partial unique index are
those of the rows. -/
structure MessageKeys (database : Database) : Prop where
  role : ∀ messageId row, messageRow database messageId = some row →
    (row.role = .user ↔ row.clientMsgId ≠ none)
  index : ∀ sessionId clientMsgId messageId,
    database.row (.clientMessage sessionId clientMsgId) = some messageId ↔
      MessageOf sessionId clientMsgId database messageId

namespace MessageKeys

theorem empty : MessageKeys Database.empty where
  role _ _ hrow := nomatch hrow
  index sessionId clientMsgId messageId := by
    constructor
    · exact fun hentry ↦ nomatch hentry
    · rintro ⟨row, hrow, -⟩
      exact nomatch hrow

/-- What leaves the messages and their keys alone. -/
theorem of_eq (h : MessageKeys before)
    (hrows : ∀ messageId, messageRow after messageId = messageRow before messageId)
    (hkeys : ∀ sessionId clientMsgId, after.row (.clientMessage sessionId clientMsgId) =
      before.row (.clientMessage sessionId clientMsgId)) : MessageKeys after where
  role messageId row hrow := h.role messageId row ((hrows messageId).symm.trans hrow)
  index sessionId clientMsgId messageId := by
    rw [hkeys, h.index, MessageOf, MessageOf, hrows]

/-- A message stored with a key if it is the user's, and without one otherwise. -/
theorem stores {row : ChatMessageRow} (h : MessageKeys before)
    (hrole : row.role = .user ↔ row.clientMsgId ≠ none)
    (hstores : StoresMessage messageId row before after) : MessageKeys after := by
  obtain ⟨-, habsent, hfree, rfl⟩ := hstores
  constructor
  · intro other found hfound
    rw [messageRow_storeMessage] at hfound
    split_ifs at hfound with hother
    · exact Option.some.inj hfound ▸ hrole
    · exact h.role other found hfound
  · intro sessionId clientMsgId other
    rw [clientMessage_storeMessage, MessageOf, messageRow_storeMessage]
    by_cases hother : other = messageId
    · subst hother
      have hold : before.row (.clientMessage sessionId clientMsgId) ≠ some other := by
        intro hentry
        obtain ⟨found, hfound, -⟩ := (h.index _ _ _).mp hentry
        exact nomatch habsent.symm.trans hfound
      by_cases hsame : sessionId = row.sessionId ∧ row.clientMsgId = some clientMsgId
      · simp [hsame]
      · simp [hsame, hold, eq_comm]
    · rw [if_neg hother]
      by_cases hsame : sessionId = row.sessionId ∧ row.clientMsgId = some clientMsgId
      · obtain ⟨rfl, hkey⟩ := hsame
        rw [if_pos ⟨rfl, hkey⟩]
        constructor
        · exact fun hentry ↦ absurd (Option.some.inj hentry).symm hother
        · intro hold
          exact nomatch (hfree clientMsgId hkey).symm.trans ((h.index _ _ _).mpr hold)
      · rw [if_neg hsame]
        exact h.index sessionId clientMsgId other

/-- `_finish` changes neither the role nor the key of a row. -/
theorem finishes {row : ChatMessageRow} (h : MessageKeys before)
    (hrow : messageRow before messageId = some row) (status : Status) (text : String) :
    MessageKeys (before.set (.chatMessage messageId)
      (some { row with status := status, text := text })) := by
  have hrows (other : Uuid) : messageRow (before.set (.chatMessage messageId)
      (some { row with status := status, text := text })) other =
        if other = messageId then some { row with status := status, text := text }
        else messageRow before other := by
    split_ifs with hother
    · rw [hother]
      exact Database.set_row_self before (.chatMessage messageId) _
    · exact messageRow_set_of_ne before _ (by simpa using hother)
  constructor
  · intro other found hfound
    rw [hrows] at hfound
    split_ifs at hfound with hother
    · rw [← Option.some.inj hfound]
      exact h.role messageId row hrow
    · exact h.role other found hfound
  · intro sessionId clientMsgId other
    rw [Database.set_row_of_ne _ _ (by simp), h.index, MessageOf, MessageOf, hrows]
    split_ifs with hother
    · subst hother
      simp [hrow]
    · exact Iff.rfl

/-- Every method keeps the rows and their keys in step. -/
theorem kept {now : Instant} {operation : Operation} {outcome : Outcome} (h : MessageKeys before)
    (hyields : (operation.program now).Yields before outcome after) : MessageKeys after := by
  cases hchat : onChat operation with
  | false =>
    have hwithin := Operation.program_within now hchat
    exact h.of_eq (fun messageId ↦ hwithin.row_eq hyields (by simp [RowKey.tier]))
      fun sessionId clientMsgId ↦ hwithin.row_eq hyields (by simp [RowKey.tier])
  | true =>
    cases operation with
    | ensureSession sessionId =>
      obtain ⟨_, hcall, -⟩ := Program.yields_map hyields
      have hwithin : (ensureSession sessionId).Within fun key ↦ key.tier ≤ 2 :=
        ⟨le_refl 2, fun _ ↦ trivial⟩
      exact h.of_eq (fun messageId ↦ hwithin.row_eq hcall (by simp [RowKey.tier]))
        fun sessionId clientMsgId ↦ hwithin.row_eq hcall (by simp [RowKey.tier])
    | recordUserMessage sessionId clientMsgId text messageId =>
      obtain ⟨_, hcall, -⟩ := Program.yields_map hyields
      obtain ⟨seq, -, hstores⟩ := recordUserMessage_stores hcall
      exact h.stores (by simp) hstores
    | startAssistantMessage sessionId messageId =>
      obtain ⟨_, hcall, -⟩ := Program.yields_map hyields
      obtain ⟨seq, -, hstores⟩ := startAssistantMessage_stores hcall
      exact h.stores (by simp) hstores
    | completeAssistantMessage messageId text =>
      obtain ⟨_, hcall, -⟩ := Program.yields_map hyields
      rcases finishMessage_yields hcall with rfl | ⟨row, hrow, rfl⟩
      · exact h
      · exact h.finishes hrow .complete text
    | failAssistantMessage messageId =>
      obtain ⟨_, hcall, -⟩ := Program.yields_map hyields
      rcases finishMessage_yields hcall with rfl | ⟨row, hrow, rfl⟩
      · exact h
      · exact h.finishes hrow .failed row.text
    | byClientMsgId sessionId clientMsgId =>
      obtain ⟨_, hcall, -⟩ := Program.yields_map hyields
      rw [byClientMsgId_yields hcall]
      exact h
    | logSince sessionId afterSeq limit =>
      obtain ⟨_, hcall, -⟩ := Program.yields_map hyields
      rw [(logSince_readOnly sessionId afterSeq limit).after_eq hcall]
      exact h
    | _ => cases hchat

end MessageKeys

/-- In every committed state of a run. -/
theorem messageKeys_of_execution {Backend : Type} [DecidableEq Backend] {history : List Commit}
    {system : System Backend} (h : Execution history system) : MessageKeys system.committed :=
  Execution.invariant MessageKeys.empty (fun _ _ _ _ hkeys hyields ↦ hkeys.kept hyields) h

end Abacus.Postgres
