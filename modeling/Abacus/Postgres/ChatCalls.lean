import Abacus.Postgres.GapFree
import Abacus.Postgres.RowKept

/-!
# What a chat call that returned did

One lemma for each method of the chat repository that a handler goes on after: what it returned,
and the rows it found and left.
-/

set_option autoImplicit false
set_option relaxedAutoImplicit false

namespace Abacus.Postgres

open RowLocking (Program)

/-- A message inserted was not there, and is. -/
theorem insertMessage_yields {messageId : Uuid} {row : ChatMessageRow} {before after : Database}
    {message : StoredMessage} (h : (insertMessage messageId row).Yields before message after) :
    messageRow before messageId = none ∧ message = row.toMessage messageId ∧
      after = (before.set (.chatMessage messageId) (some row)).insert
        (.message row.sessionId row.seq messageId) := by
  rcases h with ⟨new, hmatch, h⟩ | h
  · obtain ⟨habsent, rfl⟩ := ifAbsent_eq_some hmatch
    obtain ⟨hmessage, hafter⟩ := h
    exact ⟨habsent, hmessage.symm, hafter.symm⟩
  · exact h.elim

/-- `start_assistant_message` opened a row that streams, with the next number of its session. -/
theorem startAssistantMessage_yields {sessionId messageId : Uuid} {before after : Database}
    {message : StoredMessage}
    (h : (startAssistantMessage sessionId messageId).Yields before message after) :
    ∃ seq, nextSeq before sessionId = some seq ∧ messageRow before messageId = none ∧
      message = ⟨seq, messageId, .assistant, .streaming, ""⟩ ∧
      messageRow after messageId =
        some ⟨sessionId, seq, .assistant, .streaming, "", none⟩ := by
  obtain ⟨seq, between, hallocate, h⟩ := Program.yields_bind h
  obtain ⟨hnext, rfl⟩ := allocateSeq_yields hallocate
  obtain ⟨habsent, hmessage, rfl⟩ := insertMessage_yields h
  refine ⟨seq, hnext, ?_, hmessage, ?_⟩
  · rwa [messageRow_set_of_ne _ _ (by simp)] at habsent
  · rw [messageRow_insert]
    exact RowLocking.Database.set_row_self _ _ _

/-- `record_user_message` stored its message under a key that was not recorded. -/
theorem recordUserMessage_yields {sessionId messageId : Uuid} {clientMsgId text : String}
    {before after : Database} {recorded : RecordedUserMessage}
    (h : (recordUserMessage sessionId clientMsgId text messageId).Yields before recorded after) :
    recorded.created = true ∧
      before.row (.clientMessage sessionId clientMsgId) = (none : Option Uuid) ∧
      after.row (.clientMessage sessionId clientMsgId) = some messageId := by
  have hfresh := recordUserMessage_fresh h
  obtain ⟨seq, between, hallocate, h⟩ := Program.yields_bind h
  rcases h with ⟨entry, hentry, h⟩ | h
  · obtain ⟨-, rfl⟩ := ifAbsent_eq_some hentry
    obtain ⟨message, final, hinsert, hrecorded, rfl⟩ := Program.yields_bind h
    obtain ⟨-, -, rfl⟩ := insertMessage_yields hinsert
    refine ⟨?_, hfresh, ?_⟩
    · rw [← hrecorded]
    · rw [RowLocking.Database.insert_row,
        RowLocking.Database.set_row_of_ne _ _ (by simp)]
      exact RowLocking.Database.set_row_self _ _ _
  · exact h.elim

/-- The second transaction of `record_user_message` returned a message that was there. -/
theorem byClientMsgId_created {sessionId : Uuid} {clientMsgId : String} {before after : Database}
    {recorded : RecordedUserMessage}
    (h : (byClientMsgId sessionId clientMsgId).Yields before recorded after) :
    recorded.created = false := by
  obtain ⟨snapshot, h⟩ := h
  dsimp only at h
  split at h
  · split at h
    · rw [← h.1]
    · exact h.elim
  · exact h.elim

/-! ### The same of calls that run alone -/

theorem perform_yields {now : Instant} {operation : Operation} {outcome : Outcome}
    {before after : Database} (h : perform now operation before = (.ok outcome, after)) :
    (operation.program now).Yields before outcome after :=
  Program.yields_of_execute (Program.execute_of_run_ok h)

theorem perform_startAssistantMessage {now : Instant} {sessionId messageId : Uuid}
    {outcome : Outcome} {before after : Database}
    (h : perform now (.startAssistantMessage sessionId messageId) before = (.ok outcome, after)) :
    ∃ seq, outcome = .opened ⟨seq, messageId, .assistant, .streaming, ""⟩ ∧
      messageRow before messageId = none ∧
      messageRow after messageId =
        some ⟨sessionId, seq, .assistant, .streaming, "", none⟩ := by
  obtain ⟨message, hyields, rfl⟩ := Program.yields_map (perform_yields h)
  obtain ⟨seq, -, habsent, rfl, hrow⟩ := startAssistantMessage_yields hyields
  exact ⟨seq, rfl, habsent, hrow⟩

theorem perform_recordUserMessage {now : Instant} {sessionId messageId : Uuid}
    {clientMsgId text : String} {outcome : Outcome} {before after : Database}
    (h : perform now (.recordUserMessage sessionId clientMsgId text messageId) before =
      (.ok outcome, after)) :
    ∃ recorded, outcome = .recorded recorded ∧ recorded.created = true ∧
      before.row (.clientMessage sessionId clientMsgId) = (none : Option Uuid) ∧
      after.row (.clientMessage sessionId clientMsgId) = some messageId := by
  obtain ⟨recorded, hyields, rfl⟩ := Program.yields_map (perform_yields h)
  exact ⟨recorded, rfl, recordUserMessage_yields hyields⟩

theorem perform_byClientMsgId {now : Instant} {sessionId : Uuid} {clientMsgId : String}
    {outcome : Outcome} {before after : Database}
    (h : perform now (.byClientMsgId sessionId clientMsgId) before = (.ok outcome, after)) :
    ∃ recorded, outcome = .recorded recorded ∧ recorded.created = false ∧ after = before := by
  obtain ⟨recorded, hyields, rfl⟩ := Program.yields_map (perform_yields h)
  exact ⟨recorded, rfl, byClientMsgId_created hyields, byClientMsgId_yields hyields⟩

/-- Every call keeps the log numbered and its messages the rows. -/
theorem perform_gapFree (now : Instant) (operation : Operation) {database : Database}
    (h : GapFree database) : GapFree (perform now operation database).2 := by
  cases hperform : perform now operation database with
  | mk reply after =>
    cases reply with
    | ok outcome =>
      exact operation.program_keepsGapFree now database outcome after h (perform_yields hperform)
    | error error =>
      obtain rfl : after = database := Program.run_error_database hperform
      exact h

end Abacus.Postgres
