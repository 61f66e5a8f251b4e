import Abacus.Chat.Speech
import Abacus.Chat.Told

/-!
# Streams that agree with the log

The stream of a message is what is passed to `send` of it chunk by chunk: its `delta` frames and its
`done`. `Turn.Streamed` is what the place of its turn says about the stream and about the row:
while the turn runs, the stream is the chunks so far, numbered from zero; a turn that goes on to its
`done` has found its row written with these chunks; and a turn that has sent it has nothing left to
write. In every state of a run every stream is the beginning of a whole one, and one with a `done`
is what the row says, for good (`stream_whole`).
-/

set_option autoImplicit false
set_option relaxedAutoImplicit false

namespace Abacus

/-! ### Streams -/

/-- The frame is a part of the stream of a message. -/
def ServerFrame.streams (messageId : Uuid) : ServerFrame → Bool
  | .delta other _ _ => decide (other = messageId)
  | .done other _ => decide (other = messageId)
  | _ => false

/-- What was passed to `send` of the stream of a message. -/
def Connection.stream (conn : Connection) (messageId : Uuid) : List ServerFrame :=
  conn.sent.filter (ServerFrame.streams messageId)

/-- The chunks of a reply, numbered from zero. -/
def deltas (messageId : Uuid) (chunks : List String) : List ServerFrame :=
  chunks.mapIdx fun index text ↦ .delta messageId index text

theorem deltas_concat (messageId : Uuid) (chunks : List String) (text : String) :
    deltas messageId (chunks ++ [text]) =
      deltas messageId chunks ++ [.delta messageId chunks.length text] :=
  List.mapIdx_concat

theorem streams_of_plain {frames : List ServerFrame} (h : ∀ frame ∈ frames, frame.plain = true)
    (messageId : Uuid) : frames.filter (ServerFrame.streams messageId) = [] := by
  apply List.filter_eq_nil_iff.mpr
  intro frame hframe
  have hplain := h frame hframe
  cases frame with
  | delta => exact Bool.noConfusion hplain
  | done => exact Bool.noConfusion hplain
  | _ => exact Bool.false_ne_true

namespace Chat

open Postgres (Operation Outcome perform messageRow onChat ChatMessageRow)

namespace Handler

variable {handler after : Handler} {turn moved : Turn} {frames : List ServerFrame}

theorem stream_append (hsent : after.conn.sent = handler.conn.sent ++ frames) (messageId : Uuid) :
    after.conn.stream messageId =
      handler.conn.stream messageId ++ frames.filter (ServerFrame.streams messageId) := by
  rw [Connection.stream, Connection.stream, hsent, List.filter_append]

/-- A turn says nothing in the stream of another message. -/
theorem TurnSpeaks.other (h : TurnSpeaks turn moved frames) {messageId : Uuid}
    (hother : turn.assistant.messageId ≠ messageId) :
    frames.filter (ServerFrame.streams messageId) = [] := by
  cases h with
  | chunk chunks text => simp [ServerFrame.streams, hother]
  | completed => simp [ServerFrame.streams, hother]
  | failed cancelled frames hplace hplain => exact streams_of_plain hplain messageId
  | _ => rfl

end Handler

/-! ### What the place of a turn says -/

/-- The row is complete, with the text of the chunks. -/
def Completed (row : Option ChatMessageRow) (chunks : List String) : Prop :=
  ∃ stored, row = some stored ∧ stored.status = .complete ∧ stored.text = String.join chunks

/-- The row is there, under the number that the turn goes by. -/
def Numbered (row : Option ChatMessageRow) (assistant : StoredMessage) : Prop :=
  ∃ stored, row = some stored ∧ stored.seq = assistant.seq

/-- The row is there, under the number that the turn will go by, and streams. -/
def Opened (row : Option ChatMessageRow) (assistant : StoredMessage) : Prop :=
  ∃ stored, row = some stored ∧ stored.seq = assistant.seq ∧ stored.status = .streaming

theorem Opened.numbered {row : Option ChatMessageRow} {assistant : StoredMessage}
    (h : Opened row assistant) : Numbered row assistant := by
  obtain ⟨stored, hrow, hseq, -⟩ := h
  exact ⟨stored, hrow, hseq⟩

namespace Turn

variable {turn moved : Turn} {stream frames : List ServerFrame} {row after : Option ChatMessageRow}

/-- What the place of a turn says about its stream and its row. -/
def Streamed (turn : Turn) (stream : List ServerFrame) (row : Option ChatMessageRow) : Prop :=
  match turn.place with
  | .starting => turn.marking = false ∧ stream = []
  | .responding chunks => turn.marking = false ∧ stream = deltas turn.assistant.messageId chunks
  | .yielding chunks => turn.marking = false ∧ stream = deltas turn.assistant.messageId chunks
  | .completing chunks =>
    turn.marking = false ∧ stream = deltas turn.assistant.messageId chunks ∧
      ∀ outcome, turn.pending = some (.returned outcome) → Completed row chunks
  | .failing _ => ∃ chunks, stream = deltas turn.assistant.messageId chunks
  | .ended =>
    (∃ chunks, stream = deltas turn.assistant.messageId chunks) ∨
      turn.marking = false ∧ ∃ chunks, stream = deltas turn.assistant.messageId chunks ++
        [.done turn.assistant.messageId turn.assistant.seq] ∧ Completed row chunks

/-- A turn that goes on says in its stream what its new place says about it. -/
theorem Streamed.speaks (h : turn.Streamed stream row)
    (hmoves : Handler.TurnSpeaks turn moved frames) :
    moved.Streamed
      (stream ++ frames.filter (ServerFrame.streams turn.assistant.messageId)) row := by
  unfold Streamed at h
  cases hmoves with
  | begins hplace =>
    rw [hplace] at h
    rw [List.filter_nil, List.append_nil, h.2]
    exact ⟨h.1, rfl⟩
  | chunk chunks text hplace =>
    rw [hplace] at h
    refine ⟨h.1, ?_⟩
    rw [h.2, deltas_concat]
    simp [ServerFrame.streams]
  | slept chunks hplace =>
    rw [hplace] at h
    rw [List.filter_nil, List.append_nil]
    exact h
  | exhausted chunks hplace hpending =>
    rw [hplace] at h
    rw [List.filter_nil, List.append_nil]
    refine ⟨h.1, h.2, fun outcome hreturned ↦ ?_⟩
    exact absurd (hpending.symm.trans hreturned) (by simp)
  | raised chunks hplace =>
    rw [hplace] at h
    rw [List.filter_nil, List.append_nil]
    exact ⟨chunks, h.2⟩
  | completed chunks outcome hplace hpending =>
    rw [hplace] at h
    refine Or.inr ⟨h.1, chunks, ?_, h.2.2 outcome hpending⟩
    rw [h.2.1]
    simp [ServerFrame.streams]
  | notCompleted chunks hplace =>
    rw [hplace] at h
    rw [List.filter_nil, List.append_nil]
    exact ⟨chunks, h.2.1⟩
  | failed cancelled frames hplace hplain =>
    rw [hplace] at h
    rw [streams_of_plain hplain, List.append_nil]
    exact Or.inl h
  | neverStarted hplace =>
    rw [hplace] at h
    rw [List.filter_nil, List.append_nil]
    exact Or.inl ⟨[], h.2⟩
  | cancelled chunks hplace =>
    rw [List.filter_nil, List.append_nil]
    rcases hplace with hplace | hplace | hplace
    · rw [hplace] at h
      exact ⟨chunks, h.2⟩
    · rw [hplace] at h
      exact ⟨chunks, h.2⟩
    · rw [hplace] at h
      exact ⟨chunks, h.2.1⟩

/-- A cancellation says nothing, and takes the place of a reply. -/
theorem Streamed.cancel (h : turn.Streamed stream row) : turn.cancel.Streamed stream row := by
  unfold Turn.cancel
  unfold Streamed at h
  cases hplace : turn.place with
  | ended =>
    rw [hplace] at h
    simpa only [Streamed, hplace] using h
  | completing chunks =>
    rw [hplace] at h
    simp only [Streamed]
    exact ⟨h.1, h.2.1, fun outcome hreturned ↦ absurd hreturned (by simp)⟩
  | _ =>
    rw [hplace] at h
    simpa only [Streamed, hplace] using h

/-- The call of a turn writes the chunks that the turn has sent, or the turn never says `done`. -/
theorem Streamed.call {operation : Operation} {reply : Reply} (h : turn.Streamed stream row)
    (hcall : turn.call = some operation)
    (hreply : ∀ chunks outcome, reply = .returned outcome →
      operation = .completeAssistantMessage turn.assistant.messageId (String.join chunks) →
        Completed after chunks) : (turn.answer reply).Streamed stream after := by
  unfold Streamed at h
  unfold Turn.call at hcall
  unfold Turn.answer
  cases hmarking : turn.marking with
  | true =>
    -- The shielded write is that of a turn that was cancelled.
    simp only [if_true, Streamed]
    cases hplace : turn.place with
    | failing cancelled =>
      rw [hplace] at h
      exact h
    | ended =>
      rw [hplace] at h
      rcases h with h | ⟨hfalse, -⟩
      · exact Or.inl h
      · exact Bool.noConfusion (hfalse.symm.trans hmarking)
    | _ =>
      rw [hplace] at h
      exact Bool.noConfusion (h.1.symm.trans hmarking)
  | false =>
    simp only [hmarking, Bool.false_eq_true, if_false] at hcall
    simp only [Bool.false_eq_true, if_false, Streamed]
    cases hplace : turn.place with
    | completing chunks =>
      rw [hplace] at h hcall
      refine ⟨trivial, h.2.1, fun outcome hreturned ↦ ?_⟩
      exact hreply chunks outcome (Option.some.inj hreturned) (Option.some.inj hcall).symm
    | failing cancelled =>
      rw [hplace] at h
      exact h
    | _ =>
      rw [hplace] at hcall
      exact absurd hcall (by simp)

/-- Wherever the turn is, its stream is chunks in order, followed by a `done` only if the turn is
over and the row is complete with these chunks. -/
theorem Streamed.whole (h : turn.Streamed stream row) :
    ∃ chunks, stream = deltas turn.assistant.messageId chunks ∨
      stream = deltas turn.assistant.messageId chunks ++
          [.done turn.assistant.messageId turn.assistant.seq] ∧
        turn.Over ∧ Completed row chunks := by
  unfold Streamed at h
  cases hplace : turn.place with
  | starting =>
    rw [hplace] at h
    exact ⟨[], Or.inl h.2⟩
  | responding chunks =>
    rw [hplace] at h
    exact ⟨chunks, Or.inl h.2⟩
  | yielding chunks =>
    rw [hplace] at h
    exact ⟨chunks, Or.inl h.2⟩
  | completing chunks =>
    rw [hplace] at h
    exact ⟨chunks, Or.inl h.2.1⟩
  | failing cancelled =>
    rw [hplace] at h
    obtain ⟨chunks, hchunks⟩ := h
    exact ⟨chunks, Or.inl hchunks⟩
  | ended =>
    rw [hplace] at h
    rcases h with ⟨chunks, hchunks⟩ | ⟨hmarking, chunks, hchunks, hcompleted⟩
    · exact ⟨chunks, Or.inl hchunks⟩
    · exact ⟨chunks, Or.inr ⟨hchunks, ⟨hplace, hmarking⟩, hcompleted⟩⟩

/-- The call of a turn finishes its row. -/
theorem call_finishes {operation : Operation} (h : turn.call = some operation) :
    operation.finishes = some turn.assistant.messageId := by
  unfold Turn.call at h
  split_ifs at h
  · rw [← Option.some.inj h]
    rfl
  · split at h
    · rw [← Option.some.inj h]
      rfl
    · rw [← Option.some.inj h]
      rfl
    · exact absurd h (by simp)

end Turn

/-! ### What a handler says -/

namespace Handler

/-- The place of every turn says what its stream and its row are, only turns have streams, and a row
that was opened streams. -/
structure Streaming (rows : Uuid → Option ChatMessageRow) (handler : Handler) : Prop where
  turns : ∀ id turn, handler.tasks id = some turn →
    Numbered (rows turn.assistant.messageId) turn.assistant ∧
      turn.Streamed (handler.conn.stream turn.assistant.messageId) (rows turn.assistant.messageId)
  named : ∀ messageId, handler.conn.stream messageId ≠ [] →
    ∃ id turn, handler.tasks id = some turn ∧ turn.assistant.messageId = messageId
  awaits : ∀ assistant, handler.reader.Awaits assistant →
    Opened (rows assistant.messageId) assistant

variable {settings : Settings} {rows : Uuid → Option ChatMessageRow} {handler after : Handler}

/-- No step of a handler opens a row. -/
theorem step_awaits {action : Action} (hends : handler.Ends)
    (hstep : handler.step settings action = some after) (assistant : StoredMessage)
    (hawaits : after.reader.Awaits assistant) : handler.reader.Awaits assistant := by
  have hopening : handler.serve.place = .opening →
      ∀ outcome, handler.reader.pending ≠ some (.returned outcome) := by
    intro hplace
    simp [hends.opening hplace]
  cases step_turns hopening hstep with
  | quiet htasks hturns hreader => exact hreader.gains assistant hawaits
  | cancels hstops htasks hturns hreader => exact hreader.gains assistant hawaits
  | turn id turn moved hturn hmoves htasks hturns hreader => exact hreader ▸ hawaits
  | started => exact absurd hawaits (Reader.not_awaits_of_pending (by simp) assistant)
  | finished => exact hawaits

namespace Streaming

theorem new (settings : Settings) (sessionId : Uuid) :
    (Handler.new settings sessionId).Streaming rows where
  turns _ _ hturn := absurd hturn (by simp [Handler.new])
  named _ hstream := absurd rfl hstream
  awaits assistant hawaits := by
    obtain ⟨message, recorded, hreader⟩ := hawaits
    exact absurd (congrArg Reader.pending hreader) (by simp [Handler.new])

/-- A handler says nothing of other rows than those of its turns and the one it has opened. -/
theorem congr {new : Uuid → Option ChatMessageRow} (h : handler.Streaming rows)
    (hrows : ∀ messageId, handler.Covers messageId → new messageId = rows messageId) :
    handler.Streaming new where
  turns id turn hturn := by
    rw [hrows _ (Or.inr ⟨id, turn, hturn, rfl⟩)]
    exact h.turns id turn hturn
  named := h.named
  awaits assistant hawaits := by
    rw [hrows _ (Or.inl ⟨assistant, hawaits, rfl⟩)]
    exact h.awaits assistant hawaits

/-- A step that says nothing in any stream, and cancels turns at most. -/
theorem quiet (h : handler.Streaming rows)
    (hstream : ∀ messageId, after.conn.stream messageId = handler.conn.stream messageId)
    (htasks : ∀ id, after.tasks id = handler.tasks id ∨
      after.tasks id = (handler.tasks id).map Turn.cancel)
    (hawaits : ∀ assistant, after.reader.Awaits assistant → handler.reader.Awaits assistant) :
    after.Streaming rows := by
  constructor
  · intro id turn hturn
    rw [hstream]
    rcases htasks id with hsame | hcancel
    · exact h.turns id turn (hsame.symm.trans hturn)
    · obtain ⟨old, hold, rfl⟩ := Option.map_eq_some_iff.mp (hcancel.symm.trans hturn)
      rw [old.cancel_assistant]
      exact ⟨(h.turns id old hold).1, (h.turns id old hold).2.cancel⟩
  · intro messageId hsome
    rw [hstream] at hsome
    obtain ⟨id, turn, hturn, hmessage⟩ := h.named messageId hsome
    rcases htasks id with hsame | hcancel
    · exact ⟨id, turn, hsame.trans hturn, hmessage⟩
    · refine ⟨id, turn.cancel, ?_, by rw [turn.cancel_assistant, hmessage]⟩
      rw [hcancel, hturn, Option.map_some]
  · exact fun assistant hafter ↦ h.awaits assistant (hawaits assistant hafter)

/-- The turn of a row that was opened has an empty stream. -/
theorem started (h : handler.Streaming rows) {owns : Uuid → Prop} (howns : handler.Owns owns)
    {message : UserMessage} {recorded : RecordedUserMessage} {assistant : StoredMessage} {fresh : ℕ}
    (hreader : handler.reader.Awaits assistant) (hfresh : handler.tasks fresh = none) :
    (handler.startTurn message recorded assistant fresh).Streaming rows := by
  have hstream (messageId : Uuid) :
      (handler.startTurn message recorded assistant fresh).conn.stream messageId =
        handler.conn.stream messageId := by
    have hsent := Connection.sent_send handler.conn (.ack message.clientMsgId recorded.message.seq
      recorded.message.messageId (some assistant.messageId))
    rw [stream_append hsent messageId]
    simp [ServerFrame.streams]
  have htasks (id : ℕ) : (handler.startTurn message recorded assistant fresh).tasks id =
      if id = fresh then some ⟨message.clientMsgId, assistant, .starting, none, false⟩
      else handler.tasks id :=
    Function.update_apply handler.tasks fresh _ id
  constructor
  · intro id turn hturn
    rw [hstream]
    rw [htasks] at hturn
    split_ifs at hturn
    · obtain rfl := Option.some.inj hturn
      refine ⟨(h.awaits assistant hreader).numbered, rfl, ?_⟩
      by_contra hsome
      obtain ⟨id, turn, hturn, hmessage⟩ := h.named _ hsome
      exact (howns.reader assistant hreader).2 id turn hturn hmessage
    · exact h.turns id turn hturn
  · intro messageId hsome
    rw [hstream] at hsome
    obtain ⟨id, turn, hturn, hmessage⟩ := h.named messageId hsome
    refine ⟨id, turn, ?_, hmessage⟩
    rw [htasks, if_neg]
    · exact hturn
    · rintro rfl
      exact absurd (hturn.symm.trans hfresh) (Option.some_ne_none turn)
  · exact fun other hawaits ↦ absurd hawaits (Reader.not_awaits_of_pending (by simp) other)

/-- A turn that goes on says something in its own stream only. -/
theorem turn (h : handler.Streaming rows) {owns : Uuid → Prop} (howns : handler.Owns owns) {id : ℕ}
    {turn moved : Turn} {frames : List ServerFrame} (hturn : handler.tasks id = some turn)
    (hmoves : TurnSpeaks turn moved frames) (hsent : after.conn.sent = handler.conn.sent ++ frames)
    (htasks : after.tasks = Function.update handler.tasks id (some moved))
    (hreader : after.reader = handler.reader) : after.Streaming rows := by
  constructor
  · intro other new hnew
    rw [htasks, Function.update_apply] at hnew
    rw [stream_append hsent]
    split_ifs at hnew with hother
    · obtain rfl := Option.some.inj hnew
      rw [hmoves.assistant]
      exact ⟨(h.turns id turn hturn).1, (h.turns id turn hturn).2.speaks hmoves⟩
    · have hne : turn.assistant.messageId ≠ new.assistant.messageId :=
        fun hsame ↦ hother (howns.distinct other id new turn hnew hturn hsame.symm)
      rw [hmoves.other hne, List.append_nil]
      exact h.turns other new hnew
  · intro messageId hsome
    by_cases hself : turn.assistant.messageId = messageId
    · refine ⟨id, moved, ?_, by rw [hmoves.assistant, hself]⟩
      rw [htasks, Function.update_self]
    · rw [stream_append hsent, hmoves.other hself, List.append_nil] at hsome
      obtain ⟨other, otherTurn, hotherTurn, hmessage⟩ := h.named messageId hsome
      refine ⟨other, otherTurn, ?_, hmessage⟩
      rw [htasks, Function.update_of_ne]
      · exact hotherTurn
      · rintro rfl
        obtain rfl := Option.some.inj (hturn.symm.trans hotherTurn)
        exact hself hmessage
  · rw [hreader]
    exact h.awaits

/-- Every step of a handler keeps what the places say. -/
theorem step {action : Action} (h : handler.Streaming rows) {owns : Uuid → Prop}
    (howns : handler.Owns owns) (hstep : handler.step settings action = some after) :
    after.Streaming rows := by
  have hawaits := step_awaits howns.ends hstep
  cases step_speaks hstep with
  | quiet frames hsent hplain htasks hturns hlive hreader =>
    refine h.quiet (fun messageId ↦ ?_) htasks hawaits
    rw [stream_append hsent, streams_of_plain hplain, List.append_nil]
  | replayed message recorded hreader hcreated haction =>
    refine h.quiet (fun messageId ↦ ?_) (fun id ↦ Or.inl rfl) hawaits
    have hsent := Connection.sent_send handler.conn (.ack message.clientMsgId recorded.message.seq
      recorded.message.messageId (handler.liveReplies message.clientMsgId))
    rw [stream_append hsent]
    simp [ServerFrame.streams]
  | started message recorded assistant fresh hreader hfresh =>
    exact h.started howns ⟨message, recorded, hreader⟩ hfresh
  | turn id turn moved frames hturn hmoves hsent htasks hturns hlive hreader =>
    exact h.turn howns hturn hmoves hsent htasks hreader
  | finished => exact h.quiet (fun _ ↦ rfl) (fun _ ↦ Or.inl rfl) hawaits

/-- The reply to the call of a turn: its row is what the call left, and the others are as they
were. -/
theorem answer_turn {new : Uuid → Option ChatMessageRow} (h : handler.Streaming rows) {id : ℕ}
    {turn : Turn} {reply : Reply} {operation : Operation} (hturn : handler.tasks id = some turn)
    (hcall : turn.call = some operation)
    (hothers : ∀ messageId, handler.Covers messageId → messageId ≠ turn.assistant.messageId →
      new messageId = rows messageId)
    (hnumbered : ∀ messageId assistant, Numbered (rows messageId) assistant →
      Numbered (new messageId) assistant)
    (hreply : ∀ chunks outcome, reply = .returned outcome →
      operation = .completeAssistantMessage turn.assistant.messageId (String.join chunks) →
        Completed (new turn.assistant.messageId) chunks)
    {owns : Uuid → Prop} (howns : handler.Owns owns) :
    (handler.answer reply (.turn id)).Streaming new := by
  have htasks (other : ℕ) : (handler.answer reply (.turn id)).tasks other =
      if other = id then some (turn.answer reply) else handler.tasks other := by
    have hupdate : (handler.answer reply (.turn id)).tasks other =
        Function.update handler.tasks id ((handler.tasks id).map fun turn ↦ turn.answer reply)
          other := rfl
    rw [hupdate, hturn, Option.map_some, Function.update_apply]
  constructor
  · intro other otherTurn hotherTurn
    rw [htasks] at hotherTurn
    split_ifs at hotherTurn with hother
    · obtain rfl := Option.some.inj hotherTurn
      rw [turn.answer_assistant]
      exact ⟨hnumbered _ _ (h.turns id turn hturn).1, (h.turns id turn hturn).2.call hcall hreply⟩
    · rw [hothers _ (Or.inr ⟨other, otherTurn, hotherTurn, rfl⟩)
        (fun hsame ↦ hother (howns.distinct other id otherTurn turn hotherTurn hturn hsame))]
      exact h.turns other otherTurn hotherTurn
  · intro messageId hsome
    obtain ⟨other, otherTurn, hotherTurn, rfl⟩ := h.named messageId hsome
    by_cases hother : other = id
    · subst hother
      obtain rfl := Option.some.inj (hturn.symm.trans hotherTurn)
      exact ⟨other, turn.answer reply, by rw [htasks, if_pos rfl], by rw [turn.answer_assistant]⟩
    · exact ⟨other, otherTurn, by rw [htasks, if_neg hother, hotherTurn], rfl⟩
  · intro assistant hawaits
    rw [hothers _ (Or.inl ⟨assistant, hawaits, rfl⟩)
      ((howns.reader assistant hawaits).2 id turn hturn).symm]
    exact h.awaits assistant hawaits

end Streaming

end Handler

/-! ### Runs -/

section Runs

variable {Socket : Type} [DecidableEq Socket] {settings : Settings} {system after : System Socket}
  {socket : Socket} {handler : Handler}

omit [DecidableEq Socket] in
/-- On every connection, what the turns say is so. -/
def System.Streaming (system : System Socket) : Prop :=
  ∀ socket handler, system.handlers socket = some handler →
    handler.Streaming (messageRow system.database)

omit [DecidableEq Socket] in
/-- A call leaves the rows of a connection but the one it finishes. -/
theorem Owned.row_perform (howned : Owned system) (hhandler : system.handlers socket = some handler)
    {operation : Operation} {messageId : Uuid} (hcovers : handler.Covers messageId)
    (hother : operation.finishes ≠ some messageId) :
    messageRow (perform system.now operation system.database).2 messageId =
      messageRow system.database messageId := by
  obtain ⟨opening, hmem, -, rfl⟩ := Resolving.opened_of_covers howned hhandler hcovers
  obtain ⟨row, hrow⟩ := Option.ne_none_iff_exists'.mp (howned.rows opening hmem)
  rw [hrow, Postgres.perform_messageRow_eq hother hrow]

/-- A call leaves the number of a row. -/
theorem Numbered.perform {database : Postgres.Database} {messageId : Uuid}
    {assistant : StoredMessage} (h : Numbered (messageRow database messageId) assistant)
    (now : Instant) (operation : Operation) :
    Numbered (messageRow (Postgres.perform now operation database).2 messageId) assistant := by
  obtain ⟨row, hrow, hseq⟩ := h
  obtain ⟨new, hnew, -, hsame, -⟩ : ∃ new,
      messageRow (Postgres.perform now operation database).2 messageId = some new ∧
        row.SameMessage new := Postgres.perform_messageRow hrow
  exact ⟨new, hnew, hsame.trans hseq⟩

namespace System.Streaming

omit [DecidableEq Socket] in
/-- A step that leaves the rows and the handlers. -/
theorem frame (h : system.Streaming) {new : Uuid → Option ChatMessageRow}
    (hrows : ∀ socket handler messageId, system.handlers socket = some handler →
      handler.Covers messageId → new messageId = messageRow system.database messageId)
    (other : Socket) (old : Handler) (hold : system.handlers other = some old) :
    old.Streaming new :=
  (h other old hold).congr fun messageId ↦ hrows other old messageId hold

omit [DecidableEq Socket] in
/-- The reply to a call that finishes no row: the reader may have opened one. -/
theorem answer (h : system.Streaming) (howned : Owned system)
    (hhandler : system.handlers socket = some handler) {task : Handler.Task} {drawn : Uuid}
    {operation : Operation} (lost : Bool)
    (hcall : handler.call settings drawn task = some operation)
    (hfinishes : operation.finishes = none) :
    (handler.answer (if lost then .raised none
      else replyOf (perform system.now operation system.database).1) task).Streaming
        (messageRow (perform system.now operation system.database).2) := by
  have hkept : handler.Streaming (messageRow (perform system.now operation system.database).2) :=
    (h socket handler hhandler).congr fun messageId hcovers ↦
      howned.row_perform hhandler hcovers (by simp [hfinishes])
  cases task with
  | serve => exact ⟨hkept.turns, hkept.named, hkept.awaits⟩
  | turn id =>
    obtain ⟨turn, -, hturnCall⟩ := Option.bind_eq_some_iff.mp hcall
    split_ifs at hturnCall
    exact absurd (hfinishes.symm.trans (Turn.call_finishes hturnCall)) (by simp)
  | reader =>
    refine ⟨hkept.turns, hkept.named, ?_⟩
    rintro assistant ⟨message, recorded, hreader⟩
    obtain ⟨hplace, hpending⟩ := Reader.mk.inj hreader
    obtain ⟨place, hbefore, hplaceCall⟩ := Handler.call_reader hcall
    rw [hbefore] at hplace
    obtain rfl : place = .opening message recorded := hplace
    obtain rfl := Option.some.inj hplaceCall
    have hreply := Option.some.inj hpending
    cases hperform : perform system.now (.startAssistantMessage handler.conn.sessionId drawn)
        system.database with
    | mk reply database =>
      rw [hperform] at hreply
      cases lost with
      | true => exact absurd hreply (by simp)
      | false =>
        cases reply with
        | error error => exact absurd hreply (by simp [replyOf])
        | ok outcome =>
          obtain ⟨seq, rfl, -, hrow⟩ := Postgres.perform_startAssistantMessage hperform
          obtain rfl := Outcome.opened.inj (Reply.returned.inj hreply)
          exact ⟨_, hrow, rfl, rfl⟩

/-- Every step keeps what the turns say. -/
theorem step {event : Event Socket} (h : system.Streaming) (howned : Owned system)
    (hstep : system.step settings event = some after) : after.Streaming := by
  cases System.step_moves hstep with
  | tick duration => exact h
  | job operation hchat =>
    refine h.frame fun socket handler messageId hhandler hcovers ↦ ?_
    exact howned.row_perform hhandler hcovers (by simp [finishes_of_not_onChat hchat])
  | accept socket sessionId hnone =>
    exact OneTurn.forall_update (.new settings sessionId) fun other old _ hold ↦ h other old hold
  | fail socket task handler operation hhandler hcall =>
    have hbefore := h socket handler hhandler
    refine OneTurn.forall_update ?_ fun other old _ hold ↦ h other old hold
    cases task with
    | serve => exact ⟨hbefore.turns, hbefore.named, hbefore.awaits⟩
    | reader =>
      refine ⟨hbefore.turns, hbefore.named, fun assistant hawaits ↦ ?_⟩
      exact absurd hawaits (Reader.not_awaits_of_pending (by simp) assistant)
    | turn id =>
      obtain ⟨turn, hturn, hturnCall⟩ := Option.bind_eq_some_iff.mp hcall
      split_ifs at hturnCall
      refine hbefore.answer_turn hturn hturnCall (fun _ _ _ ↦ rfl) (fun _ _ h ↦ h) ?_
        (howned.owns socket handler hhandler)
      exact fun chunks outcome hreply ↦ absurd hreply (by simp)
  | store socket task drawn lost handler operation hhandler hcall =>
    have howns := howned.owns socket handler hhandler
    by_cases hfinishes : operation.finishes = none
    · refine OneTurn.forall_update (h.answer howned hhandler lost hcall hfinishes) ?_
      intro other old _ hold
      refine h.frame (fun socket handler messageId hhandler hcovers ↦ ?_) other old hold
      exact howned.row_perform hhandler hcovers (by simp [hfinishes])
    · obtain ⟨messageId, hmessage⟩ := Option.ne_none_iff_exists'.mp hfinishes
      obtain ⟨id, turn, rfl, hturn, rfl, hturnCall⟩ := Resolving.turn_of_finishes hcall hmessage
      refine OneTurn.forall_update ?_ fun other old hother hold ↦ ?_
      · refine (h socket handler hhandler).answer_turn hturn hturnCall ?_ ?_ ?_ howns
        · intro other hcovers hne
          refine howned.row_perform hhandler hcovers fun hsame ↦ hne ?_
          exact Option.some.inj (hsame.symm.trans hmessage)
        · exact fun _ _ hnumbered ↦ hnumbered.perform system.now operation
        · rintro chunks outcome - rfl
          obtain ⟨row, hrow, -⟩ := ((h socket handler hhandler).turns id turn hturn).1
          obtain ⟨database, hperform, hnew⟩ := Postgres.perform_completeAssistantMessage system.now
            hrow (String.join chunks)
          rw [System.commit, hperform]
          exact ⟨_, hnew, rfl, rfl⟩
      · refine (h other old hold).congr fun messageId hcovers ↦ ?_
        refine howned.row_perform hold hcovers fun hsame ↦ hother ?_
        obtain rfl : messageId = turn.assistant.messageId :=
          Option.some.inj (hsame.symm.trans hmessage)
        exact howned.socket_unique (Resolving.opened_of_covers howned hold hcovers)
          (howns.tasks id turn hturn)
  | act socket action handler next hhandler hnext =>
    refine OneTurn.forall_update ?_ fun other old _ hold ↦ h other old hold
    exact (h socket handler hhandler).step (howned.owns socket handler hhandler) hnext

end System.Streaming

/-- In every state of a run, what the turns say is so. -/
theorem System.Run.streaming (h : System.Run settings system) : system.Streaming := by
  have hkept : ∀ (before : System Socket) event next, Owned before ∧ before.Streaming → True →
      before.step settings event = some next → Owned next ∧ next.Streaming :=
    fun before event next hbefore _ hstep ↦
      ⟨hbefore.1.step hstep, hbefore.2.step hbefore.1 hstep⟩
  have hboth : Owned system ∧ system.Streaming := by
    refine h.invariant ?_ hkept
    exact ⟨Owned.initial, fun socket handler hhandler ↦ absurd hhandler (by simp [System.initial])⟩
  exact hboth.2

/-- On every connection of a run, the stream of a message is its chunks in order, followed by at
most one `done`; and once the `done` is sent, the row is complete with the text of exactly these
chunks, under the number that the `done` carries, and stays so however the run goes on. -/
theorem stream_whole (hrun : System.Run settings system)
    (hhandler : system.handlers socket = some handler) (messageId : Uuid) :
    ∃ chunks, handler.conn.stream messageId = deltas messageId chunks ∨
      ∃ row, handler.conn.stream messageId =
          deltas messageId chunks ++ [.done messageId row.seq] ∧
        messageRow system.database messageId = some row ∧ row.status = .complete ∧
          row.text = String.join chunks ∧ system.Final settings messageId row := by
  have hstreaming := hrun.streaming socket handler hhandler
  by_cases hstream : handler.conn.stream messageId = []
  · exact ⟨[], Or.inl hstream⟩
  · obtain ⟨id, turn, hturn, rfl⟩ := hstreaming.named messageId hstream
    obtain ⟨⟨row, hrow, hseq⟩, hstreamed⟩ := hstreaming.turns id turn hturn
    obtain ⟨chunks, hchunks | ⟨hchunks, hover, stored, hstored, hstatus, htext⟩⟩ := hstreamed.whole
    · exact ⟨chunks, Or.inl hchunks⟩
    · obtain rfl : row = stored := Option.some.inj (hrow.symm.trans hstored)
      refine ⟨chunks, Or.inr ⟨row, ?_, hrow, hstatus, htext, ?_⟩⟩
      · rw [hseq, hchunks]
      · exact row_final hrun (over_of_turn hrun.tells.owned hhandler hturn hover) hrow

end Runs

/-- The turn streams a reply of two chunks, one of them empty, to its `done`. -/
def streamed : List (Event ℕ) :=
  [.act 0 (.respond 0 .begin), .act 0 (.respond 0 (.chunk "")), .act 0 (.respond 0 .slept),
    .act 0 (.respond 0 (.chunk "because")), .act 0 (.respond 0 .slept),
    .act 0 (.respond 0 .exhausted), .store 0 (.turn 0) ⟨0⟩ false, .act 0 (.runTurn 0)]

/-- The law at work: the stream of two chunks is what the row says. -/
theorem stream_whole_two_chunks :
    ∃ (system : System ℕ) (handler : Handler), system.handlers 0 = some handler ∧
      .done ⟨3⟩ 2 ∈ handler.conn.sent ∧
      ∃ chunks, handler.conn.stream ⟨3⟩ = deltas ⟨3⟩ chunks ∨
        ∃ row, handler.conn.stream ⟨3⟩ = deltas ⟨3⟩ chunks ++ [.done ⟨3⟩ row.seq] ∧
          messageRow system.database ⟨3⟩ = some row ∧ row.status = .complete ∧
            row.text = String.join chunks ∧ system.Final .default ⟨3⟩ row := by
  obtain ⟨system, hsteps, handler, hhandler, hsent⟩ : ∃ system,
      (System.initial ℕ).steps .default (asked ++ streamed) = some system ∧
      ∃ handler, system.handlers 0 = some handler ∧ .done ⟨3⟩ 2 ∈ handler.conn.sent :=
    ⟨_, rfl, _, rfl, List.mem_of_getLast? rfl⟩
  have hrun : System.Run .default system := System.Run.steps .refl hsteps
  exact ⟨system, handler, hhandler, hsent, stream_whole hrun hhandler ⟨3⟩⟩

end Chat

end Abacus
