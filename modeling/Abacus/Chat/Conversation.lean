import Abacus.Chat.Responding
import Abacus.Chat.Streams
import Abacus.Postgres.StoredMessage

/-!
# Questions and answers

The connections of `System` with a responder: each turn remembers the text that `_run_turn` was
handed, and the responder decides what the turn is given (`Permits`). A conversation is a run of the
system in which it does.

A reply is then an answer to its question: the message that a submission stored under its key is the
one that its reply row was opened after, and the text of that row, once it has one, is a whole reply
of the responder to the text of that message. What a client has been shown of it before is the
beginning of one.
-/

set_option autoImplicit false
set_option relaxedAutoImplicit false

namespace Abacus

/-- The frame is a chunk. -/
def ServerFrame.isDelta : ServerFrame → Bool
  | .delta _ _ _ => true
  | _ => false

/-- The chunks that were passed to `send` of the stream of a message. -/
def Connection.shown (conn : Connection) (messageId : Uuid) : List ServerFrame :=
  (conn.stream messageId).filter ServerFrame.isDelta

theorem filter_isDelta_deltas (messageId : Uuid) (chunks : List String) :
    (deltas messageId chunks).filter ServerFrame.isDelta = deltas messageId chunks := by
  apply List.filter_eq_self.mpr
  intro frame hframe
  obtain ⟨index, hindex, rfl⟩ := List.mem_mapIdx.mp hframe
  rfl

namespace Chat

open Postgres (ChatMessageRow Database GapFree Operation Outcome messageRow nextSeq onChat perform)
open Python (CharacterDatabase split)

/-! ### Turns and their texts -/

namespace Handler

/-- The text of a turn after a step: the one it was handed, or, if it becomes a task now, the text
of the submission that the reader is at. -/
def handed (handler : Handler) (texts : ℕ → String) (id : ℕ) : String :=
  match handler.tasks id, handler.reader.place with
  | none, .opening message _ => message.text
  | _, _ => texts id

theorem handed_of_some {handler : Handler} {id : ℕ} {turn : Turn}
    (h : handler.tasks id = some turn) (texts : ℕ → String) :
    handler.handed texts id = texts id := by
  rw [handed, h]

theorem handed_of_none {handler : Handler} {id : ℕ} {message : UserMessage}
    {recorded : RecordedUserMessage} {pending : Option Reply} (h : handler.tasks id = none)
    (hreader : handler.reader = ⟨.opening message recorded, pending⟩) (texts : ℕ → String) :
    handler.handed texts id = message.text := by
  rw [handed, h, hreader]

end Handler

/-- A turn that answers a text. -/
structure Turn.Replies (responder : Responder) (answers : Uuid → String → Prop) (asked : String)
    (shown : List ServerFrame) (turn : Turn) : Prop where
  answers : answers turn.assistant.messageId asked
  whole : ∀ chunks, turn.place = .completing chunks → responder asked chunks
  begins : ∃ chunks, responder.Begins asked chunks ∧ shown = deltas turn.assistant.messageId chunks

namespace Handler

/-- The reader has stored what it goes on with, and every turn answers its text. -/
structure Converses (responder : Responder) (stored : UserMessage → Prop)
    (answers : Uuid → String → Prop) (texts : ℕ → String) (handler : Handler) : Prop where
  stored : ∀ message, handler.reader.Stored message → stored message
  awaits : ∀ message recorded assistant,
    handler.reader = ⟨.opening message recorded, some (.returned (.opened assistant))⟩ →
      answers assistant.messageId message.text
  turns : ∀ id turn, handler.tasks id = some turn →
    turn.Replies responder answers (texts id) (handler.conn.shown turn.assistant.messageId)

variable {settings : Settings} {handler after : Handler} {action : Action}

theorem shown_append {frames : List ServerFrame}
    (hsent : after.conn.sent = handler.conn.sent ++ frames) (messageId : Uuid) :
    after.conn.shown messageId = handler.conn.shown messageId ++
      (frames.filter (ServerFrame.streams messageId)).filter ServerFrame.isDelta := by
  rw [Connection.shown, stream_append hsent, List.filter_append, Connection.shown]

namespace Converses

variable {responder : Responder} {stored more : UserMessage → Prop}
  {answers answered : Uuid → String → Prop} {texts : ℕ → String}

theorem new (settings : Settings) (sessionId : Uuid) :
    (Handler.new settings sessionId).Converses responder stored answers texts where
  stored message h := by
    rcases h with ⟨recorded, hreader | hreader, -⟩ | ⟨recorded, hreader⟩
    · exact absurd (congrArg Reader.place hreader) (by simp [Handler.new])
    · exact absurd (congrArg Reader.place hreader) (by simp [Handler.new])
    · exact absurd (congrArg Reader.place hreader) (by simp [Handler.new])
  awaits message recorded assistant hreader :=
    absurd (congrArg Reader.place hreader) (by simp [Handler.new])
  turns id turn hturn := absurd hturn (by simp [Handler.new])

theorem mono (h : handler.Converses responder stored answers texts)
    (hstored : ∀ message, stored message → more message)
    (hanswers : ∀ messageId asked, answers messageId asked → answered messageId asked) :
    handler.Converses responder more answered texts where
  stored message hmessage := hstored message (h.stored message hmessage)
  awaits message recorded assistant hreader :=
    hanswers _ _ (h.awaits message recorded assistant hreader)
  turns id turn hturn :=
    ⟨hanswers _ _ (h.turns id turn hturn).answers, (h.turns id turn hturn).whole,
      (h.turns id turn hturn).begins⟩

/-- Turns that stay where they are, with nothing said in their streams. -/
theorem turns_of_quiet (h : handler.Converses responder stored answers texts)
    (hshown : ∀ messageId, after.conn.shown messageId = handler.conn.shown messageId)
    (htasks : ∀ id, after.tasks id = handler.tasks id ∨
      after.tasks id = (handler.tasks id).map Turn.cancel) (id : ℕ) (moved : Turn)
    (hmoved : after.tasks id = some moved) :
    moved.Replies responder answers (handler.handed texts id)
      (after.conn.shown moved.assistant.messageId) := by
  obtain ⟨turn, hturn, hplace, hassistant⟩ : ∃ turn, handler.tasks id = some turn ∧
      moved.place = turn.place ∧ moved.assistant = turn.assistant := by
    rcases htasks id with hsame | hcancel
    · exact ⟨moved, hsame.symm.trans hmoved, rfl, rfl⟩
    · obtain ⟨turn, hturn, rfl⟩ := Option.map_eq_some_iff.mp (hcancel.symm.trans hmoved)
      exact ⟨turn, hturn, turn.cancel_place, turn.cancel_assistant⟩
  have hreplies := h.turns id turn hturn
  rw [handed_of_some hturn, hshown, hassistant]
  refine ⟨?_, ?_, ?_⟩
  · rw [hassistant]
    exact hreplies.answers
  · rw [hplace]
    exact hreplies.whole
  · rw [hassistant]
    exact hreplies.begins

/-- A turn that becomes a task has shown nothing, and is handed the text of its submission. -/
theorem turns_of_started (h : handler.Converses responder stored answers texts)
    {rows : Uuid → Option ChatMessageRow} (hstreaming : handler.Streaming rows)
    {owns : Uuid → Prop} (howns : handler.Owns owns) {message : UserMessage}
    {recorded : RecordedUserMessage} {assistant : StoredMessage} {fresh : ℕ}
    (hreader : handler.reader = ⟨.opening message recorded, some (.returned (.opened assistant))⟩)
    (hfresh : handler.tasks fresh = none) (id : ℕ) (moved : Turn)
    (hmoved : (handler.startTurn message recorded assistant fresh).tasks id = some moved) :
    moved.Replies responder answers (handler.handed texts id)
      ((handler.startTurn message recorded assistant fresh).conn.shown
        moved.assistant.messageId) := by
  have hstarted : (handler.startTurn message recorded assistant fresh).Streaming rows :=
    hstreaming.started howns ⟨message, recorded, hreader⟩ hfresh
  have htasks : (handler.startTurn message recorded assistant fresh).tasks =
    Function.update handler.tasks fresh
      (some ⟨message.clientMsgId, assistant, .starting, none, false⟩) := rfl
  by_cases hid : id = fresh
  · subst hid
    have hstream := (hstarted.turns id moved hmoved).2
    rw [htasks, Function.update_self] at hmoved
    obtain rfl := Option.some.inj hmoved
    rw [handed_of_none hfresh hreader]
    refine ⟨h.awaits message recorded assistant hreader, ?_, [], Or.inl rfl, ?_⟩
    · exact fun chunks hplace ↦ TurnPlace.noConfusion hplace
    · rw [Connection.shown, hstream.2]
      rfl
  · rw [htasks, Function.update_of_ne hid] at hmoved
    have hsent := Connection.sent_send handler.conn (.ack message.clientMsgId recorded.message.seq
      recorded.message.messageId (some assistant.messageId))
    have hshown : (handler.startTurn message recorded assistant fresh).conn.shown
        moved.assistant.messageId = handler.conn.shown moved.assistant.messageId := by
      rw [shown_append hsent]
      simp [ServerFrame.streams]
    rw [handed_of_some hmoved, hshown]
    exact h.turns id moved hmoved

/-- A turn that goes on has what the responder gave it. -/
theorem turns_of_turn (h : handler.Converses responder stored answers texts)
    {rows : Uuid → Option ChatMessageRow} (hstreaming : handler.Streaming rows)
    {owns : Uuid → Prop} (howns : handler.Owns owns) {own : ℕ} {turn next : Turn}
    {frames : List ServerFrame} (hturn : handler.tasks own = some turn)
    (hspeaks : TurnSpeaks turn next frames)
    (hsent : after.conn.sent = handler.conn.sent ++ frames)
    (htasks : after.tasks = Function.update handler.tasks own (some next))
    (hgives : Gives responder (texts own) turn.place next.place) (id : ℕ) (moved : Turn)
    (hmoved : after.tasks id = some moved) :
    moved.Replies responder answers (handler.handed texts id)
      (after.conn.shown moved.assistant.messageId) := by
  rw [htasks, Function.update_apply] at hmoved
  rw [shown_append hsent]
  split_ifs at hmoved with hid
  · subst hid
    obtain rfl := Option.some.inj hmoved
    obtain ⟨hanswers, -, chunks, hbegins, hshown⟩ := h.turns id turn hturn
    rw [handed_of_some hturn, hspeaks.assistant]
    refine ⟨hspeaks.assistant ▸ hanswers, fun whole hplace ↦ ?_, ?_⟩
    · rw [hplace] at hgives
      cases hspeaks with
      | exhausted known hresponding hpending =>
        rw [hresponding] at hgives
        exact hgives
      | begins | chunk | slept | raised | completed | notCompleted | failed | neverStarted
      | cancelled => exact TurnPlace.noConfusion hplace
    · cases hspeaks with
      | chunk known text hresponding =>
        have hstream := (hstreaming.turns id turn hturn).2
        rw [Turn.Streamed, hresponding] at hstream
        rw [hresponding] at hgives
        refine ⟨known ++ [text], hgives, ?_⟩
        rw [Connection.shown, hstream.2, filter_isDelta_deltas, deltas_concat]
        simp [ServerFrame.streams, ServerFrame.isDelta]
      | completed =>
        refine ⟨chunks, hbegins, ?_⟩
        simp [hshown, ServerFrame.streams, ServerFrame.isDelta]
      | failed cancelled frames hplace hplain =>
        refine ⟨chunks, hbegins, ?_⟩
        simp [hshown, streams_of_plain hplain]
      | begins | slept | exhausted | raised | notCompleted | neverStarted | cancelled =>
        exact ⟨chunks, hbegins, by simp [hshown]⟩
  · have hother : turn.assistant.messageId ≠ moved.assistant.messageId :=
      fun hsame ↦ hid (howns.distinct id own moved turn hmoved hturn hsame.symm)
    rw [handed_of_some hmoved, hspeaks.other hother, List.filter_nil, List.append_nil]
    exact h.turns id moved hmoved

/-- The texts of the turns stay what they were. -/
theorem hands (h : handler.Converses responder stored answers texts) :
    handler.Converses responder stored answers (handler.handed texts) where
  stored := h.stored
  awaits := h.awaits
  turns id turn hturn := by
    rw [handed_of_some hturn]
    exact h.turns id turn hturn

/-- A reply moves no turn, and gives the reader what it says. -/
theorem answer (h : handler.Converses responder stored answers texts) {reply : Reply} {task : Task}
    (hstored : task = .reader → ∀ message,
      (Reader.mk handler.reader.place (some reply)).Stored message → stored message)
    (hawaits : task = .reader → ∀ message recorded assistant,
      handler.reader.place = .opening message recorded →
        reply = .returned (.opened assistant) → answers assistant.messageId message.text) :
    (handler.answer reply task).Converses responder stored answers texts := by
  refine ⟨?_, ?_, fun id moved hmoved ↦ ?_⟩
  · cases task with
    | reader => exact hstored rfl
    | serve => exact h.stored
    | turn id => exact h.stored
  · cases task with
    | reader =>
      intro message recorded assistant hreader
      obtain ⟨hplace, hpending⟩ := Reader.mk.inj hreader
      exact hawaits rfl message recorded assistant hplace (Option.some.inj hpending)
    | serve => exact h.awaits
    | turn id => exact h.awaits
  · obtain ⟨turn, hturn, hplace, hassistant⟩ : ∃ turn, handler.tasks id = some turn ∧
        moved.place = turn.place ∧ moved.assistant = turn.assistant := by
      cases task with
      | reader => exact ⟨moved, hmoved, rfl, rfl⟩
      | serve => exact ⟨moved, hmoved, rfl, rfl⟩
      | turn answered =>
        rcases answer_eq_some hmoved with ⟨rfl, turn, hturn, rfl⟩ | ⟨-, hturn⟩
        · exact ⟨turn, hturn, turn.answer_place reply, turn.answer_assistant reply⟩
        · exact ⟨moved, hturn, rfl, rfl⟩
    have hreplies := h.turns id turn hturn
    rw [answer_conn]
    refine ⟨?_, ?_, ?_⟩
    · rw [hassistant]
      exact hreplies.answers
    · rw [hplace]
      exact hreplies.whole
    · rw [hassistant]
      exact hreplies.begins

/-- Every step in which the responder gives what it may keeps the answers. -/
theorem step (h : handler.Converses responder stored answers texts)
    {rows : Uuid → Option ChatMessageRow} (hstreaming : handler.Streaming rows)
    {owns : Uuid → Prop} (howns : handler.Owns owns)
    (hstep : handler.step settings action = some after)
    (hpermits : ∀ id input turn, action = .respond id input → handler.tasks id = some turn →
      Permits responder (texts id) turn.place input) :
    after.Converses responder stored answers (handler.handed texts) := by
  refine ⟨fun message hstored ↦ h.stored message (stored_of_step hstep hstored), ?_, ?_⟩
  · intro message recorded assistant hreader
    have hsame := reader_of_step hstep (congrArg Reader.pending hreader)
    exact h.awaits message recorded assistant (hsame.symm.trans hreader)
  · have hgives := step_gives hstep hpermits
    cases step_speaks hstep with
    | quiet frames hsent hplain htasks =>
      refine h.turns_of_quiet (fun messageId ↦ ?_) htasks
      rw [shown_append hsent, streams_of_plain hplain, List.filter_nil, List.append_nil]
    | replayed message recorded hreader hcreated haction =>
      refine h.turns_of_quiet (fun messageId ↦ ?_) fun id ↦ Or.inl rfl
      have hsent := Connection.sent_send handler.conn (.ack message.clientMsgId
        recorded.message.seq recorded.message.messageId (handler.liveReplies message.clientMsgId))
      rw [shown_append hsent]
      simp [ServerFrame.streams]
    | started message recorded assistant fresh hreader hfresh =>
      exact h.turns_of_started hstreaming howns hreader hfresh
    | turn own turn next frames hturn hspeaks hsent htasks =>
      refine h.turns_of_turn hstreaming howns hturn hspeaks hsent htasks ?_
      refine hgives own turn next hturn ?_
      rw [htasks, Function.update_self]
    | finished id turn hturn hended hlisted =>
      exact h.turns_of_quiet (fun messageId ↦ rfl) fun id ↦ Or.inl rfl

end Converses

end Handler

/-! ### The rows of a conversation -/

/-- The message that is stored under a key. -/
def Question (database : Database) (sessionId : Uuid) (clientMsgId : String)
    (question : ChatMessageRow) : Prop :=
  ∃ messageId, database.row (.clientMessage sessionId clientMsgId) = some messageId ∧
    messageRow database messageId = some question ∧ question.sessionId = sessionId ∧
      question.role = .user

/-- A call that finishes no message of a user leaves the message under a key. -/
theorem Question.perform {database : Database} {sessionId : Uuid} {clientMsgId : String}
    {question : ChatMessageRow} (h : Question database sessionId clientMsgId question)
    {now : Instant} {operation : Operation}
    (hfinishes : ∀ messageId row, operation.finishes = some messageId →
      messageRow database messageId = some row → row.role = .assistant) :
    Question (perform now operation database).2 sessionId clientMsgId question := by
  obtain ⟨messageId, hkey, hrow, hsession, hrole⟩ := h
  have hother : operation.finishes ≠ some messageId := by
    intro hsame
    exact Role.noConfusion (hrole.symm.trans (hfinishes messageId question hsame hrow))
  exact ⟨messageId, Postgres.perform_clientMessage hkey, Postgres.perform_messageRow_eq hother hrow,
    hsession, hrole⟩

/-- A reply row to a question: it comes after it, and what text it has is a whole reply to it. -/
structure Answers (responder : Responder) (sessionId : Uuid) (question reply : ChatMessageRow) :
    Prop where
  sessionId : reply.sessionId = sessionId
  role : reply.role = .assistant
  seq : question.seq < reply.seq
  text : reply.text = "" ∧ reply.status ≠ .complete ∨
    ∃ chunks, responder question.text chunks ∧ reply.text = String.join chunks

/-- A message is numbered below the counter of its session. -/
theorem seq_lt_of_row {database : Database} (h : GapFree database) {messageId : Uuid}
    {row : ChatMessageRow} {seq : ℕ} (hrow : messageRow database messageId = some row)
    (hnext : nextSeq database row.sessionId = some seq) : row.seq < seq := by
  have hentry := (h.messages row.sessionId row.seq messageId).mpr ⟨row, hrow, rfl, rfl⟩
  have hnumbered := h.numbered row.sessionId
  rw [hnext] at hnumbered
  have hmem : row.seq ∈ (Postgres.sessionEntries database row.sessionId).map
      Postgres.LogEntry.seq :=
    List.mem_map.mpr ⟨_, List.mem_filter.mpr ⟨hentry, by simp⟩, rfl⟩
  rw [hnumbered.2, List.mem_range'_1] at hmem
  omega

/-! ### Conversations -/

/-- The system, and the text that each turn was handed. -/
structure Conversation (Socket : Type) where
  system : System Socket
  texts : Socket → ℕ → String

namespace Conversation

variable {Socket : Type} [DecidableEq Socket]

/-- No connection, and no turn. -/
def initial (Socket : Type) : Conversation Socket where
  system := .initial Socket
  texts := fun _ _ ↦ ""

/-- The texts after a step. -/
def handed (conversation : Conversation Socket) (socket : Socket) : ℕ → String :=
  match conversation.system.handlers socket with
  | some handler => handler.handed (conversation.texts socket)
  | none => conversation.texts socket

/-- One step of the system. -/
def step (settings : Settings) (conversation : Conversation Socket) (event : Event Socket) :
    Option (Conversation Socket) :=
  (conversation.system.step settings event).map fun system ↦ ⟨system, conversation.handed⟩

/-- Several steps, one after another. -/
def steps (settings : Settings) (conversation : Conversation Socket) :
    List (Event Socket) → Option (Conversation Socket)
  | [] => some conversation
  | event :: events =>
    (conversation.step settings event).bind fun next ↦ next.steps settings events

/-- The text that a turn was handed, and where it is. -/
def asking (conversation : Conversation Socket) (socket : Socket) (id : ℕ) :
    Option (String × TurnPlace) :=
  (conversation.system.handlers socket).bind fun handler ↦
    (handler.tasks id).map fun turn ↦ (conversation.texts socket id, turn.place)

/-- What the event is to the responder: it gives a turn nothing but what it may. -/
def Permitted (responder : Responder) (conversation : Conversation Socket) : Event Socket → Prop
  | .act socket (.respond id input) =>
    ∀ asked place, conversation.asking socket id = some (asked, place) →
      Permits responder asked place input
  | _ => True

/-- A step in which the responder keeps to its replies. -/
def Goes (settings : Settings) (responder : Responder) (before after : Conversation Socket) :
    Prop :=
  ∃ event, before.Permitted responder event ∧ before.step settings event = some after

/-- A run from no connection and empty tables. -/
abbrev Run (settings : Settings) (responder : Responder) (conversation : Conversation Socket) :
    Prop :=
  Relation.ReflTransGen (Goes settings responder) (initial Socket) conversation

end Conversation

/-! ### The invariant -/

section System

variable {Socket : Type} [DecidableEq Socket] {settings : Settings} {responder : Responder}
  {system after : System Socket}

omit [DecidableEq Socket] in
/-- A message of a session is stored as it was submitted. -/
def System.HasStored (system : System Socket) (sessionId : Uuid) (message : UserMessage) : Prop :=
  ∃ question, Question system.database sessionId message.clientMsgId question ∧
    question.text = message.text

omit [DecidableEq Socket] in
/-- A reply row was opened for a message of this text. -/
def System.Asked (system : System Socket) (messageId : Uuid) (asked : String) : Prop :=
  ∃ opening ∈ system.opened, opening.messageId = messageId ∧
    ∃ question, Question system.database opening.sessionId opening.clientMsgId question ∧
      question.text = asked

/-- Every reply row is an answer, and every turn answers its text. -/
structure Conversing (responder : Responder) (system : System Socket)
    (texts : Socket → ℕ → String) :
    Prop where
  opened : ∀ opening ∈ system.opened, ∃ question reply,
    Question system.database opening.sessionId opening.clientMsgId question ∧
      messageRow system.database opening.messageId = some reply ∧
        Answers responder opening.sessionId question reply
  handlers : ∀ socket handler, system.handlers socket = some handler →
    handler.Converses responder (system.HasStored handler.conn.sessionId) system.Asked
      (texts socket)

namespace Conversing

variable {texts : Socket → ℕ → String} {socket : Socket} {handler : Handler} {task : Handler.Task}
  {drawn : Uuid} {operation : Operation}

omit [DecidableEq Socket] in
/-- What a call finishes is a reply row. -/
theorem role_of_finishes (h : Conversing responder system texts)
    (hhandler : system.handlers socket = some handler)
    (hcall : handler.call settings drawn task = some operation) (messageId : Uuid)
    (row : ChatMessageRow) (hfinishes : operation.finishes = some messageId)
    (hrow : messageRow system.database messageId = some row) : row.role = .assistant := by
  obtain ⟨id, turn, -, hturn, rfl, -⟩ := Resolving.turn_of_finishes hcall hfinishes
  obtain ⟨opening, hopening, hname, -⟩ :=
    ((h.handlers socket handler hhandler).turns id turn hturn).answers
  obtain ⟨question, reply, -, hreply, hanswers⟩ := h.opened opening hopening
  rw [hname, hrow] at hreply
  obtain rfl := Option.some.inj hreply
  exact hanswers.role

omit [DecidableEq Socket] in
/-- A message under a key is one. -/
theorem question_unique {database : Database} {sessionId : Uuid} {clientMsgId : String}
    {question other : ChatMessageRow} (h : Question database sessionId clientMsgId question)
    (hother : Question database sessionId clientMsgId other) : question = other := by
  obtain ⟨messageId, hkey, hrow, -⟩ := h
  obtain ⟨otherId, hotherKey, hotherRow, -⟩ := hother
  obtain rfl : messageId = otherId := Option.some.inj (hkey.symm.trans hotherKey)
  exact Option.some.inj (hrow.symm.trans hotherRow)

omit [DecidableEq Socket] in
/-- A turn completes its row with a whole reply to the question of that row. -/
theorem answers_of_complete (h : Conversing responder system texts) (howned : Owned system)
    (hhandler : system.handlers socket = some handler) {id : ℕ} {turn : Turn} {text : String}
    (hturn : handler.tasks id = some turn)
    (hcall : turn.call = some (.completeAssistantMessage turn.assistant.messageId text))
    {opening : Opening Socket} (hopening : opening ∈ system.opened)
    (hname : opening.messageId = turn.assistant.messageId) {question : ChatMessageRow}
    (hquestion : Question system.database opening.sessionId opening.clientMsgId question) :
    ∃ chunks, responder question.text chunks ∧ text = String.join chunks := by
  have hreplies := (h.handlers socket handler hhandler).turns id turn hturn
  obtain ⟨other, hother, hotherName, asked, hasked, htext⟩ := hreplies.answers
  obtain rfl : opening = other :=
    List.inj_on_of_nodup_map howned.unique hopening hother (hname.trans hotherName.symm)
  obtain rfl := question_unique hquestion hasked
  unfold Turn.call at hcall
  split_ifs at hcall
  · exact absurd (Option.some.inj hcall) (by simp)
  · split at hcall
    · next chunks hplace =>
      obtain ⟨-, hsame⟩ := Operation.completeAssistantMessage.inj (Option.some.inj hcall)
      rw [htext]
      exact ⟨chunks, hreplies.whole chunks hplace, hsame.symm⟩
    · exact absurd (Option.some.inj hcall) (by simp)
    · exact absurd hcall (by simp)

omit [DecidableEq Socket] in
/-- A call leaves an answer an answer. -/
theorem opened_perform (h : Conversing responder system texts) (howned : Owned system)
    (hhandler : system.handlers socket = some handler)
    (hcall : handler.call settings drawn task = some operation) {opening : Opening Socket}
    (hopening : opening ∈ system.opened) : ∃ question reply,
      Question (perform system.now operation system.database).2 opening.sessionId
          opening.clientMsgId question ∧
        messageRow (perform system.now operation system.database).2 opening.messageId =
            some reply ∧
          Answers responder opening.sessionId question reply := by
  obtain ⟨question, reply, hquestion, hreply, hanswers⟩ := h.opened opening hopening
  have hkept : Question (perform system.now operation system.database).2 opening.sessionId
      opening.clientMsgId question := hquestion.perform (h.role_of_finishes hhandler hcall)
  by_cases hfinishes : operation.finishes = some opening.messageId
  · obtain ⟨own, turn, -, hturn, hname, hturnCall⟩ := Resolving.turn_of_finishes hcall hfinishes
    cases operation with
    | completeAssistantMessage messageId text =>
      obtain rfl : messageId = opening.messageId := Option.some.inj hfinishes
      obtain ⟨database, hperform, hrow⟩ :=
        Postgres.perform_completeAssistantMessage system.now hreply text
      rw [hperform] at hkept ⊢
      rw [← hname] at hturnCall
      have htext := h.answers_of_complete howned hhandler hturn hturnCall hopening hname.symm
        hquestion
      exact ⟨question, _, hkept, hrow, hanswers.sessionId, hanswers.role, hanswers.seq,
        Or.inr htext⟩
    | failAssistantMessage messageId =>
      obtain rfl : messageId = opening.messageId := Option.some.inj hfinishes
      obtain ⟨database, hperform, hrow⟩ := Postgres.perform_failAssistantMessage system.now hreply
      rw [hperform] at hkept ⊢
      refine ⟨question, _, hkept, hrow, hanswers.sessionId, hanswers.role, hanswers.seq, ?_⟩
      exact hanswers.text.imp (fun hempty ↦ ⟨hempty.1, by simp⟩) id
    | _ => exact absurd hfinishes (by simp [Operation.finishes])
  · exact ⟨question, reply, hkept, Postgres.perform_messageRow_eq hfinishes hreply, hanswers⟩

omit [DecidableEq Socket] in
/-- What a call leaves of the messages stored and of the replies opened. -/
theorem kept (system after : System Socket)
    (hopened : ∀ opening ∈ system.opened, opening ∈ after.opened)
    (hfinishes : ∀ messageId row, operation.finishes = some messageId →
      messageRow system.database messageId = some row → row.role = .assistant)
    (hdatabase : after.database = (perform system.now operation system.database).2) :
    (∀ sessionId message, system.HasStored sessionId message → after.HasStored sessionId message) ∧
      ∀ messageId asked, system.Asked messageId asked → after.Asked messageId asked := by
  constructor
  · rintro sessionId message ⟨question, hquestion, htext⟩
    refine ⟨question, ?_, htext⟩
    rw [hdatabase]
    exact hquestion.perform hfinishes
  · rintro messageId asked ⟨opening, hopening, hname, question, hquestion, htext⟩
    refine ⟨opening, hopened opening hopening, hname, question, ?_, htext⟩
    rw [hdatabase]
    exact hquestion.perform hfinishes

/-- A reply that is a result is that of the call. -/
theorem replyOf_eq_returned {lost : Bool} {reply : Except Postgres.StoreError Outcome}
    {outcome : Outcome}
    (h : (if lost then Reply.raised none else replyOf reply) = .returned outcome) :
    reply = .ok outcome := by
  cases lost with
  | true => exact absurd h (by simp)
  | false =>
    cases reply with
    | error error => exact absurd h (by simp [replyOf])
    | ok found =>
      obtain rfl : found = outcome := by simpa [replyOf] using h
      rfl

omit [DecidableEq Socket] in
/-- A reader that finds its message newly stored finds it as it was submitted. -/
theorem hasStored_of_reply {message : UserMessage} {place : ReaderPlace} {lost : Bool}
    (hcall : place.call settings handler.conn.sessionId drawn = some operation)
    (hstored : (Reader.mk place (some (if lost then .raised none
      else replyOf (perform system.now operation system.database).1))).Stored message)
    (hdatabase : after.database = (perform system.now operation system.database).2) :
    after.HasStored handler.conn.sessionId message := by
  have hreturned (outcome : Outcome)
      (hreply : some (if lost then Reply.raised none
        else replyOf (perform system.now operation system.database).1) =
          some (.returned outcome)) :
      perform system.now operation system.database = (.ok outcome, after.database) :=
    Prod.ext (replyOf_eq_returned (Option.some.inj hreply)) hdatabase.symm
  rcases hstored with ⟨recorded, hreader | hreader, hcreated⟩ | ⟨recorded, hreader⟩
  · obtain ⟨rfl, hreply⟩ := Reader.mk.inj hreader
    obtain rfl := Option.some.inj hcall
    have hyields := Postgres.perform_yields (hreturned _ hreply)
    obtain ⟨stored, hyields, hrecorded⟩ := RowLocking.Program.yields_map hyields
    obtain ⟨seq, rfl, hstores⟩ := Postgres.recordUserMessage_stores hyields
    refine ⟨⟨handler.conn.sessionId, seq, .user, .complete, message.text,
      some message.clientMsgId⟩, ⟨drawn, ?_, ?_, rfl, rfl⟩, rfl⟩
    · rw [hstores.stored, Postgres.clientMessage_storeMessage, if_pos ⟨rfl, rfl⟩]
    · rw [hstores.stored, Postgres.messageRow_storeMessage, if_pos rfl]
  · obtain ⟨rfl, hreply⟩ := Reader.mk.inj hreader
    obtain rfl := Option.some.inj hcall
    obtain ⟨found, hfound, hold, -⟩ := Postgres.perform_byClientMsgId (hreturned _ hreply)
    obtain rfl : recorded = found := Outcome.recorded.inj hfound
    exact absurd (hcreated.symm.trans hold) (by simp)
  · exact absurd (congrArg Reader.pending hreader) (by simp)

omit [DecidableEq Socket] in
/-- The reply row that a reader opens comes after the message it has stored. -/
theorem answers_of_opened (h : Conversing responder system texts)
    (hgapFree : GapFree system.database)
    (hhandler : system.handlers socket = some handler) {message : UserMessage}
    {recorded : RecordedUserMessage} {assistant : StoredMessage}
    (hreader : handler.reader = ⟨.opening message recorded, none⟩)
    (hperform : (perform system.now (.startAssistantMessage handler.conn.sessionId drawn)
      system.database).1 = .ok (.opened assistant)) :
    ∃ question reply, Question
        (perform system.now (.startAssistantMessage handler.conn.sessionId drawn)
          system.database).2 handler.conn.sessionId message.clientMsgId question ∧
      question.text = message.text ∧
      messageRow (perform system.now (.startAssistantMessage handler.conn.sessionId drawn)
        system.database).2 drawn = some reply ∧
      Answers responder handler.conn.sessionId question reply := by
  obtain ⟨question, hquestion, htext⟩ :=
    (h.handlers socket handler hhandler).stored message (Or.inr ⟨recorded, hreader⟩)
  have hyields := Postgres.perform_yields (Prod.ext hperform rfl)
  obtain ⟨stored, hyields, hopened⟩ := RowLocking.Program.yields_map hyields
  obtain ⟨seq, rfl, hstores⟩ := Postgres.startAssistantMessage_stores hyields
  refine ⟨question, ⟨handler.conn.sessionId, seq, .assistant, .streaming, "", none⟩,
    hquestion.perform (by simp [Operation.finishes]), htext, ?_, rfl, rfl, ?_,
    Or.inl ⟨rfl, by simp⟩⟩
  · refine (congrArg (fun database ↦ messageRow database drawn) hstores.stored).trans ?_
    exact (Postgres.messageRow_storeMessage _ _ _ drawn).trans (if_pos rfl)
  · obtain ⟨messageId, hkey, hrow, hsession, hrole⟩ := hquestion
    exact seq_lt_of_row hgapFree hrow (hsession ▸ hstores.next)

/-- A repository call keeps the invariant. -/
theorem commit (h : Conversing responder system texts) (howned : Owned system)
    (hgapFree : GapFree system.database) (hhandler : system.handlers socket = some handler)
    (hcall : handler.call settings drawn task = some operation) (lost : Bool) :
    Conversing responder (system.commit socket handler task operation lost) texts := by
  have hmore : ∀ opening ∈ system.opened,
      opening ∈ (system.commit socket handler task operation lost).opened :=
    fun opening hopening ↦ List.mem_append_left _ hopening
  obtain ⟨hstored, hasked⟩ := kept system _ hmore (h.role_of_finishes hhandler hcall) rfl
  constructor
  · intro opening hopening
    rcases List.mem_append.mp hopening with hold | hnew
    · exact h.opened_perform howned hhandler hcall hold
    · obtain ⟨hnone, -⟩ | ⟨message, recorded, assistant, seq, rfl, hreader, rfl, hperform,
        rfl, -⟩ :=
        Owned.call_cases system.now system.database socket hcall
      · rw [hnone] at hnew
        exact absurd hnew List.not_mem_nil
      · obtain ⟨question, reply, hquestion, -, hrow, hanswers⟩ :=
          h.answers_of_opened hgapFree hhandler hreader hperform
        rw [hperform] at hnew
        obtain rfl : opening = ⟨socket, handler.conn.sessionId, message.clientMsgId,
            assistant.messageId⟩ := by
          simpa [Handler.openingFor, hreader, openings] using hnew
        exact ⟨question, reply, hquestion, hrow, hanswers⟩
  · refine OneTurn.forall_update ?_ fun other old _ hold ↦
      (h.handlers other old hold).mono (hstored _) hasked
    rw [Handler.answer_conn]
    refine ((h.handlers socket handler hhandler).mono (hstored _) hasked).answer ?_ ?_
    · rintro rfl message hmessage
      obtain ⟨place, hreader, hplace⟩ := Handler.call_reader hcall
      rw [hreader] at hmessage
      exact hasStored_of_reply hplace hmessage rfl
    · rintro rfl message recorded assistant hplace hreply
      obtain ⟨place, hreader, hplaceCall⟩ := Handler.call_reader hcall
      rw [hreader] at hplace
      obtain rfl : place = .opening message recorded := hplace
      obtain rfl := Option.some.inj hplaceCall
      have hperform := replyOf_eq_returned hreply
      obtain ⟨question, -, hquestion, htext, -, -⟩ :=
        h.answers_of_opened hgapFree hhandler hreader hperform
      refine ⟨⟨socket, handler.conn.sessionId, message.clientMsgId, assistant.messageId⟩, ?_, rfl,
        question, hquestion, htext⟩
      refine List.mem_append_right _ ?_
      rw [hperform]
      simp [Handler.openingFor, hreader, openings]

omit [DecidableEq Socket] in
/-- The texts of the turns stay what they were. -/
theorem hands {conversation : Conversation Socket}
    (h : Conversing responder conversation.system conversation.texts) :
    Conversing responder conversation.system conversation.handed where
  opened := h.opened
  handlers socket handler hhandler := by
    rw [Conversation.handed, hhandler]
    exact (h.handlers socket handler hhandler).hands

/-- Every step in which the responder gives what it may keeps the invariant. -/
theorem step {conversation : Conversation Socket} {event : Event Socket}
    (h : Conversing responder conversation.system conversation.texts)
    (htells : Tells conversation.system) (hstreaming : conversation.system.Streaming)
    (hpermitted : conversation.Permitted responder event)
    (hstep : conversation.system.step settings event = some after) :
    Conversing responder after conversation.handed := by
  cases System.step_moves hstep with
  | tick duration => exact ⟨h.hands.opened, h.hands.handlers⟩
  | job operation hchat =>
    have hfinishes := finishes_of_not_onChat hchat
    have hrole : ∀ messageId row, operation.finishes = some messageId →
        messageRow conversation.system.database messageId = some row → row.role = .assistant :=
      fun messageId row hsome ↦ absurd (hfinishes.symm.trans hsome) (by simp)
    obtain ⟨hstored, hasked⟩ := kept conversation.system { conversation.system with
        database := (perform conversation.system.now operation conversation.system.database).2 }
      (fun opening hopening ↦ hopening) hrole rfl
    refine ⟨fun opening hopening ↦ ?_, fun other old hold ↦
      (h.hands.handlers other old hold).mono (hstored _) hasked⟩
    obtain ⟨question, reply, hquestion, hreply, hanswers⟩ := h.opened opening hopening
    exact ⟨question, reply, hquestion.perform hrole,
      Postgres.perform_messageRow_eq (by simp [hfinishes]) hreply, hanswers⟩
  | accept socket sessionId hnone =>
    refine ⟨h.opened, ?_⟩
    exact OneTurn.forall_update (.new settings sessionId) fun other old _ hold ↦
      h.hands.handlers other old hold
  | store socket task drawn lost handler operation hhandler hcall =>
    exact h.hands.commit htells.owned htells.gapFree hhandler hcall lost
  | fail socket task handler operation hhandler hcall =>
    refine ⟨h.opened, OneTurn.forall_update ?_ fun other old _ hold ↦
      h.hands.handlers other old hold⟩
    rw [Handler.answer_conn]
    refine (h.hands.handlers socket handler hhandler).answer ?_ ?_
    · rintro - message (⟨recorded, hreader | hreader, -⟩ | ⟨recorded, hreader⟩)
      all_goals exact absurd (congrArg Reader.pending hreader) (by simp)
    · exact fun _ message recorded assistant _ hreply ↦ absurd hreply (by simp)
  | act socket action handler next hhandler hnext =>
    refine ⟨h.opened, OneTurn.forall_update ?_ fun other old _ hold ↦
      h.hands.handlers other old hold⟩
    rw [Handler.step_session hnext, Conversation.handed, hhandler]
    refine (h.handlers socket handler hhandler).step (hstreaming socket handler hhandler)
      (htells.owned.owns socket handler hhandler) hnext ?_
    rintro id input turn rfl hturn
    exact hpermitted _ _ (by rw [Conversation.asking, hhandler, Option.bind_some, hturn]; rfl)

end Conversing

namespace Conversation

variable {conversation : Conversation Socket}

/-- The system of a conversation runs. -/
theorem Run.toSystem (h : Run settings responder conversation) :
    System.Run settings conversation.system := by
  induction h with
  | refl => exact .refl
  | tail _ hgoes ih =>
    obtain ⟨event, -, hstep⟩ := hgoes
    obtain ⟨system, hsystem, rfl⟩ := Option.map_eq_some_iff.mp hstep
    exact ih.tail ⟨event, trivial, hsystem⟩

theorem Run.conversing (h : Run settings responder conversation) :
    Conversing responder conversation.system conversation.texts := by
  induction h with
  | refl =>
    refine ⟨fun opening hopening ↦ absurd hopening List.not_mem_nil, fun _ _ hhandler ↦ ?_⟩
    exact absurd hhandler (by simp [initial, System.initial])
  | tail hbefore hgoes ih =>
    obtain ⟨event, hpermitted, hstep⟩ := hgoes
    obtain ⟨system, hsystem, rfl⟩ := Option.map_eq_some_iff.mp hstep
    have hrun := Run.toSystem hbefore
    exact ih.step hrun.tells hrun.streaming hpermitted hsystem

/-- The event is something that the responder gives a turn. -/
def gives : Event Socket → Bool
  | .act _ (.respond _ (.chunk _)) => true
  | .act _ (.respond _ .exhausted) => true
  | _ => false

omit [DecidableEq Socket] in
/-- Nothing else is the responder's to keep to. -/
theorem permitted_of_not_gives {event : Event Socket} (h : gives event = false) :
    conversation.Permitted responder event := by
  cases event with
  | act socket action =>
    cases action with
    | respond id input =>
      intro asked place hasking
      cases input with
      | chunk text => exact Bool.noConfusion h
      | exhausted => exact Bool.noConfusion h
      | begin | slept | raised => cases place <;> trivial
    | _ => trivial
  | _ => trivial

/-- A conversation goes on with what the responder may give. -/
theorem Run.given {socket : Socket} {id : ℕ} {input : TurnInput} {asked : String}
    {place : TurnPlace} {after : Conversation Socket} (h : Run settings responder conversation)
    (hasking : conversation.asking socket id = some (asked, place))
    (hstep : conversation.step settings (.act socket (.respond id input)) = some after)
    (hpermits : Permits responder asked place input) : Run settings responder after := by
  have hpermitted : conversation.Permitted responder (.act socket (.respond id input)) := by
    intro other otherPlace hother
    obtain ⟨rfl, rfl⟩ := Prod.mk.inj (Option.some.inj (hasking.symm.trans hother))
    exact hpermits
  exact h.tail ⟨_, hpermitted, hstep⟩

/-- A conversation makes any steps in which the responder gives nothing. -/
theorem Run.steps {events : List (Event Socket)} {after : Conversation Socket}
    (h : Run settings responder conversation) (hgives : events.all fun event ↦ !gives event)
    (hsteps : conversation.steps settings events = some after) : Run settings responder after := by
  induction events generalizing conversation with
  | nil => exact Option.some.inj hsteps ▸ h
  | cons event events ih =>
    obtain ⟨next, hstep, hrest⟩ := Option.bind_eq_some_iff.mp hsteps
    rw [List.all_cons, Bool.and_eq_true, Bool.not_eq_true'] at hgives
    exact ih (h.tail ⟨event, permitted_of_not_gives hgives.1, hstep⟩) hgives.2 hrest

end Conversation

/-- In every conversation, each reply row that was opened has a question: the message of a user that
is stored under the key of its submission, in its session and before it. The row is empty and not
complete, or its text is a whole reply of the responder to the text of that question; and whatever
chunks of it a connection has been sent are the beginning of a reply to that text. -/
theorem replies_answer {conversation : Conversation Socket}
    (hrun : Conversation.Run settings responder conversation) {opening : Opening Socket}
    (hopening : opening ∈ conversation.system.opened) :
    ∃ question reply,
      Question conversation.system.database opening.sessionId opening.clientMsgId question ∧
      messageRow conversation.system.database opening.messageId = some reply ∧
      Answers responder opening.sessionId question reply ∧
      ∀ socket handler, conversation.system.handlers socket = some handler →
        ∃ chunks, responder.Begins question.text chunks ∧
          handler.conn.shown opening.messageId = deltas opening.messageId chunks := by
  have hconversing := hrun.conversing
  obtain ⟨question, reply, hquestion, hreply, hanswers⟩ := hconversing.opened opening hopening
  refine ⟨question, reply, hquestion, hreply, hanswers, fun socket handler hhandler ↦ ?_⟩
  by_cases hstream : handler.conn.stream opening.messageId = []
  · exact ⟨[], Or.inl rfl, by rw [Connection.shown, hstream]; rfl⟩
  · obtain ⟨id, turn, hturn, hname⟩ :=
      (hrun.toSystem.streaming socket handler hhandler).named opening.messageId hstream
    obtain ⟨⟨other, hother, hotherName, asked, hasked, htext⟩, -, hbegins⟩ :=
      (hconversing.handlers socket handler hhandler).turns id turn hturn
    obtain rfl : opening = other :=
      List.inj_on_of_nodup_map hrun.toSystem.tells.owned.unique hopening hother
        (hname.symm.trans hotherName.symm)
    obtain rfl := Conversing.question_unique hquestion hasked
    rw [htext, ← hname]
    exact hbegins

end System

/-- A responder that has a reply of two chunks to the question gives them, and the row is
complete. -/
theorem exists_answered {responder : Responder} {first second : String}
    (h : responder "why?" [first, second]) :
    ∃ (conversation : Conversation ℕ) (row : ChatMessageRow),
      Conversation.Run .default responder conversation ∧
      (⟨0, ⟨1⟩, "key", ⟨3⟩⟩ : Opening ℕ) ∈ conversation.system.opened ∧
      messageRow conversation.system.database ⟨3⟩ = some row ∧ row.status = .complete := by
  obtain ⟨began, hbegan, hfirst, one, hone, slept, hslept, hsecond, two, htwo, spent, hspent,
    hwhole,
      ended, hended, conversation, hsteps, hopening, row, hrow, hstatus⟩ : ∃ began,
      (Conversation.initial ℕ).steps .default (asked ++ [.act 0 (.respond 0 .begin)]) = some began ∧
      began.asking 0 0 = some ("why?", .responding []) ∧ ∃ one,
      began.step .default (.act 0 (.respond 0 (.chunk first))) = some one ∧ ∃ slept,
      one.steps .default [.act 0 (.respond 0 .slept)] = some slept ∧
      slept.asking 0 0 = some ("why?", .responding [first]) ∧ ∃ two,
      slept.step .default (.act 0 (.respond 0 (.chunk second))) = some two ∧ ∃ spent,
      two.steps .default [.act 0 (.respond 0 .slept)] = some spent ∧
      spent.asking 0 0 = some ("why?", .responding [first, second]) ∧ ∃ ended,
      spent.step .default (.act 0 (.respond 0 .exhausted)) = some ended ∧ ∃ conversation,
      ended.steps .default [.store 0 (.turn 0) ⟨0⟩ false] = some conversation ∧
      (⟨0, ⟨1⟩, "key", ⟨3⟩⟩ : Opening ℕ) ∈ conversation.system.opened ∧ ∃ row,
      messageRow conversation.system.database ⟨3⟩ = some row ∧ row.status = .complete :=
    ⟨_, rfl, rfl, _, rfl, _, rfl, rfl, _, rfl, _, rfl, rfl, _, rfl, _, rfl,
      List.mem_singleton_self _, _, rfl, rfl⟩
  have hstart : Conversation.Run .default responder (Conversation.initial ℕ) := .refl
  have honce : Conversation.Run .default responder one :=
    (hstart.steps rfl hbegan).given hfirst hone (Or.inr ⟨[second], h⟩)
  have htwice : Conversation.Run .default responder two :=
    (honce.steps rfl hslept).given hsecond htwo (Or.inr ⟨[], h⟩)
  have hrun : Conversation.Run .default responder conversation :=
    ((htwice.steps rfl hspent).given hwhole hended h).steps rfl hsteps
  exact ⟨conversation, row, hrun, hopening, hrow, hstatus⟩

/-- The law at work: the question is answered in two chunks. -/
theorem replies_answer_because :
    ∃ (responder : Responder) (conversation : Conversation ℕ) (question reply : ChatMessageRow),
      Conversation.Run .default responder conversation ∧
      Question conversation.system.database ⟨1⟩ "key" question ∧
      messageRow conversation.system.database ⟨3⟩ = some reply ∧ reply.status = .complete ∧
      Answers responder ⟨1⟩ question reply := by
  let responder : Responder := fun asked chunks ↦ asked = "why?" ∧ chunks = ["", "because"]
  have hreplies : responder "why?" ["", "because"] := ⟨rfl, rfl⟩
  obtain ⟨conversation, row, hrun, hopening, hrow, hstatus⟩ := exists_answered hreplies
  obtain ⟨question, reply, hquestion, hreply, hanswers, -⟩ := replies_answer hrun hopening
  obtain rfl : row = reply := Option.some.inj (hrow.symm.trans hreply)
  exact ⟨responder, conversation, question, row, hrun, hquestion, hreply, hstatus, hanswers⟩

/-! ### The stub -/

/-- With the stub for a responder, the words of every complete reply are its greeting, and the words
of the question. -/
theorem stub_echoes {Socket : Type} [DecidableEq Socket] {settings : Settings}
    {unicode : CharacterDatabase} {conversation : Conversation Socket}
    (hrun : Conversation.Run settings (StubResponder unicode) conversation)
    {opening : Opening Socket} (hopening : opening ∈ conversation.system.opened)
    {reply : ChatMessageRow}
    (hreply : messageRow conversation.system.database opening.messageId = some reply)
    (hcomplete : reply.status = .complete) :
    ∃ question,
      Question conversation.system.database opening.sessionId opening.clientMsgId question ∧
        split unicode reply.text.toList =
          "echo:".toList :: split unicode question.text.toList := by
  obtain ⟨question, other, hquestion, hother, hanswers⟩ := hrun.conversing.opened opening hopening
  obtain rfl : reply = other := Option.some.inj (hreply.symm.trans hother)
  rcases hanswers.text with ⟨-, hstatus⟩ | ⟨chunks, hchunks, htext⟩
  · exact absurd hcomplete hstatus
  · obtain rfl : chunks = StubResponder.respond unicode question.text := hchunks
    exact ⟨question, hquestion, htext ▸ StubResponder.split_respond unicode question.text⟩

/-- The stub at work. -/
theorem stub_echoes_why :
    ∃ (unicode : CharacterDatabase) (conversation : Conversation ℕ)
      (question reply : ChatMessageRow),
      Question conversation.system.database ⟨1⟩ "key" question ∧
      messageRow conversation.system.database ⟨3⟩ = some reply ∧
      split unicode reply.text.toList = "echo:".toList :: split unicode question.text.toList := by
  let unicode : CharacterDatabase := ⟨fun _ ↦ none, fun _ ↦ false⟩
  have hwords : split unicode "why?".toList = ["why?".toList] := by decide
  have hreplies : StubResponder unicode "why?" ["echo: ", String.ofList "why?".toList ++ " "] := by
    rw [StubResponder, StubResponder.respond, hwords]
    rfl
  obtain ⟨conversation, row, hrun, hopening, hrow, hstatus⟩ := exists_answered hreplies
  obtain ⟨question, hquestion, hechoes⟩ := stub_echoes hrun hopening hrow hstatus
  exact ⟨unicode, conversation, question, row, hquestion, hrow, hechoes⟩

end Chat

end Abacus
