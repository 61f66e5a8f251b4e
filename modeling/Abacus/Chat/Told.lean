import Abacus.Chat.Resolution
import Abacus.Chat.Resume
import Abacus.Chat.Written
import Abacus.Postgres.GapFree

/-!
# What a client was told about

An ack names the row of the reply before it is written. A client that has lost its socket asks for
the rows after its cursor, the highest number it has received. Every row that it was told about is a
row of its session (`Tells`), and once the turn of a row is over nothing changes it (`System.Over`,
`row_final`), so a replay that is delivered shows the client the end of exactly those rows whose
number is above the cursor.

The row of a reply is numbered when it is opened, before the rows of the turns that begin after it,
and these are acked while it still streams. A cursor that has passed it in this way never asks for
it again. `loses_nothing_iff` is the exact condition, and `told_and_lost` a run of two turns in
which it fails.
-/

set_option autoImplicit false
set_option relaxedAutoImplicit false

namespace Abacus.Chat

open Postgres (Database GapFree IsBound MessagesLogged Operation Outcome onChat perform messageRow
  sessionRows)

/-! ### The rows that an ack names -/

/-- The reply row that an ack names, if it names one, is a row of the session. -/
def Answered (database : Database) (sessionId : Uuid) (_clientMsgId : String)
    (reply : Option Uuid) : Prop :=
  ∀ messageId, reply = some messageId →
    ∃ row, messageRow database messageId = some row ∧ row.sessionId = sessionId

theorem Answered.perform {database : Database} {sessionId : Uuid} {clientMsgId : String}
    {reply : Option Uuid} (h : Answered database sessionId clientMsgId reply) (now : Instant)
    (operation : Operation) :
    Answered (perform now operation database).2 sessionId clientMsgId reply := by
  intro messageId hreply
  obtain ⟨row, hrow, hsession⟩ := h messageId hreply
  obtain ⟨new, hnew, hsame⟩ : ∃ new, messageRow (Postgres.perform now operation database).2
      messageId = some new ∧ row.SameMessage new := Postgres.perform_messageRow hrow
  exact ⟨new, hnew, hsame.1.trans hsession⟩

namespace Handler

/-- The acks of a reader that has the result of its call. -/
theorem Backed.returned {backs : String → Option Uuid → Prop} {handler : Handler}
    (h : handler.Backed backs) (outcome : Outcome)
    (hrecording : ∀ message recorded, handler.reader.place = .recording message →
      outcome = .recorded recorded → recorded.created = true)
    (hrecovering : ∀ message recorded, handler.reader.place = .recovering message →
      outcome = .recorded recorded → backs message.clientMsgId none)
    (hopening : ∀ message recorded assistant, handler.reader.place = .opening message recorded →
      outcome = .opened assistant → backs message.clientMsgId (some assistant.messageId)) :
    (handler.answer (.returned outcome) .reader).Backed backs := by
  have hoffers : ∀ place other, (handler.answer (.returned outcome) .reader).reader =
      ⟨place, some (.returned other)⟩ → handler.reader.place = place ∧ outcome = other := by
    intro place other hreader
    obtain ⟨hplace, hpending⟩ := Reader.mk.inj hreader
    exact ⟨hplace, Reply.returned.inj (Option.some.inj hpending)⟩
  constructor
  · exact h.sent
  · exact h.live
  · intro message recorded hreader
    obtain ⟨hplace, houtcome⟩ := hoffers _ _ hreader
    exact hrecording message recorded hplace houtcome
  · intro message recorded hreader
    obtain ⟨hplace, houtcome⟩ := hoffers _ _ hreader
    exact hrecovering message recorded hplace houtcome
  · intro message recorded assistant hreader
    obtain ⟨hplace, houtcome⟩ := hoffers _ _ hreader
    exact hopening message recorded assistant hplace houtcome

/-- The calls of a handler back its acks: a row that was opened is there. -/
theorem answer_backed {settings : Settings} {handler : Handler} {task : Task} {drawn : Uuid}
    {operation : Operation} {lost : Bool} (now : Instant) {database : Database}
    (h : handler.Backed (Answered database handler.conn.sessionId))
    (hcall : handler.call settings drawn task = some operation) :
    (handler.answer (if lost then .raised none else replyOf (perform now operation database).1)
      task).Backed (Answered (perform now operation database).2 handler.conn.sessionId) := by
  have hkept : handler.Backed (Answered (perform now operation database).2
      handler.conn.sessionId) := h.mono fun _ _ hanswered ↦ hanswered.perform now operation
  by_cases hquiet : task = .reader → ∀ outcome,
      (if lost then .raised none else replyOf (perform now operation database).1) ≠
        .returned outcome
  · exact hkept.calm (handler.answer_calm _ task hquiet)
  · simp only [not_forall, not_not] at hquiet
    obtain ⟨rfl, outcome, hreply⟩ := hquiet
    rw [hreply]
    cases hperform : perform now operation database with
    | mk reply after =>
      rw [hperform] at hreply hkept
      obtain rfl : reply = .ok outcome := by
        cases lost with
        | true => exact nomatch hreply
        | false =>
          cases reply with
          | ok other => exact congrArg Except.ok (Reply.returned.inj hreply)
          | error error => exact nomatch hreply
      obtain ⟨place, hreader, hplace⟩ := call_reader hcall
      have hsame : handler.reader.place = place := congrArg Reader.place hreader
      rw [← hsame] at hplace
      refine hkept.returned outcome ?_ ?_ ?_
      · rintro message recorded hrecording rfl
        rw [hrecording] at hplace
        obtain rfl := Option.some.inj hplace
        obtain ⟨other, hother, hcreated, -⟩ := Postgres.perform_recordUserMessage hperform
        exact Outcome.recorded.inj hother ▸ hcreated
      · rintro message recorded - - messageId hnone
        exact nomatch hnone
      · rintro message recorded assistant hopening rfl messageId hsome
        rw [hopening] at hplace
        obtain rfl := Option.some.inj hplace
        obtain ⟨seq, hopened, -, hrow⟩ := Postgres.perform_startAssistantMessage hperform
        obtain rfl := Outcome.opened.inj hopened
        obtain rfl := Option.some.inj hsome
        exact ⟨_, hrow, rfl⟩

end Handler

section System

variable {Socket : Type} [DecidableEq Socket] {settings : Settings} {system after : System Socket}

/-- In a run every row that an ack names is a row of its session, a row is finished by one turn, and
the log of a session has one row for each number. -/
structure Tells (system : System Socket) : Prop where
  owned : Owned system
  backed : ∀ socket handler, system.handlers socket = some handler →
    handler.Backed (Answered system.database handler.conn.sessionId)
  gapFree : GapFree system.database

theorem Tells.step {event : Event Socket} (h : Tells system)
    (hstep : system.step settings event = some after) : Tells after := by
  have howned := h.owned.step hstep
  cases System.step_moves hstep with
  | tick duration => exact ⟨howned, h.backed, h.gapFree⟩
  | job operation hchat =>
    refine ⟨howned, fun socket handler hhandler ↦ ?_, Postgres.perform_gapFree _ _ h.gapFree⟩
    exact (h.backed socket handler hhandler).mono fun _ _ hanswered ↦ hanswered.perform _ _
  | accept socket sessionId hnone =>
    refine ⟨howned, ?_, h.gapFree⟩
    exact OneTurn.forall_update (.new settings sessionId) fun other old _ hold ↦
      h.backed other old hold
  | store socket task drawn lost handler operation hhandler hcall =>
    refine ⟨howned, ?_, Postgres.perform_gapFree _ _ h.gapFree⟩
    refine OneTurn.forall_update ?_ fun other old _ hold ↦
      (h.backed other old hold).mono fun _ _ hanswered ↦ hanswered.perform _ _
    rw [Handler.answer_conn]
    exact Handler.answer_backed system.now (h.backed socket handler hhandler) hcall
  | fail socket task handler operation hhandler hcall =>
    refine ⟨howned, ?_, h.gapFree⟩
    refine OneTurn.forall_update ?_ fun other old _ hold ↦ h.backed other old hold
    rw [Handler.answer_conn]
    exact (h.backed socket handler hhandler).calm (handler.answer_calm _ task (by simp))
  | act socket action handler next hhandler hnext =>
    refine ⟨howned, ?_, h.gapFree⟩
    refine OneTurn.forall_update ?_ fun other old _ hold ↦ h.backed other old hold
    rw [Handler.step_session hnext]
    exact (h.backed socket handler hhandler).step hnext

/-- Along every run. -/
theorem System.Run.tells (h : System.Run settings system) : Tells system := by
  refine h.invariant ?_ fun before event next hbefore _ hstep ↦ hbefore.step hstep
  exact ⟨.initial, (fun socket handler hhandler ↦ nomatch hhandler), Postgres.gapFree_empty⟩

end System

/-! ### Turns that are over -/

namespace Turn

variable {turn moved : Turn}

/-- A turn that is over, with no write of its own still on its way. -/
def Over (turn : Turn) : Prop :=
  turn.place = .ended ∧ turn.marking = false

theorem Over.call_eq_none (h : turn.Over) : turn.call = none := by
  rw [call, h.1, h.2]
  rfl

theorem Over.cancel_eq (h : turn.Over) : turn.cancel = turn := by
  rw [cancel, h.1]

theorem Over.answer (h : turn.Over) (reply : Reply) : (turn.answer reply).Over := by
  have hmarking : ¬turn.marking = true := by simp [h.2]
  rw [Turn.answer, if_neg hmarking]
  exact h

theorem Over.not_moves (h : turn.Over) : ¬Handler.TurnMoves turn moved := by
  intro hmoves
  have hended := h.1
  cases hmoves with
  | begins hplace => exact nomatch hended.symm.trans hplace
  | responds hpending hplace =>
    obtain ⟨chunks, hplace | hplace⟩ := hplace
    · exact nomatch hended.symm.trans hplace
    · exact nomatch hended.symm.trans hplace
  | completed chunks outcome hplace => exact nomatch hended.symm.trans hplace
  | notCompleted chunks error hplace => exact nomatch hended.symm.trans hplace
  | failed cancelled hplace => exact nomatch hended.symm.trans hplace
  | neverStarted hplace => exact nomatch hended.symm.trans hplace
  | cancelled hpending hplace =>
    obtain ⟨chunks, hplace | hplace | hplace⟩ := hplace
    · exact nomatch hended.symm.trans hplace
    · exact nomatch hended.symm.trans hplace
    · exact nomatch hended.symm.trans hplace

end Turn

namespace Handler

variable {handler after : Handler} {messageId : Uuid}

/-- The handler has nothing left to do for a message: its turn is over, if it had one, and it is not
about to have one. -/
structure Past (messageId : Uuid) (handler : Handler) : Prop where
  reader : ∀ assistant, handler.reader.Awaits assistant → assistant.messageId ≠ messageId
  tasks : ∀ id turn, handler.tasks id = some turn → turn.assistant.messageId = messageId →
    turn.Over

theorem past_new (settings : Settings) (sessionId messageId : Uuid) :
    (Handler.new settings sessionId).Past messageId where
  reader assistant hawaits := by
    obtain ⟨message, recorded, hreader⟩ := hawaits
    exact nomatch hreader
  tasks _ _ hturn := nomatch hturn

/-- No step of a handler takes up a message again. -/
theorem Past.step {settings : Settings} {action : Action} (h : handler.Past messageId)
    (hends : handler.Ends) (hstep : handler.step settings action = some after) :
    after.Past messageId := by
  have hopening : handler.serve.place = .opening →
      ∀ outcome, handler.reader.pending ≠ some (.returned outcome) := by
    intro hplace
    simp [hends.opening hplace]
  cases step_turns hopening hstep with
  | quiet htasks hturns hreader =>
    constructor
    · exact fun assistant hawaits ↦ h.reader assistant (hreader.gains assistant hawaits)
    · rw [htasks]
      exact h.tasks
  | cancels hstops htasks hturns hreader =>
    constructor
    · exact fun assistant hawaits ↦ h.reader assistant (hreader.gains assistant hawaits)
    · intro id turn hturn hmessage
      rw [htasks] at hturn
      obtain ⟨old, hold, rfl | ⟨-, rfl⟩⟩ := cancelTurns_eq_some hturn
      · exact h.tasks id turn hold hmessage
      · rw [old.cancel_assistant] at hmessage
        have hover := h.tasks id old hold hmessage
        rw [hover.cancel_eq]
        exact hover
  | turn id turn moved hturn hmoves htasks hturns hreader =>
    constructor
    · rw [hreader]
      exact h.reader
    · intro other new hnew hmessage
      rcases eq_some_of_update htasks hnew with ⟨rfl, hset⟩ | ⟨-, hold⟩
      · obtain rfl := Option.some.inj hset
        rw [Turn.moves_assistant hmoves] at hmessage
        exact absurd hmoves (h.tasks other turn hturn hmessage).not_moves
      · exact h.tasks other new hold hmessage
  | started message recorded assistant fresh hreader hfresh =>
    constructor
    · intro other hawaits
      exact absurd hawaits (Reader.not_awaits_of_pending (by simp) other)
    · intro id turn hturn hmessage
      rcases eq_some_of_update rfl hturn with ⟨-, hset⟩ | ⟨-, hold⟩
      · obtain rfl := Option.some.inj hset
        exact absurd hmessage (h.reader assistant ⟨message, recorded, hreader⟩)
      · exact h.tasks id turn hold hmessage
  | finished id turn hturn hended => exact ⟨h.reader, h.tasks⟩

/-- A reply that opens no row for the message leaves it alone. -/
theorem Past.answer {reply : Reply} {task : Task} (h : handler.Past messageId)
    (hreply : task = .reader → ∀ assistant message recorded,
      handler.reader.place = .opening message recorded →
        reply = .returned (.opened assistant) → assistant.messageId ≠ messageId) :
    (handler.answer reply task).Past messageId := by
  cases task with
  | serve => exact ⟨h.reader, h.tasks⟩
  | reader =>
    refine ⟨?_, h.tasks⟩
    rintro assistant ⟨message, recorded, hreader⟩
    obtain ⟨hplace, hpending⟩ := Reader.mk.inj hreader
    exact hreply rfl assistant message recorded hplace (Option.some.inj hpending)
  | turn answered =>
    refine ⟨h.reader, fun id turn hturn hmessage ↦ ?_⟩
    rcases answer_eq_some hturn with ⟨rfl, old, hold, rfl⟩ | ⟨-, hold⟩
    · rw [old.answer_assistant] at hmessage
      exact (h.tasks id old hold hmessage).answer reply
    · exact h.tasks id turn hold hmessage

end Handler

/-- A call that is not the chat's finishes no message. -/
theorem finishes_of_not_onChat {operation : Operation} (h : onChat operation = false) :
    operation.finishes = none := by
  cases operation with
  | completeAssistantMessage messageId text => exact nomatch h
  | failAssistantMessage messageId => exact nomatch h
  | _ => rfl

section System

variable {Socket : Type} [DecidableEq Socket] {settings : Settings} {system after : System Socket}
  {messageId : Uuid} {row : Postgres.ChatMessageRow}

omit [DecidableEq Socket] in
/-- No connection has anything left to do for a message. -/
def System.Over (system : System Socket) (messageId : Uuid) : Prop :=
  ∀ socket handler, system.handlers socket = some handler → handler.Past messageId

/-- The row of a message whose turn is over stays as it is, and nothing takes the message up again:
a row is only written by its turn, and a new row has a name that was not there. -/
theorem System.Over.step {event : Event Socket} (h : system.Over messageId) (howned : Owned system)
    (hrow : messageRow system.database messageId = some row)
    (hstep : system.step settings event = some after) :
    after.Over messageId ∧ messageRow after.database messageId = some row := by
  cases System.step_moves hstep with
  | tick duration => exact ⟨h, hrow⟩
  | job operation hchat =>
    refine ⟨h, Postgres.perform_messageRow_eq ?_ hrow⟩
    rw [finishes_of_not_onChat hchat]
    exact (Option.some_ne_none messageId).symm
  | accept socket sessionId hnone =>
    refine ⟨?_, hrow⟩
    exact OneTurn.forall_update (Handler.past_new settings sessionId messageId)
      fun other old _ hold ↦ h other old hold
  | store socket task drawn lost handler operation hhandler hcall =>
    have hpast := h socket handler hhandler
    constructor
    · refine OneTurn.forall_update (hpast.answer ?_) fun other old _ hold ↦ h other old hold
      intro htask assistant message recorded hplace hreply heq
      have hoffered : replyOf (perform system.now operation system.database).1 =
          .returned (.opened assistant) := by
        cases lost with
        | true => exact nomatch hreply
        | false => exact hreply
      obtain ⟨-, hquiet⟩ | ⟨_, _, other, _, -, -, -, hperform, hdrawn, habsent, -⟩ :=
        Owned.call_cases system.now system.database socket hcall
      · exact hquiet htask assistant message recorded hplace hoffered
      · rw [hperform] at hoffered
        obtain rfl : other = assistant := Outcome.opened.inj (Reply.returned.inj hoffered)
        rw [← hdrawn, heq, hrow] at habsent
        exact nomatch habsent
    · refine Postgres.perform_messageRow_eq (fun hfinishes ↦ ?_) hrow
      obtain ⟨id, turn, -, hturn, hmessage, hturnCall⟩ := Resolving.turn_of_finishes hcall hfinishes
      rw [(hpast.tasks id turn hturn hmessage).call_eq_none] at hturnCall
      exact nomatch hturnCall
  | fail socket task handler operation hhandler hcall =>
    refine ⟨?_, hrow⟩
    refine OneTurn.forall_update ((h socket handler hhandler).answer ?_)
      fun other old _ hold ↦ h other old hold
    intro _ assistant message recorded _ hreply
    exact nomatch hreply
  | act socket action handler next hhandler hnext =>
    refine ⟨?_, hrow⟩
    refine OneTurn.forall_update ?_ fun other old _ hold ↦ h other old hold
    exact (h socket handler hhandler).step (howned.owns socket handler hhandler).ends hnext

/-- A row that stays as it is however the run goes on. -/
def System.Final (settings : Settings) (system : System Socket) (messageId : Uuid)
    (row : Postgres.ChatMessageRow) : Prop :=
  ∀ later, System.Reaches settings (fun _ _ ↦ True) system later →
    messageRow later.database messageId = some row

/-- The row of a message whose turn is over is final. -/
theorem row_final (hrun : System.Run settings system) (hover : system.Over messageId)
    (hrow : messageRow system.database messageId = some row) :
    system.Final settings messageId row := by
  intro later hlater
  have hkept : ∀ (before : System Socket) event next, (Owned before ∧ before.Over messageId ∧
      messageRow before.database messageId = some row) → True →
        before.step settings event = some next →
          Owned next ∧ next.Over messageId ∧ messageRow next.database messageId = some row := by
    rintro before event next ⟨howned, hbefore, hbeforeRow⟩ - hstep
    exact ⟨howned.step hstep, hbefore.step howned hbeforeRow hstep⟩
  have hafter : Owned later ∧ later.Over messageId ∧
      messageRow later.database messageId = some row := by
    refine hlater.invariant ?_ hkept
    exact ⟨hrun.tells.owned, hover, hrow⟩
  exact hafter.2.2

end System

/-! ### The log and its rows -/

/-- A message is a row of its session's log. -/
theorem mem_sessionRows {database : Database} (h : MessagesLogged database) {messageId : Uuid}
    {row : Postgres.ChatMessageRow} (hrow : messageRow database messageId = some row) :
    SessionRow.message (row.toMessage messageId) ∈ sessionRows database row.sessionId := by
  have hentry := (h row.sessionId row.seq messageId).mpr ⟨row, hrow, rfl, rfl⟩
  exact Postgres.mem_sessionRows_iff.mpr ⟨row.seq, row, hentry, hrow, rfl⟩

/-- The rows of a session have different numbers. -/
theorem nodup_sessionRows {database : Database} (h : GapFree database) (sessionId : Uuid) :
    ((sessionRows database sessionId).map SessionRow.seq).Nodup := by
  have hseqs : (sessionRows database sessionId).map SessionRow.seq =
      Postgres.sessionSeqs database sessionId := by
    rw [sessionRows, List.map_append, List.map_map, List.map_map]
    rfl
  rw [hseqs, (h.sessionSeqs_perm sessionId).nodup_iff]
  exact List.nodup_range'

/-- The frame that a message is replayed as. -/
def messageFrame (messageId : Uuid) (row : Postgres.ChatMessageRow) : ServerFrame :=
  .message row.seq messageId row.role row.status row.text

/-- A replay after a cursor shows a message exactly if its number is above the cursor. -/
theorem messageFrame_mem_iff {database : Database} (h : MessagesLogged database) {messageId : Uuid}
    {row : Postgres.ChatMessageRow} (hrow : messageRow database messageId = some row)
    {lastSeq : ℕ} {rows : List SessionRow}
    (hrows : ∀ other, other ∈ rows ↔ other ∈ missedRows database row.sessionId lastSeq) :
    messageFrame messageId row ∈ rows.map replayed ↔ lastSeq < row.seq := by
  have hframe : messageFrame messageId row = replayed (.message (row.toMessage messageId)) := rfl
  rw [hframe, List.mem_map_of_injective replayed_injective, hrows, missedRows, List.mem_filter,
    decide_eq_true_iff]
  exact and_iff_right (mem_sessionRows h hrow)

/-! ### The client -/

/-- The highest number that a client has received. -/
def cursor (received : List ServerFrame) : ℕ :=
  (received.filterMap ServerFrame.seq).foldr max 0

/-- The client was told about a row by an ack. -/
def Told (received : List ServerFrame) (messageId : Uuid) : Prop :=
  ∃ clientMsgId seq stored, .ack clientMsgId seq stored (some messageId) ∈ received

/-- The client has received the `done` of a row. -/
def Finished (received : List ServerFrame) (messageId : Uuid) : Prop :=
  ∃ seq, .done messageId seq ∈ received

section System

variable {Socket : Type} [DecidableEq Socket] {settings : Settings} {system after : System Socket}
  {socket : Socket} {handler : Handler} {v : Int} {received replay : List ServerFrame}

omit [DecidableEq Socket] in
/-- Frames of a session that a client can have received: each was written on one of its sockets. -/
def System.Receives (system : System Socket) (sessionId : Uuid) (received : List ServerFrame) :
    Prop :=
  ∀ frame ∈ received, ∃ socket handler, system.handlers socket = some handler ∧
    handler.conn.sessionId = sessionId ∧ frame ∈ handler.conn.written

/-- Every row that the client was told about has either ended for it, or the replay shows how it
ended. -/
def LosesNothing (settings : Settings) (after : System Socket)
    (received replay : List ServerFrame) : Prop :=
  ∀ messageId, Told received messageId → Finished received messageId ∨
    ∃ row, after.Final settings messageId row ∧ messageFrame messageId row ∈ replay

/-- A connection that has dropped nothing has room for frames behind those that wait. -/
def Handler.Fits (settings : Settings) (handler : Handler) (count : ℕ) : Prop :=
  handler.conn.overflowed = false ∧ (settings.wsSendQueueSize ≤ 0 ∨
    (handler.conn.out.length + count : Int) ≤ settings.wsSendQueueSize)

instance (settings : Settings) (handler : Handler) (count : ℕ) :
    Decidable (handler.Fits settings count) :=
  inferInstanceAs (Decidable (_ ∧ (_ ∨ _)))

/-- The row of every reply that the client has still to see the end of is above its cursor, and the
rows above the cursor find room where its resume is answered. -/
def Recoverable (settings : Settings) (system : System Socket) (sessionId : Uuid)
    (received : List ServerFrame) (current : Handler) : Prop :=
  ∀ messageId row, Told received messageId → ¬Finished received messageId →
    messageRow system.database messageId = some row → cursor received < row.seq ∧
      IsBound (cursor received) (settings.wsResumeMaxMessages + 1) ∧
        current.Fits settings (missedRows system.database sessionId (cursor received)).length

/-- A client is told about rows of its session only. -/
theorem row_of_told (hrun : System.Run settings system) {sessionId : Uuid}
    (hreceived : system.Receives sessionId received) {messageId : Uuid}
    (htold : Told received messageId) :
    ∃ row, messageRow system.database messageId = some row ∧ row.sessionId = sessionId := by
  obtain ⟨clientMsgId, seq, stored, hack⟩ := htold
  obtain ⟨other, old, hold, rfl, hwritten⟩ := hreceived _ hack
  have hsent := (hrun.flows other old hold).1.written.subset hwritten
  exact (hrun.tells.backed other old hold).sent _ _ _ _ hsent messageId rfl

/-- The turn of a row is over when the task that has it is: no other has. -/
theorem over_of_turn (howned : Owned system) (hhandler : system.handlers socket = some handler)
    {id : ℕ} {turn : Turn} (hturn : handler.tasks id = some turn) (hover : turn.Over) :
    system.Over turn.assistant.messageId := by
  have howns := howned.owns socket handler hhandler
  intro other old hold
  have hothers := howned.owns other old hold
  by_cases hsame : other = socket
  · subst hsame
    obtain rfl : handler = old := Option.some.inj (hhandler.symm.trans hold)
    constructor
    · exact fun assistant hawaits ↦ ((howns.reader assistant hawaits).2 id turn hturn).symm
    · intro otherId otherTurn hotherTurn hmessage
      obtain rfl := howns.distinct _ _ _ _ hotherTurn hturn hmessage
      obtain rfl : turn = otherTurn := Option.some.inj (hturn.symm.trans hotherTurn)
      exact hover
  · have hopened := howns.tasks id turn hturn
    constructor
    · intro assistant hawaits heq
      have hopenedBy := (hothers.reader assistant hawaits).1
      rw [heq] at hopenedBy
      exact hsame (howned.socket_unique hopenedBy hopened)
    · intro otherId otherTurn hotherTurn hmessage
      have hopenedBy := hothers.tasks otherId otherTurn hotherTurn
      rw [hmessage] at hopenedBy
      exact absurd (howned.socket_unique hopenedBy hopened) hsame

/-- Of the messages of a session a resume writes those above its cursor, if any. -/
theorem Resumes.shows {lastSeq : ℕ} (hgapFree : GapFree system.database)
    (hhandler : system.handlers socket = some handler) (hready : handler.Ready settings)
    (hv : v ≤ protocolVersion) (hrange : IsBound lastSeq (settings.wsResumeMaxMessages + 1))
    (hbound : (missedRows system.database handler.conn.sessionId lastSeq).length ≤
      settings.wsResumeMaxMessages)
    (h : Resumes settings socket v lastSeq system after) :
    ∃ final replay, after.handlers socket = some final ∧
      final.conn.written = handler.conn.written ++ replay ∧
        ∀ messageId row, messageRow system.database messageId = some row →
          row.sessionId = handler.conn.sessionId → messageFrame messageId row ∈ replay →
            lastSeq < row.seq := by
  by_cases hfits : settings.wsSendQueueSize ≤ 0 ∨
      ((missedRows system.database handler.conn.sessionId lastSeq).length : Int) ≤
        settings.wsSendQueueSize
  · obtain ⟨final, hfinal, hdelivers⟩ :=
      h.delivers hhandler hready hv (nodup_sessionRows hgapFree _) hrange hbound hfits
    obtain ⟨rows, hwritten, -, hrows⟩ := hdelivers.written
    refine ⟨final, rows.map replayed, hfinal, hwritten, fun messageId row hrow hsession hmem ↦ ?_⟩
    rw [← hsession] at hrows
    exact (messageFrame_mem_iff hgapFree.messages hrow hrows).mp hmem
  · obtain ⟨hpositive, hfull⟩ := not_or.mp hfits
    obtain ⟨final, hfinal, -, hwritten⟩ :=
      h.overflows hhandler hready hv hrange hbound (not_le.mp hpositive) (not_le.mp hfull)
    refine ⟨final, [], hfinal, hwritten.trans (List.append_nil _).symm, ?_⟩
    exact fun messageId row hrow hsession hmem ↦ absurd hmem List.not_mem_nil

theorem Resumes.reaches {lastSeq : ℕ} (h : Resumes settings socket v lastSeq system after) :
    System.Reaches settings (fun _ _ ↦ True) system after := by
  obtain ⟨_, _, _, _, _, _, -, hsteps, -⟩ := h
  exact System.Reaches.of_steps hsteps

/-- A row that the client was told about, and has not seen the end of, is in the replay when nothing
is lost. -/
theorem LosesNothing.shown (h : LosesNothing settings after received replay)
    (hrun : System.Run settings system)
    (hover : ∀ messageId, Told received messageId → system.Over messageId)
    (hafter : System.Reaches settings (fun _ _ ↦ True) system after) {messageId : Uuid}
    {row : Postgres.ChatMessageRow} (htold : Told received messageId)
    (hunfinished : ¬Finished received messageId)
    (hrow : messageRow system.database messageId = some row) :
    messageFrame messageId row ∈ replay := by
  rcases h messageId htold with hfinished | ⟨shown, hfinal, hmem⟩
  · exact absurd hfinished hunfinished
  · have hkept := row_final hrun (hover messageId htold) hrow after hafter
    obtain rfl : row = shown := Option.some.inj (hkept.symm.trans (hfinal after .refl))
    exact hmem

/-- A `Resume` is answered, with anything else happening before, between and after: `log_since`
reads the database of `system`, the reader goes on at any later moment, from `current` to `replied`,
and `final` is the connection at any moment after that. -/
structure AnswersResume (settings : Settings) (socket : Socket) (lastSeq : ℕ)
    (system after : System Socket) (handler current replied final : Handler) : Prop where
  begins : system.handlers socket = some handler
  resuming : handler.reader = ⟨.resuming lastSeq, none⟩
  goesOn : ∃ drawn stored answered later fresh sent,
    system.step settings (.store socket .reader drawn false) = some stored ∧
    stored.handlers socket = some answered ∧
    System.Reaches settings (fun _ _ ↦ True) stored later ∧
    later.handlers socket = some current ∧ current.reader = answered.reader ∧
    later.step settings (.act socket (.runReader fresh)) = some sent ∧
    sent.handlers socket = some replied ∧
    System.Reaches settings (fun _ _ ↦ True) sent after
  ends : after.handlers socket = some final

/-- The queue has been flushed, and no frame that came later was dropped before. -/
structure Flushed (replied final : Handler) : Prop where
  empty : final.conn.overflowed = false → final.conn.out = []
  kept : final.conn.overflowed = true → replied.conn.overflowed = true

/-- What has been written of the frames that were sent between two moments of a connection. -/
def writtenBetween (current replied final : Handler) : List ServerFrame :=
  (final.conn.written.take replied.conn.sent.length).drop current.conn.sent.length

section Answer

variable {current replied final : Handler} {lastSeq : ℕ}

/-- What the reader makes of the answer of `log_since`. -/
theorem AnswersResume.replied_eq
    (h : AnswersResume settings socket lastSeq system after handler current replied final) :
    replied = current.resumed
      (resumeFrames settings system.database handler.conn.sessionId lastSeq) current.writer := by
  obtain ⟨drawn, stored, answered, later, fresh, sent, hstored, hanswered, -, hcurrent, hsame,
    hsent,
    hreplied, -⟩ := h.goesOn
  rw [System.step_store_resuming h.begins h.resuming drawn] at hstored
  rw [← Option.some.inj hstored, System.setHandler_handlers_self] at hanswered
  rw [← Option.some.inj hanswered, Handler.answer, h.resuming] at hsame
  rw [System.step_run_resuming hcurrent hsame fresh] at hsent
  rw [← Option.some.inj hsent, System.setHandler_handlers_self] at hreplied
  exact (Option.some.inj hreplied).symm

/-- The moments of an answer lie on one run. -/
theorem AnswersResume.runs
    (h : AnswersResume settings socket lastSeq system after handler current replied final)
    (hrun : System.Run settings system) :
    System.Reaches settings (fun _ _ ↦ True) system after ∧
      (∃ later, System.Run settings later ∧ later.handlers socket = some current) ∧
        replied.conn.Later final.conn := by
  obtain ⟨drawn, stored, answered, later, fresh, sent, hstored, -, hlater, hcurrent, -, hsent,
    hreplied, hafter⟩ := h.goesOn
  have hfirst : System.Reaches settings (fun _ _ ↦ True) system later :=
    (Relation.ReflTransGen.single ⟨_, trivial, hstored⟩).trans hlater
  exact ⟨(hfirst.tail ⟨_, trivial, hsent⟩).trans hafter, ⟨later, hrun.trans hfirst, hcurrent⟩,
    hafter.later hreplied h.ends⟩

/-- What has been written of the answer, once the queue is flushed. -/
theorem AnswersResume.written_eq
    (h : AnswersResume settings socket lastSeq system after handler current replied final)
    (hrun : System.Run settings system) (hflushed : Flushed replied final)
    {frames : List ServerFrame}
    (hframes : resumeFrames settings system.database handler.conn.sessionId lastSeq = frames) :
    writtenBetween current replied final =
      if current.Fits settings frames.length then frames else [] := by
  obtain ⟨hreaches, ⟨later, hlater, hcurrent⟩, hrest⟩ := h.runs hrun
  obtain ⟨hflows, hmaxsize⟩ := hlater.flows socket current hcurrent
  have hafter : System.Run settings after := hrun.trans hreaches
  have hfinal := (hafter.flows socket final h.ends).1
  have hconn : replied.conn = current.conn.sendAll frames := by
    rw [h.replied_eq, hframes]
    rfl
  rw [hconn] at hrest
  have hwritten := hflows.written_sendAll hfinal hrest hflushed.empty (hconn ▸ hflushed.kept)
  rw [writtenBetween, hconn, hwritten, hmaxsize]
  rfl

/-- Of the messages of a session the answer to a resume within the replay bound shows those above
the cursor, if the rows above the cursor find room, and otherwise none. -/
theorem AnswersResume.shows
    (h : AnswersResume settings socket lastSeq system after handler current replied final)
    (hrun : System.Run settings system) (hflushed : Flushed replied final)
    (hbound : (missedRows system.database handler.conn.sessionId lastSeq).length ≤
      settings.wsResumeMaxMessages) {messageId : Uuid} {row : Postgres.ChatMessageRow}
    (hrow : messageRow system.database messageId = some row)
    (hsession : row.sessionId = handler.conn.sessionId) :
    messageFrame messageId row ∈ writtenBetween current replied final ↔
      lastSeq < row.seq ∧ IsBound lastSeq (settings.wsResumeMaxMessages + 1) ∧
        current.Fits settings
          (missedRows system.database handler.conn.sessionId lastSeq).length := by
  by_cases hrange : IsBound lastSeq (settings.wsResumeMaxMessages + 1)
  · have hlength := length_logAfter system.database handler.conn.sessionId lastSeq
    have hrows : ∀ other, other ∈ Postgres.logAfter system.database row.sessionId lastSeq ↔
        other ∈ missedRows system.database row.sessionId lastSeq :=
      fun other ↦ (Postgres.logAfter_perm system.database row.sessionId lastSeq).mem_iff
    rw [h.written_eq hrun hflushed (resumeFrames_of_bound hrange hbound), List.length_map, hlength]
    split_ifs with hfits
    · rw [← hsession, messageFrame_mem_iff hrun.tells.gapFree.messages hrow hrows]
      exact ⟨fun hless ↦ ⟨hless, hrange, hsession ▸ hfits⟩, fun hshown ↦ hshown.1⟩
    · exact iff_of_false List.not_mem_nil fun hshown ↦ hfits hshown.2.2
  · refine iff_of_false (fun hmem ↦ ?_) fun hshown ↦ hrange hshown.2.1
    rw [h.written_eq hrun hflushed (resumeFrames_of_range hrange)] at hmem
    split_ifs at hmem
    · simp [messageFrame] at hmem
    · simp at hmem

/-- An answer that finds room is given and flushed. -/
theorem exists_answersResume (hhandler : system.handlers socket = some handler)
    (hreader : handler.reader = ⟨.resuming lastSeq, none⟩) (halive : handler.writer.Alive)
    (hmaxsize : handler.conn.maxsize = settings.wsSendQueueSize) {waiting frames : List ServerFrame}
    (hout : handler.conn.out = waiting.map .frame)
    (hframes : resumeFrames settings system.database handler.conn.sessionId lastSeq = frames)
    (hfits : handler.Fits settings frames.length) :
    ∃ after current replied final,
      AnswersResume settings socket lastSeq system after handler current replied final ∧
        Flushed replied final ∧ current.conn = handler.conn := by
  obtain ⟨answered, hanswered⟩ : ∃ answered, answered = handler.answer
      (scanReply settings system.database handler.conn.sessionId lastSeq) .reader := ⟨_, rfl⟩
  have hconn : answered.conn = handler.conn := by rw [hanswered, Handler.answer_conn]
  have hwaits : answered.reader = ⟨.resuming lastSeq,
      some (scanReply settings system.database handler.conn.sessionId lastSeq)⟩ := by
    rw [hanswered, Handler.answer, hreader]
  have hwriting : answered.writer.Alive := by
    rw [hanswered]
    exact halive
  have hstored : system.step settings (.store socket .reader ⟨0⟩ false) =
      some (system.setHandler socket answered) := by
    rw [hanswered]
    exact System.step_store_resuming hhandler hreader ⟨0⟩
  have hsent : (system.setHandler socket answered).step settings (.act socket (.runReader 0)) =
      some ((system.setHandler socket answered).setHandler socket
        (answered.resumed frames answered.writer)) := by
    rw [← hframes]
    exact System.step_run_resuming (System.setHandler_handlers_self system socket answered) hwaits 0
  obtain ⟨final, hflushes, hrest⟩ :=
    Handler.exists_flushes_atRest (answered.resumed frames answered.writer)
  obtain ⟨events, -, hsteps⟩ := System.steps_of_flushes settings
    (System.setHandler_handlers_self (system.setHandler socket answered) socket _) hflushes
  have hroom := hfits.2
  rw [← hmaxsize] at hroom
  have hall := Connection.sendAll_of_room hfits.1 hroom
  rw [hout, ← List.map_append, ← hconn] at hall
  have hqueue : (answered.conn.sendAll frames).out = (waiting ++ frames).map .frame := by rw [hall]
  have hflag : (answered.conn.sendAll frames).overflowed = false := by
    rw [hall, hconn]
    exact hfits.1
  obtain ⟨last, done, rest, hlast, -, rfl⟩ := hflushes.flowing hqueue hflag hwriting
  obtain ⟨-, hempty⟩ := hrest.getting hlast
  refine ⟨_, answered, _, _, ⟨hhandler, hreader, ⟨⟨0⟩, _, answered, _, 0, _, hstored,
    System.setHandler_handlers_self _ _ _, .refl, System.setHandler_handlers_self _ _ _, rfl, hsent,
    System.setHandler_handlers_self _ _ _, System.Reaches.of_steps hsteps⟩,
    System.setHandler_handlers_self _ _ _⟩, ⟨fun _ ↦ hempty, fun hover ↦ hover⟩, hconn⟩

end Answer

/-- A client that has received any frames of its session, on any sockets, resumes after the highest
number among them, and the turns of the rows that it was told about are over. Its resume is answered
on any socket, whatever else happens on it or elsewhere, and the queue is flushed. Within the replay
bound the client has, for each of these rows, received the `done` or been shown the row as it stays,
if and only if every such row without a `done` has a number above the cursor and, where there is
one, what is above the cursor finds room in the queue. -/
theorem loses_nothing_iff {current replied final : Handler} (hrun : System.Run settings system)
    (hanswers : AnswersResume settings socket (cursor received) system after handler current replied
      final)
    (hflushed : Flushed replied final)
    (hreceived : system.Receives handler.conn.sessionId received)
    (hover : ∀ messageId, Told received messageId → system.Over messageId)
    (hbound : (missedRows system.database handler.conn.sessionId (cursor received)).length ≤
      settings.wsResumeMaxMessages) :
    LosesNothing settings after received (writtenBetween current replied final) ↔
      Recoverable settings system handler.conn.sessionId received current := by
  have hafter := (hanswers.runs hrun).1
  constructor
  · intro hlosesNothing messageId row htold hunfinished hrow
    obtain ⟨other, hother, hsession⟩ := row_of_told hrun hreceived htold
    obtain rfl : row = other := Option.some.inj (hrow.symm.trans hother)
    exact (hanswers.shows hrun hflushed hbound hrow hsession).mp
      (hlosesNothing.shown hrun hover hafter htold hunfinished hrow)
  · intro hrecoverable messageId htold
    by_cases hfinished : Finished received messageId
    · exact Or.inl hfinished
    · obtain ⟨row, hrow, hsession⟩ := row_of_told hrun hreceived htold
      refine Or.inr ⟨row, ?_, ?_⟩
      · intro later hlater
        exact row_final hrun (hover messageId htold) hrow later (hafter.trans hlater)
      · exact (hanswers.shows hrun hflushed hbound hrow hsession).mpr
          (hrecoverable messageId row htold hfinished hrow)

end System

/-! ### Runs of two turns -/

/-- A second message of the client. -/
def followUp : UserMessage :=
  ⟨"and then?", "other", by decide, by decide⟩

/-- Both messages are submitted and acked, and both turns are in their responder. -/
def bothAsked : List (Event ℕ) :=
  asked ++ [.act 0 (.receive (.valid 1 (.userMessage followUp))), .store 0 .reader ⟨4⟩ false,
    .act 0 (.runReader 0), .store 0 .reader ⟨5⟩ false, .act 0 (.runReader 1),
    .act 0 (.respond 0 .begin), .act 0 (.respond 1 .begin), .act 0 .runWriter,
    .act 0 (.write .accepted)]

/-- The socket dies, and both turns mark their rows failed. -/
def bothFailed : List (Event ℕ) :=
  [.act 0 (.disconnect false), .act 0 (.runTurn 0), .act 0 (.runTurn 1),
    .store 0 (.turn 0) ⟨0⟩ false, .store 0 (.turn 1) ⟨0⟩ false, .act 0 (.runTurn 0),
    .act 0 (.runTurn 1)]

/-- The client connects again. -/
def reconnected : List (Event ℕ) :=
  [.accept 1 ⟨1⟩, .store 1 .serve ⟨0⟩ false, .act 1 (.runServe true), .act 1 .runWriter,
    .act 1 (.runReader 0)]

/-- The two acks that the client can have received. -/
def bothAcks : List ServerFrame :=
  [.ack "key" 1 ⟨2⟩ (some ⟨3⟩), .ack "other" 3 ⟨4⟩ (some ⟨5⟩)]

/-- The client has connected again, and the turns of both rows that it was told about are over. -/
structure Dropped (system : System ℕ) (old handler : Handler) : Prop where
  run : System.Run .default system
  before : system.handlers 0 = some old
  written : old.conn.written = bothAcks
  first : ∃ turn, old.tasks 0 = some turn ∧ turn.Over ∧ turn.assistant.messageId = ⟨3⟩
  second : ∃ turn, old.tasks 1 = some turn ∧ turn.Over ∧ turn.assistant.messageId = ⟨5⟩
  failed : system.status ⟨3⟩ = some .failed ∧ system.status ⟨5⟩ = some .failed
  after : system.handlers 1 = some handler
  session : old.conn.sessionId = handler.conn.sessionId
  rows : ∃ row, messageRow system.database ⟨3⟩ = some row ∧ row.seq = 2 ∧
    row.sessionId = handler.conn.sessionId
  missed : ∀ lastSeq, (missedRows system.database handler.conn.sessionId lastSeq).length ≤ 4

theorem exists_dropped : ∃ system old handler, Dropped system old handler ∧
    handler.Ready .default := by
  have hsteps : (System.initial ℕ).steps .default (bothAsked ++ bothFailed ++ reconnected) =
      some _ := rfl
  refine ⟨_, _, _, ⟨System.Run.steps .refl hsteps, rfl, rfl, ⟨_, rfl, ⟨rfl, rfl⟩, rfl⟩,
    ⟨_, rfl, ⟨rfl, rfl⟩, rfl⟩, ⟨rfl, rfl⟩, rfl, rfl, ⟨_, rfl, rfl, rfl⟩, fun lastSeq ↦ ?_⟩,
    rfl, Or.inr (Or.inl rfl), rfl, rfl, rfl⟩
  exact (List.length_filter_le _ _).trans (le_of_eq rfl)

namespace Dropped

variable {system : System ℕ} {old handler : Handler} {received : List ServerFrame}

theorem receives (h : Dropped system old handler) (hreceived : received ⊆ bothAcks) :
    system.Receives handler.conn.sessionId received := by
  intro frame hframe
  refine ⟨0, old, h.before, h.session, ?_⟩
  rw [h.written]
  exact hreceived hframe

/-- The rows that the client was told about are those of its two turns. -/
theorem past (h : Dropped system old handler) (hreceived : received ⊆ bothAcks)
    (messageId : Uuid) (htold : Told received messageId) :
    system.Over messageId ∧ system.status messageId = some .failed := by
  obtain ⟨clientMsgId, seq, stored, hack⟩ := htold
  have hmem := hreceived hack
  simp only [bothAcks, List.mem_cons, List.not_mem_nil, or_false, ServerFrame.ack.injEq,
    Option.some.injEq] at hmem
  obtain ⟨-, -, -, rfl⟩ | ⟨-, -, -, rfl⟩ := hmem
  · obtain ⟨turn, hturn, hover, hmessage⟩ := h.first
    exact ⟨hmessage ▸ over_of_turn h.run.tells.owned h.before hturn hover, h.failed.1⟩
  · obtain ⟨turn, hturn, hover, hmessage⟩ := h.second
    exact ⟨hmessage ▸ over_of_turn h.run.tells.owned h.before hturn hover, h.failed.2⟩

end Dropped

/-- Two turns are acked, the socket dies, and both rows are marked failed. The cursor is the number
of the second question, above that of the first reply, and no resume shows the client that the first
reply has failed. -/
theorem told_and_lost :
    ∃ system handler, System.Run .default system ∧ system.handlers 1 = some handler ∧
      handler.Ready .default ∧ system.Receives handler.conn.sessionId bothAcks ∧
      (∀ messageId, Told bothAcks messageId →
        system.Over messageId ∧ system.status messageId = some .failed) ∧
      (missedRows system.database handler.conn.sessionId (cursor bothAcks)).length ≤
        Settings.default.wsResumeMaxMessages ∧
      (∃ after, Resumes .default 1 1 (cursor bothAcks) system after) ∧
      ∀ after, Resumes .default 1 1 (cursor bothAcks) system after →
        ∃ final replay, after.handlers 1 = some final ∧
          final.conn.written = handler.conn.written ++ replay ∧
            ¬LosesNothing .default after bothAcks replay := by
  obtain ⟨system, old, handler, h, hready⟩ := exists_dropped
  have hreceived := h.receives (List.Subset.refl bothAcks)
  have hover := h.past (List.Subset.refl bothAcks)
  have hbound : (missedRows system.database handler.conn.sessionId (cursor bothAcks)).length ≤
      Settings.default.wsResumeMaxMessages := (h.missed _).trans (by decide)
  refine ⟨system, handler, h.run, h.after, hready, hreceived, hover, hbound,
    exists_resumes h.after hready.reader (le_refl 1), fun after hresumes ↦ ?_⟩
  obtain ⟨final, replay, hfinal, hwritten, hshows⟩ :=
    hresumes.shows h.run.tells.gapFree h.after hready (le_refl 1) (by decide) hbound
  refine ⟨final, replay, hfinal, hwritten, fun hlosesNothing ↦ ?_⟩
  obtain ⟨row, hrow, hseq, hsession⟩ := h.rows
  have hunfinished : ¬Finished bothAcks ⟨3⟩ := by
    rintro ⟨seq, hdone⟩
    simp [bothAcks] at hdone
  have hless := hshows ⟨3⟩ row hrow hsession (hlosesNothing.shown h.run
    (fun id htold ↦ (hover id htold).1) hresumes.reaches ⟨_, _, _, List.mem_cons_self⟩ hunfinished
    hrow)
  rw [hseq] at hless
  exact absurd hless (by decide)

/-- The client sends a ping, and its resume after the first ack. -/
def resumedAfterPing : List (Event ℕ) :=
  [.act 1 (.receive (.valid 1 .ping)), .act 1 (.receive (.valid 1 (.resume 1)))]

/-- The law at work: the client has received the first of the two acks only, and the answer to its
resume waits behind a pong. -/
theorem loses_nothing_iff_one_ack :
    ∃ system after handler current replied final,
      AnswersResume .default 1 1 system after handler current replied final ∧
      Flushed replied final ∧ current.conn.out = [.frame .pong] ∧
      LosesNothing .default after [.ack "key" 1 ⟨2⟩ (some ⟨3⟩)]
        (writtenBetween current replied final) := by
  have hsubset : [ServerFrame.ack "key" 1 ⟨2⟩ (some ⟨3⟩)] ⊆ bothAcks := by decide
  obtain ⟨system, old, handler, h, hreader, hwriter, hmaxsize, hout, hover⟩ :
      ∃ system old handler, Dropped system old handler ∧
        handler.reader = ⟨.resuming 1, none⟩ ∧ handler.writer = .getting ∧
        handler.conn.maxsize = Settings.default.wsSendQueueSize ∧
        handler.conn.out = [ServerFrame.pong].map .frame ∧ handler.conn.overflowed = false := by
    have hsteps : (System.initial ℕ).steps .default
        (bothAsked ++ bothFailed ++ reconnected ++ resumedAfterPing) = some _ := rfl
    refine ⟨_, _, _, ⟨System.Run.steps .refl hsteps, rfl, rfl, ⟨_, rfl, ⟨rfl, rfl⟩, rfl⟩,
      ⟨_, rfl, ⟨rfl, rfl⟩, rfl⟩, ⟨rfl, rfl⟩, rfl, rfl, ⟨_, rfl, rfl, rfl⟩, fun lastSeq ↦ ?_⟩,
      rfl, rfl, rfl, rfl, rfl⟩
    exact (List.length_filter_le _ _).trans (le_of_eq rfl)
  have hbound := (h.missed 1).trans (show 4 ≤ Settings.default.wsResumeMaxMessages by decide)
  have hfits : ∀ count ≤ 4, handler.Fits .default count := by
    intro count hcount
    refine ⟨hover, Or.inr ?_⟩
    rw [hout]
    show (1 + count : Int) ≤ 64
    omega
  obtain ⟨after, current, replied, final, hanswers, hflushed, hconn⟩ := exists_answersResume h.after
    hreader (Or.inr (Or.inl hwriter)) hmaxsize hout
    (resumeFrames_of_bound (by decide) hbound) (hfits _ (by
      rw [List.length_map, length_logAfter]
      exact h.missed 1))
  have hiff := loses_nothing_iff h.run hanswers hflushed (h.receives hsubset)
    (fun id htold ↦ (h.past hsubset id htold).1) hbound
  refine ⟨system, after, handler, current, replied, final, hanswers, hflushed, hconn ▸ hout,
    hiff.mpr ?_⟩
  rintro messageId row ⟨clientMsgId, seq, stored, hack⟩ - hrow
  obtain ⟨first, hfirst, hseq, -⟩ := h.rows
  obtain ⟨-, -, -, hmessage⟩ := ServerFrame.ack.inj (List.mem_singleton.mp hack)
  obtain rfl := Option.some.inj hmessage
  obtain rfl : row = first := Option.some.inj (hrow.symm.trans hfirst)
  refine ⟨?_, by decide, ?_⟩
  · rw [hseq]
    decide
  · obtain ⟨hcurrent, hroom⟩ := hfits _ (h.missed 1)
    exact ⟨hconn ▸ hcurrent, hconn ▸ hroom⟩

end Abacus.Chat
