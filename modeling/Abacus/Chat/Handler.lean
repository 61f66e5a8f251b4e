import Abacus.Core.Ws
import Abacus.Postgres.Operation

/-!
# The chat protocol driven over one connection

`ConnectionHandler` of `core/chat_handler.py`: `serve` and its tasks, the writer, the reader and
the turns in flight. A task runs without interruption from one `await` to the next, so a task is
the place in the code where it waits with its local variables, and `pending`, the reply that has
come while the loop has not yet run the task again. A cancellation is a reply that takes the place
of any other; a repository call that is cancelled has committed by then or never does.

What a task waits for on the repository is read off its place (`ReaderPlace.call`, `Turn.call`).
The reply comes from outside (`Handler.answer`), and everything else is `Handler.step`: the frames
that come in, the chunks of the responder, the writes, and the moments at which the loop runs a
task, or a done-callback. `record_user_message` is two transactions, and the reader has a place in
each. The chunks of a responder are any, whatever it was asked.
-/

set_option autoImplicit false
set_option relaxedAutoImplicit false

namespace Abacus.Chat

open Postgres (Operation Outcome StoreError)

/-- The settings that the handler and its connection are built with. -/
structure Settings where
  wsSendQueueSize : Int
  wsMaxConcurrentTurns : ℕ
  wsResumeMaxMessages : ℕ

/-- The values of `core/config.py`. -/
def Settings.default : Settings where
  wsSendQueueSize := 64
  wsMaxConcurrentTurns := 4
  wsResumeMaxMessages := 200

/-- What a task finds when it goes on: the result of its repository call, an exception, or its
cancellation. A call that never reached the database raises an error with no name. -/
inductive Reply
  | returned (outcome : Outcome)
  | raised (error : Option StoreError)
  | cancelled

/-- The reply of a repository call that ran. -/
def replyOf : Except StoreError Outcome → Reply
  | .ok outcome => .returned outcome
  | .error error => .raised (some error)

/-! ### The tasks -/

/-- Where `serve` is. `unwinding` is its `finally` with a cancellation to raise after it. -/
inductive ServePlace
  | opening
  | waiting
  | stopping (code : ℕ)
  | unwinding
  | closing (code : ℕ)
  | ended
  deriving DecidableEq

/-- The task of `serve`. -/
structure Serve where
  place : ServePlace
  pending : Option Reply

/-- Where `_read_frames` is, in `_dispatch` and what it awaits. `failed` is an exception of the
socket that is not a disconnect. -/
inductive ReaderPlace
  | absent
  | starting
  | receiving
  | recording (message : UserMessage)
  | recovering (message : UserMessage)
  | opening (message : UserMessage) (recorded : RecordedUserMessage)
  | resuming (lastSeq : ℕ)
  | stopping (failed : Bool)
  | ended (failed : Bool)

/-- The task of `_read_frames`. -/
structure Reader where
  place : ReaderPlace
  pending : Option Reply

/-- The repository call that the reader awaits; `drawn` is what `uuid4` returns. -/
def ReaderPlace.call (settings : Settings) (sessionId drawn : Uuid) :
    ReaderPlace → Option Operation
  | .recording message =>
    some (.recordUserMessage sessionId message.clientMsgId message.text drawn)
  | .recovering message => some (.byClientMsgId sessionId message.clientMsgId)
  | .opening _ _ => some (.startAssistantMessage sessionId drawn)
  | .resuming lastSeq => some (.logSince sessionId lastSeq (settings.wsResumeMaxMessages + 1))
  | _ => none

/-- The reader is over. -/
def ReaderPlace.finished : ReaderPlace → Bool
  | .ended _ => true
  | _ => false

/-- Where `_run_turn` is, with the chunks so far; `index` is their number. In `failing` it awaits
`_mark_failed`, after a cancellation or after an exception. -/
inductive TurnPlace
  | starting
  | responding (chunks : List String)
  | yielding (chunks : List String)
  | completing (chunks : List String)
  | failing (cancelled : Bool)
  | ended
  deriving DecidableEq

/-- The task of `_run_turn`, and the key that its done-callback evicts. `marking` is the shielded
`_mark_failed`, a task of its own that outlives a second cancellation. -/
structure Turn where
  clientMsgId : String
  assistant : StoredMessage
  place : TurnPlace
  pending : Option Reply
  marking : Bool

namespace Turn

/-- The repository call that a turn, or its shielded write, awaits. -/
def call (turn : Turn) : Option Operation :=
  if turn.marking then some (.failAssistantMessage turn.assistant.messageId)
  else
    match turn.place with
    | .completing chunks =>
      some (.completeAssistantMessage turn.assistant.messageId (String.join chunks))
    | .failing false => some (.failAssistantMessage turn.assistant.messageId)
    | _ => none

/-- The turn with the reply to its call. -/
def answer (turn : Turn) (reply : Reply) : Turn :=
  if turn.marking then { turn with marking := false, pending := turn.pending.or (some reply) }
  else { turn with pending := some reply }

/-- `task.cancel()`: nothing when the task is over. -/
def cancel (turn : Turn) : Turn :=
  match turn.place with
  | .ended => turn
  | _ => { turn with pending := some .cancelled }

end Turn

/-- What the responder and the loop give a turn. -/
inductive TurnInput
  /-- The first step of the task. -/
  | begin
  | chunk (text : String)
  /-- `sleep(0)` returns. -/
  | slept
  /-- The responder is exhausted. -/
  | exhausted
  /-- The responder raises. -/
  | raised

/-! ### The handler -/

/-- One accepted connection. `tasks` are the turn tasks of the loop, `turns` is `_turns`. -/
structure Handler where
  conn : Connection
  serve : Serve
  writer : Writer
  reader : Reader
  tasks : ℕ → Option Turn
  turns : List ℕ
  liveReplies : String → Option Uuid

namespace Handler

/-- A handler whose `serve` has run to its first `await`, `ensure_session`. -/
def new (settings : Settings) (sessionId : Uuid) : Handler where
  conn := .new sessionId settings.wsSendQueueSize
  serve := ⟨.opening, none⟩
  writer := .absent
  reader := ⟨.absent, none⟩
  tasks := fun _ ↦ none
  turns := []
  liveReplies := fun _ ↦ none

/-- The handler after a frame was passed to `send`. -/
def send (handler : Handler) (frame : ServerFrame) : Handler :=
  { handler with conn := handler.conn.send frame }

/-- The handler with its reader waiting somewhere. -/
def setReader (handler : Handler) (place : ReaderPlace) : Handler :=
  { handler with reader := ⟨place, none⟩ }

/-- The handler with one turn in another state. -/
def setTurn (handler : Handler) (id : ℕ) (turn : Turn) : Handler :=
  { handler with tasks := Function.update handler.tasks id (some turn) }

/-! ### The reader -/

/-- `_dispatch`, to its first `await` or to its end. -/
def dispatch (settings : Settings) (handler : Handler) : Inbound → Handler
  | .invalid errorCount =>
    handler.send (.error .badFrame (toString errorCount ++ " validation error(s)") false)
  | .valid v frame =>
    if protocolVersion < v then
      handler.send
        (.error .unsupportedVersion ("this server speaks v" ++ toString protocolVersion) false)
    else
      match frame with
      | .ping => handler.send .pong
      | .resume lastSeq => handler.setReader (.resuming lastSeq)
      | .userMessage message =>
        if settings.wsMaxConcurrentTurns ≤ handler.turns.length then
          handler.send
            (.error .tooManyTurns "too many turns in flight on this connection" true)
        else handler.setReader (.recording message)

/-- `_resume` after `log_since`. -/
def replay (settings : Settings) (handler : Handler) (lastSeq : ℕ) (missed : List SessionRow) :
    Handler :=
  if settings.wsResumeMaxMessages < missed.length then
    handler.send
      (.error .resumeTooOld
        ("more than " ++ toString settings.wsResumeMaxMessages ++ " entries since seq " ++
          toString lastSeq) false)
  else { handler with conn := handler.conn.sendAll (missed.map replayed) }

/-- The ack of `_start_turn`. -/
def acknowledge (handler : Handler) (message : UserMessage) (recorded : RecordedUserMessage)
    (replyId : Option Uuid) : Handler :=
  handler.send
    (.ack message.clientMsgId recorded.message.seq recorded.message.messageId replyId)

/-- `_start_turn` after `record_user_message`. -/
def recorded (handler : Handler) (message : UserMessage) (recorded : RecordedUserMessage) :
    Handler :=
  if recorded.created then handler.setReader (.opening message recorded)
  else
    (handler.acknowledge message recorded (handler.liveReplies message.clientMsgId)).setReader
      .receiving

/-- `_start_turn` after `start_assistant_message`: the reply is live, both rows are acked, and the
turn is a task. -/
def startTurn (handler : Handler) (message : UserMessage) (recorded : RecordedUserMessage)
    (assistant : StoredMessage) (id : ℕ) : Handler :=
  let handler :=
    { handler with
      liveReplies :=
        Function.update handler.liveReplies message.clientMsgId (some assistant.messageId) }
  let handler := handler.acknowledge message recorded (some assistant.messageId)
  { handler with
    tasks := Function.update handler.tasks id
      (some ⟨message.clientMsgId, assistant, .starting, none, false⟩)
    turns := handler.turns ++ [id]
    reader := ⟨.receiving, none⟩ }

/-- The `except` of `_dispatch` around `_resume`. -/
def notReplayed (handler : Handler) : Handler :=
  (handler.send (.error .internal "the session could not be replayed" true)).setReader .receiving

/-- The `except` of `_dispatch` around `_start_turn`. -/
def notStored (handler : Handler) : Handler :=
  (handler.send (.error .internal "the message was not stored" true)).setReader .receiving

/-- Cancel every turn in `_turns`. -/
def cancelTurns (handler : Handler) : Handler :=
  { handler with
    tasks := fun id ↦
      if id ∈ handler.turns then (handler.tasks id).map Turn.cancel else handler.tasks id }

/-- The `finally` of `_read_frames`; a gather of no turns returns at once. -/
def stopReader (handler : Handler) (failed : Bool) : Handler :=
  handler.cancelTurns.setReader (if handler.turns = [] then .ended failed else .stopping failed)

/-- The reader goes on with the reply that has come; `fresh` is the turn it may create. -/
def resumeReader (settings : Settings) (handler : Handler) (fresh : ℕ) :
    ReaderPlace → Reply → Option Handler
  | .recording message, .returned (.recorded recorded) => some (handler.recorded message recorded)
  | .recording message, .raised (some (.alreadyRecorded _ _)) =>
    some (handler.setReader (.recovering message))
  | .recording _, .raised _ => some handler.notStored
  | .recovering message, .returned (.recorded recorded) => some (handler.recorded message recorded)
  | .recovering _, .raised _ => some handler.notStored
  | .opening message recorded, .returned (.opened assistant) =>
    match handler.tasks fresh with
    | none => some (handler.startTurn message recorded assistant fresh)
    | some _ => none
  | .opening _ _, .raised _ => some handler.notStored
  | .resuming lastSeq, .returned (.log missed) =>
    some ((handler.replay settings lastSeq missed).setReader .receiving)
  | .resuming _, .raised _ => some handler.notReplayed
  -- A task cancelled before its first step never enters its body, nor its `finally`.
  | .starting, .cancelled => some (handler.setReader (.ended false))
  | .receiving, .cancelled => some (handler.stopReader false)
  | .recording _, .cancelled => some (handler.stopReader false)
  | .recovering _, .cancelled => some (handler.stopReader false)
  | .opening _ _, .cancelled => some (handler.stopReader false)
  | .resuming _, .cancelled => some (handler.stopReader false)
  | _, _ => none

/-- The loop runs the reader. -/
def runReader (settings : Settings) (handler : Handler) (fresh : ℕ) : Option Handler :=
  match handler.reader.pending with
  | some reply => handler.resumeReader settings fresh handler.reader.place reply
  | none =>
    match handler.reader.place with
    | .starting => some (handler.setReader .receiving)
    | .stopping failed =>
      if handler.turns = [] then some (handler.setReader (.ended failed)) else none
    | _ => none

/-- `reader.cancel()`. In the `finally` it cancels the turns again. -/
def cancelReader (handler : Handler) : Handler :=
  match handler.reader.place with
  | .absent => handler
  | .ended _ => handler
  | .stopping _ => handler.cancelTurns
  | place => { handler with reader := ⟨place, some .cancelled⟩ }

/-! ### The turns -/

/-- `_run_turn` with what the responder or the loop gives it. -/
def respond (handler : Handler) (id : ℕ) (turn : Turn) : TurnPlace → TurnInput → Option Handler
  | .starting, .begin => some (handler.setTurn id { turn with place := .responding [] })
  | .responding chunks, .chunk text =>
    some ((handler.send (.delta turn.assistant.messageId chunks.length text)).setTurn id
      { turn with place := .yielding (chunks ++ [text]) })
  | .yielding chunks, .slept =>
    some (handler.setTurn id { turn with place := .responding chunks })
  | .responding chunks, .exhausted =>
    some (handler.setTurn id { turn with place := .completing chunks })
  | .responding _, .raised => some (handler.setTurn id { turn with place := .failing false })
  | _, _ => none

/-- `_run_turn` with the reply that has come. -/
def resumeTurn (handler : Handler) (id : ℕ) (turn : Turn) : TurnPlace → Reply → Option Handler
  | .completing _, .returned _ =>
    some ((handler.send (.done turn.assistant.messageId turn.assistant.seq)).setTurn id
      { turn with place := .ended, pending := none })
  | .completing _, .raised _ =>
    some (handler.setTurn id { turn with place := .failing false, pending := none })
  | .failing false, .cancelled =>
    some (handler.setTurn id { turn with place := .ended, pending := none })
  -- `_mark_failed` returns whether its write succeeded or raised.
  | .failing false, _ =>
    some ((handler.send (.error .internal "the turn failed" true)).setTurn id
      { turn with place := .ended, pending := none })
  | .failing true, _ => some (handler.setTurn id { turn with place := .ended, pending := none })
  | .starting, .cancelled =>
    some (handler.setTurn id { turn with place := .ended, pending := none })
  | .responding _, .cancelled =>
    some (handler.setTurn id
      { turn with place := .failing true, pending := none, marking := true })
  | .yielding _, .cancelled =>
    some (handler.setTurn id
      { turn with place := .failing true, pending := none, marking := true })
  | .completing _, .cancelled =>
    some (handler.setTurn id
      { turn with place := .failing true, pending := none, marking := true })
  | _, _ => none

/-- `_finished`, the done-callback of a turn. -/
def finished (handler : Handler) (id : ℕ) (turn : Turn) : Handler :=
  { handler with
    turns := handler.turns.erase id
    liveReplies := Function.update handler.liveReplies turn.clientMsgId none }

/-! ### `serve` -/

/-- `writer.cancel()`. The writer has no handler to run, so it is over. -/
def cancelWriter (handler : Handler) : Handler :=
  match handler.writer with
  | .absent => handler
  | writer => if writer.finished then handler else { handler with writer := .cancelled }

/-- Cancel the writer and the reader. -/
def cancelBoth (handler : Handler) : Handler :=
  handler.cancelWriter.cancelReader

/-- The close code, from the tasks that are done. `writerLast` is the order in which the loop over
the set `done` meets them. -/
def closeCode (handler : Handler) (writerLast : Bool) : ℕ :=
  let fromReader (code : ℕ) : ℕ :=
    match handler.reader.place with
    | .ended true => wsInternalError
    | _ => code
  let fromWriter (code : ℕ) : ℕ :=
    match handler.writer with
    | .returned code => code
    | .raised => wsInternalError
    | _ => code
  if writerLast then fromWriter (fromReader wsNormal) else fromReader (fromWriter wsNormal)

/-- The handler with `serve` waiting somewhere. -/
def setServe (handler : Handler) (place : ServePlace) : Handler :=
  { handler with serve := ⟨place, none⟩ }

/-- The loop runs `serve`. -/
def runServe (handler : Handler) (writerLast : Bool) : Option Handler :=
  match handler.serve.place, handler.serve.pending with
  | .opening, some (.returned _) =>
    some ({ handler with writer := .starting, reader := ⟨.starting, none⟩ }.setServe .waiting)
  | .opening, some (.raised _) => some (handler.setServe (.closing wsInternalError))
  | .opening, some .cancelled => some (handler.setServe .ended)
  | .waiting, some .cancelled => some (handler.cancelBoth.setServe .unwinding)
  | .waiting, none =>
    if handler.writer.finished || handler.reader.place.finished then
      some (handler.cancelBoth.setServe (.stopping (handler.closeCode writerLast)))
    else none
  | .stopping code, none =>
    if handler.writer.finished && handler.reader.place.finished then
      some (handler.setServe (.closing code))
    else none
  | .unwinding, none =>
    if handler.writer.finished && handler.reader.place.finished then
      some (handler.setServe .ended)
    else none
  | .closing _, _ => some (handler.setServe .ended)
  | _, _ => none

/-- `serve` is cancelled from outside. Its gather passes the cancellation on. -/
def cancelServe (handler : Handler) : Option Handler :=
  match handler.serve.place with
  | .stopping _ => some (handler.cancelBoth.setServe .unwinding)
  | .unwinding => some handler.cancelBoth
  | .ended => none
  | place => some { handler with serve := ⟨place, some .cancelled⟩ }

/-! ### The steps -/

/-- The writer goes on with the loop of `run_writer`. -/
def advanceWriter (handler : Handler) : Handler :=
  { handler with conn := (Writer.next handler.conn).1, writer := (Writer.next handler.conn).2 }

/-- The loop runs the writer: its first step, or an item for the `get` it waits in. -/
def runWriter (handler : Handler) : Option Handler :=
  match handler.writer with
  | .starting => some handler.advanceWriter
  | .getting => if handler.conn.out = [] then none else some handler.advanceWriter
  | _ => none

/-- The write that the writer awaits ends. -/
def write (handler : Handler) (result : WriteResult) : Option Handler :=
  match handler.writer with
  | .writing _ =>
    match result with
    | .accepted => some handler.advanceWriter
    | .peerGone => some { handler with writer := .returned wsNormal }
    | .raised => some { handler with writer := .raised }
  | _ => none

/-- A task of the handler that calls the repository. -/
inductive Task
  | serve
  | reader
  | turn (id : ℕ)
  deriving DecidableEq

/-- The repository call that a task awaits, with no reply yet. -/
def call (settings : Settings) (handler : Handler) (drawn : Uuid) : Task → Option Operation
  | .serve =>
    match handler.serve.place, handler.serve.pending with
    | .opening, none => some (.ensureSession handler.conn.sessionId)
    | _, _ => none
  | .reader =>
    match handler.reader.pending with
    | none => handler.reader.place.call settings handler.conn.sessionId drawn
    | some _ => none
  | .turn id =>
    (handler.tasks id).bind fun turn ↦
      if turn.marking || turn.pending.isNone then turn.call else none

/-- The handler with the reply to the call of a task. -/
def answer (handler : Handler) (reply : Reply) : Task → Handler
  | .serve => { handler with serve := ⟨handler.serve.place, some reply⟩ }
  | .reader => { handler with reader := ⟨handler.reader.place, some reply⟩ }
  | .turn id =>
    { handler with
      tasks := Function.update handler.tasks id ((handler.tasks id).map fun turn ↦
        turn.answer reply) }

/-- What happens to a handler, other than the replies of the repository. -/
inductive Action
  /-- A frame comes in while the reader waits for one. -/
  | receive (inbound : Inbound)
  /-- `receive_text` raises: the peer has gone, or, if `failed`, something else. -/
  | disconnect (failed : Bool)
  | runServe (writerLast : Bool)
  | runWriter
  | runReader (fresh : ℕ)
  | respond (id : ℕ) (input : TurnInput)
  | runTurn (id : ℕ)
  /-- The done-callback of a turn. -/
  | finished (id : ℕ)
  | write (result : WriteResult)
  /-- The registry drains its connections when the server shuts down. -/
  | drain
  /-- `serve` is cancelled from outside. -/
  | cancel

/-- One step of a handler; `none` when it cannot happen. -/
def step (settings : Settings) (handler : Handler) : Action → Option Handler
  | .receive inbound =>
    match handler.reader.place, handler.reader.pending with
    | .receiving, none => some (handler.dispatch settings inbound)
    | _, _ => none
  | .disconnect failed =>
    match handler.reader.place, handler.reader.pending with
    | .receiving, none => some (handler.stopReader failed)
    | _, _ => none
  | .runServe writerLast => handler.runServe writerLast
  | .runWriter => handler.runWriter
  | .runReader fresh => handler.runReader settings fresh
  | .respond id input =>
    match handler.tasks id with
    | some turn => if turn.pending.isNone then handler.respond id turn turn.place input else none
    | none => none
  | .runTurn id =>
    (handler.tasks id).bind fun turn ↦ turn.pending.bind (handler.resumeTurn id turn turn.place)
  | .finished id =>
    match handler.tasks id with
    | some turn =>
      if turn.place = .ended ∧ id ∈ handler.turns then some (handler.finished id turn) else none
    | none => none
  | .write result => handler.write result
  | .drain =>
    some { handler with
      conn := handler.conn.requestClose wsServiceRestart
        (some (.error .goingAway "server is shutting down" true)) }
  | .cancel => handler.cancelServe

end Handler

end Abacus.Chat
