import Abacus.Core.ChatRepository
import Mathlib.Data.List.Sort
import Mathlib.Logic.Function.Basic

/-!
# The chat repository in memory

`tests/MockChatRepository.py`, on which the handler's tests run: four dictionaries, `_chat_messages`
kept here with the order in which its keys came, as the log is read in that order. A method runs
alone, and `uuid4` is an argument. A method that raises does so before it has changed anything.
-/

set_option autoImplicit false
set_option relaxedAutoImplicit false

namespace Abacus.Memory

/-- `MockChatRepository`. -/
structure MockChatRepository where
  nextSeq : Uuid → Option ℕ
  /-- The keys of `_chat_messages`, in the order in which they were first assigned. -/
  order : List Uuid
  chatMessages : Uuid → Option (Uuid × StoredMessage)
  clientKeys : Uuid → String → Option Uuid
  jobEvents : List (Uuid × JobEvent)

/-- A call of a method, with the identity it may draw. -/
inductive ChatOperation
  | ensureSession (sessionId : Uuid)
  | recordUserMessage (sessionId : Uuid) (clientMsgId text : String) (drawn : Uuid)
  | startAssistantMessage (sessionId drawn : Uuid)
  | completeAssistantMessage (messageId : Uuid) (text : String)
  | failAssistantMessage (messageId : Uuid)
  | logSince (sessionId : Uuid) (afterSeq limit : ℕ)

/-- What a call gives its caller. -/
inductive ChatAnswer
  | unit
  | recorded (message : RecordedUserMessage)
  | opened (message : StoredMessage)
  | log (rows : List SessionRow)
  /-- `LookupError`: no such chat session. -/
  | lookupError (sessionId : Uuid)
  /-- `KeyError`: no such message. -/
  | keyError (messageId : Uuid)
  /-- Any other exception. -/
  | raised
  deriving DecidableEq

namespace MockChatRepository

/-- A repository just built. -/
def new : MockChatRepository where
  nextSeq := fun _ ↦ none
  order := []
  chatMessages := fun _ ↦ none
  clientKeys := fun _ _ ↦ none
  jobEvents := []

/-! ### Internals -/

/-- `_since`: the rows of a session after a number, in the order of their numbers, up to a limit. -/
def since {Row : Type} (seq : Row → ℕ) (rows : List (Uuid × Row)) (sessionId : Uuid)
    (afterSeq limit : ℕ) : List Row :=
  let kept := (rows.filter fun row ↦ row.1 = sessionId ∧ afterSeq < seq row.2).map Prod.snd
  (kept.insertionSort fun first second ↦ seq first ≤ seq second).take limit

/-- `_allocate`; `none` is its `LookupError`. -/
def allocate (repository : MockChatRepository) (sessionId : Uuid) :
    Option (ℕ × MockChatRepository) :=
  (repository.nextSeq sessionId).map fun seq ↦
    (seq, { repository with
      nextSeq := Function.update repository.nextSeq sessionId (some (seq + 1)) })

theorem allocate_of_some {repository : MockChatRepository} {sessionId : Uuid} {seq : ℕ}
    (h : repository.nextSeq sessionId = some seq) : repository.allocate sessionId =
      some (seq, { repository with
        nextSeq := Function.update repository.nextSeq sessionId (some (seq + 1)) }) := by
  rw [allocate, h, Option.map_some]

theorem allocate_of_none {repository : MockChatRepository} {sessionId : Uuid}
    (h : repository.nextSeq sessionId = none) : repository.allocate sessionId = none := by
  rw [allocate, h, Option.map_none]

/-- `self._chat_messages[message_id] = (session_id, message)`: a key that is already there keeps its
place. -/
def put (repository : MockChatRepository) (sessionId : Uuid) (message : StoredMessage) :
    MockChatRepository :=
  { repository with
    order := if (repository.chatMessages message.messageId).isSome then repository.order
      else repository.order ++ [message.messageId]
    chatMessages :=
      Function.update repository.chatMessages message.messageId (some (sessionId, message)) }

/-- `_update`, with the changes as a function. -/
def update (repository : MockChatRepository) (messageId : Uuid)
    (changes : StoredMessage → StoredMessage) : ChatAnswer × MockChatRepository :=
  match repository.chatMessages messageId with
  | some (sessionId, message) =>
    (.unit, { repository with
      chatMessages :=
        Function.update repository.chatMessages messageId (some (sessionId, changes message)) })
  | none => (.keyError messageId, repository)

/-- `_chat_messages.values()`. -/
def values (repository : MockChatRepository) : List (Uuid × StoredMessage) :=
  repository.order.filterMap repository.chatMessages

/-! ### The methods -/

/-- `ensure_session`. -/
def ensureSession (repository : MockChatRepository) (sessionId : Uuid) : MockChatRepository :=
  { repository with
    nextSeq := Function.update repository.nextSeq sessionId
      ((repository.nextSeq sessionId).or (some 1)) }

/-- `record_user_message`. -/
def recordUserMessage (repository : MockChatRepository) (sessionId : Uuid)
    (clientMsgId text : String) (drawn : Uuid) : ChatAnswer × MockChatRepository :=
  match repository.clientKeys sessionId clientMsgId with
  | some known =>
    match repository.chatMessages known with
    | some (_, message) => (.recorded ⟨message, false⟩, repository)
    | none => (.keyError known, repository)
  | none =>
    match repository.allocate sessionId with
    | some (seq, repository) =>
      let message : StoredMessage := ⟨seq, drawn, .user, .complete, text⟩
      let repository := repository.put sessionId message
      (.recorded ⟨message, true⟩, { repository with
        clientKeys := Function.update repository.clientKeys sessionId
          (Function.update (repository.clientKeys sessionId) clientMsgId (some drawn)) })
    | none => (.lookupError sessionId, repository)

/-- `start_assistant_message`. -/
def startAssistantMessage (repository : MockChatRepository) (sessionId drawn : Uuid) :
    ChatAnswer × MockChatRepository :=
  match repository.allocate sessionId with
  | some (seq, repository) =>
    let message : StoredMessage := ⟨seq, drawn, .assistant, .streaming, ""⟩
    (.opened message, repository.put sessionId message)
  | none => (.lookupError sessionId, repository)

/-- `complete_assistant_message`. -/
def completeAssistantMessage (repository : MockChatRepository) (messageId : Uuid) (text : String) :
    ChatAnswer × MockChatRepository :=
  repository.update messageId fun message ↦ { message with status := .complete, text := text }

/-- `fail_assistant_message`. -/
def failAssistantMessage (repository : MockChatRepository) (messageId : Uuid) :
    ChatAnswer × MockChatRepository :=
  repository.update messageId fun message ↦ { message with status := .failed }

/-- `log_since`: `heapq.merge` of the two lists on `seq`, cut to the limit. -/
def logSince (repository : MockChatRepository) (sessionId : Uuid) (afterSeq limit : ℕ) :
    List SessionRow :=
  let messages := since StoredMessage.seq repository.values sessionId afterSeq limit
  let events := since JobEvent.seq repository.jobEvents sessionId afterSeq limit
  ((messages.map SessionRow.message).merge (events.map SessionRow.event)
    fun first second ↦ decide (first.seq ≤ second.seq)).take limit

/-- `record_job_event`; `none` is the `LookupError` of `_allocate`. -/
def recordJobEvent (repository : MockChatRepository) (sessionId jobId : Uuid) (state : JobState) :
    Option (JobEvent × MockChatRepository) :=
  (repository.allocate sessionId).map fun allocated ↦
    let event : JobEvent := ⟨allocated.1, jobId, state⟩
    (event, { allocated.2 with jobEvents := allocated.2.jobEvents ++ [(sessionId, event)] })

/-- A call of the `ChatRepository` protocol. -/
def serve (repository : MockChatRepository) : ChatOperation → ChatAnswer × MockChatRepository
  | .ensureSession sessionId => (.unit, repository.ensureSession sessionId)
  | .recordUserMessage sessionId clientMsgId text drawn =>
    repository.recordUserMessage sessionId clientMsgId text drawn
  | .startAssistantMessage sessionId drawn => repository.startAssistantMessage sessionId drawn
  | .completeAssistantMessage messageId text => repository.completeAssistantMessage messageId text
  | .failAssistantMessage messageId => repository.failAssistantMessage messageId
  | .logSince sessionId afterSeq limit =>
    (.log (repository.logSince sessionId afterSeq limit), repository)

end MockChatRepository

end Abacus.Memory
