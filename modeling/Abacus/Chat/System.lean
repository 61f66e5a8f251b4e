import Abacus.Chat.Handler
import Mathlib.Logic.Relation

/-!
# Connections on one database

Any number of accepted sockets, each with its `ConnectionHandler`, on one database that the job
store also writes. A handler goes on as in `Handler`; its repository calls happen here
(`System.step`): a call commits or raises, and the reply of one that ran may be lost. A socket is
served once, as a handler is not reused across reconnects.

`opened` is not part of the program: it keeps, for every reply row that a submission has opened,
the connection and the key it was submitted under. No step reads it.
-/

set_option autoImplicit false
set_option relaxedAutoImplicit false

namespace Abacus.Chat

open Postgres (Database Operation Outcome StoreError perform onChat)

/-- A reply row, and the submission that opened it. -/
structure Opening (Socket : Type) where
  socket : Socket
  sessionId : Uuid
  clientMsgId : String
  messageId : Uuid
  deriving DecidableEq

/-- The database and the connections. -/
structure System (Socket : Type) where
  now : Instant
  database : Database
  handlers : Socket → Option Handler
  opened : List (Opening Socket)

/-- Empty tables and no connection. -/
def System.initial (Socket : Type) : System Socket where
  now := 0
  database := .empty
  handlers := fun _ ↦ none
  opened := []

/-- What happens in the system. -/
inductive Event (Socket : Type)
  /-- Time passes. -/
  | tick (duration : ℕ)
  /-- The job store of some process runs a transaction. -/
  | job (operation : Operation)
  /-- A socket is accepted and handed to a handler. -/
  | accept (socket : Socket) (sessionId : Uuid)
  /-- The repository call that a task awaits commits or raises, and its reply may be lost. -/
  | store (socket : Socket) (task : Handler.Task) (drawn : Uuid) (lost : Bool)
  /-- The repository call that a task awaits raises before it has an effect. -/
  | fail (socket : Socket) (task : Handler.Task)
  | act (socket : Socket) (action : Handler.Action)

/-- The submission whose reply row a task is opening. -/
def Handler.openingFor (handler : Handler) : Handler.Task → Option UserMessage
  | .reader =>
    match handler.reader.place with
    | .opening message _ => some message
    | _ => none
  | _ => none

/-- The reply row that a call opened, if it did. -/
def openings {Socket : Type} (socket : Socket) (sessionId : Uuid) (submission : Option UserMessage)
    (reply : Except StoreError Outcome) : List (Opening Socket) :=
  match submission, reply with
  | some message, .ok (.opened assistant) =>
    [⟨socket, sessionId, message.clientMsgId, assistant.messageId⟩]
  | _, _ => []

namespace System

variable {Socket : Type} [DecidableEq Socket]

/-- The system with one handler in another state. -/
def setHandler (system : System Socket) (socket : Socket) (handler : Handler) : System Socket :=
  { system with handlers := Function.update system.handlers socket (some handler) }

@[simp] theorem setHandler_database (system : System Socket) (socket : Socket)
    (handler : Handler) : (system.setHandler socket handler).database = system.database :=
  rfl

@[simp] theorem setHandler_handlers_self (system : System Socket) (socket : Socket)
    (handler : Handler) : (system.setHandler socket handler).handlers socket = some handler := by
  simp only [setHandler, Function.update_self]

theorem setHandler_handlers_of_ne (system : System Socket) {socket other : Socket}
    (handler : Handler) (h : other ≠ socket) :
    (system.setHandler socket handler).handlers other = system.handlers other := by
  simp only [setHandler, Function.update_of_ne h]

@[simp] theorem setHandler_setHandler (system : System Socket) (socket : Socket)
    (handler other : Handler) :
    (system.setHandler socket handler).setHandler socket other =
      system.setHandler socket other := by
  simp only [setHandler, Function.update_idem]

theorem setHandler_self {system : System Socket} {socket : Socket} {handler : Handler}
    (h : system.handlers socket = some handler) : system.setHandler socket handler = system := by
  simp only [setHandler, ← h, Function.update_eq_self]

/-- The system after a repository call of a task. -/
def commit (system : System Socket) (socket : Socket) (handler : Handler) (task : Handler.Task)
    (operation : Operation) (lost : Bool) : System Socket :=
  let performed := perform system.now operation system.database
  { system with
    database := performed.2
    handlers := Function.update system.handlers socket
      (some (handler.answer (if lost then .raised none else replyOf performed.1) task))
    opened := system.opened ++
      openings socket handler.conn.sessionId (handler.openingFor task) performed.1 }

/-- One step; `none` when it cannot happen. -/
def step (settings : Settings) (system : System Socket) : Event Socket → Option (System Socket)
  | .tick duration => some { system with now := system.now + duration }
  | .job operation =>
    if onChat operation then none
    else some { system with database := (perform system.now operation system.database).2 }
  | .accept socket sessionId =>
    match system.handlers socket with
    | none => some (system.setHandler socket (.new settings sessionId))
    | some _ => none
  | .store socket task drawn lost =>
    (system.handlers socket).bind fun handler ↦
      (handler.call settings drawn task).map fun operation ↦
        system.commit socket handler task operation lost
  | .fail socket task =>
    (system.handlers socket).bind fun handler ↦
      -- What `uuid4` would have drawn does not matter to whether the task awaits a call.
      (handler.call settings ⟨0⟩ task).map fun _ ↦
        system.setHandler socket (handler.answer (.raised none) task)
  | .act socket action =>
    (system.handlers socket).bind fun handler ↦
      (handler.step settings action).map (system.setHandler socket)

/-- Several steps, one after another. -/
def steps (settings : Settings) (system : System Socket) :
    List (Event Socket) → Option (System Socket)
  | [] => some system
  | event :: events =>
    (system.step settings event).bind fun system ↦ system.steps settings events

theorem steps_append (settings : Settings) (system : System Socket)
    (first second : List (Event Socket)) :
    system.steps settings (first ++ second) =
      (system.steps settings first).bind fun middle ↦ middle.steps settings second := by
  induction first generalizing system with
  | nil => rfl
  | cons event first ih =>
    simp only [List.cons_append, steps, Option.bind_assoc]
    congr 1
    funext next
    exact ih next

/-- A step that meets a condition on it and on the state before it. -/
def Allows (settings : Settings) (allowed : System Socket → Event Socket → Prop)
    (before after : System Socket) : Prop :=
  ∃ event, allowed before event ∧ before.step settings event = some after

/-- A run from one state to another, whose steps all meet a condition. -/
abbrev Reaches (settings : Settings) (allowed : System Socket → Event Socket → Prop) :
    System Socket → System Socket → Prop :=
  Relation.ReflTransGen (Allows settings allowed)

/-- A run from no connection and empty tables, under no condition. -/
abbrev Run (settings : Settings) (system : System Socket) : Prop :=
  Reaches settings (fun _ _ ↦ True) (.initial Socket) system

/-- Steps under no condition. -/
theorem Reaches.of_steps {settings : Settings} {system after : System Socket}
    {events : List (Event Socket)} (h : system.steps settings events = some after) :
    Reaches settings (fun _ _ ↦ True) system after := by
  induction events generalizing system with
  | nil =>
    rw [← Option.some.inj h]
  | cons event events ih =>
    obtain ⟨middle, hstep, hrest⟩ := Option.bind_eq_some_iff.mp h
    exact (ih hrest).head ⟨event, trivial, hstep⟩

/-- A run under no condition makes any steps it can. -/
theorem Run.steps {settings : Settings} {system after : System Socket}
    {events : List (Event Socket)} (h : Run settings system)
    (hsteps : system.steps settings events = some after) : Run settings after :=
  h.trans (Reaches.of_steps hsteps)

/-- Several steps that all meet a condition, one after another. -/
def stepsWhile (settings : Settings) (allowed : System Socket → Event Socket → Prop)
    [∀ system event, Decidable (allowed system event)] (system : System Socket) :
    List (Event Socket) → Option (System Socket)
  | [] => some system
  | event :: events =>
    if allowed system event then
      (system.step settings event).bind fun system ↦ system.stepsWhile settings allowed events
    else none

theorem Reaches.of_stepsWhile {settings : Settings}
    {allowed : System Socket → Event Socket → Prop}
    [∀ system event, Decidable (allowed system event)] {system after : System Socket}
    {events : List (Event Socket)} (h : system.stepsWhile settings allowed events = some after) :
    Reaches settings allowed system after := by
  induction events generalizing system with
  | nil =>
    rw [← Option.some.inj h]
  | cons event events ih =>
    simp only [stepsWhile] at h
    split_ifs at h with hallowed
    obtain ⟨middle, hstep, hrest⟩ := Option.bind_eq_some_iff.mp h
    exact (ih hrest).head ⟨event, hallowed, hstep⟩

/-- The invariant rule: what holds at first and is kept by every allowed step. -/
theorem Reaches.invariant {settings : Settings} {allowed : System Socket → Event Socket → Prop}
    {Holds : System Socket → Prop} {system after : System Socket}
    (h : Reaches settings allowed system after) (hfirst : Holds system)
    (hkept : ∀ before event next, Holds before → allowed before event →
      before.step settings event = some next → Holds next) : Holds after := by
  induction h with
  | refl => exact hfirst
  | tail _ hallows ih =>
    obtain ⟨event, hallowed, hstep⟩ := hallows
    exact hkept _ event _ ih hallowed hstep

/-! ### What a step can do -/

/-- Every step is of one of these kinds. -/
inductive Moves (settings : Settings) (system : System Socket) :
    Event Socket → System Socket → Prop
  | tick (duration : ℕ) :
    Moves settings system (.tick duration) { system with now := system.now + duration }
  | job (operation : Operation) (hchat : onChat operation = false) :
    Moves settings system (.job operation)
      { system with database := (perform system.now operation system.database).2 }
  | accept (socket : Socket) (sessionId : Uuid) (hnone : system.handlers socket = none) :
    Moves settings system (.accept socket sessionId)
      (system.setHandler socket (.new settings sessionId))
  | store (socket : Socket) (task : Handler.Task) (drawn : Uuid) (lost : Bool) (handler : Handler)
      (operation : Operation) (hhandler : system.handlers socket = some handler)
      (hcall : handler.call settings drawn task = some operation) :
    Moves settings system (.store socket task drawn lost)
      (system.commit socket handler task operation lost)
  | fail (socket : Socket) (task : Handler.Task) (handler : Handler) (operation : Operation)
      (hhandler : system.handlers socket = some handler)
      (hcall : handler.call settings ⟨0⟩ task = some operation) :
    Moves settings system (.fail socket task)
      (system.setHandler socket (handler.answer (.raised none) task))
  | act (socket : Socket) (action : Handler.Action) (handler after : Handler)
      (hhandler : system.handlers socket = some handler)
      (hstep : handler.step settings action = some after) :
    Moves settings system (.act socket action) (system.setHandler socket after)

theorem step_moves {settings : Settings} {system after : System Socket} {event : Event Socket}
    (h : system.step settings event = some after) : Moves settings system event after := by
  cases event with
  | tick duration =>
    rw [← Option.some.inj h]
    exact .tick duration
  | job operation =>
    simp only [step] at h
    split_ifs at h with hchat
    rw [← Option.some.inj h]
    exact .job operation (by simpa using hchat)
  | accept socket sessionId =>
    simp only [step] at h
    split at h
    · next hnone =>
      rw [← Option.some.inj h]
      exact .accept socket sessionId hnone
    · exact absurd h (by simp)
  | store socket task drawn lost =>
    obtain ⟨handler, hhandler, h⟩ := Option.bind_eq_some_iff.mp h
    obtain ⟨operation, hcall, rfl⟩ := Option.map_eq_some_iff.mp h
    exact .store socket task drawn lost handler operation hhandler hcall
  | fail socket task =>
    obtain ⟨handler, hhandler, h⟩ := Option.bind_eq_some_iff.mp h
    obtain ⟨operation, hcall, rfl⟩ := Option.map_eq_some_iff.mp h
    exact .fail socket task handler operation hhandler hcall
  | act socket action =>
    obtain ⟨handler, hhandler, h⟩ := Option.bind_eq_some_iff.mp h
    obtain ⟨next, hstep, rfl⟩ := Option.map_eq_some_iff.mp h
    exact .act socket action handler next hhandler hstep

/-- What a step of the system does to one connection: it is accepted, a task gets the reply to its
call, or its handler goes on. -/
inductive Goes (settings : Settings) (before : Option Handler) (next : Handler) : Prop
  | kept (hsame : before = some next)
  | accepted (sessionId : Uuid) (hnone : before = none) (hnew : next = .new settings sessionId)
  | answered (handler : Handler) (reply : Reply) (task : Handler.Task)
    (hhandler : before = some handler) (hnext : next = handler.answer reply task)
  | stepped (handler : Handler) (action : Handler.Action) (hhandler : before = some handler)
    (hnext : handler.step settings action = some next)

theorem step_goes {settings : Settings} {system after : System Socket} {event : Event Socket}
    {socket : Socket} {next : Handler}
    (hstep : system.step settings event = some after) (hnext : after.handlers socket = some next) :
    Goes settings (system.handlers socket) next := by
  have hset : ∀ {acted : Socket} {moved : Handler},
      Function.update system.handlers acted (some moved) socket = some next →
        Goes settings (system.handlers acted) moved →
          Goes settings (system.handlers socket) next := by
    intro acted moved hupdate hgoes
    by_cases hsocket : socket = acted
    · rw [hsocket, Function.update_self] at hupdate
      rw [hsocket, ← Option.some.inj hupdate]
      exact hgoes
    · rw [Function.update_of_ne hsocket] at hupdate
      exact .kept hupdate
  cases step_moves hstep with
  | tick duration => exact .kept hnext
  | job operation hchat => exact .kept hnext
  | accept acted sessionId hnone => exact hset hnext (.accepted sessionId hnone rfl)
  | store acted task drawn lost handler operation hhandler hcall =>
    exact hset hnext (.answered handler _ task hhandler rfl)
  | fail acted task handler operation hhandler hcall =>
    exact hset hnext (.answered handler _ task hhandler rfl)
  | act acted action handler moved hhandler hmoved =>
    exact hset hnext (.stepped handler action hhandler hmoved)

/-- No connection is taken away. -/
theorem handler_stays {settings : Settings} {system after : System Socket} {event : Event Socket}
    {socket : Socket} {handler : Handler}
    (hstep : system.step settings event = some after)
    (hhandler : system.handlers socket = some handler) :
    ∃ next, after.handlers socket = some next := by
  have hset : ∀ (acted : Socket) (moved : Handler),
      ∃ next, Function.update system.handlers acted (some moved) socket = some next := by
    intro acted moved
    by_cases hsocket : socket = acted
    · exact ⟨moved, by rw [hsocket, Function.update_self]⟩
    · exact ⟨handler, by rw [Function.update_of_ne hsocket, hhandler]⟩
  cases step_moves hstep with
  | tick duration => exact ⟨handler, hhandler⟩
  | job operation hchat => exact ⟨handler, hhandler⟩
  | accept acted sessionId hnone => exact hset _ _
  | store acted task drawn lost acting operation hacting hcall => exact hset _ _
  | fail acted task acting operation hacting hcall => exact hset _ _
  | act acted action acting moved hacting hmoved => exact hset _ _

theorem Reaches.handler_stays {settings : Settings} {system after : System Socket}
    {allowed : System Socket → Event Socket → Prop} (h : Reaches settings allowed system after)
    {socket : Socket} {handler : Handler} (hhandler : system.handlers socket = some handler) :
    ∃ next, after.handlers socket = some next := by
  induction h with
  | refl => exact ⟨handler, hhandler⟩
  | tail _ hallows ih =>
    obtain ⟨event, -, hstep⟩ := hallows
    obtain ⟨old, hold⟩ := ih
    exact System.handler_stays hstep hold

end System

end Abacus.Chat
