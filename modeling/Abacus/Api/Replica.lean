import Abacus.Api.Handshake
import Abacus.Chat.System
import Abacus.Core.Registry

/-!
# One replica

`chat_socket` of `api/chat.py` over the connections of `Chat.System`, with the registry of the
replica, and the `lifespan` of `api/main.py` that drains it. A socket that asks to connect is
refused before `accept`, turned away at the cap with one error frame, or handed to a handler. The
route's `finally` runs in the step in which `serve` ends (`leave`): it takes the connection out of
the registry and sets its `finished`.

`drain` runs without an `await` until it waits (`drain`), so that it finds the connections of one
moment and asks them all to close; `order` is the order in which it finds them. Then it waits until
all of these have finished or its time is up (`drained`). What `db.dispose()` does after it is not
here.
-/

set_option autoImplicit false
set_option relaxedAutoImplicit false

namespace Abacus.Api

open Chat (Event Handler System)
open Python (CharacterDatabase)

/-- A socket that no handler serves. -/
inductive TurnedAway
  /-- Closed before `accept`. -/
  | refused (reason : String)
  /-- Accepted, and sent a frame while its session is at the cap. -/
  | told (frame : ServerFrame)
  /-- Accepted, told, and closed with a code. -/
  | closed (code : ℕ)
  /-- The frame could not be sent. -/
  | lost

/-- Where `drain` is: not called, waiting for the connections it found until a moment, or returned
with those that did not finish. -/
inductive Drain (Socket : Type)
  | idle
  | waiting (conns : Finset Socket) (deadline : Instant)
  | returned (conns pending : Finset Socket)

/-- The connections of a replica. -/
structure Replica (Socket : Type) where
  system : System Socket
  registry : ConnectionRegistry Socket
  turnedAway : Socket → Option TurnedAway
  finished : Finset Socket
  drain : Drain Socket

/-- A replica that has just started. -/
def Replica.initial (Socket : Type) (settings : Settings) : Replica Socket where
  system := .initial Socket
  registry := .new settings.wsMaxConnectionsPerSession
  turnedAway := fun _ ↦ none
  finished := ∅
  drain := .idle

/-- What happens to a replica. -/
inductive Happening (Socket : Type)
  /-- A socket asks to connect. -/
  | connect (socket : Socket) (handshake : Handshake)
  /-- What a socket that is turned away was told is sent, or cannot be. -/
  | told (socket : Socket) (sent : Bool)
  /-- A step of the connections, the database or the clock. -/
  | serve (event : Event Socket)
  /-- `drain` is called, and finds the connections in this order. -/
  | drain (order : List Socket)
  /-- The wait of `drain` is over. -/
  | drained

/-- The events that the route or the drain makes happen. -/
def ofRoute {Socket : Type} : Event Socket → Bool
  | .accept _ _ => true
  | .act _ .drain => true
  | _ => false

/-- The socket of an event. -/
def socketOf {Socket : Type} : Event Socket → Option Socket
  | .tick _ => none
  | .job _ => none
  | .accept socket _ => some socket
  | .store socket _ _ _ => some socket
  | .fail socket _ => some socket
  | .act socket _ => some socket

namespace Replica

variable {Socket : Type} [DecidableEq Socket]

/-- The connection of a socket once its handshake is accepted: added to the registry and served, or
turned away. -/
def register (settings : Settings) (replica : Replica Socket) (socket : Socket) (sessionId : Uuid) :
    Option (Replica Socket) :=
  let added := replica.registry.add sessionId socket
  if added.1 then
    (replica.system.step settings.toSettings (.accept socket sessionId)).map fun system ↦
      { replica with system := system, registry := added.2 }
  else
    some { replica with
      registry := added.2
      turnedAway := Function.update replica.turnedAway socket
        (some (.told (.error .tooManyConnections "too many connections for this session" true))) }

/-- `chat_socket` up to where it waits. -/
def connect (unicode : CharacterDatabase) (settings : Settings) (replica : Replica Socket)
    (socket : Socket) (handshake : Handshake) : Option (Replica Socket) :=
  if (replica.system.handlers socket).isSome || (replica.turnedAway socket).isSome then none
  else
    match vetHandshake unicode settings handshake with
    | .error reason =>
      some { replica with
        turnedAway := Function.update replica.turnedAway socket (some (.refused reason)) }
    | .ok sessionId => replica.register settings socket sessionId

/-- The `finally` of `chat_socket`, once `serve` has ended. -/
def leave (replica : Replica Socket) (socket : Socket) : Replica Socket :=
  match replica.system.handlers socket with
  | some handler =>
    if handler.serve.place = .ended ∧ socket ∉ replica.finished then
      { replica with
        registry := replica.registry.remove handler.conn.sessionId socket
        finished := insert socket replica.finished }
    else replica
  | none => replica

/-- `request_close` on several connections, one after another. -/
def requestCloses (settings : Settings) (system : System Socket) (order : List Socket) :
    Option (System Socket) :=
  system.steps settings.toSettings (order.map fun socket ↦ .act socket .drain)

/-- `drain` up to where it waits. -/
def startDrain (settings : Settings) (replica : Replica Socket) (order : List Socket) :
    Option (Replica Socket) :=
  if (order : Multiset Socket) = replica.registry.connections then
    (requestCloses settings replica.system order).map fun system ↦
      { replica with
        system := system
        drain :=
          if order = [] then .returned ∅ ∅
          else .waiting order.toFinset (replica.system.now + settings.wsDrainTimeoutSeconds) }
  else none

/-- One step; `none` when it cannot happen. -/
def step (unicode : CharacterDatabase) (settings : Settings) (replica : Replica Socket) :
    Happening Socket → Option (Replica Socket)
  | .connect socket handshake => replica.connect unicode settings socket handshake
  | .told socket sent =>
    match replica.turnedAway socket with
    | some (.told _) =>
      some { replica with
        turnedAway := Function.update replica.turnedAway socket
          (some (if sent then .closed wsTryAgainLater else .lost)) }
    | _ => none
  | .serve event =>
    if ofRoute event then none
    else
      (replica.system.step settings.toSettings event).map fun system ↦
        let replica := { replica with system := system }
        match socketOf event with
        | some socket => replica.leave socket
        | none => replica
  | .drain order =>
    match replica.drain with
    | .idle => replica.startDrain settings order
    | _ => none
  | .drained =>
    match replica.drain with
    | .waiting conns deadline =>
      if conns ⊆ replica.finished ∨ deadline ≤ replica.system.now then
        some { replica with drain := .returned conns (conns \ replica.finished) }
      else none
    | _ => none

/-- Several steps, one after another. -/
def steps (unicode : CharacterDatabase) (settings : Settings) (replica : Replica Socket) :
    List (Happening Socket) → Option (Replica Socket)
  | [] => some replica
  | happening :: happenings =>
    (replica.step unicode settings happening).bind fun replica ↦
      replica.steps unicode settings happenings

/-- A step of a replica. -/
def Steps (unicode : CharacterDatabase) (settings : Settings) (before after : Replica Socket) :
    Prop :=
  ∃ happening, before.step unicode settings happening = some after

/-- A run from one state to another. -/
abbrev Reaches (unicode : CharacterDatabase) (settings : Settings) :
    Replica Socket → Replica Socket → Prop :=
  Relation.ReflTransGen (Steps unicode settings)

/-- A run of a replica from its start. -/
abbrev Run (unicode : CharacterDatabase) (settings : Settings) (replica : Replica Socket) : Prop :=
  Reaches unicode settings (.initial Socket settings) replica

theorem Reaches.of_steps {unicode : CharacterDatabase} {settings : Settings}
    {replica after : Replica Socket} {happenings : List (Happening Socket)}
    (h : replica.steps unicode settings happenings = some after) :
    Reaches unicode settings replica after := by
  induction happenings generalizing replica with
  | nil => rw [← Option.some.inj h]
  | cons happening happenings ih =>
    obtain ⟨middle, hstep, hrest⟩ := Option.bind_eq_some_iff.mp h
    exact (ih hrest).head ⟨happening, hstep⟩

end Replica

end Abacus.Api
