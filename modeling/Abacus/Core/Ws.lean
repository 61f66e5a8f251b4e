import Abacus.Core.Frames

/-!
# One socket with a bounded queue in front of it

`Connection` of `core/ws.py`. `send`, `request_close` and `_enqueue` run without an `await`, so
they are functions on the connection. The writer is the place where `run_writer` waits: for its
first step, for an item, or for the write of a frame it took. `asyncio.Queue` is unbounded when its
`maxsize` is not positive, and a `get` on a queue that is not empty returns at once.

`sent` and `written` are not part of the program: they keep the frames passed to `send` and the
frames handed to the socket. No step reads them.
-/

set_option autoImplicit false
set_option relaxedAutoImplicit false

namespace Abacus

/-- `WS_NORMAL`. -/
def wsNormal : ℕ :=
  1000

/-- `WS_INTERNAL_ERROR`. -/
def wsInternalError : ℕ :=
  1011

/-- `WS_SERVICE_RESTART`. -/
def wsServiceRestart : ℕ :=
  1012

/-- `WS_TRY_AGAIN_LATER`. -/
def wsTryAgainLater : ℕ :=
  1013

/-- What the outbound queue holds: frames, and `_CLOSE`. -/
inductive QueueItem
  | frame (frame : ServerFrame)
  | close
  deriving DecidableEq, Repr

/-- One socket's outbound side. -/
structure Connection where
  sessionId : Uuid
  out : List QueueItem
  maxsize : Int
  overflowed : Bool
  closeCode : ℕ
  /-- The frames passed to `send`. -/
  sent : List ServerFrame
  /-- The frames handed to the socket. -/
  written : List ServerFrame

namespace Connection

/-- The connection `__init__` makes. -/
def new (sessionId : Uuid) (sendQueueSize : Int) : Connection where
  sessionId := sessionId
  out := []
  maxsize := sendQueueSize
  overflowed := false
  closeCode := wsNormal
  sent := []
  written := []

/-- `asyncio.Queue.full`. -/
def full (conn : Connection) : Bool :=
  decide (0 < conn.maxsize) && decide (conn.maxsize ≤ conn.out.length)

/-- `_enqueue`: queue an item, or mark the connection overflowed when it does not fit. -/
def enqueue (conn : Connection) (item : QueueItem) : Connection :=
  if conn.full then { conn with overflowed := true } else { conn with out := conn.out ++ [item] }

/-- `send`: queue a frame, unless the connection has overflowed. -/
def send (conn : Connection) (frame : ServerFrame) : Connection :=
  let conn := { conn with sent := conn.sent ++ [frame] }
  if conn.overflowed then conn else conn.enqueue (.frame frame)

/-- `request_close`: ask the writer to flush and stop. -/
def requestClose (conn : Connection) (code : ℕ) (frame : Option ServerFrame) : Connection :=
  let conn := match frame with
    | some frame => conn.send frame
    | none => conn
  { conn with closeCode := code }.enqueue .close

/-- Several sends, one after another without an `await`. -/
def sendAll (conn : Connection) (frames : List ServerFrame) : Connection :=
  frames.foldl send conn

theorem full_eq_true_iff (conn : Connection) :
    conn.full = true ↔ 0 < conn.maxsize ∧ conn.maxsize ≤ conn.out.length := by
  simp [full]

@[simp] theorem sent_enqueue (conn : Connection) (item : QueueItem) :
    (conn.enqueue item).sent = conn.sent := by
  unfold enqueue
  split_ifs <;> rfl

@[simp] theorem sessionId_enqueue (conn : Connection) (item : QueueItem) :
    (conn.enqueue item).sessionId = conn.sessionId := by
  unfold enqueue
  split_ifs <;> rfl

@[simp] theorem sessionId_send (conn : Connection) (frame : ServerFrame) :
    (conn.send frame).sessionId = conn.sessionId := by
  unfold send
  dsimp only
  split_ifs
  · rfl
  · rw [sessionId_enqueue]

theorem sessionId_sendAll (conn : Connection) (frames : List ServerFrame) :
    (conn.sendAll frames).sessionId = conn.sessionId := by
  induction frames generalizing conn with
  | nil => rfl
  | cons frame frames ih => exact (ih (conn.send frame)).trans (sessionId_send conn frame)

theorem sessionId_requestClose (conn : Connection) (code : ℕ) (frame : Option ServerFrame) :
    (conn.requestClose code frame).sessionId = conn.sessionId := by
  cases frame with
  | none => simp [requestClose]
  | some frame => simp [requestClose]

/-- Every frame passed to `send` is noted. -/
@[simp] theorem sent_send (conn : Connection) (frame : ServerFrame) :
    (conn.send frame).sent = conn.sent ++ [frame] := by
  unfold send
  dsimp only
  split_ifs
  · rfl
  · rw [sent_enqueue]

theorem sent_sendAll (conn : Connection) (frames : List ServerFrame) :
    (conn.sendAll frames).sent = conn.sent ++ frames := by
  induction frames generalizing conn with
  | nil => simp [sendAll]
  | cons frame frames ih =>
    show ((conn.send frame).sendAll frames).sent = _
    rw [ih, sent_send]
    simp

theorem sent_requestClose (conn : Connection) (code : ℕ) (frame : Option ServerFrame) :
    (conn.requestClose code frame).sent = conn.sent ++ frame.toList := by
  cases frame with
  | none => simp [requestClose]
  | some frame => simp [requestClose]

theorem enqueue_of_room {conn : Connection} (hfull : conn.full = false) (item : QueueItem) :
    conn.enqueue item = { conn with out := conn.out ++ [item] } := by
  rw [enqueue, hfull, if_neg Bool.false_ne_true]

theorem enqueue_of_full {conn : Connection} (hfull : conn.full = true) (item : QueueItem) :
    conn.enqueue item = { conn with overflowed := true } := by
  rw [enqueue, hfull, if_pos rfl]

/-- A frame that fits is queued. -/
theorem send_of_room {conn : Connection} (hover : conn.overflowed = false)
    (hroom : conn.maxsize ≤ 0 ∨ (conn.out.length : Int) < conn.maxsize) (frame : ServerFrame) :
    conn.send frame =
      { conn with out := conn.out ++ [.frame frame], sent := conn.sent ++ [frame] } := by
  have hfull : ({ conn with sent := conn.sent ++ [frame] } : Connection).full = false := by
    rw [Bool.eq_false_iff, Ne, full_eq_true_iff]
    rintro ⟨hpositive, hlength⟩
    have hlength' : conn.maxsize ≤ conn.out.length := hlength
    have hpositive' : 0 < conn.maxsize := hpositive
    omega
  show (if conn.overflowed = true then _ else _) = _
  rw [if_neg (by rw [hover]; exact Bool.false_ne_true), enqueue_of_room hfull]

/-- A frame that does not fit is dropped, and with it the connection. -/
theorem send_of_full {conn : Connection} (hover : conn.overflowed = false)
    (hpositive : 0 < conn.maxsize) (hfull : conn.maxsize ≤ conn.out.length) (frame : ServerFrame) :
    conn.send frame = { conn with overflowed := true, sent := conn.sent ++ [frame] } := by
  have hfull' : ({ conn with sent := conn.sent ++ [frame] } : Connection).full = true :=
    (full_eq_true_iff _).mpr ⟨hpositive, hfull⟩
  show (if conn.overflowed = true then _ else _) = _
  rw [if_neg (by rw [hover]; exact Bool.false_ne_true), enqueue_of_full hfull']

/-- After an overflow a frame is only passed to `send`. -/
theorem send_of_overflowed {conn : Connection} (hover : conn.overflowed = true)
    (frame : ServerFrame) : conn.send frame = { conn with sent := conn.sent ++ [frame] } := by
  simp only [send, hover, if_true]

theorem sendAll_cons (conn : Connection) (frame : ServerFrame) (frames : List ServerFrame) :
    conn.sendAll (frame :: frames) = (conn.send frame).sendAll frames :=
  rfl

/-- Frames that fit are queued in order. -/
theorem sendAll_of_room {frames : List ServerFrame} {conn : Connection}
    (hover : conn.overflowed = false)
    (hroom : conn.maxsize ≤ 0 ∨ (conn.out.length + frames.length : Int) ≤ conn.maxsize) :
    conn.sendAll frames =
      { conn with out := conn.out ++ frames.map .frame, sent := conn.sent ++ frames } := by
  induction frames generalizing conn with
  | nil => simp [sendAll]
  | cons frame frames ih =>
    have hone : conn.maxsize ≤ 0 ∨ (conn.out.length : Int) < conn.maxsize := by
      simp only [List.length_cons] at hroom
      omega
    rw [sendAll_cons, send_of_room hover hone, ih]
    · simp
    · exact hover
    · simp only [List.length_cons, List.length_append, List.length_nil] at hroom ⊢
      push_cast at hroom ⊢
      omega

theorem sendAll_of_overflowed {frames : List ServerFrame} {conn : Connection}
    (hover : conn.overflowed = true) : (conn.sendAll frames).overflowed = true := by
  induction frames generalizing conn with
  | nil => exact hover
  | cons frame frames ih =>
    rw [sendAll_cons, send_of_overflowed hover]
    exact ih hover

/-- Of frames that do not all fit, one flips the flag. -/
theorem sendAll_of_full {frames : List ServerFrame} {conn : Connection}
    (hover : conn.overflowed = false) (hpositive : 0 < conn.maxsize)
    (hfull : conn.maxsize < (conn.out.length + frames.length : Int))
    (hlength : (conn.out.length : Int) ≤ conn.maxsize) :
    (conn.sendAll frames).overflowed = true := by
  induction frames generalizing conn with
  | nil =>
    simp only [List.length_nil] at hfull
    omega
  | cons frame frames ih =>
    rw [sendAll_cons]
    by_cases hroom : (conn.out.length : Int) < conn.maxsize
    · rw [send_of_room hover (Or.inr hroom)]
      refine ih hover hpositive ?_ ?_
      · simp only [List.length_cons, List.length_append, List.length_nil] at hfull ⊢
        push_cast at hfull ⊢
        omega
      · simp only [List.length_append, List.length_cons, List.length_nil]
        push_cast
        omega
    · rw [send_of_full hover hpositive (by omega)]
      exact sendAll_of_overflowed rfl

end Connection

/-- Where `run_writer` is: waiting, or over. -/
inductive Writer
  /-- The task has not been created. -/
  | absent
  /-- The task has not run yet. -/
  | starting
  /-- `await self._out.get()` on an empty queue. -/
  | getting
  /-- `await self._ws.send_text(…)`. -/
  | writing (frame : ServerFrame)
  | returned (code : ℕ)
  /-- A write raised something that is not in `_PEER_GONE`. -/
  | raised
  | cancelled
  deriving DecidableEq, Repr

namespace Writer

/-- The task is over. -/
def finished : Writer → Bool
  | .returned _ => true
  | .raised => true
  | .cancelled => true
  | _ => false

/-- The loop of `run_writer` from `get` to the next `await` that suspends it. -/
def next (conn : Connection) : Connection × Writer :=
  match conn.out with
  | [] => (conn, .getting)
  | .close :: rest => ({ conn with out := rest }, .returned conn.closeCode)
  | .frame frame :: rest =>
    if conn.overflowed then ({ conn with out := rest }, .returned wsTryAgainLater)
    else ({ conn with out := rest, written := conn.written ++ [frame] }, .writing frame)

@[simp] theorem sent_next (conn : Connection) : (next conn).1.sent = conn.sent := by
  unfold next
  split
  · rfl
  · rfl
  · split_ifs <;> rfl

@[simp] theorem sessionId_next (conn : Connection) : (next conn).1.sessionId = conn.sessionId := by
  unfold next
  split
  · rfl
  · rfl
  · split_ifs <;> rfl

end Writer

/-- What the socket makes of a write. -/
inductive WriteResult
  | accepted
  /-- One of `_PEER_GONE`. -/
  | peerGone
  | raised
  deriving DecidableEq, Repr

end Abacus
