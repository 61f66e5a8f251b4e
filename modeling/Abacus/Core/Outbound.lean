import Abacus.Core.Ws

/-!
# What a client sees of a connection

A `Connection` of `core/ws.py` with its writer, under any order of `send`, `request_close` and the
steps of `run_writer`. `Connection.Ordered` ties the socket to the queue: what was written, followed
by the frames that wait, is the beginning of what was passed to `send`, and all of it while nothing
overflowed. `Outbound.Heard` ties the flag to the queue: a writer that has not heard of an overflow
still finds something to wake up for. `Outbound.Stopping` is what an overflow or a
`request_close` leaves behind, and `Outbound.remaining` counts the steps that the writer takes from
there.

`Outbound.written_prefix_and_stops` is the result: the client sees a prefix of what was sent,
nothing more once the queue has overflowed, and the writer stops as soon as each write it is in
returns.
-/

set_option autoImplicit false
set_option relaxedAutoImplicit false

namespace Abacus

/-! ### The queue and the socket -/

/-- The frame of a queue item; `_CLOSE` has none. -/
def QueueItem.toFrame : QueueItem → Option ServerFrame
  | .frame sent => some sent
  | .close => none

namespace Connection

/-- The frames that wait in the queue. -/
def queued (conn : Connection) : List ServerFrame :=
  conn.out.filterMap QueueItem.toFrame

/-- What was written and what waits is the beginning of what was sent; all of it, if nothing
overflowed. -/
structure Ordered (conn : Connection) : Prop where
  isPrefix : conn.written ++ conn.queued <+: conn.sent
  whole : conn.overflowed = false → conn.written ++ conn.queued = conn.sent

theorem Ordered.written_prefix {conn : Connection} (hordered : conn.Ordered) :
    conn.written <+: conn.sent :=
  (List.prefix_append _ _).trans hordered.isPrefix

theorem ordered_new (sessionId : Uuid) (sendQueueSize : Int) :
    (new sessionId sendQueueSize).Ordered := by
  constructor
  · exact List.nil_prefix
  · intro _
    rfl

/-- A frame keeps the order, whether it is queued or dropped. -/
theorem Ordered.send {conn : Connection} (hordered : conn.Ordered) (frame : ServerFrame) :
    (conn.send frame).Ordered := by
  cases hover : conn.overflowed with
  | true =>
    rw [send_of_overflowed hover]
    constructor
    · exact hordered.isPrefix.trans (List.prefix_append _ _)
    · intro hfalse
      exact Bool.noConfusion (hover.symm.trans hfalse)
  | false =>
    by_cases hfull : 0 < conn.maxsize ∧ conn.maxsize ≤ conn.out.length
    · rw [send_of_full hover hfull.1 hfull.2]
      constructor
      · exact hordered.isPrefix.trans (List.prefix_append _ _)
      · intro hfalse
        exact Bool.noConfusion hfalse
    · rw [send_of_room hover (by omega)]
      have heq : conn.written ++ (conn.queued ++ [frame]) = conn.sent ++ [frame] := by
        rw [← List.append_assoc, hordered.whole hover]
      have hqueued : (conn.out ++ [QueueItem.frame frame]).filterMap QueueItem.toFrame =
          conn.queued ++ [frame] := by
        simp [queued, QueueItem.toFrame]
      constructor
      · show conn.written ++ (conn.out ++ [QueueItem.frame frame]).filterMap _ <+: _
        rw [hqueued, heq]
      · intro _
        show conn.written ++ (conn.out ++ [QueueItem.frame frame]).filterMap _ = _
        rw [hqueued, heq]

/-- The sentinel is no frame. -/
theorem Ordered.enqueue_close {conn : Connection} (hordered : conn.Ordered) :
    (conn.enqueue .close).Ordered := by
  cases hfull : conn.full with
  | true =>
    rw [enqueue_of_full hfull]
    constructor
    · exact hordered.isPrefix
    · intro hfalse
      exact Bool.noConfusion hfalse
  | false =>
    rw [enqueue_of_room hfull]
    have hqueued : (conn.out ++ [QueueItem.close]).filterMap QueueItem.toFrame = conn.queued := by
      simp [queued, QueueItem.toFrame]
    constructor
    · show conn.written ++ (conn.out ++ [QueueItem.close]).filterMap _ <+: _
      rw [hqueued]
      exact hordered.isPrefix
    · intro hover
      show conn.written ++ (conn.out ++ [QueueItem.close]).filterMap _ = _
      rw [hqueued]
      exact hordered.whole hover

theorem Ordered.requestClose {conn : Connection} (hordered : conn.Ordered) (code : ℕ)
    (frame : Option ServerFrame) : (conn.requestClose code frame).Ordered := by
  cases frame with
  | none =>
    have hcode : ({ conn with closeCode := code } : Connection).Ordered :=
      ⟨hordered.isPrefix, hordered.whole⟩
    exact hcode.enqueue_close
  | some frame =>
    have hsent := hordered.send frame
    have hcode : ({ conn.send frame with closeCode := code } : Connection).Ordered :=
      ⟨hsent.isPrefix, hsent.whole⟩
    exact hcode.enqueue_close

/-! ### The flag, the bound and what is written -/

theorem maxsize_enqueue (conn : Connection) (item : QueueItem) :
    (conn.enqueue item).maxsize = conn.maxsize := by
  unfold enqueue
  split_ifs <;> rfl

theorem maxsize_send (conn : Connection) (frame : ServerFrame) :
    (conn.send frame).maxsize = conn.maxsize := by
  unfold send
  dsimp only
  split_ifs
  · rfl
  · rw [maxsize_enqueue]

theorem maxsize_requestClose (conn : Connection) (code : ℕ) (frame : Option ServerFrame) :
    (conn.requestClose code frame).maxsize = conn.maxsize := by
  cases frame with
  | none => exact maxsize_enqueue _ _
  | some frame => exact (maxsize_enqueue _ _).trans (maxsize_send conn frame)

theorem written_enqueue (conn : Connection) (item : QueueItem) :
    (conn.enqueue item).written = conn.written := by
  unfold enqueue
  split_ifs <;> rfl

theorem written_send (conn : Connection) (frame : ServerFrame) :
    (conn.send frame).written = conn.written := by
  unfold send
  dsimp only
  split_ifs
  · rfl
  · rw [written_enqueue]

theorem written_sendAll (conn : Connection) (frames : List ServerFrame) :
    (conn.sendAll frames).written = conn.written := by
  induction frames generalizing conn with
  | nil => rfl
  | cons frame frames ih => exact (ih (conn.send frame)).trans (written_send conn frame)

theorem written_requestClose (conn : Connection) (code : ℕ) (frame : Option ServerFrame) :
    (conn.requestClose code frame).written = conn.written := by
  cases frame with
  | none => exact written_enqueue _ _
  | some frame => exact (written_enqueue _ _).trans (written_send conn frame)

theorem overflowed_enqueue (conn : Connection) (hover : conn.overflowed = true)
    (item : QueueItem) : (conn.enqueue item).overflowed = true := by
  unfold enqueue
  split_ifs
  · rfl
  · exact hover

theorem overflowed_send {conn : Connection} (hover : conn.overflowed = true)
    (frame : ServerFrame) : (conn.send frame).overflowed = true := by
  rw [send_of_overflowed hover]
  exact hover

theorem overflowed_requestClose {conn : Connection} (hover : conn.overflowed = true) (code : ℕ)
    (frame : Option ServerFrame) : (conn.requestClose code frame).overflowed = true := by
  cases frame with
  | none => exact overflowed_enqueue { conn with closeCode := code } hover _
  | some frame =>
    exact overflowed_enqueue { conn.send frame with closeCode := code }
      (overflowed_send hover frame) _

/-- Callers only add to the queue. -/
theorem out_prefix_enqueue (conn : Connection) (item : QueueItem) :
    conn.out <+: (conn.enqueue item).out := by
  unfold enqueue
  split_ifs
  · exact List.prefix_refl _
  · exact List.prefix_append _ _

theorem out_prefix_send (conn : Connection) (frame : ServerFrame) :
    conn.out <+: (conn.send frame).out := by
  unfold send
  dsimp only
  split_ifs
  · exact List.prefix_refl _
  · exact out_prefix_enqueue { conn with sent := conn.sent ++ [frame] } _

theorem out_prefix_requestClose (conn : Connection) (code : ℕ) (frame : Option ServerFrame) :
    conn.out <+: (conn.requestClose code frame).out := by
  cases frame with
  | none => exact out_prefix_enqueue { conn with closeCode := code } _
  | some frame =>
    exact (out_prefix_send conn frame).trans
      (out_prefix_enqueue { conn.send frame with closeCode := code } _)

/-- The flag goes up only when the queue is full, and then it is not empty. -/
def Loud (conn : Connection) : Prop :=
  conn.overflowed = true → conn.out ≠ []

/-- A queue that something was put into, or was full for, is not empty. -/
theorem out_enqueue_ne_nil (conn : Connection) (hsize : 0 < conn.maxsize) (item : QueueItem) :
    (conn.enqueue item).out ≠ [] := by
  cases hfull : conn.full with
  | true =>
    obtain ⟨-, hlength⟩ := (full_eq_true_iff conn).mp hfull
    rw [enqueue_of_full hfull]
    show conn.out ≠ []
    rw [← List.length_pos_iff]
    omega
  | false =>
    rw [enqueue_of_room hfull]
    simp

theorem Loud.send {conn : Connection} (hloud : conn.Loud) (hsize : 0 < conn.maxsize)
    (frame : ServerFrame) : (conn.send frame).Loud := by
  intro _
  cases hover : conn.overflowed with
  | true =>
    rw [send_of_overflowed hover]
    exact hloud hover
  | false =>
    have henqueue : conn.send frame =
        ({ conn with sent := conn.sent ++ [frame] } : Connection).enqueue (.frame frame) := by
      simp only [Connection.send, hover, Bool.false_eq_true, if_false]
    rw [henqueue]
    exact out_enqueue_ne_nil { conn with sent := conn.sent ++ [frame] } hsize _

/-- After `request_close` the sentinel waits, or the flag is up with something in the queue. -/
theorem close_mem_or_overflowed {conn : Connection} (hsize : 0 < conn.maxsize) :
    .close ∈ (conn.enqueue .close).out ∨
      (conn.enqueue .close).overflowed = true ∧ (conn.enqueue .close).out ≠ [] := by
  cases hfull : conn.full with
  | true =>
    refine Or.inr ⟨?_, out_enqueue_ne_nil conn hsize _⟩
    rw [enqueue_of_full hfull]
  | false =>
    rw [enqueue_of_room hfull]
    exact Or.inl (List.mem_append_right _ (List.mem_singleton_self _))

/-- The connection whose queue `request_close` puts its sentinel into. -/
theorem exists_enqueue_eq_requestClose (conn : Connection) (code : ℕ)
    (frame : Option ServerFrame) :
    ∃ marked : Connection, marked.maxsize = conn.maxsize ∧
      conn.requestClose code frame = marked.enqueue .close := by
  cases frame with
  | none => exact ⟨{ conn with closeCode := code }, rfl, rfl⟩
  | some frame => exact ⟨{ conn.send frame with closeCode := code }, maxsize_send conn frame, rfl⟩

end Connection

/-! ### The writer -/

/-- The writer is at work: it is waiting for its first step, for an item or for a write. -/
def Writer.Alive (writer : Writer) : Prop :=
  writer = .starting ∨ writer = .getting ∨ ∃ frame, writer = .writing frame

/-- What the writer does with what it takes: it waits on an empty queue, returns, or writes the next
frame. -/
theorem Writer.next_cases (conn : Connection) :
    (conn.out = [] ∧ Writer.next conn = (conn, .getting)) ∨
      (∃ item rest code, conn.out = item :: rest ∧ (item = .close ∨ conn.overflowed = true) ∧
        Writer.next conn = ({ conn with out := rest }, .returned code)) ∨
      ∃ frame rest, conn.out = .frame frame :: rest ∧ conn.overflowed = false ∧
        Writer.next conn =
          ({ conn with out := rest, written := conn.written ++ [frame] }, .writing frame) := by
  unfold Writer.next
  split
  case h_1 hout => exact Or.inl ⟨hout, rfl⟩
  case h_2 rest hout => exact Or.inr (Or.inl ⟨_, _, _, hout, Or.inl rfl, rfl⟩)
  case h_3 frame rest hout =>
    split_ifs with hover
    · exact Or.inr (Or.inl ⟨_, _, _, hout, Or.inr hover, rfl⟩)
    · exact Or.inr (Or.inr ⟨_, _, hout, by simpa using hover, rfl⟩)

/-- A connection and its writer. -/
structure Outbound where
  conn : Connection
  writer : Writer

namespace Outbound

/-- A new connection whose writer has not run yet. -/
def new (sessionId : Uuid) (sendQueueSize : Int) : Outbound where
  conn := .new sessionId sendQueueSize
  writer := .starting

/-- What happens to a connection: calls of its users, and the steps of the writer. -/
inductive Event
  | send (frame : ServerFrame)
  | requestClose (code : ℕ) (frame : Option ServerFrame)
  /-- The loop runs the writer: its first step, or an item for the `get` it waits in. -/
  | run
  /-- The write that the writer awaits ends. -/
  | write (result : WriteResult)
  /-- The task of the writer is cancelled. -/
  | cancel
  deriving DecidableEq

/-- The frames that an event passes to `send`. -/
def Event.passed : Event → List ServerFrame
  | .send frame => [frame]
  | .requestClose _ frame => frame.toList
  | _ => []

/-- The event is a step of the writer. -/
def Event.ofWriter : Event → Bool
  | .run => true
  | .write _ => true
  | _ => false

/-- The writer goes on with the loop of `run_writer`. -/
def advance (side : Outbound) : Outbound where
  conn := (Writer.next side.conn).1
  writer := (Writer.next side.conn).2

/-- One event; `none` when it cannot happen. -/
def step (side : Outbound) : Event → Option Outbound
  | .send frame => some { side with conn := side.conn.send frame }
  | .requestClose code frame => some { side with conn := side.conn.requestClose code frame }
  | .run =>
    match side.writer with
    | .starting => some side.advance
    | .getting => if side.conn.out = [] then none else some side.advance
    | _ => none
  | .write result =>
    match side.writer with
    | .writing _ =>
      match result with
      | .accepted => some side.advance
      | .peerGone => some { side with writer := .returned wsNormal }
      | .raised => some { side with writer := .raised }
    | _ => none
  | .cancel => if side.writer.finished then none else some { side with writer := .cancelled }

/-- Several events, one after another. -/
def steps (side : Outbound) : List Event → Option Outbound
  | [] => some side
  | event :: events => (side.step event).bind fun side' ↦ side'.steps events

/-! ### What one event does -/

variable {side side' : Outbound}

/-- A call of a user leaves the writer where it is; every other event finds the writer unfinished,
and moves it on or ends it. -/
theorem step_cases {event : Event} (hstep : side.step event = some side') :
    (∃ frame, event = .send frame ∧ side' = { side with conn := side.conn.send frame }) ∨
      (∃ code frame, event = .requestClose code frame ∧
        side' = { side with conn := side.conn.requestClose code frame }) ∨
      event.passed = [] ∧ side.writer.finished = false ∧
        (side' = side.advance ∨
          ∃ writer : Writer, writer.finished = true ∧ side' = { side with writer := writer }) := by
  cases event with
  | send frame => exact Or.inl ⟨frame, rfl, (Option.some.inj hstep).symm⟩
  | requestClose code frame =>
    exact Or.inr (Or.inl ⟨code, frame, rfl, (Option.some.inj hstep).symm⟩)
  | run =>
    refine Or.inr (Or.inr ⟨rfl, ?_⟩)
    dsimp only [step] at hstep
    split at hstep
    case h_1 hwriter =>
      exact ⟨by rw [hwriter]; rfl, Or.inl (Option.some.inj hstep).symm⟩
    case h_2 hwriter =>
      split_ifs at hstep
      exact ⟨by rw [hwriter]; rfl, Or.inl (Option.some.inj hstep).symm⟩
    case h_3 => exact nomatch hstep
  | write result =>
    refine Or.inr (Or.inr ⟨rfl, ?_⟩)
    dsimp only [step] at hstep
    split at hstep
    case h_1 frame hwriter =>
      refine ⟨by rw [hwriter]; rfl, ?_⟩
      cases result with
      | accepted => exact Or.inl (Option.some.inj hstep).symm
      | peerGone => exact Or.inr ⟨.returned wsNormal, rfl, (Option.some.inj hstep).symm⟩
      | raised => exact Or.inr ⟨.raised, rfl, (Option.some.inj hstep).symm⟩
    case h_2 => exact nomatch hstep
  | cancel =>
    refine Or.inr (Or.inr ⟨rfl, ?_⟩)
    dsimp only [step] at hstep
    split_ifs at hstep with hfinished
    exact ⟨by simpa using hfinished, Or.inr ⟨.cancelled, rfl, (Option.some.inj hstep).symm⟩⟩

/-- The connection of a writer that goes on: nothing is sent, and the bound stays. -/
theorem sent_advance (side : Outbound) : side.advance.conn.sent = side.conn.sent :=
  Writer.sent_next side.conn

theorem maxsize_advance (side : Outbound) : side.advance.conn.maxsize = side.conn.maxsize := by
  unfold advance
  obtain ⟨-, hnext⟩ | ⟨_, _, _, -, -, hnext⟩ | ⟨_, _, -, -, hnext⟩ := Writer.next_cases side.conn
  all_goals rw [hnext]

/-- `sent` is what the events passed to `send`. -/
theorem sent_step {event : Event} (hstep : side.step event = some side') :
    side'.conn.sent = side.conn.sent ++ event.passed := by
  rcases step_cases hstep with
    ⟨frame, rfl, rfl⟩ | ⟨code, frame, rfl, rfl⟩ | ⟨hpassed, -, rfl | ⟨writer, -, rfl⟩⟩
  · exact Connection.sent_send _ _
  · exact Connection.sent_requestClose _ _ _
  · rw [hpassed, List.append_nil, sent_advance]
  · rw [hpassed, List.append_nil]

theorem maxsize_step {event : Event} (hstep : side.step event = some side') :
    side'.conn.maxsize = side.conn.maxsize := by
  rcases step_cases hstep with
    ⟨frame, rfl, rfl⟩ | ⟨code, frame, rfl, rfl⟩ | ⟨-, -, rfl | ⟨writer, -, rfl⟩⟩
  · exact Connection.maxsize_send _ _
  · exact Connection.maxsize_requestClose _ _ _
  · exact maxsize_advance side
  · rfl

/-! ### Order -/

/-- What holds at every moment of a connection whose bound is positive. -/
structure Heard (side : Outbound) : Prop where
  created : side.writer ≠ .absent
  written : side.conn.written <+: side.conn.sent
  ordered : side.writer.finished = false → side.conn.Ordered
  loud : side.writer.finished = false → side.conn.Loud

theorem heard_new (sessionId : Uuid) (sendQueueSize : Int) :
    (new sessionId sendQueueSize).Heard where
  created := Writer.noConfusion
  written := List.nil_prefix
  ordered := fun _ ↦ Connection.ordered_new sessionId sendQueueSize
  loud := fun _ hover ↦ Bool.noConfusion hover

/-- A writer that takes a frame writes the first of those that wait. -/
theorem heard_advance (hordered : side.conn.Ordered) (hloud : side.conn.Loud) :
    side.advance.Heard := by
  unfold advance
  obtain ⟨-, hnext⟩ | ⟨item, rest, code, -, -, hnext⟩ | ⟨frame, rest, hout, hover, hnext⟩ :=
    Writer.next_cases side.conn
  · rw [hnext]
    exact ⟨Writer.noConfusion, hordered.written_prefix, fun _ ↦ hordered, fun _ ↦ hloud⟩
  · rw [hnext]
    exact ⟨Writer.noConfusion, hordered.written_prefix, Bool.noConfusion, Bool.noConfusion⟩
  · rw [hnext]
    have hqueued : side.conn.queued = frame :: rest.filterMap QueueItem.toFrame := by
      rw [Connection.queued, hout]
      rfl
    have hmoved : (side.conn.written ++ [frame]) ++ rest.filterMap QueueItem.toFrame =
        side.conn.written ++ side.conn.queued := by
      rw [hqueued, List.append_assoc]
      rfl
    have hafter : ({ side.conn with
        out := rest, written := side.conn.written ++ [frame] } : Connection).Ordered := by
      constructor
      · show (side.conn.written ++ [frame]) ++ rest.filterMap QueueItem.toFrame <+: _
        rw [hmoved]
        exact hordered.isPrefix
      · intro _
        show (side.conn.written ++ [frame]) ++ rest.filterMap QueueItem.toFrame = _
        rw [hmoved]
        exact hordered.whole hover
    refine ⟨Writer.noConfusion, hafter.written_prefix, fun _ ↦ hafter, fun _ hafterOver ↦ ?_⟩
    exact Bool.noConfusion (hover.symm.trans hafterOver)

theorem Heard.step {event : Event} (hheard : side.Heard) (hsize : 0 < side.conn.maxsize)
    (hstep : side.step event = some side') : side'.Heard := by
  rcases step_cases hstep with
    ⟨frame, rfl, rfl⟩ | ⟨code, frame, rfl, rfl⟩ | ⟨-, hrunning, rfl | ⟨writer, hfinished, rfl⟩⟩
  · refine ⟨hheard.created, ?_, fun hrunning ↦ (hheard.ordered hrunning).send frame,
      fun hrunning ↦ (hheard.loud hrunning).send hsize frame⟩
    show (side.conn.send frame).written <+: (side.conn.send frame).sent
    rw [Connection.written_send, Connection.sent_send]
    exact hheard.written.trans (List.prefix_append _ _)
  · refine ⟨hheard.created, ?_, fun hrunning ↦ (hheard.ordered hrunning).requestClose code frame,
      fun _ _ ↦ ?_⟩
    · show (side.conn.requestClose code frame).written <+: (side.conn.requestClose code frame).sent
      rw [Connection.written_requestClose, Connection.sent_requestClose]
      exact hheard.written.trans (List.prefix_append _ _)
    · obtain ⟨marked, hmarked, heq⟩ := side.conn.exists_enqueue_eq_requestClose code frame
      show (side.conn.requestClose code frame).out ≠ []
      rw [heq]
      exact marked.out_enqueue_ne_nil (by omega) _
  · exact heard_advance (hheard.ordered hrunning) (hheard.loud hrunning)
  · refine ⟨?_, hheard.written, fun hrunning' ↦ ?_, fun hrunning' ↦ ?_⟩
    · rintro rfl
      exact Bool.noConfusion hfinished
    · exact Bool.noConfusion (hfinished.symm.trans hrunning')
    · exact Bool.noConfusion (hfinished.symm.trans hrunning')

/-- Once the flag is up, no frame is written. -/
theorem written_step_of_overflowed {event : Event} (hover : side.conn.overflowed = true)
    (hstep : side.step event = some side') :
    side'.conn.overflowed = true ∧ side'.conn.written = side.conn.written := by
  rcases step_cases hstep with
    ⟨frame, rfl, rfl⟩ | ⟨code, frame, rfl, rfl⟩ | ⟨-, -, rfl | ⟨writer, -, rfl⟩⟩
  · exact ⟨Connection.overflowed_send hover frame, Connection.written_send _ _⟩
  · exact ⟨Connection.overflowed_requestClose hover code frame,
      Connection.written_requestClose _ _ _⟩
  · unfold advance
    obtain ⟨-, hnext⟩ | ⟨_, _, _, -, -, hnext⟩ | ⟨_, _, -, hquiet, -⟩ :=
      Writer.next_cases side.conn
    · rw [hnext]
      exact ⟨hover, rfl⟩
    · rw [hnext]
      exact ⟨hover, rfl⟩
    · exact Bool.noConfusion (hover.symm.trans hquiet)
  · exact ⟨hover, rfl⟩

/-! ### Stopping -/

/-- The writer is over, or finds a reason to stop in what it takes next or in its queue. -/
def Stopping (side : Outbound) : Prop :=
  side.writer.finished = true ∨ (side.conn.overflowed = true ∧ side.conn.out ≠ []) ∨
    .close ∈ side.conn.out

/-- How many steps a writer that stops still takes: one when it finds the flag up, else one for each
frame before the sentinel and one for the sentinel. -/
def remaining (side : Outbound) : ℕ :=
  if side.writer.finished then 0
  else if side.conn.overflowed then 1
  else side.conn.out.idxOf .close + 1

/-- The writer can go on: the loop runs it, or it is in a write that any result ends. -/
def Progresses (side : Outbound) : Prop :=
  (side.step .run).isSome = true ∨ ∀ result, (side.step (.write result)).isSome = true

theorem Stopping.remaining_le (hstopping : side.Stopping) :
    side.remaining ≤ side.conn.out.length := by
  unfold remaining
  split_ifs with hfinished hover
  · exact Nat.zero_le _
  · rcases hstopping with hover' | ⟨-, hout⟩ | hclose
    · exact absurd hover' hfinished
    · exact List.length_pos_iff.mpr hout
    · exact List.length_pos_of_mem hclose
  · rcases hstopping with hover' | ⟨hover', -⟩ | hclose
    · exact absurd hover' hfinished
    · exact absurd hover' hover
    · exact List.idxOf_lt_length_iff.mpr hclose

theorem Stopping.out_ne_nil (hstopping : side.Stopping) (hrunning : side.writer.finished = false) :
    side.conn.out ≠ [] := by
  rcases hstopping with hfinished | ⟨-, hout⟩ | hclose
  · exact Bool.noConfusion (hfinished.symm.trans hrunning)
  · exact hout
  · exact List.ne_nil_of_mem hclose

/-- A caller can only make a stopping writer stop sooner. -/
theorem Stopping.call {conn : Connection} (hstopping : side.Stopping)
    (hout : side.conn.out <+: conn.out)
    (hover : side.conn.overflowed = true → conn.overflowed = true) :
    ({ side with conn := conn } : Outbound).Stopping ∧
      ({ side with conn := conn } : Outbound).remaining ≤ side.remaining := by
  obtain ⟨rest, hrest⟩ := hout
  constructor
  · rcases hstopping with hfinished | ⟨hflag, hsome⟩ | hclose
    · exact Or.inl hfinished
    · refine Or.inr (Or.inl ⟨hover hflag, ?_⟩)
      show conn.out ≠ []
      rw [← hrest]
      exact List.append_ne_nil_of_left_ne_nil hsome _
    · refine Or.inr (Or.inr ?_)
      show .close ∈ conn.out
      rw [← hrest]
      exact List.mem_append_left _ hclose
  · unfold remaining
    dsimp only
    split_ifs with hfinished hflag' hflag hflag
    · omega
    · omega
    · omega
    · exact absurd (hover hflag) hflag'
    · have hclose : .close ∈ side.conn.out := by
        rcases hstopping with hover' | ⟨hover', -⟩ | hclose
        · exact absurd hover' hfinished
        · exact absurd hover' hflag
        · exact hclose
      rw [← hrest, List.idxOf_append_of_mem hclose]

/-- A step of a stopping writer is one of those that remain. -/
theorem Stopping.advance (hstopping : side.Stopping) (hrunning : side.writer.finished = false) :
    side.advance.Stopping ∧ side.advance.remaining < side.remaining := by
  unfold Outbound.advance
  obtain ⟨hnil, -⟩ | ⟨item, rest, code, -, -, hnext⟩ | ⟨frame, rest, hout, hover, hnext⟩ :=
    Writer.next_cases side.conn
  · exact absurd hnil (hstopping.out_ne_nil hrunning)
  · rw [hnext]
    refine ⟨Or.inl rfl, ?_⟩
    unfold remaining
    rw [hrunning]
    cases side.conn.overflowed <;> simp [Writer.finished]
  · rw [hnext]
    have hclose : .close ∈ rest := by
      have hmem : .close ∈ side.conn.out := by
        rcases hstopping with hfinished | ⟨hover', -⟩ | hclose
        · exact Bool.noConfusion (hfinished.symm.trans hrunning)
        · exact Bool.noConfusion (hover'.symm.trans hover)
        · exact hclose
      rw [hout] at hmem
      simpa using hmem
    refine ⟨Or.inr (Or.inr hclose), ?_⟩
    unfold remaining
    dsimp only
    rw [hrunning, hover, hout, List.idxOf_cons_ne _ QueueItem.noConfusion]
    simp [Writer.finished]

theorem Stopping.step {event : Event} (hstopping : side.Stopping)
    (hstep : side.step event = some side') :
    side'.Stopping ∧ side'.remaining + (if event.ofWriter then 1 else 0) ≤ side.remaining := by
  rcases step_cases hstep with
    ⟨frame, rfl, rfl⟩ | ⟨code, frame, rfl, rfl⟩ | ⟨-, hrunning, rfl | ⟨writer, hfinished, rfl⟩⟩
  · exact hstopping.call (Connection.out_prefix_send _ _)
      fun hover ↦ Connection.overflowed_send hover frame
  · exact hstopping.call (Connection.out_prefix_requestClose _ _ _)
      fun hover ↦ Connection.overflowed_requestClose hover code frame
  · obtain ⟨hstopping', hless⟩ := hstopping.advance hrunning
    refine ⟨hstopping', ?_⟩
    split_ifs <;> omega
  · refine ⟨Or.inl hfinished, ?_⟩
    unfold remaining
    rw [hrunning, hfinished]
    cases event.ofWriter <;> cases side.conn.overflowed <;> simp

/-- A stopping writer that is not over never waits for long. -/
theorem Stopping.progresses (hstopping : side.Stopping) (hcreated : side.writer ≠ .absent) :
    side.writer.finished = true ∨ side.Progresses := by
  cases hwriter : side.writer with
  | absent => exact absurd hwriter hcreated
  | starting =>
    refine Or.inr (Or.inl ?_)
    simp only [Outbound.step, hwriter]
    rfl
  | getting =>
    have hout := hstopping.out_ne_nil (by rw [hwriter]; rfl)
    refine Or.inr (Or.inl ?_)
    simp only [Outbound.step, hwriter, if_neg hout]
    rfl
  | writing frame =>
    refine Or.inr (Or.inr fun result ↦ ?_)
    cases result with
    | _ =>
      simp only [Outbound.step, hwriter]
      rfl
  | returned code => exact Or.inl rfl
  | raised => exact Or.inl rfl
  | cancelled => exact Or.inl rfl

/-! ### Whole runs -/

/-- What every event keeps holds after a run. -/
theorem steps_invariant (Holds : Outbound → Prop) {events : List Event}
    (hone : ∀ {before after : Outbound} {event : Event}, event ∈ events → Holds before →
      before.step event = some after → Holds after)
    (hholds : Holds side) (hsteps : side.steps events = some side') : Holds side' := by
  induction events generalizing side with
  | nil => exact Option.some.inj hsteps ▸ hholds
  | cons event events ih =>
    obtain ⟨middle, hstep, hrest⟩ := Option.bind_eq_some_iff.mp hsteps
    exact ih (fun hmem ↦ hone (List.mem_cons_of_mem _ hmem))
      (hone List.mem_cons_self hholds hstep) hrest

theorem sent_steps {events : List Event} (hsteps : side.steps events = some side') :
    side'.conn.sent = side.conn.sent ++ events.flatMap Event.passed := by
  induction events generalizing side with
  | nil =>
    rw [← Option.some.inj hsteps]
    simp
  | cons event events ih =>
    obtain ⟨middle, hstep, hrest⟩ := Option.bind_eq_some_iff.mp hsteps
    calc side'.conn.sent = middle.conn.sent ++ events.flatMap Event.passed := ih hrest
      _ = side.conn.sent ++ event.passed ++ events.flatMap Event.passed := by
        rw [sent_step hstep]
      _ = side.conn.sent ++ (event :: events).flatMap Event.passed := by
        rw [List.flatMap_cons, List.append_assoc]

theorem Heard.steps {events : List Event} (hheard : side.Heard) (hsize : 0 < side.conn.maxsize)
    (hsteps : side.steps events = some side') : side'.Heard ∧ 0 < side'.conn.maxsize := by
  refine steps_invariant (fun side ↦ side.Heard ∧ 0 < side.conn.maxsize) ?_ ⟨hheard, hsize⟩ hsteps
  intro before after event _ hbefore hstep
  refine ⟨hbefore.1.step hbefore.2 hstep, ?_⟩
  rw [maxsize_step hstep]
  exact hbefore.2

theorem written_steps_of_overflowed {events : List Event} (hover : side.conn.overflowed = true)
    (hsteps : side.steps events = some side') : side'.conn.written = side.conn.written := by
  have hkept : side'.conn.overflowed = true ∧ side'.conn.written = side.conn.written := by
    refine steps_invariant
      (fun later ↦ later.conn.overflowed = true ∧ later.conn.written = side.conn.written)
      ?_ ⟨hover, rfl⟩ hsteps
    intro before after event _ hbefore hstep
    obtain ⟨hover', hwritten⟩ := written_step_of_overflowed hbefore.1 hstep
    exact ⟨hover', hwritten.trans hbefore.2⟩
  exact hkept.2

theorem Stopping.steps {events : List Event} (hstopping : side.Stopping)
    (hsteps : side.steps events = some side') :
    side'.Stopping ∧ side'.remaining + events.countP Event.ofWriter ≤ side.remaining := by
  induction events generalizing side with
  | nil =>
    rw [← Option.some.inj hsteps]
    exact ⟨hstopping, le_rfl⟩
  | cons event events ih =>
    obtain ⟨middle, hstep, hrest⟩ := Option.bind_eq_some_iff.mp hsteps
    obtain ⟨hmiddle, hone⟩ := hstopping.step hstep
    obtain ⟨hend, hmany⟩ := ih hmiddle hrest
    refine ⟨hend, ?_⟩
    rw [List.countP_cons]
    omega

/-- A `request_close` leaves a writer that stops. -/
theorem stopping_of_requestClose {events : List Event} {code : ℕ} {frame : Option ServerFrame}
    (hsize : 0 < side.conn.maxsize) (hmem : .requestClose code frame ∈ events)
    (hsteps : side.steps events = some side') : side'.Stopping := by
  induction events generalizing side with
  | nil => exact absurd hmem List.not_mem_nil
  | cons event events ih =>
    obtain ⟨middle, hstep, hrest⟩ := Option.bind_eq_some_iff.mp hsteps
    rcases List.mem_cons.mp hmem with rfl | hlater
    · obtain rfl : { side with conn := side.conn.requestClose code frame } = middle :=
        Option.some.inj hstep
      obtain ⟨marked, hmarked, heq⟩ := side.conn.exists_enqueue_eq_requestClose code frame
      have hstopping :
          ({ side with conn := side.conn.requestClose code frame } : Outbound).Stopping := by
        show _ = true ∨ _
        rw [heq]
        rcases marked.close_mem_or_overflowed (by omega) with hclose | hover
        · exact Or.inr (Or.inr hclose)
        · exact Or.inr (Or.inl hover)
      exact (hstopping.steps hrest).1
    · refine ih ?_ hlater hrest
      rw [maxsize_step hstep]
      exact hsize

theorem Heard.stopping (hheard : side.Heard) (hover : side.conn.overflowed = true) :
    side.Stopping := by
  cases hfinished : side.writer.finished with
  | true => exact Or.inl hfinished
  | false => exact Or.inr (Or.inl ⟨hover, hheard.loud hfinished hover⟩)

/-- For every connection with a positive bound and every order of calls and writer steps: what was
written is a prefix of what was passed to `send`; once the queue has overflowed nothing more is
written; and after an overflow or a `request_close` the writer never waits on an empty queue, takes
at most as many steps as items are queued, and can take one until it is over. -/
theorem written_prefix_and_stops (sessionId : Uuid) {sendQueueSize : Int}
    (hsize : 0 < sendQueueSize) {events : List Event}
    (hrun : (new sessionId sendQueueSize).steps events = some side) :
    side.conn.written <+: events.flatMap Event.passed ∧
      ∀ {later : List Event} {side' : Outbound}, side.steps later = some side' →
        (side.conn.overflowed = true → side'.conn.written = side.conn.written) ∧
        (side.conn.overflowed = true ∨ (∃ code frame, .requestClose code frame ∈ events) →
          (side'.writer = .getting → side'.conn.out ≠ []) ∧
          later.countP Event.ofWriter ≤ side.conn.out.length ∧
          (side'.writer.finished = true ∨ side'.Progresses)) := by
  obtain ⟨hheard, hsize'⟩ := (heard_new sessionId sendQueueSize).steps hsize hrun
  constructor
  · have hsent : side.conn.sent = events.flatMap Event.passed := sent_steps hrun
    rw [← hsent]
    exact hheard.written
  · intro later side' hlater
    refine ⟨fun hover ↦ written_steps_of_overflowed hover hlater, fun hmark ↦ ?_⟩
    have hstopping : side.Stopping := by
      rcases hmark with hover | ⟨code, frame, hmem⟩
      · exact hheard.stopping hover
      · exact stopping_of_requestClose hsize hmem hrun
    obtain ⟨hstopping', hcount⟩ := hstopping.steps hlater
    refine ⟨fun hgetting ↦ ?_, ?_, ?_⟩
    · exact hstopping'.out_ne_nil (by rw [hgetting]; rfl)
    · have hremaining := hstopping.remaining_le
      omega
    · exact hstopping'.progresses (hheard.steps hsize' hlater).1.created

/-- A queue of one. The writer is in its first write and a second frame waits when the third
overflows the queue; the writer returns when that write does. -/
theorem written_prefix_and_stops_overflowed :
    ∃ side side' : Outbound,
      (new ⟨1⟩ 1).steps [.send .pong, .run, .send .pong, .send .pong] = some side ∧
        side.conn.overflowed = true ∧ side.steps [.write .accepted] = some side' ∧
        side'.conn.written <+: [.pong, .pong, .pong] ∧
        side'.conn.written = side.conn.written ∧
        (side'.writer.finished = true ∨ side'.Progresses) := by
  obtain ⟨side, side', hrun, hover, hlater⟩ : ∃ side side' : Outbound,
      (new ⟨1⟩ 1).steps [.send .pong, .run, .send .pong, .send .pong] = some side ∧
        side.conn.overflowed = true ∧ side.steps [.write .accepted] = some side' :=
    ⟨_, _, rfl, rfl, rfl⟩
  obtain ⟨hseen, hrest⟩ := written_prefix_and_stops ⟨1⟩ (by decide : (0 : Int) < 1) hrun
  obtain ⟨hwritten, hstops⟩ := hrest hlater
  refine ⟨side, side', hrun, hover, hlater, ?_, hwritten hover, (hstops (Or.inl hover)).2.2⟩
  rw [hwritten hover]
  exact hseen

end Outbound

end Abacus
