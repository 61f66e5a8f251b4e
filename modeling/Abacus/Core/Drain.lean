import Abacus.Core.Outbound

/-!
# Flushing a connection before it closes

`request_close` queues a farewell frame and the sentinel behind the frames that wait, and nothing
else is sent. `Outbound.Drains` is what it is for: the writer, on a socket that accepts every write,
writes what waits, then the farewell, and returns the code that was asked for. Both items need a
place in the same bounded queue, and an item that finds none marks the connection overflowed, after
which the writer writes nothing that is still queued. `Outbound.drains_iff` says when the queue is
flushed: exactly when both items fit.

A writer that has not been created yet when the close is requested starts behind the same queue, and
is covered by the writer that waits for its first step.
-/

set_option autoImplicit false
set_option relaxedAutoImplicit false

namespace Abacus

namespace Connection

/-- What `request_close` leaves of a queue with room for the farewell and for the sentinel. -/
theorem requestClose_of_room {conn : Connection} (hover : conn.overflowed = false)
    (code : ℕ) (frame : Option ServerFrame)
    (hroom : (conn.out.length + frame.toList.length + 1 : Int) ≤ conn.maxsize) :
    conn.requestClose code frame =
      { conn with
        out := conn.out ++ frame.toList.map .frame ++ [.close]
        closeCode := code
        sent := conn.sent ++ frame.toList } := by
  cases frame with
  | none =>
    have hfull : ({ conn with closeCode := code } : Connection).full = false := by
      rw [Bool.eq_false_iff, Ne, full_eq_true_iff]
      rintro ⟨-, hlength⟩
      have hlength' : conn.maxsize ≤ conn.out.length := hlength
      simp only [Option.toList_none, List.length_nil, Nat.cast_zero] at hroom
      omega
    rw [requestClose, enqueue_of_room hfull]
    simp
  | some frame =>
    simp only [Option.toList_some, List.length_singleton, Nat.cast_one] at hroom
    have hfull : ({ conn with
        out := conn.out ++ [.frame frame]
        sent := conn.sent ++ [frame]
        closeCode := code } : Connection).full = false := by
      rw [Bool.eq_false_iff, Ne, full_eq_true_iff]
      rintro ⟨-, hlength⟩
      have hlength' : conn.maxsize ≤ (conn.out ++ [QueueItem.frame frame]).length := hlength
      rw [List.length_append, List.length_singleton] at hlength'
      push_cast at hlength'
      omega
    rw [requestClose, send_of_room hover (Or.inr (by omega)), enqueue_of_room hfull]
    simp

/-- A queue without room for both is marked overflowed, with frames left in it. -/
theorem requestClose_of_full {conn : Connection} (hover : conn.overflowed = false)
    (hsize : 0 < conn.maxsize) (hlength : (conn.out.length : Int) ≤ conn.maxsize)
    (code : ℕ) (frame : Option ServerFrame)
    (hfull : conn.maxsize < (conn.out.length + frame.toList.length + 1 : Int)) :
    (conn.requestClose code frame).overflowed = true ∧
      (conn.requestClose code frame).out <+: conn.out ++ frame.toList.map .frame ∧
      (conn.requestClose code frame).out ≠ [] := by
  have hclose : ∀ marked : Connection, marked.maxsize = conn.maxsize →
      conn.maxsize ≤ marked.out.length →
        marked.enqueue .close = { marked with overflowed := true } := by
    intro marked hmaxsize hmarked
    apply enqueue_of_full
    rw [full_eq_true_iff, hmaxsize]
    exact ⟨hsize, hmarked⟩
  have hne : ∀ items : List QueueItem, conn.maxsize ≤ items.length → items ≠ [] := by
    intro items hitems hnil
    rw [hnil, List.length_nil] at hitems
    omega
  cases frame with
  | none =>
    simp only [Option.toList_none, List.length_nil, Nat.cast_zero] at hfull
    have hout : conn.maxsize ≤ conn.out.length := by omega
    rw [requestClose, hclose { conn with closeCode := code } rfl hout]
    exact ⟨rfl, List.prefix_append _ _, hne _ hout⟩
  | some frame =>
    simp only [Option.toList_some, List.length_singleton, Nat.cast_one] at hfull
    by_cases hroom : (conn.out.length : Int) < conn.maxsize
    · have hout : conn.maxsize ≤ (conn.out ++ [QueueItem.frame frame]).length := by
        rw [List.length_append, List.length_singleton]
        push_cast
        omega
      have hclosed : conn.requestClose code (some frame) =
          { conn with
            out := conn.out ++ [.frame frame]
            overflowed := true
            closeCode := code
            sent := conn.sent ++ [frame] } := by
        rw [requestClose, send_of_room hover (Or.inr hroom)]
        exact hclose { conn with
          out := conn.out ++ [.frame frame]
          closeCode := code
          sent := conn.sent ++ [frame] } rfl hout
      rw [hclosed]
      exact ⟨rfl, List.prefix_refl _, hne _ hout⟩
    · have hout : conn.maxsize ≤ conn.out.length := by omega
      have hclosed : conn.requestClose code (some frame) =
          { conn with overflowed := true, closeCode := code, sent := conn.sent ++ [frame] } := by
        rw [requestClose, send_of_full hover hsize hout]
        exact hclose { conn with
          overflowed := true
          closeCode := code
          sent := conn.sent ++ [frame] } rfl hout
      rw [hclosed]
      exact ⟨rfl, List.prefix_append _ _, hne _ hout⟩

end Connection

namespace Outbound

variable {side side' : Outbound}

/-! ### The writer on a socket that accepts every write -/

/-- A step of the writer, on a socket that accepts every write. -/
def Flushing (event : Event) : Prop :=
  event = .run ∨ event = .write .accepted

/-- The writer has nothing to go on with. -/
def AtRest (side : Outbound) : Prop :=
  ∀ event, Flushing event → side.step event = none

/-- The writer goes on until it has nothing to go on with. -/
def Flushes (side final : Outbound) : Prop :=
  ∃ events, (∀ event ∈ events, Flushing event) ∧ side.steps events = some final ∧ final.AtRest

theorem step_of_flushing {event : Event} (hevent : Flushing event)
    (hstep : side.step event = some side') :
    side' = side.advance := by
  rcases hevent with rfl | rfl
  · dsimp only [step] at hstep
    split at hstep
    · exact (Option.some.inj hstep).symm
    · split_ifs at hstep
      exact (Option.some.inj hstep).symm
    · exact absurd hstep (by simp)
  · dsimp only [step] at hstep
    split at hstep
    · exact (Option.some.inj hstep).symm
    · exact absurd hstep (by simp)

/-- A writer that is over is at rest. -/
theorem atRest_of_finished (hfinished : side.writer.finished = true) : side.AtRest := by
  intro event hevent
  by_contra hsome
  obtain ⟨side', hstep⟩ := Option.ne_none_iff_exists'.mp hsome
  rcases step_cases hstep with
    ⟨frame, rfl, -⟩ | ⟨code, frame, rfl, -⟩ | ⟨-, hrunning, -⟩
  · rcases hevent with h | h <;> exact Event.noConfusion h
  · rcases hevent with h | h <;> exact Event.noConfusion h
  · exact Bool.noConfusion (hrunning.symm.trans hfinished)

/-- A writer at work with something to take goes on. -/
theorem exists_step_of_alive (halive : side.writer.Alive) (hout : side.conn.out ≠ []) :
    ∃ event, Flushing event ∧ side.step event = some side.advance := by
  rcases halive with hwriter | hwriter | ⟨frame, hwriter⟩
  · exact ⟨.run, Or.inl rfl, by simp only [step, hwriter]⟩
  · exact ⟨.run, Or.inl rfl, by simp only [step, hwriter, if_neg hout]⟩
  · exact ⟨.write .accepted, Or.inr rfl, by simp only [step, hwriter]⟩

/-- Where every flush of a writer with something to take ends is where it ends after its next
step. -/
theorem flushes_iff_advance (halive : side.writer.Alive) (hout : side.conn.out ≠ []) :
    side.Flushes side' ↔ side.advance.Flushes side' := by
  obtain ⟨event, hevent, hstep⟩ := exists_step_of_alive halive hout
  constructor
  · rintro ⟨events, hevents, hsteps, hrest⟩
    cases events with
    | nil =>
      obtain rfl := Option.some.inj hsteps
      exact absurd (hrest event hevent) (by simp [hstep])
    | cons first events =>
      obtain ⟨middle, hfirst, hlater⟩ := Option.bind_eq_some_iff.mp hsteps
      obtain rfl := step_of_flushing (hevents first List.mem_cons_self) hfirst
      exact ⟨events, fun event hevent ↦ hevents event (List.mem_cons_of_mem _ hevent), hlater,
        hrest⟩
  · rintro ⟨events, hevents, hsteps, hrest⟩
    refine ⟨event :: events, ?_, ?_, hrest⟩
    · exact List.forall_mem_cons.mpr ⟨hevent, hevents⟩
    · rw [steps, hstep, Option.bind_some, hsteps]

theorem flushes_iff_of_finished (hfinished : side.writer.finished = true) :
    side.Flushes side' ↔ side' = side := by
  constructor
  · rintro ⟨events, hevents, hsteps, -⟩
    cases events with
    | nil => exact (Option.some.inj hsteps).symm
    | cons first events =>
      obtain ⟨middle, hfirst, -⟩ := Option.bind_eq_some_iff.mp hsteps
      rw [atRest_of_finished hfinished first (hevents first List.mem_cons_self)] at hfirst
      exact absurd hfirst (by simp)
  · rintro rfl
    exact ⟨[], by simp, rfl, atRest_of_finished hfinished⟩

/-! ### Draining -/

/-- The connection after `request_close`. -/
def closing (side : Outbound) (code : ℕ) (frame : Option ServerFrame) : Outbound :=
  { side with conn := side.conn.requestClose code frame }

/-- After `request_close` and with no further sends the writer comes to an end, and wherever it
does, it has written the frames that waited and then the farewell, and returned the code. -/
structure Drains (side : Outbound) (code : ℕ) (frame : Option ServerFrame) : Prop where
  ends : ∃ final, (side.closing code frame).Flushes final
  flushed : ∀ final, (side.closing code frame).Flushes final →
    final.conn.written = side.conn.written ++ side.conn.queued ++ frame.toList ∧
      final.writer = .returned code

/-- Nothing waits any more, and these frames were written. -/
def flushed (side : Outbound) (frames : List ServerFrame) : Outbound where
  conn := { side.conn with out := [], written := side.conn.written ++ frames }
  writer := .returned side.conn.closeCode

/-- A queue of frames with the sentinel behind them is written whole, and the writer returns. -/
theorem flushes_iff_of_close (side : Outbound) (frames : List ServerFrame)
    (halive : side.writer.Alive) (hover : side.conn.overflowed = false)
    (hout : side.conn.out = frames.map .frame ++ [.close]) :
    side.Flushes side' ↔ side' = side.flushed frames := by
  induction frames generalizing side with
  | nil =>
    rw [flushes_iff_advance halive (by rw [hout]; simp),
      flushes_iff_of_finished (by simp [advance, Writer.next, hout, Writer.finished])]
    simp [advance, Writer.next, hout, flushed]
  | cons frame frames ih =>
    have hnext : side.advance =
        ⟨{ side.conn with
            out := frames.map .frame ++ [.close]
            written := side.conn.written ++ [frame] }, .writing frame⟩ := by
      simp [advance, Writer.next, hout, hover]
    have hrest : side.advance.Flushes side' ↔ side' = side.advance.flushed frames := by
      apply ih
      · exact Or.inr (Or.inr ⟨frame, by rw [hnext]⟩)
      · rw [hnext]
        exact hover
      · rw [hnext]
    rw [flushes_iff_advance halive (by rw [hout]; simp), hrest, hnext]
    simp [flushed]

/-- An overflowed connection with frames queued writes none of them. -/
theorem flushes_iff_of_overflowed {frame : ServerFrame} {rest : List QueueItem}
    (halive : side.writer.Alive) (hover : side.conn.overflowed = true)
    (hout : side.conn.out = .frame frame :: rest) :
    side.Flushes side' ↔
      side' = ⟨{ side.conn with out := rest }, .returned wsTryAgainLater⟩ := by
  rw [flushes_iff_advance halive (by rw [hout]; simp),
    flushes_iff_of_finished (by simp [advance, Writer.next, hout, hover, Writer.finished])]
  simp [advance, Writer.next, hout, hover]

/-- The frames of a queue that holds nothing else. -/
theorem queued_of_frames {conn : Connection} {frames : List ServerFrame}
    (hout : conn.out = frames.map .frame) : conn.queued = frames := by
  have htoFrame : QueueItem.toFrame ∘ QueueItem.frame = some := rfl
  rw [Connection.queued, hout, List.filterMap_map, htoFrame, List.filterMap_some]

/-- Both items fit: the writer flushes the queue. -/
theorem drains_of_room (frames : List ServerFrame) (halive : side.writer.Alive)
    (hover : side.conn.overflowed = false) (hout : side.conn.out = frames.map .frame) {code : ℕ}
    {frame : Option ServerFrame}
    (hroom : (frames.length + frame.toList.length + 1 : Int) ≤ side.conn.maxsize) :
    side.Drains code frame := by
  have hcount : side.conn.out.length = frames.length := by rw [hout, List.length_map]
  have hclose := Connection.requestClose_of_room hover code frame (by rw [hcount]; exact hroom)
  have hflushes : ∀ final, (side.closing code frame).Flushes final ↔
      final = (side.closing code frame).flushed (frames ++ frame.toList) := by
    intro final
    apply flushes_iff_of_close
    · exact halive
    · rw [closing, hclose]
      exact hover
    · rw [closing, hclose, hout, List.map_append]
  constructor
  · exact ⟨_, (hflushes _).mpr rfl⟩
  · intro final hfinal
    rw [(hflushes final).mp hfinal, flushed, closing, hclose, queued_of_frames hout]
    exact ⟨(List.append_assoc _ _ _).symm, rfl⟩

/-- One of the two does not fit: the writer gives up what waits. -/
theorem not_drains_of_full (frames : List ServerFrame) (halive : side.writer.Alive)
    (hover : side.conn.overflowed = false) (hsize : 0 < side.conn.maxsize)
    (hout : side.conn.out = frames.map .frame) (hlength : (frames.length : Int) ≤ side.conn.maxsize)
    {code : ℕ} {frame : Option ServerFrame}
    (hfull : side.conn.maxsize < (frames.length + frame.toList.length + 1 : Int)) :
    ¬side.Drains code frame := by
  intro hdrains
  have hcount : side.conn.out.length = frames.length := by rw [hout, List.length_map]
  obtain ⟨hflag, ⟨dropped, hprefix⟩, hne⟩ := Connection.requestClose_of_full hover hsize
    (by rw [hcount]; exact hlength) code frame (by rw [hcount]; exact hfull)
  obtain ⟨item, rest, hitems⟩ := List.exists_cons_of_ne_nil hne
  rw [hitems, hout, ← List.map_append] at hprefix
  obtain ⟨first, others, hframes, rfl, -⟩ := List.map_eq_cons_iff.mp hprefix.symm
  have halive' : (side.closing code frame).writer.Alive := halive
  have hfinal := (flushes_iff_of_overflowed halive' hflag hitems).mpr rfl
  obtain ⟨hwritten, -⟩ := hdrains.flushed _ hfinal
  have hkept : (side.closing code frame).conn.written = side.conn.written :=
    Connection.written_requestClose _ _ _
  have hsame : side.conn.written =
      side.conn.written ++ side.conn.queued ++ frame.toList := hkept.symm.trans hwritten
  rw [queued_of_frames hout, List.append_assoc, hframes] at hsame
  exact List.cons_ne_nil _ _ (List.append_right_eq_self.mp hsame.symm)

/-- The queue is flushed, and the writer returns the code that was asked for, exactly when the
farewell and the sentinel both find a place in the queue behind the frames that wait. -/
theorem drains_iff (frames : List ServerFrame) (halive : side.writer.Alive)
    (hover : side.conn.overflowed = false) (hsize : 0 < side.conn.maxsize)
    (hout : side.conn.out = frames.map .frame) (hlength : (frames.length : Int) ≤ side.conn.maxsize)
    (code : ℕ) (frame : Option ServerFrame) :
    side.Drains code frame ↔
      (frames.length + frame.toList.length + 1 : Int) ≤ side.conn.maxsize := by
  constructor
  · intro hdrains
    by_contra hfull
    exact not_drains_of_full frames halive hover hsize hout hlength (not_le.mp hfull) hdrains
  · exact drains_of_room frames halive hover hout

/-- Frames that are sent before the writer runs wait in the queue. -/
theorem steps_send (side : Outbound) (frames : List ServerFrame) :
    side.steps (frames.map .send) = some { side with conn := side.conn.sendAll frames } := by
  induction frames generalizing side with
  | nil => rfl
  | cons frame frames ih => exact ih { side with conn := side.conn.send frame }

/-- A queue of 64 with one place left, and the close of a draining server: the farewell takes the
place of the sentinel, and the writer gives up every frame. -/
theorem not_drains_one_place_left :
    ∃ side : Outbound,
      (new ⟨1⟩ 64).steps ((List.replicate 63 .pong).map .send) = some side ∧
        side.conn.overflowed = false ∧ side.conn.queued.length = 63 ∧
        ¬side.Drains wsServiceRestart
          (some (.error .goingAway "server is shutting down" true)) := by
  have hroom : ((Connection.new ⟨1⟩ 64).out.length + (List.replicate 63 ServerFrame.pong).length :
      Int) ≤ (Connection.new ⟨1⟩ 64).maxsize := by
    simp [Connection.new]
  have hsent := Connection.sendAll_of_room rfl (Or.inr hroom)
  refine ⟨_, steps_send _ _, ?_⟩
  rw [new, hsent]
  refine ⟨rfl, ?_, ?_⟩
  · rw [queued_of_frames rfl, List.length_replicate]
  · apply not_drains_of_full (List.replicate 63 .pong) (Or.inl rfl) rfl
    · decide
    · rfl
    · simp [Connection.new]
    · simp [Connection.new]

/-- The law at work: three frames in a queue of five. -/
theorem drains_iff_three :
    (⟨(Connection.new ⟨1⟩ 5).sendAll [.pong, .pong, .pong], .starting⟩ : Outbound).Drains
        wsServiceRestart (some (.error .goingAway "server is shutting down" true)) ↔
      (3 + 1 + 1 : Int) ≤ 5 :=
  drains_iff [.pong, .pong, .pong] (Or.inl rfl) rfl (by decide) rfl (by decide) _ _

end Outbound

end Abacus
