import Abacus.Chat.OneTurn
import Abacus.Chat.Turns
import Abacus.Core.Outbound

/-!
# What is written was sent

A handler touches its connection in three ways (`Handler.step_touches`): it passes frames to `send`,
it asks the writer to stop, and its writer takes items from the queue. Everything here follows from
these. In every state of a run what a client can have received of a connection is the beginning of
what was sent on it, and nothing is missing between what was written and what waits until a frame is
dropped (`System.Run.flows`); and a connection that has dropped a frame writes nothing more
(`System.Reaches.later`).
-/

set_option autoImplicit false
set_option relaxedAutoImplicit false

namespace Abacus

/-! ### The connection -/

namespace Connection

/-- What a step of a handler makes of its connection. -/
inductive Touches (conn : Connection) : Connection → Prop
  | sends (frames : List ServerFrame) : Touches conn (conn.sendAll frames)
  | closes (code : ℕ) (frame : Option ServerFrame) : Touches conn (conn.requestClose code frame)
  | takes : Touches conn (Writer.next conn).1

theorem Touches.refl (conn : Connection) : conn.Touches conn :=
  .sends []

theorem Touches.send (conn : Connection) (frame : ServerFrame) : conn.Touches (conn.send frame) :=
  .sends [frame]

/-- What was written is the beginning of what was sent, and goes on with what waits until a frame is
dropped; and no more waits than the bound allows. -/
structure Flows (conn : Connection) : Prop where
  written : conn.written <+: conn.sent
  whole : conn.overflowed = false → conn.written ++ conn.queued = conn.sent
  bounded : 0 < conn.maxsize → (conn.out.length : Int) ≤ conn.maxsize

theorem flows_new (sessionId : Uuid) (sendQueueSize : Int) :
    (new sessionId sendQueueSize).Flows where
  written := List.nil_prefix
  whole _ := rfl
  bounded hsize := hsize.le

theorem Flows.send {conn : Connection} (h : conn.Flows) (frame : ServerFrame) :
    (conn.send frame).Flows := by
  have hwritten : conn.written <+: conn.sent ++ [frame] := h.written.trans (List.prefix_append _ _)
  cases hover : conn.overflowed with
  | true =>
    rw [send_of_overflowed hover]
    exact ⟨hwritten, fun hnot ↦ absurd (hover.symm.trans hnot) (by simp), h.bounded⟩
  | false =>
    by_cases hfull : 0 < conn.maxsize ∧ conn.maxsize ≤ conn.out.length
    · rw [send_of_full hover hfull.1 hfull.2]
      exact ⟨hwritten, fun hnot ↦ absurd hnot (by simp), h.bounded⟩
    · rw [send_of_room hover (by omega)]
      refine ⟨hwritten, fun _ ↦ ?_, fun hsize ↦ ?_⟩
      · have hqueued : (conn.out ++ [QueueItem.frame frame]).filterMap QueueItem.toFrame =
            conn.queued ++ [frame] := by
          simp [queued, QueueItem.toFrame]
        show conn.written ++ (conn.out ++ [QueueItem.frame frame]).filterMap _ = _
        rw [hqueued, ← List.append_assoc, h.whole hover]
      · have hpositive : 0 < conn.maxsize := hsize
        have hroom : (conn.out.length : Int) < conn.maxsize := by omega
        show ((conn.out ++ [QueueItem.frame frame]).length : Int) ≤ conn.maxsize
        rw [List.length_append, List.length_singleton]
        omega

theorem Flows.sendAll {conn : Connection} (h : conn.Flows) (frames : List ServerFrame) :
    (conn.sendAll frames).Flows := by
  induction frames generalizing conn with
  | nil => exact h
  | cons frame frames ih => exact ih (h.send frame)

/-- The sentinel is no frame. -/
theorem Flows.enqueue_close {conn : Connection} (h : conn.Flows) : (conn.enqueue .close).Flows := by
  cases hfull : conn.full with
  | true =>
    rw [enqueue_of_full hfull]
    exact ⟨h.written, fun hnot ↦ absurd hnot (by simp), h.bounded⟩
  | false =>
    have hnot : ¬(0 < conn.maxsize ∧ conn.maxsize ≤ conn.out.length) := by
      rw [← full_eq_true_iff, hfull]
      exact Bool.false_ne_true
    rw [enqueue_of_room hfull]
    refine ⟨h.written, fun hover ↦ ?_, fun hsize ↦ ?_⟩
    · have hqueued : (conn.out ++ [QueueItem.close]).filterMap QueueItem.toFrame = conn.queued := by
        simp [queued, QueueItem.toFrame]
      show conn.written ++ (conn.out ++ [QueueItem.close]).filterMap _ = _
      rw [hqueued, h.whole hover]
    · have hpositive : 0 < conn.maxsize := hsize
      show ((conn.out ++ [QueueItem.close]).length : Int) ≤ conn.maxsize
      rw [List.length_append, List.length_singleton]
      omega

theorem Flows.requestClose {conn : Connection} (h : conn.Flows) (code : ℕ)
    (frame : Option ServerFrame) : (conn.requestClose code frame).Flows := by
  have hclose : ∀ {marked : Connection}, marked.Flows →
      ({ marked with closeCode := code } : Connection).Flows :=
    fun hmarked ↦ ⟨hmarked.written, hmarked.whole, hmarked.bounded⟩
  cases frame with
  | none => exact (hclose h).enqueue_close
  | some frame => exact (hclose (h.send frame)).enqueue_close

/-- The writer writes the first of the frames that wait, or drops it after an overflow. -/
theorem Flows.next {conn : Connection} (h : conn.Flows) : (Writer.next conn).1.Flows := by
  have hshorter : ∀ item rest, conn.out = item :: rest → 0 < conn.maxsize →
      (rest.length : Int) ≤ conn.maxsize := by
    intro item rest hout hsize
    have hbounded := h.bounded hsize
    rw [hout, List.length_cons] at hbounded
    omega
  unfold Writer.next
  split
  · exact h
  · next rest hout =>
    refine ⟨h.written, fun hover ↦ ?_, hshorter _ rest hout⟩
    have hwhole := h.whole hover
    rw [queued, hout] at hwhole
    exact hwhole
  · next frame rest hout =>
    split_ifs with hover
    · exact ⟨h.written, fun hnot ↦ absurd (hover.symm.trans hnot) (by simp), hshorter _ rest hout⟩
    · have hwhole := h.whole (by simpa using hover)
      rw [queued, hout] at hwhole
      have hmoved : (conn.written ++ [frame]) ++ rest.filterMap QueueItem.toFrame = conn.sent := by
        rw [← hwhole, List.append_assoc]
        rfl
      exact ⟨⟨_, hmoved⟩, fun _ ↦ hmoved, hshorter _ rest hout⟩

theorem Flows.touches {conn after : Connection} (h : conn.Flows) (htouches : conn.Touches after) :
    after.Flows := by
  cases htouches with
  | sends frames => exact h.sendAll frames
  | closes code frame => exact h.requestClose code frame
  | takes => exact h.next

/-- What may become of a connection: more is sent, and after an overflow nothing is written. -/
structure Later (before after : Connection) : Prop where
  sent : before.sent <+: after.sent
  maxsize : after.maxsize = before.maxsize
  silent : before.overflowed = true →
    after.overflowed = true ∧ after.written = before.written

theorem Later.refl (conn : Connection) : conn.Later conn :=
  ⟨List.prefix_refl _, rfl, fun hover ↦ ⟨hover, rfl⟩⟩

theorem Later.trans {first second third : Connection} (hfirst : first.Later second)
    (hsecond : second.Later third) : first.Later third where
  sent := hfirst.sent.trans hsecond.sent
  maxsize := hsecond.maxsize.trans hfirst.maxsize
  silent hover := by
    obtain ⟨hover, hwritten⟩ := hfirst.silent hover
    obtain ⟨hlater, hsame⟩ := hsecond.silent hover
    exact ⟨hlater, hsame.trans hwritten⟩

theorem later_sendAll (conn : Connection) (frames : List ServerFrame) :
    conn.Later (conn.sendAll frames) := by
  induction frames generalizing conn with
  | nil => exact .refl conn
  | cons frame frames ih =>
    refine Later.trans ⟨?_, maxsize_send conn frame, fun hover ↦ ?_⟩ (ih (conn.send frame))
    · rw [sent_send]
      exact List.prefix_append _ _
    · exact ⟨overflowed_send hover frame, written_send conn frame⟩

theorem Touches.later {conn after : Connection} (h : conn.Touches after) : conn.Later after := by
  cases h with
  | sends frames => exact conn.later_sendAll frames
  | closes code frame =>
    refine ⟨?_, maxsize_requestClose conn code frame, fun hover ↦ ?_⟩
    · rw [sent_requestClose]
      exact List.prefix_append _ _
    · exact ⟨overflowed_requestClose hover code frame, written_requestClose conn code frame⟩
  | takes =>
    obtain ⟨-, hnext⟩ | ⟨item, rest, code, -, -, hnext⟩ | ⟨frame, rest, -, hover, hnext⟩ :=
      Writer.next_cases conn
    · rw [hnext]
      exact .refl conn
    · rw [hnext]
      exact ⟨List.prefix_refl _, rfl, fun hover ↦ ⟨hover, rfl⟩⟩
    · rw [hnext]
      exact ⟨List.prefix_refl _, rfl, fun hnot ↦ absurd (hover.symm.trans hnot) (by simp)⟩

/-- What has been written of frames that were sent together, once the queue is flushed: all of them
when they found room, and none otherwise. -/
theorem Flows.written_sendAll {conn final : Connection} (h : conn.Flows) (hfinal : final.Flows)
    {frames : List ServerFrame} (hlater : (conn.sendAll frames).Later final)
    (hempty : final.overflowed = false → final.out = [])
    (hkept : final.overflowed = true → (conn.sendAll frames).overflowed = true) :
    (final.written.take (conn.sendAll frames).sent.length).drop conn.sent.length =
      if conn.overflowed = false ∧
        (conn.maxsize ≤ 0 ∨ (conn.out.length + frames.length : Int) ≤ conn.maxsize) then frames
      else [] := by
  have hnone : (conn.sendAll frames).overflowed = true →
      (final.written.take (conn.sendAll frames).sent.length).drop conn.sent.length = [] := by
    intro hover
    rw [(hlater.silent hover).2, Connection.written_sendAll, List.drop_eq_nil_iff]
    exact (List.length_take_le' _ _).trans h.written.length_le
  split_ifs with hroom
  · have hsent := sendAll_of_room hroom.1 hroom.2
    have hover : final.overflowed = false := by
      by_contra hnot
      have hflag := hkept (by simpa using hnot)
      rw [hsent] at hflag
      exact absurd (hroom.1.symm.trans hflag) (by simp)
    have hwritten : final.written = final.sent := by
      have hwhole := hfinal.whole hover
      rwa [queued, hempty hover, List.filterMap_nil, List.append_nil] at hwhole
    obtain ⟨rest, hrest⟩ := hlater.sent
    rw [hwritten, ← hrest, List.take_left, sent_sendAll, List.drop_left]
  · cases hover : conn.overflowed with
    | true => exact hnone ((conn.later_sendAll frames).silent hover).1
    | false =>
      obtain ⟨hpositive, hfull⟩ := not_or.mp fun hfits ↦ hroom ⟨hover, hfits⟩
      exact hnone (sendAll_of_full hover (not_le.mp hpositive) (not_le.mp hfull)
        (h.bounded (not_le.mp hpositive)))

end Connection

namespace Chat

/-! ### The handler -/

namespace Handler

variable {settings : Settings} {handler after : Handler}

/-- Cancelling tasks leaves the connection. -/
theorem cancelBoth_conn (handler : Handler) : handler.cancelBoth.conn = handler.conn := by
  obtain ⟨writer, tasks, pending, hcancel⟩ := handler.cancelBoth_eq
  rw [hcancel]

/-- Every step of a handler touches its connection in one of the three ways. -/
theorem step_touches {action : Action} (hstep : handler.step settings action = some after) :
    handler.conn.Touches after.conn := by
  cases step_branch hstep with
  | invalid | newer | pings | refuses | found | starts | notStored | tooOld | notReplayed =>
    exact .send _ _
  | replays | responds | runs => exact .sends _
  | advances | accepted => exact .takes
  | drains =>
    exact .closes wsServiceRestart (some (.error .goingAway "server is shutting down" true))
  | stops | unwinds | interrupted | again =>
    show handler.conn.Touches handler.cancelBoth.conn
    rw [cancelBoth_conn]
    exact .refl _
  | _ => exact .refl _

end Handler

/-! ### Runs -/

section Runs

variable {Socket : Type} [DecidableEq Socket] {settings : Settings} {system after : System Socket}

/-- Every connection flows, under the bound of the settings. -/
def System.Flows (settings : Settings) (system : System Socket) : Prop :=
  ∀ socket handler, system.handlers socket = some handler →
    handler.conn.Flows ∧ handler.conn.maxsize = settings.wsSendQueueSize

theorem System.Flows.step {event : Event Socket} (h : system.Flows settings)
    (hstep : system.step settings event = some after) : after.Flows settings := by
  intro socket next hnext
  cases System.step_goes hstep hnext with
  | kept hsame => exact h socket next hsame
  | accepted sessionId hnone hnew => exact hnew ▸ ⟨Connection.flows_new _ _, rfl⟩
  | answered handler reply task hhandler hanswer =>
    rw [hanswer, Handler.answer_conn]
    exact h socket handler hhandler
  | stepped handler action hhandler hmoved =>
    obtain ⟨hflows, hmaxsize⟩ := h socket handler hhandler
    have htouches := Handler.step_touches hmoved
    exact ⟨hflows.touches htouches, htouches.later.maxsize.trans hmaxsize⟩

theorem System.Run.flows (h : System.Run settings system) : system.Flows settings := by
  refine h.invariant ?_ fun before event next hbefore _ hstep ↦ hbefore.step hstep
  intro socket handler hhandler
  exact nomatch hhandler

/-- What may become of the connection of a socket. -/
theorem System.Reaches.later {socket : Socket} {handler final : Handler}
    (h : System.Reaches settings (fun _ _ ↦ True) system after)
    (hhandler : system.handlers socket = some handler)
    (hfinal : after.handlers socket = some final) : handler.conn.Later final.conn := by
  induction h generalizing final with
  | refl =>
    obtain rfl : handler = final := Option.some.inj (hhandler.symm.trans hfinal)
    exact .refl _
  | tail hearlier hallows ih =>
    obtain ⟨event, -, hstep⟩ := hallows
    cases System.step_goes hstep hfinal with
    | kept hsame => exact ih hsame
    | accepted sessionId hnone hnew =>
      obtain ⟨old, hold⟩ := System.Reaches.handler_stays hearlier hhandler
      exact absurd (hold.symm.trans hnone) (by simp)
    | answered old reply task hold hanswer =>
      rw [hanswer, Handler.answer_conn]
      exact ih hold
    | stepped old action hold hmoved => exact (ih hold).trans (Handler.step_touches hmoved).later

end Runs

end Chat

end Abacus
