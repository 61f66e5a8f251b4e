import Abacus.Chat.System
import Abacus.Core.Outbound
import Abacus.Postgres.LogSince

/-!
# What a resume delivers

One `Resume` frame on a connection whose queue is empty and whose socket accepts every write. The
reader sends the replay without an `await`, so the writer takes nothing from the queue before the
last frame is sent: the replay is delivered exactly when it fits the queue at once
(`resume_delivers_iff`), whatever `ws_resume_max_messages` allows. `resume_overflows` is a replay
within that bound, at the default settings, of which nothing is delivered.
-/

set_option autoImplicit false
set_option relaxedAutoImplicit false

namespace Abacus

/-! ### The writer alone -/

namespace Chat

open Postgres (Database IsBound Operation perform sessionRows logAfter perform_logSince)

namespace Handler

/-- The writer goes on, on a socket that accepts every write. -/
def WriterStep (handler after : Handler) : Prop :=
  handler.runWriter = some after ∨ handler.write .accepted = some after

/-- The writer goes on any number of times. -/
abbrev Flushes : Handler → Handler → Prop :=
  Relation.ReflTransGen WriterStep

/-- The writer has nothing to go on with. -/
def AtRest (handler : Handler) : Prop :=
  handler.runWriter = none ∧ ∀ result, handler.write result = none

/-- The handler with another connection and another writer. -/
def withWriter (handler : Handler) (conn : Connection) (writer : Writer) : Handler :=
  { handler with conn := conn, writer := writer }

theorem WriterStep.eq_advanceWriter {handler after : Handler} (h : handler.WriterStep after) :
    after = handler.advanceWriter := by
  rcases h with h | h
  · unfold runWriter at h
    split at h
    · exact (Option.some.inj h).symm
    · split_ifs at h
      exact (Option.some.inj h).symm
    · exact absurd h (by simp)
  · unfold write at h
    split at h
    · exact (Option.some.inj h).symm
    · exact absurd h (by simp)

/-- A writer at work that is at rest waits for an item, and the queue is empty. -/
theorem AtRest.getting {handler : Handler} (h : handler.AtRest) (halive : handler.writer.Alive) :
    handler.writer = .getting ∧ handler.conn.out = [] := by
  rcases halive with hwriter | hwriter | ⟨frame, hwriter⟩
  · have hrun := h.1
    simp [runWriter, hwriter] at hrun
  · refine ⟨hwriter, ?_⟩
    have hrun := h.1
    simpa [runWriter, hwriter] using hrun
  · have hwrite := h.2 .accepted
    simp [write, hwriter] at hwrite

/-- A writer that is not at rest, on a socket that accepts every write, can go on. -/
theorem writerStep_of_not_atRest {handler : Handler} (h : ¬handler.AtRest) :
    ∃ after, handler.WriterStep after := by
  cases hrun : handler.runWriter with
  | some after => exact ⟨after, Or.inl hrun⟩
  | none =>
    have hwrite : ∃ result, handler.write result ≠ none := by
      by_contra hall
      simp only [not_exists, not_not] at hall
      exact h ⟨hrun, hall⟩
    obtain ⟨result, hresult⟩ := hwrite
    unfold write at hresult
    split at hresult
    · next frame hwriter => exact ⟨handler.advanceWriter, Or.inr (by simp [write, hwriter])⟩
    · exact absurd rfl hresult

/-- The queue does not grow under the writer, and a writer that goes on takes an item or waits. -/
theorem advanceWriter_out (handler : Handler) :
    (handler.conn.out = [] ∧ handler.advanceWriter.AtRest) ∨
      handler.advanceWriter.conn.out.length < handler.conn.out.length := by
  cases hout : handler.conn.out with
  | nil =>
    left
    refine ⟨rfl, ?_, ?_⟩
    · simp [runWriter, advanceWriter, Writer.next, hout]
    · intro result
      simp [write, advanceWriter, Writer.next, hout]
  | cons item rest =>
    right
    cases item with
    | close => simp [advanceWriter, Writer.next, hout]
    | frame frame =>
      by_cases hover : handler.conn.overflowed = true
      · simp [advanceWriter, Writer.next, hout, hover]
      · simp [advanceWriter, Writer.next, hout, hover]

/-- The writer comes to rest. -/
theorem exists_flushes_atRest (handler : Handler) :
    ∃ after, handler.Flushes after ∧ after.AtRest := by
  induction hlength : handler.conn.out.length using Nat.strong_induction_on
    generalizing handler with
  | _ length ih =>
    by_cases hrest : handler.AtRest
    · exact ⟨handler, .refl, hrest⟩
    · obtain ⟨next, hstep⟩ := writerStep_of_not_atRest hrest
      obtain rfl := hstep.eq_advanceWriter
      rcases handler.advanceWriter_out with ⟨-, hnext⟩ | hless
      · exact ⟨_, .single hstep, hnext⟩
      · obtain ⟨after, hflushes, hafter⟩ := ih _ (hlength ▸ hless) handler.advanceWriter rfl
        exact ⟨after, .head hstep hflushes, hafter⟩

/-! ### The writer on an idle connection, and on a connection with frames to flush -/

/-- What the writer leaves of a connection whose queue is empty. -/
theorem Flushes.idle {handler after : Handler} (h : handler.Flushes after)
    (hout : handler.conn.out = []) (halive : handler.writer.Alive) :
    ∃ writer, writer.Alive ∧ after = handler.withWriter handler.conn writer := by
  induction h with
  | refl => exact ⟨handler.writer, halive, rfl⟩
  | tail _ hstep ih =>
    obtain ⟨writer, -, rfl⟩ := ih
    obtain rfl := hstep.eq_advanceWriter
    refine ⟨.getting, Or.inr (Or.inl rfl), ?_⟩
    simp [advanceWriter, Writer.next, withWriter, hout]

/-- What the writer leaves of a connection that has not overflowed and has only frames queued: the
frames written and the frames queued are still the same, in the same order. -/
theorem Flushes.flowing {handler after : Handler} (h : handler.Flushes after)
    {frames : List ServerFrame} (hout : handler.conn.out = frames.map .frame)
    (hover : handler.conn.overflowed = false) (halive : handler.writer.Alive) :
    ∃ writer done rest, writer.Alive ∧ frames = done ++ rest ∧
      after = handler.withWriter
        { handler.conn with
          out := rest.map .frame
          written := handler.conn.written ++ done } writer := by
  induction h with
  | refl =>
    refine ⟨handler.writer, [], frames, halive, rfl, ?_⟩
    rw [List.append_nil, ← hout]
    rfl
  | tail _ hstep ih =>
    obtain ⟨writer, done, rest, -, rfl, rfl⟩ := ih
    obtain rfl := hstep.eq_advanceWriter
    cases rest with
    | nil =>
      refine ⟨.getting, done, [], Or.inr (Or.inl rfl), rfl, ?_⟩
      simp [advanceWriter, Writer.next, withWriter]
    | cons frame rest =>
      refine ⟨.writing frame, done ++ [frame], rest, Or.inr (Or.inr ⟨frame, rfl⟩), by simp, ?_⟩
      simp [advanceWriter, Writer.next, withWriter, hover]

/-- The writer does not take the overflow back, and writes nothing more. -/
theorem Flushes.overflowed {handler after : Handler} (h : handler.Flushes after)
    (hover : handler.conn.overflowed = true) :
    after.conn.overflowed = true ∧ after.conn.written = handler.conn.written := by
  induction h with
  | refl => exact ⟨hover, rfl⟩
  | @tail middle next _ hstep ih =>
    obtain rfl := hstep.eq_advanceWriter
    unfold advanceWriter Writer.next
    split
    · exact ih
    · exact ih
    · rw [if_pos ih.1]
      exact ih

end Handler

/-! ### A resume on the connection of a system -/

section Resumption

variable {Socket : Type} [DecidableEq Socket]

/-- A step of the writer of one socket, which accepts every write. -/
def OfWriter (socket : Socket) (event : Event Socket) : Prop :=
  event = .act socket .runWriter ∨ event = .act socket (.write .accepted)

/-- Steps of the writer alone change only its handler. -/
theorem System.flushes_of_steps {settings : Settings} {socket : Socket}
    {events : List (Event Socket)} {system after : System Socket} {handler : Handler}
    (hevents : ∀ event ∈ events, OfWriter socket event)
    (hhandler : system.handlers socket = some handler)
    (hsteps : system.steps settings events = some after) :
    ∃ final, handler.Flushes final ∧ after = system.setHandler socket final := by
  induction events generalizing system handler with
  | nil =>
    refine ⟨handler, .refl, ?_⟩
    rw [System.setHandler_self hhandler]
    exact (Option.some.inj hsteps).symm
  | cons event events ih =>
    obtain ⟨middle, hstep, hrest⟩ := Option.bind_eq_some_iff.mp hsteps
    have hwriter : ∃ next, handler.WriterStep next ∧ middle = system.setHandler socket next := by
      rcases hevents event List.mem_cons_self with rfl | rfl
      · obtain ⟨next, hnext, rfl⟩ := by simpa [System.step, hhandler] using hstep
        exact ⟨next, Or.inl hnext, rfl⟩
      · obtain ⟨next, hnext, rfl⟩ := by simpa [System.step, hhandler] using hstep
        exact ⟨next, Or.inr hnext, rfl⟩
    obtain ⟨next, hnext, rfl⟩ := hwriter
    obtain ⟨final, hflushes, rfl⟩ :=
      ih (fun event hevent ↦ hevents event (List.mem_cons_of_mem _ hevent))
        (System.setHandler_handlers_self system socket next) hrest
    refine ⟨final, .head hnext hflushes, ?_⟩
    rw [System.setHandler_setHandler]

/-- What the writer can do, it does in steps of the system. -/
theorem System.steps_of_flushes (settings : Settings) {socket : Socket} {system : System Socket}
    {handler final : Handler} (hhandler : system.handlers socket = some handler)
    (h : handler.Flushes final) :
    ∃ events, (∀ event ∈ events, OfWriter socket event) ∧
      system.steps settings events = some (system.setHandler socket final) := by
  induction h with
  | refl =>
    refine ⟨[], by simp, ?_⟩
    rw [System.setHandler_self hhandler]
    rfl
  | @tail middle next _ hstep ih =>
    obtain ⟨events, hevents, hsteps⟩ := ih
    have hlast : ∃ event, OfWriter socket event ∧
        (system.setHandler socket middle).step settings event =
          some (system.setHandler socket next) := by
      rcases hstep with hstep | hstep
      · exact ⟨.act socket .runWriter, Or.inl rfl, by simp [System.step, Handler.step, hstep]⟩
      · exact ⟨.act socket (.write .accepted), Or.inr rfl,
          by simp [System.step, Handler.step, hstep]⟩
    obtain ⟨event, hevent, hstep⟩ := hlast
    refine ⟨events ++ [event], ?_, ?_⟩
    · intro other hother
      rcases List.mem_append.mp hother with hother | hother
      · exact hevents other hother
      · rw [List.mem_singleton.mp hother]
        exact hevent
    · rw [System.steps_append, hsteps]
      simp [System.steps, hstep]

/-- An open connection with nothing queued, between two frames of its client. -/
structure Handler.Ready (settings : Settings) (handler : Handler) : Prop where
  reader : handler.reader = ⟨.receiving, none⟩
  writer : handler.writer.Alive
  maxsize : handler.conn.maxsize = settings.wsSendQueueSize
  out : handler.conn.out = []
  overflowed : handler.conn.overflowed = false

/-- A client's `Resume` is handled: the reader takes the frame, `log_since` returns and the reader
goes on, with any steps of the writer before, between and after, until the writer is at rest. -/
def Resumes (settings : Settings) (socket : Socket) (v : Int) (lastSeq : ℕ)
    (system after : System Socket) : Prop :=
  ∃ first second third fourth drawn fresh,
    (∀ event ∈ first ++ second ++ third ++ fourth, OfWriter socket event) ∧
      system.steps settings
        (first ++ .act socket (.receive (.valid v (.resume lastSeq))) ::
          (second ++ .store socket .reader drawn false ::
            (third ++ .act socket (.runReader fresh) :: fourth))) = some after ∧
      ∃ final, after.handlers socket = some final ∧ final.AtRest

/-- The rows of a session that a client with this cursor has missed. -/
def missedRows (database : Database) (sessionId : Uuid) (lastSeq : ℕ) : List SessionRow :=
  (sessionRows database sessionId).filter fun row ↦ lastSeq < row.seq

/-- The missed rows reached the socket, in the order of their numbers and each once, and the
connection is open and has not overflowed. -/
structure Delivers (database : Database) (lastSeq : ℕ) (before after : Handler) : Prop where
  written : ∃ rows : List SessionRow,
    after.conn.written = before.conn.written ++ rows.map replayed ∧
      rows.Pairwise (fun first second ↦ first.seq < second.seq) ∧
      ∀ row, row ∈ rows ↔ row ∈ missedRows database before.conn.sessionId lastSeq
  overflowed : after.conn.overflowed = false
  serve : after.serve = before.serve
  reader : after.reader = ⟨.receiving, none⟩
  writer : after.writer = .getting

/-- What `log_since` answers a resume. -/
def scanReply (settings : Settings) (database : Database) (sessionId : Uuid) (lastSeq : ℕ) :
    Reply :=
  if IsBound lastSeq (settings.wsResumeMaxMessages + 1) then
    .returned (.log ((logAfter database sessionId lastSeq).take (settings.wsResumeMaxMessages + 1)))
  else .raised (some .dataError)

/-- What a resume passes to `send`. -/
def resumeFrames (settings : Settings) (database : Database) (sessionId : Uuid) (lastSeq : ℕ) :
    List ServerFrame :=
  if IsBound lastSeq (settings.wsResumeMaxMessages + 1) then
    if settings.wsResumeMaxMessages < (missedRows database sessionId lastSeq).length then
      [.error .resumeTooOld
        ("more than " ++ toString settings.wsResumeMaxMessages ++ " entries since seq " ++
          toString lastSeq) false]
    else (logAfter database sessionId lastSeq).map replayed
  else [.error .internal "the session could not be replayed" true]

/-- The handler that has passed frames to `send`, with its writer anywhere. -/
def Handler.resumed (handler : Handler) (frames : List ServerFrame) (writer : Writer) : Handler :=
  { handler.withWriter (handler.conn.sendAll frames) writer with
    reader := ⟨.receiving, none⟩ }

theorem length_logAfter (database : Database) (sessionId : Uuid) (lastSeq : ℕ) :
    (logAfter database sessionId lastSeq).length =
      (missedRows database sessionId lastSeq).length :=
  (Postgres.logAfter_perm database sessionId lastSeq).length_eq

/-- A resume within the replay bound is answered with the rows after its cursor. -/
theorem resumeFrames_of_bound {settings : Settings} {database : Database} {sessionId : Uuid}
    {lastSeq : ℕ} (hrange : IsBound lastSeq (settings.wsResumeMaxMessages + 1))
    (hbound : (missedRows database sessionId lastSeq).length ≤ settings.wsResumeMaxMessages) :
    resumeFrames settings database sessionId lastSeq =
      (logAfter database sessionId lastSeq).map replayed := by
  rw [resumeFrames, if_pos hrange, if_neg (not_lt.mpr hbound)]

/-- An error is no row. -/
theorem error_ne_replayed {code : ErrorCode} {message : String} {retryable : Bool}
    (rows : List SessionRow) : [ServerFrame.error code message retryable] ≠ rows.map replayed := by
  intro hframes
  obtain ⟨row, -, hrow⟩ := List.mem_map.mp (hframes ▸ List.mem_singleton_self _)
  cases row <;> exact ServerFrame.noConfusion hrow

/-- A resume whose cursor or limit is no `BIGINT` is answered with one error. -/
theorem resumeFrames_of_range {settings : Settings} {database : Database} {sessionId : Uuid}
    {lastSeq : ℕ} (hrange : ¬IsBound lastSeq (settings.wsResumeMaxMessages + 1)) :
    resumeFrames settings database sessionId lastSeq =
      [.error .internal "the session could not be replayed" true] := by
  rw [resumeFrames, if_neg hrange]

section Steps

variable {settings : Settings} {system : System Socket} {socket : Socket} {handler : Handler}

theorem System.step_receive_resume (hhandler : system.handlers socket = some handler)
    (hreader : handler.reader = ⟨.receiving, none⟩) {v : Int} (hv : v ≤ protocolVersion)
    (lastSeq : ℕ) :
    system.step settings (.act socket (.receive (.valid v (.resume lastSeq)))) =
      some (system.setHandler socket (handler.setReader (.resuming lastSeq))) := by
  have hversion : ¬protocolVersion < v := not_lt.mpr hv
  simp [System.step, Handler.step, Handler.dispatch, hhandler, hreader, hversion]

theorem System.step_store_resuming (hhandler : system.handlers socket = some handler)
    {lastSeq : ℕ} (hreader : handler.reader = ⟨.resuming lastSeq, none⟩) (drawn : Uuid) :
    system.step settings (.store socket .reader drawn false) =
      some (system.setHandler socket (handler.answer
        (scanReply settings system.database handler.conn.sessionId lastSeq) .reader)) := by
  have hperform := perform_logSince system.now handler.conn.sessionId lastSeq
    (settings.wsResumeMaxMessages + 1) system.database
  have hcall : handler.call settings drawn .reader =
      some (.logSince handler.conn.sessionId lastSeq (settings.wsResumeMaxMessages + 1)) := by
    simp [Handler.call, ReaderPlace.call, hreader]
  have hcommit : system.step settings (.store socket .reader drawn false) =
      some (system.commit socket handler .reader
        (.logSince handler.conn.sessionId lastSeq (settings.wsResumeMaxMessages + 1)) false) := by
    simp [System.step, hhandler, hcall]
  rw [hcommit, System.commit, hperform, scanReply]
  simp only [Handler.openingFor, openings, hreader, System.setHandler, List.append_nil,
    Bool.false_eq_true, if_false]
  split_ifs <;> rfl

/-- The reader goes on with the answer of `log_since`. -/
theorem System.step_run_resuming (hhandler : system.handlers socket = some handler)
    {lastSeq : ℕ} {database : Database} {sessionId : Uuid}
    (hreader : handler.reader =
      ⟨.resuming lastSeq, some (scanReply settings database sessionId lastSeq)⟩) (fresh : ℕ) :
    system.step settings (.act socket (.runReader fresh)) =
      some (system.setHandler socket
        (handler.resumed (resumeFrames settings database sessionId lastSeq) handler.writer)) := by
  have hlength := length_logAfter database sessionId lastSeq
  have hrun : handler.runReader settings fresh =
      some (handler.resumed (resumeFrames settings database sessionId lastSeq) handler.writer) := by
    rw [Handler.runReader, hreader]
    unfold scanReply resumeFrames
    by_cases hrange : IsBound lastSeq (settings.wsResumeMaxMessages + 1)
    · rw [if_pos hrange, if_pos hrange]
      show some ((handler.replay settings lastSeq _).setReader .receiving) = _
      rw [Handler.replay]
      by_cases hmore : settings.wsResumeMaxMessages < (missedRows database sessionId lastSeq).length
      · have htaken : settings.wsResumeMaxMessages <
            ((logAfter database sessionId lastSeq).take
              (settings.wsResumeMaxMessages + 1)).length := by
          rw [List.length_take, hlength]
          omega
        rw [if_pos htaken, if_pos hmore]
        rfl
      · have htake : (logAfter database sessionId lastSeq).take (settings.wsResumeMaxMessages + 1) =
            logAfter database sessionId lastSeq :=
          List.take_of_length_le (by omega)
        rw [htake, hlength, if_neg hmore, if_neg hmore]
        rfl
    · rw [if_neg hrange, if_neg hrange]
      rfl
  simp [System.step, Handler.step, hhandler, hrun]

end Steps

section Run

variable {settings : Settings} {system after : System Socket} {socket : Socket} {handler : Handler}
  {v : Int} {lastSeq : ℕ}

/-- Handling a resume is sending its answer, with the writer anywhere, and then flushing. -/
theorem Resumes.final (h : Resumes settings socket v lastSeq system after)
    (hhandler : system.handlers socket = some handler) (hready : handler.Ready settings)
    (hv : v ≤ protocolVersion) :
    ∃ writer final, writer.Alive ∧
      (handler.resumed (resumeFrames settings system.database handler.conn.sessionId lastSeq)
        writer).Flushes final ∧ final.AtRest ∧ after.handlers socket = some final := by
  obtain ⟨first, second, third, fourth, drawn, fresh, hevents, hsteps, last, hlast, hrest⟩ := h
  have hof : ∀ events ∈ [first, second, third, fourth], ∀ event ∈ events,
      OfWriter socket event := by
    intro events hmem event hevent
    refine hevents event ?_
    simp only [List.mem_cons, List.not_mem_nil, or_false] at hmem
    simp only [List.mem_append]
    rcases hmem with rfl | rfl | rfl | rfl <;> simp [hevent]
  -- Before the frame, and while `log_since` is awaited, the queue is empty.
  rw [System.steps_append] at hsteps
  obtain ⟨middle, hfirst, hsteps⟩ := Option.bind_eq_some_iff.mp hsteps
  obtain ⟨_, hflushes, rfl⟩ := System.flushes_of_steps (hof first (by simp)) hhandler hfirst
  obtain ⟨writer, halive, rfl⟩ := hflushes.idle hready.out hready.writer
  have hreader : (handler.withWriter handler.conn writer).reader = ⟨.receiving, none⟩ :=
    hready.reader
  rw [System.steps, System.step_receive_resume (System.setHandler_handlers_self system socket _)
    hreader hv, Option.bind_some, System.setHandler_setHandler, System.steps_append] at hsteps
  obtain ⟨middle, hsecond, hsteps⟩ := Option.bind_eq_some_iff.mp hsteps
  obtain ⟨_, hflushes, rfl⟩ := System.flushes_of_steps (hof second (by simp))
    (System.setHandler_handlers_self system socket _) hsecond
  obtain ⟨writer, halive, rfl⟩ := hflushes.idle hready.out halive
  rw [System.steps, System.setHandler_setHandler,
    System.step_store_resuming (System.setHandler_handlers_self system socket _) rfl drawn,
    Option.bind_some, System.setHandler_setHandler, System.steps_append] at hsteps
  obtain ⟨middle, hthird, hsteps⟩ := Option.bind_eq_some_iff.mp hsteps
  obtain ⟨_, hflushes, rfl⟩ := System.flushes_of_steps (hof third (by simp))
    (System.setHandler_handlers_self system socket _) hthird
  obtain ⟨writer, halive, rfl⟩ := hflushes.idle hready.out halive
  -- The answer is sent without an `await`; what is left is the writer's.
  rw [System.steps, System.setHandler_setHandler,
    System.step_run_resuming (System.setHandler_handlers_self system socket _) rfl fresh,
    Option.bind_some, System.setHandler_setHandler] at hsteps
  obtain ⟨final, hflushes, rfl⟩ := System.flushes_of_steps (hof fourth (by simp))
    (System.setHandler_handlers_self system socket _) hsteps
  rw [System.setHandler_handlers_self] at hlast
  obtain rfl := Option.some.inj hlast
  exact ⟨writer, final, halive, hflushes, hrest, System.setHandler_handlers_self _ _ _⟩

/-- A resume is handled to its end. -/
theorem exists_resumes (hhandler : system.handlers socket = some handler)
    (hreader : handler.reader = ⟨.receiving, none⟩) (hv : v ≤ protocolVersion) :
    ∃ after, Resumes settings socket v lastSeq system after := by
  obtain ⟨final, hflushes, hrest⟩ := Handler.exists_flushes_atRest
    (handler.resumed (resumeFrames settings system.database handler.conn.sessionId lastSeq)
      handler.writer)
  obtain ⟨fourth, hfourth, hsteps⟩ := System.steps_of_flushes settings
    (System.setHandler_handlers_self system socket _) hflushes
  rw [System.setHandler_setHandler] at hsteps
  refine ⟨system.setHandler socket final, [], [], [], fourth, ⟨0⟩, 0, by simpa using hfourth, ?_,
    final, System.setHandler_handlers_self _ _ _, hrest⟩
  rw [List.nil_append, System.steps, System.step_receive_resume hhandler hreader hv,
    Option.bind_some, List.nil_append, System.steps,
    System.step_store_resuming (System.setHandler_handlers_self system socket _) rfl,
    Option.bind_some, System.setHandler_setHandler, List.nil_append, System.steps,
    System.step_run_resuming (System.setHandler_handlers_self system socket _) rfl,
    Option.bind_some, System.setHandler_setHandler]
  exact hsteps

/-- An answer that fits the queue is written. -/
theorem Resumes.writes (h : Resumes settings socket v lastSeq system after)
    (hhandler : system.handlers socket = some handler) (hready : handler.Ready settings)
    (hv : v ≤ protocolVersion) {frames : List ServerFrame}
    (hframes : resumeFrames settings system.database handler.conn.sessionId lastSeq = frames)
    (hfits : settings.wsSendQueueSize ≤ 0 ∨ (frames.length : Int) ≤ settings.wsSendQueueSize) :
    ∃ final, after.handlers socket = some final ∧
      final.conn.written = handler.conn.written ++ frames ∧ final.conn.overflowed = false ∧
        final.serve = handler.serve ∧ final.reader = ⟨.receiving, none⟩ ∧
          final.writer = .getting := by
  obtain ⟨writer, final, halive, hflushes, hrest, hfinal⟩ := h.final hhandler hready hv
  have hroom : handler.conn.maxsize ≤ 0 ∨
      (handler.conn.out.length + frames.length : Int) ≤ handler.conn.maxsize := by
    rw [hready.out, hready.maxsize]
    simpa using hfits
  have hsent := Connection.sendAll_of_room hready.overflowed hroom
  rw [hready.out, List.nil_append] at hsent
  unfold Handler.resumed Handler.withWriter at hflushes
  rw [hframes, hsent] at hflushes
  obtain ⟨last, done, rest, hlast, hsplit, rfl⟩ :=
    hflushes.flowing rfl hready.overflowed halive
  obtain ⟨hwriter, hout⟩ := hrest.getting hlast
  have hnil : rest = [] := by simpa [Handler.withWriter] using hout
  rw [hnil, List.append_nil] at hsplit
  subst hsplit
  exact ⟨_, hfinal, rfl, hready.overflowed, rfl, rfl, hwriter⟩

/-- A replay that fits the queue is delivered. -/
theorem Resumes.delivers (h : Resumes settings socket v lastSeq system after)
    (hhandler : system.handlers socket = some handler) (hready : handler.Ready settings)
    (hv : v ≤ protocolVersion)
    (hdistinct : ((sessionRows system.database handler.conn.sessionId).map SessionRow.seq).Nodup)
    (hrange : IsBound lastSeq (settings.wsResumeMaxMessages + 1))
    (hbound : (missedRows system.database handler.conn.sessionId lastSeq).length ≤
      settings.wsResumeMaxMessages)
    (hfits : settings.wsSendQueueSize ≤ 0 ∨
      ((missedRows system.database handler.conn.sessionId lastSeq).length : Int) ≤
        settings.wsSendQueueSize) :
    ∃ final, after.handlers socket = some final ∧
      Delivers system.database lastSeq handler final := by
  have hlength := length_logAfter system.database handler.conn.sessionId lastSeq
  obtain ⟨final, hfinal, hwritten, hover, hserve, hreader, hwriter⟩ := h.writes hhandler hready hv
    (resumeFrames_of_bound hrange hbound) (by rwa [List.length_map, hlength])
  refine ⟨final, hfinal,
    ⟨logAfter system.database handler.conn.sessionId lastSeq, hwritten, ?_, ?_⟩,
    hover, hserve, hreader, hwriter⟩
  · exact Postgres.logAfter_pairwise lastSeq hdistinct
  · intro row
    exact (Postgres.logAfter_perm system.database handler.conn.sessionId lastSeq).mem_iff

/-- A replay that does not fit the queue overflows it, and none of it is written. -/
theorem Resumes.overflows (h : Resumes settings socket v lastSeq system after)
    (hhandler : system.handlers socket = some handler) (hready : handler.Ready settings)
    (hv : v ≤ protocolVersion) (hrange : IsBound lastSeq (settings.wsResumeMaxMessages + 1))
    (hbound : (missedRows system.database handler.conn.sessionId lastSeq).length ≤
      settings.wsResumeMaxMessages)
    (hpositive : 0 < settings.wsSendQueueSize)
    (hfull : settings.wsSendQueueSize <
      (missedRows system.database handler.conn.sessionId lastSeq).length) :
    ∃ final, after.handlers socket = some final ∧ final.conn.overflowed = true ∧
      final.conn.written = handler.conn.written := by
  obtain ⟨writer, final, halive, hflushes, hrest, hfinal⟩ := h.final hhandler hready hv
  rw [resumeFrames_of_bound hrange hbound] at hflushes
  have hlength := length_logAfter system.database handler.conn.sessionId lastSeq
  have hover : (handler.conn.sendAll ((logAfter system.database handler.conn.sessionId
      lastSeq).map replayed)).overflowed = true := by
    refine Connection.sendAll_of_full hready.overflowed ?_ ?_ ?_
    · rw [hready.maxsize]
      exact hpositive
    · rw [hready.out, hready.maxsize, List.length_map, hlength]
      simpa using hfull
    · rw [hready.out, hready.maxsize]
      simpa using hpositive.le
  obtain ⟨hoverflowed, hwritten⟩ := hflushes.overflowed hover
  exact ⟨final, hfinal, hoverflowed, hwritten.trans (Connection.written_sendAll _ _)⟩

/-- A resume whose cursor or limit is no `BIGINT` is written one error and no row. -/
theorem Resumes.refused (h : Resumes settings socket v lastSeq system after)
    (hhandler : system.handlers socket = some handler) (hready : handler.Ready settings)
    (hv : v ≤ protocolVersion) (hrange : ¬IsBound lastSeq (settings.wsResumeMaxMessages + 1))
    {final : Handler} (hfinal : after.handlers socket = some final) :
    ¬Delivers system.database lastSeq handler final := by
  have hfits : settings.wsSendQueueSize ≤ 0 ∨ (1 : Int) ≤ settings.wsSendQueueSize := by omega
  obtain ⟨last, hlast, hwritten, -⟩ :=
    h.writes hhandler hready hv (resumeFrames_of_range hrange) hfits
  obtain rfl : last = final := Option.some.inj (hlast.symm.trans hfinal)
  intro hdelivers
  obtain ⟨rows, hrows, -, -⟩ := hdelivers.written
  exact error_ne_replayed rows (List.append_cancel_left (hwritten.symm.trans hrows))

end Run

/-- Handling a resume within the replay bound comes to an end, and then the missed rows were
delivered if and only if they fit the send queue all at once. The cursor, and the limit of the
scan, must be a `BIGINT`; a larger one is answered with an error. While the resume is handled,
nothing but the writer of the connection moves (`Resumes`). -/
theorem resume_delivers_iff {settings : Settings} {system : System Socket} {socket : Socket}
    {handler : Handler} {v : Int} {lastSeq : ℕ} (hhandler : system.handlers socket = some handler)
    (hready : handler.Ready settings) (hv : v ≤ protocolVersion)
    (hdistinct : ((sessionRows system.database handler.conn.sessionId).map SessionRow.seq).Nodup)
    (hbound : (missedRows system.database handler.conn.sessionId lastSeq).length ≤
      settings.wsResumeMaxMessages) :
    (∃ after, Resumes settings socket v lastSeq system after) ∧
      ∀ after, Resumes settings socket v lastSeq system after →
        ((∃ final, after.handlers socket = some final ∧
            Delivers system.database lastSeq handler final) ↔
          IsBound lastSeq (settings.wsResumeMaxMessages + 1) ∧
            (settings.wsSendQueueSize ≤ 0 ∨
              ((missedRows system.database handler.conn.sessionId lastSeq).length : Int) ≤
                settings.wsSendQueueSize)) := by
  refine ⟨exists_resumes hhandler hready.reader hv, fun after h ↦ ⟨?_, ?_⟩⟩
  · rintro ⟨final, hfinal, hdelivers⟩
    by_cases hrange : IsBound lastSeq (settings.wsResumeMaxMessages + 1)
    · refine ⟨hrange, ?_⟩
      by_contra hnot
      obtain ⟨hpositive, hfull⟩ := not_or.mp hnot
      obtain ⟨last, hlast, hoverflowed, -⟩ :=
        h.overflows hhandler hready hv hrange hbound (not_le.mp hpositive) (not_le.mp hfull)
      obtain rfl : last = final := Option.some.inj (hlast.symm.trans hfinal)
      have hnone := hdelivers.overflowed
      rw [hoverflowed] at hnone
      exact Bool.noConfusion hnone
    · exact absurd hdelivers (h.refused hhandler hready hv hrange hfinal)
  · rintro ⟨hrange, hfits⟩
    exact h.delivers hhandler hready hv hdistinct hrange hbound hfits

end Resumption

/-! ### A session with a backlog -/

/-- A client connects: its handler has opened the session and reads frames. -/
def connects : List (Event Unit) :=
  [.accept () ⟨1⟩, .store () .serve ⟨0⟩ false, .act () (.runServe false), .act () .runWriter,
    .act () (.runReader 0)]

/-- Jobs are enqueued for its session. -/
def enqueues (count : ℕ) : List (Event Unit) :=
  (List.range count).map fun index ↦
    .job (.insertOrGet ⟨BitVec.ofNat 128 index⟩
      ⟨"solve", .nil, some ⟨1⟩, toString index, 3, 0⟩)

/-- A connection whose session has this many rows, at the default settings. -/
def backlog (count : ℕ) : Option (System Unit) :=
  (System.initial Unit).steps .default (connects ++ enqueues count)

theorem backlog_ready {count : ℕ} {system : System Unit} (h : backlog count = some system) :
    ∃ handler, system.handlers () = some handler ∧ handler.Ready .default ∧
      handler.conn.sessionId = ⟨1⟩ := by
  unfold backlog at h
  rw [System.steps_append] at h
  obtain ⟨connected, hconnected, henqueued⟩ := Option.bind_eq_some_iff.mp h
  have hsame : system.handlers = connected.handlers := by
    clear hconnected h
    unfold enqueues at henqueued
    generalize List.range count = indices at henqueued
    induction indices generalizing connected with
    | nil =>
      have hnone : some connected = some system := henqueued
      rw [Option.some.inj hnone]
    | cons index indices ih =>
      obtain ⟨next, hstep, hrest⟩ := Option.bind_eq_some_iff.mp henqueued
      have hnext : next.handlers = connected.handlers := by rw [← Option.some.inj hstep]
      exact (ih next hrest).trans hnext
  rw [hsame, ← Option.some.inj hconnected]
  exact ⟨_, rfl, ⟨rfl, Or.inr (Or.inl rfl), rfl, rfl, rfl⟩, rfl⟩

/-- The rows of a backlog are numbered from 1. -/
def NumberedFrom1 (system : System Unit) (count : ℕ) : Prop :=
  (missedRows system.database ⟨1⟩ 0).length = count ∧
    (sessionRows system.database ⟨1⟩).map SessionRow.seq = List.range' 1 count

theorem exists_backlog {count : ℕ}
    (h : ((backlog count).map fun system ↦ ((missedRows system.database ⟨1⟩ 0).length,
      (sessionRows system.database ⟨1⟩).map SessionRow.seq)) =
        some (count, List.range' 1 count)) :
    ∃ system handler, backlog count = some system ∧ system.handlers () = some handler ∧
      handler.Ready .default ∧ handler.conn.sessionId = ⟨1⟩ ∧ NumberedFrom1 system count := by
  obtain ⟨system, hsystem, hrows⟩ := Option.map_eq_some_iff.mp h
  obtain ⟨handler, hhandler, hready, hsession⟩ := backlog_ready hsystem
  obtain ⟨hcount, hseqs⟩ := Prod.mk.inj hrows
  exact ⟨system, handler, hsystem, hhandler, hready, hsession, hcount, hseqs⟩

/-- The law at work: a client that has missed two rows. -/
theorem resume_delivers_iff_two :
    ∃ system handler, backlog 2 = some system ∧ system.handlers () = some handler ∧
      (∃ after, Resumes .default () 1 0 system after) ∧
        ∀ after, Resumes .default () 1 0 system after →
          ((∃ final, after.handlers () = some final ∧
              Delivers system.database 0 handler final) ↔
            IsBound 0 (Settings.default.wsResumeMaxMessages + 1) ∧
              (Settings.default.wsSendQueueSize ≤ 0 ∨
                ((missedRows system.database handler.conn.sessionId 0).length : Int) ≤
                  Settings.default.wsSendQueueSize)) := by
  obtain ⟨system, handler, hsystem, hhandler, hready, hsession, hcount, hseqs⟩ :=
    exists_backlog (show _ = some (2, List.range' 1 2) by decide +kernel)
  refine ⟨system, handler, hsystem, hhandler,
    resume_delivers_iff hhandler hready (le_refl 1) ?_ ?_⟩
  · rw [hsession, hseqs]
    exact List.nodup_range'
  · rw [hsession, hcount]
    decide

/-- At the default settings a client that has missed 65 rows is within the replay bound of 200, and
no resume delivers them. -/
theorem resume_overflows :
    ∃ system handler, backlog 65 = some system ∧ system.handlers () = some handler ∧
      handler.Ready .default ∧
      ((sessionRows system.database handler.conn.sessionId).map SessionRow.seq).Nodup ∧
      (missedRows system.database handler.conn.sessionId 0).length ≤
        Settings.default.wsResumeMaxMessages ∧
      (∃ after, Resumes .default () 1 0 system after) ∧
      ∀ after, Resumes .default () 1 0 system after →
        ¬∃ final, after.handlers () = some final ∧
          Delivers system.database 0 handler final := by
  obtain ⟨system, handler, hsystem, hhandler, hready, hsession, hcount, hseqs⟩ :=
    exists_backlog (show _ = some (65, List.range' 1 65) by decide +kernel)
  have hbound : (missedRows system.database handler.conn.sessionId 0).length ≤
      Settings.default.wsResumeMaxMessages := by
    rw [hsession, hcount]
    decide
  refine ⟨system, handler, hsystem, hhandler, hready, ?_, hbound,
    exists_resumes hhandler hready.reader (le_refl 1), ?_⟩
  · rw [hsession, hseqs]
    exact List.nodup_range'
  · rintro after h ⟨final, hfinal, hdelivers⟩
    obtain ⟨last, hlast, hoverflowed, -⟩ :=
      h.overflows hhandler hready (le_refl 1) (by decide) hbound (by decide)
        (by rw [hsession, hcount]; decide)
    obtain rfl : last = final := Option.some.inj (hlast.symm.trans hfinal)
    exact Bool.noConfusion (hoverflowed.symm.trans hdelivers.overflowed)

end Chat

end Abacus
