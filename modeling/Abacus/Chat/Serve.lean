import Abacus.Chat.Written

/-!
# How a connection is closed

`serve` of `core/chat_handler.py` and the close code it passes to `Connection.close`. `ServeMoves`
says once what any step does to `serve`, to the writer and to what decides the code; everything
else here is read off it.

The codes of a run are accounted for (`Accounted`): the restart code is used only after a drain sent
its frame, the overflow code only on a connection that has overflowed, and the error code only when
the session could not be opened or a task failed.
-/

set_option autoImplicit false
set_option relaxedAutoImplicit false

namespace Abacus

/-! ### The connection -/

namespace Connection

/-- What a send leaves of what decides the close code. -/
structure Grows (before after : Connection) : Prop where
  closeCode : after.closeCode = before.closeCode
  overflowed : before.overflowed = true → after.overflowed = true
  sent : ∀ frame ∈ before.sent, frame ∈ after.sent

theorem Grows.refl (conn : Connection) : conn.Grows conn :=
  ⟨rfl, id, fun _ ↦ id⟩

theorem Grows.trans {first second third : Connection} (hfirst : first.Grows second)
    (hsecond : second.Grows third) : first.Grows third where
  closeCode := hsecond.closeCode.trans hfirst.closeCode
  overflowed h := hsecond.overflowed (hfirst.overflowed h)
  sent frame h := hsecond.sent frame (hfirst.sent frame h)

theorem closeCode_enqueue (conn : Connection) (item : QueueItem) :
    (conn.enqueue item).closeCode = conn.closeCode := by
  unfold enqueue
  split_ifs <;> rfl

theorem grows_send (conn : Connection) (frame : ServerFrame) : conn.Grows (conn.send frame) where
  closeCode := by
    unfold send
    dsimp only
    split_ifs
    · rfl
    · rw [closeCode_enqueue]
  overflowed h := overflowed_send h frame
  sent other h := by
    rw [sent_send]
    exact List.mem_append_left _ h

theorem grows_sendAll (conn : Connection) (frames : List ServerFrame) :
    conn.Grows (conn.sendAll frames) := by
  induction frames generalizing conn with
  | nil => exact .refl conn
  | cons frame frames ih => exact (conn.grows_send frame).trans (ih (conn.send frame))

theorem grows_next (conn : Connection) : conn.Grows (Writer.next conn).1 := by
  unfold Writer.next
  split
  · exact .refl conn
  · exact ⟨rfl, id, fun _ ↦ id⟩
  · split_ifs
    · exact ⟨rfl, id, fun _ ↦ id⟩
    · exact ⟨rfl, id, fun _ ↦ id⟩

end Connection

/-- A writer at work has been made and has not raised. -/
theorem Writer.Alive.ne {writer : Writer} (h : writer.Alive) :
    writer ≠ .absent ∧ writer ≠ .raised := by
  obtain rfl | rfl | ⟨frame, rfl⟩ := h <;> simp

namespace Chat

/-- The frame that a drain sends. -/
def goingAway : ServerFrame :=
  .error .goingAway "server is shutting down" true

/-! ### What a step does to `serve` -/

namespace Handler

/-- A step beside `serve` and the writer. -/
structure Aside (handler after : Handler) : Prop where
  serve : after.serve.place = handler.serve.place
  writer : after.writer = handler.writer
  conn : handler.conn.Grows after.conn
  failed : handler.reader.place = .ended true → after.reader.place = .ended true

/-- What a step does to `serve`, the writer and what decides the close code. -/
inductive ServeMoves (handler : Handler) : Handler → Prop
  | aside {after : Handler} (haside : handler.Aside after) : ServeMoves handler after
  | drains :
    ServeMoves handler
      { handler with conn := handler.conn.requestClose wsServiceRestart (some goingAway) }
  | writes (halive : handler.writer.Alive) : ServeMoves handler handler.advanceWriter
  | peerGone (frame : ServerFrame) (hwriting : handler.writer = .writing frame) :
    ServeMoves handler { handler with writer := .returned wsNormal }
  | writeRaises (frame : ServerFrame) (hwriting : handler.writer = .writing frame) :
    ServeMoves handler { handler with writer := .raised }
  | opens (hopening : handler.serve.place = .opening) :
    ServeMoves handler
      ({ handler with writer := .starting, reader := ⟨.starting, none⟩ }.setServe .waiting)
  | notOpened (hopening : handler.serve.place = .opening) :
    ServeMoves handler (handler.setServe (.closing wsInternalError))
  | notServed (hopening : handler.serve.place = .opening) :
    ServeMoves handler (handler.setServe .ended)
  | stops (writerLast : Bool) (hwaiting : handler.serve.place = .waiting) :
    ServeMoves handler (handler.cancelBoth.setServe (.stopping (handler.closeCode writerLast)))
  | unwinds
    (hserved : handler.serve.place = .waiting ∨ ∃ code, handler.serve.place = .stopping code) :
    ServeMoves handler (handler.cancelBoth.setServe .unwinding)
  | again (hunwinding : handler.serve.place = .unwinding) : ServeMoves handler handler.cancelBoth
  | closes (code : ℕ) (hstopping : handler.serve.place = .stopping code) :
    ServeMoves handler (handler.setServe (.closing code))
  | unwound (hunwinding : handler.serve.place = .unwinding) :
    ServeMoves handler (handler.setServe .ended)
  | closed (code : ℕ) (hclosing : handler.serve.place = .closing code) :
    ServeMoves handler (handler.setServe .ended)

variable {settings : Settings} {handler after : Handler} {action : Action}

namespace Aside

/-- A step that leaves the reader. -/
theorem of_eq (hserve : after.serve.place = handler.serve.place)
    (hwriter : after.writer = handler.writer) (hconn : handler.conn.Grows after.conn)
    (hreader : after.reader.place = handler.reader.place) : handler.Aside after :=
  ⟨hserve, hwriter, hconn, hreader.trans⟩

/-- A step of a reader that is not over. -/
theorem of_running (hserve : after.serve.place = handler.serve.place)
    (hwriter : after.writer = handler.writer) (hconn : handler.conn.Grows after.conn)
    (hrunning : handler.reader.place.finished = false) : handler.Aside after := by
  refine ⟨hserve, hwriter, hconn, fun hfailed ↦ ?_⟩
  rw [hfailed] at hrunning
  exact Bool.noConfusion hrunning

end Aside

/-- Every step does one of these. -/
theorem step_moves (h : handler.step settings action = some after) : handler.ServeMoves after := by
  cases step_branch h with
  | invalid | newer | pings | refuses =>
    exact .aside (.of_eq rfl rfl (handler.conn.grows_send _) rfl)
  | resumes _ _ hreader | submits _ _ hreader | receives _ hreader | gathers _ _ hreader
  | conflicts _ _ _ hreader | neverRead _ hreader | disconnects _ hreader =>
    exact .aside (.of_running rfl rfl (.refl _) (by rw [hreader]; rfl))
  | stopped _ _ hreader _ _ hrunning =>
    exact .aside (.of_running rfl rfl (.refl _) (by rw [hreader]; exact hrunning))
  | stored _ _ _ hreader =>
    refine .aside (.of_running rfl rfl (.refl _) ?_)
    rcases hreader with hreader | hreader <;> (rw [hreader]; rfl)
  | found _ _ _ hreader =>
    refine .aside (.of_running rfl rfl (handler.conn.grows_send _) ?_)
    rcases hreader with hreader | hreader <;> (rw [hreader]; rfl)
  | notStored _ _ _ _ hreader hplace =>
    refine .aside (.of_running rfl rfl (handler.conn.grows_send _) ?_)
    rw [hreader]
    rcases hplace with rfl | rfl | ⟨recorded, rfl⟩ <;> rfl
  | starts _ _ _ _ hreader | tooOld _ _ _ hreader | notReplayed _ _ _ hreader =>
    exact .aside (.of_running rfl rfl (handler.conn.grows_send _) (by rw [hreader]; rfl))
  | replays _ _ _ hreader =>
    exact .aside (.of_running rfl rfl (handler.conn.grows_sendAll _) (by rw [hreader]; rfl))
  | responds | runs => exact .aside (.of_eq rfl rfl (handler.conn.grows_sendAll _) rfl)
  | finishes | cancelled => exact .aside (.of_eq rfl rfl (.refl _) rfl)
  | advances hready => exact .writes (hready.imp_right Or.inl)
  | accepted frame hwriting => exact .writes (Or.inr (Or.inr ⟨frame, hwriting⟩))
  | peerGone frame hwriting => exact .peerGone frame hwriting
  | writeRaises frame hwriting => exact .writeRaises frame hwriting
  | drains => exact .drains
  | opens _ hopening => exact .opens hopening
  | notOpened _ hopening => exact .notOpened hopening
  | notServed _ hopening => exact .notServed hopening
  | stops writerLast hwaiting => exact .stops writerLast hwaiting
  | unwinds _ hwaiting => exact .unwinds (Or.inl hwaiting)
  | closes _ code hstopping => exact .closes code hstopping
  | unwound _ hunwinding => exact .unwound hunwinding
  | closed _ code hclosing => exact .closed code hclosing
  | interrupted code hstopping => exact .unwinds (Or.inr ⟨code, hstopping⟩)
  | again hunwinding => exact .again hunwinding

/-! ### What a close code stands for -/

/-- The codes that the writer returns. -/
def Told (handler : Handler) (code : ℕ) : Prop :=
  code = wsNormal ∨ code = wsServiceRestart ∧ goingAway ∈ handler.conn.sent ∨
    code = wsTryAgainLater ∧ handler.conn.overflowed = true

/-- The session was not opened, or a task failed. -/
def Broken (handler : Handler) : Prop :=
  handler.writer = .absent ∨ handler.writer = .raised ∨ handler.reader.place = .ended true

/-- The codes of `serve`. -/
def ClosesWith (handler : Handler) (code : ℕ) : Prop :=
  handler.Told code ∨ code = wsInternalError ∧ handler.Broken

/-- The code of a connection, of its writer and of `serve` are accounted for. -/
structure Accounted (handler : Handler) : Prop where
  conn : handler.Told handler.conn.closeCode
  writer : ∀ code, handler.writer = .returned code → handler.Told code
  serve : ∀ code, handler.serve.place = .stopping code ∨ handler.serve.place = .closing code →
    handler.ClosesWith code
  absent : handler.serve.place = .opening → handler.writer = .absent

theorem Told.grows {code : ℕ} (h : handler.Told code) (hconn : handler.conn.Grows after.conn) :
    after.Told code := by
  rcases h with hnormal | ⟨hcode, hsent⟩ | ⟨hcode, hover⟩
  · exact Or.inl hnormal
  · exact Or.inr (Or.inl ⟨hcode, hconn.sent _ hsent⟩)
  · exact Or.inr (Or.inr ⟨hcode, hconn.overflowed hover⟩)

/-- A writer that is cancelled is left as it is when it is over or was never made. -/
theorem cancelBoth_writer (handler : Handler) : handler.cancelBoth.writer =
    if handler.writer = .absent ∨ handler.writer.finished = true then handler.writer
    else .cancelled := by
  have hreader : ∀ other : Handler, other.cancelReader.writer = other.writer := by
    intro other
    obtain hsame | ⟨-, hcancel⟩ | hcancel := cancelReader_cases other
    · rw [hsame]
    · rw [hcancel]
      rfl
    · rw [hcancel]
  rw [cancelBoth, hreader]
  unfold cancelWriter
  split
  · next habsent => rw [if_pos (Or.inl habsent)]
  · next habsent =>
    split_ifs with hfinished hboth hboth
    · rfl
    · exact absurd (Or.inr hfinished) hboth
    · exact absurd hboth (not_or.mpr ⟨habsent, hfinished⟩)
    · rfl

theorem cancelBoth_reader (handler : Handler) :
    handler.cancelBoth.reader.place = handler.reader.place := by
  obtain ⟨writer, tasks, pending, hcancel⟩ := handler.cancelBoth_eq
  rw [hcancel]

theorem cancelBoth_serve (handler : Handler) : handler.cancelBoth.serve = handler.serve := by
  obtain ⟨writer, tasks, pending, hcancel⟩ := handler.cancelBoth_eq
  rw [hcancel]

/-- What has gone wrong stays so when the tasks are cancelled. -/
theorem Broken.cancelBoth (h : handler.Broken) (hsame : after.writer = handler.cancelBoth.writer)
    (hreader : after.reader.place = handler.reader.place) : after.Broken := by
  rcases h with habsent | hraised | hfailed
  · left
    rw [hsame, cancelBoth_writer, if_pos (Or.inl habsent), habsent]
  · right
    left
    rw [hsame, cancelBoth_writer, if_pos (Or.inr (by rw [hraised]; rfl)), hraised]
  · exact Or.inr (Or.inr (hreader.trans hfailed))

/-- A code that a cancelled writer has returned, it had returned before. -/
theorem returned_of_cancelBoth {code : ℕ} (h : handler.cancelBoth.writer = .returned code) :
    handler.writer = .returned code := by
  rw [cancelBoth_writer] at h
  split_ifs at h
  exact h

namespace Accounted

theorem new (settings : Settings) (sessionId : Uuid) :
    (Handler.new settings sessionId).Accounted := by
  constructor <;> simp [Handler.new, Connection.new, Told]

/-- A step that leaves `serve` and the writer. -/
theorem aside (h : handler.Accounted) (haside : handler.Aside after) : after.Accounted where
  conn := by
    rw [haside.conn.closeCode]
    exact h.conn.grows haside.conn
  writer code hreturned := by
    rw [haside.writer] at hreturned
    exact (h.writer code hreturned).grows haside.conn
  serve code hplace := by
    rw [haside.serve] at hplace
    rcases h.serve code hplace with htold | ⟨hcode, hbroken⟩
    · exact Or.inl (htold.grows haside.conn)
    · refine Or.inr ⟨hcode, ?_⟩
      rcases hbroken with habsent | hraised | hfailed
      · exact Or.inl (haside.writer.trans habsent)
      · exact Or.inr (Or.inl (haside.writer.trans hraised))
      · exact Or.inr (Or.inr (haside.failed hfailed))
  absent hopening := by
    rw [haside.serve] at hopening
    exact haside.writer.trans (h.absent hopening)

/-- A step of a writer that is running. -/
theorem writes (h : handler.Accounted) (halive : handler.writer.Alive)
    (hserve : after.serve = handler.serve) (hreader : after.reader = handler.reader)
    (hconn : handler.conn.Grows after.conn)
    (hreturned : ∀ code, after.writer = .returned code → after.Told code) : after.Accounted where
  conn := by
    rw [hconn.closeCode]
    exact h.conn.grows hconn
  writer := hreturned
  serve code hplace := by
    rw [hserve] at hplace
    rcases h.serve code hplace with htold | ⟨hcode, habsent | hraised | hfailed⟩
    · exact Or.inl (htold.grows hconn)
    · exact absurd habsent halive.ne.1
    · exact absurd hraised halive.ne.2
    · exact Or.inr ⟨hcode, Or.inr (Or.inr (by rw [hreader]; exact hfailed))⟩
  absent hopening := by
    rw [hserve] at hopening
    exact absurd (h.absent hopening) halive.ne.1

/-- A step that cancels both tasks. -/
theorem cancels (h : handler.Accounted) (hconn : after.conn = handler.conn)
    (hwriter : after.writer = handler.cancelBoth.writer)
    (hserve : ∀ code, after.serve.place = .stopping code ∨ after.serve.place = .closing code →
      after.ClosesWith code)
    (hopening : after.serve.place ≠ .opening) : after.Accounted where
  conn := by
    have hgrows : handler.conn.Grows after.conn := hconn ▸ .refl _
    rw [hconn]
    exact h.conn.grows hgrows
  writer code hreturned := by
    rw [hwriter] at hreturned
    exact (h.writer code (returned_of_cancelBoth hreturned)).grows (hconn ▸ .refl _)
  serve := hserve
  absent hplace := absurd hplace hopening

/-- A step that ends `serve`. -/
theorem ends (h : handler.Accounted) : (handler.setServe .ended).Accounted := by
  refine ⟨h.conn, h.writer, fun code hplace ↦ ?_, fun hplace ↦ ServePlace.noConfusion hplace⟩
  rcases hplace with hplace | hplace <;> exact ServePlace.noConfusion hplace

/-- The code that `serve` reads of its tasks. -/
theorem closeCode (h : handler.Accounted) (writerLast : Bool) :
    handler.ClosesWith (handler.closeCode writerLast) := by
  have hnormal : handler.ClosesWith wsNormal := Or.inl (Or.inl rfl)
  have hfailed (hplace : handler.reader.place = .ended true) :
      handler.ClosesWith wsInternalError := Or.inr ⟨rfl, Or.inr (Or.inr hplace)⟩
  have hraised (hwriter : handler.writer = .raised) : handler.ClosesWith wsInternalError :=
    Or.inr ⟨rfl, Or.inr (Or.inl hwriter)⟩
  have hreturned (code : ℕ) (hwriter : handler.writer = .returned code) :
      handler.ClosesWith code := Or.inl (h.writer code hwriter)
  unfold Handler.closeCode
  dsimp only
  split_ifs
  -- The last task that is over decides, and a task that says nothing leaves the code as it was.
  · split
    · next hwriter => exact hreturned _ hwriter
    · next hwriter => exact hraised hwriter
    · split
      · next hplace => exact hfailed hplace
      · exact hnormal
  · split
    · next hplace => exact hfailed hplace
    · split
      · next hwriter => exact hreturned _ hwriter
      · next hwriter => exact hraised hwriter
      · exact hnormal

/-- The code that a running writer returns. -/
theorem returned (h : handler.Accounted) {code : ℕ}
    (hreturned : (Writer.next handler.conn).2 = .returned code) : handler.Told code := by
  unfold Writer.next at hreturned
  split at hreturned
  · exact Writer.noConfusion hreturned
  · exact Writer.returned.inj hreturned ▸ h.conn
  · split_ifs at hreturned with hover
    exact Or.inr (Or.inr ⟨(Writer.returned.inj hreturned).symm, hover⟩)

/-- Every step keeps the codes accounted for. -/
theorem moves (h : handler.Accounted) (hmoves : handler.ServeMoves after) : after.Accounted := by
  cases hmoves with
  | aside haside => exact h.aside haside
  | drains =>
    have hgrows : ∀ frame ∈ handler.conn.sent, frame ∈
        (handler.conn.requestClose wsServiceRestart (some goingAway)).sent := by
      intro frame hframe
      rw [Connection.sent_requestClose]
      exact List.mem_append_left _ hframe
    have hover : handler.conn.overflowed = true →
        (handler.conn.requestClose wsServiceRestart (some goingAway)).overflowed = true :=
      fun h ↦ Connection.overflowed_requestClose h wsServiceRestart (some goingAway)
    have htold : ∀ code, handler.Told code →
        ({ handler with conn := handler.conn.requestClose wsServiceRestart (some goingAway) } :
          Handler).Told code := by
      rintro code (hnormal | ⟨hcode, hsent⟩ | ⟨hcode, hoverflowed⟩)
      · exact Or.inl hnormal
      · exact Or.inr (Or.inl ⟨hcode, hgrows _ hsent⟩)
      · exact Or.inr (Or.inr ⟨hcode, hover hoverflowed⟩)
    refine ⟨Or.inr (Or.inl ⟨?_, ?_⟩), fun code hreturned ↦ htold code (h.writer code hreturned),
      fun code hplace ↦ ?_, h.absent⟩
    · exact (Connection.closeCode_enqueue _ _).trans rfl
    · rw [Connection.sent_requestClose]
      exact List.mem_append_right _ List.mem_cons_self
    · exact (h.serve code hplace).imp (htold code) fun hbroken ↦ hbroken
  | writes halive =>
    refine h.writes halive rfl rfl handler.conn.grows_next fun code hreturned ↦ ?_
    exact (h.returned hreturned).grows handler.conn.grows_next
  | peerGone frame hwriting =>
    refine h.writes (Or.inr (Or.inr ⟨frame, hwriting⟩)) rfl rfl (.refl _) fun code hreturned ↦ ?_
    exact Or.inl (Writer.returned.inj hreturned).symm
  | writeRaises frame hwriting =>
    refine h.writes (Or.inr (Or.inr ⟨frame, hwriting⟩)) rfl rfl (.refl _) fun code hreturned ↦ ?_
    exact Writer.noConfusion hreturned
  | opens hopening =>
    refine ⟨h.conn, fun code hreturned ↦ Writer.noConfusion hreturned, fun code hplace ↦ ?_,
      fun hplace ↦ ServePlace.noConfusion hplace⟩
    rcases hplace with hplace | hplace <;> exact ServePlace.noConfusion hplace
  | notOpened hopening =>
    refine ⟨h.conn, h.writer, fun code hplace ↦ Or.inr ⟨?_, Or.inl (h.absent hopening)⟩,
      fun hplace ↦ ServePlace.noConfusion hplace⟩
    rcases hplace with hplace | hplace
    · exact ServePlace.noConfusion hplace
    · exact (ServePlace.closing.inj hplace).symm
  | notServed hopening => exact h.ends
  | stops writerLast hwaiting =>
    refine h.cancels handler.cancelBoth_conn rfl (fun code hplace ↦ ?_)
      fun hplace ↦ ServePlace.noConfusion hplace
    rcases hplace with hplace | hplace
    · rw [← ServePlace.stopping.inj hplace]
      refine (h.closeCode writerLast).imp (fun htold ↦ ?_) fun ⟨hcode, hbroken⟩ ↦ ⟨hcode, ?_⟩
      · have hgrows : handler.conn.Grows handler.cancelBoth.conn :=
          handler.cancelBoth_conn ▸ .refl _
        exact htold.grows hgrows
      · exact hbroken.cancelBoth rfl handler.cancelBoth_reader
    · exact ServePlace.noConfusion hplace
  | unwinds hserved =>
    refine h.cancels handler.cancelBoth_conn rfl (fun code hplace ↦ ?_)
      fun hplace ↦ ServePlace.noConfusion hplace
    rcases hplace with hplace | hplace <;> exact ServePlace.noConfusion hplace
  | again hunwinding =>
    have hserve := congrArg Serve.place handler.cancelBoth_serve
    refine h.cancels handler.cancelBoth_conn rfl (fun code hplace ↦ ?_) fun hplace ↦ ?_
    · rw [hserve, hunwinding] at hplace
      rcases hplace with hplace | hplace <;> exact ServePlace.noConfusion hplace
    · rw [hserve, hunwinding] at hplace
      exact ServePlace.noConfusion hplace
  | closes code hstopping =>
    refine ⟨h.conn, h.writer, fun other hplace ↦ ?_, fun hplace ↦ ServePlace.noConfusion hplace⟩
    rcases hplace with hplace | hplace
    · exact ServePlace.noConfusion hplace
    · rw [← ServePlace.closing.inj hplace]
      exact h.serve code (Or.inl hstopping)
  | unwound hunwinding => exact h.ends
  | closed code hclosing => exact h.ends

end Accounted

/-- A reply to a task leaves where everything is. -/
theorem answer_aside (handler : Handler) (reply : Reply) (task : Task) :
    handler.Aside (handler.answer reply task) := by
  cases task <;> exact .of_eq rfl rfl (.refl _) rfl

/-- `serve` closes its connection once, and after that it is over. -/
theorem ServeMoves.closing {code : ℕ} (hmoves : handler.ServeMoves after)
    (hclosing : handler.serve.place = .closing code ∨ handler.serve.place = .ended) :
    after.serve.place = .closing code ∨ after.serve.place = .ended := by
  have hnot : ∀ place, handler.serve.place = place → place ≠ .ended →
      (∀ code, place ≠ .closing code) → False := by
    rintro place rfl hended hother
    exact hclosing.elim (hother code) hended
  cases hmoves with
  | aside haside =>
    rw [haside.serve]
    exact hclosing
  | drains => exact hclosing
  | writes halive => exact hclosing
  | peerGone frame hwriting => exact hclosing
  | writeRaises frame hwriting => exact hclosing
  | opens hopening => exact (hnot _ hopening (by simp) (by simp)).elim
  | notOpened hopening => exact (hnot _ hopening (by simp) (by simp)).elim
  | notServed hopening => exact (hnot _ hopening (by simp) (by simp)).elim
  | stops writerLast hwaiting => exact (hnot _ hwaiting (by simp) (by simp)).elim
  | unwinds hserved =>
    rcases hserved with hwaiting | ⟨stopped, hstopping⟩
    · exact (hnot _ hwaiting (by simp) (by simp)).elim
    · exact (hnot _ hstopping (by simp) (by simp)).elim
  | again hunwinding => exact (hnot _ hunwinding (by simp) (by simp)).elim
  | closes stopped hstopping => exact (hnot _ hstopping (by simp) (by simp)).elim
  | unwound hunwinding => exact (hnot _ hunwinding (by simp) (by simp)).elim
  | closed other hplace => exact Or.inr rfl

end Handler

/-! ### Runs -/

section Runs

variable {Socket : Type} [DecidableEq Socket] {settings : Settings} {system after : System Socket}

/-- The codes of every connection are accounted for. -/
def System.Accounted (system : System Socket) : Prop :=
  ∀ socket handler, system.handlers socket = some handler → handler.Accounted

theorem System.Accounted.step {event : Event Socket} (h : system.Accounted)
    (hstep : system.step settings event = some after) : after.Accounted := by
  intro socket next hnext
  cases System.step_goes hstep hnext with
  | kept hsame => exact h socket next hsame
  | accepted sessionId hnone hnew => exact hnew ▸ .new settings sessionId
  | answered handler reply task hhandler hanswer =>
    exact hanswer ▸ (h socket handler hhandler).aside (handler.answer_aside reply task)
  | stepped handler action hhandler hmoved =>
    exact (h socket handler hhandler).moves (Handler.step_moves hmoved)

theorem System.Run.accounted (h : System.Run settings system) : system.Accounted := by
  refine h.invariant ?_ fun before event next hbefore _ hstep ↦ hbefore.step hstep
  exact fun socket handler hhandler ↦ absurd hhandler (by simp [System.initial])

/-- A connection is being closed with a code, or it was and is over. -/
def System.Closing (system : System Socket) (socket : Socket) (code : ℕ) : Prop :=
  ∃ handler, system.handlers socket = some handler ∧
    (handler.serve.place = .closing code ∨ handler.serve.place = .ended)

theorem System.Closing.step {event : Event Socket} {socket : Socket} {code : ℕ}
    (h : system.Closing socket code) (hstep : system.step settings event = some after) :
    after.Closing socket code := by
  obtain ⟨handler, hhandler, hclosing⟩ := h
  obtain ⟨next, hnext⟩ := System.handler_stays hstep hhandler
  refine ⟨next, hnext, ?_⟩
  have hgoes := System.step_goes hstep hnext
  rw [hhandler] at hgoes
  cases hgoes with
  | kept hsame => exact Option.some.inj hsame ▸ hclosing
  | accepted sessionId hnone hnew => exact absurd hnone (by simp)
  | answered old reply task hold hanswer =>
    obtain rfl := Option.some.inj hold
    exact hanswer ▸ (Handler.ServeMoves.aside (handler.answer_aside reply task)).closing hclosing
  | stepped old action hold hmoved =>
    obtain rfl := Option.some.inj hold
    exact (Handler.step_moves hmoved).closing hclosing

/-- The code with which `serve` closes a connection of a run. It restarts the client only after a
drain sent its frame, turns it away only after an overflow, and reports an error only when the
session was not opened or a task failed; otherwise the close is normal. And it is the only code
that the connection is ever closed with. -/
theorem close_code (hrun : System.Run settings system) {socket : Socket} {handler : Handler}
    {code : ℕ} (hhandler : system.handlers socket = some handler)
    (hclosing : handler.serve.place = .closing code) :
    (code = wsNormal ∨
      code = wsServiceRestart ∧ goingAway ∈ handler.conn.sent ∨
      code = wsTryAgainLater ∧ handler.conn.overflowed = true ∨
      code = wsInternalError ∧ (handler.writer = .absent ∨ handler.writer = .raised ∨
        handler.reader.place = .ended true)) ∧
    ∀ later, System.Reaches settings (fun _ _ ↦ True) system later → later.Closing socket code := by
  constructor
  · rcases (hrun.accounted socket handler hhandler).serve code (Or.inr hclosing) with
      (hnormal | hrestart | hover) | hbroken
    · exact Or.inl hnormal
    · exact Or.inr (Or.inl hrestart)
    · exact Or.inr (Or.inr (Or.inl hover))
    · exact Or.inr (Or.inr (Or.inr hbroken))
  · intro later hlater
    induction hlater with
    | refl => exact ⟨handler, hhandler, Or.inl hclosing⟩
    | tail _ hallows ih =>
      obtain ⟨event, -, hstep⟩ := hallows
      exact ih.step hstep

end Runs

/-- A connection is opened, drained, and closed once its tasks are over. -/
def drained : List (Event ℕ) :=
  [.accept 0 ⟨7⟩, .store 0 .serve ⟨0⟩ false, .act 0 (.runServe true), .act 0 (.runReader 0),
    .act 0 .runWriter, .act 0 .drain, .act 0 .runWriter, .act 0 (.write .accepted),
    .act 0 (.runServe true), .act 0 (.runReader 0), .act 0 (.runServe true)]

/-- The law at work: the drained connection is closed with the restart code. -/
theorem close_code_drained :
    ∃ (system : System ℕ) (handler : Handler), system.handlers 0 = some handler ∧
      handler.serve.place = .closing wsServiceRestart ∧ goingAway ∈ handler.conn.sent ∧
      ∀ later, System.Reaches .default (fun _ _ ↦ True) system later →
        later.Closing 0 wsServiceRestart := by
  obtain ⟨system, hsteps, handler, hhandler, hclosing⟩ : ∃ system,
      (System.initial ℕ).steps .default drained = some system ∧
      ∃ handler, system.handlers 0 = some handler ∧
        handler.serve.place = .closing wsServiceRestart :=
    ⟨_, rfl, _, rfl, rfl⟩
  have hrun : System.Run .default system := System.Run.steps .refl hsteps
  obtain ⟨hcode, hlater⟩ := close_code hrun hhandler hclosing
  refine ⟨system, handler, hhandler, hclosing, ?_, hlater⟩
  simpa [wsServiceRestart, wsNormal, wsTryAgainLater, wsInternalError] using hcode

end Chat

end Abacus
