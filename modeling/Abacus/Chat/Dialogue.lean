import Abacus.Chat.Conversation
import Abacus.Chat.Replay

/-!
# Every frame is answered, in order

`_read_frames` reads one frame, and the next one only when `_dispatch` has returned. What it sends
for a frame is that frame's answer: an error that says what is wrong with it, a `pong`, the log
after its cursor, or an ack (`Responds`). The turns and the drain send frames of their own in
between (`ServerFrame.answers` tells them apart), so the answers of a connection, one after
another, pair up with the frames that came in on it (`Dialogue`).

An answer that says what is in the database was right about it at a moment when that frame had come
in and the next one had not. The last frame may be without an answer: the reader is at it, or was
cancelled at it.
-/

set_option autoImplicit false
set_option relaxedAutoImplicit false

namespace Abacus

/-- Whether a frame answers one that came in. What does not is of a turn or of a drain. -/
def ServerFrame.answers : ServerFrame → Bool
  | .delta _ _ _ => false
  | .done _ _ => false
  | .error .goingAway _ _ => false
  | .error .internal said _ => said ≠ "the turn failed"
  | _ => true

theorem answers_replayed (row : SessionRow) : (replayed row).answers = true := by
  cases row <;> rfl

namespace Chat

open Postgres (ChatMessageRow Database Operation Outcome logAfter messageRow perform
  perform_logSince)

/-! ### The answers -/

/-- A message is stored under a key of a session. -/
def StoredUnder (database : Database) (sessionId : Uuid) (clientMsgId : String)
    (stored : StoredMessage) : Prop :=
  database.row (.clientMessage sessionId clientMsgId) = some stored.messageId ∧
    ∃ row, messageRow database stored.messageId = some row ∧
      row.toMessage stored.messageId = stored

/-- What may answer a frame, over the databases that the reader may have found. -/
inductive Responds (settings : Settings) (sessionId : Uuid) (found : Database → Prop) :
    Inbound → List ServerFrame → Prop
  | invalid (errorCount : ℕ) :
    Responds settings sessionId found (.invalid errorCount)
      [.error .badFrame (toString errorCount ++ " validation error(s)") false]
  | newer (v : Int) (frame : ClientFrame) (hv : protocolVersion < v) :
    Responds settings sessionId found (.valid v frame)
      [.error .unsupportedVersion ("this server speaks v" ++ toString protocolVersion) false]
  | ping (v : Int) (hv : v ≤ protocolVersion) :
    Responds settings sessionId found (.valid v .ping) [.pong]
  | replayed (v : Int) (lastSeq : ℕ) (database : Database) (hv : v ≤ protocolVersion)
    (hfound : found database)
    (hlength : (logAfter database sessionId lastSeq).length ≤ settings.wsResumeMaxMessages) :
    Responds settings sessionId found (.valid v (.resume lastSeq))
      ((logAfter database sessionId lastSeq).map Abacus.replayed)
  | tooOld (v : Int) (lastSeq : ℕ) (database : Database) (hv : v ≤ protocolVersion)
    (hfound : found database)
    (hlength : settings.wsResumeMaxMessages < (logAfter database sessionId lastSeq).length) :
    Responds settings sessionId found (.valid v (.resume lastSeq))
      [.error .resumeTooOld
        ("more than " ++ toString settings.wsResumeMaxMessages ++ " entries since seq " ++
          toString lastSeq) false]
  | notReplayed (v : Int) (lastSeq : ℕ) (hv : v ≤ protocolVersion) :
    Responds settings sessionId found (.valid v (.resume lastSeq))
      [.error .internal "the session could not be replayed" true]
  | tooManyTurns (v : Int) (message : UserMessage) (hv : v ≤ protocolVersion) :
    Responds settings sessionId found (.valid v (.userMessage message))
      [.error .tooManyTurns "too many turns in flight on this connection" true]
  /-- The message is stored as it was sent, and its reply is named. -/
  | stored (v : Int) (message : UserMessage) (stored : StoredMessage) (replyId : Uuid)
    (database : Database) (hv : v ≤ protocolVersion) (hfound : found database)
    (hstored : StoredUnder database sessionId message.clientMsgId stored)
    (htext : stored.text = message.text) :
    Responds settings sessionId found (.valid v (.userMessage message))
      [.ack message.clientMsgId stored.seq stored.messageId (some replyId)]
  /-- A message was stored under the key before. -/
  | known (v : Int) (message : UserMessage) (stored : StoredMessage) (reply : Option Uuid)
    (database : Database) (hv : v ≤ protocolVersion) (hfound : found database)
    (hstored : StoredUnder database sessionId message.clientMsgId stored) :
    Responds settings sessionId found (.valid v (.userMessage message))
      [.ack message.clientMsgId stored.seq stored.messageId reply]
  | notStored (v : Int) (message : UserMessage) (hv : v ≤ protocolVersion) :
    Responds settings sessionId found (.valid v (.userMessage message))
      [.error .internal "the message was not stored" true]

/-- The frames that came in, and what answered them, one after another. `found` says of a database
that it was there when just these frames had come in. -/
inductive Dialogue (settings : Settings) (sessionId : Uuid)
    (found : List Inbound → Database → Prop) : List Inbound → List ServerFrame → Prop
  | nil : Dialogue settings sessionId found [] []
  | answered {heard : List Inbound} {said frames : List ServerFrame} (inbound : Inbound)
    (hearlier : Dialogue settings sessionId found heard said)
    (hresponds : Responds settings sessionId (found (heard ++ [inbound])) inbound frames) :
    Dialogue settings sessionId found (heard ++ [inbound]) (said ++ frames)

section Monotone

variable {settings : Settings} {sessionId : Uuid}

theorem Responds.mono {found more : Database → Prop} {inbound : Inbound}
    {frames : List ServerFrame} (h : Responds settings sessionId found inbound frames)
    (hmore : ∀ database, found database → more database) :
    Responds settings sessionId more inbound frames := by
  cases h with
  | invalid errorCount => exact .invalid errorCount
  | newer v frame hv => exact .newer v frame hv
  | ping v hv => exact .ping v hv
  | replayed v lastSeq database hv hfound hlength =>
    exact .replayed v lastSeq database hv (hmore database hfound) hlength
  | tooOld v lastSeq database hv hfound hlength =>
    exact .tooOld v lastSeq database hv (hmore database hfound) hlength
  | notReplayed v lastSeq hv => exact .notReplayed v lastSeq hv
  | tooManyTurns v message hv => exact .tooManyTurns v message hv
  | stored v message stored replyId database hv hfound hstored htext =>
    exact .stored v message stored replyId database hv (hmore database hfound) hstored htext
  | known v message stored reply database hv hfound hstored =>
    exact .known v message stored reply database hv (hmore database hfound) hstored
  | notStored v message hv => exact .notStored v message hv

theorem Dialogue.mono {found more : List Inbound → Database → Prop} {heard : List Inbound}
    {said : List ServerFrame} (h : Dialogue settings sessionId found heard said)
    (hmore : ∀ heard database, found heard database → more heard database) :
    Dialogue settings sessionId more heard said := by
  induction h with
  | nil => exact .nil
  | answered inbound hearlier hresponds ih => exact ih.answered inbound (hresponds.mono (hmore _))

end Monotone

/-! ### What the reader is at -/

/-- The frames that came in and have no answer yet. -/
def ReaderPlace.Owes : ReaderPlace → List Inbound → Prop
  | .recording message, owed => ∃ v ≤ protocolVersion, owed = [.valid v (.userMessage message)]
  | .recovering message, owed => ∃ v ≤ protocolVersion, owed = [.valid v (.userMessage message)]
  | .opening message _, owed => ∃ v ≤ protocolVersion, owed = [.valid v (.userMessage message)]
  | .resuming lastSeq, owed => ∃ v ≤ protocolVersion, owed = [.valid v (.resume lastSeq)]
  | .stopping _, owed => owed.length ≤ 1
  | .ended _, owed => owed.length ≤ 1
  | _, owed => owed = []

theorem ReaderPlace.Owes.length_le {place : ReaderPlace} {owed : List Inbound}
    (h : place.Owes owed) : owed.length ≤ 1 := by
  cases place with
  | recording message | recovering message | resuming lastSeq =>
    obtain ⟨v, -, rfl⟩ := h
    exact le_refl 1
  | opening message recorded =>
    obtain ⟨v, -, rfl⟩ := h
    exact le_refl 1
  | stopping failed | ended failed => exact h
  | absent | starting | receiving =>
    obtain rfl : owed = [] := h
    exact Nat.zero_le 1

/-- What the reader has found out, in a database that was there. -/
structure Handler.Finds (settings : Settings) (found : Database → Prop) (handler : Handler) :
    Prop where
  log : ∀ lastSeq missed, handler.reader = ⟨.resuming lastSeq, some (.returned (.log missed))⟩ →
    ∃ database, found database ∧ missed = (logAfter database handler.conn.sessionId lastSeq).take
      (settings.wsResumeMaxMessages + 1)
  recorded : ∀ message recorded,
    handler.reader = ⟨.recording message, some (.returned (.recorded recorded))⟩ ∨
      handler.reader = ⟨.recovering message, some (.returned (.recorded recorded))⟩ →
    ∃ database, found database ∧
      StoredUnder database handler.conn.sessionId message.clientMsgId recorded.message ∧
        (recorded.created = true → recorded.message.text = message.text)
  opening : ∀ message recorded, handler.reader.place = .opening message recorded →
    handler.reader.Owed → ∃ database, found database ∧
      StoredUnder database handler.conn.sessionId message.clientMsgId recorded.message ∧
        recorded.message.text = message.text

namespace Handler

/-! ### What a step says to a frame -/

/-- The frame that comes in with an action. -/
def Action.heard : Action → List Inbound
  | .receive inbound => [inbound]
  | _ => []

/-- What a step does about the frames that came in: it answers none, or the last one, which was the
only one without an answer, and the reader waits for the next. -/
inductive AnswerStep (settings : Settings) (handler : Handler) (action : Action) (after : Handler) :
    Prop
  | silent (frames : List ServerFrame) (hsent : after.conn.sent = handler.conn.sent ++ frames)
    (hnone : ∀ frame ∈ frames, frame.answers = false)
    (howes : ∀ owed, handler.reader.place.Owes owed →
      after.reader.place.Owes (owed ++ action.heard)) : AnswerStep settings handler action after
  | answers (frames : List ServerFrame) (hsent : after.conn.sent = handler.conn.sent ++ frames)
    (hall : ∀ frame ∈ frames, frame.answers = true) (hafter : after.reader.place = .receiving)
    (hresponds : ∀ owed, handler.reader.place.Owes owed → ∃ inbound,
      owed ++ action.heard = [inbound] ∧ ∀ found, handler.Finds settings found →
        Responds settings handler.conn.sessionId found inbound frames) :
    AnswerStep settings handler action after

namespace AnswerStep

variable {settings : Settings} {handler after : Handler} {action : Action}

/-- A step that sends one frame that answers nothing, and leaves the reader. -/
theorem sends {frame : ServerFrame} (hsent : after.conn.sent = handler.conn.sent ++ [frame])
    (hnone : frame.answers = false) (hplace : after.reader.place = handler.reader.place)
    (hheard : action.heard = []) : AnswerStep settings handler action after := by
  refine .silent [frame] hsent (by simpa using hnone) fun owed howes ↦ ?_
  rwa [hplace, hheard, List.append_nil]

/-- A step that sends nothing. -/
theorem still (hsent : after.conn.sent = handler.conn.sent)
    (howes : ∀ owed, handler.reader.place.Owes owed →
      after.reader.place.Owes (owed ++ action.heard)) : AnswerStep settings handler action after :=
  .silent [] (by rw [hsent, List.append_nil]) (fun _ hframe ↦ absurd hframe List.not_mem_nil) howes

/-- A step that sends nothing and leaves the reader. -/
theorem of_place (hsent : after.conn.sent = handler.conn.sent)
    (hplace : after.reader.place = handler.reader.place) (hheard : action.heard = []) :
    AnswerStep settings handler action after :=
  .still hsent fun owed howes ↦ by rwa [hplace, hheard, List.append_nil]

/-- A reader that is over gives up the frame it is at. -/
theorem stops {failed : Bool} (hsent : after.conn.sent = handler.conn.sent)
    (hplace : after.reader.place = .stopping failed ∨ after.reader.place = .ended failed)
    (hheard : action.heard = []) : AnswerStep settings handler action after := by
  refine .still hsent fun owed howes ↦ ?_
  rw [hheard, List.append_nil]
  rcases hplace with hplace | hplace
  · rw [hplace]
    exact howes.length_le
  · rw [hplace]
    exact howes.length_le

/-- A frame that is answered as it comes in. -/
theorem atOnce {inbound : Inbound} {frame : ServerFrame}
    (hplace : handler.reader.place = .receiving)
    (hconn : after.conn = handler.conn.send frame) (hanswers : frame.answers = true)
    (hafter : after.reader = handler.reader)
    (hresponds : ∀ found, Responds settings handler.conn.sessionId found inbound [frame]) :
    AnswerStep settings handler (.receive inbound) after := by
  refine .answers [frame] (by rw [hconn, Connection.sent_send]) (by simpa using hanswers)
    (by rw [hafter, hplace]) fun owed howes ↦ ?_
  rw [hplace] at howes
  obtain rfl : owed = [] := howes
  exact ⟨inbound, rfl, fun found _ ↦ hresponds found⟩

/-- The submission that the reader is at is answered. -/
theorem submission (message : UserMessage) {frame : ServerFrame}
    (hplace : ∀ owed, handler.reader.place.Owes owed →
      ∃ v ≤ protocolVersion, owed = [.valid v (.userMessage message)])
    (hconn : after.conn = handler.conn.send frame) (hanswers : frame.answers = true)
    (hafter : after.reader.place = .receiving) (hheard : action.heard = [])
    (hresponds : ∀ v ≤ protocolVersion, ∀ found, handler.Finds settings found →
      Responds settings handler.conn.sessionId found (.valid v (.userMessage message)) [frame]) :
    AnswerStep settings handler action after := by
  refine .answers [frame] (by rw [hconn, Connection.sent_send]) (by simpa using hanswers) hafter
    fun owed howes ↦ ?_
  obtain ⟨v, hv, rfl⟩ := hplace owed howes
  exact ⟨_, by rw [hheard, List.append_nil], hresponds v hv⟩

end AnswerStep

variable {settings : Settings} {handler after : Handler} {action : Action}

theorem stopReader_answers (failed : Bool) (hheard : action.heard = []) :
    AnswerStep settings handler action (handler.stopReader failed) := by
  have hplace : (handler.stopReader failed).reader.place = .stopping failed ∨
      (handler.stopReader failed).reader.place = .ended failed := by
    simp only [stopReader, setReader]
    split_ifs
    · exact Or.inr rfl
    · exact Or.inl rfl
  exact .stops rfl hplace hheard

theorem cancelBoth_answers (hconn : after.conn = handler.cancelBoth.conn)
    (hreader : after.reader = handler.cancelBoth.reader) (hheard : action.heard = []) :
    AnswerStep settings handler action after := by
  obtain ⟨writer, tasks, pending, hboth⟩ := handler.cancelBoth_eq
  rw [hboth] at hconn hreader
  exact .of_place (congrArg Connection.sent hconn) (by rw [hreader]) hheard

/-- A turn answers no frame. -/
theorem TurnBranch.answers {turn moved : Turn} {input : Option TurnInput}
    {frames : List ServerFrame} (h : TurnBranch turn input moved frames) :
    ∀ frame ∈ frames, frame.answers = false := by
  cases h with
  | chunk | completed | marked => simp [ServerFrame.answers]
  | _ => simp

/-- The rows that `log_since` returned are too many. -/
theorem tooOld_answers {lastSeq : ℕ} {missed : List SessionRow}
    (hreader : handler.reader = ⟨.resuming lastSeq, some (.returned (.log missed))⟩)
    (hmissed : settings.wsResumeMaxMessages < missed.length) (hheard : action.heard = []) :
    AnswerStep settings handler action ((handler.send (.error .resumeTooOld
      ("more than " ++ toString settings.wsResumeMaxMessages ++ " entries since seq " ++
        toString lastSeq) false)).setReader .receiving) := by
  refine .answers _ (Connection.sent_send handler.conn _) ?_ rfl fun owed howes ↦ ?_
  · intro frame hframe
    rw [List.mem_singleton.mp hframe]
    rfl
  · rw [hreader] at howes
    obtain ⟨v, hv, rfl⟩ := howes
    refine ⟨_, by rw [hheard, List.append_nil], fun found hfinds ↦ ?_⟩
    obtain ⟨database, hfound, rfl⟩ := hfinds.log lastSeq missed hreader
    rw [List.length_take] at hmissed
    exact .tooOld v lastSeq database hv hfound (by omega)

/-- The rows that `log_since` returned are replayed. -/
theorem replays_answers {lastSeq : ℕ} {missed : List SessionRow}
    (hreader : handler.reader = ⟨.resuming lastSeq, some (.returned (.log missed))⟩)
    (hmissed : missed.length ≤ settings.wsResumeMaxMessages) (hheard : action.heard = []) :
    AnswerStep settings handler action
      ({ handler with conn := handler.conn.sendAll (missed.map replayed) }.setReader
        .receiving) := by
  refine .answers _ (Connection.sent_sendAll handler.conn _) ?_ rfl fun owed howes ↦ ?_
  · intro frame hframe
    obtain ⟨row, -, rfl⟩ := List.mem_map.mp hframe
    exact answers_replayed row
  · rw [hreader] at howes
    obtain ⟨v, hv, rfl⟩ := howes
    refine ⟨_, by rw [hheard, List.append_nil], fun found hfinds ↦ ?_⟩
    obtain ⟨database, hfound, rfl⟩ := hfinds.log lastSeq missed hreader
    rw [List.length_take] at hmissed
    rw [List.take_of_length_le (by omega)]
    exact .replayed v lastSeq database hv hfound (by omega)

/-- The `except` around `_resume` answers the frame. -/
theorem notReplayed_answers {lastSeq : ℕ} {reply : Reply}
    (hreader : handler.reader = ⟨.resuming lastSeq, some reply⟩) (hheard : action.heard = []) :
    AnswerStep settings handler action handler.notReplayed := by
  refine .answers _ (Connection.sent_send handler.conn _) ?_ rfl fun owed howes ↦ ?_
  · intro frame hframe
    rw [List.mem_singleton.mp hframe]
    rfl
  · rw [hreader] at howes
    obtain ⟨v, hv, rfl⟩ := howes
    exact ⟨_, by rw [hheard, List.append_nil], fun found _ ↦ .notReplayed v lastSeq hv⟩

/-- Every step of a handler is one of these. -/
theorem step_answers (hends : handler.Ends) (h : handler.step settings action = some after) :
    AnswerStep settings handler action after := by
  have hnone {owed : List Inbound} (hreader : handler.reader = ⟨.receiving, none⟩)
      (howes : handler.reader.place.Owes owed) : owed = [] := by
    rwa [hreader] at howes
  have hsubmitted {message : UserMessage} {recorded : RecordedUserMessage}
      (hreader : handler.reader = ⟨.recording message, some (.returned (.recorded recorded))⟩ ∨
        handler.reader = ⟨.recovering message, some (.returned (.recorded recorded))⟩)
      (owed : List Inbound) (howes : handler.reader.place.Owes owed) :
      ∃ v ≤ protocolVersion, owed = [.valid v (.userMessage message)] := by
    rcases hreader with hreader | hreader
    · rwa [hreader] at howes
    · rwa [hreader] at howes
  cases step_branch h with
  | invalid errorCount hreader =>
    exact .atOnce (congrArg Reader.place hreader) rfl rfl rfl fun _ ↦ .invalid errorCount
  | newer v frame hreader hversion =>
    exact .atOnce (congrArg Reader.place hreader) rfl rfl rfl fun _ ↦ .newer v frame hversion
  | pings v hreader hversion =>
    exact .atOnce (congrArg Reader.place hreader) rfl rfl rfl fun _ ↦ .ping v hversion
  | refuses v message hreader hversion =>
    exact .atOnce (congrArg Reader.place hreader) rfl rfl rfl
      fun _ ↦ .tooManyTurns v message hversion
  | resumes v lastSeq hreader hversion =>
    refine .still rfl fun owed howes ↦ ?_
    rw [hnone hreader howes]
    exact ⟨v, hversion, rfl⟩
  | submits v message hreader hversion =>
    refine .still rfl fun owed howes ↦ ?_
    rw [hnone hreader howes]
    exact ⟨v, hversion, rfl⟩
  | receives fresh hreader =>
    refine .still rfl fun owed howes ↦ ?_
    rwa [hreader, ← List.append_nil owed] at howes
  | conflicts fresh message error hreader =>
    refine .still rfl fun owed howes ↦ ?_
    rwa [hreader, ← List.append_nil owed] at howes
  | stored fresh message recorded hreader hcreated =>
    refine .still rfl fun owed howes ↦ ?_
    rw [show (Action.runReader fresh).heard = [] from rfl, List.append_nil]
    exact hsubmitted hreader owed howes
  | found fresh message recorded hreader hcreated =>
    refine .submission message (hsubmitted hreader) rfl rfl rfl rfl fun v hv found hfinds ↦ ?_
    obtain ⟨database, hfound, hstored, -⟩ := hfinds.recorded message recorded hreader
    exact .known v message recorded.message _ database hv hfound hstored
  | starts fresh message recorded assistant hreader hfresh =>
    refine .submission message (fun owed howes ↦ ?_) rfl rfl rfl rfl fun v hv found hfinds ↦ ?_
    · rwa [hreader] at howes
    · obtain ⟨database, hfound, hstored, htext⟩ :=
        hfinds.opening message recorded (by rw [hreader]) (by rw [hreader]; exact Or.inl ⟨_, rfl⟩)
      exact .stored v message recorded.message _ database hv hfound hstored htext
  | notStored fresh message place error hreader hplace =>
    refine .submission message (fun owed howes ↦ ?_) rfl rfl rfl rfl
      fun v hv _ _ ↦ .notStored v message hv
    rw [hreader] at howes
    rcases hplace with rfl | rfl | ⟨recorded, rfl⟩ <;> exact howes
  | tooOld fresh lastSeq missed hreader hmissed => exact tooOld_answers hreader hmissed rfl
  | replays fresh lastSeq missed hreader hmissed => exact replays_answers hreader hmissed rfl
  | notReplayed fresh lastSeq error hreader => exact notReplayed_answers hreader rfl
  | gathers | neverRead => exact .stops rfl (Or.inr rfl) rfl
  | disconnects | stopped => exact stopReader_answers _ rfl
  | responds id input turn moved frames hturn hbranch =>
    exact .silent frames (Connection.sent_sendAll _ _) hbranch.answers fun owed howes ↦ by
      rwa [show (Action.respond id input).heard = [] from rfl, List.append_nil]
  | runs id turn moved frames hturn hbranch =>
    exact .silent frames (Connection.sent_sendAll _ _) hbranch.answers fun owed howes ↦ by
      rwa [show (Action.runTurn id).heard = [] from rfl, List.append_nil]
  | advances | accepted => exact .of_place (Writer.sent_next handler.conn) rfl rfl
  | drains => exact .sends (Connection.sent_requestClose _ _ _) rfl rfl rfl
  | opens writerLast hopening =>
    refine .still rfl fun owed howes ↦ ?_
    rwa [hends.opening hopening, ← List.append_nil owed] at howes
  | stops | unwinds | interrupted | again => exact cancelBoth_answers rfl rfl rfl
  | _ => exact .of_place rfl rfl rfl

/-! ### What the reader has found -/

namespace Finds

variable {found more : Database → Prop}

/-- A reader that is given nothing to go on with. -/
theorem of_not_owed (h : ¬handler.reader.Owed) : handler.Finds settings found where
  log lastSeq missed hreader := absurd (Or.inl ⟨_, by rw [hreader]⟩) h
  recorded message recorded hreader := by
    rcases hreader with hreader | hreader
    · exact absurd (Or.inl ⟨_, by rw [hreader]⟩) h
    · exact absurd (Or.inl ⟨_, by rw [hreader]⟩) h
  opening _ _ _ howed := absurd howed h

theorem mono (h : handler.Finds settings found) (hmore : ∀ database, found database → more database)
    (hreader : after.reader = handler.reader) (hsession : after.conn.sessionId =
      handler.conn.sessionId) : after.Finds settings more where
  log lastSeq missed hplace := by
    obtain ⟨database, hfound, hmissed⟩ := h.log lastSeq missed (hreader ▸ hplace)
    exact ⟨database, hmore database hfound, hsession ▸ hmissed⟩
  recorded message recorded hplace := by
    obtain ⟨database, hfound, hstored⟩ := h.recorded message recorded (hreader ▸ hplace)
    exact ⟨database, hmore database hfound, hsession ▸ hstored⟩
  opening message recorded hplace howed := by
    obtain ⟨database, hfound, hstored⟩ := h.opening message recorded (hreader ▸ hplace)
      (hreader ▸ howed)
    exact ⟨database, hmore database hfound, hsession ▸ hstored⟩

theorem calm (h : handler.Finds settings found) (hmore : ∀ database, found database → more database)
    (hcalm : handler.Calm after) : after.Finds settings more := by
  rcases hcalm.reader with hsame | hnot
  · exact h.mono hmore hsame hcalm.session
  · exact of_not_owed hnot

/-- A step that hears nothing leaves what the reader has found. -/
theorem step (h : handler.Finds settings found) (hmore : ∀ database, found database → more database)
    (hstep : handler.step settings action = some after) : after.Finds settings more := by
  cases step_acks hstep with
  | calm hcalm => exact h.calm hmore hcalm
  | recorded message recorded hreader =>
    obtain ⟨database, hfound, hstored, htext⟩ := h.recorded message recorded hreader
    unfold Handler.recorded
    split_ifs with hcreated
    · constructor
      · exact fun lastSeq missed hplace ↦ nomatch hplace
      · rintro other found (hplace | hplace)
        · exact nomatch hplace
        · exact nomatch hplace
      · rintro other found hplace -
        obtain ⟨rfl, rfl⟩ := ReaderPlace.opening.inj hplace
        exact ⟨database, hmore database hfound, hstored, htext hcreated⟩
    · exact of_not_owed (Reader.not_owed_of_none (by simp))
  | opened message recorded assistant fresh hreader hfresh =>
    exact of_not_owed (Reader.not_owed_of_none (by simp))

end Finds

/-- A frame that comes in finds the reader with nothing to go on with, and leaves it so. -/
theorem not_owed_of_receive {inbound : Inbound}
    (hstep : handler.step settings (.receive inbound) = some after) :
    ¬handler.reader.Owed ∧ ¬after.reader.Owed := by
  have hnot : ∀ {reader : Reader}, reader = ⟨.receiving, none⟩ → ¬reader.Owed := by
    rintro reader rfl
    exact Reader.not_owed_of_none (by simp)
  cases step_branch hstep with
  | invalid _ hreader | newer _ _ hreader | pings _ hreader | refuses _ _ hreader =>
    exact ⟨hnot hreader, hnot hreader⟩
  | resumes _ _ hreader | submits _ _ hreader =>
    exact ⟨hnot hreader, Reader.not_owed_of_none (by simp)⟩

/-- What the reader has found by the time that a frame has come in, and after it. -/
theorem Finds.hears {found : List Inbound → Database → Prop} {heard : List Inbound}
    (h : handler.Finds settings (found heard)) (hstep : handler.step settings action = some after) :
    handler.Finds settings (found (heard ++ action.heard)) ∧
      after.Finds settings (found (heard ++ action.heard)) := by
  cases action with
  | receive inbound =>
    obtain ⟨hbefore, hafter⟩ := not_owed_of_receive hstep
    exact ⟨.of_not_owed hbefore, .of_not_owed hafter⟩
  | _ =>
    simp only [Action.heard, List.append_nil]
    exact ⟨h, h.step (fun _ hfound ↦ hfound) hstep⟩

/-! ### The invariant of a connection -/

/-- The frames that came in pair up with the answers, up to the frame that the reader is at. -/
def Paired (settings : Settings) (found : List Inbound → Database → Prop) (heard : List Inbound)
    (handler : Handler) : Prop :=
  ∃ earlier owed, heard = earlier ++ owed ∧ handler.reader.place.Owes owed ∧
    Dialogue settings handler.conn.sessionId found earlier
      (handler.conn.sent.filter ServerFrame.answers)

namespace Paired

variable {found more : List Inbound → Database → Prop} {heard : List Inbound}

theorem new (settings : Settings) (sessionId : Uuid) :
    (Handler.new settings sessionId).Paired settings found [] :=
  ⟨[], [], rfl, rfl, .nil⟩

theorem mono (h : handler.Paired settings found heard)
    (hmore : ∀ heard database, found heard database → more heard database)
    (hplace : after.reader.place = handler.reader.place) (hconn : after.conn = handler.conn) :
    after.Paired settings more heard := by
  obtain ⟨earlier, owed, hheard, howes, hdialogue⟩ := h
  refine ⟨earlier, owed, hheard, by rwa [hplace], ?_⟩
  rw [hconn]
  exact hdialogue.mono hmore

theorem step (h : handler.Paired settings found heard)
    (hfinds : handler.Finds settings (found (heard ++ action.heard))) (hends : handler.Ends)
    (hstep : handler.step settings action = some after) :
    after.Paired settings found (heard ++ action.heard) := by
  obtain ⟨earlier, owed, rfl, howes, hdialogue⟩ := h
  cases step_answers hends hstep with
  | silent frames hsent hnone hstill =>
    refine ⟨earlier, owed ++ action.heard, List.append_assoc _ _ _, hstill owed howes, ?_⟩
    have hfilter : frames.filter ServerFrame.answers = [] :=
      List.filter_eq_nil_iff.mpr (by simpa using hnone)
    rw [hsent, List.filter_append, hfilter, List.append_nil, step_session hstep]
    exact hdialogue
  | answers frames hsent hall hafter hresponds =>
    obtain ⟨inbound, howed, hresponds⟩ := hresponds owed howes
    rw [List.append_assoc, howed] at hfinds ⊢
    refine ⟨earlier ++ [inbound], [], (List.append_nil _).symm, ?_, ?_⟩
    · rw [hafter]
      rfl
    · rw [hsent, List.filter_append, List.filter_eq_self.mpr hall, step_session hstep]
      exact hdialogue.answered inbound (hresponds _ hfinds)

end Paired

end Handler

/-! ### The calls -/

section Calls

variable {settings : Settings} {handler : Handler} {database : Database} {sessionId : Uuid}
  {clientMsgId : String} {found more : Database → Prop}

/-- `_by_client_msg_id` returns what is stored under the key. -/
theorem perform_byClientMsgId_stored {now : Instant} {outcome : Outcome} {after : Database}
    (h : perform now (.byClientMsgId sessionId clientMsgId) database = (.ok outcome, after)) :
    ∃ recorded, outcome = .recorded recorded ∧ recorded.created = false ∧ after = database ∧
      StoredUnder database sessionId clientMsgId recorded.message := by
  obtain ⟨recorded, hexecute, rfl⟩ :=
    RowLocking.Program.execute_map (RowLocking.Program.execute_of_run_ok h)
  simp only [Postgres.byClientMsgId, RowLocking.Program.execute] at hexecute
  split at hexecute
  · next known hkey =>
    split at hexecute
    · next row hrow =>
      simp only [RowLocking.Program.pure_eq, RowLocking.Program.execute, Except.ok.injEq,
        Prod.mk.injEq] at hexecute
      obtain ⟨rfl, rfl⟩ := hexecute
      exact ⟨_, rfl, rfl, rfl, hkey, row, hrow, rfl⟩
    · exact absurd hexecute (by simp [RowLocking.Program.execute])
  · exact absurd hexecute (by simp [RowLocking.Program.execute])

/-- `record_user_message` stores what it returns, as it was sent. -/
theorem perform_recordUserMessage_stored {now : Instant} {text : String} {messageId : Uuid}
    {outcome : Outcome} {after : Database}
    (h : perform now (.recordUserMessage sessionId clientMsgId text messageId) database =
      (.ok outcome, after)) :
    ∃ recorded, outcome = .recorded recorded ∧
      StoredUnder after sessionId clientMsgId recorded.message ∧ recorded.message.text = text := by
  obtain ⟨recorded, hyields, rfl⟩ := RowLocking.Program.yields_map (Postgres.perform_yields h)
  obtain ⟨seq, rfl, hstores⟩ := Postgres.recordUserMessage_stores hyields
  have hrow : messageRow after messageId =
      some ⟨sessionId, seq, .user, .complete, text, some clientMsgId⟩ := by
    rw [hstores.stored, Postgres.messageRow_storeMessage, if_pos rfl]
  refine ⟨_, rfl, ⟨?_, _, hrow, rfl⟩, rfl⟩
  rw [hstores.stored, Postgres.clientMessage_storeMessage, if_pos ⟨rfl, rfl⟩]

/-- What the call of a reader returns is in the database that it leaves. -/
theorem Handler.Finds.returned {now : Instant} {operation : Operation} {outcome : Outcome}
    {after : Database} {drawn : Uuid} (h : handler.Finds settings found)
    (hmore : ∀ database, found database → more database) (hnow : more after)
    (hcall : handler.call settings drawn .reader = some operation)
    (hperform : perform now operation database = (.ok outcome, after)) :
    (handler.answer (.returned outcome) .reader).Finds settings more := by
  obtain ⟨place, hreader, hplace⟩ := Handler.call_reader hcall
  have hanswered : (handler.answer (.returned outcome) .reader).reader =
      ⟨place, some (.returned outcome)⟩ := by
    rw [Handler.answer, hreader]
  constructor
  · intro lastSeq missed hresuming
    obtain ⟨rfl, hmissed⟩ := Reader.mk.inj (hanswered.symm.trans hresuming)
    obtain rfl := Reply.returned.inj (Option.some.inj hmissed)
    obtain rfl := Option.some.inj hplace
    rw [perform_logSince] at hperform
    obtain ⟨hlog, rfl⟩ := Prod.mk.inj hperform
    split_ifs at hlog
    exact ⟨database, hnow, (Outcome.log.inj (Except.ok.inj hlog)).symm⟩
  · intro message recorded hrecorded
    rcases hrecorded with hrecorded | hrecorded
    · obtain ⟨rfl, hmessage⟩ := Reader.mk.inj (hanswered.symm.trans hrecorded)
      obtain rfl := Reply.returned.inj (Option.some.inj hmessage)
      obtain rfl := Option.some.inj hplace
      obtain ⟨other, hother, hstored, htext⟩ := perform_recordUserMessage_stored hperform
      obtain rfl := Outcome.recorded.inj hother
      exact ⟨after, hnow, hstored, fun _ ↦ htext⟩
    · obtain ⟨rfl, hmessage⟩ := Reader.mk.inj (hanswered.symm.trans hrecorded)
      obtain rfl := Reply.returned.inj (Option.some.inj hmessage)
      obtain rfl := Option.some.inj hplace
      obtain ⟨other, hother, hcreated, rfl, hstored⟩ := perform_byClientMsgId_stored hperform
      obtain rfl := Outcome.recorded.inj hother
      exact ⟨after, hnow, hstored, fun hnew ↦ absurd (hnew.symm.trans hcreated) (by simp)⟩
  · intro message recorded hopening _
    rw [hanswered] at hopening
    obtain rfl : place = .opening message recorded := hopening
    obtain ⟨earlier, hfound, hstored⟩ := h.opening message recorded (by rw [hreader])
      (Or.inr ⟨message, recorded, hreader⟩)
    exact ⟨earlier, hmore earlier hfound, hstored⟩

/-- What the call of a task returns is in the database that it leaves. -/
theorem Handler.Finds.answer {now : Instant} {operation : Operation} {drawn : Uuid}
    {task : Handler.Task} {lost : Bool} (h : handler.Finds settings found)
    (hmore : ∀ database, found database → more database)
    (hnow : more (perform now operation database).2)
    (hcall : handler.call settings drawn task = some operation) :
    (handler.answer (if lost then .raised none else replyOf (perform now operation database).1)
      task).Finds settings more := by
  by_cases hquiet : task = .reader → ∀ outcome,
      (if lost then .raised none else replyOf (perform now operation database).1) ≠
        .returned outcome
  · exact h.calm hmore (handler.answer_calm _ task hquiet)
  · simp only [not_forall, not_not] at hquiet
    obtain ⟨rfl, outcome, hreply⟩ := hquiet
    rw [hreply]
    exact h.returned hmore hnow hcall (Prod.ext (Conversing.replyOf_eq_returned hreply) rfl)

end Calls

/-! ### The runs -/

section Runs

variable {Socket : Type} [DecidableEq Socket] {settings : Settings} {system after : System Socket}
  {socket : Socket} {events : List (Event Socket)} {event : Event Socket}

/-- The frame that comes in on a connection with an event. -/
def Event.heard (socket : Socket) : Event Socket → List Inbound
  | .act other action => if other = socket then action.heard else []
  | _ => []

/-- The frames that came in on a connection. -/
def received (socket : Socket) (events : List (Event Socket)) : List Inbound :=
  events.flatMap (Event.heard socket)

theorem received_concat (socket : Socket) (events : List (Event Socket)) (event : Event Socket) :
    received socket (events ++ [event]) = received socket events ++ event.heard socket := by
  simp [received]

/-- The database was there at a moment at which just these frames had come in on a connection. -/
def Found (settings : Settings) (socket : Socket) (events : List (Event Socket))
    (heard : List Inbound) (database : Database) : Prop :=
  ∃ earlier later system, events = earlier ++ later ∧
    (System.initial Socket).steps settings earlier = some system ∧
      received socket earlier = heard ∧ system.database = database

theorem Found.concat {heard : List Inbound} {database : Database}
    (h : Found settings socket events heard database) (event : Event Socket) :
    Found settings socket (events ++ [event]) heard database := by
  obtain ⟨earlier, later, system, rfl, hsteps, hheard, hdatabase⟩ := h
  exact ⟨earlier, later ++ [event], system, List.append_assoc _ _ _, hsteps, hheard, hdatabase⟩

/-- What is there now. -/
theorem found_now (hsteps : (System.initial Socket).steps settings events = some system)
    (socket : Socket) :
    Found settings socket events (received socket events) system.database :=
  ⟨events, [], system, (List.append_nil _).symm, hsteps, rfl, rfl⟩

/-- What a run keeps of all connections. -/
structure Dialogues (settings : Settings) (events : List (Event Socket)) (system : System Socket) :
    Prop where
  absent : ∀ socket, system.handlers socket = none → received socket events = []
  paired : ∀ socket handler, system.handlers socket = some handler →
    handler.Paired settings (Found settings socket events) (received socket events)
  finds : ∀ socket handler, system.handlers socket = some handler →
    handler.Finds settings (Found settings socket events (received socket events))

namespace Dialogues

theorem initial (settings : Settings) : Dialogues settings [] (System.initial Socket) where
  absent _ _ := rfl
  paired _ _ hhandler := absurd hhandler (by simp [System.initial])
  finds _ _ hhandler := absurd hhandler (by simp [System.initial])

/-- A connection that an event leaves, and on which nothing comes in. -/
theorem leaves (h : Dialogues settings events system) (hheard : event.heard socket = [])
    {handler : Handler} (hhandler : system.handlers socket = some handler) :
    handler.Paired settings (Found settings socket (events ++ [event]))
        (received socket (events ++ [event])) ∧
      handler.Finds settings
        (Found settings socket (events ++ [event]) (received socket (events ++ [event]))) := by
  rw [received_concat, hheard, List.append_nil]
  exact ⟨(h.paired socket handler hhandler).mono (fun _ _ hfound ↦ hfound.concat event) rfl rfl,
    (h.finds socket handler hhandler).mono (fun _ hfound ↦ hfound.concat event) rfl rfl⟩

/-- An event that changes one connection. -/
theorem update (h : Dialogues settings events system) {next : Handler}
    (hhandlers : after.handlers = Function.update system.handlers socket (some next))
    (hheard : ∀ other, other ≠ socket → event.heard other = [])
    (hpaired : next.Paired settings (Found settings socket (events ++ [event]))
      (received socket (events ++ [event])))
    (hfinds : next.Finds settings
      (Found settings socket (events ++ [event]) (received socket (events ++ [event])))) :
    Dialogues settings (events ++ [event]) after where
  absent other hnone := by
    have hother : other ≠ socket := by
      rintro rfl
      rw [hhandlers, Function.update_self] at hnone
      exact Option.some_ne_none next hnone
    rw [hhandlers, Function.update_of_ne hother] at hnone
    rw [received_concat, hheard other hother, h.absent other hnone, List.append_nil]
  paired := by
    rw [hhandlers]
    exact OneTurn.forall_update hpaired fun other old hother hold ↦
      (h.leaves (hheard other hother) hold).1
  finds := by
    rw [hhandlers]
    exact OneTurn.forall_update hfinds fun other old hother hold ↦
      (h.leaves (hheard other hother) hold).2

/-- An event that changes no connection. -/
theorem same (h : Dialogues settings events system) (hhandlers : after.handlers = system.handlers)
    (hheard : ∀ socket, event.heard socket = []) :
    Dialogues settings (events ++ [event]) after where
  absent socket hnone := by
    rw [hhandlers] at hnone
    rw [received_concat, hheard socket, h.absent socket hnone, List.append_nil]
  paired socket handler hhandler := (h.leaves (hheard socket) (hhandlers ▸ hhandler)).1
  finds socket handler hhandler := (h.leaves (hheard socket) (hhandlers ▸ hhandler)).2

theorem answer_place (handler : Handler) (reply : Reply) (task : Handler.Task) :
    (handler.answer reply task).reader.place = handler.reader.place := by
  cases task <;> rfl

theorem step (h : Dialogues settings events system) (howned : Owned system)
    (hsteps : (System.initial Socket).steps settings (events ++ [event]) = some after)
    (hstep : system.step settings event = some after) :
    Dialogues settings (events ++ [event]) after := by
  have hnow := found_now hsteps
  cases System.step_moves hstep with
  | tick duration => exact h.same rfl fun _ ↦ rfl
  | job operation hchat => exact h.same rfl fun _ ↦ rfl
  | accept socket sessionId hnone =>
    refine h.update rfl (fun _ _ ↦ rfl) ?_ (.of_not_owed (Reader.not_owed_of_none (by simp)))
    rw [received_concat, h.absent socket hnone]
    exact .new settings sessionId
  | store socket task drawn lost handler operation hhandler hcall =>
    refine h.update rfl (fun _ _ ↦ rfl) ?_ ?_
    · exact (h.leaves rfl hhandler).1.mono (fun _ _ hfound ↦ hfound) (answer_place _ _ _)
        (Handler.answer_conn _ _ _)
    · exact (h.leaves rfl hhandler).2.answer (fun _ hfound ↦ hfound) (hnow socket) hcall
  | fail socket task handler operation hhandler hcall =>
    refine h.update rfl (fun _ _ ↦ rfl) ?_ ?_
    · exact (h.leaves rfl hhandler).1.mono (fun _ _ hfound ↦ hfound) (answer_place _ _ _)
        (Handler.answer_conn _ _ _)
    · exact (h.leaves rfl hhandler).2.calm (fun _ hfound ↦ hfound)
        (handler.answer_calm _ task (by simp))
  | act socket action handler next hhandler hnext =>
    have hends := (howned.owns socket handler hhandler).ends
    have hself : Event.heard socket (.act socket action) = action.heard := if_pos rfl
    have hpaired := (h.paired socket handler hhandler).mono
      (fun _ _ hfound ↦ hfound.concat (.act socket action)) rfl rfl
    have hfinds := (h.finds socket handler hhandler).mono
      (fun _ hfound ↦ hfound.concat (.act socket action)) rfl rfl
    obtain ⟨hbefore, hafter⟩ := hfinds.hears hnext
    refine h.update rfl (fun other hother ↦ if_neg (Ne.symm hother)) ?_ ?_
    · rw [received_concat, hself]
      exact hpaired.step hbefore hends hnext
    · rw [received_concat, hself]
      exact hafter

end Dialogues

/-- Along every run. -/
theorem dialogues_of_steps (hsteps : (System.initial Socket).steps settings events = some system) :
    Dialogues settings events system := by
  induction events using List.reverseRecOn generalizing system with
  | nil =>
    obtain rfl := Option.some.inj hsteps
    exact .initial settings
  | append_singleton events event ih =>
    have hboth := hsteps
    rw [System.steps_append] at hboth
    obtain ⟨before, hbefore, hlast⟩ := Option.bind_eq_some_iff.mp hboth
    obtain ⟨next, hstep, hnext⟩ := Option.bind_eq_some_iff.mp hlast
    obtain rfl := Option.some.inj hnext
    have hrun : System.Run settings before := .of_steps hbefore
    exact (ih hbefore).step hrun.tells.owned hsteps hstep

/-- Every frame is answered, in order. On every connection of a run the frames that came in, but
possibly the last one, pair up with the answers that were sent, one after another: each answer is
one that its frame may have, and right about what was in the database when it had come in and the
next one had not. The last one is answered too before another is read. -/
theorem answered_in_order (hsteps : (System.initial Socket).steps settings events = some system)
    {handler : Handler} (hhandler : system.handlers socket = some handler) :
    ∃ earlier owed, received socket events = earlier ++ owed ∧ owed.length ≤ 1 ∧
      (handler.reader.place = .receiving → owed = []) ∧
      Dialogue settings handler.conn.sessionId (Found settings socket events) earlier
        (handler.conn.sent.filter ServerFrame.answers) := by
  obtain ⟨earlier, owed, hreceived, howes, hdialogue⟩ :=
    (dialogues_of_steps hsteps).paired socket handler hhandler
  refine ⟨earlier, owed, hreceived, howes.length_le, fun hplace ↦ ?_, hdialogue⟩
  rwa [hplace] at howes

end Runs

/-- A ping comes in while the reply to a message streams. -/
def pinged : List (Event ℕ) :=
  asked ++ [.act 0 (.respond 0 .begin), .act 0 (.respond 0 (.chunk "because")),
    .act 0 (.receive (.valid 1 .ping))]

/-- Both are answered, with a chunk of the reply in between. -/
theorem answered_in_order_pinged :
    ∃ (system : System ℕ) (handler : Handler),
      (System.initial ℕ).steps .default pinged = some system ∧ system.handlers 0 = some handler ∧
      handler.conn.sent = [.ack "key" 1 ⟨2⟩ (some ⟨3⟩), .delta ⟨3⟩ 0 "because", .pong] ∧
      Dialogue .default ⟨1⟩ (Found .default 0 pinged)
        [.valid 1 (.userMessage question), .valid 1 .ping]
        [.ack "key" 1 ⟨2⟩ (some ⟨3⟩), .pong] := by
  obtain ⟨system, hsteps, handler, hhandler, hsession, hplace, hsent, hreceived⟩ : ∃ system,
      (System.initial ℕ).steps .default pinged = some system ∧ ∃ handler,
        system.handlers 0 = some handler ∧ handler.conn.sessionId = ⟨1⟩ ∧
          handler.reader.place = .receiving ∧
          handler.conn.sent = [.ack "key" 1 ⟨2⟩ (some ⟨3⟩), .delta ⟨3⟩ 0 "because", .pong] ∧
          received 0 pinged = [.valid 1 (.userMessage question), .valid 1 .ping] :=
    ⟨_, rfl, _, rfl, rfl, rfl, rfl, rfl⟩
  obtain ⟨earlier, owed, hheard, -, howed, hdialogue⟩ := answered_in_order hsteps hhandler
  rw [howed hplace, List.append_nil, hreceived] at hheard
  rw [← hheard, hsession, hsent] at hdialogue
  exact ⟨system, handler, hsteps, hhandler, hsent, hdialogue⟩

end Chat

end Abacus
