import Abacus.Chat.Branch
import Abacus.Chat.System

/-!
# What an ack rests on

An ack is sent in two places: after a submission has found its key stored, and after it has opened
its reply row. Every other step of a handler is calm (`Handler.Calm`): it sends no ack, names no
new live reply, and leaves the reader's place or moves it to one where it is owed nothing
(`Handler.step_acks`). `Handler.Backed` carries any property of the acks that these two places
establish across a step.
-/

set_option autoImplicit false
set_option relaxedAutoImplicit false

namespace Abacus.Chat

open Postgres (Operation Outcome)

/-- A reader that has no result to go on with, and no reply row to open. -/
def Reader.Owed (reader : Reader) : Prop :=
  (∃ outcome, reader.pending = some (.returned outcome)) ∨
    ∃ message recorded, reader = ⟨.opening message recorded, none⟩

theorem Reader.not_owed_of_none {place : ReaderPlace}
    (h : ∀ message recorded, place ≠ .opening message recorded) :
    ¬(Reader.mk place none).Owed := by
  rintro (⟨outcome, hpending⟩ | ⟨message, recorded, hreader⟩)
  · simp at hpending
  · exact h message recorded (congrArg Reader.place hreader)

theorem Reader.not_owed_of_cancelled (place : ReaderPlace) :
    ¬(Reader.mk place (some .cancelled)).Owed := by
  simp [Reader.Owed]

namespace Handler

/-- A step that sends no ack, names no new live reply and gives the reader nothing to go on with. -/
structure Calm (before after : Handler) : Prop where
  session : after.conn.sessionId = before.conn.sessionId
  sent : ∀ clientMsgId seq messageId reply,
    .ack clientMsgId seq messageId reply ∈ after.conn.sent →
      .ack clientMsgId seq messageId reply ∈ before.conn.sent
  live : ∀ clientMsgId reply, after.liveReplies clientMsgId = some reply →
    before.liveReplies clientMsgId = some reply
  reader : after.reader = before.reader ∨ ¬after.reader.Owed

/-- The frame is no ack. -/
def NoAck (frame : ServerFrame) : Prop :=
  ∀ clientMsgId seq messageId reply, frame ≠ .ack clientMsgId seq messageId reply

namespace Calm

theorem refl (handler : Handler) : handler.Calm handler :=
  ⟨rfl, fun _ _ _ _ h ↦ h, fun _ _ h ↦ h, Or.inl rfl⟩

theorem trans {first second third : Handler} (hfirst : first.Calm second)
    (hsecond : second.Calm third) : first.Calm third where
  session := hsecond.session.trans hfirst.session
  sent _ _ _ _ h := hfirst.sent _ _ _ _ (hsecond.sent _ _ _ _ h)
  live _ _ h := hfirst.live _ _ (hsecond.live _ _ h)
  reader := by
    rcases hsecond.reader with hsame | howed
    · rw [hsame]
      exact hfirst.reader
    · exact Or.inr howed

/-- A step that leaves the frames sent, the live replies and the reader. -/
theorem of_eq {before after : Handler} (hsession : after.conn.sessionId = before.conn.sessionId)
    (hsent : after.conn.sent = before.conn.sent) (hlive : after.liveReplies = before.liveReplies)
    (hreader : after.reader = before.reader) : before.Calm after where
  session := hsession
  sent _ _ _ _ h := hsent ▸ h
  live _ _ h := hlive ▸ h
  reader := Or.inl hreader

end Calm

/-! ### The steps that are calm -/

theorem noAck_replayed (row : SessionRow) : NoAck (replayed row) := by
  intro clientMsgId seq messageId reply h
  cases row <;> exact ServerFrame.noConfusion h

/-- A turn that goes on acks nothing. -/
theorem TurnBranch.noAck {turn moved : Turn} {input : Option TurnInput} {frames : List ServerFrame}
    (h : TurnBranch turn input moved frames) : ∀ frame ∈ frames, NoAck frame := by
  cases h with
  | chunk | completed | marked => simp [NoAck]
  | _ => simp

theorem sendAll_calm (handler : Handler) {frames : List ServerFrame}
    (h : ∀ frame ∈ frames, NoAck frame) :
    handler.Calm { handler with conn := handler.conn.sendAll frames } where
  session := Connection.sessionId_sendAll handler.conn frames
  sent clientMsgId seq messageId reply hmem := by
    rw [Connection.sent_sendAll, List.mem_append] at hmem
    rcases hmem with hmem | hframe
    · exact hmem
    · exact absurd rfl (h _ hframe clientMsgId seq messageId reply)
  live _ _ h := h
  reader := Or.inl rfl

theorem send_calm (handler : Handler) {frame : ServerFrame} (h : NoAck frame) :
    handler.Calm (handler.send frame) := by
  have hall : ∀ other ∈ [frame], NoAck other :=
    fun other hother ↦ List.mem_singleton.mp hother ▸ h
  exact handler.sendAll_calm hall

theorem setReader_calm (handler : Handler) {place : ReaderPlace}
    (h : ∀ message recorded, place ≠ .opening message recorded) :
    handler.Calm (handler.setReader place) where
  session := rfl
  sent _ _ _ _ h := h
  live _ _ h := h
  reader := Or.inr (Reader.not_owed_of_none h)

theorem stopReader_calm (handler : Handler) (failed : Bool) :
    handler.Calm (handler.stopReader failed) := by
  have hcancel : handler.Calm handler.cancelTurns := Calm.of_eq rfl rfl rfl rfl
  refine hcancel.trans (setReader_calm _ ?_)
  split_ifs <;> simp

theorem setTurn_calm (handler : Handler) (id : ℕ) (turn : Turn) :
    handler.Calm (handler.setTurn id turn) :=
  Calm.of_eq rfl rfl rfl rfl

theorem cancelWriter_calm (handler : Handler) : handler.Calm handler.cancelWriter := by
  unfold cancelWriter
  split
  · exact Calm.refl handler
  · split_ifs
    · exact Calm.refl handler
    · exact Calm.of_eq rfl rfl rfl rfl

theorem cancelReader_calm (handler : Handler) : handler.Calm handler.cancelReader := by
  unfold cancelReader
  split
  · exact Calm.refl handler
  · exact Calm.refl handler
  · exact Calm.of_eq rfl rfl rfl rfl
  · exact ⟨rfl, fun _ _ _ _ h ↦ h, fun _ _ h ↦ h, Or.inr (Reader.not_owed_of_cancelled _)⟩

theorem cancelBoth_calm (handler : Handler) : handler.Calm handler.cancelBoth :=
  handler.cancelWriter_calm.trans handler.cancelWriter.cancelReader_calm

theorem setServe_calm (handler : Handler) (place : ServePlace) :
    handler.Calm (handler.setServe place) :=
  Calm.of_eq rfl rfl rfl rfl

theorem advanceWriter_calm (handler : Handler) : handler.Calm handler.advanceWriter :=
  Calm.of_eq (Writer.sessionId_next handler.conn) (Writer.sent_next handler.conn) rfl rfl

theorem finished_calm (handler : Handler) (id : ℕ) (turn : Turn) :
    handler.Calm (handler.finished id turn) where
  session := rfl
  sent _ _ _ _ h := h
  live clientMsgId reply h := by
    have hupdate : Function.update handler.liveReplies turn.clientMsgId none clientMsgId =
        some reply := h
    by_cases hkey : clientMsgId = turn.clientMsgId
    · rw [hkey, Function.update_self] at hupdate
      exact absurd hupdate (by simp)
    · rwa [Function.update_of_ne hkey] at hupdate
  reader := Or.inl rfl

/-! ### The steps that are not -/

/-- What a step of a handler does about acks: nothing, but for a reader that has stored a message or
found it stored, and a reader that has opened a reply row. -/
inductive AckStep (handler : Handler) : Handler → Prop
  | calm {after : Handler} (hcalm : handler.Calm after) : AckStep handler after
  | recorded (message : UserMessage) (recorded : RecordedUserMessage)
    (hreader : handler.reader = ⟨.recording message, some (.returned (.recorded recorded))⟩ ∨
      handler.reader = ⟨.recovering message, some (.returned (.recorded recorded))⟩) :
    AckStep handler (handler.recorded message recorded)
  | opened (message : UserMessage) (recorded : RecordedUserMessage) (assistant : StoredMessage)
    (fresh : ℕ)
    (hreader : handler.reader = ⟨.opening message recorded, some (.returned (.opened assistant))⟩)
    (hfresh : handler.tasks fresh = none) :
    AckStep handler (handler.startTurn message recorded assistant fresh)

/-- Every step of a handler is one of these. -/
theorem step_acks {settings : Settings} {handler after : Handler} {action : Action}
    (h : handler.step settings action = some after) :
    handler.AckStep after := by
  cases step_branch h with
  | stored fresh message recorded hreader hcreated =>
    have hafter : handler.recorded message recorded =
        handler.setReader (.opening message recorded) := if_pos hcreated
    exact hafter ▸ .recorded message recorded hreader
  | found fresh message recorded hreader hcreated =>
    have hafter : handler.recorded message recorded = (handler.acknowledge message recorded
        (handler.liveReplies message.clientMsgId)).setReader .receiving :=
      if_neg (by simp [hcreated])
    exact hafter ▸ .recorded message recorded hreader
  | starts fresh message recorded assistant hreader hfresh =>
    exact .opened message recorded assistant fresh hreader hfresh
  | replays fresh lastSeq missed hreader hmissed =>
    refine .calm ((handler.sendAll_calm fun frame hframe ↦ ?_).trans (setReader_calm _ (by simp)))
    obtain ⟨row, -, rfl⟩ := List.mem_map.mp hframe
    exact noAck_replayed row
  | responds id input turn moved frames hturn hbranch =>
    exact .calm ((handler.sendAll_calm hbranch.noAck).trans (setTurn_calm _ id moved))
  | runs id turn moved frames hturn hbranch =>
    exact .calm ((handler.sendAll_calm hbranch.noAck).trans (setTurn_calm _ id moved))
  | drains =>
    refine .calm ⟨Connection.sessionId_requestClose _ _ _, ?_, fun _ _ h ↦ h, Or.inl rfl⟩
    intro clientMsgId seq messageId reply hmem
    simpa [Connection.sent_requestClose] using hmem
  | opens =>
    exact .calm ⟨rfl, fun _ _ _ _ h ↦ h, fun _ _ h ↦ h, Or.inr (Reader.not_owed_of_none (by simp))⟩
  | invalid | newer | pings | refuses => exact .calm (handler.send_calm (by simp [NoAck]))
  | notStored | tooOld | notReplayed =>
    exact .calm ((handler.send_calm (by simp [NoAck])).trans (setReader_calm _ (by simp)))
  | resumes | submits | receives | gathers | conflicts | neverRead =>
    exact .calm (handler.setReader_calm (by simp))
  | disconnects | stopped => exact .calm (handler.stopReader_calm _)
  | finishes => exact .calm (handler.finished_calm _ _)
  | advances | accepted => exact .calm handler.advanceWriter_calm
  | peerGone | writeRaises | cancelled => exact .calm (Calm.of_eq rfl rfl rfl rfl)
  | notOpened | notServed | closes | unwound | closed => exact .calm (handler.setServe_calm _)
  | stops | unwinds | interrupted =>
    exact .calm (handler.cancelBoth_calm.trans (setServe_calm _ _))
  | again => exact .calm handler.cancelBoth_calm

theorem step_session {settings : Settings} {handler after : Handler} {action : Action}
    (h : handler.step settings action = some after) :
    after.conn.sessionId = handler.conn.sessionId := by
  cases step_acks h with
  | calm hcalm => exact hcalm.session
  | recorded message recorded hreader =>
    unfold Handler.recorded
    split_ifs
    · rfl
    · exact Connection.sessionId_send _ _
  | opened message recorded assistant fresh hreader hfresh =>
    exact Connection.sessionId_send _ _

/-! ### What backs the acks -/

/-- Every ack sent, and every ack that is now owed, has a property. -/
structure Backed (backs : String → Option Uuid → Prop) (handler : Handler) : Prop where
  sent : ∀ clientMsgId seq messageId reply,
    .ack clientMsgId seq messageId reply ∈ handler.conn.sent → backs clientMsgId reply
  live : ∀ clientMsgId reply, handler.liveReplies clientMsgId = some reply →
    backs clientMsgId (some reply)
  recording : ∀ message recorded,
    handler.reader = ⟨.recording message, some (.returned (.recorded recorded))⟩ →
      recorded.created = true
  recovering : ∀ message recorded,
    handler.reader = ⟨.recovering message, some (.returned (.recorded recorded))⟩ →
      backs message.clientMsgId none
  opening : ∀ message recorded assistant,
    handler.reader = ⟨.opening message recorded, some (.returned (.opened assistant))⟩ →
      backs message.clientMsgId (some assistant.messageId)

namespace Backed

variable {backs : String → Option Uuid → Prop} {handler after : Handler}

theorem mono {weaker : String → Option Uuid → Prop} (h : handler.Backed backs)
    (hweaker : ∀ clientMsgId reply, backs clientMsgId reply → weaker clientMsgId reply) :
    handler.Backed weaker where
  sent _ _ _ _ hmem := hweaker _ _ (h.sent _ _ _ _ hmem)
  live _ _ hlive := hweaker _ _ (h.live _ _ hlive)
  recording := h.recording
  recovering _ _ hreader := hweaker _ _ (h.recovering _ _ hreader)
  opening _ _ _ hreader := hweaker _ _ (h.opening _ _ _ hreader)

/-- A handler just made has sent nothing. -/
theorem new (settings : Settings) (sessionId : Uuid) :
    (Handler.new settings sessionId).Backed backs := by
  constructor <;> simp [Handler.new, Connection.new]

theorem calm (h : handler.Backed backs) (hcalm : handler.Calm after) : after.Backed backs := by
  have howed : ∀ place outcome, after.reader = ⟨place, some (.returned outcome)⟩ →
      handler.reader = ⟨place, some (.returned outcome)⟩ := by
    intro place outcome hreader
    rcases hcalm.reader with hsame | hnot
    · exact hsame ▸ hreader
    · exact absurd (Or.inl ⟨outcome, congrArg Reader.pending hreader⟩) hnot
  constructor
  · exact fun _ _ _ _ hmem ↦ h.sent _ _ _ _ (hcalm.sent _ _ _ _ hmem)
  · exact fun _ _ hlive ↦ h.live _ _ (hcalm.live _ _ hlive)
  · exact fun _ _ hreader ↦ h.recording _ _ (howed _ _ hreader)
  · exact fun _ _ hreader ↦ h.recovering _ _ (howed _ _ hreader)
  · exact fun _ _ _ hreader ↦ h.opening _ _ _ (howed _ _ hreader)

/-- An ack that has the property is sent. -/
theorem acknowledge (h : handler.Backed backs) (message : UserMessage)
    (recorded : RecordedUserMessage) {reply : Option Uuid}
    (hreply : backs message.clientMsgId reply) :
    (handler.acknowledge message recorded reply).Backed backs where
  sent clientMsgId seq messageId other hmem := by
    rw [show (handler.acknowledge message recorded reply).conn = handler.conn.send _ from rfl,
      Connection.sent_send, List.mem_append, List.mem_singleton] at hmem
    rcases hmem with hmem | hack
    · exact h.sent _ _ _ _ hmem
    · obtain ⟨rfl, -, -, rfl⟩ := ServerFrame.ack.inj hack
      exact hreply
  live := h.live
  recording := h.recording
  recovering := h.recovering
  opening := h.opening

/-- Whatever a handler does on its own, its acks keep the property. -/
theorem step {settings : Settings} {action : Action} (h : handler.Backed backs)
    (hstep : handler.step settings action = some after) : after.Backed backs := by
  cases step_acks hstep with
  | calm hcalm => exact h.calm hcalm
  | recorded message recorded hreader =>
    unfold Handler.recorded
    split_ifs with hcreated
    · constructor
      · exact h.sent
      · exact h.live
      · simp [setReader]
      · simp [setReader]
      · simp [setReader]
    · have hreply : backs message.clientMsgId (handler.liveReplies message.clientMsgId) := by
        cases hlive : handler.liveReplies message.clientMsgId with
        | some reply => exact h.live _ _ hlive
        | none =>
          rcases hreader with hreader | hreader
          · exact absurd (h.recording _ _ hreader) hcreated
          · exact h.recovering _ _ hreader
      exact (h.acknowledge message recorded hreply).calm (setReader_calm _ (by simp))
  | opened message recorded assistant fresh hreader hfresh =>
    have hreply := h.opening _ _ _ hreader
    constructor
    · intro clientMsgId seq messageId reply hmem
      have hsent : (handler.startTurn message recorded assistant fresh).conn.sent =
          handler.conn.sent ++ [.ack message.clientMsgId recorded.message.seq
            recorded.message.messageId (some assistant.messageId)] :=
        Connection.sent_send handler.conn _
      rw [hsent, List.mem_append, List.mem_singleton] at hmem
      rcases hmem with hmem | hack
      · exact h.sent _ _ _ _ hmem
      · obtain ⟨rfl, -, -, rfl⟩ := ServerFrame.ack.inj hack
        exact hreply
    · intro clientMsgId reply hlive
      have hupdate : Function.update handler.liveReplies message.clientMsgId
          (some assistant.messageId) clientMsgId = some reply := hlive
      by_cases hkey : clientMsgId = message.clientMsgId
      · subst hkey
        rw [Function.update_self] at hupdate
        rw [← Option.some.inj hupdate]
        exact hreply
      · rw [Function.update_of_ne hkey] at hupdate
        exact h.live _ _ hupdate
    · simp [startTurn]
    · simp [startTurn]
    · simp [startTurn]

end Backed

end Handler

end Abacus.Chat
