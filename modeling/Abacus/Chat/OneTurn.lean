import Abacus.Chat.Acks
import Abacus.Postgres.ChatCalls

/-!
# One turn for an acknowledged message

Storing a message and opening its reply row are two transactions, and a submission that finds its
key stored acks without opening a row. `Handler.Opens` is the place in between: a reader that has
stored a message and not yet opened its row. At most one submission under a key is ever there, and
none once a row was opened (`OneTurn`), so an acknowledged message has at most one row. It has one
if no submission finds its key stored before the row is opened (`acked_once`);
`acked_without_turn` is a run in which one does.
-/

set_option autoImplicit false
set_option relaxedAutoImplicit false

namespace Abacus.Chat

open Postgres (Database Operation Outcome perform messageRow)

/-! ### A reader that has still to open a row -/

/-- The reader has stored a message under the key, and its reply row is not opened yet. -/
def Handler.Opens (handler : Handler) (clientMsgId : String) : Prop :=
  (∃ message recorded,
    (handler.reader = ⟨.recording message, some (.returned (.recorded recorded))⟩ ∨
      handler.reader = ⟨.recovering message, some (.returned (.recorded recorded))⟩) ∧
    recorded.created = true ∧ message.clientMsgId = clientMsgId) ∨
  ∃ message recorded, handler.reader = ⟨.opening message recorded, none⟩ ∧
    message.clientMsgId = clientMsgId

namespace Handler

variable {handler after : Handler} {clientMsgId : String}

theorem Opens.owed (h : handler.Opens clientMsgId) : handler.reader.Owed := by
  rcases h with ⟨message, recorded, hreader, -, -⟩ | ⟨message, recorded, hreader, -⟩
  · rcases hreader with hreader | hreader
    · exact Or.inl ⟨_, congrArg Reader.pending hreader⟩
    · exact Or.inl ⟨_, congrArg Reader.pending hreader⟩
  · exact Or.inr ⟨message, recorded, hreader⟩

theorem Opens.of_reader (h : after.Opens clientMsgId) (hreader : after.reader = handler.reader) :
    handler.Opens clientMsgId := by
  unfold Opens at h ⊢
  rwa [hreader] at h

theorem Opens.of_calm (h : after.Opens clientMsgId) (hcalm : handler.Calm after) :
    handler.Opens clientMsgId := by
  rcases hcalm.reader with hsame | hnot
  · exact h.of_reader hsame
  · exact absurd h.owed hnot

/-- A handler does not come to this place on its own but from having stored the message. -/
theorem Opens.of_step {settings : Settings} {action : Action} (h : after.Opens clientMsgId)
    (hstep : handler.step settings action = some after) : handler.Opens clientMsgId := by
  cases step_acks hstep with
  | calm hcalm => exact h.of_calm hcalm
  | recorded message recorded hreader =>
    unfold Handler.recorded at h
    split_ifs at h with hcreated
    · rcases h with ⟨_, _, hplace, -⟩ | ⟨other, _, hplace, hkey⟩
      · simp [setReader] at hplace
      · obtain ⟨rfl, -⟩ : message = other ∧ recorded = _ := by simpa [setReader] using hplace
        exact Or.inl ⟨message, recorded, hreader, hcreated, hkey⟩
    · exact absurd h.owed (Reader.not_owed_of_none (by simp))
  | opened message recorded assistant fresh hreader hfresh =>
    exact absurd h.owed (Reader.not_owed_of_none (by simp))

/-- A reply that is no result gives the reader nothing to go on with. -/
theorem answer_calm (handler : Handler) (reply : Reply) (task : Task)
    (h : task = .reader → ∀ outcome, reply ≠ .returned outcome) :
    handler.Calm (handler.answer reply task) := by
  cases task with
  | serve => exact Calm.of_eq rfl rfl rfl rfl
  | reader =>
    refine ⟨rfl, fun _ _ _ _ h ↦ h, fun _ _ h ↦ h, Or.inr ?_⟩
    rintro (⟨outcome, hpending⟩ | ⟨message, recorded, hreader⟩)
    · exact h rfl outcome (Option.some.inj hpending)
    · exact absurd (congrArg Reader.pending hreader) (by simp [answer])
  | turn id => exact Calm.of_eq rfl rfl rfl rfl

/-- The reader awaits the call of its place, and has no reply yet. -/
theorem call_reader {settings : Settings} {drawn : Uuid} {operation : Operation}
    (h : handler.call settings drawn .reader = some operation) :
    ∃ place, handler.reader = ⟨place, none⟩ ∧
      place.call settings handler.conn.sessionId drawn = some operation := by
  simp only [call] at h
  split at h
  · next hpending => exact ⟨handler.reader.place, by rw [← hpending], h⟩
  · exact absurd h (by simp)

@[simp] theorem answer_conn (handler : Handler) (reply : Reply) (task : Task) :
    (handler.answer reply task).conn = handler.conn := by
  cases task <;> rfl

end Handler

/-! ### The invariant -/

section Runs

variable {Socket : Type} [DecidableEq Socket]

omit [DecidableEq Socket] in
/-- The reply rows opened for the submissions under a key. -/
def System.openedFor (system : System Socket) (sessionId : Uuid) (clientMsgId : String) :
    List (Opening Socket) :=
  system.opened.filter fun opening ↦
    decide (opening.sessionId = sessionId ∧ opening.clientMsgId = clientMsgId)

/-- Under every key at most one row is opened or being opened, every row opened is an assistant's
row of its session, and what is acked has one. -/
structure OneTurn (system : System Socket) : Prop where
  backed : ∀ socket handler, system.handlers socket = some handler →
    handler.Backed fun clientMsgId _ ↦
      system.openedFor handler.conn.sessionId clientMsgId ≠ []
  absent : ∀ sessionId clientMsgId,
    system.database.row (.clientMessage sessionId clientMsgId) = (none : Option Uuid) →
      system.openedFor sessionId clientMsgId = [] ∧
        ∀ socket handler, system.handlers socket = some handler →
          handler.conn.sessionId = sessionId → ¬handler.Opens clientMsgId
  unopened : ∀ socket handler clientMsgId, system.handlers socket = some handler →
    handler.Opens clientMsgId → system.openedFor handler.conn.sessionId clientMsgId = []
  unique : ∀ socket other handler otherHandler clientMsgId,
    system.handlers socket = some handler → system.handlers other = some otherHandler →
      handler.conn.sessionId = otherHandler.conn.sessionId →
        handler.Opens clientMsgId → otherHandler.Opens clientMsgId → socket = other
  once : ∀ sessionId clientMsgId, (system.openedFor sessionId clientMsgId).length ≤ 1
  rows : ∀ opening ∈ system.opened, ∃ row, messageRow system.database opening.messageId = some row ∧
    row.sessionId = opening.sessionId ∧ row.role = .assistant

/-- The submission whose stored row a reader reads back. -/
def Reader.recovers : Reader → Option UserMessage
  | ⟨.recovering message, none⟩ => some message
  | _ => none

/-- No submission that finds its key stored reads the stored row back before the reply row of the
message was opened. -/
def FindsOpened (system : System Socket) : Event Socket → Prop
  | .store socket .reader _ false =>
    ∀ handler ∈ system.handlers socket, ∀ message ∈ handler.reader.recovers,
      system.openedFor handler.conn.sessionId message.clientMsgId ≠ []
  | _ => True

instance (system : System Socket) (event : Event Socket) : Decidable (FindsOpened system event) :=
  match event with
  | .store socket .reader _ false =>
    inferInstanceAs (Decidable (∀ handler ∈ system.handlers socket,
      ∀ message ∈ handler.reader.recovers,
        system.openedFor handler.conn.sessionId message.clientMsgId ≠ []))
  | .store _ .reader _ true => .isTrue trivial
  | .store _ .serve _ _ => .isTrue trivial
  | .store _ (.turn _) _ _ => .isTrue trivial
  | .tick _ => .isTrue trivial
  | .job _ => .isTrue trivial
  | .accept _ _ => .isTrue trivial
  | .fail _ _ => .isTrue trivial
  | .act _ _ => .isTrue trivial

namespace OneTurn

variable {settings : Settings} {system after : System Socket}

omit [DecidableEq Socket] in
/-- A step that opens no row, takes none away, and puts no reader at the place in between. -/
theorem frame (h : OneTurn system) (hopened : after.opened = system.opened)
    (hclient : ∀ sessionId clientMsgId (messageId : Uuid),
      system.database.row (.clientMessage sessionId clientMsgId) = some messageId →
        after.database.row (.clientMessage sessionId clientMsgId) = some messageId)
    (hmessage : ∀ messageId row, messageRow system.database messageId = some row →
      ∃ new, messageRow after.database messageId = some new ∧ row.SameMessage new)
    (hhandlers : ∀ socket new, after.handlers socket = some new →
      (∃ handler, system.handlers socket = some handler ∧
        new.conn.sessionId = handler.conn.sessionId ∧
        ∀ clientMsgId, new.Opens clientMsgId → handler.Opens clientMsgId) ∨
      ∀ clientMsgId, ¬new.Opens clientMsgId)
    (hbacked : ∀ socket new, after.handlers socket = some new →
      new.Backed fun clientMsgId _ ↦ system.openedFor new.conn.sessionId clientMsgId ≠ []) :
    OneTurn after := by
  have hsame : ∀ sessionId clientMsgId, after.openedFor sessionId clientMsgId =
      system.openedFor sessionId clientMsgId := by
    intro sessionId clientMsgId
    rw [System.openedFor, System.openedFor, hopened]
  have hopens : ∀ socket new clientMsgId, after.handlers socket = some new →
      new.Opens clientMsgId → ∃ handler, system.handlers socket = some handler ∧
        new.conn.sessionId = handler.conn.sessionId ∧ handler.Opens clientMsgId := by
    intro socket new clientMsgId hnew hopens
    rcases hhandlers socket new hnew with ⟨handler, hhandler, hsession, hbefore⟩ | hnone
    · exact ⟨handler, hhandler, hsession, hbefore clientMsgId hopens⟩
    · exact absurd hopens (hnone clientMsgId)
  constructor
  · intro socket new hnew
    simp only [hsame]
    exact hbacked socket new hnew
  · intro sessionId clientMsgId habsent
    have hbefore : system.database.row (.clientMessage sessionId clientMsgId) =
        (none : Option Uuid) := by
      by_contra hpresent
      obtain ⟨messageId, hrow⟩ := Option.ne_none_iff_exists'.mp hpresent
      rw [hclient _ _ _ hrow] at habsent
      exact absurd habsent (by simp)
    obtain ⟨hnone, hnot⟩ := h.absent sessionId clientMsgId hbefore
    refine ⟨(hsame _ _).trans hnone, fun socket new hnew hsession hopensNew ↦ ?_⟩
    obtain ⟨handler, hhandler, hsessions, hopensOld⟩ := hopens _ _ _ hnew hopensNew
    exact hnot socket handler hhandler (hsessions.symm.trans hsession) hopensOld
  · intro socket new clientMsgId hnew hopensNew
    obtain ⟨handler, hhandler, hsession, hopensOld⟩ := hopens _ _ _ hnew hopensNew
    rw [hsame, hsession]
    exact h.unopened socket handler clientMsgId hhandler hopensOld
  · intro socket other new otherNew clientMsgId hnew hother hsessions hopensNew hopensOther
    obtain ⟨handler, hhandler, hsession, hopensOld⟩ := hopens _ _ _ hnew hopensNew
    obtain ⟨otherHandler, hotherHandler, hotherSession, hotherOpens⟩ :=
      hopens _ _ _ hother hopensOther
    exact h.unique socket other handler otherHandler clientMsgId hhandler hotherHandler
      (hsession.symm.trans (hsessions.trans hotherSession)) hopensOld hotherOpens
  · intro sessionId clientMsgId
    rw [hsame]
    exact h.once sessionId clientMsgId
  · intro opening hopening
    rw [hopened] at hopening
    obtain ⟨row, hrow, hsession, hrole⟩ := h.rows opening hopening
    obtain ⟨new, hnew, hnewSession, -, hnewRole, -⟩ := hmessage _ row hrow
    exact ⟨new, hnew, hnewSession.trans hsession, hnewRole.trans hrole⟩

/-- What holds of the handler set, and of all handlers before, holds of all handlers. -/
theorem forall_update {Holds : Socket → Handler → Prop} {socket : Socket} {handler : Handler}
    {handlers : Socket → Option Handler} (hset : Holds socket handler)
    (hothers : ∀ other old, other ≠ socket → handlers other = some old → Holds other old)
    (other : Socket) (new : Handler)
    (hnew : Function.update handlers socket (some handler) other = some new) :
    Holds other new := by
  by_cases hother : other = socket
  · subst hother
    rw [Function.update_self] at hnew
    rwa [← Option.some.inj hnew]
  · rw [Function.update_of_ne hother] at hnew
    exact hothers other new hother hnew

/-- A handler that goes on, not to the place in between. -/
theorem setHandler (h : OneTurn system) {socket : Socket} {handler new : Handler}
    (hhandler : system.handlers socket = some handler)
    (hsession : new.conn.sessionId = handler.conn.sessionId)
    (hopens : ∀ clientMsgId, new.Opens clientMsgId → handler.Opens clientMsgId)
    (hbacked : new.Backed fun clientMsgId _ ↦
      system.openedFor handler.conn.sessionId clientMsgId ≠ []) :
    OneTurn (system.setHandler socket new) := by
  refine h.frame rfl (fun _ _ _ hrow ↦ hrow)
    (fun _ row hrow ↦ ⟨row, hrow, rfl, rfl, rfl, rfl⟩) ?_ ?_
  · exact forall_update (Or.inl ⟨handler, hhandler, hsession, hopens⟩)
      fun other old _ hold ↦ Or.inl ⟨old, hold, rfl, fun _ h ↦ h⟩
  · refine forall_update ?_ fun other old _ hold ↦ h.backed other old hold
    rw [hsession]
    exact hbacked

/-- A call that opens no row, whose reply does not make the reader's place the one in between. -/
theorem commit_frame (h : OneTurn system) {socket : Socket} {handler : Handler}
    {task : Handler.Task} {operation : Operation} {lost : Bool}
    (hhandler : system.handlers socket = some handler)
    (hnone : openings socket handler.conn.sessionId (handler.openingFor task)
      (perform system.now operation system.database).1 = [])
    (hopens : ∀ clientMsgId,
      (handler.answer (if lost then .raised none
        else replyOf (perform system.now operation system.database).1) task).Opens clientMsgId →
      handler.Opens clientMsgId)
    (hbacked : (handler.answer (if lost then .raised none
        else replyOf (perform system.now operation system.database).1) task).Backed
      fun clientMsgId _ ↦ system.openedFor handler.conn.sessionId clientMsgId ≠ []) :
    OneTurn (system.commit socket handler task operation lost) := by
  refine h.frame ?_ ?_ ?_ ?_ ?_
  · rw [System.commit, hnone, List.append_nil]
  · exact fun sessionId clientMsgId messageId ↦ Postgres.perform_clientMessage
  · exact fun messageId row ↦ Postgres.perform_messageRow
  · refine forall_update (Or.inl ⟨handler, hhandler, ?_, hopens⟩) ?_
    · rw [Handler.answer_conn]
    · exact fun other old _ hold ↦ Or.inl ⟨old, hold, rfl, fun _ h ↦ h⟩
  · refine forall_update ?_ fun other old _ hold ↦ h.backed other old hold
    rw [Handler.answer_conn]
    exact hbacked

/-- A handler whose key was absent comes to the place in between, and the key is stored. -/
theorem records (h : OneTurn system) {socket : Socket} {handler new : Handler}
    {clientMsgId : String} {messageId : Uuid} {database : Database}
    (hhandler : system.handlers socket = some handler)
    (hsession : new.conn.sessionId = handler.conn.sessionId)
    (hopens : ∀ other, new.Opens other → other = clientMsgId)
    (hbacked : new.Backed fun clientMsgId _ ↦
      system.openedFor handler.conn.sessionId clientMsgId ≠ [])
    (hbefore : system.database.row
      (.clientMessage handler.conn.sessionId clientMsgId) = (none : Option Uuid))
    (hstored : database.row (.clientMessage handler.conn.sessionId clientMsgId) = some messageId)
    (hclient : ∀ sessionId other,
      database.row (.clientMessage sessionId other) = (none : Option Uuid) →
        system.database.row (.clientMessage sessionId other) = (none : Option Uuid))
    (hmessage : ∀ messageId row, messageRow system.database messageId = some row →
      ∃ new, messageRow database messageId = some new ∧ row.SameMessage new) :
    OneTurn ⟨system.now, database, Function.update system.handlers socket (some new),
      system.opened⟩ := by
  obtain ⟨hnone, hnot⟩ := h.absent _ _ hbefore
  constructor
  · refine forall_update ?_ fun other old _ hold ↦ h.backed other old hold
    rw [hsession]
    exact hbacked
  · intro sessionId other hrow
    obtain ⟨hnoneOld, hnotOld⟩ := h.absent _ _ (hclient _ _ hrow)
    refine ⟨hnoneOld, forall_update ?_ fun socket old _ hold ↦ hnotOld socket old hold⟩
    rintro rfl hopensOther
    rw [hopens _ hopensOther, hsession, hstored] at hrow
    exact absurd hrow (Option.some_ne_none messageId)
  · intro other otherHandler otherId
    revert other otherHandler
    refine forall_update (fun hopensOther ↦ ?_) fun other old _ hold ↦
      h.unopened other old otherId hold
    rw [hopens _ hopensOther, hsession]
    exact hnone
  · -- Where the new handler is in between, no other of its session is, as the key was absent.
    have halone : ∀ other otherHandler otherId, system.handlers other = some otherHandler →
        otherHandler.conn.sessionId = new.conn.sessionId → new.Opens otherId →
          ¬otherHandler.Opens otherId := by
      intro other otherHandler otherId hother hsame hopensOther
      rw [hopens _ hopensOther]
      exact hnot other otherHandler hother (hsame.trans hsession)
    intro first second firstHandler secondHandler otherId hfirst hsecond hsame hopensFirst
      hopensSecond
    by_cases hfirstIs : first = socket <;> by_cases hsecondIs : second = socket
    · exact hfirstIs.trans hsecondIs.symm
    · subst hfirstIs
      simp only [Function.update_self, Option.some.injEq, Function.update_of_ne hsecondIs]
        at hfirst hsecond
      subst hfirst
      exact absurd hopensSecond (halone _ _ _ hsecond hsame.symm hopensFirst)
    · subst hsecondIs
      simp only [Function.update_self, Option.some.injEq, Function.update_of_ne hfirstIs]
        at hfirst hsecond
      subst hsecond
      exact absurd hopensFirst (halone _ _ _ hfirst hsame hopensSecond)
    · simp only [Function.update_of_ne hfirstIs, Function.update_of_ne hsecondIs]
        at hfirst hsecond
      exact h.unique _ _ _ _ _ hfirst hsecond hsame hopensFirst hopensSecond
  · exact h.once
  · intro opening hopening
    obtain ⟨row, hrow, hrowSession, hrole⟩ := h.rows opening hopening
    obtain ⟨kept, hkept, hkeptSession, -, hkeptRole, -⟩ := hmessage _ row hrow
    exact ⟨kept, hkept, hkeptSession.trans hrowSession, hkeptRole.trans hrole⟩

/-- A submission that stores its message comes to the place in between, alone. -/
theorem commit_recorded (h : OneTurn system) {socket : Socket} {handler : Handler}
    {message : UserMessage} {recorded : RecordedUserMessage} {messageId : Uuid} {text : String}
    {database : Database} (hhandler : system.handlers socket = some handler)
    (hreader : handler.reader = ⟨.recording message, none⟩)
    (hperform : perform system.now
      (.recordUserMessage handler.conn.sessionId message.clientMsgId text messageId)
      system.database = (.ok (.recorded recorded), database))
    (hcreated : recorded.created = true)
    (hbefore : system.database.row
      (.clientMessage handler.conn.sessionId message.clientMsgId) = (none : Option Uuid))
    (hstored : database.row (.clientMessage handler.conn.sessionId message.clientMsgId) =
      some messageId) :
    OneTurn (system.commit socket handler .reader
      (.recordUserMessage handler.conn.sessionId message.clientMsgId text messageId) false) := by
  set new := handler.answer (.returned (.recorded recorded)) .reader with hnew
  have hnewReader : new.reader = ⟨.recording message, some (.returned (.recorded recorded))⟩ := by
    rw [hnew, Handler.answer, hreader]
  have hcommit : system.commit socket handler .reader
      (.recordUserMessage handler.conn.sessionId message.clientMsgId text messageId) false =
      ⟨system.now, database, Function.update system.handlers socket (some new),
        system.opened⟩ := by
    rw [System.commit, hperform]
    simp [Handler.openingFor, hreader, openings, replyOf, hnew]
  have hbacked := h.backed socket handler hhandler
  rw [hcommit]
  refine h.records hhandler (by rw [hnew, Handler.answer_conn]) ?_ ?_ hbefore hstored
    (fun _ _ ↦ Postgres.clientMessage_absent_of_perform hperform)
    fun _ _ ↦ Postgres.messageRow_of_perform hperform
  · rintro clientMsgId (⟨other, _, hplace, -, rfl⟩ | ⟨other, _, hplace, -⟩)
    · rw [hnewReader] at hplace
      simp only [Reader.mk.injEq, ReaderPlace.recording.injEq, reduceCtorEq, false_and,
        or_false] at hplace
      rw [hplace.1]
    · rw [hnewReader] at hplace
      simp at hplace
  · constructor
    · exact hbacked.sent
    · exact hbacked.live
    · intro other otherRecorded hplace
      rw [hnewReader] at hplace
      simp only [Reader.mk.injEq, Option.some.injEq, Reply.returned.injEq,
        Postgres.Outcome.recorded.injEq] at hplace
      rw [← hplace.2, hcreated]
    · intro other otherRecorded hplace
      rw [hnewReader] at hplace
      simp at hplace
    · intro other otherRecorded assistant hplace
      rw [hnewReader] at hplace
      simp at hplace

/-- A submission that finds its key stored, when the row was opened. -/
theorem commit_recovered (h : OneTurn system) {socket : Socket} {handler : Handler}
    {message : UserMessage} {recorded : RecordedUserMessage} {database : Database}
    (hhandler : system.handlers socket = some handler)
    (hreader : handler.reader = ⟨.recovering message, none⟩)
    (hperform : perform system.now
      (.byClientMsgId handler.conn.sessionId message.clientMsgId)
      system.database = (.ok (.recorded recorded), database))
    (hcreated : recorded.created = false)
    (hfinds : system.openedFor handler.conn.sessionId message.clientMsgId ≠ []) :
    OneTurn (system.commit socket handler .reader
      (.byClientMsgId handler.conn.sessionId message.clientMsgId) false) := by
  have hnewReader : (handler.answer (.returned (.recorded recorded)) .reader).reader =
      ⟨.recovering message, some (.returned (.recorded recorded))⟩ := by
    rw [Handler.answer, hreader]
  have hbacked := h.backed socket handler hhandler
  refine h.commit_frame hhandler ?_ ?_ ?_
  · simp [openings, Handler.openingFor, hreader]
  · rw [hperform]
    rintro clientMsgId (⟨other, otherRecorded, hplace, hother, -⟩ |
      ⟨other, otherRecorded, hplace, -⟩)
    · simp only [replyOf, Bool.false_eq_true, if_false, hnewReader, Reader.mk.injEq,
        reduceCtorEq, false_and, false_or, Option.some.injEq, Reply.returned.injEq,
        Postgres.Outcome.recorded.injEq] at hplace
      rw [← hplace.2, hcreated] at hother
      exact absurd hother (by simp)
    · simp [replyOf, hnewReader] at hplace
  · rw [hperform]
    constructor
    · exact hbacked.sent
    · exact hbacked.live
    · intro other otherRecorded hplace
      simp [replyOf, hnewReader] at hplace
    · intro other otherRecorded hplace
      obtain rfl : message = other := by
        simp only [replyOf, Bool.false_eq_true, if_false, hnewReader, Reader.mk.injEq,
          ReaderPlace.recovering.injEq] at hplace
        exact hplace.1
      exact hfinds
    · intro other otherRecorded assistant hplace
      simp [replyOf, hnewReader] at hplace

/-- The log that `_resume` awaits says nothing of any submission. -/
theorem commit_resuming (h : OneTurn system) {socket : Socket} {handler : Handler} {lastSeq : ℕ}
    {operation : Operation} {lost : Bool} (hhandler : system.handlers socket = some handler)
    (hreader : handler.reader = ⟨.resuming lastSeq, none⟩) :
    OneTurn (system.commit socket handler .reader operation lost) := by
  have hplace : ∀ reply, (handler.answer reply .reader).reader.place = .resuming lastSeq := by
    intro reply
    rw [Handler.answer, hreader]
  have hbacked := h.backed socket handler hhandler
  refine h.commit_frame hhandler ?_ ?_ ?_
  · simp [openings, Handler.openingFor, hreader]
  · rintro clientMsgId (⟨message, recorded, hother | hother, -⟩ | ⟨message, recorded, hother, -⟩)
    all_goals exact absurd ((hplace _).symm.trans (congrArg Reader.place hother)) (by simp)
  · constructor
    · exact hbacked.sent
    · exact hbacked.live
    · intro message recorded hother
      exact absurd ((hplace _).symm.trans (congrArg Reader.place hother)) (by simp)
    · intro message recorded hother
      exact absurd ((hplace _).symm.trans (congrArg Reader.place hother)) (by simp)
    · intro message recorded assistant hother
      exact absurd ((hplace _).symm.trans (congrArg Reader.place hother)) (by simp)

omit [DecidableEq Socket] in
theorem openedFor_concat {database : Database} {handlers : Socket → Option Handler}
    (opening : Opening Socket) (sessionId : Uuid) (clientMsgId : String) :
    System.openedFor ⟨system.now, database, handlers, system.opened ++ [opening]⟩
        sessionId clientMsgId =
      system.openedFor sessionId clientMsgId ++
        if opening.sessionId = sessionId ∧ opening.clientMsgId = clientMsgId then [opening]
        else [] := by
  rw [System.openedFor, System.openedFor, List.filter_append, List.filter_singleton]
  congr 1
  simp

/-- A handler at the place in between opens the row under its key, and leaves the place. -/
theorem opens (h : OneTurn system) {socket : Socket} {handler new : Handler}
    {opening : Opening Socket} {database : Database}
    (hhandler : system.handlers socket = some handler)
    (hsession : opening.sessionId = handler.conn.sessionId)
    (hopens : handler.Opens opening.clientMsgId) (hnot : ∀ clientMsgId, ¬new.Opens clientMsgId)
    (hbacked : new.Backed fun clientMsgId _ ↦
      system.openedFor new.conn.sessionId clientMsgId ≠ [] ∨
        opening.sessionId = new.conn.sessionId ∧ opening.clientMsgId = clientMsgId)
    (hclient : ∀ sessionId clientMsgId,
      database.row (.clientMessage sessionId clientMsgId) = (none : Option Uuid) →
        system.database.row (.clientMessage sessionId clientMsgId) = (none : Option Uuid))
    (hmessage : ∀ messageId row, messageRow system.database messageId = some row →
      ∃ new, messageRow database messageId = some new ∧ row.SameMessage new)
    (hrow : ∃ row, messageRow database opening.messageId = some row ∧
      row.sessionId = opening.sessionId ∧ row.role = .assistant) :
    OneTurn ⟨system.now, database, Function.update system.handlers socket (some new),
      system.opened ++ [opening]⟩ := by
  constructor
  · refine forall_update (hbacked.mono fun clientMsgId _ hsome ↦ ?_) fun other old _ hold ↦
      (h.backed other old hold).mono fun clientMsgId _ hsome ↦ ?_
    · rw [openedFor_concat]
      rcases hsome with hsome | hsame
      · exact List.append_ne_nil_of_left_ne_nil hsome _
      · rw [if_pos hsame]
        exact List.append_ne_nil_of_right_ne_nil _ (List.cons_ne_nil _ _)
    · rw [openedFor_concat]
      exact List.append_ne_nil_of_left_ne_nil hsome _
  · intro sessionId clientMsgId hnoRow
    obtain ⟨hnone, hnotOld⟩ := h.absent _ _ (hclient _ _ hnoRow)
    constructor
    · rw [openedFor_concat, hnone, if_neg, List.append_nil]
      rintro ⟨rfl, rfl⟩
      exact hnotOld socket handler hhandler hsession.symm hopens
    · exact forall_update (fun _ ↦ hnot _) fun other old _ hold ↦ hnotOld other old hold
  · intro other otherHandler clientMsgId hother hopensOther
    by_cases hotherIs : other = socket
    · subst hotherIs
      simp only [Function.update_self, Option.some.injEq] at hother
      exact absurd (hother ▸ hopensOther) (hnot clientMsgId)
    · simp only [Function.update_of_ne hotherIs] at hother
      rw [openedFor_concat, h.unopened other otherHandler _ hother hopensOther, if_neg,
        List.nil_append]
      rintro ⟨hsame, rfl⟩
      exact hotherIs (h.unique other socket otherHandler handler _ hother hhandler
        (hsame.symm.trans hsession) hopensOther hopens)
  · intro first second firstHandler secondHandler clientMsgId hfirst hsecond hsame hopensFirst
      hopensSecond
    have hold : ∀ other otherHandler, Function.update system.handlers socket (some new) other =
        some otherHandler → otherHandler.Opens clientMsgId →
          system.handlers other = some otherHandler :=
      forall_update (fun hopens ↦ absurd hopens (hnot clientMsgId)) fun _ _ _ hold _ ↦ hold
    exact h.unique _ _ _ _ _ (hold _ _ hfirst hopensFirst) (hold _ _ hsecond hopensSecond) hsame
      hopensFirst hopensSecond
  · intro sessionId clientMsgId
    rw [openedFor_concat]
    split_ifs with hsame
    · obtain ⟨rfl, rfl⟩ := hsame
      rw [hsession, h.unopened socket handler _ hhandler hopens]
      simp
    · rw [List.append_nil]
      exact h.once _ _
  · intro other hother
    rcases List.mem_append.mp hother with hold | hlast
    · obtain ⟨row, hfound, hrowSession, hrole⟩ := h.rows other hold
      obtain ⟨kept, hkept, hkeptSession, -, hkeptRole, -⟩ := hmessage _ row hfound
      exact ⟨kept, hkept, hkeptSession.trans hrowSession, hkeptRole.trans hrole⟩
    · obtain rfl := List.mem_singleton.mp hlast
      exact hrow

/-- A submission that opens its row leaves the place in between. -/
theorem commit_opened (h : OneTurn system) {socket : Socket} {handler : Handler}
    {message : UserMessage} {recorded : RecordedUserMessage} {assistant : StoredMessage}
    {seq : ℕ} {database : Database} {lost : Bool}
    (hhandler : system.handlers socket = some handler)
    (hreader : handler.reader = ⟨.opening message recorded, none⟩)
    (hperform : perform system.now
      (.startAssistantMessage handler.conn.sessionId assistant.messageId)
      system.database = (.ok (.opened assistant), database))
    (hrow : messageRow database assistant.messageId =
      some ⟨handler.conn.sessionId, seq, .assistant, .streaming, "", none⟩) :
    OneTurn (system.commit socket handler .reader
      (.startAssistantMessage handler.conn.sessionId assistant.messageId) lost) := by
  set new := handler.answer (if lost then .raised none else .returned (.opened assistant))
    .reader with hnew
  have hnewReader : new.reader = ⟨.opening message recorded,
      some (if lost then .raised none else .returned (.opened assistant))⟩ := by
    rw [hnew, Handler.answer, hreader]
  have hsession : new.conn.sessionId = handler.conn.sessionId := by
    rw [hnew, Handler.answer_conn]
  have hcommit : system.commit socket handler .reader
      (.startAssistantMessage handler.conn.sessionId assistant.messageId) lost =
      ⟨system.now, database, Function.update system.handlers socket (some new), system.opened ++
        [⟨socket, handler.conn.sessionId, message.clientMsgId, assistant.messageId⟩]⟩ := by
    rw [System.commit, hperform]
    simp [Handler.openingFor, hreader, openings, replyOf, hnew]
  rw [hcommit]
  refine h.opens hhandler rfl (Or.inr ⟨message, recorded, hreader, rfl⟩) ?_ ?_
    (fun _ _ ↦ Postgres.clientMessage_absent_of_perform hperform)
    (fun _ _ ↦ Postgres.messageRow_of_perform hperform) ⟨_, hrow, rfl, rfl⟩
  · rintro clientMsgId (⟨other, _, hplace, -⟩ | ⟨other, _, hplace, -⟩)
    · rw [hnewReader] at hplace
      simp at hplace
    · rw [hnewReader] at hplace
      simp at hplace
  · have hbacked := h.backed socket handler hhandler
    rw [hsession]
    constructor
    · exact fun clientMsgId seq messageId reply hsent ↦
        Or.inl (hbacked.sent clientMsgId seq messageId reply hsent)
    · exact fun clientMsgId reply hlive ↦ Or.inl (hbacked.live clientMsgId reply hlive)
    · intro other otherRecorded hplace
      rw [hnewReader] at hplace
      simp at hplace
    · intro other otherRecorded hplace
      rw [hnewReader] at hplace
      simp at hplace
    · intro other otherRecorded otherAssistant hplace
      obtain rfl : message = other := by
        rw [hnewReader] at hplace
        simp only [Reader.mk.injEq, ReaderPlace.opening.injEq] at hplace
        exact hplace.1.1
      exact Or.inr ⟨rfl, rfl⟩

/-- The calls of the reader, one for each place in which it awaits one. -/
theorem commit_reader (h : OneTurn system) {socket : Socket} {handler : Handler} {drawn : Uuid}
    {operation : Operation} {lost : Bool} (hhandler : system.handlers socket = some handler)
    (hcall : handler.call settings drawn .reader = some operation)
    (hfinds : ∀ message, lost = false → handler.reader = ⟨.recovering message, none⟩ →
      system.openedFor handler.conn.sessionId message.clientMsgId ≠ []) :
    OneTurn (system.commit socket handler .reader operation lost) := by
  obtain ⟨place, hreader, hplace⟩ := Handler.call_reader hcall
  cases hperform : perform system.now operation system.database with
  | mk reply database =>
    -- A call that raised, or whose reply is lost, leaves the reader nothing to go on with.
    have hcalm : (∀ outcome, reply ≠ .ok outcome) ∨ lost = true →
        handler.Calm (handler.answer (if lost then .raised none else replyOf reply) .reader) := by
      intro hno
      refine handler.answer_calm _ _ fun _ outcome ↦ ?_
      rcases hno with hno | rfl
      · cases reply with
        | ok outcome => exact absurd rfl (hno outcome)
        | error error => split_ifs <;> simp [replyOf]
      · simp
    have hquiet : openings socket handler.conn.sessionId (handler.openingFor .reader) reply = [] →
        (∀ outcome, reply ≠ .ok outcome) ∨ lost = true →
        OneTurn (system.commit socket handler .reader operation lost) := by
      intro hnone hno
      refine h.commit_frame hhandler ?_ ?_ ?_
      · rw [hperform]
        exact hnone
      · rw [hperform]
        exact fun clientMsgId hopens ↦ hopens.of_calm (hcalm hno)
      · rw [hperform]
        exact (h.backed socket handler hhandler).calm (hcalm hno)
    cases reply with
    | error error =>
      refine hquiet ?_ (Or.inl (by simp))
      simp [openings]
    | ok outcome =>
      cases place with
      | recording message =>
        obtain rfl := Option.some.inj hplace
        obtain ⟨recorded, rfl, hcreated, hbefore, hstored⟩ :=
          Postgres.perform_recordUserMessage hperform
        cases lost with
        | true => exact hquiet (by simp [openings, Handler.openingFor, hreader]) (Or.inr rfl)
        | false => exact h.commit_recorded hhandler hreader hperform hcreated hbefore hstored
      | recovering message =>
        obtain rfl := Option.some.inj hplace
        obtain ⟨recorded, rfl, hcreated, rfl⟩ := Postgres.perform_byClientMsgId hperform
        cases lost with
        | true => exact hquiet (by simp [openings, Handler.openingFor, hreader]) (Or.inr rfl)
        | false =>
          exact h.commit_recovered hhandler hreader hperform hcreated (hfinds _ rfl hreader)
      | opening message recorded =>
        obtain rfl := Option.some.inj hplace
        obtain ⟨seq, rfl, -, hrow⟩ := Postgres.perform_startAssistantMessage hperform
        let assistant : StoredMessage := ⟨seq, drawn, .assistant, .streaming, ""⟩
        have hopened : perform system.now
            (.startAssistantMessage handler.conn.sessionId assistant.messageId) system.database =
              (.ok (.opened assistant), database) := hperform
        exact h.commit_opened hhandler hreader hopened hrow
      | resuming lastSeq => exact h.commit_resuming hhandler hreader
      | absent => exact absurd hplace (by simp [ReaderPlace.call])
      | starting => exact absurd hplace (by simp [ReaderPlace.call])
      | receiving => exact absurd hplace (by simp [ReaderPlace.call])
      | stopping failed => exact absurd hplace (by simp [ReaderPlace.call])
      | ended failed => exact absurd hplace (by simp [ReaderPlace.call])

/-- Every step keeps the invariant. -/
theorem step {event : Event Socket} (h : OneTurn system) (hfinds : FindsOpened system event)
    (hstep : system.step settings event = some after) : OneTurn after := by
  cases System.step_moves hstep with
  | tick duration =>
    exact h.frame rfl (fun _ _ _ hrow ↦ hrow) (fun _ row hrow ↦ ⟨row, hrow, rfl, rfl, rfl, rfl⟩)
      (fun _ handler hhandler ↦ Or.inl ⟨handler, hhandler, rfl, fun _ h ↦ h⟩) h.backed
  | job operation hchat =>
    exact h.frame rfl (fun _ _ _ ↦ Postgres.perform_clientMessage)
      (fun _ _ ↦ Postgres.perform_messageRow)
      (fun _ handler hhandler ↦ Or.inl ⟨handler, hhandler, rfl, fun _ h ↦ h⟩) h.backed
  | accept socket sessionId hnone =>
    refine h.frame rfl (fun _ _ _ hrow ↦ hrow)
      (fun _ row hrow ↦ ⟨row, hrow, rfl, rfl, rfl, rfl⟩) ?_ ?_
    · refine forall_update (Or.inr fun clientMsgId hopens ↦ ?_)
        fun other old _ hold ↦ Or.inl ⟨old, hold, rfl, fun _ h ↦ h⟩
      exact absurd hopens.owed (Reader.not_owed_of_none (by simp))
    · exact forall_update (.new settings sessionId) fun other old _ hold ↦ h.backed other old hold
  | store socket task drawn lost handler operation hhandler hcall =>
    cases task with
    | reader =>
      refine h.commit_reader hhandler hcall fun message hlost hreader ↦ ?_
      subst hlost
      exact hfinds handler hhandler message (by rw [hreader]; rfl)
    | serve =>
      have hcalm := fun reply ↦ handler.answer_calm reply .serve (by simp)
      exact h.commit_frame hhandler rfl (fun clientMsgId hopens ↦ hopens.of_calm (hcalm _))
        ((h.backed socket handler hhandler).calm (hcalm _))
    | turn id =>
      have hcalm := fun reply ↦ handler.answer_calm reply (.turn id) (by simp)
      exact h.commit_frame hhandler rfl (fun clientMsgId hopens ↦ hopens.of_calm (hcalm _))
        ((h.backed socket handler hhandler).calm (hcalm _))
  | fail socket task handler operation hhandler hcall =>
    have hcalm := handler.answer_calm (.raised none) task (by simp)
    exact h.setHandler hhandler hcalm.session (fun clientMsgId hopens ↦ hopens.of_calm hcalm)
      ((h.backed socket handler hhandler).calm hcalm)
  | act socket action handler next hhandler hnext =>
    exact h.setHandler hhandler (Handler.step_session hnext)
      (fun clientMsgId hopens ↦ hopens.of_step hnext)
      ((h.backed socket handler hhandler).step hnext)

end OneTurn

omit [DecidableEq Socket] in
theorem oneTurn_initial : OneTurn (.initial Socket) where
  backed _ _ h := by simp [System.initial] at h
  absent _ _ _ := ⟨rfl, fun _ _ h ↦ by simp [System.initial] at h⟩
  unopened _ _ _ h := by simp [System.initial] at h
  unique _ _ _ _ _ h := by simp [System.initial] at h
  once _ _ := Nat.zero_le _
  rows _ h := by simp [System.initial] at h

/-- No step forgets a row that was opened. -/
theorem System.opened_subset {settings : Settings} {system after : System Socket}
    {event : Event Socket} (h : system.step settings event = some after) :
    system.opened ⊆ after.opened := by
  cases System.step_moves h with
  | store => exact List.subset_append_left _ _
  | tick => exact List.Subset.refl _
  | job => exact List.Subset.refl _
  | accept => exact List.Subset.refl _
  | fail => exact List.Subset.refl _
  | act => exact List.Subset.refl _

/-- In a run in which no submission finds its key stored before the row is opened, a message that
was acked has exactly one reply row, and never gets another. -/
theorem acked_once {settings : Settings} {system after : System Socket}
    (hrun : System.Reaches settings FindsOpened (.initial Socket) system)
    (hlater : System.Reaches settings FindsOpened system after) {socket : Socket}
    {handler : Handler}
    (hhandler : system.handlers socket = some handler) {clientMsgId : String} {seq : ℕ}
    {messageId : Uuid} {reply : Option Uuid}
    (hacked : .ack clientMsgId seq messageId reply ∈ handler.conn.sent) :
    ∃ opening row, system.openedFor handler.conn.sessionId clientMsgId = [opening] ∧
      after.openedFor handler.conn.sessionId clientMsgId = [opening] ∧
        messageRow after.database opening.messageId = some row ∧
          row.sessionId = handler.conn.sessionId ∧ row.role = .assistant := by
  have hone : OneTurn system := hrun.invariant oneTurn_initial
    fun before event next h hallowed hstep ↦ h.step hallowed hstep
  obtain ⟨opening, rest, hopened⟩ :=
    List.exists_cons_of_ne_nil ((hone.backed socket handler hhandler).sent _ _ _ _ hacked)
  have hsingle : ∀ {later : System Socket}, OneTurn later →
      opening ∈ later.openedFor handler.conn.sessionId clientMsgId →
        later.openedFor handler.conn.sessionId clientMsgId = [opening] := by
    intro later hlaterOne hmem
    obtain ⟨only, honly⟩ := List.length_eq_one_iff.mp
      (le_antisymm (hlaterOne.once _ _) (List.length_pos_of_mem hmem))
    rw [honly] at hmem ⊢
    rw [List.mem_singleton.mp hmem]
  have hmem : opening ∈ system.openedFor handler.conn.sessionId clientMsgId := by
    rw [hopened]
    exact List.mem_cons_self
  obtain ⟨hopening, hkey⟩ := List.mem_filter.mp hmem
  have hafter : OneTurn after ∧ opening ∈ after.opened := by
    have hkept : ∀ before event next, OneTurn before ∧ opening ∈ before.opened →
        FindsOpened before event → before.step settings event = some next →
          OneTurn next ∧ opening ∈ next.opened := by
      rintro before event next ⟨hbefore, hold⟩ hallowed hstep
      exact ⟨hbefore.step hallowed hstep, System.opened_subset hstep hold⟩
    refine hlater.invariant ?_ hkept
    exact ⟨hone, hopening⟩
  obtain ⟨row, hrow, hsession, hrole⟩ := hafter.1.rows opening hafter.2
  refine ⟨opening, row, hsingle hone hmem, hsingle hafter.1 (List.mem_filter.mpr ⟨hafter.2, hkey⟩),
    hrow, ?_, hrole⟩
  rw [hsession]
  exact (of_decide_eq_true hkey).1

end Runs

/-! ### Runs of one client -/

/-- The message that the client submits and resubmits. -/
def question : UserMessage :=
  ⟨"why?", "key", by decide, by decide⟩

/-- A socket is accepted, and its session is there. -/
def opened : List (Event ℕ) :=
  [.accept 0 ⟨1⟩, .store 0 .serve ⟨0⟩ false, .act 0 (.runServe true), .act 0 (.runReader 0)]

/-- A submission that stores its message. -/
def submitted : List (Event ℕ) :=
  [.act 0 (.receive (.valid 1 (.userMessage question))), .store 0 .reader ⟨2⟩ false,
    .act 0 (.runReader 0)]

/-- A submission that finds its key stored, to its ack. -/
def resubmitted : List (Event ℕ) :=
  [.act 0 (.receive (.valid 1 (.userMessage question))), .store 0 .reader ⟨4⟩ false,
    .act 0 (.runReader 0), .store 0 .reader ⟨5⟩ false, .act 0 (.runReader 0)]

/-- Storing the message succeeds and opening its reply row fails. The client resubmits, as the error
frame says it may, and is acked without a reply row. -/
theorem acked_without_turn :
    ∃ system handler, System.Run .default system ∧ system.handlers 0 = some handler ∧
      handler.conn.sessionId = ⟨1⟩ ∧ .ack "key" 1 ⟨2⟩ none ∈ handler.conn.sent ∧
        system.openedFor ⟨1⟩ "key" = [] := by
  have hsteps : (System.initial ℕ).steps .default
      (opened ++ submitted ++ [.fail 0 .reader, .act 0 (.runReader 0)] ++ resubmitted) =
        some _ := rfl
  refine ⟨_, _, System.Run.steps .refl hsteps, rfl, rfl, ?_, rfl⟩
  exact List.mem_of_getLast? rfl

/-- The law at work: the message is submitted, acked, and submitted again. -/
theorem acked_once_resubmitted :
    ∃ (system after : System ℕ) (handler : Handler) (opening : Opening ℕ) (row : _),
      system.handlers 0 = some handler ∧
      .ack "key" 1 ⟨2⟩ (some ⟨3⟩) ∈ handler.conn.sent ∧
      system.openedFor handler.conn.sessionId "key" = [opening] ∧
      after.openedFor handler.conn.sessionId "key" = [opening] ∧
      messageRow after.database opening.messageId = some row ∧
      row.sessionId = handler.conn.sessionId ∧ row.role = .assistant := by
  obtain ⟨system, hsteps, ⟨after, hlater⟩, handler, hhandler, hsent⟩ : ∃ system,
      (System.initial ℕ).stepsWhile .default FindsOpened
        (opened ++ submitted ++ [.store 0 .reader ⟨3⟩ false, .act 0 (.runReader 0)]) =
          some system ∧
      (∃ after, system.stepsWhile .default FindsOpened resubmitted = some after) ∧
      ∃ handler, system.handlers 0 = some handler ∧
        .ack "key" 1 ⟨2⟩ (some ⟨3⟩) ∈ handler.conn.sent :=
    ⟨_, rfl, ⟨_, rfl⟩, _, rfl, List.mem_of_getLast? rfl⟩
  obtain ⟨opening, row, h⟩ := acked_once (System.Reaches.of_stepsWhile hsteps)
    (System.Reaches.of_stepsWhile hlater) hhandler hsent
  exact ⟨system, after, handler, opening, row, hhandler, hsent, h⟩

end Abacus.Chat
