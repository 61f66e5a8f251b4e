import Abacus.Chat.Turns
import Abacus.Chat.Written

/-!
# What a step passes to `send`

A step of a handler passes at most one frame to `send` that acks a submission or belongs to a
stream: the ack of a submission that found its key stored, the ack of a turn that starts, and the
`delta` or `done` of a turn that goes on. Everything else it sends is plain
(`ServerFrame.plain`). `Handler.step_speaks` says of a step which frames it sends and what it does
to the turns, to the live replies and to the submission that the reader is at.
-/

set_option autoImplicit false
set_option relaxedAutoImplicit false

namespace Abacus

/-- A frame that neither acks a submission nor belongs to a stream. -/
def ServerFrame.plain : ServerFrame → Bool
  | .ack _ _ _ _ => false
  | .delta _ _ _ => false
  | .done _ _ => false
  | _ => true

theorem plain_replayed (row : SessionRow) : (replayed row).plain = true := by
  cases row <;> rfl

namespace Chat

open Postgres (Outcome StoreError)

/-! ### The submission that the reader is at -/

namespace Reader

/-- The submission between its cap check and its ack. -/
def submission (reader : Reader) : Option UserMessage :=
  match reader.place with
  | .recording message => some message
  | .recovering message => some message
  | .opening message _ => some message
  | _ => none

/-- The reader has stored a message under the key, and its turn is not a task yet. -/
def Claims (reader : Reader) (clientMsgId : String) : Prop :=
  (∃ message recorded,
    (reader = ⟨.recording message, some (.returned (.recorded recorded))⟩ ∨
      reader = ⟨.recovering message, some (.returned (.recorded recorded))⟩) ∧
    recorded.created = true ∧ message.clientMsgId = clientMsgId) ∨
  ∃ message recorded, reader.place = .opening message recorded ∧
    message.clientMsgId = clientMsgId

theorem Claims.submission {reader : Reader} {clientMsgId : String} (h : reader.Claims clientMsgId) :
    reader.submission ≠ none := by
  rcases h with ⟨message, recorded, hreader | hreader, -⟩ | ⟨message, recorded, hplace, -⟩
  · rw [hreader]
    exact Option.some_ne_none message
  · rw [hreader]
    exact Option.some_ne_none message
  · rw [Reader.submission, hplace]
    exact Option.some_ne_none message

/-- A reader with no result to go on with has stored a message only at `opening`. -/
theorem Claims.opening {place : ReaderPlace} {pending : Option Reply} {clientMsgId : String}
    (h : (Reader.mk place pending).Claims clientMsgId)
    (hpending : ∀ outcome, pending ≠ some (.returned outcome)) :
    ∃ message recorded, place = .opening message recorded ∧ message.clientMsgId = clientMsgId := by
  rcases h with ⟨message, recorded, hreader | hreader, -⟩ | hopening
  · exact absurd (congrArg Reader.pending hreader) (hpending _)
  · exact absurd (congrArg Reader.pending hreader) (hpending _)
  · exact hopening

end Reader

namespace Handler

/-- How a step that sends no ack may move the reader: it comes to a submission only through the cap
check, and stores no message. -/
structure ReaderSpeaks (settings : Settings) (handler after : Handler) : Prop where
  submission : after.reader.submission ≠ none →
    handler.reader.submission ≠ none ∨ handler.turns.length < settings.wsMaxConcurrentTurns
  claims : ∀ clientMsgId, after.reader.Claims clientMsgId → handler.reader.Claims clientMsgId

namespace ReaderSpeaks

variable {settings : Settings} {handler after : Handler}

theorem of_eq (h : after.reader = handler.reader) : ReaderSpeaks settings handler after where
  submission hsome := Or.inl (h ▸ hsome)
  claims _ hclaims := h ▸ hclaims

/-- A reader that leaves its submission, or had none. -/
theorem of_none (h : after.reader.submission = none) : ReaderSpeaks settings handler after where
  submission hsome := absurd h hsome
  claims _ hclaims := absurd h hclaims.submission

/-- A reader that is cancelled where it is. -/
theorem of_cancelled (h : after.reader = ⟨handler.reader.place, some .cancelled⟩) :
    ReaderSpeaks settings handler after where
  submission hsome := by
    rw [h] at hsome
    exact Or.inl hsome
  claims clientMsgId hclaims := by
    rw [h] at hclaims
    exact Or.inr (hclaims.opening (by simp))

end ReaderSpeaks

/-! ### The steps -/

/-- How a turn goes on by itself, and the frames it sends. -/
inductive TurnSpeaks : Turn → Turn → List ServerFrame → Prop
  | begins {turn : Turn} (hplace : turn.place = .starting) :
    TurnSpeaks turn { turn with place := .responding [] } []
  | chunk {turn : Turn} (chunks : List String) (text : String)
    (hplace : turn.place = .responding chunks) :
    TurnSpeaks turn { turn with place := .yielding (chunks ++ [text]) }
      [.delta turn.assistant.messageId chunks.length text]
  | slept {turn : Turn} (chunks : List String) (hplace : turn.place = .yielding chunks) :
    TurnSpeaks turn { turn with place := .responding chunks } []
  | exhausted {turn : Turn} (chunks : List String) (hplace : turn.place = .responding chunks)
    (hpending : turn.pending = none) : TurnSpeaks turn { turn with place := .completing chunks } []
  | raised {turn : Turn} (chunks : List String) (hplace : turn.place = .responding chunks) :
    TurnSpeaks turn { turn with place := .failing false } []
  | completed {turn : Turn} (chunks : List String) (outcome : Outcome)
    (hplace : turn.place = .completing chunks)
    (hpending : turn.pending = some (.returned outcome)) :
    TurnSpeaks turn { turn with place := .ended, pending := none }
      [.done turn.assistant.messageId turn.assistant.seq]
  | notCompleted {turn : Turn} (chunks : List String) (hplace : turn.place = .completing chunks) :
    TurnSpeaks turn { turn with place := .failing false, pending := none } []
  | failed {turn : Turn} (cancelled : Bool) (frames : List ServerFrame)
    (hplace : turn.place = .failing cancelled) (hplain : ∀ frame ∈ frames, frame.plain = true) :
    TurnSpeaks turn { turn with place := .ended, pending := none } frames
  | neverStarted {turn : Turn} (hplace : turn.place = .starting) :
    TurnSpeaks turn { turn with place := .ended, pending := none } []
  | cancelled {turn : Turn} (chunks : List String)
    (hplace : turn.place = .responding chunks ∨ turn.place = .yielding chunks ∨
      turn.place = .completing chunks) :
    TurnSpeaks turn { turn with place := .failing true, pending := none, marking := true } []

theorem TurnSpeaks.assistant {turn moved : Turn} {frames : List ServerFrame}
    (h : TurnSpeaks turn moved frames) : moved.assistant = turn.assistant := by
  cases h <;> rfl

theorem TurnSpeaks.clientMsgId {turn moved : Turn} {frames : List ServerFrame}
    (h : TurnSpeaks turn moved frames) : moved.clientMsgId = turn.clientMsgId := by
  cases h <;> rfl

/-- A turn that has ended does not go on. -/
theorem TurnSpeaks.not_ended {turn moved : Turn} {frames : List ServerFrame}
    (h : TurnSpeaks turn moved frames) : turn.place ≠ .ended := by
  intro hended
  cases h with
  | begins hplace => exact TurnPlace.noConfusion (hended.symm.trans hplace)
  | chunk chunks text hplace => exact TurnPlace.noConfusion (hended.symm.trans hplace)
  | slept chunks hplace => exact TurnPlace.noConfusion (hended.symm.trans hplace)
  | exhausted chunks hplace => exact TurnPlace.noConfusion (hended.symm.trans hplace)
  | raised chunks hplace => exact TurnPlace.noConfusion (hended.symm.trans hplace)
  | completed chunks outcome hplace => exact TurnPlace.noConfusion (hended.symm.trans hplace)
  | notCompleted chunks hplace => exact TurnPlace.noConfusion (hended.symm.trans hplace)
  | failed cancelled frames hplace => exact TurnPlace.noConfusion (hended.symm.trans hplace)
  | neverStarted hplace => exact TurnPlace.noConfusion (hended.symm.trans hplace)
  | cancelled chunks hplace => simp [hended] at hplace

/-- A turn that goes on acks nothing. -/
theorem TurnSpeaks.noAck {turn moved : Turn} {frames : List ServerFrame}
    (h : TurnSpeaks turn moved frames) : ∀ frame ∈ frames, NoAck frame := by
  cases h with
  | chunk chunks text => simp [NoAck]
  | completed => simp [NoAck]
  | failed cancelled frames hplace hplain =>
    intro frame hframe clientMsgId seq messageId reply heq
    have hfalse := hplain frame hframe
    rw [heq] at hfalse
    exact Bool.noConfusion hfalse
  | _ => simp

/-- What a step of a handler says: nothing but plain frames, or one ack, or what a turn says that
goes on; or an ended turn is taken out. -/
inductive Speaks (settings : Settings) (handler : Handler) (action : Action) : Handler → Prop
  | quiet {after : Handler} (frames : List ServerFrame)
    (hsent : after.conn.sent = handler.conn.sent ++ frames)
    (hplain : ∀ frame ∈ frames, frame.plain = true)
    (htasks : ∀ id, after.tasks id = handler.tasks id ∨
      after.tasks id = (handler.tasks id).map Turn.cancel)
    (hturns : after.turns = handler.turns) (hlive : after.liveReplies = handler.liveReplies)
    (hreader : ReaderSpeaks settings handler after) : Speaks settings handler action after
  | replayed (message : UserMessage) (recorded : RecordedUserMessage)
    (hreader : handler.reader = ⟨.recording message, some (.returned (.recorded recorded))⟩ ∨
      handler.reader = ⟨.recovering message, some (.returned (.recorded recorded))⟩)
    (hcreated : recorded.created = false) (haction : ∃ fresh, action = .runReader fresh) :
    Speaks settings handler action
      ((handler.acknowledge message recorded (handler.liveReplies message.clientMsgId)).setReader
        .receiving)
  | started (message : UserMessage) (recorded : RecordedUserMessage) (assistant : StoredMessage)
    (fresh : ℕ)
    (hreader : handler.reader = ⟨.opening message recorded, some (.returned (.opened assistant))⟩)
    (hfresh : handler.tasks fresh = none) :
    Speaks settings handler action (handler.startTurn message recorded assistant fresh)
  | turn {after : Handler} (id : ℕ) (turn moved : Turn) (frames : List ServerFrame)
    (hturn : handler.tasks id = some turn) (hmoves : TurnSpeaks turn moved frames)
    (hsent : after.conn.sent = handler.conn.sent ++ frames)
    (htasks : after.tasks = Function.update handler.tasks id (some moved))
    (hturns : after.turns = handler.turns) (hlive : after.liveReplies = handler.liveReplies)
    (hreader : after.reader = handler.reader) : Speaks settings handler action after
  | finished (id : ℕ) (turn : Turn) (hturn : handler.tasks id = some turn)
    (hended : turn.place = .ended) (hlisted : id ∈ handler.turns) :
    Speaks settings handler action (handler.finished id turn)

variable {settings : Settings} {handler after : Handler} {action : Action}

namespace Speaks

/-- A step that sends nothing and leaves the turns. -/
theorem silent (hsent : after.conn.sent = handler.conn.sent) (htasks : after.tasks = handler.tasks)
    (hturns : after.turns = handler.turns) (hlive : after.liveReplies = handler.liveReplies)
    (hreader : ReaderSpeaks settings handler after) : Speaks settings handler action after := by
  refine .quiet [] ?_ (by simp) (fun id ↦ Or.inl (congrFun htasks id)) hturns hlive hreader
  rw [hsent, List.append_nil]

/-- A step that sends one plain frame and leaves the turns. -/
theorem sends {frame : ServerFrame} (hplain : frame.plain = true)
    (hconn : after.conn = handler.conn.send frame) (htasks : after.tasks = handler.tasks)
    (hturns : after.turns = handler.turns) (hlive : after.liveReplies = handler.liveReplies)
    (hreader : ReaderSpeaks settings handler after) : Speaks settings handler action after := by
  refine .quiet [frame] ?_ (by simpa using hplain) (fun id ↦ Or.inl (congrFun htasks id)) hturns
    hlive hreader
  rw [hconn, Connection.sent_send]

/-- A step that cancels the turns. -/
theorem cancels (hconn : after.conn = handler.conn)
    (htasks : after.tasks = handler.cancelTurns.tasks)
    (hturns : after.turns = handler.turns) (hlive : after.liveReplies = handler.liveReplies)
    (hreader : ReaderSpeaks settings handler after) : Speaks settings handler action after := by
  refine .quiet [] ?_ (by simp) (fun id ↦ ?_) hturns hlive hreader
  · rw [hconn, List.append_nil]
  · rw [htasks, cancelTurns]
    by_cases hid : id ∈ handler.turns
    · exact Or.inr (if_pos hid)
    · exact Or.inl (if_neg hid)

end Speaks

theorem stopReader_speaks (settings : Settings) (handler : Handler) (failed : Bool) :
    Speaks settings handler action (handler.stopReader failed) := by
  refine .cancels rfl rfl rfl rfl (.of_none ?_)
  simp only [stopReader, setReader]
  split_ifs <;> rfl

theorem cancelBoth_speaks (hconn : after.conn = handler.cancelBoth.conn)
    (htasks : after.tasks = handler.cancelBoth.tasks)
    (hturns : after.turns = handler.cancelBoth.turns)
    (hlive : after.liveReplies = handler.cancelBoth.liveReplies)
    (hreader : after.reader = handler.cancelBoth.reader) :
    Speaks settings handler action after := by
  obtain ⟨writer, hwriter⟩ := handler.cancelWriter_eq
  rw [cancelBoth, hwriter] at hconn htasks hturns hlive hreader
  obtain hsame | ⟨-, hcancel⟩ | hcancel := cancelReader_cases { handler with writer := writer }
  · rw [hsame] at hconn htasks hturns hlive hreader
    exact .silent (congrArg Connection.sent hconn) htasks hturns hlive (.of_eq hreader)
  · rw [hcancel] at hconn htasks hturns hlive hreader
    exact .cancels hconn htasks hturns hlive (.of_eq hreader)
  · rw [hcancel] at hconn htasks hturns hlive hreader
    exact .silent (congrArg Connection.sent hconn) htasks hturns hlive (.of_cancelled hreader)

/-- A turn speaks on each of its branches. -/
theorem TurnBranch.speaks {turn moved : Turn} {input : Option TurnInput} {frames : List ServerFrame}
    (h : TurnBranch turn input moved frames) : TurnSpeaks turn moved frames := by
  cases h with
  | begins hplace => exact .begins hplace
  | chunk chunks text hplace => exact .chunk chunks text hplace
  | slept chunks hplace => exact .slept chunks hplace
  | exhausted chunks hplace hpending => exact .exhausted chunks hplace hpending
  | raised chunks hplace => exact .raised chunks hplace
  | completed chunks outcome hplace hpending => exact .completed chunks outcome hplace hpending
  | notCompleted chunks error hplace => exact .notCompleted chunks hplace
  | notMarked hplace => exact .failed false [] hplace (by simp)
  | marked reply hplace => exact .failed false _ hplace (by simp [ServerFrame.plain])
  | unwound reply hplace => exact .failed true [] hplace (by simp)
  | neverStarted hplace => exact .neverStarted hplace
  | cancelled chunks hplace => exact .cancelled chunks hplace

/-- Every step of a handler says one of these. -/
theorem step_speaks (h : handler.step settings action = some after) :
    Speaks settings handler action after := by
  cases step_branch h with
  | invalid | newer | pings | refuses => exact .sends rfl rfl rfl rfl rfl (.of_eq rfl)
  | submits v message hreader hversion hcap =>
    refine .silent rfl rfl rfl rfl ⟨fun _ ↦ Or.inr hcap, fun clientMsgId hclaims ↦ ?_⟩
    obtain ⟨_, _, hplace, -⟩ := hclaims.opening (by simp)
    exact ReaderPlace.noConfusion hplace
  | conflicts fresh message error hreader =>
    refine .silent rfl rfl rfl rfl ⟨fun _ ↦ Or.inl ?_, fun clientMsgId hclaims ↦ ?_⟩
    · rw [hreader]
      exact Option.some_ne_none message
    · obtain ⟨_, _, hplace, -⟩ := hclaims.opening (by simp)
      exact ReaderPlace.noConfusion hplace
  | stored fresh message recorded hreader hcreated =>
    refine .silent rfl rfl rfl rfl ⟨fun _ ↦ Or.inl ?_, fun clientMsgId hclaims ↦ ?_⟩
    · rcases hreader with hreader | hreader
      · rw [hreader]
        exact Option.some_ne_none message
      · rw [hreader]
        exact Option.some_ne_none message
    · obtain ⟨other, _, hplace, hkey⟩ := hclaims.opening (by simp)
      obtain ⟨rfl, -⟩ := ReaderPlace.opening.inj hplace
      exact Or.inl ⟨message, recorded, hreader, hcreated, hkey⟩
  | found fresh message recorded hreader hcreated =>
    exact .replayed message recorded hreader hcreated ⟨fresh, rfl⟩
  | starts fresh message recorded assistant hreader hfresh =>
    exact .started message recorded assistant fresh hreader hfresh
  | notStored | tooOld | notReplayed => exact .sends rfl rfl rfl rfl rfl (.of_none rfl)
  | replays fresh lastSeq missed =>
    refine .quiet (missed.map Abacus.replayed) (Connection.sent_sendAll _ _) (fun frame hframe ↦ ?_)
      (fun id ↦ Or.inl rfl) rfl rfl (.of_none rfl)
    obtain ⟨row, -, rfl⟩ := List.mem_map.mp hframe
    exact plain_replayed row
  | disconnects | stopped => exact stopReader_speaks settings handler _
  | responds id input turn moved frames hturn hbranch =>
    exact .turn id turn moved frames hturn hbranch.speaks (Connection.sent_sendAll _ _)
      rfl rfl rfl rfl
  | runs id turn moved frames hturn hbranch =>
    exact .turn id turn moved frames hturn hbranch.speaks (Connection.sent_sendAll _ _)
      rfl rfl rfl rfl
  | finishes id turn hturn hended hlisted => exact .finished id turn hturn hended hlisted
  | advances | accepted => exact .silent (Writer.sent_next handler.conn) rfl rfl rfl (.of_eq rfl)
  | drains =>
    refine .quiet [.error .goingAway "server is shutting down" true]
      (Connection.sent_requestClose _ _ _) ?_ (fun id ↦ Or.inl rfl) rfl rfl (.of_eq rfl)
    simp [ServerFrame.plain]
  | stops | unwinds | interrupted | again => exact cancelBoth_speaks rfl rfl rfl rfl rfl
  | resumes | receives | gathers | neverRead | opens =>
    exact .silent rfl rfl rfl rfl (.of_none rfl)
  | peerGone | writeRaises | notOpened | notServed | closes | unwound | closed | cancelled =>
    exact .silent rfl rfl rfl rfl (.of_eq rfl)

end Handler

end Chat

end Abacus
