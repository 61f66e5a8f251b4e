import Abacus.Chat.Handler

/-!
# The branches of a step

`Handler.step_branch` inverts a step of a handler once: a step runs through one branch of the
source, and each has its constructor, with what led into it and the handler it leaves
(`Handler.Branch`; `Handler.TurnBranch` for a turn). What a step does to the turns, to the acks, to
`serve`, to the connection and to the frames that came in is read off the branches.
-/

set_option autoImplicit false
set_option relaxedAutoImplicit false

namespace Abacus

namespace Chat

open Postgres (Outcome StoreError)

namespace Handler

/-! ### The branches -/

/-- How a turn goes on, with what the responder gave it or with a reply, and the frames it sends. -/
inductive TurnBranch (turn : Turn) : Option TurnInput → Turn → List ServerFrame → Prop
  | begins (hplace : turn.place = .starting) (hpending : turn.pending = none) :
    TurnBranch turn (some .begin) { turn with place := .responding [] } []
  | chunk (chunks : List String) (text : String) (hplace : turn.place = .responding chunks)
    (hpending : turn.pending = none) :
    TurnBranch turn (some (.chunk text)) { turn with place := .yielding (chunks ++ [text]) }
      [.delta turn.assistant.messageId chunks.length text]
  | slept (chunks : List String) (hplace : turn.place = .yielding chunks)
    (hpending : turn.pending = none) :
    TurnBranch turn (some .slept) { turn with place := .responding chunks } []
  | exhausted (chunks : List String) (hplace : turn.place = .responding chunks)
    (hpending : turn.pending = none) :
    TurnBranch turn (some .exhausted) { turn with place := .completing chunks } []
  | raised (chunks : List String) (hplace : turn.place = .responding chunks)
    (hpending : turn.pending = none) :
    TurnBranch turn (some .raised) { turn with place := .failing false } []
  | completed (chunks : List String) (outcome : Outcome) (hplace : turn.place = .completing chunks)
    (hpending : turn.pending = some (.returned outcome)) :
    TurnBranch turn none { turn with place := .ended, pending := none }
      [.done turn.assistant.messageId turn.assistant.seq]
  | notCompleted (chunks : List String) (error : Option StoreError)
    (hplace : turn.place = .completing chunks) (hpending : turn.pending = some (.raised error)) :
    TurnBranch turn none { turn with place := .failing false, pending := none } []
  | notMarked (hplace : turn.place = .failing false) (hpending : turn.pending = some .cancelled) :
    TurnBranch turn none { turn with place := .ended, pending := none } []
  | marked (reply : Reply) (hplace : turn.place = .failing false)
    (hpending : turn.pending = some reply) :
    TurnBranch turn none { turn with place := .ended, pending := none }
      [.error .internal "the turn failed" true]
  | unwound (reply : Reply) (hplace : turn.place = .failing true)
    (hpending : turn.pending = some reply) :
    TurnBranch turn none { turn with place := .ended, pending := none } []
  | neverStarted (hplace : turn.place = .starting) (hpending : turn.pending = some .cancelled) :
    TurnBranch turn none { turn with place := .ended, pending := none } []
  | cancelled (chunks : List String)
    (hplace : turn.place = .responding chunks ∨ turn.place = .yielding chunks ∨
      turn.place = .completing chunks) (hpending : turn.pending = some .cancelled) :
    TurnBranch turn none { turn with place := .failing true, pending := none, marking := true } []

/-- What a step runs through. -/
inductive Branch (settings : Settings) (handler : Handler) : Action → Handler → Prop
  | invalid (errorCount : ℕ) (hreader : handler.reader = ⟨.receiving, none⟩) :
    Branch settings handler (.receive (.invalid errorCount))
      (handler.send (.error .badFrame (toString errorCount ++ " validation error(s)") false))
  | newer (v : Int) (frame : ClientFrame) (hreader : handler.reader = ⟨.receiving, none⟩)
    (hversion : protocolVersion < v) :
    Branch settings handler (.receive (.valid v frame)) (handler.send
      (.error .unsupportedVersion ("this server speaks v" ++ toString protocolVersion) false))
  | pings (v : Int) (hreader : handler.reader = ⟨.receiving, none⟩)
    (hversion : v ≤ protocolVersion) :
    Branch settings handler (.receive (.valid v .ping)) (handler.send .pong)
  | resumes (v : Int) (lastSeq : ℕ) (hreader : handler.reader = ⟨.receiving, none⟩)
    (hversion : v ≤ protocolVersion) :
    Branch settings handler (.receive (.valid v (.resume lastSeq)))
      (handler.setReader (.resuming lastSeq))
  | refuses (v : Int) (message : UserMessage) (hreader : handler.reader = ⟨.receiving, none⟩)
    (hversion : v ≤ protocolVersion)
    (hcap : settings.wsMaxConcurrentTurns ≤ handler.turns.length) :
    Branch settings handler (.receive (.valid v (.userMessage message))) (handler.send
      (.error .tooManyTurns "too many turns in flight on this connection" true))
  | submits (v : Int) (message : UserMessage) (hreader : handler.reader = ⟨.receiving, none⟩)
    (hversion : v ≤ protocolVersion)
    (hcap : handler.turns.length < settings.wsMaxConcurrentTurns) :
    Branch settings handler (.receive (.valid v (.userMessage message)))
      (handler.setReader (.recording message))
  | disconnects (failed : Bool) (hreader : handler.reader = ⟨.receiving, none⟩) :
    Branch settings handler (.disconnect failed) (handler.stopReader failed)
  | receives (fresh : ℕ) (hreader : handler.reader = ⟨.starting, none⟩) :
    Branch settings handler (.runReader fresh) (handler.setReader .receiving)
  | gathers (fresh : ℕ) (failed : Bool) (hreader : handler.reader = ⟨.stopping failed, none⟩)
    (hturns : handler.turns = []) :
    Branch settings handler (.runReader fresh) (handler.setReader (.ended failed))
  | stored (fresh : ℕ) (message : UserMessage) (recorded : RecordedUserMessage)
    (hreader : handler.reader = ⟨.recording message, some (.returned (.recorded recorded))⟩ ∨
      handler.reader = ⟨.recovering message, some (.returned (.recorded recorded))⟩)
    (hcreated : recorded.created = true) :
    Branch settings handler (.runReader fresh) (handler.setReader (.opening message recorded))
  | found (fresh : ℕ) (message : UserMessage) (recorded : RecordedUserMessage)
    (hreader : handler.reader = ⟨.recording message, some (.returned (.recorded recorded))⟩ ∨
      handler.reader = ⟨.recovering message, some (.returned (.recorded recorded))⟩)
    (hcreated : recorded.created = false) :
    Branch settings handler (.runReader fresh)
      ((handler.acknowledge message recorded (handler.liveReplies message.clientMsgId)).setReader
        .receiving)
  | conflicts (fresh : ℕ) (message : UserMessage) (error : Option StoreError)
    (hreader : handler.reader = ⟨.recording message, some (.raised error)⟩) :
    Branch settings handler (.runReader fresh) (handler.setReader (.recovering message))
  | starts (fresh : ℕ) (message : UserMessage) (recorded : RecordedUserMessage)
    (assistant : StoredMessage)
    (hreader : handler.reader = ⟨.opening message recorded, some (.returned (.opened assistant))⟩)
    (hfresh : handler.tasks fresh = none) :
    Branch settings handler (.runReader fresh)
      (handler.startTurn message recorded assistant fresh)
  | notStored (fresh : ℕ) (message : UserMessage) (place : ReaderPlace) (error : Option StoreError)
    (hreader : handler.reader = ⟨place, some (.raised error)⟩)
    (hplace : place = .recording message ∨ place = .recovering message ∨
      ∃ recorded, place = .opening message recorded) :
    Branch settings handler (.runReader fresh) handler.notStored
  | tooOld (fresh lastSeq : ℕ) (missed : List SessionRow)
    (hreader : handler.reader = ⟨.resuming lastSeq, some (.returned (.log missed))⟩)
    (hmissed : settings.wsResumeMaxMessages < missed.length) :
    Branch settings handler (.runReader fresh)
      ((handler.send (.error .resumeTooOld
        ("more than " ++ toString settings.wsResumeMaxMessages ++ " entries since seq " ++
          toString lastSeq) false)).setReader .receiving)
  | replays (fresh lastSeq : ℕ) (missed : List SessionRow)
    (hreader : handler.reader = ⟨.resuming lastSeq, some (.returned (.log missed))⟩)
    (hmissed : missed.length ≤ settings.wsResumeMaxMessages) :
    Branch settings handler (.runReader fresh)
      ({ handler with conn := handler.conn.sendAll (missed.map replayed) }.setReader .receiving)
  | notReplayed (fresh lastSeq : ℕ) (error : Option StoreError)
    (hreader : handler.reader = ⟨.resuming lastSeq, some (.raised error)⟩) :
    Branch settings handler (.runReader fresh) handler.notReplayed
  | neverRead (fresh : ℕ) (hreader : handler.reader = ⟨.starting, some .cancelled⟩) :
    Branch settings handler (.runReader fresh) (handler.setReader (.ended false))
  | stopped (fresh : ℕ) (place : ReaderPlace) (hreader : handler.reader = ⟨place, some .cancelled⟩)
    (habsent : place ≠ .absent) (hstarted : place ≠ .starting)
    (hrunning : place.finished = false) :
    Branch settings handler (.runReader fresh) (handler.stopReader false)
  | responds (id : ℕ) (input : TurnInput) (turn moved : Turn) (frames : List ServerFrame)
    (hturn : handler.tasks id = some turn) (hbranch : TurnBranch turn (some input) moved frames) :
    Branch settings handler (.respond id input)
      ({ handler with conn := handler.conn.sendAll frames }.setTurn id moved)
  | runs (id : ℕ) (turn moved : Turn) (frames : List ServerFrame)
    (hturn : handler.tasks id = some turn) (hbranch : TurnBranch turn none moved frames) :
    Branch settings handler (.runTurn id)
      ({ handler with conn := handler.conn.sendAll frames }.setTurn id moved)
  | finishes (id : ℕ) (turn : Turn) (hturn : handler.tasks id = some turn)
    (hended : turn.place = .ended) (hlisted : id ∈ handler.turns) :
    Branch settings handler (.finished id) (handler.finished id turn)
  | advances (hready : handler.writer = .starting ∨ handler.writer = .getting) :
    Branch settings handler .runWriter handler.advanceWriter
  | accepted (frame : ServerFrame) (hwriting : handler.writer = .writing frame) :
    Branch settings handler (.write .accepted) handler.advanceWriter
  | peerGone (frame : ServerFrame) (hwriting : handler.writer = .writing frame) :
    Branch settings handler (.write .peerGone) { handler with writer := .returned wsNormal }
  | writeRaises (frame : ServerFrame) (hwriting : handler.writer = .writing frame) :
    Branch settings handler (.write .raised) { handler with writer := .raised }
  | drains :
    Branch settings handler .drain
      { handler with
        conn := handler.conn.requestClose wsServiceRestart
          (some (.error .goingAway "server is shutting down" true)) }
  | opens (writerLast : Bool) (hopening : handler.serve.place = .opening) :
    Branch settings handler (.runServe writerLast)
      ({ handler with writer := .starting, reader := ⟨.starting, none⟩ }.setServe .waiting)
  | notOpened (writerLast : Bool) (hopening : handler.serve.place = .opening) :
    Branch settings handler (.runServe writerLast) (handler.setServe (.closing wsInternalError))
  | notServed (writerLast : Bool) (hopening : handler.serve.place = .opening) :
    Branch settings handler (.runServe writerLast) (handler.setServe .ended)
  | stops (writerLast : Bool) (hwaiting : handler.serve.place = .waiting)
    (hpending : handler.serve.pending = none)
    (hfinished : (handler.writer.finished || handler.reader.place.finished) = true) :
    Branch settings handler (.runServe writerLast)
      (handler.cancelBoth.setServe (.stopping (handler.closeCode writerLast)))
  | unwinds (writerLast : Bool) (hwaiting : handler.serve.place = .waiting)
    (hpending : handler.serve.pending = some .cancelled) :
    Branch settings handler (.runServe writerLast) (handler.cancelBoth.setServe .unwinding)
  | closes (writerLast : Bool) (code : ℕ) (hstopping : handler.serve.place = .stopping code)
    (hfinished : (handler.writer.finished && handler.reader.place.finished) = true) :
    Branch settings handler (.runServe writerLast) (handler.setServe (.closing code))
  | unwound (writerLast : Bool) (hunwinding : handler.serve.place = .unwinding)
    (hfinished : (handler.writer.finished && handler.reader.place.finished) = true) :
    Branch settings handler (.runServe writerLast) (handler.setServe .ended)
  | closed (writerLast : Bool) (code : ℕ) (hclosing : handler.serve.place = .closing code) :
    Branch settings handler (.runServe writerLast) (handler.setServe .ended)
  | interrupted (code : ℕ) (hstopping : handler.serve.place = .stopping code) :
    Branch settings handler .cancel (handler.cancelBoth.setServe .unwinding)
  | again (hunwinding : handler.serve.place = .unwinding) :
    Branch settings handler .cancel handler.cancelBoth
  | cancelled : Branch settings handler .cancel
      { handler with serve := ⟨handler.serve.place, some .cancelled⟩ }

/-! ### Every step is one of these -/

variable {settings : Settings} {handler after : Handler}

theorem dispatch_branch (settings : Settings) (inbound : Inbound)
    (hreader : handler.reader = ⟨.receiving, none⟩) :
    handler.Branch settings (.receive inbound) (handler.dispatch settings inbound) := by
  cases inbound with
  | invalid errorCount => exact .invalid errorCount hreader
  | valid v frame =>
    unfold dispatch
    by_cases hversion : protocolVersion < v
    · simp only [if_pos hversion]
      exact .newer v frame hreader hversion
    · simp only [if_neg hversion]
      have hspoken := not_lt.mp hversion
      cases frame with
      | ping => exact .pings v hreader hspoken
      | resume lastSeq => exact .resumes v lastSeq hreader hspoken
      | userMessage message =>
        dsimp only
        split_ifs with hcap
        · exact .refuses v message hreader hspoken hcap
        · exact .submits v message hreader hspoken (not_le.mp hcap)

theorem recorded_branch {fresh : ℕ} {message : UserMessage} {recorded : RecordedUserMessage}
    (hreader : handler.reader = ⟨.recording message, some (.returned (.recorded recorded))⟩ ∨
      handler.reader = ⟨.recovering message, some (.returned (.recorded recorded))⟩) :
    handler.Branch settings (.runReader fresh) (handler.recorded message recorded) := by
  unfold Handler.recorded
  split_ifs with hcreated
  · exact .stored fresh message recorded hreader hcreated
  · exact .found fresh message recorded hreader (by simpa using hcreated)

theorem replay_branch {fresh lastSeq : ℕ} {missed : List SessionRow}
    (hreader : handler.reader = ⟨.resuming lastSeq, some (.returned (.log missed))⟩) :
    handler.Branch settings (.runReader fresh)
      ((handler.replay settings lastSeq missed).setReader .receiving) := by
  unfold replay
  split_ifs with hmissed
  · exact .tooOld fresh lastSeq missed hreader hmissed
  · exact .replays fresh lastSeq missed hreader (not_lt.mp hmissed)

theorem resumeReader_branch {fresh : ℕ} {place : ReaderPlace} {reply : Reply}
    (hreader : handler.reader = ⟨place, some reply⟩)
    (h : handler.resumeReader settings fresh place reply = some after) :
    handler.Branch settings (.runReader fresh) after := by
  unfold resumeReader at h
  split at h
  case h_1 => exact Option.some.inj h ▸ recorded_branch (Or.inl hreader)
  case h_2 => exact Option.some.inj h ▸ .conflicts fresh _ _ hreader
  case h_4 => exact Option.some.inj h ▸ recorded_branch (Or.inr hreader)
  case h_6 =>
    split at h
    · next hfresh => exact Option.some.inj h ▸ .starts fresh _ _ _ hreader hfresh
    · exact nomatch h
  case h_3 message _ _ =>
    exact Option.some.inj h ▸ .notStored fresh message _ _ hreader (Or.inl rfl)
  case h_5 message _ =>
    exact Option.some.inj h ▸ .notStored fresh message _ _ hreader (Or.inr (Or.inl rfl))
  case h_7 message recorded _ =>
    exact Option.some.inj h ▸ .notStored fresh message _ _ hreader (Or.inr (Or.inr ⟨recorded, rfl⟩))
  case h_8 => exact Option.some.inj h ▸ replay_branch hreader
  case h_9 lastSeq error => exact Option.some.inj h ▸ .notReplayed fresh lastSeq error hreader
  case h_10 => exact Option.some.inj h ▸ .neverRead fresh hreader
  case h_16 => exact nomatch h
  -- cancelled once it had started
  all_goals exact Option.some.inj h ▸ .stopped fresh _ hreader (by simp) (by simp) rfl

theorem runReader_branch {fresh : ℕ} (h : handler.runReader settings fresh = some after) :
    handler.Branch settings (.runReader fresh) after := by
  unfold runReader at h
  split at h
  · next reply hpending => exact resumeReader_branch (by rw [← hpending]) h
  · next hpending =>
    split at h
    · next hplace => exact Option.some.inj h ▸ .receives fresh (by rw [← hplace, ← hpending])
    · next failed hplace =>
      split_ifs at h with hturns
      exact Option.some.inj h ▸ .gathers fresh failed (by rw [← hplace, ← hpending]) hturns
    · exact nomatch h

theorem respond_branch {id : ℕ} {turn : Turn} {input : TurnInput}
    (hturn : handler.tasks id = some turn) (hpending : turn.pending = none)
    (h : handler.respond id turn turn.place input = some after) :
    handler.Branch settings (.respond id input) after := by
  unfold respond at h
  split at h
  case h_1 hplace =>
    exact Option.some.inj h ▸ .responds id _ turn _ [] hturn (.begins hplace hpending)
  case h_2 chunks text hplace =>
    exact Option.some.inj h ▸ .responds id _ turn _ [_] hturn (.chunk chunks text hplace hpending)
  case h_3 chunks hplace =>
    exact Option.some.inj h ▸ .responds id _ turn _ [] hturn (.slept chunks hplace hpending)
  case h_4 chunks hplace =>
    exact Option.some.inj h ▸ .responds id _ turn _ [] hturn (.exhausted chunks hplace hpending)
  case h_5 chunks hplace =>
    exact Option.some.inj h ▸ .responds id _ turn _ [] hturn (.raised chunks hplace hpending)
  case h_6 => exact nomatch h

theorem resumeTurn_branch {id : ℕ} {turn : Turn} {reply : Reply}
    (hturn : handler.tasks id = some turn) (hpending : turn.pending = some reply)
    (h : handler.resumeTurn id turn turn.place reply = some after) :
    handler.Branch settings (.runTurn id) after := by
  unfold resumeTurn at h
  split at h
  case h_1 chunks outcome hplace =>
    exact Option.some.inj h ▸ .runs id turn _ [_] hturn (.completed chunks outcome hplace hpending)
  case h_2 chunks error hplace =>
    exact Option.some.inj h ▸ .runs id turn _ [] hturn (.notCompleted chunks error hplace hpending)
  case h_3 hplace =>
    exact Option.some.inj h ▸ .runs id turn _ [] hturn (.notMarked hplace hpending)
  case h_4 hplace _ =>
    exact Option.some.inj h ▸ .runs id turn _ [_] hturn (.marked _ hplace hpending)
  case h_5 hplace =>
    exact Option.some.inj h ▸ .runs id turn _ [] hturn (.unwound _ hplace hpending)
  case h_6 hplace =>
    exact Option.some.inj h ▸ .runs id turn _ [] hturn (.neverStarted hplace hpending)
  case h_7 chunks hplace =>
    exact Option.some.inj h ▸ .runs id turn _ [] hturn (.cancelled chunks (Or.inl hplace) hpending)
  case h_8 chunks hplace =>
    exact Option.some.inj h ▸
      .runs id turn _ [] hturn (.cancelled chunks (Or.inr (Or.inl hplace)) hpending)
  case h_9 chunks hplace =>
    exact Option.some.inj h ▸
      .runs id turn _ [] hturn (.cancelled chunks (Or.inr (Or.inr hplace)) hpending)
  case h_10 => exact nomatch h

theorem runServe_branch {writerLast : Bool} (h : handler.runServe writerLast = some after) :
    handler.Branch settings (.runServe writerLast) after := by
  unfold runServe at h
  split at h
  case h_1 hplace _ => exact Option.some.inj h ▸ .opens writerLast hplace
  case h_2 hplace _ => exact Option.some.inj h ▸ .notOpened writerLast hplace
  case h_3 hplace _ => exact Option.some.inj h ▸ .notServed writerLast hplace
  case h_4 hplace hpending => exact Option.some.inj h ▸ .unwinds writerLast hplace hpending
  case h_5 hplace hpending =>
    split_ifs at h with hfinished
    exact Option.some.inj h ▸ .stops writerLast hplace hpending hfinished
  case h_6 code hplace _ =>
    split_ifs at h with hfinished
    exact Option.some.inj h ▸ .closes writerLast code hplace hfinished
  case h_7 hplace _ =>
    split_ifs at h with hfinished
    exact Option.some.inj h ▸ .unwound writerLast hplace hfinished
  case h_8 code hplace => exact Option.some.inj h ▸ .closed writerLast code hplace
  case h_9 => exact nomatch h

theorem cancelServe_branch (h : handler.cancelServe = some after) :
    handler.Branch settings .cancel after := by
  unfold cancelServe at h
  split at h
  · next code hplace => exact Option.some.inj h ▸ .interrupted code hplace
  · next hplace => exact Option.some.inj h ▸ .again hplace
  · exact nomatch h
  · exact Option.some.inj h ▸ .cancelled

theorem runWriter_branch (h : handler.runWriter = some after) :
    handler.Branch settings .runWriter after := by
  unfold runWriter at h
  split at h
  · next hstarting => exact Option.some.inj h ▸ .advances (Or.inl hstarting)
  · next hgetting =>
    split_ifs at h
    exact Option.some.inj h ▸ .advances (Or.inr hgetting)
  · exact nomatch h

theorem write_branch {result : WriteResult} (h : handler.write result = some after) :
    handler.Branch settings (.write result) after := by
  unfold write at h
  split at h
  · next frame hwriting =>
    cases result with
    | accepted => exact Option.some.inj h ▸ .accepted frame hwriting
    | peerGone => exact Option.some.inj h ▸ .peerGone frame hwriting
    | raised => exact Option.some.inj h ▸ .writeRaises frame hwriting
  · exact nomatch h

/-- Every step runs through one of the branches. -/
theorem step_branch {action : Action} (h : handler.step settings action = some after) :
    handler.Branch settings action after := by
  cases action with
  | receive inbound =>
    simp only [step] at h
    split at h
    · next hplace hpending =>
      exact Option.some.inj h ▸ dispatch_branch settings inbound (by rw [← hplace, ← hpending])
    · exact nomatch h
  | disconnect failed =>
    simp only [step] at h
    split at h
    · next hplace hpending =>
      exact Option.some.inj h ▸ .disconnects failed (by rw [← hplace, ← hpending])
    · exact nomatch h
  | runServe writerLast => exact runServe_branch h
  | runWriter => exact runWriter_branch h
  | runReader fresh => exact runReader_branch h
  | respond id input =>
    simp only [step] at h
    split at h
    · next turn hturn =>
      split_ifs at h with hpending
      exact respond_branch hturn (Option.isNone_iff_eq_none.mp hpending) h
    · exact nomatch h
  | runTurn id =>
    obtain ⟨turn, hturn, h⟩ := Option.bind_eq_some_iff.mp h
    obtain ⟨reply, hpending, h⟩ := Option.bind_eq_some_iff.mp h
    exact resumeTurn_branch hturn hpending h
  | finished id =>
    simp only [step] at h
    split at h
    · next turn hturn =>
      split_ifs at h with hended
      exact Option.some.inj h ▸ .finishes id turn hturn hended.1 hended.2
    · exact nomatch h
  | write result => exact write_branch h
  | drain => exact Option.some.inj h ▸ .drains
  | cancel => exact cancelServe_branch h

end Handler

end Chat

end Abacus
