import Abacus.Chat.Branch
import Abacus.Chat.System

/-!
# What a step does to the turns

`Handler.step_turns` reads off the branches of a step what it does to the turns: they stay, or all
are cancelled, or one goes on, or the reader makes one for the row it has opened, or one that has
ended is taken out. `Handler.stops` and `Handler.stopsTurns` are the steps that cancel the two tasks
of `serve` and the turns. `Handler.Ends` says why no turn is in flight when `serve` has finished.
-/

set_option autoImplicit false
set_option relaxedAutoImplicit false

namespace Abacus.Chat

open Postgres (Operation Outcome)

/-- The reader has opened a reply row, and its turn is not a task yet. -/
def Reader.Awaits (reader : Reader) (assistant : StoredMessage) : Prop :=
  ∃ message recorded,
    reader = ⟨.opening message recorded, some (.returned (.opened assistant))⟩

theorem Reader.not_awaits_of_pending {place : ReaderPlace} {pending : Option Reply}
    (h : ∀ outcome, pending ≠ some (.returned outcome)) (assistant : StoredMessage) :
    ¬(Reader.mk place pending).Awaits assistant := by
  rintro ⟨message, recorded, hreader⟩
  exact h _ (congrArg Reader.pending hreader)

namespace Handler

/-- The step cancels the writer and the reader. -/
def stops (handler : Handler) : Action → Bool
  | .runServe _ =>
    match handler.serve.place, handler.serve.pending with
    | .waiting, some .cancelled => true
    | .waiting, none => handler.writer.finished || handler.reader.place.finished
    | _, _ => false
  | .cancel =>
    match handler.serve.place with
    | .stopping _ => true
    | .unwinding => true
    | _ => false
  | _ => false

/-- The reader is in its `finally`. -/
def ReaderStops (reader : Reader) : Bool :=
  match reader.place with
  | .stopping _ => true
  | _ => false

/-- The step cancels the turns in flight: the `finally` of the reader begins, or is cancelled
itself. -/
def stopsTurns (handler : Handler) (action : Action) : Bool :=
  match action with
  | .disconnect _ => true
  | .runReader _ =>
    match handler.reader.place, handler.reader.pending with
    | .starting, _ => false
    | _, some .cancelled => true
    | _, _ => false
  | action => handler.stops action && ReaderStops handler.reader

/-- How a step may move the reader with respect to a row it has opened: it opens none, and gives
one up only when it is cancelled. -/
structure ReaderMoves (handler : Handler) (action : Action) (after : Handler) : Prop where
  gains : ∀ assistant, after.reader.Awaits assistant → handler.reader.Awaits assistant
  keeps : ∀ assistant, handler.reader.Awaits assistant →
    after.reader.Awaits assistant ∨ handler.stops action = true

/-- How a turn goes on by itself. -/
inductive TurnMoves : Turn → Turn → Prop
  | begins {turn : Turn} (hplace : turn.place = .starting) (hpending : turn.pending = none) :
    TurnMoves turn { turn with place := .responding [] }
  | responds {turn : Turn} {place : TurnPlace} (hpending : turn.pending = none)
    (hplace : ∃ chunks, turn.place = .responding chunks ∨ turn.place = .yielding chunks)
    (hafter : (∃ chunks, place = .responding chunks ∨ place = .yielding chunks ∨
      place = .completing chunks) ∨ place = .failing false) :
    TurnMoves turn { turn with place := place }
  | completed {turn : Turn} (chunks : List String) (outcome : Outcome)
    (hplace : turn.place = .completing chunks)
    (hpending : turn.pending = some (.returned outcome)) :
    TurnMoves turn { turn with place := .ended, pending := none }
  | notCompleted {turn : Turn} (chunks : List String) (error : Option Postgres.StoreError)
    (hplace : turn.place = .completing chunks) (hpending : turn.pending = some (.raised error)) :
    TurnMoves turn { turn with place := .failing false, pending := none }
  | failed {turn : Turn} (cancelled : Bool) (hplace : turn.place = .failing cancelled)
    (hpending : turn.pending.isSome = true) :
    TurnMoves turn { turn with place := .ended, pending := none }
  | neverStarted {turn : Turn} (hplace : turn.place = .starting)
    (hpending : turn.pending = some .cancelled) :
    TurnMoves turn { turn with place := .ended, pending := none }
  | cancelled {turn : Turn} (hpending : turn.pending = some .cancelled)
    (hplace : ∃ chunks, turn.place = .responding chunks ∨ turn.place = .yielding chunks ∨
      turn.place = .completing chunks) :
    TurnMoves turn { turn with place := .failing true, pending := none, marking := true }

/-- What a step does to the turns of a handler. -/
inductive TurnStep (handler : Handler) (action : Action) : Handler → Prop
  | quiet {after : Handler} (htasks : after.tasks = handler.tasks)
    (hturns : after.turns = handler.turns) (hreader : handler.ReaderMoves action after) :
    TurnStep handler action after
  | cancels {after : Handler} (hstops : handler.stopsTurns action = true)
    (htasks : after.tasks = handler.cancelTurns.tasks) (hturns : after.turns = handler.turns)
    (hreader : handler.ReaderMoves action after) : TurnStep handler action after
  | turn {after : Handler} (id : ℕ) (turn moved : Turn) (hturn : handler.tasks id = some turn)
    (hmoves : TurnMoves turn moved)
    (htasks : after.tasks = Function.update handler.tasks id (some moved))
    (hturns : after.turns = handler.turns) (hreader : after.reader = handler.reader) :
    TurnStep handler action after
  | started (message : UserMessage) (recorded : RecordedUserMessage) (assistant : StoredMessage)
    (fresh : ℕ)
    (hreader : handler.reader = ⟨.opening message recorded, some (.returned (.opened assistant))⟩)
    (hfresh : handler.tasks fresh = none) :
    TurnStep handler action (handler.startTurn message recorded assistant fresh)
  | finished (id : ℕ) (turn : Turn) (hturn : handler.tasks id = some turn)
    (hended : turn.place = .ended) : TurnStep handler action (handler.finished id turn)

namespace ReaderMoves

variable {handler after : Handler} {action : Action}

theorem of_eq (h : after.reader = handler.reader) : handler.ReaderMoves action after where
  gains _ hawaits := h ▸ hawaits
  keeps _ hawaits := Or.inl (h.symm ▸ hawaits)

/-- A reader that has opened no row, and does not find one opened. -/
theorem of_not (hbefore : ∀ assistant, ¬handler.reader.Awaits assistant)
    (hafter : ∀ assistant, ¬after.reader.Awaits assistant) : handler.ReaderMoves action after where
  gains assistant hawaits := absurd hawaits (hafter assistant)
  keeps assistant hawaits := absurd hawaits (hbefore assistant)

end ReaderMoves

/-! ### Which turn a task is -/

section Tasks

variable {handler after : Handler} {id other : ℕ} {found : Turn}

/-- The turns after a step that set one of them: the one, or a turn that was there. -/
theorem eq_some_of_update {moved : Option Turn}
    (htasks : after.tasks = Function.update handler.tasks id moved)
    (h : after.tasks other = some found) :
    other = id ∧ moved = some found ∨ other ≠ id ∧ handler.tasks other = some found := by
  rw [htasks] at h
  by_cases hother : other = id
  · rw [hother, Function.update_self] at h
    exact Or.inl ⟨hother, h⟩
  · rw [Function.update_of_ne hother] at h
    exact Or.inr ⟨hother, h⟩

/-- The turns after one of them got a reply. -/
theorem answer_eq_some {reply : Reply}
    (h : (handler.answer reply (.turn id)).tasks other = some found) :
    (other = id ∧ ∃ turn, handler.tasks id = some turn ∧ found = turn.answer reply) ∨
      other ≠ id ∧ handler.tasks other = some found := by
  rcases eq_some_of_update rfl h with ⟨heq, hanswered⟩ | hold
  · obtain ⟨turn, hturn, hfound⟩ := Option.map_eq_some_iff.mp hanswered
    exact Or.inl ⟨heq, turn, hturn, hfound.symm⟩
  · exact Or.inr hold

/-- The turns after those in `_turns` were cancelled. -/
theorem cancelTurns_eq_some (h : handler.cancelTurns.tasks id = some found) :
    ∃ turn, handler.tasks id = some turn ∧
      (found = turn ∨ id ∈ handler.turns ∧ found = turn.cancel) := by
  rw [cancelTurns] at h
  dsimp only at h
  split_ifs at h with hid
  · obtain ⟨turn, hturn, rfl⟩ := Option.map_eq_some_iff.mp h
    exact ⟨turn, hturn, Or.inr ⟨hid, rfl⟩⟩
  · exact ⟨found, h, Or.inl rfl⟩

end Tasks

/-! ### What a step does -/

variable {handler after : Handler} {action : Action}

theorem TurnStep.of_reader_none (htasks : after.tasks = handler.tasks)
    (hturns : after.turns = handler.turns)
    (hbefore : ∀ outcome, handler.reader.pending ≠ some (.returned outcome))
    (hafter : after.reader = handler.reader ∨ after.reader.pending = none) :
    handler.TurnStep action after := by
  have hnot : ∀ assistant, ¬handler.reader.Awaits assistant :=
    fun assistant ↦ Reader.not_awaits_of_pending hbefore assistant
  refine .quiet htasks hturns (.of_not hnot fun assistant ↦ ?_)
  rcases hafter with hsame | hnone
  · rw [hsame]
    exact hnot assistant
  · exact Reader.not_awaits_of_pending (by simp [hnone]) assistant

theorem stopReader_turns {failed : Bool}
    (hbefore : ∀ outcome, handler.reader.pending ≠ some (.returned outcome))
    (hstops : handler.stopsTurns action = true) :
    handler.TurnStep action (handler.stopReader failed) :=
  .cancels hstops rfl rfl (.of_not (fun assistant ↦ Reader.not_awaits_of_pending hbefore assistant)
    fun assistant ↦ Reader.not_awaits_of_pending (by simp) assistant)

theorem stopsTurns_of_stops (hstops : handler.stops action = true)
    (hreader : ReaderStops handler.reader = true) : handler.stopsTurns action = true := by
  cases action with
  | runServe writerLast => simp [stopsTurns, hstops, hreader]
  | cancel => simp [stopsTurns, hstops, hreader]
  | _ => exact nomatch hstops

/-- `writer.cancel()` touches nothing but the writer. -/
theorem cancelWriter_eq (handler : Handler) :
    ∃ writer, handler.cancelWriter = { handler with writer := writer } := by
  unfold cancelWriter
  split
  · exact ⟨handler.writer, rfl⟩
  · split_ifs
    · exact ⟨handler.writer, rfl⟩
    · exact ⟨.cancelled, rfl⟩

/-- `reader.cancel()` does nothing to a task that is over, cancels the turns in the `finally`, and
otherwise takes the place of any reply. -/
theorem cancelReader_cases (handler : Handler) :
    handler.cancelReader = handler ∨
      (ReaderStops handler.reader = true ∧ handler.cancelReader = handler.cancelTurns) ∨
      handler.cancelReader =
        { handler with reader := ⟨handler.reader.place, some .cancelled⟩ } := by
  unfold cancelReader ReaderStops
  split
  case h_1 => exact Or.inl rfl
  case h_2 => exact Or.inl rfl
  case h_3 failed hplace => exact Or.inr (Or.inl ⟨by rw [hplace], rfl⟩)
  case h_4 => exact Or.inr (Or.inr rfl)

/-- Cancelling the writer and the reader leaves the place of `serve`, the reader's and `_turns`. -/
theorem cancelBoth_eq (handler : Handler) :
    ∃ writer tasks pending, handler.cancelBoth =
      { handler with
        writer := writer
        tasks := tasks
        reader := ⟨handler.reader.place, pending⟩ } := by
  obtain ⟨writer, hwriter⟩ := handler.cancelWriter_eq
  rw [cancelBoth, hwriter]
  obtain hsame | ⟨-, hcancel⟩ | hcancel := cancelReader_cases { handler with writer := writer }
  · exact ⟨writer, handler.tasks, handler.reader.pending, hsame⟩
  · exact ⟨writer, handler.cancelTurns.tasks, handler.reader.pending, hcancel⟩
  · exact ⟨writer, handler.tasks, some .cancelled, hcancel⟩

/-- Cancelling the writer and the reader cancels the turns only in the reader's `finally`. -/
theorem cancelBoth_turns (hstops : handler.stops action = true)
    (htasks : after.tasks = handler.cancelBoth.tasks)
    (hturns : after.turns = handler.cancelBoth.turns)
    (hreader : after.reader = handler.cancelBoth.reader) : handler.TurnStep action after := by
  obtain ⟨writer, hwriter⟩ := handler.cancelWriter_eq
  rw [cancelBoth, hwriter] at htasks hturns hreader
  obtain hsame | ⟨hstopping, hcancel⟩ | hcancel :=
    cancelReader_cases { handler with writer := writer }
  · rw [hsame] at htasks hturns hreader
    exact .quiet htasks hturns (.of_eq hreader)
  · rw [hcancel] at htasks hturns hreader
    exact .cancels (stopsTurns_of_stops hstops hstopping) htasks hturns (.of_eq hreader)
  · rw [hcancel] at htasks hturns hreader
    have hnot : ∀ assistant, ¬after.reader.Awaits assistant := by
      intro assistant
      rw [hreader]
      exact Reader.not_awaits_of_pending (by simp) assistant
    refine .quiet htasks hturns ⟨fun assistant hawaits ↦ absurd hawaits (hnot assistant), ?_⟩
    exact fun _ _ ↦ Or.inr hstops

/-- A reader with no row opened goes on to a place where it has none. -/
theorem setReader_turns {place : ReaderPlace} (htasks : after.tasks = handler.tasks)
    (hturns : after.turns = handler.turns) (hreader : ∀ assistant, ¬handler.reader.Awaits assistant)
    (hafter : after.reader = ⟨place, none⟩) : handler.TurnStep action after := by
  refine .quiet htasks hturns (.of_not hreader fun assistant ↦ ?_)
  rw [hafter]
  exact Reader.not_awaits_of_pending (by simp) assistant

/-- A turn moves on each of its branches. -/
theorem TurnBranch.moves {turn moved : Turn} {input : Option TurnInput} {frames : List ServerFrame}
    (h : TurnBranch turn input moved frames) : TurnMoves turn moved := by
  cases h with
  | begins hplace hpending => exact .begins hplace hpending
  | chunk chunks text hplace hpending =>
    exact .responds hpending ⟨chunks, Or.inl hplace⟩ (Or.inl ⟨_, Or.inr (Or.inl rfl)⟩)
  | slept chunks hplace hpending =>
    exact .responds hpending ⟨chunks, Or.inr hplace⟩ (Or.inl ⟨_, Or.inl rfl⟩)
  | exhausted chunks hplace hpending =>
    exact .responds hpending ⟨chunks, Or.inl hplace⟩ (Or.inl ⟨_, Or.inr (Or.inr rfl)⟩)
  | raised chunks hplace hpending =>
    exact .responds hpending ⟨chunks, Or.inl hplace⟩ (Or.inr rfl)
  | completed chunks outcome hplace hpending => exact .completed chunks outcome hplace hpending
  | notCompleted chunks error hplace hpending => exact .notCompleted chunks error hplace hpending
  | notMarked hplace hpending => exact .failed false hplace (by rw [hpending]; rfl)
  | marked reply hplace hpending => exact .failed false hplace (by rw [hpending]; rfl)
  | unwound reply hplace hpending => exact .failed true hplace (by rw [hpending]; rfl)
  | neverStarted hplace hpending => exact .neverStarted hplace hpending
  | cancelled chunks hplace hpending => exact .cancelled hpending ⟨chunks, hplace⟩

/-- Every step of a handler does one of these to its turns. -/
theorem step_turns {settings : Settings} (hopening : handler.serve.place = .opening →
      ∀ outcome, handler.reader.pending ≠ some (.returned outcome))
    (h : handler.step settings action = some after) : handler.TurnStep action after := by
  -- A reader has opened a row only at `opening`, and with the row as its reply.
  have hnot : ∀ {place : ReaderPlace} {reply : Reply}, handler.reader = ⟨place, some reply⟩ →
      (∀ message recorded, place ≠ .opening message recorded) →
        ∀ assistant, ¬handler.reader.Awaits assistant := by
    rintro place reply hreader hne assistant ⟨message, recorded, hawaits⟩
    exact hne message recorded (congrArg Reader.place (hreader.symm.trans hawaits))
  cases step_branch h with
  | invalid _ hreader | newer _ _ hreader | pings _ hreader | refuses _ _ hreader =>
    exact .of_reader_none rfl rfl (by simp [hreader]) (Or.inl rfl)
  | resumes _ _ hreader | submits _ _ hreader | receives _ hreader | gathers _ _ hreader
  | conflicts _ _ _ hreader | notStored _ _ _ _ hreader | notReplayed _ _ _ hreader
  | neverRead _ hreader =>
    exact .of_reader_none rfl rfl (by simp [hreader]) (Or.inr rfl)
  | disconnects failed hreader => exact stopReader_turns (by simp [hreader]) rfl
  | stopped fresh place hreader habsent hstarted =>
    refine stopReader_turns (by simp [hreader]) ?_
    cases place with
    | starting => exact absurd rfl hstarted
    | _ => simp [stopsTurns, hreader]
  | stored fresh message recorded hreader | found fresh message recorded hreader =>
    refine setReader_turns rfl rfl ?_ rfl
    rcases hreader with hreader | hreader
    · exact hnot hreader (by simp)
    · exact hnot hreader (by simp)
  | tooOld _ _ _ hreader | replays _ _ _ hreader =>
    exact setReader_turns rfl rfl (hnot hreader (by simp)) rfl
  | starts fresh message recorded assistant hreader hfresh =>
    exact .started message recorded assistant fresh hreader hfresh
  | responds id input turn moved frames hturn hbranch =>
    exact .turn id turn moved hturn hbranch.moves rfl rfl rfl
  | runs id turn moved frames hturn hbranch =>
    exact .turn id turn moved hturn hbranch.moves rfl rfl rfl
  | finishes id turn hturn hended => exact .finished id turn hturn hended
  | opens writerLast hplace => exact .of_reader_none rfl rfl (hopening hplace) (Or.inr rfl)
  | stops writerLast hwaiting hpending hfinished =>
    exact cancelBoth_turns (by simpa [stops, hwaiting, hpending] using hfinished) rfl rfl rfl
  | unwinds writerLast hwaiting hpending =>
    exact cancelBoth_turns (by simp [stops, hwaiting, hpending]) rfl rfl rfl
  | interrupted code hstopping => exact cancelBoth_turns (by simp [stops, hstopping]) rfl rfl rfl
  | again hunwinding => exact cancelBoth_turns (by simp [stops, hunwinding]) rfl rfl rfl
  | advances | accepted | peerGone | writeRaises | drains | notOpened | notServed | closes | unwound
  | closed | cancelled => exact .quiet rfl rfl (.of_eq rfl)

/-! ### When `serve` has finished -/

/-- Before the reader runs, and once it is over, no turn is in `turns`; `serve` closes the socket
when the reader is over, or when there never was one. -/
structure Ends (handler : Handler) : Prop where
  opening : handler.serve.place = .opening → handler.reader = ⟨.absent, none⟩
  absent : handler.reader.place = .absent → handler.turns = []
  starting : handler.reader.place = .starting → handler.turns = []
  finished : handler.reader.place.finished = true → handler.turns = []
  closed : (∃ code, handler.serve.place = .closing code) ∨ handler.serve.place = .ended →
    handler.reader.place = .absent ∨ handler.reader.place.finished = true

namespace Ends

theorem new (settings : Settings) (sessionId : Uuid) : (Handler.new settings sessionId).Ends := by
  constructor <;> simp [Handler.new, ReaderPlace.finished]

/-- A step that leaves the reader's place. -/
theorem of_place (h : handler.Ends)
    (hopening : after.serve.place = .opening → after.reader = ⟨.absent, none⟩)
    (hover : (∃ code, after.serve.place = .closing code) ∨ after.serve.place = .ended →
      handler.reader.place = .absent ∨ handler.reader.place.finished = true)
    (hreader : after.reader.place = handler.reader.place)
    (hturns : handler.turns = [] → after.turns = []) : after.Ends := by
  constructor
  · exact hopening
  · rw [hreader]
    exact fun hplace ↦ hturns (h.absent hplace)
  · rw [hreader]
    exact fun hplace ↦ hturns (h.starting hplace)
  · rw [hreader]
    exact fun hplace ↦ hturns (h.finished hplace)
  · rw [hreader]
    exact hover

/-- A step that leaves the place of `serve` and the reader. -/
theorem of_eq (h : handler.Ends) (hserve : after.serve.place = handler.serve.place)
    (hreader : after.reader = handler.reader) (hturns : handler.turns = [] → after.turns = []) :
    after.Ends := by
  refine h.of_place ?_ ?_ (congrArg Reader.place hreader) hturns
  · rw [hserve, hreader]
    exact h.opening
  · rw [hserve]
    exact h.closed

/-- A reader that runs is not one of the ends, and `serve` waits for it. -/
theorem serve_of_running (h : handler.Ends) (hreader : handler.reader.place ≠ .absent)
    (hrunning : handler.reader.place.finished = false) :
    handler.serve.place ≠ .opening ∧ ¬((∃ code, handler.serve.place = .closing code) ∨
      handler.serve.place = .ended) := by
  constructor
  · intro hopening
    exact hreader (congrArg Reader.place (h.opening hopening))
  · intro hover
    rcases h.closed hover with habsent | hfinished
    · exact hreader habsent
    · exact Bool.noConfusion (hfinished.symm.trans hrunning)

/-- A running reader moves on, or is over when no turn is left. -/
theorem of_reader (h : handler.Ends) (hreader : handler.reader.place ≠ .absent)
    (hrunning : handler.reader.place.finished = false)
    (hserve : after.serve.place = handler.serve.place) (habsent : after.reader.place ≠ .absent)
    (hstarting : after.reader.place ≠ .starting)
    (hfinished : after.reader.place.finished = true → after.turns = []) : after.Ends := by
  obtain ⟨hopening, hover⟩ := h.serve_of_running hreader hrunning
  constructor
  · rw [hserve]
    exact fun hplace ↦ absurd hplace hopening
  · exact fun hplace ↦ absurd hplace habsent
  · exact fun hplace ↦ absurd hplace hstarting
  · exact hfinished
  · rw [hserve]
    exact fun hplace ↦ absurd hplace hover

/-- Cancelling the writer and the reader leaves the reader's place. -/
theorem of_cancelBoth (h : handler.Ends) (hreader : after.reader = handler.cancelBoth.reader)
    (hturns : after.turns = handler.cancelBoth.turns) (hopening : after.serve.place ≠ .opening)
    (hover : ¬((∃ code, after.serve.place = .closing code) ∨ after.serve.place = .ended)) :
    after.Ends := by
  obtain ⟨writer, tasks, pending, hboth⟩ := handler.cancelBoth_eq
  rw [hboth] at hreader hturns
  refine h.of_place (fun hplace ↦ absurd hplace hopening) (fun hplace ↦ absurd hplace hover) ?_ ?_
  · rw [hreader]
  · rw [hturns]
    exact id

theorem stopReader (h : handler.Ends) (failed : Bool) (hreader : handler.reader.place ≠ .absent)
    (hrunning : handler.reader.place.finished = false) : (handler.stopReader failed).Ends := by
  refine h.of_reader hreader hrunning rfl ?_ ?_ ?_
  · simp only [Handler.stopReader, setReader]
    split_ifs <;> simp
  · simp only [Handler.stopReader, setReader]
    split_ifs <;> simp
  · simp only [Handler.stopReader, setReader, cancelTurns]
    split_ifs with hturns
    · exact fun _ ↦ hturns
    · exact fun hfinished ↦ nomatch hfinished

theorem setReader (h : handler.Ends) {place : ReaderPlace}
    (hreader : handler.reader.place ≠ .absent)
    (hrunning : handler.reader.place.finished = false)
    (hserve : after.serve.place = handler.serve.place) (hafter : after.reader = ⟨place, none⟩)
    (habsent : place ≠ .absent) (hstarting : place ≠ .starting)
    (hfinished : place.finished = false) :
    after.Ends := by
  refine h.of_reader hreader hrunning hserve ?_ ?_ ?_
  · rwa [hafter]
  · rwa [hafter]
  · rw [hafter]
    exact fun hover ↦ Bool.noConfusion (hover.symm.trans hfinished)

/-- A reader made by a `serve` that has opened the session. -/
theorem opens (h : handler.Ends) (hopening : handler.serve.place = .opening) :
    ({ handler with writer := .starting, reader := ⟨.starting, none⟩ }.setServe .waiting).Ends where
  opening hplace := nomatch hplace
  absent hplace := nomatch hplace
  starting _ := h.absent (congrArg Reader.place (h.opening hopening))
  finished hplace := nomatch hplace
  closed hover := by
    rcases hover with ⟨code, hover⟩ | hover
    · exact nomatch hover
    · exact nomatch hover

/-- Every step keeps how `serve` ends. -/
theorem step {settings : Settings} (h : handler.Ends)
    (hstep : handler.step settings action = some after) : after.Ends := by
  -- A reader that goes on to a place where it still runs.
  have hset : ∀ {old : Reader} (place : ReaderPlace) {next : Handler}, handler.reader = old →
      old.place ≠ .absent → old.place.finished = false →
        next.serve.place = handler.serve.place → next.reader = ⟨place, none⟩ →
          place ≠ .absent → place ≠ .starting → place.finished = false → next.Ends := by
    rintro old place next rfl habsent hrunning hserve hnext hplace hstarting hfinished
    exact h.setReader habsent hrunning hserve hnext hplace hstarting hfinished
  cases step_branch hstep with
  | resumes _ _ hreader | submits _ _ hreader | receives _ hreader | conflicts _ _ _ hreader
  | starts _ _ _ _ hreader | tooOld _ _ _ hreader | replays _ _ _ hreader
  | notReplayed _ _ _ hreader =>
    exact hset _ hreader (by simp) rfl rfl rfl (by simp) (by simp) rfl
  | stored _ _ _ hreader | found _ _ _ hreader =>
    rcases hreader with hreader | hreader
    · exact hset _ hreader (by simp) rfl rfl rfl (by simp) (by simp) rfl
    · exact hset _ hreader (by simp) rfl rfl rfl (by simp) (by simp) rfl
  | notStored fresh message place error hreader hplace =>
    rcases hplace with rfl | rfl | ⟨recorded, rfl⟩
    · exact hset _ hreader (by simp) rfl rfl rfl (by simp) (by simp) rfl
    · exact hset _ hreader (by simp) rfl rfl rfl (by simp) (by simp) rfl
    · exact hset _ hreader (by simp) rfl rfl rfl (by simp) (by simp) rfl
  | gathers fresh failed hreader hturns =>
    exact h.of_reader (by simp [hreader]) (by rw [hreader]; rfl) rfl (by simp [Handler.setReader])
      (by simp [Handler.setReader]) fun _ ↦ hturns
  | neverRead fresh hreader =>
    exact h.of_reader (by simp [hreader]) (by rw [hreader]; rfl) rfl (by simp [Handler.setReader])
      (by simp [Handler.setReader]) fun _ ↦ h.starting (by rw [hreader])
  | disconnects failed hreader =>
    exact h.stopReader failed (by simp [hreader]) (by rw [hreader]; rfl)
  | stopped fresh place hreader habsent hstarted hrunning =>
    exact h.stopReader false (by simpa [hreader] using habsent) (by simpa [hreader] using hrunning)
  | finishes id turn =>
    refine h.of_eq rfl rfl fun hnil ↦ ?_
    show handler.turns.erase id = []
    rw [hnil, List.erase_nil]
  | opens writerLast hopening => exact h.opens hopening
  | notOpened writerLast hopening | notServed writerLast hopening =>
    exact h.of_place (fun hplace ↦ nomatch hplace)
      (fun _ ↦ Or.inl (congrArg Reader.place (h.opening hopening))) rfl id
  | stops | unwinds | interrupted =>
    exact h.of_cancelBoth rfl rfl (by simp [setServe]) (by simp [setServe])
  | again hunwinding =>
    have hserve : handler.cancelBoth.serve.place = .unwinding := by
      obtain ⟨writer, tasks, pending, hboth⟩ := handler.cancelBoth_eq
      rw [hboth]
      exact hunwinding
    exact h.of_cancelBoth rfl rfl (by simp [hserve]) (by simp [hserve])
  | closes _ _ _ hfinished | unwound _ _ hfinished =>
    exact h.of_place (fun hplace ↦ nomatch hplace)
      (fun _ ↦ Or.inr (Bool.and_eq_true_iff.mp hfinished).2) rfl id
  | closed writerLast code hclosing =>
    exact h.of_place (fun hplace ↦ nomatch hplace)
      (fun _ ↦ h.closed (Or.inl ⟨code, hclosing⟩)) rfl id
  | invalid | newer | pings | refuses | responds | runs | advances | accepted | peerGone
  | writeRaises | drains | cancelled => exact h.of_eq rfl rfl id

end Ends

end Handler

end Abacus.Chat
