import Abacus.Chat.OneTurn
import Abacus.Chat.Turns
import Abacus.Postgres.MessageStatus

/-!
# Reply rows resolved once

A reply row is opened as `streaming`, and a turn that finishes or is cancelled writes its end. It
does so once when no cancellation falls into one of four windows: before the turn's first step, in
which case it never enters its body; between the commit of its `complete` and its next step, where
the `except` marks the complete row failed; during the `fail` of a turn that raised, which is not
shielded; and, for the reader, between the commit that opens the row and the creation of the turn.
`Resolves` is the condition that the steps of a connection keep out of them, `Turn.Stage` what the
place of a turn then says about its row, and `resolved_once` the result. `left_streaming` and
`completed_then_failed` are runs that do fall into the first two.
-/

set_option autoImplicit false
set_option relaxedAutoImplicit false

namespace Abacus.Chat

open Postgres (Database Operation Outcome StoreError perform messageRow)

/-! ### The condition -/

/-- A cancellation now leaves a turn that writes its row's end once: it is in the responder, or its
`complete` has not committed, or its `fail` has. -/
def Turn.survives (turn : Turn) : Bool :=
  match turn.place with
  | .starting => false
  | .responding _ => true
  | .yielding _ => true
  | .completing _ =>
    match turn.pending with
    | some (.returned _) => false
    | _ => true
  | .failing _ => turn.pending.isSome
  | .ended => true

/-- The reader has opened a row, and its turn is not a task yet. -/
def Reader.awaits (reader : Reader) : Bool :=
  match reader.place, reader.pending with
  | .opening _ _, some (.returned (.opened _)) => true
  | _, _ => false

/-- The step cancels no task in one of the windows. -/
def Handler.orderly (handler : Handler) (action : Handler.Action) : Bool :=
  (!handler.stopsTurns action ||
      handler.turns.all fun id ↦ (handler.tasks id).all Turn.survives) &&
    (!handler.stops action || !handler.reader.awaits)

section Runs

variable {Socket : Type} [DecidableEq Socket]

/-- On one connection no repository call raises, and no cancellation falls into a window. -/
def Resolves (socket : Socket) (system : System Socket) : Event Socket → Prop
  | .store other _ _ lost => other = socket → lost = false
  | .fail other _ => other ≠ socket
  | .act other action =>
    other = socket → ∀ handler ∈ system.handlers socket, handler.orderly action = true
  | _ => True

instance (socket : Socket) (system : System Socket) (event : Event Socket) :
    Decidable (Resolves socket system event) :=
  match event with
  | .store other _ _ lost => inferInstanceAs (Decidable (other = socket → lost = false))
  | .fail other _ => inferInstanceAs (Decidable (other ≠ socket))
  | .act other action =>
    inferInstanceAs (Decidable (other = socket →
      ∀ handler ∈ system.handlers socket, handler.orderly action = true))
  | .tick _ => .isTrue trivial
  | .job _ => .isTrue trivial
  | .accept _ _ => .isTrue trivial

omit [DecidableEq Socket] in
/-- The status of a message, if it is there. -/
def System.status (system : System Socket) (messageId : Uuid) : Option Status :=
  (messageRow system.database messageId).map Postgres.ChatMessageRow.status

omit [DecidableEq Socket] in
/-- Whether a step changes the status of a message that is there. -/
def System.changes (system after : System Socket) (messageId : Uuid) : ℕ :=
  if system.status messageId ≠ none ∧ after.status messageId ≠ system.status messageId then 1
  else 0

/-- How often a run changes the status of a message. -/
def System.transitions (settings : Settings) (messageId : Uuid) (system : System Socket) :
    List (Event Socket) → ℕ
  | [] => 0
  | event :: events =>
    match system.step settings event with
    | some after => system.changes after messageId + after.transitions settings messageId events
    | none => 0

end Runs

/-! ### What the place of a turn says -/

/-- What the place of a turn says about its row: whether it is still open, or has been resolved. -/
def Turn.Stage (turn : Turn) (opened resolved : Prop) : Prop :=
  match turn.place with
  | .starting => turn.marking = false ∧ turn.pending = none ∧ opened
  | .responding _ => turn.marking = false ∧ opened
  | .yielding _ => turn.marking = false ∧ opened
  | .completing _ =>
    turn.marking = false ∧
      match turn.pending with
      | some (.returned _) => resolved
      | some (.raised _) => False
      | _ => opened
  | .failing cancelled =>
    (turn.pending = none ∧ turn.marking = cancelled ∧ opened) ∨
      turn.pending.isSome = true ∧ turn.marking = false ∧ resolved
  | .ended => turn.marking = false ∧ resolved

namespace Turn

variable {turn moved : Turn} {opened resolved : Prop}

theorem moves_assistant (h : Handler.TurnMoves turn moved) : moved.assistant = turn.assistant := by
  cases h <;> rfl

/-- A turn that is over does not move. -/
theorem place_ne_ended_of_moves (h : Handler.TurnMoves turn moved) : turn.place ≠ .ended := by
  intro hended
  cases h with
  | begins hbegin => simp [hended] at hbegin
  | responds _ hresponds => simp [hended] at hresponds
  | completed _ _ hcompleting => simp [hended] at hcompleting
  | notCompleted _ _ hcompleting => simp [hended] at hcompleting
  | failed _ hfailing => simp [hended] at hfailing
  | neverStarted hstarting => simp [hended] at hstarting
  | cancelled _ hresponds => simp [hended] at hresponds

theorem cancel_assistant (turn : Turn) : turn.cancel.assistant = turn.assistant := by
  unfold cancel
  split <;> rfl

theorem answer_assistant (turn : Turn) (reply : Reply) :
    (turn.answer reply).assistant = turn.assistant := by
  unfold answer
  split_ifs <;> rfl

/-- A turn that goes on by itself leaves its row, and its place says so. -/
theorem Stage.moves (h : turn.Stage opened resolved) (hmoves : Handler.TurnMoves turn moved) :
    moved.Stage opened resolved := by
  unfold Stage at h
  cases hmoves with
  | begins hplace hpending =>
    rw [hplace] at h
    exact ⟨h.1, h.2.2⟩
  | responds hpending hplace hafter =>
    have hopen : turn.marking = false ∧ opened := by
      obtain ⟨chunks, hplace | hplace⟩ := hplace
      · rwa [hplace] at h
      · rwa [hplace] at h
    obtain ⟨chunks, rfl | rfl | rfl⟩ | rfl := hafter
    · exact hopen
    · exact hopen
    · refine ⟨hopen.1, ?_⟩
      rw [hpending]
      exact hopen.2
    · exact Or.inl ⟨hpending, hopen.1, hopen.2⟩
  | completed chunks outcome hplace hpending =>
    rw [hplace, hpending] at h
    exact h
  | notCompleted chunks error hplace hpending =>
    rw [hplace, hpending] at h
    exact h.2.elim
  | failed cancelled hplace hpending =>
    rw [hplace] at h
    rcases h with ⟨hnone, -⟩ | ⟨-, hmarking, hresolved⟩
    · rw [hnone] at hpending
      exact nomatch hpending
    · exact ⟨hmarking, hresolved⟩
  | neverStarted hplace hpending =>
    rw [hplace] at h
    exact nomatch hpending.symm.trans h.2.1
  | cancelled hpending hplace =>
    have hopen : opened := by
      obtain ⟨chunks, hplace | hplace | hplace⟩ := hplace
      · rw [hplace] at h
        exact h.2
      · rw [hplace] at h
        exact h.2
      · rw [hplace, hpending] at h
        exact h.2
    exact Or.inl ⟨rfl, rfl, hopen⟩

/-- A cancellation outside the windows leaves what the place says. -/
theorem Stage.cancel (h : turn.Stage opened resolved) (hsurvives : turn.survives = true) :
    turn.cancel.Stage opened resolved := by
  unfold Stage at h
  unfold survives at hsurvives
  unfold Turn.cancel
  cases hplace : turn.place with
  | starting =>
    rw [hplace] at hsurvives
    exact nomatch hsurvives
  | responding chunks =>
    rw [hplace] at h
    simpa only [Stage, hplace] using h
  | yielding chunks =>
    rw [hplace] at h
    simpa only [Stage, hplace] using h
  | completing chunks =>
    rw [hplace] at h hsurvives
    simp only [Stage]
    refine ⟨h.1, ?_⟩
    cases hpending : turn.pending with
    | none => simpa [hpending] using h.2
    | some reply =>
      cases reply with
      | returned outcome => simp [hpending] at hsurvives
      | raised error => simp [hpending] at h
      | cancelled => simpa [hpending] using h.2
  | failing cancelled =>
    rw [hplace] at h hsurvives
    simp only [Stage]
    rcases h with ⟨hnone, -⟩ | ⟨-, hmarking, hresolved⟩
    · simp [hnone] at hsurvives
    · exact Or.inr ⟨rfl, hmarking, hresolved⟩
  | ended =>
    rw [hplace] at h
    simpa only [Stage, hplace] using h

/-- The call of a turn finishes its row, which is open till then and resolved after. -/
theorem Stage.call {operation : Operation} (h : turn.Stage opened resolved)
    (hready : (turn.marking || turn.pending.isNone) = true)
    (hcall : turn.call = some operation) :
    opened ∧ operation.finishes = some turn.assistant.messageId ∧
      ∀ (outcome : Outcome) (opened' resolved' : Prop), resolved' →
        (turn.answer (.returned outcome)).Stage opened' resolved' := by
  unfold Stage at h
  cases hmarking : turn.marking with
  | true =>
    -- Only the shielded write of a cancelled turn is under way.
    have hfailing :
        ∃ cancelled, turn.place = .failing cancelled ∧ turn.pending = none ∧ opened := by
      cases hplace : turn.place with
      | failing cancelled =>
        rw [hplace] at h
        rcases h with ⟨hnone, -, hopen⟩ | ⟨-, hfalse, -⟩
        · exact ⟨cancelled, rfl, hnone, hopen⟩
        · exact Bool.noConfusion (hfalse.symm.trans hmarking)
      | _ =>
        rw [hplace] at h
        exact Bool.noConfusion (h.1.symm.trans hmarking)
    obtain ⟨cancelled, hplace, hnone, hopen⟩ := hfailing
    simp only [Turn.call, hmarking, if_true] at hcall
    rw [← Option.some.inj hcall]
    refine ⟨hopen, rfl, fun outcome opened' resolved' hresolved ↦ ?_⟩
    simp only [Turn.answer, hmarking, if_true, Stage, hplace]
    exact Or.inr ⟨by rw [hnone]; rfl, trivial, hresolved⟩
  | false =>
    have hnone : turn.pending = none := by simpa [hmarking] using hready
    simp only [Turn.call, hmarking, Bool.false_eq_true, if_false] at hcall
    split at hcall
    case h_1 chunks hplace =>
      rw [hplace, hnone] at h
      rw [← Option.some.inj hcall]
      refine ⟨h.2, rfl, fun outcome opened' resolved' hresolved ↦ ?_⟩
      simp only [Turn.answer, hmarking, Bool.false_eq_true, if_false, Stage, hplace]
      exact ⟨trivial, hresolved⟩
    case h_2 hplace =>
      rw [hplace] at h
      have hopen : opened := by
        rcases h with ⟨-, -, hopen⟩ | ⟨hsome, -⟩
        · exact hopen
        · rw [hnone] at hsome
          exact nomatch hsome
      rw [← Option.some.inj hcall]
      refine ⟨hopen, rfl, fun outcome opened' resolved' hresolved ↦ ?_⟩
      simp only [Turn.answer, hmarking, Bool.false_eq_true, if_false, Stage, hplace]
      exact Or.inr ⟨rfl, trivial, hresolved⟩
    case h_3 => exact nomatch hcall

theorem Stage.resolved_of_ended (h : turn.Stage opened resolved) (hended : turn.place = .ended) :
    resolved := by
  unfold Stage at h
  rw [hended] at h
  exact h.2

theorem Stage.congr {opened' resolved' : Prop} (h : turn.Stage opened resolved)
    (hopen : opened → opened') (hresolved : resolved → resolved') :
    turn.Stage opened' resolved' := by
  unfold Stage at h ⊢
  split at h
  · exact ⟨h.1, h.2.1, hopen h.2.2⟩
  · exact ⟨h.1, hopen h.2⟩
  · exact ⟨h.1, hopen h.2⟩
  · refine ⟨h.1, ?_⟩
    have hpending := h.2
    split at hpending
    · exact hresolved hpending
    · exact hpending
    · exact hopen hpending
  · exact h.imp (fun hopened ↦ ⟨hopened.1, hopened.2.1, hopen hopened.2.2⟩)
      fun hdone ↦ ⟨hdone.1, hdone.2.1, hresolved hdone.2.2⟩
  · exact ⟨h.1, hresolved h.2⟩

end Turn

/-! ### What a handler owns -/

namespace Handler

/-- The turns of a handler, and the row it has opened, are of different messages, all its own. -/
structure Owns (owns : Uuid → Prop) (handler : Handler) : Prop where
  ends : handler.Ends
  tasks : ∀ id turn, handler.tasks id = some turn → owns turn.assistant.messageId
  distinct : ∀ id other turn otherTurn, handler.tasks id = some turn →
    handler.tasks other = some otherTurn →
      turn.assistant.messageId = otherTurn.assistant.messageId → id = other
  reader : ∀ assistant, handler.reader.Awaits assistant → owns assistant.messageId ∧
    ∀ id turn, handler.tasks id = some turn → turn.assistant.messageId ≠ assistant.messageId

namespace Owns

variable {owns : Uuid → Prop} {handler after : Handler}

theorem mono {more : Uuid → Prop} (h : handler.Owns owns) (hmore : ∀ id, owns id → more id) :
    handler.Owns more where
  ends := h.ends
  tasks id turn hturn := hmore _ (h.tasks id turn hturn)
  distinct := h.distinct
  reader assistant hawaits :=
    ⟨hmore _ (h.reader assistant hawaits).1, (h.reader assistant hawaits).2⟩

theorem new (settings : Settings) (sessionId : Uuid) :
    (Handler.new settings sessionId).Owns owns where
  ends := .new settings sessionId
  tasks id turn hturn := nomatch hturn
  distinct id other turn otherTurn hturn := nomatch hturn
  reader assistant hawaits := by
    obtain ⟨message, recorded, hreader⟩ := hawaits
    exact nomatch hreader

/-- A step that makes no turn, and opens no row. -/
theorem of_tasks (h : handler.Owns owns) (hends : after.Ends)
    (htasks : ∀ id turn, after.tasks id = some turn → ∃ old, handler.tasks id = some old ∧
      turn.assistant = old.assistant)
    (hreader : ∀ assistant, after.reader.Awaits assistant → handler.reader.Awaits assistant) :
    after.Owns owns where
  ends := hends
  tasks id turn hturn := by
    obtain ⟨old, hold, hsame⟩ := htasks id turn hturn
    rw [hsame]
    exact h.tasks id old hold
  distinct id other turn otherTurn hturn hother heq := by
    obtain ⟨old, hold, hsame⟩ := htasks id turn hturn
    obtain ⟨otherOld, hotherOld, hotherSame⟩ := htasks other otherTurn hother
    rw [hsame, hotherSame] at heq
    exact h.distinct id other old otherOld hold hotherOld heq
  reader assistant hawaits := by
    obtain ⟨howns, hfresh⟩ := h.reader assistant (hreader assistant hawaits)
    refine ⟨howns, fun id turn hturn ↦ ?_⟩
    obtain ⟨old, hold, hsame⟩ := htasks id turn hturn
    rw [hsame]
    exact hfresh id old hold

theorem step {settings : Settings} {action : Action} (h : handler.Owns owns)
    (hstep : handler.step settings action = some after) : after.Owns owns := by
  have hopening : handler.serve.place = .opening →
      ∀ outcome, handler.reader.pending ≠ some (.returned outcome) := by
    intro hplace
    simp [h.ends.opening hplace]
  have hends := h.ends.step hstep
  cases step_turns hopening hstep with
  | quiet htasks hturns hreader =>
    refine h.of_tasks hends (fun id turn hturn ↦ ⟨turn, htasks ▸ hturn, rfl⟩) hreader.gains
  | cancels hstops htasks hturns hreader =>
    refine h.of_tasks hends (fun id turn hturn ↦ ?_) hreader.gains
    rw [htasks] at hturn
    obtain ⟨old, hold, rfl | ⟨-, rfl⟩⟩ := cancelTurns_eq_some hturn
    · exact ⟨turn, hold, rfl⟩
    · exact ⟨old, hold, old.cancel_assistant⟩
  | turn id turn moved hturn hmoves htasks hturns hreader =>
    refine h.of_tasks hends (fun other new hnew ↦ ?_) fun assistant hawaits ↦ hreader ▸ hawaits
    rcases eq_some_of_update htasks hnew with ⟨rfl, hset⟩ | ⟨-, hold⟩
    · obtain rfl := Option.some.inj hset
      exact ⟨turn, hturn, Turn.moves_assistant hmoves⟩
    · exact ⟨new, hold, rfl⟩
  | started message recorded assistant fresh hreader hfresh =>
    obtain ⟨howns, hother⟩ := h.reader assistant ⟨message, recorded, hreader⟩
    have hcases : ∀ id turn, (handler.startTurn message recorded assistant fresh).tasks id =
        some turn → (id = fresh ∧ turn.assistant = assistant) ∨
          (id ≠ fresh ∧ handler.tasks id = some turn) := by
      intro id turn hturn
      rcases eq_some_of_update rfl hturn with ⟨hid, hset⟩ | hold
      · obtain rfl := Option.some.inj hset
        exact Or.inl ⟨hid, rfl⟩
      · exact Or.inr hold
    constructor
    · exact hends
    · intro id turn hturn
      rcases hcases id turn hturn with ⟨-, hnew⟩ | ⟨-, hold⟩
      · rw [hnew]
        exact howns
      · exact h.tasks id turn hold
    · intro id other turn otherTurn hturn hotherTurn heq
      rcases hcases id turn hturn with ⟨hid, hnew⟩ | ⟨-, hold⟩
      · rcases hcases other otherTurn hotherTurn with ⟨hid', -⟩ | ⟨-, hold'⟩
        · exact hid.trans hid'.symm
        · rw [hnew] at heq
          exact absurd heq.symm (hother other otherTurn hold')
      · rcases hcases other otherTurn hotherTurn with ⟨-, hnew'⟩ | ⟨-, hold'⟩
        · rw [hnew'] at heq
          exact absurd heq (hother id turn hold)
        · exact h.distinct id other turn otherTurn hold hold' heq
    · intro other hawaits
      exact absurd hawaits (Reader.not_awaits_of_pending (by simp) other)
  | finished id turn hturn hended =>
    exact h.of_tasks hends (fun other new hnew ↦ ⟨new, hnew, rfl⟩) fun _ hawaits ↦ hawaits

end Owns

/-! ### What a handler says about its rows -/

/-- A turn that is not over is in `_turns`, its place says what its row is, and a row without a turn
is open. -/
structure Resolves (opened resolved : Uuid → Prop) (handler : Handler) : Prop where
  listed : ∀ id turn, handler.tasks id = some turn → turn.place ≠ .ended → id ∈ handler.turns
  stages : ∀ id turn, handler.tasks id = some turn →
    turn.Stage (opened turn.assistant.messageId) (resolved turn.assistant.messageId)
  awaits : ∀ assistant, handler.reader.Awaits assistant → opened assistant.messageId

/-- The handler has the row as that of a turn, or has just opened it. -/
def Covers (handler : Handler) (messageId : Uuid) : Prop :=
  (∃ assistant, handler.reader.Awaits assistant ∧ assistant.messageId = messageId) ∨
    ∃ id turn, handler.tasks id = some turn ∧ turn.assistant.messageId = messageId

theorem awaits_iff (reader : Reader) :
    reader.awaits = true ↔ ∃ assistant, reader.Awaits assistant := by
  obtain ⟨place, pending⟩ := reader
  constructor
  · intro h
    unfold Reader.awaits at h
    split at h
    case h_1 message recorded assistant hplace hpending =>
      dsimp only at hplace hpending
      exact ⟨assistant, message, recorded, by rw [hplace, hpending]⟩
    case h_2 => exact nomatch h
  · rintro ⟨assistant, message, recorded, hreader⟩
    rw [hreader]
    rfl

/-- A reply to a turn leaves the rows that the handler has. -/
theorem Covers.answered {handler : Handler} {messageId : Uuid} {tid : ℕ} {turn : Turn}
    (h : handler.Covers messageId) (hturn : handler.tasks tid = some turn) (reply : Reply) :
    (handler.answer reply (.turn tid)).Covers messageId := by
  rcases h with hawaits | ⟨other, otherTurn, hother, hid⟩
  · exact Or.inl hawaits
  · refine Or.inr ⟨other, ?_⟩
    by_cases hsame : other = tid
    · subst hsame
      obtain rfl := Option.some.inj (hturn.symm.trans hother)
      refine ⟨turn.answer reply, ?_, by rw [turn.answer_assistant, hid]⟩
      show Function.update handler.tasks other _ other = _
      rw [Function.update_self, hturn, Option.map_some]
    · refine ⟨otherTurn, ?_, hid⟩
      show Function.update handler.tasks tid _ other = _
      rw [Function.update_of_ne hsame, hother]

namespace Resolves

variable {opened resolved : Uuid → Prop} {handler after : Handler} {action : Action}

theorem new (settings : Settings) (sessionId : Uuid) :
    (Handler.new settings sessionId).Resolves opened resolved where
  listed id turn hturn := nomatch hturn
  stages id turn hturn := nomatch hturn
  awaits assistant hawaits := by
    obtain ⟨message, recorded, hreader⟩ := hawaits
    exact nomatch hreader

/-- What a handler says about its rows depends on them alone. -/
theorem congr {opened' resolved' : Uuid → Prop} (h : handler.Resolves opened resolved)
    (hopened : ∀ id, handler.Covers id → opened id → opened' id)
    (hresolved : ∀ id, handler.Covers id → resolved id → resolved' id) :
    handler.Resolves opened' resolved' where
  listed := h.listed
  stages id turn hturn :=
    (h.stages id turn hturn).congr (hopened _ (Or.inr ⟨id, turn, hturn, rfl⟩))
      (hresolved _ (Or.inr ⟨id, turn, hturn, rfl⟩))
  awaits assistant hawaits :=
    hopened _ (Or.inl ⟨assistant, hawaits, rfl⟩) (h.awaits assistant hawaits)

/-- A turn got a reply; its place, and the rows of the other turns, say what they did. -/
theorem answered {opened' resolved' owns : Uuid → Prop} {tid : ℕ} {turn : Turn} {reply : Reply}
    (h : handler.Resolves opened resolved) (howns : handler.Owns owns)
    (hturn : handler.tasks tid = some turn)
    (hstage : (turn.answer reply).Stage (opened' turn.assistant.messageId)
      (resolved' turn.assistant.messageId))
    (hkept : ∀ id, id ≠ turn.assistant.messageId → owns id →
      (opened id → opened' id) ∧ (resolved id → resolved' id)) :
    (handler.answer reply (.turn tid)).Resolves opened' resolved' := by
  constructor
  · intro id moved hmoved hplace
    rcases answer_eq_some hmoved with ⟨rfl, old, hold, rfl⟩ | ⟨-, hold⟩
    · refine h.listed id old hold fun hended ↦ hplace ?_
      have hanswered : (old.answer reply).place = old.place := by
        unfold Turn.answer
        split_ifs <;> rfl
      exact hanswered.trans hended
    · exact h.listed id moved hold hplace
  · intro id moved hmoved
    rcases answer_eq_some hmoved with ⟨rfl, old, hold, rfl⟩ | ⟨hid, hold⟩
    · obtain rfl := Option.some.inj (hturn.symm.trans hold)
      rw [turn.answer_assistant]
      exact hstage
    · have hne : moved.assistant.messageId ≠ turn.assistant.messageId :=
        fun heq ↦ hid (howns.distinct id tid moved turn hold hturn heq)
      obtain ⟨hopened, hresolved⟩ := hkept _ hne (howns.tasks id moved hold)
      exact (h.stages id moved hold).congr hopened hresolved
  · intro assistant hawaits
    obtain ⟨hopened, hfresh⟩ := howns.reader assistant hawaits
    exact (hkept _ (hfresh tid turn hturn).symm hopened).1 (h.awaits assistant hawaits)

/-- A step outside the windows leaves the row that the reader has opened. -/
theorem awaits_of_orderly (horderly : handler.orderly action = true)
    (hreader : handler.ReaderMoves action after) (assistant : StoredMessage) :
    after.reader.Awaits assistant ↔ handler.reader.Awaits assistant := by
  refine ⟨hreader.gains assistant, fun hawaits ↦
    (hreader.keeps assistant hawaits).resolve_right fun hstops ↦ ?_⟩
  have hflag := (awaits_iff handler.reader).mpr ⟨assistant, hawaits⟩
  have hsurvives := (Bool.and_eq_true_iff.mp horderly).2
  simp [hstops, hflag] at hsurvives

/-- A step that leaves the turns. -/
theorem quiet (h : handler.Resolves opened resolved) (htasks : after.tasks = handler.tasks)
    (hturns : after.turns = handler.turns)
    (hreader : ∀ assistant, after.reader.Awaits assistant ↔ handler.reader.Awaits assistant) :
    after.Resolves opened resolved ∧ ∀ id, handler.Covers id → after.Covers id := by
  constructor
  · constructor
    · rw [htasks, hturns]
      exact h.listed
    · rw [htasks]
      exact h.stages
    · exact fun assistant hawaits ↦ h.awaits assistant ((hreader assistant).mp hawaits)
  · rintro id (⟨assistant, hawaits, rfl⟩ | ⟨task, turn, hturn, rfl⟩)
    · exact Or.inl ⟨assistant, (hreader assistant).mpr hawaits, rfl⟩
    · exact Or.inr ⟨task, turn, htasks ▸ hturn, rfl⟩

/-- The turns are cancelled, none of them in a window. -/
theorem cancels (h : handler.Resolves opened resolved)
    (hsurvive : ∀ id ∈ handler.turns, ∀ turn, handler.tasks id = some turn → turn.survives = true)
    (htasks : after.tasks = handler.cancelTurns.tasks) (hturns : after.turns = handler.turns)
    (hreader : ∀ assistant, after.reader.Awaits assistant ↔ handler.reader.Awaits assistant) :
    after.Resolves opened resolved ∧ ∀ id, handler.Covers id → after.Covers id := by
  have hold : ∀ id new, after.tasks id = some new → ∃ turn, handler.tasks id = some turn ∧
      (new = turn ∨ (id ∈ handler.turns ∧ new = turn.cancel)) := by
    intro id new hafter
    rw [htasks] at hafter
    exact cancelTurns_eq_some hafter
  constructor
  · constructor
    · intro id new hafter hplace
      rw [hturns]
      obtain ⟨turn, hturn, rfl | ⟨hid, -⟩⟩ := hold id new hafter
      · exact h.listed id new hturn hplace
      · exact hid
    · intro id new hafter
      obtain ⟨turn, hturn, rfl | ⟨hid, rfl⟩⟩ := hold id new hafter
      · exact h.stages id new hturn
      · rw [turn.cancel_assistant]
        exact (h.stages id turn hturn).cancel (hsurvive id hid turn hturn)
    · exact fun assistant hawaits ↦ h.awaits assistant ((hreader assistant).mp hawaits)
  · rintro id (⟨assistant, hawaits, rfl⟩ | ⟨task, turn, hturn, rfl⟩)
    · exact Or.inl ⟨assistant, (hreader assistant).mpr hawaits, rfl⟩
    · by_cases hid : task ∈ handler.turns
      · refine Or.inr ⟨task, turn.cancel, ?_, by rw [turn.cancel_assistant]⟩
        rw [htasks, cancelTurns]
        simp only [if_pos hid, hturn, Option.map_some]
      · refine Or.inr ⟨task, turn, ?_, rfl⟩
        rw [htasks, cancelTurns]
        simp only [if_neg hid, hturn]

/-- One turn goes on by itself. -/
theorem turn {id : ℕ} {turn moved : Turn} (h : handler.Resolves opened resolved)
    (hturn : handler.tasks id = some turn) (hmoves : TurnMoves turn moved)
    (htasks : after.tasks = Function.update handler.tasks id (some moved))
    (hturns : after.turns = handler.turns) (hreader : after.reader = handler.reader) :
    after.Resolves opened resolved ∧
      ∀ messageId, handler.Covers messageId → after.Covers messageId := by
  have hsame := Turn.moves_assistant hmoves
  constructor
  · constructor
    · intro other new hafter hplace
      rw [hturns]
      rcases eq_some_of_update htasks hafter with ⟨rfl, hset⟩ | ⟨-, hold⟩
      · obtain rfl := Option.some.inj hset
        exact h.listed other turn hturn (Turn.place_ne_ended_of_moves hmoves)
      · exact h.listed other new hold hplace
    · intro other new hafter
      rcases eq_some_of_update htasks hafter with ⟨rfl, hset⟩ | ⟨-, hold⟩
      · rw [← Option.some.inj hset, hsame]
        exact (h.stages other turn hturn).moves hmoves
      · exact h.stages other new hold
    · rw [hreader]
      exact h.awaits
  · rintro messageId (⟨assistant, hawaits, rfl⟩ | ⟨task, other, hother, rfl⟩)
    · exact Or.inl ⟨assistant, hreader ▸ hawaits, rfl⟩
    · by_cases htask : task = id
      · subst htask
        obtain rfl := Option.some.inj (hturn.symm.trans hother)
        exact Or.inr ⟨task, moved, by rw [htasks, Function.update_self], by rw [hsame]⟩
      · exact Or.inr ⟨task, other, by rw [htasks, Function.update_of_ne htask, hother], rfl⟩

/-- The reader makes a turn for the row that it has opened. -/
theorem started {message : UserMessage} {recorded : RecordedUserMessage}
    {assistant : StoredMessage} {fresh : ℕ} (h : handler.Resolves opened resolved)
    (hreader : handler.reader = ⟨.opening message recorded, some (.returned (.opened assistant))⟩)
    (hfresh : handler.tasks fresh = none) :
    (handler.startTurn message recorded assistant fresh).Resolves opened resolved ∧
      ∀ messageId, handler.Covers messageId →
        (handler.startTurn message recorded assistant fresh).Covers messageId := by
  have hawaits : handler.reader.Awaits assistant := ⟨message, recorded, hreader⟩
  have hnew : (handler.startTurn message recorded assistant fresh).tasks fresh =
      some ⟨message.clientMsgId, assistant, .starting, none, false⟩ :=
    Function.update_self fresh _ handler.tasks
  have hkept : ∀ id, id ≠ fresh →
      (handler.startTurn message recorded assistant fresh).tasks id = handler.tasks id :=
    fun id hid ↦ Function.update_of_ne hid _ handler.tasks
  constructor
  · constructor
    · intro id turn hturn hplace
      show id ∈ handler.turns ++ [fresh]
      by_cases hid : id = fresh
      · simp [hid]
      · rw [hkept id hid] at hturn
        exact List.mem_append_left _ (h.listed id turn hturn hplace)
    · intro id turn hturn
      by_cases hid : id = fresh
      · subst hid
        rw [← Option.some.inj (hnew.symm.trans hturn)]
        exact ⟨rfl, rfl, h.awaits assistant hawaits⟩
      · rw [hkept id hid] at hturn
        exact h.stages id turn hturn
    · exact fun other hother ↦
        absurd hother (Reader.not_awaits_of_pending (by simp) other)
  · rintro messageId (⟨other, ⟨_, _, hother⟩, rfl⟩ | ⟨task, turn, hturn, rfl⟩)
    · obtain rfl : assistant = other := by
        rw [hreader] at hother
        simp only [Reader.mk.injEq, Option.some.injEq, Reply.returned.injEq,
          Postgres.Outcome.opened.injEq] at hother
        exact hother.2
      exact Or.inr ⟨fresh, _, hnew, rfl⟩
    · refine Or.inr ⟨task, turn, ?_, rfl⟩
      rw [hkept task ?_]
      · exact hturn
      · rintro rfl
        exact absurd (hturn.symm.trans hfresh) (Option.some_ne_none turn)

/-- A turn that is over is taken out of `_turns`. -/
theorem finished {id : ℕ} {turn : Turn} (h : handler.Resolves opened resolved)
    (hturn : handler.tasks id = some turn) (hended : turn.place = .ended) :
    (handler.finished id turn).Resolves opened resolved ∧
      ∀ messageId, handler.Covers messageId → (handler.finished id turn).Covers messageId := by
  constructor
  · constructor
    · intro other new hafter hplace
      show other ∈ handler.turns.erase id
      have hother : other ≠ id := by
        rintro rfl
        obtain rfl := Option.some.inj (hturn.symm.trans hafter)
        exact hplace hended
      exact (List.mem_erase_of_ne hother).mpr (h.listed other new hafter hplace)
    · exact h.stages
    · exact h.awaits
  · exact fun _ hcovers ↦ hcovers

/-- A step outside the windows keeps what the handler says, and forgets no row. -/
theorem step {settings : Settings} (h : handler.Resolves opened resolved) (hends : handler.Ends)
    (horderly : handler.orderly action = true)
    (hstep : handler.step settings action = some after) :
    after.Resolves opened resolved ∧ ∀ id, handler.Covers id → after.Covers id := by
  have hopening : handler.serve.place = .opening →
      ∀ outcome, handler.reader.pending ≠ some (.returned outcome) := by
    intro hplace
    simp [hends.opening hplace]
  cases step_turns hopening hstep with
  | quiet htasks hturns hreader =>
    exact h.quiet htasks hturns (awaits_of_orderly horderly hreader)
  | cancels hstops htasks hturns hreader =>
    refine h.cancels (fun id hid turn hturn ↦ ?_) htasks hturns
      (awaits_of_orderly horderly hreader)
    have hsurvive := (Bool.and_eq_true_iff.mp horderly).1
    rw [hstops] at hsurvive
    have hall := List.all_eq_true.mp (by simpa using hsurvive) id hid
    rw [hturn] at hall
    exact hall
  | turn id turn moved hturn hmoves htasks hturns hreader =>
    exact h.turn hturn hmoves htasks hturns hreader
  | started message recorded assistant fresh hreader hfresh => exact h.started hreader hfresh
  | finished id turn hturn hended => exact h.finished hturn hended

end Resolves

end Handler

/-! ### Who owns a row -/

section System

variable {Socket : Type} [DecidableEq Socket]

/-- A row that a connection has opened. -/
def System.OpenedBy (system : System Socket) (socket : Socket) (messageId : Uuid) : Prop :=
  ∃ opening ∈ system.opened, opening.socket = socket ∧ opening.messageId = messageId

/-- Every row opened is there and was opened once, and a connection has turns only for the rows it
opened. -/
structure Owned (system : System Socket) : Prop where
  unique : (system.opened.map Opening.messageId).Nodup
  rows : ∀ opening ∈ system.opened, messageRow system.database opening.messageId ≠ none
  owns : ∀ socket handler, system.handlers socket = some handler →
    handler.Owns (system.OpenedBy socket)

namespace Owned

variable {settings : Settings} {system after : System Socket}

omit [DecidableEq Socket] in
/-- A row is opened by one connection. -/
theorem socket_unique (h : Owned system) {socket other : Socket} {messageId : Uuid}
    (hsocket : system.OpenedBy socket messageId) (hother : system.OpenedBy other messageId) :
    socket = other := by
  obtain ⟨opening, hmem, rfl, rfl⟩ := hsocket
  obtain ⟨otherOpening, hotherMem, rfl, hsame⟩ := hother
  exact congrArg Opening.socket (List.inj_on_of_nodup_map h.unique hmem hotherMem hsame.symm)

omit [DecidableEq Socket] in
/-- A step that opens no row and takes none away. -/
theorem frame (h : Owned system) (hopened : after.opened = system.opened)
    (hrows : ∀ id, messageRow system.database id ≠ none → messageRow after.database id ≠ none)
    (howns : ∀ socket handler, after.handlers socket = some handler →
      handler.Owns (system.OpenedBy socket)) : Owned after where
  unique := by
    rw [hopened]
    exact h.unique
  rows opening hmem := by
    rw [hopened] at hmem
    exact hrows _ (h.rows opening hmem)
  owns socket handler hhandler := by
    refine (howns socket handler hhandler).mono fun id hopenedBy ↦ ?_
    unfold System.OpenedBy
    rwa [hopened]

omit [DecidableEq Socket] in
/-- A reply leaves how `serve` ends: the reader has one only while it runs. -/
theorem answer_ends {handler : Handler} {task : Handler.Task} {drawn : Uuid}
    {operation : Operation} (h : handler.Ends) (reply : Reply)
    (hcall : handler.call settings drawn task = some operation) :
    (handler.answer reply task).Ends := by
  cases task with
  | serve => exact h.of_eq rfl rfl id
  | turn task => exact h.of_eq rfl rfl id
  | reader =>
    obtain ⟨place, hreader, hplace⟩ := Handler.call_reader hcall
    refine h.of_place (fun hopening ↦ ?_) h.closed rfl id
    have habsent : handler.reader = ⟨.absent, none⟩ := h.opening hopening
    rw [hreader, Reader.mk.injEq] at habsent
    rw [habsent.1] at hplace
    exact nomatch hplace

omit [DecidableEq Socket] in
/-- A reply leaves the names of the turns. -/
theorem answer_tasks {handler : Handler} {reply : Reply} {task : Handler.Task} {id : ℕ}
    {turn : Turn} (hturn : (handler.answer reply task).tasks id = some turn) :
    ∃ old, handler.tasks id = some old ∧ turn.assistant = old.assistant := by
  cases task with
  | serve => exact ⟨turn, hturn, rfl⟩
  | reader => exact ⟨turn, hturn, rfl⟩
  | turn answered =>
    rcases Handler.answer_eq_some hturn with ⟨rfl, old, hold, rfl⟩ | ⟨-, hold⟩
    · exact ⟨old, hold, old.answer_assistant reply⟩
    · exact ⟨turn, hold, rfl⟩

/-- A call takes no message away. -/
theorem perform_rows (now : Instant) (operation : Operation) {database : Database} {id : Uuid}
    (h : messageRow database id ≠ none) :
    messageRow (perform now operation database).2 id ≠ none := by
  obtain ⟨row, hrow⟩ := Option.ne_none_iff_exists'.mp h
  obtain ⟨new, hnew, -⟩ : ∃ new, messageRow (perform now operation database).2 id = some new ∧
      row.SameMessage new := Postgres.perform_messageRow hrow
  rw [hnew]
  exact Option.some_ne_none new

omit [DecidableEq Socket] in
/-- What a call may do about rows opened: nothing, or it opens the row that the reader asked for. -/
theorem call_cases {handler : Handler} {task : Handler.Task} {drawn : Uuid}
    {operation : Operation} (now : Instant) (database : Database) (socket : Socket)
    (hcall : handler.call settings drawn task = some operation) :
    (openings socket handler.conn.sessionId (handler.openingFor task)
        (perform now operation database).1 = [] ∧
      (task = .reader → ∀ assistant message recorded,
        handler.reader.place = .opening message recorded →
          replyOf (perform now operation database).1 ≠ .returned (.opened assistant))) ∨
    ∃ message recorded assistant seq, task = .reader ∧
      handler.reader = ⟨.opening message recorded, none⟩ ∧
      operation = .startAssistantMessage handler.conn.sessionId drawn ∧
      (perform now operation database).1 = .ok (.opened assistant) ∧
      assistant.messageId = drawn ∧ messageRow database drawn = none ∧
      messageRow (perform now operation database).2 drawn =
        some ⟨handler.conn.sessionId, seq, .assistant, .streaming, "", none⟩ := by
  cases task with
  | serve => exact Or.inl ⟨rfl, fun htask ↦ nomatch htask⟩
  | turn id => exact Or.inl ⟨rfl, fun htask ↦ nomatch htask⟩
  | reader =>
    obtain ⟨place, hreader, hplace⟩ := Handler.call_reader hcall
    by_cases hopening : ∃ message recorded, place = .opening message recorded
    · obtain ⟨message, recorded, rfl⟩ := hopening
      obtain rfl := Option.some.inj hplace
      cases hperform : perform now (.startAssistantMessage handler.conn.sessionId drawn)
          database with
      | mk reply after =>
        cases reply with
        | error error =>
          refine Or.inl ⟨by simp [Handler.openingFor, hreader, openings], ?_⟩
          exact fun _ _ _ _ _ ↦ by simp [replyOf]
        | ok outcome =>
          obtain ⟨seq, rfl, habsent, hrow⟩ := Postgres.perform_startAssistantMessage hperform
          exact Or.inr ⟨message, recorded, _, seq, rfl, hreader, rfl, rfl, rfl, habsent, hrow⟩
    · refine Or.inl ⟨?_, fun _ _ message recorded hother ↦ ?_⟩
      · have hnone : handler.openingFor .reader = none := by
          simp only [Handler.openingFor, hreader]
          split
          · next message recorded => exact absurd ⟨message, recorded, rfl⟩ hopening
          · rfl
        rw [hnone]
        rfl
      · rw [hreader] at hother
        exact absurd ⟨message, recorded, hother⟩ hopening

omit [DecidableEq Socket] in
/-- A reply that is no opened row opens none. -/
theorem answer_owns {owns : Uuid → Prop} {handler : Handler} {task : Handler.Task} {drawn : Uuid}
    {operation : Operation} (h : handler.Owns owns) (reply : Reply)
    (hcall : handler.call settings drawn task = some operation)
    (hreply : task = .reader → ∀ assistant message recorded,
      handler.reader.place = .opening message recorded → reply ≠ .returned (.opened assistant)) :
    (handler.answer reply task).Owns owns := by
  refine h.of_tasks (answer_ends h.ends reply hcall) ?_ ?_
  · intro id turn hturn
    obtain ⟨old, hold, hsame⟩ := answer_tasks hturn
    exact ⟨old, hold, hsame⟩
  · intro assistant hawaits
    cases task with
    | serve => exact hawaits
    | turn id => exact hawaits
    | reader =>
      obtain ⟨message, recorded, hreader⟩ := hawaits
      exact absurd (Option.some.inj (congrArg Reader.pending hreader))
        (hreply rfl assistant message recorded (congrArg Reader.place hreader))

/-- A call that opens a row adds it to those of its connection. -/
theorem commit_opened (h : Owned system) {socket : Socket} {handler : Handler}
    {operation : Operation} {lost : Bool} {message : UserMessage} {recorded : RecordedUserMessage}
    {assistant : StoredMessage} (hhandler : system.handlers socket = some handler)
    (hreader : handler.reader = ⟨.opening message recorded, none⟩)
    (hcall : handler.call settings assistant.messageId .reader = some operation)
    (hreply : (perform system.now operation system.database).1 = .ok (.opened assistant))
    (habsent : messageRow system.database assistant.messageId = none)
    (hrow :
      messageRow (perform system.now operation system.database).2 assistant.messageId ≠ none) :
    Owned (system.commit socket handler .reader operation lost) := by
  have hopened : (system.commit socket handler .reader operation lost).opened = system.opened ++
      [⟨socket, handler.conn.sessionId, message.clientMsgId, assistant.messageId⟩] := by
    rw [System.commit, hreply]
    simp [Handler.openingFor, hreader, openings]
  have hnew : ∀ opening ∈ system.opened, opening.messageId ≠ assistant.messageId := by
    intro opening hmem heq
    exact h.rows opening hmem (heq ▸ habsent)
  have hmore : ∀ other id, system.OpenedBy other id →
      (system.commit socket handler .reader operation lost).OpenedBy other id := by
    rintro other id ⟨opening, hmem, hopening⟩
    refine ⟨opening, ?_, hopening⟩
    rw [hopened]
    exact List.mem_append_left _ hmem
  have howns := h.owns socket handler hhandler
  constructor
  · rw [hopened, List.map_append, List.map_cons, List.map_nil]
    refine List.nodup_append.mpr ⟨h.unique, List.nodup_singleton _, ?_⟩
    intro id hid other hother
    obtain ⟨opening, hmem, rfl⟩ := List.mem_map.mp hid
    rw [List.mem_singleton.mp hother]
    exact hnew opening hmem
  · intro opening hmem
    rw [hopened] at hmem
    rcases List.mem_append.mp hmem with hold | hlast
    · exact perform_rows system.now operation (h.rows opening hold)
    · rw [List.mem_singleton.mp hlast]
      exact hrow
  · refine OneTurn.forall_update ?_
      fun other old _ hold ↦ (h.owns other old hold).mono (hmore other)
    cases lost with
    | true =>
      exact (answer_owns howns _ hcall (by simp)).mono (hmore socket)
    | false =>
      constructor
      · exact answer_ends howns.ends _ hcall
      · exact fun id turn hturn ↦ hmore socket _ (howns.tasks id turn hturn)
      · exact howns.distinct
      · rintro other ⟨otherMessage, otherRecorded, hother⟩
        obtain rfl : assistant = other := by
          have hpending := congrArg Reader.pending hother
          simp only [Bool.false_eq_true, if_false, hreply, replyOf, Handler.answer,
            Option.some.injEq, Reply.returned.injEq, Postgres.Outcome.opened.injEq] at hpending
          exact hpending
        constructor
        · refine ⟨⟨socket, handler.conn.sessionId, message.clientMsgId, assistant.messageId⟩, ?_,
            rfl, rfl⟩
          rw [hopened]
          exact List.mem_append_right _ (List.mem_singleton_self _)
        · intro id turn hturn heq
          obtain ⟨opening, hmem, -, hopening⟩ := howns.tasks id turn hturn
          exact hnew opening hmem (hopening.trans heq)

/-- Every step keeps who owns a row. -/
theorem step {event : Event Socket} (h : Owned system)
    (hstep : system.step settings event = some after) : Owned after := by
  cases System.step_moves hstep with
  | tick duration => exact h.frame rfl (fun _ hrow ↦ hrow) h.owns
  | job operation hchat => exact h.frame rfl (fun _ ↦ perform_rows system.now operation) h.owns
  | accept socket sessionId hnone =>
    refine h.frame rfl (fun _ hrow ↦ hrow) ?_
    exact OneTurn.forall_update (.new settings sessionId)
      fun other old _ hold ↦ h.owns other old hold
  | store socket task drawn lost handler operation hhandler hcall =>
    obtain ⟨hnone, hreply⟩ | ⟨message, recorded, assistant, seq, rfl, hreader, rfl, hperform, rfl,
        habsent, hrow⟩ := call_cases system.now system.database socket hcall
    · refine h.frame ?_ (fun _ ↦ perform_rows system.now operation) ?_
      · rw [System.commit, hnone, List.append_nil]
      · refine OneTurn.forall_update ?_ fun other old _ hold ↦ h.owns other old hold
        refine answer_owns (h.owns socket handler hhandler) _ hcall ?_
        intro htask assistant message recorded hplace
        cases lost with
        | true => simp
        | false => exact hreply htask assistant message recorded hplace
    · exact h.commit_opened hhandler hreader hcall hperform habsent (by rw [hrow]; simp)
  | fail socket task handler operation hhandler hcall =>
    refine h.frame rfl (fun _ hrow ↦ hrow) ?_
    refine OneTurn.forall_update ?_ fun other old _ hold ↦ h.owns other old hold
    exact answer_owns (h.owns socket handler hhandler) _ hcall (by simp)
  | act socket action handler next hhandler hnext =>
    refine h.frame rfl (fun _ hrow ↦ hrow) ?_
    refine OneTurn.forall_update ?_ fun other old _ hold ↦ h.owns other old hold
    exact (h.owns socket handler hhandler).step hnext

omit [DecidableEq Socket] in
theorem initial : Owned (System.initial Socket) where
  unique := List.nodup_nil
  rows _ hmem := absurd hmem List.not_mem_nil
  owns _ _ hhandler := nomatch hhandler

end Owned

/-! ### The invariant -/

/-- A row that is still open and never changed. -/
def System.Streams (system : System Socket) (count : Uuid → ℕ) (messageId : Uuid) : Prop :=
  system.status messageId = some .streaming ∧ count messageId = 0

/-- A row that has reached its end in one change. -/
def System.Resolved (system : System Socket) (count : Uuid → ℕ) (messageId : Uuid) : Prop :=
  (system.status messageId = some .complete ∨ system.status messageId = some .failed) ∧
    count messageId = 1

/-- After a run that has changed the status of each message `count` times: the handler of the
connection has every row that it opened, and what it says of them is so. -/
structure Resolving (socket : Socket) (count : Uuid → ℕ) (system : System Socket) : Prop where
  owned : Owned system
  fresh : ∀ id, messageRow system.database id = none → count id = 0
  resolves : ∀ handler, system.handlers socket = some handler →
    handler.Resolves (system.Streams count) (system.Resolved count)
  covered : ∀ id, system.OpenedBy socket id →
    ∃ handler, system.handlers socket = some handler ∧ handler.Covers id

namespace Resolving

variable {settings : Settings} {socket : Socket} {count : Uuid → ℕ} {system after : System Socket}

omit [DecidableEq Socket] in
theorem changes_eq_zero {id : Uuid} (h : after.status id = system.status id) :
    system.changes after id = 0 := by
  unfold System.changes
  rw [if_neg]
  exact fun hchanged ↦ hchanged.2 h

omit [DecidableEq Socket] in
theorem changes_of_absent {id : Uuid} (h : messageRow system.database id = none) :
    system.changes after id = 0 := by
  unfold System.changes System.status
  rw [if_neg]
  rw [h]
  exact fun hchanged ↦ hchanged.1 rfl

omit [DecidableEq Socket] in
theorem status_of_row {id : Uuid} {row : Postgres.ChatMessageRow}
    (h : messageRow system.database id = some row) : system.status id = some row.status := by
  rw [System.status, h, Option.map_some]

omit [DecidableEq Socket] in
/-- A handler has only rows that its connection opened. -/
theorem opened_of_covers (h : Owned system) {handler : Handler} {id : Uuid}
    (hhandler : system.handlers socket = some handler) (hcovers : handler.Covers id) :
    system.OpenedBy socket id := by
  rcases hcovers with ⟨assistant, hawaits, rfl⟩ | ⟨task, turn, hturn, rfl⟩
  · exact ((h.owns socket handler hhandler).reader assistant hawaits).1
  · exact (h.owns socket handler hhandler).tasks task turn hturn

omit [DecidableEq Socket] in
/-- A row whose status a step leaves is as open, or as resolved, as it was. -/
theorem kept_of_status (count : Uuid → ℕ) {id : Uuid} (h : after.status id = system.status id) :
    (system.Streams count id → after.Streams (fun id ↦ count id + system.changes after id) id) ∧
      (system.Resolved count id →
        after.Resolved (fun id ↦ count id + system.changes after id) id) := by
  simp only [System.Streams, System.Resolved, h, changes_eq_zero h, Nat.add_zero]
  exact ⟨fun hstreams ↦ hstreams, fun hresolved ↦ hresolved⟩

omit [DecidableEq Socket] in
/-- A message that is not there never changed. -/
theorem fresh_step (h : Resolving socket count system)
    (hrows : ∀ id, messageRow system.database id ≠ none → messageRow after.database id ≠ none)
    (id : Uuid) (hnone : messageRow after.database id = none) :
    count id + system.changes after id = 0 := by
  have hbefore : messageRow system.database id = none := by
    by_contra hsome
    exact hrows id hsome hnone
  rw [h.fresh id hbefore, changes_of_absent hbefore]

omit [DecidableEq Socket] in
/-- A step that leaves the rows of the connection. -/
theorem frame (h : Resolving socket count system) (howned : Owned after)
    (hrows : ∀ id, messageRow system.database id ≠ none → messageRow after.database id ≠ none)
    (hopened : ∀ id, after.OpenedBy socket id → system.OpenedBy socket id)
    (hstatus : ∀ id, system.OpenedBy socket id → after.status id = system.status id)
    (hresolves : ∀ handler, after.handlers socket = some handler →
      handler.Resolves (system.Streams count) (system.Resolved count))
    (hcovered : ∀ id, system.OpenedBy socket id →
      ∃ handler, after.handlers socket = some handler ∧ handler.Covers id) :
    Resolving socket (fun id ↦ count id + system.changes after id) after where
  owned := howned
  fresh := h.fresh_step hrows
  resolves handler hhandler := by
    have hkept (id : Uuid) (hcovers : handler.Covers id) :=
      kept_of_status count
        (hstatus id (hopened id (opened_of_covers howned hhandler hcovers)))
    exact (hresolves handler hhandler).congr (fun id hcovers ↦ (hkept id hcovers).1)
      fun id hcovers ↦ (hkept id hcovers).2
  covered id hopenedBy := hcovered id (hopened id hopenedBy)

omit [DecidableEq Socket] in
/-- A call on another message than those of the connection leaves their status. -/
theorem status_perform (h : Owned system) {operation : Operation} {id : Uuid}
    (hdatabase : after.database = (perform system.now operation system.database).2)
    (hother : operation.finishes ≠ some id) (hopened : system.OpenedBy socket id) :
    after.status id = system.status id := by
  obtain ⟨opening, hmem, -, rfl⟩ := hopened
  obtain ⟨row, hrow⟩ := Option.ne_none_iff_exists'.mp (h.rows opening hmem)
  rw [status_of_row hrow, System.status, hdatabase,
    Postgres.perform_messageRow_eq hother hrow, Option.map_some]

omit [DecidableEq Socket] in
/-- Only the turn of a row finishes it. -/
theorem turn_of_finishes {handler : Handler} {task : Handler.Task} {drawn id : Uuid}
    {operation : Operation} (hcall : handler.call settings drawn task = some operation)
    (hfinishes : operation.finishes = some id) :
    ∃ tid turn, task = .turn tid ∧ handler.tasks tid = some turn ∧
      turn.assistant.messageId = id ∧ turn.call = some operation := by
  cases task with
  | serve =>
    simp only [Handler.call] at hcall
    split at hcall
    · rw [← Option.some.inj hcall] at hfinishes
      exact absurd hfinishes (Option.some_ne_none id).symm
    · exact absurd hcall (Option.some_ne_none operation).symm
  | reader =>
    obtain ⟨place, -, hplace⟩ := Handler.call_reader hcall
    unfold ReaderPlace.call at hplace
    split at hplace
    case h_5 => exact absurd hplace (Option.some_ne_none operation).symm
    all_goals
      rw [← Option.some.inj hplace] at hfinishes
      exact absurd hfinishes (Option.some_ne_none id).symm
  | turn tid =>
    obtain ⟨turn, hturn, hcall⟩ := Option.bind_eq_some_iff.mp hcall
    split_ifs at hcall
    refine ⟨tid, turn, rfl, hturn, ?_, hcall⟩
    unfold Turn.call at hcall
    split_ifs at hcall
    · rw [← Option.some.inj hcall] at hfinishes
      exact Option.some.inj hfinishes
    · split at hcall
      · rw [← Option.some.inj hcall] at hfinishes
        exact Option.some.inj hfinishes
      · rw [← Option.some.inj hcall] at hfinishes
        exact Option.some.inj hfinishes
      · exact absurd hcall (Option.some_ne_none operation).symm

omit [DecidableEq Socket] in
/-- A handler whose turns and `_turns` are another's, and which has the row that one has opened. -/
theorem resolves_of_eq {opened resolved : Uuid → Prop} {handler new : Handler}
    (h : handler.Resolves opened resolved) (htasks : new.tasks = handler.tasks)
    (hturns : new.turns = handler.turns)
    (hreader : ∀ assistant, new.reader.Awaits assistant → handler.reader.Awaits assistant) :
    new.Resolves opened resolved where
  listed := by
    rw [htasks, hturns]
    exact h.listed
  stages := by
    rw [htasks]
    exact h.stages
  awaits assistant hawaits := h.awaits assistant (hreader assistant hawaits)

/-- A call of another connection. -/
theorem store_other (h : Resolving socket count system) {other : Socket} {handler : Handler}
    {task : Handler.Task} {drawn : Uuid} {operation : Operation} {lost : Bool}
    (hother : other ≠ socket) (hhandler : system.handlers other = some handler)
    (hcall : handler.call settings drawn task = some operation)
    (howned : Owned (system.commit other handler task operation lost)) :
    Resolving socket (fun id ↦ count id + system.changes
      (system.commit other handler task operation lost) id)
      (system.commit other handler task operation lost) := by
  have hsame : (system.commit other handler task operation lost).handlers socket =
      system.handlers socket := Function.update_of_ne hother.symm _ _
  refine h.frame howned (fun _ ↦ Owned.perform_rows system.now operation) ?_ ?_ ?_ ?_
  · rintro id ⟨opening, hmem, hsocket, hid⟩
    rcases List.mem_append.mp hmem with hold | hnew
    · exact ⟨opening, hold, hsocket, hid⟩
    · unfold openings at hnew
      split at hnew
      · rw [List.mem_singleton.mp hnew] at hsocket
        exact absurd hsocket hother
      · exact absurd hnew List.not_mem_nil
  · intro id hopened
    refine status_perform h.owned rfl (fun hfinishes ↦ ?_) hopened
    obtain ⟨tid, turn, -, hturn, rfl, -⟩ := turn_of_finishes hcall hfinishes
    exact hother (h.owned.socket_unique ((h.owned.owns other handler hhandler).tasks tid turn hturn)
      hopened)
  · rw [hsame]
    exact h.resolves
  · rw [hsame]
    exact h.covered

/-- A call of the connection that finishes no row and opens none. -/
theorem store_quiet (h : Resolving socket count system) {handler : Handler}
    {task : Handler.Task} {operation : Operation} {lost : Bool}
    (hhandler : system.handlers socket = some handler)
    (howned : Owned (system.commit socket handler task operation lost))
    (hfinishes : operation.finishes = none)
    (hnone : openings socket handler.conn.sessionId (handler.openingFor task)
      (perform system.now operation system.database).1 = [])
    (hresolves : ∀ new : Handler, new = handler.answer (if lost then .raised none
      else replyOf (perform system.now operation system.database).1) task →
        new.tasks = handler.tasks ∧ new.turns = handler.turns ∧
          ∀ assistant, new.reader.Awaits assistant ↔ handler.reader.Awaits assistant) :
    Resolving socket (fun id ↦ count id + system.changes
      (system.commit socket handler task operation lost) id)
      (system.commit socket handler task operation lost) := by
  set new := handler.answer (if lost then .raised none
    else replyOf (perform system.now operation system.database).1) task with hnew
  obtain ⟨htasks, hturns, hreader⟩ := hresolves new rfl
  have hself : (system.commit socket handler task operation lost).handlers socket = some new :=
    Function.update_self _ _ _
  refine h.frame howned (fun _ ↦ Owned.perform_rows system.now operation) ?_ ?_ ?_ ?_
  · rintro id ⟨opening, hmem, hopening⟩
    rw [System.commit, hnone, List.append_nil] at hmem
    exact ⟨opening, hmem, hopening⟩
  · exact fun id ↦ status_perform h.owned rfl (by simp [hfinishes])
  · intro other hother
    rw [hself] at hother
    rw [← Option.some.inj hother]
    exact resolves_of_eq (h.resolves handler hhandler) htasks hturns
      fun assistant hawaits ↦ (hreader assistant).mp hawaits
  · intro id hopened
    refine ⟨new, hself, ?_⟩
    obtain ⟨old, hold, hcovers⟩ := h.covered id hopened
    obtain rfl := Option.some.inj (hhandler.symm.trans hold)
    rcases hcovers with ⟨assistant, hawaits, hid⟩ | ⟨tid, turn, hturn, hid⟩
    · exact Or.inl ⟨assistant, (hreader assistant).mpr hawaits, hid⟩
    · exact Or.inr ⟨tid, turn, htasks ▸ hturn, hid⟩

/-- The call that opens a row of the connection. -/
theorem store_opened (h : Resolving socket count system) {handler : Handler}
    {operation : Operation} {message : UserMessage} {recorded : RecordedUserMessage}
    {assistant : StoredMessage} {row : Postgres.ChatMessageRow}
    (hhandler : system.handlers socket = some handler)
    (howned : Owned (system.commit socket handler .reader operation false))
    (hreader : handler.reader = ⟨.opening message recorded, none⟩)
    (hfinishes : operation.finishes = none)
    (hreply : (perform system.now operation system.database).1 = .ok (.opened assistant))
    (habsent : messageRow system.database assistant.messageId = none)
    (hrow : messageRow (perform system.now operation system.database).2 assistant.messageId =
      some row) (hstreaming : row.status = .streaming) :
    Resolving socket (fun id ↦ count id + system.changes
      (system.commit socket handler .reader operation false) id)
      (system.commit socket handler .reader operation false) := by
  set after := system.commit socket handler .reader operation false with hafter
  set new := handler.answer (.returned (.opened assistant)) .reader with hnew
  have hself : after.handlers socket = some new := by
    rw [hafter, System.commit, hreply]
    exact Function.update_self _ _ _
  have hawaits : ∀ other, new.reader.Awaits other → other = assistant := by
    rintro other ⟨otherMessage, otherRecorded, hother⟩
    have hpending := congrArg Reader.pending hother
    simp only [hnew, Handler.answer, Option.some.injEq, Reply.returned.injEq,
      Postgres.Outcome.opened.injEq] at hpending
    exact hpending.symm
  have howns := h.owned.owns socket handler hhandler
  have hold := h.resolves handler hhandler
  constructor
  · exact howned
  · exact h.fresh_step fun _ ↦ Owned.perform_rows system.now operation
  · intro other hother
    obtain rfl := Option.some.inj (hself.symm.trans hother)
    constructor
    · exact hold.listed
    · intro id turn hturn
      have hkept : after.status turn.assistant.messageId =
          system.status turn.assistant.messageId :=
        status_perform h.owned rfl (by simp [hfinishes]) (howns.tasks id turn hturn)
      exact (hold.stages id turn hturn).congr (kept_of_status count hkept).1
        (kept_of_status count hkept).2
    · intro other hother
      rw [hawaits other hother]
      refine ⟨?_, ?_⟩
      · rw [status_of_row hrow, hstreaming]
      · show count assistant.messageId + system.changes after assistant.messageId = 0
        rw [h.fresh _ habsent, changes_of_absent habsent]
  · rintro id ⟨opening, hmem, hsocket, rfl⟩
    refine ⟨new, hself, ?_⟩
    rcases List.mem_append.mp hmem with hmemOld | hmemNew
    · obtain ⟨other, hother, hcovers⟩ := h.covered _ ⟨opening, hmemOld, hsocket, rfl⟩
      obtain rfl := Option.some.inj (hhandler.symm.trans hother)
      rcases hcovers with ⟨other, ⟨_, _, hother⟩, -⟩ | hturns
      · exact absurd (congrArg Reader.pending (hreader.symm.trans hother)) (by simp)
      · exact Or.inr hturns
    · rw [hreply] at hmemNew
      simp only [Handler.openingFor, hreader, openings, List.mem_singleton] at hmemNew
      rw [hmemNew]
      exact Or.inl ⟨assistant, ⟨message, recorded, by rw [hnew, Handler.answer, hreader]⟩, rfl⟩

omit [DecidableEq Socket] in
/-- The call that finishes a row still open returns, and the row has reached its end in one
change. -/
theorem resolved_of_finishes {operation : Operation} {id : Uuid}
    (hstreams : system.Streams count id) (hfinishes : operation.finishes = some id)
    (hrow : messageRow system.database id ≠ none)
    (hdatabase : after.database = (perform system.now operation system.database).2) :
    (perform system.now operation system.database).1 = .ok .unit ∧
      after.Resolved (fun id ↦ count id + system.changes after id) id := by
  obtain ⟨hstatus, hzero⟩ := hstreams
  obtain ⟨row, hrow⟩ := Option.ne_none_iff_exists'.mp hrow
  obtain ⟨final, last, hperform, hlast, hend⟩ :=
    Postgres.perform_finishes system.now hfinishes hrow
  have hafter : after.status id = some last.status :=
    status_of_row (by rw [hdatabase, hperform, hlast])
  have hchanges : system.changes after id = 1 := by
    unfold System.changes
    rw [if_pos]
    rw [hstatus, hafter]
    refine ⟨Option.some_ne_none _, fun heq ↦ ?_⟩
    rcases hend with hend | hend
    · rw [hend] at heq
      exact absurd heq (by simp)
    · rw [hend] at heq
      exact absurd heq (by simp)
  refine ⟨congrArg Prod.fst hperform, ?_, ?_⟩
  · rw [hafter]
    exact hend.imp (congrArg some) (congrArg some)
  · show count id + system.changes after id = 1
    rw [hzero, hchanges]

/-- The call of a turn of the connection. -/
theorem store_turn (h : Resolving socket count system) {handler : Handler} {tid : ℕ}
    {turn : Turn} {operation : Operation} (hhandler : system.handlers socket = some handler)
    (howned : Owned (system.commit socket handler (.turn tid) operation false))
    (hturn : handler.tasks tid = some turn)
    (hready : (turn.marking || turn.pending.isNone) = true) (hcall : turn.call = some operation) :
    Resolving socket (fun id ↦ count id + system.changes
      (system.commit socket handler (.turn tid) operation false) id)
      (system.commit socket handler (.turn tid) operation false) := by
  set after := system.commit socket handler (.turn tid) operation false with hafter
  have howns := h.owned.owns socket handler hhandler
  have hold := h.resolves handler hhandler
  obtain ⟨hstreams, hfinishes, hanswer⟩ := (hold.stages tid turn hturn).call hready hcall
  obtain ⟨opening, hmem, -, hid⟩ := howns.tasks tid turn hturn
  have hdatabase : after.database = (perform system.now operation system.database).2 := rfl
  obtain ⟨hreply, hresolved⟩ := resolved_of_finishes hstreams hfinishes
    (hid ▸ h.owned.rows opening hmem) hdatabase
  have hself : after.handlers socket =
      some (handler.answer (.returned .unit) (.turn tid)) := by
    rw [hafter, System.commit, hreply]
    exact Function.update_self _ _ _
  constructor
  · exact howned
  · exact h.fresh_step fun _ ↦ Owned.perform_rows system.now operation
  · intro new hnew
    obtain rfl := Option.some.inj (hself.symm.trans hnew)
    refine hold.answered howns hturn (hanswer .unit _ _ hresolved) fun id hne hopened ↦ ?_
    refine kept_of_status count (status_perform h.owned rfl (fun hsame ↦ hne ?_) hopened)
    exact Option.some.inj (hsame.symm.trans hfinishes)
  · rintro id ⟨opening, hmem, hsocket, rfl⟩
    have hnone : openings socket handler.conn.sessionId (handler.openingFor (.turn tid))
        (perform system.now operation system.database).1 = [] := rfl
    rw [hafter, System.commit, hnone, List.append_nil] at hmem
    obtain ⟨other, hother, hcovers⟩ := h.covered _ ⟨opening, hmem, hsocket, rfl⟩
    obtain rfl := Option.some.inj (hhandler.symm.trans hother)
    exact ⟨_, hself, hcovers.answered hturn _⟩

/-- A call of the connection that returns. -/
theorem store_self (h : Resolving socket count system) {handler : Handler} {task : Handler.Task}
    {drawn : Uuid} {operation : Operation} (hhandler : system.handlers socket = some handler)
    (hcall : handler.call settings drawn task = some operation)
    (howned : Owned (system.commit socket handler task operation false)) :
    Resolving socket (fun id ↦ count id + system.changes
      (system.commit socket handler task operation false) id)
      (system.commit socket handler task operation false) := by
  have hfinishes : (∀ tid, task ≠ .turn tid) → operation.finishes = none := by
    intro hturn
    by_contra hsome
    obtain ⟨id, hid⟩ := Option.ne_none_iff_exists'.mp hsome
    obtain ⟨tid, _, htask, -⟩ := turn_of_finishes hcall hid
    exact hturn tid htask
  cases task with
  | turn tid =>
    obtain ⟨turn, hturn, hready⟩ := Option.bind_eq_some_iff.mp hcall
    split_ifs at hready with hreply
    exact h.store_turn hhandler howned hturn hreply hready
  | serve =>
    refine h.store_quiet hhandler howned (hfinishes (by simp)) rfl ?_
    rintro new rfl
    exact ⟨rfl, rfl, fun _ ↦ Iff.rfl⟩
  | reader =>
    obtain ⟨hnone, hreply⟩ | ⟨message, recorded, assistant, seq, -, hreader, rfl, hperform, rfl,
        habsent, hrow⟩ := Owned.call_cases system.now system.database socket hcall
    · refine h.store_quiet hhandler howned (hfinishes (by simp)) hnone ?_
      rintro new rfl
      refine ⟨rfl, rfl, fun assistant ↦ ⟨?_, ?_⟩⟩
      · rintro ⟨message, recorded, hreader⟩
        exact absurd (Option.some.inj (congrArg Reader.pending hreader))
          (hreply rfl assistant message recorded (congrArg Reader.place hreader))
      · rintro ⟨message, recorded, hreader⟩
        obtain ⟨place, hplace, -⟩ := Handler.call_reader hcall
        exact nomatch congrArg Reader.pending (hplace.symm.trans hreader)
    · exact h.store_opened hhandler howned hreader (hfinishes (by simp)) hperform habsent hrow rfl

/-- The handler of another connection moves. -/
theorem handler_other (h : Resolving socket count system) {other : Socket} (new : Handler)
    (hother : other ≠ socket) (howned : Owned (system.setHandler other new)) :
    Resolving socket (fun id ↦ count id + system.changes (system.setHandler other new) id)
      (system.setHandler other new) := by
  have hsame := system.setHandler_handlers_of_ne new hother.symm
  refine h.frame howned (fun _ hrow ↦ hrow) (fun _ hopened ↦ hopened) (fun _ _ ↦ rfl) ?_ ?_
  · rw [hsame]
    exact h.resolves
  · rw [hsame]
    exact h.covered

/-- The handler of the connection moves, and has the rows that it had. -/
theorem handler_self (h : Resolving socket count system) (new : Handler)
    (howned : Owned (system.setHandler socket new))
    (hresolves : new.Resolves (system.Streams count) (system.Resolved count))
    (hcovers : ∀ id, system.OpenedBy socket id → new.Covers id) :
    Resolving socket (fun id ↦ count id + system.changes (system.setHandler socket new) id)
      (system.setHandler socket new) := by
  have hself := system.setHandler_handlers_self socket new
  refine h.frame howned (fun _ hrow ↦ hrow) (fun _ hopened ↦ hopened) (fun _ _ ↦ rfl) ?_ ?_
  · intro handler hhandler
    rw [← Option.some.inj (hself.symm.trans hhandler)]
    exact hresolves
  · exact fun id hopened ↦ ⟨new, hself, hcovers id hopened⟩

/-- Every step that meets the condition keeps the invariant. -/
theorem step {event : Event Socket} (h : Resolving socket count system)
    (hallowed : Resolves socket system event) (hstep : system.step settings event = some after) :
    Resolving socket (fun id ↦ count id + system.changes after id) after := by
  have howned := h.owned.step hstep
  cases System.step_moves hstep with
  | tick duration =>
    exact h.frame howned (fun _ hrow ↦ hrow) (fun _ hopened ↦ hopened) (fun _ _ ↦ rfl) h.resolves
      h.covered
  | job operation hchat =>
    have hfinishes : operation.finishes = none := by
      cases operation with
      | completeAssistantMessage messageId text => exact nomatch hchat
      | failAssistantMessage messageId => exact nomatch hchat
      | _ => rfl
    exact h.frame howned (fun _ ↦ Owned.perform_rows system.now operation)
      (fun _ hopened ↦ hopened) (fun _ ↦ status_perform h.owned rfl (by simp [hfinishes]))
        h.resolves
      h.covered
  | accept other sessionId hnone =>
    by_cases hother : other = socket
    · subst hother
      refine h.handler_self _ howned (.new settings sessionId) fun id hopened ↦ ?_
      obtain ⟨handler, hhandler, -⟩ := h.covered id hopened
      exact nomatch hnone.symm.trans hhandler
    · exact h.handler_other _ hother howned
  | store other task drawn lost handler operation hhandler hcall =>
    by_cases hother : other = socket
    · subst hother
      obtain rfl : lost = false := hallowed rfl
      exact h.store_self hhandler hcall howned
    · exact h.store_other hother hhandler hcall howned
  | fail other task handler operation hhandler hcall => exact h.handler_other _ hallowed howned
  | act other action handler next hhandler hnext =>
    by_cases hother : other = socket
    · subst hother
      obtain ⟨hresolves, hcovers⟩ := (h.resolves handler hhandler).step
        (h.owned.owns other handler hhandler).ends (hallowed rfl handler hhandler) hnext
      refine h.handler_self next howned hresolves fun id hopened ↦ hcovers id ?_
      obtain ⟨old, hold, hcovered⟩ := h.covered id hopened
      obtain rfl := Option.some.inj (hhandler.symm.trans hold)
      exact hcovered
    · exact h.handler_other next hother howned

/-- The same over a whole run: each message has changed as often as the run has changed it. -/
theorem steps {events : List (Event Socket)} (h : Resolving socket count system)
    (hsteps : system.stepsWhile settings (Resolves socket) events = some after) :
    Resolving socket (fun id ↦ count id + system.transitions settings id events) after := by
  induction events generalizing system count with
  | nil =>
    obtain rfl := Option.some.inj hsteps
    exact h
  | cons event events ih =>
    simp only [System.stepsWhile] at hsteps
    split_ifs at hsteps with hallowed
    obtain ⟨middle, hstep, hrest⟩ := Option.bind_eq_some_iff.mp hsteps
    have hmiddle := ih (h.step hallowed hstep) hrest
    simp only [System.transitions, hstep]
    simpa only [Nat.add_assoc] using hmiddle

omit [DecidableEq Socket] in
theorem initial (socket : Socket) : Resolving socket (fun _ ↦ 0) (System.initial Socket) where
  owned := .initial
  fresh _ _ := rfl
  resolves handler hhandler := nomatch hhandler
  covered id hopened := by
    obtain ⟨opening, hmem, -⟩ := hopened
    exact absurd hmem List.not_mem_nil

end Resolving

/-! ### The result and its failure -/

/-- In every run in which no repository call of a connection raises and no cancellation falls into
one of the windows: once its `serve` has finished, every reply row it opened has changed once, to
`complete` or `failed`, and it does not change as the run goes on. -/
theorem resolved_once {settings : Settings} {socket : Socket} {events : List (Event Socket)}
    {system : System Socket} {handler : Handler}
    (h : (System.initial Socket).stepsWhile settings (Resolves socket) events = some system)
    (hhandler : system.handlers socket = some handler) (hended : handler.serve.place = .ended)
    {opening : Opening Socket} (hopening : opening ∈ system.opened)
    (hsocket : opening.socket = socket) :
    (System.initial Socket).transitions settings opening.messageId events = 1 ∧
      (system.status opening.messageId = some .complete ∨
        system.status opening.messageId = some .failed) := by
  have hrun := (Resolving.initial socket).steps h
  have hends := (hrun.owned.owns socket handler hhandler).ends
  have hturns : handler.turns = [] := by
    rcases hends.closed (Or.inr hended) with habsent | hfinished
    · exact hends.absent habsent
    · exact hends.finished hfinished
  obtain ⟨other, hother, hcovers⟩ := hrun.covered opening.messageId
    ⟨opening, hopening, hsocket, rfl⟩
  obtain rfl := Option.some.inj (hhandler.symm.trans hother)
  have hresolved : system.Resolved
      (fun id ↦ 0 + (System.initial Socket).transitions settings id events) opening.messageId := by
    rcases hcovers with ⟨assistant, ⟨message, recorded, hreader⟩, -⟩ | ⟨tid, turn, hturn, hid⟩
    · -- The reader of a `serve` that has finished is over.
      have hover := hends.closed (Or.inr hended)
      rw [hreader] at hover
      rcases hover with habsent | hfinished
      · exact nomatch habsent
      · exact nomatch hfinished
    · have hplace : turn.place = .ended := by
        by_contra hrunning
        have hlisted := (hrun.resolves handler hhandler).listed tid turn hturn hrunning
        rw [hturns] at hlisted
        exact absurd hlisted List.not_mem_nil
      rw [← hid]
      exact ((hrun.resolves handler hhandler).stages tid turn hturn).resolved_of_ended hplace
  refine ⟨?_, hresolved.1⟩
  have hcount := hresolved.2
  simpa using hcount

end System

/-! ### Runs of one turn -/

/-- The message is submitted, and its turn is a task. -/
def asked : List (Event ℕ) :=
  opened ++ submitted ++ [.store 0 .reader ⟨3⟩ false, .act 0 (.runReader 0)]

/-- The turn has exhausted its responder, and its `complete` commits. -/
def answered : List (Event ℕ) :=
  [.act 0 (.respond 0 .begin), .act 0 (.respond 0 .exhausted), .store 0 (.turn 0) ⟨0⟩ false]

/-- The turn is over, the reader after it, and `serve` closes the socket. -/
def served : List (Event ℕ) :=
  [.act 0 (.finished 0), .act 0 (.runReader 1), .act 0 (.runServe true), .act 0 (.runServe true),
    .act 0 (.runServe true)]

/-- The peer disconnects before the turn has taken its first step. No call raises and nothing is
cancelled twice; `serve` finishes, and the row streams for good. -/
theorem left_streaming :
    ∃ system handler, (System.initial ℕ).steps .default
        (asked ++ [.act 0 (.disconnect false), .act 0 (.runTurn 0)] ++ served) = some system ∧
      system.handlers 0 = some handler ∧ handler.serve.place = .ended ∧
      ⟨0, ⟨1⟩, "key", ⟨3⟩⟩ ∈ system.opened ∧ system.status ⟨3⟩ = some .streaming ∧
      (System.initial ℕ).transitions .default ⟨3⟩
        (asked ++ [.act 0 (.disconnect false), .act 0 (.runTurn 0)] ++ served) = 0 :=
  ⟨_, _, rfl, rfl, rfl, List.mem_singleton_self _, rfl, rfl⟩

/-- The peer disconnects after the turn's `complete` has committed and before the turn goes on. The
complete row is marked failed. -/
theorem completed_then_failed :
    ∃ system, (System.initial ℕ).steps .default (asked ++ answered ++
        [.act 0 (.disconnect false), .act 0 (.runTurn 0), .store 0 (.turn 0) ⟨0⟩ false,
          .act 0 (.runTurn 0)] ++ served) = some system ∧
      ⟨0, ⟨1⟩, "key", ⟨3⟩⟩ ∈ system.opened ∧ system.status ⟨3⟩ = some .failed ∧
      (System.initial ℕ).transitions .default ⟨3⟩ (asked ++ answered ++
        [.act 0 (.disconnect false), .act 0 (.runTurn 0), .store 0 (.turn 0) ⟨0⟩ false,
          .act 0 (.runTurn 0)] ++ served) = 2 :=
  ⟨_, rfl, List.mem_singleton_self _, rfl, rfl⟩

/-- The law at work: the peer disconnects after the turn has sent its `done`. -/
theorem resolved_once_answered :
    (System.initial ℕ).transitions .default ⟨3⟩ (asked ++ answered ++
      [.act 0 (.runTurn 0), .act 0 (.disconnect false)] ++ served) = 1 := by
  obtain ⟨system, hsteps, handler, hhandler, hended, hopening⟩ : ∃ system,
      (System.initial ℕ).stepsWhile .default (Resolves 0) (asked ++ answered ++
        [.act 0 (.runTurn 0), .act 0 (.disconnect false)] ++ served) = some system ∧
      ∃ handler, system.handlers 0 = some handler ∧ handler.serve.place = .ended ∧
        ⟨0, ⟨1⟩, "key", ⟨3⟩⟩ ∈ system.opened :=
    ⟨_, rfl, _, rfl, rfl, List.mem_singleton_self _⟩
  exact (resolved_once hsteps hhandler hended hopening rfl).1

end Abacus.Chat
