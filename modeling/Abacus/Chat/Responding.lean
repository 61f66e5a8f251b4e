import Abacus.Chat.LiveReplies
import Abacus.Core.Responder

/-!
# What a turn asks its responder

`_run_turn` hands the responder the text of the submission that the turn was created for, and goes
on with what it yields. `Handler` takes any chunks; here a responder decides which. `Permits` is
what it may do when a turn waits for it, and `Gives` what may then be seen of the turn
(`step_gives`): no other step moves a turn from where it waits for a chunk to where it has one.

The reader's part is in `Reader.Stored`: the message that it has stored and not yet opened a reply
for. It comes from the repository and from nowhere else (`stored_of_step`).
-/

set_option autoImplicit false
set_option relaxedAutoImplicit false

namespace Abacus.Chat

open Postgres (Outcome)

/-! ### The responder of a turn -/

/-- What a responder that was asked a text may give a turn that waits for it. It may yield a chunk
of a reply that begins so, end with a whole reply, and raise at any time. -/
def Permits (responder : Responder) (asked : String) : TurnPlace → TurnInput → Prop
  | .responding chunks, .chunk text => responder.Begins asked (chunks ++ [text])
  | .responding chunks, .exhausted => responder asked chunks
  | _, _ => True

/-- What a step may make of the place of a turn that waits for the responder. -/
def Gives (responder : Responder) (asked : String) : TurnPlace → TurnPlace → Prop
  | .responding _, .yielding chunks => responder.Begins asked chunks
  | .responding _, .completing chunks => responder asked chunks
  | _, _ => True

theorem gives_self (responder : Responder) (asked : String) (place : TurnPlace) :
    Gives responder asked place place := by
  cases place <;> trivial

/-- A turn that comes to neither place was given nothing. -/
theorem gives_of_ne {responder : Responder} {asked : String} {place after : TurnPlace}
    (hyielding : ∀ chunks, after ≠ .yielding chunks)
    (hcompleting : ∀ chunks, after ≠ .completing chunks) :
    Gives responder asked place after := by
  cases after with
  | yielding chunks => exact absurd rfl (hyielding chunks)
  | completing chunks => exact absurd rfl (hcompleting chunks)
  | _ => cases place <;> trivial

namespace Handler

variable {settings : Settings} {handler after : Handler} {action : Action}

/-! ### The turns of others -/

/-- No turn is elsewhere. -/
def Keeps (handler after : Handler) : Prop :=
  ∀ id turn moved, handler.tasks id = some turn → after.tasks id = some moved →
    moved.place = turn.place

namespace Keeps

theorem of_eq (h : after.tasks = handler.tasks) : handler.Keeps after := by
  intro id turn moved hturn hmoved
  rw [h, hturn] at hmoved
  rw [← Option.some.inj hmoved]

theorem of_cancelTurns (h : after.tasks = handler.cancelTurns.tasks) : handler.Keeps after := by
  intro id turn moved hturn hmoved
  rw [h] at hmoved
  simp only [cancelTurns, hturn, Option.map_some] at hmoved
  split_ifs at hmoved
  · rw [← Option.some.inj hmoved, turn.cancel_place]
  · rw [← Option.some.inj hmoved]

theorem of_cancelBoth (h : after.tasks = handler.cancelBoth.tasks) : handler.Keeps after := by
  obtain ⟨writer, hwriter⟩ := handler.cancelWriter_eq
  rw [cancelBoth, hwriter] at h
  obtain hsame | ⟨-, hcancel⟩ | hcancel := cancelReader_cases { handler with writer := writer }
  · rw [hsame] at h
    exact of_eq h
  · rw [hcancel] at h
    exact of_cancelTurns h
  · rw [hcancel] at h
    exact of_eq h

theorem of_startTurn (message : UserMessage) (recorded : RecordedUserMessage)
    (assistant : StoredMessage) {fresh : ℕ} (hfresh : handler.tasks fresh = none) :
    handler.Keeps (handler.startTurn message recorded assistant fresh) := by
  intro id turn moved hturn hmoved
  have htasks : (handler.startTurn message recorded assistant fresh).tasks =
    Function.update handler.tasks fresh
      (some ⟨message.clientMsgId, assistant, .starting, none, false⟩) := rfl
  have hother : id ≠ fresh := by
    rintro rfl
    exact absurd (hturn.symm.trans hfresh) (Option.some_ne_none turn)
  rw [htasks, Function.update_of_ne hother, hturn] at hmoved
  rw [← Option.some.inj hmoved]

end Keeps

/-- A turn is elsewhere after its own steps only. -/
theorem step_keeps (h : handler.step settings action = some after) :
    handler.Keeps after ∨ ∃ id input turn moved frames, handler.tasks id = some turn ∧
      TurnBranch turn input moved frames ∧
        after.tasks = Function.update handler.tasks id (some moved) ∧
          ∀ given, input = some given → action = .respond id given := by
  cases step_branch h with
  | responds id input turn moved frames hturn hbranch =>
    exact Or.inr ⟨id, _, turn, moved, frames, hturn, hbranch, rfl, fun given hgiven ↦ by
      rw [Option.some.inj hgiven]⟩
  | runs id turn moved frames hturn hbranch =>
    exact Or.inr ⟨id, _, turn, moved, frames, hturn, hbranch, rfl,
      fun given hgiven ↦ nomatch hgiven⟩
  | starts fresh message recorded assistant hreader hfresh =>
    exact Or.inl (.of_startTurn _ _ _ hfresh)
  | disconnects | stopped => exact Or.inl (.of_cancelTurns rfl)
  | stops | unwinds | interrupted | again => exact Or.inl (.of_cancelBoth rfl)
  | _ => exact Or.inl (.of_eq rfl)

/-! ### The turns that ask -/

/-- A turn in another state, and the others as they are. -/
theorem gives_of_setTurn {responder : Responder} {texts : ℕ → String} {id : ℕ}
    {turn moved : Turn} (hturn : handler.tasks id = some turn)
    (hafter : after.tasks = Function.update handler.tasks id (some moved))
    (hgives : Gives responder (texts id) turn.place moved.place) (other : ℕ) (old new : Turn)
    (hold : handler.tasks other = some old) (hnew : after.tasks other = some new) :
    Gives responder (texts other) old.place new.place := by
  rw [hafter, Function.update_apply] at hnew
  split_ifs at hnew with hother
  · subst hother
    obtain rfl := Option.some.inj (hturn.symm.trans hold)
    obtain rfl := Option.some.inj hnew
    exact hgives
  · obtain rfl := Option.some.inj (hold.symm.trans hnew)
    exact gives_self responder _ _

/-- What is seen of the turns is what the responder gives, when it gives what it may. -/
theorem step_gives {responder : Responder} {texts : ℕ → String}
    (h : handler.step settings action = some after)
    (hpermits : ∀ id input turn, action = .respond id input → handler.tasks id = some turn →
      Permits responder (texts id) turn.place input)
    (id : ℕ) (turn moved : Turn) (hturn : handler.tasks id = some turn)
    (hmoved : after.tasks id = some moved) :
    Gives responder (texts id) turn.place moved.place := by
  obtain hkeeps | ⟨own, input, asking, given, frames, hasking, hbranch, htasks, haction⟩ :=
    step_keeps h
  · rw [hkeeps id turn moved hturn hmoved]
    exact gives_self responder _ _
  · refine gives_of_setTurn hasking htasks ?_ id turn moved hturn hmoved
    cases hbranch with
    | chunk chunks text hplace =>
      have hpermitted := hpermits own _ asking (haction _ rfl) hasking
      rw [hplace] at hpermitted ⊢
      exact hpermitted
    | exhausted chunks hplace =>
      have hpermitted := hpermits own _ asking (haction _ rfl) hasking
      rw [hplace] at hpermitted ⊢
      exact hpermitted
    -- what a turn finds when it goes on is never a chunk
    | _ => exact gives_of_ne (by simp) (by simp)

end Handler

/-! ### What the reader has stored -/

/-- The reader has stored a message, and its reply row is not opened yet. -/
def Reader.Stored (reader : Reader) (message : UserMessage) : Prop :=
  (∃ recorded, (reader = ⟨.recording message, some (.returned (.recorded recorded))⟩ ∨
      reader = ⟨.recovering message, some (.returned (.recorded recorded))⟩) ∧
    recorded.created = true) ∨
  ∃ recorded, reader = ⟨.opening message recorded, none⟩

namespace Reader

variable {reader : Reader} {message : UserMessage}

theorem Stored.owed (h : reader.Stored message) : reader.Owed := by
  rcases h with ⟨recorded, hreader | hreader, -⟩ | ⟨recorded, hreader⟩
  · exact Or.inl ⟨_, congrArg Reader.pending hreader⟩
  · exact Or.inl ⟨_, congrArg Reader.pending hreader⟩
  · exact Or.inr ⟨message, recorded, hreader⟩

end Reader

namespace Handler

variable {settings : Settings} {handler after : Handler} {action : Action} {message : UserMessage}

/-- A handler does not come to have stored a message on its own. -/
theorem stored_of_step (hstep : handler.step settings action = some after)
    (h : after.reader.Stored message) : handler.reader.Stored message := by
  cases step_acks hstep with
  | calm hcalm =>
    rcases hcalm.reader with hsame | hnot
    · exact hsame ▸ h
    · exact absurd h.owed hnot
  | recorded other recorded hreader =>
    unfold Handler.recorded at h
    split_ifs at h with hcreated
    · rcases h with ⟨_, hplace, -⟩ | ⟨_, hplace⟩
      · simp [setReader] at hplace
      · obtain ⟨rfl, -⟩ : other = message ∧ recorded = _ := by simpa [setReader] using hplace
        exact Or.inl ⟨recorded, hreader, hcreated⟩
    · exact absurd h.owed (Reader.not_owed_of_none (by simp))
  | opened other recorded assistant fresh hreader hfresh =>
    exact absurd h.owed (Reader.not_owed_of_none (by simp))

/-- A result that the reader finds after a step was there before. -/
theorem reader_of_step {outcome : Outcome} (hstep : handler.step settings action = some after)
    (h : after.reader.pending = some (.returned outcome)) : after.reader = handler.reader := by
  cases step_acks hstep with
  | calm hcalm =>
    rcases hcalm.reader with hsame | hnot
    · exact hsame
    · exact absurd (Or.inl ⟨outcome, h⟩) hnot
  | recorded other recorded hreader =>
    unfold Handler.recorded at h
    split_ifs at h <;> exact absurd h (by simp [setReader])
  | opened other recorded assistant fresh hreader hfresh =>
    exact absurd h (by simp [startTurn])

end Handler

end Abacus.Chat
