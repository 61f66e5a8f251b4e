import Abacus.Chat.Streams

/-!
# The replies that an ack names

`_live_replies` has the reply row of every turn in `_turns`, under the key the turn was submitted
with, and no others (`Handler.Registered`): a key is stored once, so a connection has at most one
turn under it, and the cap is checked by the task that starts the turns. What an ack names is read
off this map, and the entry of a turn goes in its done-callback. The loop may run the reader between
the last step of a turn and its done-callback, or between the commit of its `fail` and its last
step, and a submission that found its key stored is then acked with a stream that is over
(`acked_after_done`).

`CallsBackFirst` is the condition on a step that this does not happen in it. Along any run, the acks
name the streams exactly while these run if and only if every step meets it
(`acks_while_running_iff`).
-/

set_option autoImplicit false
set_option relaxedAutoImplicit false

namespace Abacus.Chat

open Postgres (Database Operation Outcome perform messageRow)

namespace Turn

theorem cancel_clientMsgId (turn : Turn) : turn.cancel.clientMsgId = turn.clientMsgId := by
  unfold cancel
  split <;> rfl

theorem cancel_place (turn : Turn) : turn.cancel.place = turn.place := by
  unfold cancel
  split <;> rfl

theorem answer_clientMsgId (turn : Turn) (reply : Reply) :
    (turn.answer reply).clientMsgId = turn.clientMsgId := by
  unfold answer
  split_ifs <;> rfl

theorem answer_place (turn : Turn) (reply : Reply) : (turn.answer reply).place = turn.place := by
  unfold answer
  split_ifs <;> rfl

/-- The same turn, further on: a turn that has ended does not run again. -/
structure Continues (turn moved : Turn) : Prop where
  clientMsgId : moved.clientMsgId = turn.clientMsgId
  assistant : moved.assistant = turn.assistant
  place : turn.place = .ended → moved.place = .ended

theorem continues_refl (turn : Turn) : turn.Continues turn :=
  ⟨rfl, rfl, id⟩

theorem continues_cancel (turn : Turn) : turn.Continues turn.cancel :=
  ⟨turn.cancel_clientMsgId, turn.cancel_assistant, fun h ↦ turn.cancel_place.trans h⟩

theorem continues_answer (turn : Turn) (reply : Reply) : turn.Continues (turn.answer reply) :=
  ⟨turn.answer_clientMsgId reply, turn.answer_assistant reply,
    fun h ↦ (turn.answer_place reply).trans h⟩

theorem continues_speaks {turn moved : Turn} {frames : List ServerFrame}
    (h : Handler.TurnSpeaks turn moved frames) : turn.Continues moved :=
  ⟨h.clientMsgId, h.assistant, fun hended ↦ absurd hended h.not_ended⟩

end Turn

namespace Handler

/-! ### The turns, the live replies and the reader -/

/-- Each task of one handler continues that of the other. -/
def Continues (handler after : Handler) : Prop :=
  ∀ id, (handler.tasks id = none ∧ after.tasks id = none) ∨
    ∃ turn moved, handler.tasks id = some turn ∧ after.tasks id = some moved ∧ turn.Continues moved

namespace Continues

variable {handler after : Handler}

theorem of_eq (h : after.tasks = handler.tasks) : handler.Continues after := by
  intro id
  rw [h]
  cases handler.tasks id with
  | none => exact Or.inl ⟨rfl, rfl⟩
  | some turn => exact Or.inr ⟨turn, turn, rfl, rfl, turn.continues_refl⟩

theorem of_cancel (h : ∀ id, after.tasks id = handler.tasks id ∨
    after.tasks id = (handler.tasks id).map Turn.cancel) : handler.Continues after := by
  intro id
  cases hturn : handler.tasks id with
  | none =>
    rcases h id with hafter | hafter
    · exact Or.inl ⟨rfl, hafter.trans hturn⟩
    · exact Or.inl ⟨rfl, by rw [hafter, hturn, Option.map_none]⟩
  | some turn =>
    rcases h id with hafter | hafter
    · exact Or.inr ⟨turn, turn, rfl, hafter.trans hturn, turn.continues_refl⟩
    · exact Or.inr ⟨turn, turn.cancel, rfl, by rw [hafter, hturn, Option.map_some],
        turn.continues_cancel⟩

theorem of_update {id : ℕ} {turn moved : Turn} (hturn : handler.tasks id = some turn)
    (hafter : after.tasks = Function.update handler.tasks id (some moved))
    (hmoved : turn.Continues moved) : handler.Continues after := by
  intro other
  rw [hafter]
  by_cases hother : other = id
  · subst hother
    exact Or.inr ⟨turn, moved, hturn, Function.update_self _ _ _, hmoved⟩
  · rw [Function.update_of_ne hother]
    exact of_eq rfl other

theorem back (h : handler.Continues after) {id : ℕ} {moved : Turn}
    (hmoved : after.tasks id = some moved) :
    ∃ turn, handler.tasks id = some turn ∧ turn.Continues moved := by
  rcases h id with ⟨-, hnone⟩ | ⟨turn, other, hturn, hother, hcontinues⟩
  · exact absurd (hmoved.symm.trans hnone) (Option.some_ne_none moved)
  · obtain rfl := Option.some.inj (hmoved.symm.trans hother)
    exact ⟨turn, hturn, hcontinues⟩

theorem forth (h : handler.Continues after) {id : ℕ} {turn : Turn}
    (hturn : handler.tasks id = some turn) :
    ∃ moved, after.tasks id = some moved ∧ turn.Continues moved := by
  rcases h id with ⟨hnone, -⟩ | ⟨other, moved, hother, hmoved, hcontinues⟩
  · exact absurd (hturn.symm.trans hnone) (Option.some_ne_none turn)
  · obtain rfl := Option.some.inj (hturn.symm.trans hother)
    exact ⟨moved, hmoved, hcontinues⟩

end Continues

/-- A turn of `_turns` under a key, with its reply row. -/
def TurnOf (handler : Handler) (clientMsgId : String) (messageId : Uuid) : Prop :=
  ∃ id ∈ handler.turns, ∃ turn, handler.tasks id = some turn ∧ turn.clientMsgId = clientMsgId ∧
    turn.assistant.messageId = messageId

theorem startTurn_tasks (handler : Handler) (message : UserMessage)
    (recorded : RecordedUserMessage) (assistant : StoredMessage) (fresh id : ℕ) :
    (handler.startTurn message recorded assistant fresh).tasks id =
      if id = fresh then some ⟨message.clientMsgId, assistant, .starting, none, false⟩
      else handler.tasks id :=
  Function.update_apply handler.tasks fresh _ id

theorem mem_startTurn_turns {handler : Handler} {message : UserMessage}
    {recorded : RecordedUserMessage} {assistant : StoredMessage} {fresh id : ℕ} :
    id ∈ (handler.startTurn message recorded assistant fresh).turns ↔
      id ∈ handler.turns ∨ id = fresh := by
  show id ∈ handler.turns ++ [fresh] ↔ _
  rw [List.mem_append, List.mem_singleton]

/-- A turn that was started is one more turn of its key, and the others are as they were. -/
theorem turnOf_startTurn {handler : Handler} {message : UserMessage}
    {recorded : RecordedUserMessage} {assistant : StoredMessage} {fresh : ℕ}
    (hnotListed : fresh ∉ handler.turns) {clientMsgId : String} {messageId : Uuid} :
    (handler.startTurn message recorded assistant fresh).TurnOf clientMsgId messageId ↔
      (message.clientMsgId = clientMsgId ∧ assistant.messageId = messageId) ∨
        handler.TurnOf clientMsgId messageId := by
  constructor
  · rintro ⟨id, hid, turn, hturn, hkey, hmessage⟩
    rw [startTurn_tasks] at hturn
    split_ifs at hturn with hsame
    · obtain rfl := Option.some.inj hturn
      exact Or.inl ⟨hkey, hmessage⟩
    · exact Or.inr ⟨id, (mem_startTurn_turns.mp hid).resolve_right hsame, turn, hturn, hkey,
        hmessage⟩
  · rintro (⟨hkey, hmessage⟩ | ⟨id, hid, turn, hturn, hkey, hmessage⟩)
    · exact ⟨fresh, mem_startTurn_turns.mpr (Or.inr rfl),
        ⟨message.clientMsgId, assistant, .starting, none, false⟩,
        (startTurn_tasks ..).trans (if_pos rfl), hkey, hmessage⟩
    · have hne : id ≠ fresh := fun hsame ↦ hnotListed (hsame ▸ hid)
      exact ⟨id, mem_startTurn_turns.mpr (Or.inl hid), turn,
        (startTurn_tasks ..).trans ((if_neg hne).trans hturn), hkey, hmessage⟩

/-- `_turns` has the turns that run, and no more than the cap allows; the live replies are theirs;
and no two turns are under one key, nor is the message that the reader has stored. -/
structure Registered (settings : Settings) (stored : String → Prop) (handler : Handler) : Prop where
  listed : ∀ id turn, handler.tasks id = some turn → turn.place ≠ .ended → id ∈ handler.turns
  tasks : ∀ id ∈ handler.turns, handler.tasks id ≠ none
  nodup : handler.turns.Nodup
  live : ∀ clientMsgId messageId, handler.liveReplies clientMsgId = some messageId ↔
    handler.TurnOf clientMsgId messageId
  capped : handler.turns.length ≤ settings.wsMaxConcurrentTurns
  room : handler.reader.submission ≠ none → handler.turns.length < settings.wsMaxConcurrentTurns
  keys : ∀ id turn, handler.tasks id = some turn → stored turn.clientMsgId
  claims : ∀ clientMsgId, handler.reader.Claims clientMsgId → stored clientMsgId ∧
    ∀ id turn, handler.tasks id = some turn → turn.clientMsgId ≠ clientMsgId
  distinct : ∀ id other turn otherTurn, handler.tasks id = some turn →
    handler.tasks other = some otherTurn → turn.clientMsgId = otherTurn.clientMsgId → id = other

namespace Registered

variable {settings : Settings} {stored more : String → Prop} {handler after : Handler}

theorem new (settings : Settings) (sessionId : Uuid) :
    (Handler.new settings sessionId).Registered settings stored where
  listed _ _ hturn := absurd hturn (by simp [Handler.new])
  tasks _ hid := absurd hid List.not_mem_nil
  nodup := List.nodup_nil
  live clientMsgId messageId := by
    constructor
    · exact fun hlive ↦ absurd hlive (by simp [Handler.new])
    · rintro ⟨id, hid, -⟩
      exact absurd hid List.not_mem_nil
  capped := Nat.zero_le _
  room hsubmission := absurd rfl hsubmission
  keys _ _ hturn := absurd hturn (by simp [Handler.new])
  claims _ hclaims := absurd rfl hclaims.submission
  distinct _ _ _ _ hturn := absurd hturn (by simp [Handler.new])

/-- A step that makes no turn and takes none out. -/
theorem continues (h : handler.Registered settings stored) (hcontinues : handler.Continues after)
    (hturns : after.turns = handler.turns) (hlive : after.liveReplies = handler.liveReplies)
    (hmore : ∀ clientMsgId, stored clientMsgId → more clientMsgId)
    (hroom : after.reader.submission ≠ none →
      handler.turns.length < settings.wsMaxConcurrentTurns)
    (hclaims : ∀ clientMsgId, after.reader.Claims clientMsgId → more clientMsgId ∧
      ∀ id turn, handler.tasks id = some turn → turn.clientMsgId ≠ clientMsgId) :
    after.Registered settings more := by
  have hturnOf : ∀ clientMsgId messageId, handler.TurnOf clientMsgId messageId ↔
      after.TurnOf clientMsgId messageId := by
    intro clientMsgId messageId
    unfold TurnOf
    rw [hturns]
    constructor
    · rintro ⟨id, hid, turn, hturn, hkey, hmessage⟩
      obtain ⟨moved, hmoved, hsame⟩ := hcontinues.forth hturn
      exact ⟨id, hid, moved, hmoved, hsame.clientMsgId.trans hkey,
        by rw [hsame.assistant, hmessage]⟩
    · rintro ⟨id, hid, moved, hmoved, hkey, hmessage⟩
      obtain ⟨turn, hturn, hsame⟩ := hcontinues.back hmoved
      exact ⟨id, hid, turn, hturn, hsame.clientMsgId.symm.trans hkey,
        by rw [← hsame.assistant, hmessage]⟩
  constructor
  · intro id moved hmoved hplace
    obtain ⟨turn, hturn, hsame⟩ := hcontinues.back hmoved
    rw [hturns]
    exact h.listed id turn hturn fun hended ↦ hplace (hsame.place hended)
  · intro id hid
    rw [hturns] at hid
    obtain ⟨turn, hturn⟩ := Option.ne_none_iff_exists'.mp (h.tasks id hid)
    obtain ⟨moved, hmoved, -⟩ := hcontinues.forth hturn
    rw [hmoved]
    exact Option.some_ne_none moved
  · rw [hturns]
    exact h.nodup
  · intro clientMsgId messageId
    rw [hlive, h.live, hturnOf]
  · rw [hturns]
    exact h.capped
  · rw [hturns]
    exact hroom
  · intro id moved hmoved
    obtain ⟨turn, hturn, hsame⟩ := hcontinues.back hmoved
    rw [hsame.clientMsgId]
    exact hmore _ (h.keys id turn hturn)
  · intro clientMsgId hafter
    obtain ⟨hmoreKey, hnot⟩ := hclaims clientMsgId hafter
    refine ⟨hmoreKey, fun id moved hmoved ↦ ?_⟩
    obtain ⟨turn, hturn, hsame⟩ := hcontinues.back hmoved
    rw [hsame.clientMsgId]
    exact hnot id turn hturn
  · intro id other moved otherMoved hmoved hotherMoved hkey
    obtain ⟨turn, hturn, hsame⟩ := hcontinues.back hmoved
    obtain ⟨otherTurn, hotherTurn, hotherSame⟩ := hcontinues.back hotherMoved
    rw [hsame.clientMsgId, hotherSame.clientMsgId] at hkey
    exact h.distinct id other turn otherTurn hturn hotherTurn hkey

/-- A key that was stored once more is stored. -/
theorem mono (h : handler.Registered settings stored)
    (hmore : ∀ clientMsgId, stored clientMsgId → more clientMsgId) :
    handler.Registered settings more :=
  h.continues (.of_eq rfl) rfl rfl hmore h.room fun clientMsgId hclaims ↦
    ⟨hmore _ (h.claims clientMsgId hclaims).1, (h.claims clientMsgId hclaims).2⟩

/-- The turn of the message that the reader has stored. -/
theorem started (h : handler.Registered settings stored) {message : UserMessage}
    {recorded : RecordedUserMessage} {assistant : StoredMessage} {fresh : ℕ}
    (hreader : handler.reader = ⟨.opening message recorded, some (.returned (.opened assistant))⟩)
    (hfresh : handler.tasks fresh = none) :
    (handler.startTurn message recorded assistant fresh).Registered settings stored := by
  have hsubmission : handler.reader.submission ≠ none := by
    rw [hreader]
    exact Option.some_ne_none message
  obtain ⟨hstored, hnot⟩ := h.claims message.clientMsgId
    (Or.inr ⟨message, recorded, by rw [hreader], rfl⟩)
  have hnotListed : fresh ∉ handler.turns := fun hlisted ↦ h.tasks fresh hlisted hfresh
  have hwaits : (handler.startTurn message recorded assistant fresh).reader.submission = none := rfl
  constructor
  · intro id new hnew hplace
    rw [startTurn_tasks] at hnew
    rw [mem_startTurn_turns]
    split_ifs at hnew with hid
    · exact Or.inr hid
    · exact Or.inl (h.listed id new hnew hplace)
  · intro id hid
    rw [startTurn_tasks]
    split_ifs with hnew
    · exact Option.some_ne_none _
    · exact h.tasks id ((mem_startTurn_turns.mp hid).resolve_right hnew)
  · refine List.nodup_append.mpr ⟨h.nodup, List.nodup_singleton fresh, ?_⟩
    rintro id hid other hother rfl
    exact hnotListed (List.mem_singleton.mp hother ▸ hid)
  · intro clientMsgId messageId
    rw [turnOf_startTurn hnotListed, ← h.live]
    show Function.update handler.liveReplies message.clientMsgId (some assistant.messageId)
      clientMsgId = some messageId ↔ _
    rw [Function.update_apply]
    split_ifs with hkey
    · -- no reply was live under the key: no turn is under it
      have hnone : handler.liveReplies clientMsgId ≠ some messageId := by
        rw [Ne, h.live]
        rintro ⟨id, -, old, hold, hsame, -⟩
        exact hnot id old hold (hsame.trans hkey)
      simp [hkey.symm, hnone]
    · simp [Ne.symm hkey]
  · show (handler.turns ++ [fresh]).length ≤ settings.wsMaxConcurrentTurns
    rw [List.length_append, List.length_singleton]
    exact h.room hsubmission
  · exact fun hsome ↦ absurd hwaits hsome
  · intro id new hnew
    rw [startTurn_tasks] at hnew
    split_ifs at hnew
    · obtain rfl := Option.some.inj hnew
      exact hstored
    · exact h.keys id new hnew
  · exact fun clientMsgId hclaims ↦ absurd hwaits hclaims.submission
  · intro id other new otherNew hnew hotherNew hkey
    rw [startTurn_tasks] at hnew hotherNew
    split_ifs at hnew hotherNew with hid hother hother
    · exact hid.trans hother.symm
    · obtain rfl := Option.some.inj hnew
      exact absurd hkey.symm (hnot other otherNew hotherNew)
    · obtain rfl := Option.some.inj hotherNew
      exact absurd hkey (hnot id new hnew)
    · exact h.distinct id other new otherNew hnew hotherNew hkey

/-- The done-callback of a turn that has ended. -/
theorem finished (h : handler.Registered settings stored) {id : ℕ} {turn : Turn}
    (hturn : handler.tasks id = some turn) (hended : turn.place = .ended) :
    (handler.finished id turn).Registered settings stored := by
  have hturns : (handler.finished id turn).turns = handler.turns.erase id := rfl
  have hlive : (handler.finished id turn).liveReplies =
      Function.update handler.liveReplies turn.clientMsgId none := rfl
  constructor
  · intro other new hnew hplace
    rw [hturns]
    refine (List.mem_erase_of_ne ?_).mpr (h.listed other new hnew hplace)
    rintro rfl
    obtain rfl := Option.some.inj (hturn.symm.trans hnew)
    exact hplace hended
  · exact fun other hother ↦ h.tasks other (List.mem_of_mem_erase hother)
  · exact h.nodup.erase id
  · intro clientMsgId messageId
    rw [hlive, Function.update_apply]
    split_ifs with hkey
    · refine ⟨fun hsome ↦ absurd hsome (by simp), ?_⟩
      rintro ⟨other, hother, new, hnew, hkeys, -⟩
      obtain rfl := h.distinct other id new turn hnew hturn (hkeys.trans hkey)
      exact absurd hother h.nodup.not_mem_erase
    · rw [h.live]
      constructor
      · rintro ⟨other, hother, new, hnew, hkeys, hmessage⟩
        refine ⟨other, (List.mem_erase_of_ne ?_).mpr hother, new, hnew, hkeys, hmessage⟩
        rintro rfl
        obtain rfl := Option.some.inj (hturn.symm.trans hnew)
        exact hkey hkeys.symm
      · rintro ⟨other, hother, rest⟩
        exact ⟨other, List.mem_of_mem_erase hother, rest⟩
  · exact List.length_erase_le.trans h.capped
  · exact fun hsubmission ↦ lt_of_le_of_lt List.length_erase_le (h.room hsubmission)
  · exact h.keys
  · exact h.claims
  · exact h.distinct

/-- Every step of a handler keeps its turns registered. -/
theorem step {action : Action} (h : handler.Registered settings stored)
    (hstep : handler.step settings action = some after) : after.Registered settings stored := by
  cases step_speaks hstep with
  | quiet frames hsent hplain htasks hturns hlive hreader =>
    refine h.continues (.of_cancel htasks) hturns hlive (fun _ hstored ↦ hstored) ?_
      fun clientMsgId hclaims ↦ h.claims clientMsgId (hreader.claims clientMsgId hclaims)
    intro hsubmission
    rcases hreader.submission hsubmission with hbefore | hroom
    · exact h.room hbefore
    · exact hroom
  | replayed message recorded hreader hcreated haction =>
    exact h.continues (.of_eq rfl) rfl rfl (fun _ hstored ↦ hstored)
      (fun hsubmission ↦ absurd rfl hsubmission) fun _ hclaims ↦ absurd rfl hclaims.submission
  | started message recorded assistant fresh hreader hfresh => exact h.started hreader hfresh
  | turn id turn moved frames hturn hmoves hsent htasks hturns hlive hreader =>
    refine h.continues (.of_update hturn htasks (Turn.continues_speaks hmoves)) hturns hlive
      (fun _ hstored ↦ hstored) ?_ ?_
    · rw [hreader]
      exact h.room
    · rw [hreader]
      exact h.claims
  | finished id turn hturn hended hlisted => exact h.finished hturn hended

/-- A reply to the reader's call: it may have stored a message, under a key that no turn has. -/
theorem answer_reader (h : handler.Registered settings stored) {reply : Reply}
    (hmore : ∀ clientMsgId, stored clientMsgId → more clientMsgId)
    (hreply : ∀ message recorded,
      handler.reader.place = .recording message ∨ handler.reader.place = .recovering message →
        reply = .returned (.recorded recorded) → recorded.created = true →
          more message.clientMsgId ∧
            ∀ id turn, handler.tasks id = some turn → turn.clientMsgId ≠ message.clientMsgId) :
    (handler.answer reply .reader).Registered settings more := by
  refine h.continues (.of_eq rfl) rfl rfl hmore h.room fun clientMsgId hclaims ↦ ?_
  rcases hclaims with ⟨message, recorded, hreader, hcreated, rfl⟩ | hopening
  · rcases hreader with hreader | hreader
    · obtain ⟨hplace, hpending⟩ := Reader.mk.inj hreader
      exact hreply message recorded (Or.inl hplace) (Option.some.inj hpending) hcreated
    · obtain ⟨hplace, hpending⟩ := Reader.mk.inj hreader
      exact hreply message recorded (Or.inr hplace) (Option.some.inj hpending) hcreated
  · have hclaims := h.claims clientMsgId (Or.inr hopening)
    exact ⟨hmore _ hclaims.1, hclaims.2⟩

/-- A reply to the call of `serve` or of a turn. -/
theorem answer (h : handler.Registered settings stored) (reply : Reply) {task : Task}
    (htask : task ≠ .reader) : (handler.answer reply task).Registered settings stored := by
  cases task with
  | serve =>
    exact h.continues (.of_eq rfl) rfl rfl (fun _ hstored ↦ hstored) h.room h.claims
  | reader => exact absurd rfl htask
  | turn id =>
    refine h.continues ?_ rfl rfl (fun _ hstored ↦ hstored) h.room h.claims
    cases hturn : handler.tasks id with
    | none =>
      refine .of_eq ?_
      show Function.update handler.tasks id ((handler.tasks id).map _) = handler.tasks
      rw [hturn, Option.map_none, ← hturn, Function.update_eq_self]
    | some turn =>
      refine .of_update hturn ?_ (turn.continues_answer reply)
      show Function.update handler.tasks id ((handler.tasks id).map _) = _
      rw [hturn, Option.map_some]

end Registered

end Handler

/-! ### Runs -/

/-- A message is stored under the key. -/
def Stored (database : Database) (sessionId : Uuid) (clientMsgId : String) : Prop :=
  ∃ messageId : Uuid, database.row (.clientMessage sessionId clientMsgId) = some messageId

theorem Stored.perform {database : Database} {sessionId : Uuid} {clientMsgId : String}
    (h : Stored database sessionId clientMsgId) (now : Instant) (operation : Operation) :
    Stored (Postgres.perform now operation database).2 sessionId clientMsgId := by
  obtain ⟨messageId, hrow⟩ := h
  exact ⟨messageId, Postgres.perform_clientMessage hrow⟩

section Runs

variable {Socket : Type} [DecidableEq Socket] {settings : Settings} {system after : System Socket}
  {socket : Socket} {handler : Handler}

omit [DecidableEq Socket] in
/-- The turns of every connection are registered, under keys that are stored in its session. -/
def System.Registered (settings : Settings) (system : System Socket) : Prop :=
  ∀ socket handler, system.handlers socket = some handler →
    handler.Registered settings (Stored system.database handler.conn.sessionId)

namespace System.Registered

omit [DecidableEq Socket] in
/-- The reply to a call of the reader: a message is stored under a key that was not. -/
theorem answer_reader (h : system.Registered settings)
    (hhandler : system.handlers socket = some handler) {drawn : Uuid} {operation : Operation}
    (lost : Bool) (hcall : handler.call settings drawn .reader = some operation) :
    (handler.answer (if lost then .raised none
      else replyOf (perform system.now operation system.database).1) .reader).Registered settings
        (Stored (perform system.now operation system.database).2 handler.conn.sessionId) := by
  have hbefore := h socket handler hhandler
  refine hbefore.answer_reader (fun clientMsgId hstored ↦ hstored.perform system.now operation) ?_
  intro message recorded hplace hreply hcreated
  obtain ⟨place, hreader, hplaceCall⟩ := Handler.call_reader hcall
  rw [hreader] at hplace
  cases lost with
  | true => exact absurd hreply (by simp)
  | false =>
    cases hperform : perform system.now operation system.database with
    | mk result database =>
      rw [hperform] at hreply
      cases result with
      | error error => exact absurd hreply (by simp [replyOf])
      | ok outcome =>
        obtain rfl : outcome = .recorded recorded := Reply.returned.inj hreply
        rcases hplace with hplace | hplace
        · obtain rfl : place = .recording message := hplace
          obtain rfl := Option.some.inj hplaceCall
          obtain ⟨_, -, -, habsent, hrow⟩ := Postgres.perform_recordUserMessage hperform
          refine ⟨⟨_, hrow⟩, fun id turn hturn hkey ↦ ?_⟩
          obtain ⟨messageId, hstored⟩ := hbefore.keys id turn hturn
          rw [hkey, habsent] at hstored
          exact absurd hstored (by simp)
        · obtain rfl : place = .recovering message := hplace
          obtain rfl := Option.some.inj hplaceCall
          obtain ⟨other, hsame, hnot, -⟩ := Postgres.perform_byClientMsgId hperform
          obtain rfl := Outcome.recorded.inj hsame
          exact absurd (hcreated.symm.trans hnot) (by simp)

/-- Every step keeps the turns registered. -/
theorem step {event : Event Socket} (h : system.Registered settings)
    (hstep : system.step settings event = some after) : after.Registered settings := by
  cases System.step_moves hstep with
  | tick duration => exact h
  | job operation hchat =>
    intro socket handler hhandler
    exact (h socket handler hhandler).mono fun clientMsgId hstored ↦ hstored.perform _ _
  | accept socket sessionId hnone =>
    exact OneTurn.forall_update (.new settings sessionId) fun other old _ hold ↦ h other old hold
  | store socket task drawn lost handler operation hhandler hcall =>
    refine OneTurn.forall_update ?_ fun other old _ hold ↦
      (h other old hold).mono fun clientMsgId hstored ↦ hstored.perform _ _
    rw [Handler.answer_conn]
    by_cases htask : task = .reader
    · subst htask
      exact h.answer_reader hhandler lost hcall
    · exact ((h socket handler hhandler).answer _ htask).mono fun clientMsgId hstored ↦
        hstored.perform _ _
  | fail socket task handler operation hhandler hcall =>
    refine OneTurn.forall_update ?_ fun other old _ hold ↦ h other old hold
    rw [Handler.answer_conn]
    by_cases htask : task = .reader
    · subst htask
      refine (h socket handler hhandler).answer_reader (fun _ hstored ↦ hstored) ?_
      exact fun message recorded _ hreply ↦ absurd hreply (by simp)
    · exact (h socket handler hhandler).answer _ htask
  | act socket action handler next hhandler hnext =>
    refine OneTurn.forall_update ?_ fun other old _ hold ↦ h other old hold
    rw [Handler.step_session hnext]
    exact (h socket handler hhandler).step hnext

end System.Registered

/-! ### The condition -/

/-- The submission that the reader acks when it goes on, having found its key stored. -/
def Reader.replays : Reader → Option UserMessage
  | ⟨.recording message, some (.returned (.recorded recorded))⟩ =>
    if recorded.created then none else some message
  | ⟨.recovering message, some (.returned (.recorded recorded))⟩ =>
    if recorded.created then none else some message
  | _ => none

omit [DecidableEq Socket] in
/-- The reader does not ack a replay of a key whose turn has ended, or has its row written as
failed, before the done-callback of the turn. -/
def CallsBackFirst (socket : Socket) (system : System Socket) : Event Socket → Prop
  | .act other (.runReader _) =>
    other = socket → ∀ handler ∈ system.handlers socket,
      ∀ message ∈ handler.reader.replays, ∀ id ∈ handler.turns, ∀ turn ∈ handler.tasks id,
        turn.clientMsgId = message.clientMsgId →
          turn.place ≠ .ended ∧ system.status turn.assistant.messageId ≠ some .failed
  | _ => True

/-! ### The property -/

/-- At most as many turns run as the cap allows. -/
def Handler.Capped (settings : Settings) (handler : Handler) : Prop :=
  handler.turns.length ≤ settings.wsMaxConcurrentTurns ∧
    ∀ id turn, handler.tasks id = some turn → turn.place ≠ .ended → id ∈ handler.turns

omit [DecidableEq Socket] in
/-- What an ack that a step sends names: the row of the turn that runs under its key; and no row but
that of a turn that runs, whose `done` was not sent and which was not written as failed. -/
structure NamesRunning (system : System Socket) (handler next : Handler) (clientMsgId : String)
    (reply : Option Uuid) : Prop where
  running : ∀ id turn, next.tasks id = some turn → turn.clientMsgId = clientMsgId →
    turn.place ≠ .ended → reply = some turn.assistant.messageId
  named : ∀ replyId, reply = some replyId → ∃ id turn, next.tasks id = some turn ∧
    turn.clientMsgId = clientMsgId ∧ turn.assistant.messageId = replyId ∧ turn.place ≠ .ended
  unfinished : ∀ replyId, reply = some replyId →
    (∀ seq, .done replyId seq ∉ handler.conn.sent) ∧ system.status replyId ≠ some .failed

omit [DecidableEq Socket] in
/-- A step of one connection keeps to the cap, and its acks name the streams that run. -/
def AcksRunning (settings : Settings) (socket : Socket) (system : System Socket)
    (_ : Event Socket) (after : System Socket) : Prop :=
  ∀ handler next, system.handlers socket = some handler → after.handlers socket = some next →
    next.Capped settings ∧ ∃ frames, next.conn.sent = handler.conn.sent ++ frames ∧
      ∀ clientMsgId seq messageId reply, .ack clientMsgId seq messageId reply ∈ frames →
        NamesRunning system handler next clientMsgId reply

/-- Something holds of every step of a run. -/
def System.Along (settings : Settings) (holds : System Socket → Event Socket → System Socket → Prop)
    (system : System Socket) : List (Event Socket) → Prop
  | [] => True
  | event :: events => ∀ after, system.step settings event = some after →
    holds system event after ∧ after.Along settings holds events

/-- Two things hold along the same runs when, wherever an invariant holds, they hold of the same
steps. -/
theorem System.Along.iff_of_invariant {first second : System Socket → Event Socket →
      System Socket → Prop} {Holds : System Socket → Prop} (hsystem : Holds system)
    (hkept : ∀ before event next, Holds before → before.step settings event = some next →
      Holds next)
    (hiff : ∀ before event next, Holds before → before.step settings event = some next →
      (first before event next ↔ second before event next)) (events : List (Event Socket)) :
    system.Along settings first events ↔ system.Along settings second events := by
  induction events generalizing system with
  | nil => exact Iff.rfl
  | cons event events ih =>
    refine forall_congr' fun after ↦ forall_congr' fun hstep ↦ and_congr ?_ ?_
    · exact hiff system event after hsystem hstep
    · exact ih (hkept system event after hsystem hstep)

/-! ### The equivalence -/

omit [DecidableEq Socket] in
theorem Reader.replays_eq_some_iff {reader : Reader} {message : UserMessage} :
    reader.replays = some message ↔ ∃ recorded, recorded.created = false ∧
      (reader = ⟨.recording message, some (.returned (.recorded recorded))⟩ ∨
        reader = ⟨.recovering message, some (.returned (.recorded recorded))⟩) := by
  constructor
  · intro h
    unfold Reader.replays at h
    split at h
    · split_ifs at h with hcreated
      obtain rfl := Option.some.inj h
      exact ⟨_, by simpa using hcreated, Or.inl rfl⟩
    · split_ifs at h with hcreated
      obtain rfl := Option.some.inj h
      exact ⟨_, by simpa using hcreated, Or.inr rfl⟩
    · exact absurd h (by simp)
  · rintro ⟨recorded, hcreated, rfl | rfl⟩
    · simp [Reader.replays, hcreated]
    · simp [Reader.replays, hcreated]

namespace Handler

variable {next : Handler} {stored : String → Prop} {owns : Uuid → Prop} {action : Action}

omit [DecidableEq Socket] in
/-- The ack of a replay names what the live replies have. -/
theorem runReader_replays {message : UserMessage} {fresh : ℕ}
    (h : handler.reader.replays = some message)
    (hstep : handler.runReader settings fresh = some next) :
    ∃ recorded, next = (handler.acknowledge message recorded
      (handler.liveReplies message.clientMsgId)).setReader .receiving := by
  obtain ⟨recorded, hcreated, hreader⟩ := Reader.replays_eq_some_iff.mp h
  refine ⟨recorded, ?_⟩
  have hrecorded : handler.recorded message recorded = next := by
    rcases hreader with hreader | hreader
    · simpa [runReader, hreader, resumeReader] using hstep
    · simpa [runReader, hreader, resumeReader] using hstep
  rw [← hrecorded, Handler.recorded, if_neg (by simp [hcreated])]

omit [DecidableEq Socket] in
/-- A turn that runs has sent no `done`. -/
theorem Streaming.done_not_mem {rows : Uuid → Option Postgres.ChatMessageRow}
    (h : handler.Streaming rows) {id : ℕ} {turn : Turn} (hturn : handler.tasks id = some turn)
    (hplace : turn.place ≠ .ended) (seq : ℕ) :
    .done turn.assistant.messageId seq ∉ handler.conn.sent := by
  intro hsent
  obtain ⟨chunks, hchunks | ⟨-, hover, -⟩⟩ := (h.turns id turn hturn).2.whole
  · have hmem : .done turn.assistant.messageId seq ∈
        handler.conn.stream turn.assistant.messageId :=
      List.mem_filter.mpr ⟨hsent, by simp [ServerFrame.streams]⟩
    rw [hchunks, deltas] at hmem
    obtain ⟨index, hindex, hframe⟩ := List.mem_mapIdx.mp hmem
    exact ServerFrame.noConfusion hframe
  · exact hplace hover.1

omit [DecidableEq Socket] in
/-- The ack of a turn that starts names its row. -/
theorem Registered.started_names (hregistered : handler.Registered settings stored)
    (hstreaming : handler.Streaming (messageRow system.database)) (howns : handler.Owns owns)
    {message : UserMessage} {recorded : RecordedUserMessage} {assistant : StoredMessage} {fresh : ℕ}
    (hreader : handler.reader = ⟨.opening message recorded, some (.returned (.opened assistant))⟩) :
    NamesRunning system handler (handler.startTurn message recorded assistant fresh)
      message.clientMsgId (some assistant.messageId) := by
  have hawaits : handler.reader.Awaits assistant := ⟨message, recorded, hreader⟩
  have hnot := (hregistered.claims message.clientMsgId
    (Or.inr ⟨message, recorded, by rw [hreader], rfl⟩)).2
  have htasks (id : ℕ) : (handler.startTurn message recorded assistant fresh).tasks id =
      if id = fresh then some ⟨message.clientMsgId, assistant, .starting, none, false⟩
      else handler.tasks id :=
    Function.update_apply handler.tasks fresh _ id
  constructor
  · intro id turn hturn hkey _
    rw [htasks] at hturn
    split_ifs at hturn
    · rw [← Option.some.inj hturn]
    · exact absurd hkey (hnot id turn hturn)
  · rintro replyId hreply
    obtain rfl := Option.some.inj hreply
    exact ⟨fresh, _, by rw [htasks, if_pos rfl], rfl, rfl, by simp⟩
  · rintro replyId hreply
    obtain rfl := Option.some.inj hreply
    constructor
    · intro seq hsent
      have hmem : .done assistant.messageId seq ∈ handler.conn.stream assistant.messageId :=
        List.mem_filter.mpr ⟨hsent, by simp [ServerFrame.streams]⟩
      obtain ⟨id, turn, hturn, hmessage⟩ :=
        hstreaming.named assistant.messageId (List.ne_nil_of_mem hmem)
      exact (howns.reader assistant hawaits).2 id turn hturn hmessage
    · obtain ⟨row, hrow, -, hstatus⟩ := hstreaming.awaits assistant hawaits
      rw [System.status, hrow, Option.map_some, hstatus]
      simp

omit [DecidableEq Socket] in
/-- The ack of a replay names what it should when the done-callbacks come first. -/
theorem Registered.replayed_names (hregistered : handler.Registered settings stored)
    (hstreaming : handler.Streaming (messageRow system.database)) {message : UserMessage}
    {recorded : RecordedUserMessage}
    (hfirst : ∀ id ∈ handler.turns, ∀ turn ∈ handler.tasks id,
      turn.clientMsgId = message.clientMsgId →
        turn.place ≠ .ended ∧ system.status turn.assistant.messageId ≠ some .failed) :
    NamesRunning system handler ((handler.acknowledge message recorded
      (handler.liveReplies message.clientMsgId)).setReader .receiving)
      message.clientMsgId (handler.liveReplies message.clientMsgId) := by
  constructor
  · intro id turn hturn hkey hplace
    exact (hregistered.live message.clientMsgId turn.assistant.messageId).mpr
      ⟨id, hregistered.listed id turn hturn hplace, turn, hturn, hkey, rfl⟩
  · intro replyId hreply
    obtain ⟨id, hid, turn, hturn, hkey, hmessage⟩ :=
      (hregistered.live message.clientMsgId replyId).mp hreply
    exact ⟨id, turn, hturn, hkey, hmessage, (hfirst id hid turn hturn hkey).1⟩
  · intro replyId hreply
    obtain ⟨id, hid, turn, hturn, hkey, rfl⟩ :=
      (hregistered.live message.clientMsgId replyId).mp hreply
    obtain ⟨hplace, hstatus⟩ := hfirst id hid turn hturn hkey
    exact ⟨hstreaming.done_not_mem hturn hplace, hstatus⟩

omit [DecidableEq Socket] in
/-- A step of a handler whose done-callbacks come first sends only acks that name what they
should. -/
theorem step_names (hregistered : handler.Registered settings stored)
    (hstreaming : handler.Streaming (messageRow system.database)) (howns : handler.Owns owns)
    (hstep : handler.step settings action = some next)
    (hfirst : ∀ fresh, action = .runReader fresh → ∀ message ∈ handler.reader.replays,
      ∀ id ∈ handler.turns, ∀ turn ∈ handler.tasks id, turn.clientMsgId = message.clientMsgId →
        turn.place ≠ .ended ∧ system.status turn.assistant.messageId ≠ some .failed) :
    ∃ frames, next.conn.sent = handler.conn.sent ++ frames ∧
      ∀ clientMsgId seq messageId reply, .ack clientMsgId seq messageId reply ∈ frames →
        NamesRunning system handler next clientMsgId reply := by
  cases step_speaks hstep with
  | quiet frames hsent hplain htasks hturns hlive hreader =>
    refine ⟨frames, hsent, fun clientMsgId seq messageId reply hack ↦ ?_⟩
    exact Bool.noConfusion (hplain _ hack)
  | replayed message recorded hreader hcreated haction =>
    obtain ⟨fresh, rfl⟩ := haction
    refine ⟨_, Connection.sent_send handler.conn _, fun clientMsgId seq messageId reply hack ↦ ?_⟩
    obtain ⟨rfl, -, -, rfl⟩ := ServerFrame.ack.inj (List.mem_singleton.mp hack)
    refine hregistered.replayed_names hstreaming ?_
    exact hfirst fresh rfl message
      (Reader.replays_eq_some_iff.mpr ⟨recorded, hcreated, hreader⟩)
  | started message recorded assistant fresh hreader hfresh =>
    refine ⟨_, Connection.sent_send handler.conn _, fun clientMsgId seq messageId reply hack ↦ ?_⟩
    obtain ⟨rfl, -, -, rfl⟩ := ServerFrame.ack.inj (List.mem_singleton.mp hack)
    exact hregistered.started_names hstreaming howns hreader
  | turn id turn moved frames hturn hmoves hsent htasks hturns hlive hreader =>
    refine ⟨frames, hsent, fun clientMsgId seq messageId reply hack ↦ ?_⟩
    exact absurd rfl (hmoves.noAck _ hack clientMsgId seq messageId reply)
  | finished id turn hturn hended hlisted =>
    exact ⟨[], (List.append_nil _).symm, fun _ _ _ _ hack ↦ absurd hack List.not_mem_nil⟩

omit [DecidableEq Socket] in
/-- A replay that is acked before the done-callback of its turn names what it should not. -/
theorem Registered.callsBackFirst (hregistered : handler.Registered settings stored)
    (howns : handler.Owns owns) {fresh : ℕ}
    (hstep : handler.runReader settings fresh = some next)
    (hnames : ∃ frames, next.conn.sent = handler.conn.sent ++ frames ∧
      ∀ clientMsgId seq messageId reply, .ack clientMsgId seq messageId reply ∈ frames →
        NamesRunning system handler next clientMsgId reply) :
    ∀ message ∈ handler.reader.replays, ∀ id ∈ handler.turns, ∀ turn ∈ handler.tasks id,
      turn.clientMsgId = message.clientMsgId →
        turn.place ≠ .ended ∧ system.status turn.assistant.messageId ≠ some .failed := by
  intro message hreplays id hid turn hturn hkey
  obtain ⟨recorded, rfl⟩ := runReader_replays hreplays hstep
  obtain ⟨frames, hframes, hacks⟩ := hnames
  have hsent := Connection.sent_send handler.conn (.ack message.clientMsgId recorded.message.seq
    recorded.message.messageId (handler.liveReplies message.clientMsgId))
  obtain rfl := List.append_cancel_left (hsent.symm.trans hframes)
  have hnamed := hacks _ _ _ _ (List.mem_singleton_self _)
  have hlive : handler.liveReplies message.clientMsgId = some turn.assistant.messageId :=
    (hregistered.live message.clientMsgId turn.assistant.messageId).mpr
      ⟨id, hid, turn, hturn, hkey, rfl⟩
  obtain ⟨other, otherTurn, hotherTurn, -, hmessage, hplace⟩ := hnamed.named _ hlive
  obtain rfl := howns.distinct other id otherTurn turn hotherTurn hturn hmessage
  obtain rfl := Option.some.inj (hturn.symm.trans hotherTurn)
  exact ⟨hplace, (hnamed.unfinished _ hlive).2⟩

end Handler

/-- What a run keeps of all connections. -/
structure Live (settings : Settings) (system : System Socket) : Prop where
  owned : Owned system
  streaming : system.Streaming
  registered : system.Registered settings

namespace Live

omit [DecidableEq Socket] in
theorem initial (settings : Settings) : Live settings (.initial Socket) where
  owned := .initial
  streaming _ _ hhandler := absurd hhandler (by simp [System.initial])
  registered _ _ hhandler := absurd hhandler (by simp [System.initial])

theorem step {event : Event Socket} (h : Live settings system)
    (hstep : system.step settings event = some after) : Live settings after where
  owned := h.owned.step hstep
  streaming := h.streaming.step h.owned hstep
  registered := h.registered.step hstep

omit [DecidableEq Socket] in
theorem capped (h : Live settings system) (hhandler : system.handlers socket = some handler) :
    handler.Capped settings :=
  ⟨(h.registered socket handler hhandler).capped, (h.registered socket handler hhandler).listed⟩

omit [DecidableEq Socket] in
/-- A step that sends nothing on the connection. -/
theorem acksRunning_of_sent (hafter : Live settings after) {event : Event Socket}
    (hsent : ∀ handler next, system.handlers socket = some handler →
      after.handlers socket = some next → next.conn.sent = handler.conn.sent) :
    AcksRunning settings socket system event after := by
  intro handler next hhandler hnext
  refine ⟨hafter.capped hnext, [], ?_, fun _ _ _ _ hack ↦ absurd hack List.not_mem_nil⟩
  rw [hsent handler next hhandler hnext, List.append_nil]

/-- A step sends what it should if and only if its done-callbacks come first. -/
theorem acksRunning_iff {event : Event Socket} (h : Live settings system)
    (hstep : system.step settings event = some after) :
    AcksRunning settings socket system event after ↔ CallsBackFirst socket system event := by
  have hafter := h.step hstep
  have hsame : ∀ {other : Socket} {old new : Handler}, system.handlers other = some old →
      new.conn = old.conn → after.handlers = Function.update system.handlers other (some new) →
        ∀ handler next, system.handlers socket = some handler →
          after.handlers socket = some next → next.conn.sent = handler.conn.sent := by
    intro other old new hold hconn hhandlers handler next hhandler hnext
    rw [hhandlers, Function.update_apply] at hnext
    split_ifs at hnext with hother
    · subst hother
      obtain rfl := Option.some.inj hnext
      obtain rfl := Option.some.inj (hold.symm.trans hhandler)
      rw [hconn]
    · rw [Option.some.inj (hnext.symm.trans hhandler)]
  cases System.step_moves hstep with
  | tick duration =>
    refine iff_of_true (hafter.acksRunning_of_sent fun handler next hhandler hnext ↦ ?_) trivial
    rw [Option.some.inj (hnext.symm.trans hhandler)]
  | job operation hchat =>
    refine iff_of_true (hafter.acksRunning_of_sent fun handler next hhandler hnext ↦ ?_) trivial
    rw [Option.some.inj (hnext.symm.trans hhandler)]
  | accept other sessionId hnone =>
    refine iff_of_true (hafter.acksRunning_of_sent fun handler next hhandler hnext ↦ ?_) trivial
    by_cases hother : socket = other
    · subst hother
      exact absurd (hhandler.symm.trans hnone) (Option.some_ne_none handler)
    · rw [system.setHandler_handlers_of_ne _ hother] at hnext
      rw [Option.some.inj (hnext.symm.trans hhandler)]
  | store other task drawn lost old operation hold hcall =>
    exact iff_of_true
      (hafter.acksRunning_of_sent (hsame hold (Handler.answer_conn _ _ _) rfl)) trivial
  | fail other task old operation hold hcall =>
    exact iff_of_true
      (hafter.acksRunning_of_sent (hsame hold (Handler.answer_conn _ _ _) rfl)) trivial
  | act other action old new hold hnew =>
    by_cases hother : other = socket
    · subst hother
      have hregistered := h.registered other old hold
      have howns := h.owned.owns other old hold
      have hself := system.setHandler_handlers_self other new
      constructor
      · intro hacks
        obtain ⟨-, hnames⟩ := hacks old new hold hself
        cases action with
        | runReader fresh =>
          intro _ handler hhandler
          obtain rfl := Option.some.inj (hold.symm.trans hhandler)
          exact hregistered.callsBackFirst howns hnew hnames
        | _ => trivial
      · intro hfirst handler next hhandler hnext
        obtain rfl := Option.some.inj (hold.symm.trans hhandler)
        obtain rfl := Option.some.inj (hself.symm.trans hnext)
        refine ⟨hafter.capped hself, ?_⟩
        refine Handler.step_names hregistered (h.streaming other old hold) howns hnew ?_
        rintro fresh rfl
        exact hfirst rfl old hold
    · refine iff_of_true (hafter.acksRunning_of_sent fun handler next hhandler hnext ↦ ?_) ?_
      · rw [system.setHandler_handlers_of_ne _ (Ne.symm hother)] at hnext
        rw [Option.some.inj (hnext.symm.trans hhandler)]
      · cases action with
        | runReader fresh => exact fun hsame ↦ absurd hsame hother
        | _ => trivial

end Live

/-- Along any run, on any of its connections: every step keeps to the cap, and its acks name the
streams exactly while these run, if and only if in every step the done-callbacks come first. -/
theorem acks_while_running_iff (settings : Settings) (socket : Socket)
    (events : List (Event Socket)) :
    (System.initial Socket).Along settings (AcksRunning settings socket) events ↔
      (System.initial Socket).Along settings
        (fun system event _ ↦ CallsBackFirst socket system event) events :=
  System.Along.iff_of_invariant (Live.initial settings)
    (fun _ _ _ h hstep ↦ h.step hstep) (fun _ _ _ h hstep ↦ h.acksRunning_iff hstep) events

end Runs

/-- The message is submitted again while its turn streams, and the reader awaits the stored row. -/
def askedAgain : List (Event ℕ) :=
  [.act 0 (.receive (.valid 1 (.userMessage question))), .store 0 .reader ⟨6⟩ false,
    .act 0 (.runReader 1), .store 0 .reader ⟨7⟩ false]

/-- The turn sends its `done`, and the loop runs the reader before the done-callback: the replay is
acked with the stream that is over. -/
theorem acked_after_done :
    ∃ (system after : System ℕ) (handler next : Handler),
      (System.initial ℕ).steps .default
        (asked ++ answered ++ askedAgain ++ [.act 0 (.runTurn 0)]) = some system ∧
      system.step .default (.act 0 (.runReader 1)) = some after ∧
      system.handlers 0 = some handler ∧ after.handlers 0 = some next ∧
      .done ⟨3⟩ 2 ∈ handler.conn.sent ∧
      next.conn.sent = handler.conn.sent ++ [.ack "key" 1 ⟨2⟩ (some ⟨3⟩)] ∧
      ¬AcksRunning .default 0 system (.act 0 (.runReader 1)) after := by
  obtain ⟨system, hsteps, after, hstep, handler, next, hhandler, hnext, hdone, hsent⟩ : ∃ system,
      (System.initial ℕ).steps .default
        (asked ++ answered ++ askedAgain ++ [.act 0 (.runTurn 0)]) = some system ∧
      ∃ after, system.step .default (.act 0 (.runReader 1)) = some after ∧
      ∃ handler next, system.handlers 0 = some handler ∧ after.handlers 0 = some next ∧
        .done ⟨3⟩ 2 ∈ handler.conn.sent ∧
        next.conn.sent = handler.conn.sent ++ [.ack "key" 1 ⟨2⟩ (some ⟨3⟩)] :=
    ⟨_, rfl, _, rfl, _, _, rfl, rfl, List.mem_of_getLast? rfl, rfl⟩
  refine ⟨system, after, handler, next, hsteps, hstep, hhandler, hnext, hdone, hsent, ?_⟩
  intro hacks
  obtain ⟨-, frames, hframes, hnames⟩ := hacks handler next hhandler hnext
  obtain rfl := List.append_cancel_left (hsent.symm.trans hframes)
  have hnamed := hnames "key" 1 ⟨2⟩ (some ⟨3⟩) (List.mem_singleton_self _)
  exact (hnamed.unfinished ⟨3⟩ rfl).1 2 hdone

end Abacus.Chat
