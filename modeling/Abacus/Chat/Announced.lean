import Abacus.Chat.Dialogue
import Abacus.Chat.LiveReplies

/-!
# What a connection is told before a stream

An ack that starts a turn names the row of its reply, and then the turn sends the stream of that
row. So every frame of a stream comes after an ack that names its row (`Led`). The acks of a row are
those of its turn's key, so a client whose keys are all different is told of a row once
(`wellTold_of_steps`).
-/

set_option autoImplicit false
set_option relaxedAutoImplicit false

namespace Abacus

/-- The rows that the acks among the frames name, one for each. -/
def named (frames : List ServerFrame) : List Uuid :=
  frames.filterMap fun
    | .ack _ _ _ reply => reply
    | _ => none

theorem named_append (first second : List ServerFrame) :
    named (first ++ second) = named first ++ named second :=
  List.filterMap_append

/-- Every frame of a stream comes after an ack that names its row. -/
def Led (frames : List ServerFrame) : Prop :=
  ∀ before frame, before ++ [frame] <+: frames → ∀ messageId,
    frame.streams messageId = true → messageId ∈ named before

namespace Led

variable {frames more : List ServerFrame} {frame : ServerFrame}

theorem nil : Led [] := by
  intro before frame hbegins
  exact absurd (List.prefix_nil.mp hbegins) (by simp)

theorem restrict (h : Led more) (hbegins : frames <+: more) : Led frames :=
  fun before frame hbefore ↦ h before frame (hbefore.trans hbegins)

theorem concat (h : Led frames)
    (hframe : ∀ messageId, frame.streams messageId = true → messageId ∈ named frames) :
    Led (frames ++ [frame]) := by
  intro before last hbefore
  rcases List.prefix_concat_iff.mp hbefore with hsame | hearlier
  · obtain ⟨rfl, hlast⟩ := List.append_inj' hsame rfl
    obtain rfl := List.singleton_inj.mp hlast
    exact hframe
  · exact h before last hearlier

theorem append (h : Led frames)
    (hmore : ∀ frame ∈ more, ∀ messageId, frame.streams messageId = true →
      messageId ∈ named frames) : Led (frames ++ more) := by
  induction more using List.reverseRecOn with
  | nil => rwa [List.append_nil]
  | append_singleton more frame ih =>
    rw [← List.append_assoc]
    refine (ih fun found hfound ↦ hmore found (List.mem_append_left _ hfound)).concat ?_
    intro messageId hstreams
    rw [named_append]
    exact List.mem_append_left _ (hmore frame (by simp) messageId hstreams)

/-- The row of a frame of a stream is named. -/
theorem mem (h : Led frames) (hframe : frame ∈ frames) {messageId : Uuid}
    (hstreams : frame.streams messageId = true) : messageId ∈ named frames := by
  obtain ⟨before, later, rfl⟩ := List.append_of_mem hframe
  have hfirst : before ++ [frame] <+: before ++ frame :: later := ⟨later, by simp⟩
  rw [named_append]
  exact List.mem_append_left _ (h before frame hfirst messageId hstreams)

end Led

namespace Chat

namespace Handler

variable {settings : Settings} {stored : String → Prop} {handler after : Handler} {action : Action}

/-- What a handler has announced: the row of each of its turns, before anything of its stream, and
under the key of the turn. -/
structure Announces (handler : Handler) : Prop where
  tasks : ∀ id turn, handler.tasks id = some turn →
    turn.assistant.messageId ∈ named handler.conn.sent
  order : Led handler.conn.sent
  acked : ∀ clientMsgId seq messageId reply,
    .ack clientMsgId seq messageId (some reply) ∈ handler.conn.sent →
      ∃ id turn, handler.tasks id = some turn ∧ turn.clientMsgId = clientMsgId ∧
        turn.assistant.messageId = reply

namespace Announces

theorem new (settings : Settings) (sessionId : Uuid) :
    (Handler.new settings sessionId).Announces where
  tasks _ _ hturn := absurd hturn (by simp [Handler.new])
  order := .nil
  acked _ _ _ _ hack := absurd hack (by simp [Handler.new, Connection.new])

/-- The same turns, further on, with frames that ack nothing and are of streams that were
announced. -/
theorem continues (h : handler.Announces) (hcontinues : handler.Continues after)
    (frames : List ServerFrame) (hsent : after.conn.sent = handler.conn.sent ++ frames)
    (hacks : ∀ frame ∈ frames, NoAck frame)
    (hled : ∀ frame ∈ frames, ∀ messageId, frame.streams messageId = true →
      messageId ∈ named handler.conn.sent) : after.Announces where
  tasks id moved hmoved := by
    obtain ⟨turn, hturn, hsame⟩ := hcontinues.back hmoved
    rw [hsent, named_append, hsame.assistant]
    exact List.mem_append_left _ (h.tasks id turn hturn)
  order := hsent ▸ h.order.append hled
  acked clientMsgId seq messageId reply hack := by
    rw [hsent, List.mem_append] at hack
    obtain ⟨id, turn, hturn, hkey, hreply⟩ :=
      h.acked clientMsgId seq messageId reply
        (hack.resolve_right fun hmore ↦ hacks _ hmore _ _ _ _ rfl)
    obtain ⟨moved, hmoved, hsame⟩ := hcontinues.forth hturn
    exact ⟨id, moved, hmoved, hsame.clientMsgId.trans hkey, by rw [hsame.assistant, hreply]⟩

/-- A step of a handler announces the turn that it starts, and streams what was announced. -/
theorem step (h : handler.Announces) (hregistered : handler.Registered settings stored)
    (hstep : handler.step settings action = some after) : after.Announces := by
  cases step_speaks hstep with
  | quiet frames hsent hplain htasks hturns hlive hreader =>
    refine h.continues (.of_cancel htasks) frames hsent ?_ ?_
    · rintro frame hframe clientMsgId seq messageId reply rfl
      exact Bool.noConfusion (hplain _ hframe)
    · intro frame hframe messageId hstreams
      have hnone := List.filter_eq_nil_iff.mp (streams_of_plain hplain messageId) frame hframe
      exact absurd hstreams hnone
  | replayed message recorded hreader hcreated haction =>
    have hsent : ((handler.acknowledge message recorded
        (handler.liveReplies message.clientMsgId)).setReader .receiving).conn.sent =
          handler.conn.sent ++ [.ack message.clientMsgId recorded.message.seq
            recorded.message.messageId (handler.liveReplies message.clientMsgId)] :=
      Connection.sent_send _ _
    constructor
    · intro id turn hturn
      rw [hsent, named_append]
      exact List.mem_append_left _ (h.tasks id turn hturn)
    · rw [hsent]
      exact h.order.concat fun messageId hstreams ↦ Bool.noConfusion hstreams
    · intro clientMsgId seq messageId reply hack
      rw [hsent, List.mem_append, List.mem_singleton] at hack
      rcases hack with hold | hnew
      · exact h.acked clientMsgId seq messageId reply hold
      · obtain ⟨rfl, -, -, hlive⟩ := ServerFrame.ack.inj hnew
        obtain ⟨id, -, turn, hturn, hkey, hreply⟩ := (hregistered.live _ _).mp hlive.symm
        exact ⟨id, turn, hturn, hkey, hreply⟩
  | started message recorded assistant fresh hreader hfresh =>
    have hsent : (handler.startTurn message recorded assistant fresh).conn.sent =
        handler.conn.sent ++ [.ack message.clientMsgId recorded.message.seq
          recorded.message.messageId (some assistant.messageId)] :=
      Connection.sent_send _ _
    have htasks (id : ℕ) : (handler.startTurn message recorded assistant fresh).tasks id =
        if id = fresh then some ⟨message.clientMsgId, assistant, .starting, none, false⟩
        else handler.tasks id :=
      Function.update_apply handler.tasks fresh _ id
    constructor
    · intro id turn hturn
      rw [hsent, named_append]
      rw [htasks] at hturn
      split_ifs at hturn
      · rw [← Option.some.inj hturn]
        exact List.mem_append_right _ (List.mem_singleton.mpr rfl)
      · exact List.mem_append_left _ (h.tasks id turn hturn)
    · rw [hsent]
      exact h.order.concat fun messageId hstreams ↦ Bool.noConfusion hstreams
    · intro clientMsgId seq messageId reply hack
      rw [hsent, List.mem_append, List.mem_singleton] at hack
      rcases hack with hold | hnew
      · obtain ⟨id, turn, hturn, hkey, hreply⟩ := h.acked clientMsgId seq messageId reply hold
        refine ⟨id, turn, ?_, hkey, hreply⟩
        rw [htasks, if_neg]
        · exact hturn
        · rintro rfl
          exact absurd (hturn.symm.trans hfresh) (Option.some_ne_none turn)
      · obtain ⟨rfl, -, -, hreply⟩ := ServerFrame.ack.inj hnew
        exact ⟨fresh, _, by rw [htasks, if_pos rfl], rfl, (Option.some.inj hreply).symm⟩
  | turn id turn moved frames hturn hmoves hsent htasks hturns hlive hreader =>
    refine h.continues (.of_update hturn htasks (Turn.continues_speaks hmoves)) frames hsent ?_ ?_
    · exact hmoves.noAck
    · intro frame hframe messageId hstreams
      by_cases hself : turn.assistant.messageId = messageId
      · exact hself ▸ h.tasks id turn hturn
      · have hnone := List.filter_eq_nil_iff.mp (hmoves.other hself) frame hframe
        exact absurd hstreams hnone
  | finished id turn hturn hended hlisted =>
    exact ⟨h.tasks, h.order, h.acked⟩

/-- A reply to a call says nothing, and makes no turn. -/
theorem answer (h : handler.Announces) (reply : Reply) (task : Task) :
    (handler.answer reply task).Announces := by
  have hsent : (handler.answer reply task).conn.sent = handler.conn.sent ++ [] := by
    rw [answer_conn, List.append_nil]
  refine h.continues ?_ [] hsent (by simp) (by simp)
  cases task with
  | serve => exact .of_eq rfl
  | reader => exact .of_eq rfl
  | turn id =>
    cases hturn : handler.tasks id with
    | none =>
      refine .of_eq ?_
      show Function.update handler.tasks id ((handler.tasks id).map _) = handler.tasks
      rw [hturn, Option.map_none, ← hturn, Function.update_eq_self]
    | some turn =>
      refine .of_update hturn ?_ (turn.continues_answer reply)
      show Function.update handler.tasks id ((handler.tasks id).map _) = _
      rw [hturn, Option.map_some]

/-- The acks that name one row are under one key. -/
theorem key_unique (h : handler.Announces) {owns : Uuid → Prop} (howns : handler.Owns owns)
    {first second : String} {seq otherSeq : ℕ} {messageId otherId reply : Uuid}
    (hfirst : .ack first seq messageId (some reply) ∈ handler.conn.sent)
    (hsecond : .ack second otherSeq otherId (some reply) ∈ handler.conn.sent) :
    first = second := by
  obtain ⟨id, turn, hturn, rfl, hreply⟩ := h.acked _ _ _ _ hfirst
  obtain ⟨other, otherTurn, hother, rfl, hotherReply⟩ := h.acked _ _ _ _ hsecond
  obtain rfl : id = other :=
    howns.distinct id other turn otherTurn hturn hother (hreply.trans hotherReply.symm)
  rw [Option.some.inj (hturn.symm.trans hother)]

end Announces

end Handler

/-! ### The keys -/

/-- The key of the user message that came in. -/
def key : Inbound → Option String
  | .valid _ (.userMessage message) => some message.clientMsgId
  | _ => none

/-- The keys that the acks among the frames carry, with the rows that they name. -/
def acks (frames : List ServerFrame) : List (String × Option Uuid) :=
  frames.filterMap fun
    | .ack clientMsgId _ _ reply => some (clientMsgId, reply)
    | _ => none

theorem named_eq (frames : List ServerFrame) : named frames = (acks frames).filterMap Prod.snd := by
  rw [named, acks, List.filterMap_filterMap]
  congr 1
  funext frame
  cases frame <;> rfl

theorem acks_filter (frames : List ServerFrame) :
    acks (frames.filter ServerFrame.answers) = acks frames := by
  rw [acks, acks, List.filterMap_filter]
  congr 1
  funext frame
  cases frame with
  | ack => rfl
  | _ => simp

theorem mem_acks {frames : List ServerFrame} {clientMsgId : String} {reply : Option Uuid} :
    (clientMsgId, reply) ∈ acks frames ↔
      ∃ seq messageId, .ack clientMsgId seq messageId reply ∈ frames := by
  simp only [acks, List.mem_filterMap]
  constructor
  · rintro ⟨frame, hframe, hack⟩
    cases frame with
    | ack found seq messageId other =>
      obtain ⟨rfl, rfl⟩ := Prod.mk.inj (Option.some.inj hack)
      exact ⟨seq, messageId, hframe⟩
    | _ => exact nomatch hack
  · rintro ⟨seq, messageId, hframe⟩
    exact ⟨_, hframe, rfl⟩

theorem acks_replayed (rows : List SessionRow) : acks (rows.map replayed) = [] := by
  refine List.filterMap_eq_nil_iff.mpr fun frame hframe ↦ ?_
  obtain ⟨row, -, rfl⟩ := List.mem_map.mp hframe
  cases row <;> rfl

section Dialogues

variable {settings : Settings} {sessionId : Uuid}

/-- Only a user message is acked, and once, under its key. -/
theorem Responds.acks_sublist {found : Postgres.Database → Prop} {inbound : Inbound}
    {frames : List ServerFrame} (h : Responds settings sessionId found inbound frames) :
    ((acks frames).map Prod.fst).Sublist (key inbound).toList := by
  cases h with
  | stored => exact List.Sublist.refl _
  | known => exact List.Sublist.refl _
  | replayed v lastSeq database hv hfound hlength =>
    rw [acks_replayed]
    exact List.nil_sublist _
  | _ => exact List.nil_sublist _

/-- The keys that were acked are keys that came in, in their order. -/
theorem Dialogue.acks_sublist {found : List Inbound → Postgres.Database → Prop}
    {heard : List Inbound} {said : List ServerFrame}
    (h : Dialogue settings sessionId found heard said) :
    ((acks said).map Prod.fst).Sublist (heard.filterMap key) := by
  induction h with
  | nil => exact List.Sublist.refl _
  | answered inbound hearlier hresponds ih =>
    have hlast : [inbound].filterMap key = (key inbound).toList := by
      cases hkey : key inbound <;> simp [hkey]
    rw [acks, List.filterMap_append, List.map_append, List.filterMap_append, hlast]
    exact ih.append hresponds.acks_sublist

end Dialogues

/-! ### What is told -/

/-- What a client may rely on of the frames that it gets: every frame of a stream comes after an ack
that names its row, no two acks name one row, and a stream is chunks in order and a `done`. -/
structure WellTold (frames : List ServerFrame) : Prop where
  led : Led frames
  once : (named frames).Nodup
  shaped : ∀ messageId, ∃ chunks seq,
    frames.filter (ServerFrame.streams messageId) <+:
      deltas messageId chunks ++ [.done messageId seq]

theorem WellTold.restrict {frames more : List ServerFrame} (h : WellTold more)
    (hbegins : frames <+: more) : WellTold frames where
  led := h.led.restrict hbegins
  once := h.once.sublist (hbegins.sublist.filterMap _)
  shaped messageId := by
    obtain ⟨chunks, seq, hshape⟩ := h.shaped messageId
    exact ⟨chunks, seq, (hbegins.filter _).trans hshape⟩

/-- Acks that name a row under one key only, with keys that are all different, name no row twice. -/
theorem nodup_named {frames : List ServerFrame}
    (hunique : ∀ first second seq otherSeq messageId otherId reply,
      .ack first seq messageId (some reply) ∈ frames →
        .ack second otherSeq otherId (some reply) ∈ frames → first = second)
    (hkeys : ((acks frames).map Prod.fst).Nodup) : (named frames).Nodup := by
  rw [named_eq, List.Nodup, List.pairwise_filterMap]
  refine (List.pairwise_map.mp hkeys).imp_of_mem ?_
  rintro ⟨first, reply⟩ ⟨second, other⟩ hfirst hsecond hne messageId hreply otherId hother rfl
  obtain ⟨seq, stored, hack⟩ := mem_acks.mp hfirst
  obtain ⟨otherSeq, otherStored, hotherAck⟩ := mem_acks.mp hsecond
  obtain rfl : reply = some messageId := hreply
  obtain rfl : other = some messageId := hother
  exact hne (hunique _ _ _ _ _ _ _ hack hotherAck)

section Runs

variable {Socket : Type} [DecidableEq Socket] {settings : Settings} {system after : System Socket}
  {socket : Socket} {events : List (Event Socket)}

/-- Every connection announces its turns. -/
def System.Announces (system : System Socket) : Prop :=
  ∀ socket handler, system.handlers socket = some handler → handler.Announces

theorem System.Announces.step {event : Event Socket} (h : system.Announces)
    (hregistered : system.Registered settings) (hstep : system.step settings event = some after) :
    after.Announces := by
  cases System.step_moves hstep with
  | tick duration => exact h
  | job operation hchat => exact h
  | accept socket sessionId hnone =>
    exact OneTurn.forall_update (.new settings sessionId) fun other old _ hold ↦ h other old hold
  | store socket task drawn lost handler operation hhandler hcall =>
    exact OneTurn.forall_update ((h socket handler hhandler).answer _ _)
      fun other old _ hold ↦ h other old hold
  | fail socket task handler operation hhandler hcall =>
    exact OneTurn.forall_update ((h socket handler hhandler).answer _ _)
      fun other old _ hold ↦ h other old hold
  | act socket action handler next hhandler hnext =>
    exact OneTurn.forall_update
      ((h socket handler hhandler).step (hregistered socket handler hhandler) hnext)
      fun other old _ hold ↦ h other old hold

theorem System.Run.announces (h : System.Run settings system) :
    Live settings system ∧ system.Announces := by
  have hkept : ∀ (before : System Socket) event next, Live settings before ∧ before.Announces →
      True → before.step settings event = some next → Live settings next ∧ next.Announces :=
    fun before event next hbefore _ hstep ↦
      ⟨hbefore.1.step hstep, hbefore.2.step hbefore.1.registered hstep⟩
  refine h.invariant ?_ hkept
  exact ⟨Live.initial settings, fun socket handler hhandler ↦
    absurd hhandler (by simp [System.initial])⟩

/-- What is sent on a connection whose client submits every message under a key of its own. -/
theorem wellTold_of_steps (hsteps : (System.initial Socket).steps settings events = some system)
    {handler : Handler} (hhandler : system.handlers socket = some handler)
    (hkeys : ((received socket events).filterMap key).Nodup) : WellTold handler.conn.sent := by
  have hrun : System.Run settings system := .of_steps hsteps
  obtain ⟨hlive, hannounces⟩ := hrun.announces
  have hannounced := hannounces socket handler hhandler
  have howns := hlive.owned.owns socket handler hhandler
  obtain ⟨earlier, owed, hreceived, -, hdialogue⟩ :=
    (dialogues_of_steps hsteps).paired socket handler hhandler
  refine ⟨hannounced.order, ?_, fun messageId ↦ ?_⟩
  · refine nodup_named (fun _ _ _ _ _ _ _ hfirst hsecond ↦
      hannounced.key_unique howns hfirst hsecond) ?_
    rw [← acks_filter]
    refine (hdialogue.acks_sublist).nodup ?_
    rw [hreceived, List.filterMap_append] at hkeys
    exact (List.nodup_append.mp hkeys).1
  · have hstreaming := hlive.streaming socket handler hhandler
    by_cases hstream : handler.conn.stream messageId = []
    · exact ⟨[], 0, hstream ▸ List.nil_prefix⟩
    · obtain ⟨id, turn, hturn, rfl⟩ := hstreaming.named messageId hstream
      obtain ⟨chunks, hchunks | ⟨hchunks, -⟩⟩ := (hstreaming.turns id turn hturn).2.whole
      · exact ⟨chunks, 0, hchunks ▸ List.prefix_append _ _⟩
      · exact ⟨chunks, turn.assistant.seq, hchunks ▸ List.prefix_refl _⟩

end Runs

end Chat

end Abacus
