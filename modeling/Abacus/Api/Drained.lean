import Abacus.Api.Registered

/-!
# What a drain leaves

`ConnectionRegistry.drain`, from the moment it is called. It asks every connection that is being
served at that moment to close, and what it asked stays asked (`Asked.reaches`): the frame was given
to `request_close` and the close code was set. When it has returned, a connection that it asked is
either out of the registry with its handler over, or it was given up on, and then the whole timeout
has passed (`Draining`, `drain_clears`).
-/

set_option autoImplicit false
set_option relaxedAutoImplicit false

namespace Abacus

/-! ### What was asked stays asked -/

namespace Chat

variable {settings : Settings}

/-- No step takes back the frame of a drain, or its code. -/
theorem Handler.ServeMoves.asked {handler after : Handler} (hmoves : handler.ServeMoves after)
    (hsent : goingAway ∈ handler.conn.sent) (hcode : handler.conn.closeCode = wsServiceRestart) :
    goingAway ∈ after.conn.sent ∧ after.conn.closeCode = wsServiceRestart := by
  cases hmoves with
  | aside haside => exact ⟨haside.conn.sent _ hsent, haside.conn.closeCode.trans hcode⟩
  | drains =>
    rw [Connection.sent_requestClose]
    exact ⟨List.mem_append_left _ hsent, Connection.closeCode_enqueue _ _⟩
  | writes halive =>
    have hgrows := handler.conn.grows_next
    exact ⟨hgrows.sent _ hsent, hgrows.closeCode.trans hcode⟩
  | stops writerLast hwaiting =>
    show goingAway ∈ handler.cancelBoth.conn.sent ∧ handler.cancelBoth.conn.closeCode = _
    rw [handler.cancelBoth_conn]
    exact ⟨hsent, hcode⟩
  | unwinds hserved =>
    show goingAway ∈ handler.cancelBoth.conn.sent ∧ handler.cancelBoth.conn.closeCode = _
    rw [handler.cancelBoth_conn]
    exact ⟨hsent, hcode⟩
  | again hunwinding =>
    rw [handler.cancelBoth_conn]
    exact ⟨hsent, hcode⟩
  | _ => exact ⟨hsent, hcode⟩

/-- The clock of a run does not go back. -/
theorem System.Reaches.now_le {Socket : Type} [DecidableEq Socket] {system after : System Socket}
    {allowed : System Socket → Event Socket → Prop}
    (h : System.Reaches settings allowed system after) : system.now ≤ after.now := by
  induction h with
  | refl => exact le_refl _
  | tail _ hallows ih =>
    obtain ⟨event, -, hstep⟩ := hallows
    refine ih.trans ?_
    cases System.step_moves hstep with
    | tick duration => exact Int.le_add_of_nonneg_right (Int.natCast_nonneg duration)
    | _ => exact le_refl _

end Chat

namespace Api

open Chat (Event Handler System)
open Python (CharacterDatabase)

variable {Socket : Type} [DecidableEq Socket] {unicode : CharacterDatabase} {settings : Settings}
  {replica after : Replica Socket}

theorem Asked.reaches {system later : System Socket} {socket : Socket} (h : Asked system socket)
    (hlater : System.Reaches settings.toSettings (fun _ _ ↦ True) system later) :
    Asked later socket := by
  induction hlater with
  | refl => exact h
  | tail _ hallows ih =>
    obtain ⟨event, -, hstep⟩ := hallows
    obtain ⟨handler, hhandler, hsent, hcode⟩ := ih
    obtain ⟨next, hnext⟩ := System.handler_stays hstep hhandler
    refine ⟨next, hnext, ?_⟩
    have hgoes := System.step_goes hstep hnext
    rw [hhandler] at hgoes
    cases hgoes with
    | kept hsame => exact Option.some.inj hsame ▸ ⟨hsent, hcode⟩
    | accepted sessionId hnone hnew => exact absurd hnone (by simp)
    | answered old reply task hold hanswer =>
      obtain rfl := Option.some.inj hold
      exact hanswer ▸ (Handler.ServeMoves.aside (handler.answer_aside reply task)).asked hsent hcode
    | stepped old action hold hmoved =>
      obtain rfl := Option.some.inj hold
      exact (Handler.step_moves hmoved).asked hsent hcode

/-! ### The wait of a drain -/

/-- Where a drain of some connections is, whose time is up at a moment. -/
structure Draining (conns : Finset Socket) (deadline : Instant) (replica : Replica Socket) :
    Prop where
  asked : ∀ socket ∈ conns, Asked replica.system socket
  place : replica.drain = .waiting conns deadline ∨
    ∃ pending, replica.drain = .returned conns pending ∧ pending ⊆ conns ∧
      (∀ socket ∈ conns, socket ∉ pending → socket ∈ replica.finished) ∧
        (pending.Nonempty → deadline ≤ replica.system.now)

/-- Every later step leaves the drain where it is, or lets it return. -/
theorem Draining.moves {conns : Finset Socket} {deadline : Instant}
    (h : Draining conns deadline replica) (hmoves : Moves settings replica after) :
    Draining conns deadline after := by
  have hbusy : replica.drain ≠ .idle := by
    rcases h.place with hplace | ⟨pending, hplace, -⟩ <;> simp [hplace]
  refine ⟨fun socket hsocket ↦ (h.asked socket hsocket).reaches hmoves.system, ?_⟩
  have hnow := System.Reaches.now_le hmoves.system
  have hkept : after.drain = replica.drain → replica.finished ⊆ after.finished →
      after.drain = .waiting conns deadline ∨
        ∃ pending, after.drain = .returned conns pending ∧ pending ⊆ conns ∧
          (∀ socket ∈ conns, socket ∉ pending → socket ∈ after.finished) ∧
            (pending.Nonempty → deadline ≤ after.system.now) := by
    intro hdrain hfinished
    rw [hdrain]
    refine h.place.imp id ?_
    rintro ⟨pending, hplace, hsubset, hover, htime⟩
    exact ⟨pending, hplace, hsubset,
      fun socket hsocket hleft ↦ hfinished (hover socket hsocket hleft),
      fun hpending ↦ (htime hpending).trans hnow⟩
  cases hmoves with
  | turnedAway socket place => exact hkept rfl (Finset.Subset.refl _)
  | registers socket sessionId hregister =>
    unfold Replica.register at hregister
    dsimp only at hregister
    split_ifs at hregister
    · obtain ⟨system, haccept, rfl⟩ := Option.map_eq_some_iff.mp hregister
      exact hkept rfl (Finset.Subset.refl _)
    · obtain rfl := Option.some.inj hregister
      exact hkept rfl (Finset.Subset.refl _)
  | elsewhere event hsystem hnone => exact hkept rfl (Finset.Subset.refl _)
  | @serves event socket system hsystem hsome haccept =>
    exact hkept (leave_drain _ _) (finished_leave { replica with system := system } socket)
  | drains order hidle henumerates hcloses => exact absurd hidle hbusy
  | drained found moment hwaiting hover =>
    rcases h.place with hplace | ⟨pending, hplace, -⟩
    · obtain ⟨rfl, rfl⟩ := Drain.waiting.inj (hwaiting.symm.trans hplace)
      refine Or.inr ⟨_, rfl, Finset.sdiff_subset, fun socket hsocket hleft ↦ ?_, fun hpending ↦ ?_⟩
      · by_contra hnot
        exact hleft (Finset.mem_sdiff.mpr ⟨hsocket, hnot⟩)
      · refine hover.resolve_left fun hall ↦ ?_
        exact hpending.ne_empty (Finset.sdiff_eq_empty_iff_subset.mpr hall)
    · exact absurd (hwaiting.symm.trans hplace) (by simp)

theorem Draining.reaches {conns : Finset Socket} {deadline : Instant}
    (h : Draining conns deadline replica)
    (hlater : Replica.Reaches unicode settings replica after) :
    Draining conns deadline after := by
  induction hlater with
  | refl => exact h
  | tail _ hstep ih =>
    obtain ⟨happening, hstep⟩ := hstep
    exact ih.moves (step_moves hstep)

/-- A drain that has been called. -/
theorem draining_of_step {order : List Socket}
    (hdrain : replica.step unicode settings (.drain order) = some after) :
    (order : Multiset Socket) = replica.registry.connections ∧
      Draining order.toFinset (replica.system.now + settings.wsDrainTimeoutSeconds) after := by
  simp only [Replica.step] at hdrain
  split at hdrain
  · next hidle =>
    unfold Replica.startDrain at hdrain
    by_cases henumerates : (order : Multiset Socket) = replica.registry.connections
    · rw [if_pos henumerates] at hdrain
      obtain ⟨system, hcloses, rfl⟩ := Option.map_eq_some_iff.mp hdrain
      obtain ⟨-, -, -, hasked⟩ := requestCloses_eq hcloses
      refine ⟨henumerates, fun socket hsocket ↦ hasked socket (Or.inl ?_), ?_⟩
      · exact List.mem_toFinset.mp hsocket
      · by_cases hempty : order = []
        · subst hempty
          exact Or.inr ⟨∅, rfl, Finset.Subset.refl _, by simp, by simp⟩
        · exact Or.inl (if_neg hempty)
    · rw [if_neg henumerates] at hdrain
      exact absurd hdrain (by simp)
  · exact absurd hdrain (by simp)

/-- A drain that has returned, however long the replica ran before it and while it waited. The
connections that it asked are the ones that were being served when it was called. On each of them
`request_close` was called with the frame that the server is going away and the restart code; a
queue without room for it drops the frame and closes with another code. Each of them is over and out
of the registry, or is among those given up on, and then the timeout has passed since the call. -/
theorem drain_clears (hrun : Replica.Run unicode settings replica) {order : List Socket}
    {started : Replica Socket} {conns pending : Finset Socket}
    (hdrain : replica.step unicode settings (.drain order) = some started)
    (hlater : Replica.Reaches unicode settings started after)
    (hreturned : after.drain = .returned conns pending) :
    (∀ socket, socket ∈ conns ↔ ∃ sessionId, Served replica.system sessionId socket) ∧
    (∀ socket ∈ conns, Asked after.system socket) ∧
    (∀ socket ∈ conns, socket ∉ pending → Over after.system socket ∧
      ∀ sessionId, socket ∉ after.registry.forSession sessionId) ∧
    ∀ socket ∈ pending, socket ∈ conns ∧
      replica.system.now + settings.wsDrainTimeoutSeconds ≤ after.system.now := by
  obtain ⟨henumerates, hstarted⟩ := draining_of_step hdrain
  have hafter : Replica.Run unicode settings after := (hrun.tail ⟨_, hdrain⟩).trans hlater
  have hdraining := hstarted.reaches hlater
  rcases hdraining.place with hplace | ⟨left, hplace, hsubset, hover, htime⟩
  · exact absurd (hreturned.symm.trans hplace) (by simp)
  · obtain ⟨rfl, rfl⟩ := Drain.returned.inj (hreturned.symm.trans hplace)
    have hregistered := hafter.registered
    refine ⟨fun socket ↦ ?_, hdraining.asked, fun socket hsocket hleft ↦ ?_,
      fun socket hsocket ↦ ?_⟩
    · rw [List.mem_toFinset, ← Multiset.mem_coe, henumerates, ConnectionRegistry.mem_connections]
      exact exists_congr fun sessionId ↦ hrun.registered.held sessionId socket
    · have hended := (hregistered.finished socket).mp (hover socket hsocket hleft)
      refine ⟨hended, fun sessionId hheld ↦ ?_⟩
      exact ((hregistered.held sessionId socket).mp hheld).not_over hended
    · exact ⟨hsubset hsocket, htime ⟨socket, hsocket⟩⟩

/-- A connection is opened and waits for frames. -/
def opened (socket : ℕ) : List (Happening ℕ) :=
  [.serve (.store socket .serve ⟨0⟩ false), .serve (.act socket (.runServe true)),
    .serve (.act socket (.runReader 0)), .serve (.act socket .runWriter)]

/-- After a drain the first connection flushes, stops its tasks and closes. The writer of the second
is stuck in a write, and the drain returns when the timeout has passed. -/
def closedOne : List (Happening ℕ) :=
  [.serve (.act 0 .runWriter), .serve (.act 1 .runWriter), .serve (.act 0 (.write .accepted)),
    .serve (.act 0 (.runServe true)), .serve (.act 0 (.runReader 0)),
    .serve (.act 0 (.runServe true)), .serve (.act 0 (.runServe true)),
    .serve (.tick 5000000), .drained]

/-- The law at work: of two connections that are drained one ends, and the other is given up on when
the time is over. -/
theorem drain_clears_two :
    ∃ (unicode : CharacterDatabase) (replica after : Replica ℕ),
      Replica.Run unicode .default replica ∧
        (∀ socket, socket ∈ ({0, 1} : Finset ℕ) ↔
          ∃ sessionId, Served replica.system sessionId socket) ∧
        Replica.Reaches unicode .default replica after ∧ after.drain = .returned {0, 1} {1} ∧
          Asked after.system 1 ∧ replica.system.now + 5000000 ≤ after.system.now ∧
          Over after.system 0 ∧ ∀ sessionId, 0 ∉ after.registry.forSession sessionId := by
  let unicode : CharacterDatabase := ⟨fun _ ↦ none, fun _ ↦ false⟩
  obtain ⟨first, hfirst, middle, hmiddle, hhandler, hnew, second, hsecond, replica, hreplica,
      started, hdrain, after, hafter, hreturned⟩ :
      ∃ first, (Replica.initial ℕ .default).register .default 0 ⟨7⟩ = some first ∧
        ∃ middle, first.steps unicode .default (opened 0) = some middle ∧
          middle.system.handlers 1 = none ∧ middle.turnedAway 1 = none ∧
          ∃ second, middle.register .default 1 ⟨8⟩ = some second ∧
            ∃ replica, second.steps unicode .default (opened 1) = some replica ∧
              ∃ started, replica.step unicode .default (.drain [0, 1]) = some started ∧
                ∃ after, started.steps unicode .default closedOne = some after ∧
                  after.drain = .returned {0, 1} {1} :=
    ⟨_, rfl, _, rfl, rfl, rfl, _, rfl, _, rfl, _, rfl, _, rfl, rfl⟩
  have hrun : Replica.Run unicode .default replica :=
    (((Relation.ReflTransGen.single ⟨_, (step_connect ⟨7⟩ rfl rfl).trans hfirst⟩).trans
      (Replica.Reaches.of_steps hmiddle)).tail
        ⟨_, (step_connect ⟨8⟩ hhandler hnew).trans hsecond⟩).trans
          (Replica.Reaches.of_steps hreplica)
  have hlater := Replica.Reaches.of_steps hafter
  obtain ⟨hserved, hasked, hover, hpending⟩ := drain_clears hrun hdrain hlater hreturned
  obtain ⟨hended, hgone⟩ := hover 0 (by decide) (by decide)
  have htime := (hpending 1 (by decide)).2
  exact ⟨unicode, replica, after, hrun, hserved, (Relation.ReflTransGen.single ⟨_, hdrain⟩).trans
    hlater, hreturned, hasked 1 (by decide), htime, hended, hgone⟩

end Api

end Abacus
