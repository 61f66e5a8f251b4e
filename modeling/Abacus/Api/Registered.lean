import Abacus.Api.Replica
import Abacus.Chat.Serve

/-!
# The registry holds what is served

In every state of a replica, the registry holds under a session exactly the connections that a
handler is serving for it, at most as many as the cap, and no more than that: no empty set, and no
connection of a route that has returned (`Registered`). Whatever the replica does, its connections
and its database make a run of `Chat.System` (`Replica.Run.system`), so that what holds of those
runs holds here.
-/

set_option autoImplicit false
set_option relaxedAutoImplicit false

namespace Abacus

/-! ### What a step does to a connection -/

namespace Chat

variable {settings : Settings}

/-- A handler that is over stays over. -/
theorem Handler.ServeMoves.ended {handler after : Handler} (hmoves : handler.ServeMoves after)
    (hended : handler.serve.place = .ended) : after.serve.place = .ended := by
  have hzero : after.serve.place = .closing 0 ∨ after.serve.place = .ended :=
    hmoves.closing (Or.inr hended)
  have hone : after.serve.place = .closing 1 ∨ after.serve.place = .ended :=
    hmoves.closing (Or.inr hended)
  rcases hzero with hzero | hover
  · rcases hone with hone | hover
    · exact absurd (hzero.symm.trans hone) (by simp)
    · exact hover
  · exact hover

/-- What a step on a connection that was accepted leaves of it. -/
structure Handler.Stays (handler next : Handler) : Prop where
  session : next.conn.sessionId = handler.conn.sessionId
  ended : handler.serve.place = .ended → next.serve.place = .ended

theorem Handler.answer_stays (handler : Handler) (reply : Reply) (task : Handler.Task) :
    handler.Stays (handler.answer reply task) where
  session := by rw [Handler.answer_conn]
  ended := (Handler.ServeMoves.aside (handler.answer_aside reply task)).ended

theorem Handler.step_stays {handler next : Handler} {action : Handler.Action}
    (h : handler.step settings action = some next) : handler.Stays next where
  session := Handler.step_session h
  ended := (Handler.step_moves h).ended

section Steps

variable {Socket : Type} [DecidableEq Socket] {system after : System Socket} {event : Event Socket}

/-- A step that is on no connection leaves them all. -/
theorem System.step_elsewhere (hstep : system.step settings event = some after)
    (hnone : Api.socketOf event = none) : after.handlers = system.handlers := by
  cases System.step_moves hstep with
  | tick duration => rfl
  | job operation hchat => rfl
  | accept socket sessionId => exact absurd hnone (by simp [Api.socketOf])
  | store socket task drawn lost handler operation => exact absurd hnone (by simp [Api.socketOf])
  | fail socket task handler operation => exact absurd hnone (by simp [Api.socketOf])
  | act socket action handler next => exact absurd hnone (by simp [Api.socketOf])

/-- A step on a connection that was accepted leaves all others. -/
theorem System.step_on {socket : Socket} (hstep : system.step settings event = some after)
    (hsome : Api.socketOf event = some socket)
    (haccept : ∀ sessionId, event ≠ .accept socket sessionId) :
    ∃ handler next, system.handlers socket = some handler ∧ handler.Stays next ∧
      after.handlers = Function.update system.handlers socket (some next) := by
  cases System.step_moves hstep with
  | tick duration => exact absurd hsome (by simp [Api.socketOf])
  | job operation hchat => exact absurd hsome (by simp [Api.socketOf])
  | accept acted sessionId =>
    obtain rfl := Option.some.inj hsome
    exact absurd rfl (haccept sessionId)
  | store acted task drawn lost handler operation hhandler hcall =>
    obtain rfl := Option.some.inj hsome
    exact ⟨handler, _, hhandler, handler.answer_stays _ task, rfl⟩
  | fail acted task handler operation hhandler hcall =>
    obtain rfl := Option.some.inj hsome
    exact ⟨handler, _, hhandler, handler.answer_stays _ task, rfl⟩
  | act acted action handler next hhandler hnext =>
    obtain rfl := Option.some.inj hsome
    exact ⟨handler, next, hhandler, Handler.step_stays hnext, rfl⟩

end Steps

end Chat

namespace Api

open Chat (Event Handler System)
open Python (CharacterDatabase)

variable {Socket : Type} [DecidableEq Socket]

/-! ### What is being served -/

/-- A handler is serving a connection for a session. -/
def Served (system : System Socket) (sessionId : Uuid) (socket : Socket) : Prop :=
  ∃ handler, system.handlers socket = some handler ∧ handler.conn.sessionId = sessionId ∧
    handler.serve.place ≠ .ended

/-- The handler of a connection has ended. -/
def Over (system : System Socket) (socket : Socket) : Prop :=
  ∃ handler, system.handlers socket = some handler ∧ handler.serve.place = .ended

omit [DecidableEq Socket] in
theorem Served.unique {system : System Socket} {first second : Uuid} {socket : Socket}
    (hfirst : Served system first socket) (hsecond : Served system second socket) :
    first = second := by
  obtain ⟨handler, hhandler, rfl, -⟩ := hfirst
  obtain ⟨other, hother, rfl, -⟩ := hsecond
  rw [Option.some.inj (hhandler.symm.trans hother)]

omit [DecidableEq Socket] in
theorem Served.not_over {system : System Socket} {sessionId : Uuid} {socket : Socket}
    (h : Served system sessionId socket) : ¬Over system socket := by
  obtain ⟨handler, hhandler, -, hserved⟩ := h
  rintro ⟨other, hother, hended⟩
  rw [Option.some.inj (hother.symm.trans hhandler)] at hended
  exact hserved hended

section Update

variable {system after : System Socket} {socket : Socket} {next : Handler}

theorem served_update
    (hupdate : after.handlers = Function.update system.handlers socket (some next))
    (sessionId : Uuid) (other : Socket) :
    Served after sessionId other ↔
      if other = socket then next.conn.sessionId = sessionId ∧ next.serve.place ≠ .ended
      else Served system sessionId other := by
  unfold Served
  rw [hupdate]
  split_ifs with hother
  · rw [hother, Function.update_self]
    constructor
    · rintro ⟨handler, hhandler, hserved⟩
      rwa [Option.some.inj hhandler]
    · exact fun hserved ↦ ⟨next, rfl, hserved⟩
  · rw [Function.update_of_ne hother]

theorem over_update (hupdate : after.handlers = Function.update system.handlers socket (some next))
    (other : Socket) :
    Over after other ↔ if other = socket then next.serve.place = .ended else Over system other := by
  unfold Over
  rw [hupdate]
  split_ifs with hother
  · rw [hother, Function.update_self]
    constructor
    · rintro ⟨handler, hhandler, hended⟩
      rwa [Option.some.inj hhandler]
    · exact fun hended ↦ ⟨next, rfl, hended⟩
  · rw [Function.update_of_ne hother]

end Update

/-- The registry and the routes that have returned, beside the handlers. -/
structure Registered (settings : Settings) (replica : Replica Socket) : Prop where
  cap : replica.registry.maxPerSession = settings.wsMaxConnectionsPerSession
  held : ∀ sessionId socket, socket ∈ replica.registry.held sessionId ↔
    Served replica.system sessionId socket
  full : ∀ sessionId, ((replica.registry.held sessionId).card : Int) ≤
    max 0 settings.wsMaxConnectionsPerSession
  tidy : 0 < settings.wsMaxConnectionsPerSession → replica.registry.Tidy
  finished : ∀ socket, socket ∈ replica.finished ↔ Over replica.system socket

variable {unicode : CharacterDatabase} {settings : Settings} {replica after : Replica Socket}

namespace Registered

omit [DecidableEq Socket] in
theorem initial (settings : Settings) : Registered settings (.initial Socket settings) where
  cap := rfl
  held sessionId socket := by
    simp [Replica.initial, Served, System.initial]
  full sessionId := by
    simp [Replica.initial]
  tidy _ := ConnectionRegistry.tidy_new _
  finished socket := by
    simp [Replica.initial, Over, System.initial]

omit [DecidableEq Socket] in
/-- A step that leaves the registry, and what is served and what is over. -/
theorem congr (h : Registered settings replica) (hregistry : after.registry = replica.registry)
    (hfinished : after.finished = replica.finished)
    (hserved : ∀ sessionId socket, Served after.system sessionId socket ↔
      Served replica.system sessionId socket)
    (hover : ∀ socket, Over after.system socket ↔ Over replica.system socket) :
    Registered settings after where
  cap := hregistry ▸ h.cap
  held sessionId socket := by
    rw [hregistry, hserved, h.held]
  full := hregistry ▸ h.full
  tidy := hregistry ▸ h.tidy
  finished socket := by
    rw [hfinished, hover, h.finished]

/-- The first step of a connection that is admitted, or turned away at the cap. -/
theorem register (h : Registered settings replica) {socket : Socket} {sessionId : Uuid}
    (hstep : replica.register settings socket sessionId = some after) :
    Registered settings after := by
  unfold Replica.register at hstep
  dsimp only at hstep
  split_ifs at hstep with hadded
  · obtain ⟨system, haccept, rfl⟩ := Option.map_eq_some_iff.mp hstep
    cases System.step_moves haccept with
    | accept _ _ hnone =>
      have hfree : ∀ other, ¬Served replica.system other socket := by
        rintro other ⟨handler, hhandler, -⟩
        exact absurd (hnone.symm.trans hhandler) (by simp)
      have hroom := ConnectionRegistry.add_fst_eq_true_iff.mp hadded
      refine ⟨?_, fun other conn ↦ ?_, fun other ↦ ?_, fun hpositive ↦ ?_, fun conn ↦ ?_⟩
      · rw [ConnectionRegistry.maxPerSession_add, h.cap]
      · rw [ConnectionRegistry.held_add, served_update rfl]
        by_cases hconn : conn = socket
        · rw [if_pos hconn, hconn]
          by_cases hother : other = sessionId
          · rw [if_pos ⟨hadded, hother⟩, hother]
            simp [Handler.new, Connection.new]
          · rw [if_neg fun hboth ↦ hother hboth.2, h.held]
            refine iff_of_false (hfree other) fun hnew ↦ hother hnew.1.symm
        · rw [if_neg hconn, ← h.held]
          split_ifs
          · exact Finset.mem_insert.trans (or_iff_right hconn)
          · rfl
      · rw [ConnectionRegistry.held_add]
        split_ifs with hother
        · rw [hother.2]
          have hcard := Finset.card_insert_le socket (replica.registry.held sessionId)
          rw [h.cap] at hroom
          omega
        · exact h.full other
      · exact (h.tidy hpositive).add (by rw [h.cap]; exact hpositive)
      · refine (h.finished conn).trans (Iff.symm ((over_update rfl conn).trans ?_))
        split_ifs with hconn
        · rw [hconn]
          refine iff_of_false (by simp [Handler.new]) ?_
          rintro ⟨handler, hhandler, -⟩
          exact absurd (hnone.symm.trans hhandler) (by simp)
        · rfl
  · rw [← Option.some.inj hstep]
    refine ⟨?_, fun other conn ↦ ?_, fun other ↦ ?_, fun hpositive ↦ ?_, h.finished⟩
    · rw [ConnectionRegistry.maxPerSession_add, h.cap]
    · rw [ConnectionRegistry.held_add, if_neg fun hboth ↦ hadded hboth.1, h.held]
    · rw [ConnectionRegistry.held_add, if_neg fun hboth ↦ hadded hboth.1]
      exact h.full other
    · exact (h.tidy hpositive).add (by rw [h.cap]; exact hpositive)

/-- The `finally` of the route of a connection whose handler has gone on. -/
theorem leave (h : Registered settings replica) {system : System Socket} {socket : Socket}
    {handler next : Handler} (hhandler : replica.system.handlers socket = some handler)
    (hstays : handler.Stays next)
    (hupdate : system.handlers = Function.update replica.system.handlers socket (some next)) :
    Registered settings ({ replica with system := system }.leave socket) := by
  have hnext : system.handlers socket = some next := by rw [hupdate, Function.update_self]
  have hserved := served_update hupdate
  have hover := over_update hupdate
  have hover' : Over replica.system socket ↔ handler.serve.place = .ended :=
    ⟨fun ⟨other, hother, hended⟩ ↦ Option.some.inj (hother.symm.trans hhandler) ▸ hended,
      fun hended ↦ ⟨handler, hhandler, hended⟩⟩
  unfold Replica.leave
  simp only [hnext]
  split_ifs with hleaves
  · obtain ⟨hended, -⟩ := hleaves
    refine ⟨?_, fun sessionId other ↦ ?_, fun sessionId ↦ ?_, fun hpositive ↦ ?_, fun other ↦ ?_⟩
    · rw [ConnectionRegistry.maxPerSession_remove, h.cap]
    · rw [ConnectionRegistry.held_remove, hserved]
      by_cases hother : other = socket
      · rw [if_pos hother, hother]
        refine iff_of_false ?_ fun hnot ↦ hnot.2 hended
        split_ifs with hsession
        · exact Finset.notMem_erase socket _
        · rw [h.held]
          rintro ⟨held, hheld, rfl, -⟩
          rw [Option.some.inj (hheld.symm.trans hhandler)] at hsession
          exact hsession hstays.session.symm
      · rw [if_neg hother, ← h.held]
        split_ifs
        · exact Finset.mem_erase.trans (and_iff_right hother)
        · rfl
    · rw [ConnectionRegistry.held_remove]
      split_ifs
      · have hcard : ((replica.registry.held sessionId).erase socket).card ≤
            (replica.registry.held sessionId).card := Finset.card_erase_le
        have hfull := h.full sessionId
        omega
      · exact h.full sessionId
    · exact (h.tidy hpositive).remove
    · refine Finset.mem_insert.trans (Iff.trans ?_ (hover other).symm)
      by_cases hother : other = socket
      · rw [if_pos hother]
        exact iff_of_true (Or.inl hother) hended
      · rw [if_neg hother]
        exact (or_iff_right hother).trans (h.finished other)
  · have hsame : next.serve.place = .ended ↔ handler.serve.place = .ended :=
      ⟨fun hended ↦ hover'.mp ((h.finished socket).mp (not_not.mp fun hleft ↦
        hleaves ⟨hended, hleft⟩)), hstays.ended⟩
    refine h.congr rfl rfl (fun sessionId other ↦ ?_) fun other ↦ ?_
    · refine (hserved sessionId other).trans ?_
      split_ifs with hother
      · rw [hother, hstays.session, Ne, hsame]
        refine ⟨fun hboth ↦ ⟨handler, hhandler, hboth⟩, ?_⟩
        rintro ⟨served, hfound, hboth⟩
        rwa [Option.some.inj (hfound.symm.trans hhandler)] at hboth
      · rfl
    · refine (hover other).trans ?_
      split_ifs with hother
      · rw [hother, hsame, hover']
      · rfl

end Registered

/-! ### `request_close` on several connections -/

/-- A connection on which `request_close` was called: the frame was passed to `send`, and the code
is the one it asked for. -/
def Asked (system : System Socket) (socket : Socket) : Prop :=
  ∃ handler, system.handlers socket = some handler ∧ Chat.goingAway ∈ handler.conn.sent ∧
    handler.conn.closeCode = wsServiceRestart

/-- What one `request_close` does. -/
theorem step_drain {system next : System Socket} {socket : Socket}
    (hstep : system.step settings.toSettings (.act socket .drain) = some next) :
    ∃ handler : Handler, system.handlers socket = some handler ∧
      next = system.setHandler socket
        { handler with
          conn := handler.conn.requestClose wsServiceRestart (some Chat.goingAway) } := by
  obtain ⟨handler, hhandler, hstep⟩ := Option.bind_eq_some_iff.mp hstep
  obtain ⟨moved, hmoved, rfl⟩ := Option.map_eq_some_iff.mp hstep
  exact ⟨handler, hhandler, by rw [← Option.some.inj hmoved]; rfl⟩

/-- Several of them leave what is served and what is over, and ask each of the connections. -/
theorem requestCloses_eq {order : List Socket} {system next : System Socket}
    (hcloses : Replica.requestCloses settings system order = some next) :
    next.now = system.now ∧
      (∀ sessionId socket, Served next sessionId socket ↔ Served system sessionId socket) ∧
      (∀ socket, Over next socket ↔ Over system socket) ∧
      ∀ socket, socket ∈ order ∨ Asked system socket → Asked next socket := by
  induction order generalizing system with
  | nil =>
    rw [← Option.some.inj hcloses]
    exact ⟨rfl, fun _ _ ↦ Iff.rfl, fun _ ↦ Iff.rfl, fun socket hasked ↦
      hasked.resolve_left List.not_mem_nil⟩
  | cons first order ih =>
    obtain ⟨middle, hfirst, hrest⟩ := Option.bind_eq_some_iff.mp hcloses
    obtain ⟨hnow, hserved, hover, hasked⟩ := ih hrest
    obtain ⟨handler, hhandler, rfl⟩ := step_drain hfirst
    refine ⟨hnow, fun sessionId socket ↦ ?_, fun socket ↦ ?_, fun socket hsocket ↦ hasked socket ?_⟩
    · refine (hserved sessionId socket).trans ((served_update rfl sessionId socket).trans ?_)
      split_ifs with hsame
      · rw [hsame, Connection.sessionId_requestClose]
        refine ⟨fun hboth ↦ ⟨handler, hhandler, hboth⟩, ?_⟩
        rintro ⟨found, hfound, hboth⟩
        rwa [Option.some.inj (hfound.symm.trans hhandler)] at hboth
      · rfl
    · refine (hover socket).trans ((over_update rfl socket).trans ?_)
      split_ifs with hsame
      · rw [hsame]
        refine ⟨fun hended ↦ ⟨handler, hhandler, hended⟩, ?_⟩
        rintro ⟨found, hfound, hended⟩
        rwa [Option.some.inj (hfound.symm.trans hhandler)] at hended
      · rfl
    · by_cases hsame : socket = first
      · right
        rw [hsame]
        refine ⟨_, System.setHandler_handlers_self _ _ _, ?_, ?_⟩
        · rw [Connection.sent_requestClose]
          exact List.mem_append_right _ List.mem_cons_self
        · exact Connection.closeCode_enqueue _ _
      · refine hsocket.imp (fun hmem ↦ (List.mem_cons.mp hmem).resolve_left hsame) ?_
        rintro ⟨found, hfound, hdrained⟩
        exact ⟨found, by rwa [System.setHandler_handlers_of_ne _ _ hsame], hdrained⟩

/-! ### Every step of a replica -/

/-- Every step is of one of these kinds. -/
inductive Moves (settings : Settings) (replica : Replica Socket) : Replica Socket → Prop
  | turnedAway (socket : Socket) (place : TurnedAway) :
    Moves settings replica
      { replica with turnedAway := Function.update replica.turnedAway socket (some place) }
  | registers (socket : Socket) (sessionId : Uuid) {after : Replica Socket}
    (hregister : replica.register settings socket sessionId = some after) :
    Moves settings replica after
  | elsewhere (event : Event Socket) {system : System Socket}
    (hsystem : replica.system.step settings.toSettings event = some system)
    (hnone : socketOf event = none) : Moves settings replica { replica with system := system }
  | serves (event : Event Socket) (socket : Socket) {system : System Socket}
    (hsystem : replica.system.step settings.toSettings event = some system)
    (hsome : socketOf event = some socket)
    (haccept : ∀ sessionId, event ≠ .accept socket sessionId) :
    Moves settings replica ({ replica with system := system }.leave socket)
  | drains (order : List Socket) {system : System Socket} (hidle : replica.drain = .idle)
    (henumerates : (order : Multiset Socket) = replica.registry.connections)
    (hcloses : Replica.requestCloses settings replica.system order = some system) :
    Moves settings replica
      { replica with
        system := system
        drain :=
          if order = [] then .returned ∅ ∅
          else .waiting order.toFinset (replica.system.now + settings.wsDrainTimeoutSeconds) }
  | drained (conns : Finset Socket) (deadline : Instant)
    (hwaiting : replica.drain = .waiting conns deadline)
    (hover : conns ⊆ replica.finished ∨ deadline ≤ replica.system.now) :
    Moves settings replica { replica with drain := .returned conns (conns \ replica.finished) }

theorem startDrain_moves {order : List Socket} (hidle : replica.drain = .idle)
    (hstep : replica.startDrain settings order = some after) : Moves settings replica after := by
  unfold Replica.startDrain at hstep
  by_cases henumerates : (order : Multiset Socket) = replica.registry.connections
  · rw [if_pos henumerates] at hstep
    obtain ⟨system, hcloses, rfl⟩ := Option.map_eq_some_iff.mp hstep
    exact .drains order hidle henumerates hcloses
  · rw [if_neg henumerates] at hstep
    exact absurd hstep (by simp)

theorem connect_moves {socket : Socket} {handshake : Handshake}
    (hstep : replica.connect unicode settings socket handshake = some after) :
    Moves settings replica after := by
  unfold Replica.connect at hstep
  split_ifs at hstep
  split at hstep
  · exact Option.some.inj hstep ▸ .turnedAway socket _
  · next sessionId _ => exact .registers socket sessionId hstep

theorem step_moves {happening : Happening Socket}
    (hstep : replica.step unicode settings happening = some after) :
    Moves settings replica after := by
  cases happening with
  | connect socket handshake => exact connect_moves hstep
  | told socket sent =>
    simp only [Replica.step] at hstep
    split at hstep
    · exact Option.some.inj hstep ▸ .turnedAway socket _
    · exact absurd hstep (by simp)
  | serve event =>
    simp only [Replica.step] at hstep
    split_ifs at hstep with hroute
    obtain ⟨system, hsystem, rfl⟩ := Option.map_eq_some_iff.mp hstep
    cases hsocket : socketOf event with
    | none => exact .elsewhere event hsystem hsocket
    | some socket =>
      refine .serves event socket hsystem hsocket ?_
      rintro sessionId rfl
      exact hroute rfl
  | drain order =>
    simp only [Replica.step] at hstep
    split at hstep
    · next hidle => exact startDrain_moves hidle hstep
    · exact absurd hstep (by simp)
  | drained =>
    simp only [Replica.step] at hstep
    split at hstep
    · next conns deadline hwaiting =>
      split_ifs at hstep with hover
      exact Option.some.inj hstep ▸ .drained conns deadline hwaiting hover
    · exact absurd hstep (by simp)

theorem leave_drain (replica : Replica Socket) (socket : Socket) :
    (replica.leave socket).drain = replica.drain := by
  unfold Replica.leave
  split
  · split_ifs <;> rfl
  · rfl

theorem leave_system (replica : Replica Socket) (socket : Socket) :
    (replica.leave socket).system = replica.system := by
  unfold Replica.leave
  split
  · split_ifs <;> rfl
  · rfl

/-- No route that has returned is taken back. -/
theorem finished_leave (replica : Replica Socket) (socket : Socket) :
    replica.finished ⊆ (replica.leave socket).finished := by
  unfold Replica.leave
  split
  · split_ifs
    · exact Finset.subset_insert _ _
    · exact Finset.Subset.refl _
  · exact Finset.Subset.refl _

theorem Registered.moves (h : Registered settings replica) (hmoves : Moves settings replica after) :
    Registered settings after := by
  cases hmoves with
  | turnedAway socket place => exact h.congr rfl rfl (fun _ _ ↦ Iff.rfl) fun _ ↦ Iff.rfl
  | registers socket sessionId hregister => exact h.register hregister
  | elsewhere event hsystem hnone =>
    have hhandlers := System.step_elsewhere hsystem hnone
    refine h.congr rfl rfl (fun sessionId socket ↦ ?_) fun socket ↦ ?_
    · simp only [Served, hhandlers]
    · simp only [Over, hhandlers]
  | serves event socket hsystem hsome haccept =>
    obtain ⟨handler, next, hhandler, hstays, hupdate⟩ := System.step_on hsystem hsome haccept
    exact h.leave hhandler hstays hupdate
  | drains order hidle henumerates hcloses =>
    obtain ⟨-, hserved, hover, -⟩ := requestCloses_eq hcloses
    exact h.congr rfl rfl hserved hover
  | drained conns deadline hwaiting hover =>
    exact h.congr rfl rfl (fun _ _ ↦ Iff.rfl) fun _ ↦ Iff.rfl

theorem Replica.Run.registered (h : Replica.Run unicode settings replica) :
    Registered settings replica := by
  induction h with
  | refl => exact .initial settings
  | tail _ hstep ih =>
    obtain ⟨happening, hstep⟩ := hstep
    exact ih.moves (step_moves hstep)

/-- The connections of a step make steps of `Chat.System`. -/
theorem Moves.system (hmoves : Moves settings replica after) :
    System.Reaches settings.toSettings (fun _ _ ↦ True) replica.system after.system := by
  cases hmoves with
  | turnedAway socket place => exact .refl
  | registers socket sessionId hregister =>
    unfold Replica.register at hregister
    dsimp only at hregister
    split_ifs at hregister
    · obtain ⟨system, haccept, rfl⟩ := Option.map_eq_some_iff.mp hregister
      exact .single ⟨_, trivial, haccept⟩
    · rw [← Option.some.inj hregister]
  | elsewhere event hsystem hnone => exact .single ⟨event, trivial, hsystem⟩
  | serves event socket hsystem hsome haccept =>
    rw [leave_system]
    exact .single ⟨event, trivial, hsystem⟩
  | drains order hidle henumerates hcloses => exact System.Reaches.of_steps hcloses
  | drained conns deadline hwaiting hover => exact .refl

/-- The connections of a replica make a run of `Chat.System`. -/
theorem Replica.Run.system (h : Replica.Run unicode settings replica) :
    System.Run settings.toSettings replica.system := by
  induction h with
  | refl => exact .refl
  | tail _ hstep ih =>
    obtain ⟨happening, hstep⟩ := hstep
    exact ih.trans (step_moves hstep).system

/-- In every state of a replica, the registry holds under each session exactly the connections that
a handler is serving for it, never more than the cap; while the cap is positive no session without a
connection has an entry; and the length is the number of connections served. A route has returned
exactly when the handler of its connection has ended. A socket with a vetted handshake is served
exactly when its session is below the cap. And the replica's connections and database make a run of
`Chat.System`. -/
theorem registry_serves (hrun : Replica.Run unicode settings replica) :
    System.Run settings.toSettings replica.system ∧
    (∀ sessionId socket, socket ∈ replica.registry.forSession sessionId ↔
      Served replica.system sessionId socket) ∧
    (∀ sessionId, ((replica.registry.forSession sessionId).card : Int) ≤
      max 0 settings.wsMaxConnectionsPerSession) ∧
    (0 < settings.wsMaxConnectionsPerSession → ∀ sessionId ∈ replica.registry.bySession,
      (replica.registry.forSession sessionId).Nonempty) ∧
    (∃ live : Finset Socket, live.card = replica.registry.length ∧
      ∀ socket, socket ∈ live ↔ ∃ sessionId, Served replica.system sessionId socket) ∧
    (∀ socket, socket ∈ replica.finished ↔ Over replica.system socket) ∧
    ∀ socket handshake sessionId after, vetHandshake unicode settings handshake = .ok sessionId →
      replica.step unicode settings (.connect socket handshake) = some after →
        (Served after.system sessionId socket ↔
          ((replica.registry.forSession sessionId).card : Int) <
            settings.wsMaxConnectionsPerSession) := by
  have h := hrun.registered
  refine ⟨hrun.system, h.held, h.full, h.tidy, ?_, h.finished, ?_⟩
  · refine ⟨⟨replica.registry.connections, ?_⟩, replica.registry.card_connections, fun socket ↦ ?_⟩
    · exact ConnectionRegistry.nodup_connections fun first second conn hfirst hsecond ↦
        ((h.held first conn).mp hfirst).unique ((h.held second conn).mp hsecond)
    · refine ConnectionRegistry.mem_connections.trans (exists_congr fun sessionId ↦ ?_)
      exact h.held sessionId socket
  · intro socket handshake sessionId after hvet hstep
    have hfree : ¬Served replica.system sessionId socket := by
      rintro ⟨handler, hhandler, -⟩
      simp [Replica.step, Replica.connect, hhandler] at hstep
    rw [ConnectionRegistry.forSession, ← h.cap, ← ConnectionRegistry.add_fst_eq_true_iff]
    have hregister : replica.register settings socket sessionId = some after := by
      simp only [Replica.step, Replica.connect, hvet] at hstep
      split_ifs at hstep
      exact hstep
    rw [← (h.register hregister).held]
    unfold Replica.register at hregister
    dsimp only at hregister
    split_ifs at hregister with hadded
    · obtain ⟨system, -, rfl⟩ := Option.map_eq_some_iff.mp hregister
      rw [ConnectionRegistry.held_add, if_pos ⟨hadded, rfl⟩]
      exact iff_of_true (Finset.mem_insert_self _ _) hadded
    · rw [← Option.some.inj hregister, ConnectionRegistry.held_add,
        if_neg fun hboth ↦ hadded hboth.1, h.held]
      exact iff_of_false hfree hadded

/-- A socket that asks for a session by its canonical text, with no origin and no version. -/
theorem step_connect {socket : Socket} (session : Uuid)
    (hhandler : replica.system.handlers socket = none) (hnew : replica.turnedAway socket = none) :
    replica.step unicode settings (.connect socket ⟨session.text, none, none⟩) =
      replica.register settings socket session := by
  have hvet : vetHandshake unicode settings ⟨session.text, none, none⟩ = .ok session := by
    unfold vetHandshake
    simp only [Option.any_none, Bool.false_eq_true, if_false, Option.elim_none]
    exact vetSession_eq_ok_iff.mpr rfl
  simp only [Replica.step, Replica.connect, hhandler, hnew, hvet, Option.isSome_none,
    Bool.or_self, Bool.false_eq_true, if_false]

/-- The law at work: of two sockets that ask for one session with a cap of one, the first is served
and the second is turned away. -/
theorem registry_serves_first_of_two :
    ∃ (unicode : CharacterDatabase) (settings : Settings) (replica : Replica ℕ),
      Replica.Run unicode settings replica ∧ settings.wsMaxConnectionsPerSession = 1 ∧
        replica.registry.length = 1 ∧ (replica.turnedAway 1).isSome = true ∧
          Served replica.system ⟨7⟩ 0 := by
  let unicode : CharacterDatabase := ⟨fun _ ↦ none, fun _ ↦ false⟩
  let settings : Settings := { Settings.default with wsMaxConnectionsPerSession := 1 }
  obtain ⟨first, hfirst, hnone, hnew, second, hsecond, hlength, haway, hheld⟩ :
      ∃ first, (Replica.initial ℕ settings).register settings 0 ⟨7⟩ = some first ∧
        first.system.handlers 1 = none ∧ first.turnedAway 1 = none ∧
        ∃ second, first.register settings 1 ⟨7⟩ = some second ∧ second.registry.length = 1 ∧
          (second.turnedAway 1).isSome = true ∧ 0 ∈ second.registry.forSession ⟨7⟩ :=
    ⟨_, rfl, rfl, rfl, _, rfl, rfl, rfl, by decide⟩
  have hrun : Replica.Run unicode settings second :=
    (Relation.ReflTransGen.single ⟨_, (step_connect ⟨7⟩ rfl rfl).trans hfirst⟩).tail
      ⟨_, (step_connect ⟨7⟩ hnone hnew).trans hsecond⟩
  have hserved := ((registry_serves hrun).2.1 ⟨7⟩ 0).mp hheld
  exact ⟨unicode, settings, second, hrun, rfl, hlength, haway, hserved⟩

end Api

end Abacus
