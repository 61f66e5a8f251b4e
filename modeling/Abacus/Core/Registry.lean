import Abacus.Core.Ws
import Mathlib.Algebra.BigOperators.Group.Finset.Basic
import Mathlib.Data.Finmap

/-!
# Every connection of a replica, by session

`ConnectionRegistry` of `core/ws.py`: a `dict` from sessions to sets of connections. `add` makes an
entry for the session before it looks at the cap, and `remove` drops an entry whose set has become
empty. A connection is the socket it is of, beside the session it is for.

What a method does is said by `held`, the set of a session with `∅` for no entry (`held_add`,
`held_remove`), and by which sessions have an entry at all (`Tidy`).
-/

set_option autoImplicit false
set_option relaxedAutoImplicit false

namespace Abacus

/-- The connections that this replica holds, indexed by session. -/
structure ConnectionRegistry (Socket : Type) where
  maxPerSession : Int
  bySession : Finmap fun _ : Uuid ↦ Finset Socket

namespace ConnectionRegistry

variable {Socket : Type}

/-- The registry `__init__` makes. -/
def new (maxPerSession : Int) : ConnectionRegistry Socket where
  maxPerSession := maxPerSession
  bySession := ∅

/-- The set of a session, empty when it has no entry. -/
def held (registry : ConnectionRegistry Socket) (sessionId : Uuid) : Finset Socket :=
  (registry.bySession.lookup sessionId).getD ∅

/-- The registry with another set for a session. -/
def setHeld (registry : ConnectionRegistry Socket) (sessionId : Uuid) (conns : Finset Socket) :
    ConnectionRegistry Socket :=
  { registry with bySession := registry.bySession.insert sessionId conns }

variable [DecidableEq Socket]

/-- `add`: register a connection, or say that the session is at its cap. -/
def add (registry : ConnectionRegistry Socket) (sessionId : Uuid) (conn : Socket) :
    Bool × ConnectionRegistry Socket :=
  let conns := registry.held sessionId
  -- `setdefault` leaves an entry behind also when the cap is reached.
  let registry := registry.setHeld sessionId conns
  if registry.maxPerSession ≤ conns.card then (false, registry)
  else (true, registry.setHeld sessionId (insert conn conns))

/-- `remove`. -/
def remove (registry : ConnectionRegistry Socket) (sessionId : Uuid) (conn : Socket) :
    ConnectionRegistry Socket :=
  match registry.bySession.lookup sessionId with
  | none => registry
  | some conns =>
    let conns := conns.erase conn
    if conns = ∅ then { registry with bySession := registry.bySession.erase sessionId }
    else registry.setHeld sessionId conns

/-- `for_session`. -/
def forSession (registry : ConnectionRegistry Socket) (sessionId : Uuid) : Finset Socket :=
  registry.held sessionId

/-- `__len__`. -/
def length (registry : ConnectionRegistry Socket) : ℕ :=
  ∑ sessionId ∈ registry.bySession.keys, (registry.held sessionId).card

/-- The connections that `drain` finds, in no order. -/
def connections (registry : ConnectionRegistry Socket) : Multiset Socket :=
  registry.bySession.keys.val.bind fun sessionId ↦ (registry.held sessionId).val

/-! ### The sets after a call -/

section Held

variable {registry : ConnectionRegistry Socket} {sessionId other : Uuid} {conn : Socket}

omit [DecidableEq Socket] in
@[simp] theorem held_new (maxPerSession : Int) (sessionId : Uuid) :
    (new maxPerSession : ConnectionRegistry Socket).held sessionId = ∅ := by
  rw [held, new, Finmap.lookup_empty, Option.getD_none]

omit [DecidableEq Socket] in
@[simp] theorem held_setHeld (registry : ConnectionRegistry Socket) (sessionId : Uuid)
    (conns : Finset Socket) : (registry.setHeld sessionId conns).held sessionId = conns := by
  rw [held, setHeld, Finmap.lookup_insert, Option.getD_some]

omit [DecidableEq Socket] in
theorem held_setHeld_of_ne (registry : ConnectionRegistry Socket) (conns : Finset Socket)
    (hne : other ≠ sessionId) :
    (registry.setHeld sessionId conns).held other = registry.held other := by
  rw [held, setHeld, Finmap.lookup_insert_of_ne _ hne, held]

omit [DecidableEq Socket] in
/-- A session without an entry holds nothing. -/
theorem held_eq_empty_of_lookup_eq_none (hlookup : registry.bySession.lookup sessionId = none) :
    registry.held sessionId = ∅ := by
  rw [held, hlookup, Option.getD_none]

/-- At the cap, `add` only makes sure that the session has an entry. -/
theorem add_of_full (conn : Socket)
    (hfull : registry.maxPerSession ≤ (registry.held sessionId).card) :
    registry.add sessionId conn =
      (false, registry.setHeld sessionId (registry.held sessionId)) := by
  unfold add
  exact if_pos hfull

/-- Below the cap, the connection is registered. -/
theorem add_of_room (conn : Socket)
    (hroom : ((registry.held sessionId).card : Int) < registry.maxPerSession) :
    registry.add sessionId conn =
      (true, registry.setHeld sessionId (insert conn (registry.held sessionId))) := by
  have hinsert : ∀ conns, (registry.setHeld sessionId (registry.held sessionId)).setHeld sessionId
      conns = registry.setHeld sessionId conns := fun conns ↦ by
    simp only [setHeld, Finmap.insert_insert]
  unfold add
  dsimp only
  rw [hinsert]
  exact if_neg (not_le.mpr hroom)

/-- A connection is registered exactly when its session holds fewer than the cap. -/
theorem add_fst_eq_true_iff :
    (registry.add sessionId conn).1 = true ↔
      ((registry.held sessionId).card : Int) < registry.maxPerSession := by
  rcases lt_or_ge ((registry.held sessionId).card : Int) registry.maxPerSession with hroom | hfull
  · simp [add_of_room conn hroom, hroom]
  · simp [add_of_full conn hfull, hfull]

/-- `add` changes the set of its own session, and by the connection, if it registers it. -/
theorem held_add (other : Uuid) :
    (registry.add sessionId conn).2.held other =
      if (registry.add sessionId conn).1 = true ∧ other = sessionId then
        insert conn (registry.held other)
      else registry.held other := by
  rcases lt_or_ge ((registry.held sessionId).card : Int) registry.maxPerSession with hroom | hfull
  · rw [add_of_room conn hroom]
    by_cases hother : other = sessionId
    · rw [hother, held_setHeld, if_pos ⟨rfl, rfl⟩]
    · rw [held_setHeld_of_ne _ _ hother, if_neg fun hboth ↦ hother hboth.2]
  · rw [add_of_full conn hfull, if_neg fun hboth ↦ Bool.false_ne_true hboth.1]
    by_cases hother : other = sessionId
    · rw [hother, held_setHeld]
    · rw [held_setHeld_of_ne _ _ hother]

@[simp] theorem maxPerSession_add :
    (registry.add sessionId conn).2.maxPerSession = registry.maxPerSession := by
  unfold add
  dsimp only
  split_ifs <;> rfl

@[simp] theorem maxPerSession_remove :
    (registry.remove sessionId conn).maxPerSession = registry.maxPerSession := by
  unfold remove
  split
  · rfl
  · dsimp only
    split_ifs <;> rfl

/-- `remove` takes the connection out of the set of its session. -/
theorem held_remove (other : Uuid) :
    (registry.remove sessionId conn).held other =
      if other = sessionId then (registry.held other).erase conn else registry.held other := by
  unfold remove
  split
  · next hlookup =>
    split_ifs with hother
    · rw [hother, held_eq_empty_of_lookup_eq_none hlookup, Finset.erase_empty]
    · rfl
  · next conns hlookup =>
    have hheld : registry.held sessionId = conns := by
      rw [held, hlookup, Option.getD_some]
    dsimp only
    split_ifs with hempty hother hother
    · rw [hother, hheld, hempty]
      exact held_eq_empty_of_lookup_eq_none (Finmap.lookup_erase sessionId _)
    · rw [held, Finmap.lookup_erase_ne hother, held]
    · rw [hother, held_setHeld, hheld]
    · rw [held_setHeld_of_ne _ _ hother]

end Held

/-! ### Entries that are in use -/

/-- No entry is empty. -/
def Tidy (registry : ConnectionRegistry Socket) : Prop :=
  ∀ sessionId ∈ registry.bySession, (registry.held sessionId).Nonempty

section Tidy

variable {registry : ConnectionRegistry Socket} {sessionId : Uuid} {conn : Socket}

omit [DecidableEq Socket] in
theorem tidy_new (maxPerSession : Int) :
    (new maxPerSession : ConnectionRegistry Socket).Tidy :=
  fun _ hmem ↦ absurd hmem Finmap.notMem_empty

omit [DecidableEq Socket] in
theorem Tidy.setHeld (h : registry.Tidy) {conns : Finset Socket} (hconns : conns.Nonempty) :
    (registry.setHeld sessionId conns).Tidy := by
  intro other hmem
  by_cases hother : other = sessionId
  · rwa [hother, held_setHeld]
  · rw [held_setHeld_of_ne _ _ hother]
    exact h other ((Finmap.mem_insert.mp hmem).resolve_left hother)

/-- With a cap of at least one, `add` leaves no entry behind: a session at its cap has one. -/
theorem Tidy.add (h : registry.Tidy) (hcap : 0 < registry.maxPerSession) :
    (registry.add sessionId conn).2.Tidy := by
  rcases lt_or_ge ((registry.held sessionId).card : Int) registry.maxPerSession with hroom | hfull
  · rw [add_of_room conn hroom]
    exact h.setHeld (Finset.insert_nonempty _ _)
  · rw [add_of_full conn hfull]
    exact h.setHeld (Finset.card_pos.mp (by omega))

theorem Tidy.remove (h : registry.Tidy) : (registry.remove sessionId conn).Tidy := by
  unfold ConnectionRegistry.remove
  split
  · exact h
  · dsimp only
    split_ifs with hempty
    · intro other hmem
      obtain ⟨hother, hmem⟩ := Finmap.mem_erase.mp hmem
      rw [held, Finmap.lookup_erase_ne hother]
      exact h other hmem
    · exact h.setHeld (Finset.nonempty_iff_ne_empty.mpr hempty)

end Tidy

/-! ### All connections -/

omit [DecidableEq Socket] in
theorem mem_connections {registry : ConnectionRegistry Socket} {conn : Socket} :
    conn ∈ registry.connections ↔ ∃ sessionId, conn ∈ registry.held sessionId := by
  rw [connections, Multiset.mem_bind]
  constructor
  · rintro ⟨sessionId, -, hmem⟩
    exact ⟨sessionId, hmem⟩
  · rintro ⟨sessionId, hmem⟩
    refine ⟨sessionId, Finmap.mem_keys.mpr ?_, hmem⟩
    by_contra habsent
    rw [held_eq_empty_of_lookup_eq_none (Finmap.lookup_eq_none.mpr habsent)] at hmem
    exact absurd hmem (Finset.notMem_empty conn)

omit [DecidableEq Socket] in
theorem card_connections (registry : ConnectionRegistry Socket) :
    registry.connections.card = registry.length := by
  rw [connections, Multiset.card_bind, length, Finset.sum]
  rfl

omit [DecidableEq Socket] in
/-- When a connection is in the set of one session only, none is found twice. -/
theorem nodup_connections {registry : ConnectionRegistry Socket}
    (hone : ∀ first second conn, conn ∈ registry.held first → conn ∈ registry.held second →
      first = second) : registry.connections.Nodup := by
  rw [connections, Multiset.nodup_bind]
  refine ⟨fun sessionId _ ↦ (registry.held sessionId).nodup, ?_⟩
  refine registry.bySession.keys.nodup.pairwise fun first _ second _ hne ↦ ?_
  rw [Function.onFun, Multiset.disjoint_left]
  exact fun hfirst hsecond ↦ hne (hone first second _ hfirst hsecond)

end ConnectionRegistry

end Abacus
