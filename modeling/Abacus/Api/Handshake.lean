import Abacus.Chat.Handler
import Abacus.Core.UuidText

/-!
# What may connect

`_vet_handshake` and `_origin_allowed` of `api/chat.py`: the handshake policy of the chat socket,
on the session id of the path, the `Origin` header and the version that the query asks for.
-/

set_option autoImplicit false
set_option relaxedAutoImplicit false

namespace Abacus.Api

open Python (CharacterDatabase readInt)

/-- The settings that the route, the registry and the handler are built with. -/
structure Settings extends Chat.Settings where
  env : String
  wsAllowedOrigins : List String
  wsMaxConnectionsPerSession : Int
  wsDrainTimeoutSeconds : Duration

/-- The values of `core/config.py`. -/
def Settings.default : Settings where
  toSettings := .default
  env := "local"
  wsAllowedOrigins := []
  wsMaxConnectionsPerSession := 8
  wsDrainTimeoutSeconds := 5000000

/-- What a handshake brings. -/
structure Handshake where
  sessionId : String
  origin : Option String
  version : Option String

/-- `_origin_allowed`. -/
def originAllowed (origin : String) (settings : Settings) : Bool :=
  if settings.wsAllowedOrigins ≠ [] then decide (origin ∈ settings.wsAllowedOrigins)
  else decide (settings.env = "local")

/-- The check of the version, when one is asked for. -/
def vetVersion (unicode : CharacterDatabase) (requested : String) : Except String Unit :=
  match readInt unicode 10 requested.toList with
  | none => .error "malformed protocol version"
  | some version =>
    if protocolVersion < version then .error "unsupported protocol version" else .ok ()

/-- The check of the session id. -/
def vetSession (unicode : CharacterDatabase) (sessionId : String) : Except String Uuid :=
  match Uuid.parse unicode sessionId with
  | none => .error "session_id must be a uuid"
  | some session =>
    if session.text = sessionId then .ok session
    else .error "session_id must be a canonical uuid"

/-- `_vet_handshake`: the session that a handshake is for, or why it is refused. -/
def vetHandshake (unicode : CharacterDatabase) (settings : Settings) (handshake : Handshake) :
    Except String Uuid :=
  if handshake.origin.any fun origin ↦ !originAllowed origin settings then
    .error "origin not allowed"
  else
    match handshake.version.elim (.ok ()) (vetVersion unicode) with
    | .error refusal => .error refusal
    | .ok () => vetSession unicode handshake.sessionId

/-! ### What is accepted -/

/-- An origin is allowed when it is listed, or when none is and the environment is local. -/
theorem originAllowed_iff {origin : String} {settings : Settings} :
    originAllowed origin settings = true ↔
      origin ∈ settings.wsAllowedOrigins ∨
        settings.wsAllowedOrigins = [] ∧ settings.env = "local" := by
  unfold originAllowed
  by_cases hempty : settings.wsAllowedOrigins = [] <;> simp [hempty]

theorem vetVersion_eq_ok_iff {unicode : CharacterDatabase} {requested : String} :
    vetVersion unicode requested = .ok () ↔
      ∃ version, readInt unicode 10 requested.toList = some version ∧
        version ≤ protocolVersion := by
  unfold vetVersion
  cases hread : readInt unicode 10 requested.toList with
  | none => simp
  | some version =>
    by_cases hnew : protocolVersion < version
    · simp [hnew]
    · simp [not_lt.mp hnew]

/-- One spelling of a session is accepted, the one that `str` writes. -/
theorem vetSession_eq_ok_iff {unicode : CharacterDatabase} {sessionId : String} {session : Uuid} :
    vetSession unicode sessionId = .ok session ↔ sessionId = session.text := by
  unfold vetSession
  constructor
  · intro haccepted
    cases hparse : Uuid.parse unicode sessionId with
    | none =>
      rw [hparse] at haccepted
      exact absurd haccepted (by simp)
    | some parsed =>
      rw [hparse] at haccepted
      dsimp only at haccepted
      split_ifs at haccepted with hcanonical
      rw [← Except.ok.inj haccepted, hcanonical]
  · rintro rfl
    rw [Uuid.parse_text]
    exact if_pos rfl

/-- A handshake is accepted for a session exactly when its origin, if it has one, is allowed, its
version, if it asks for one, is an integer this server speaks, and its path is the canonical text of
the session. So no session can be reached under two spellings. -/
theorem vetHandshake_eq_ok_iff (unicode : CharacterDatabase) (settings : Settings)
    (handshake : Handshake) (session : Uuid) :
    vetHandshake unicode settings handshake = .ok session ↔
      (∀ origin, handshake.origin = some origin →
        origin ∈ settings.wsAllowedOrigins ∨
          settings.wsAllowedOrigins = [] ∧ settings.env = "local") ∧
      (∀ requested, handshake.version = some requested →
        ∃ version, readInt unicode 10 requested.toList = some version ∧
          version ≤ protocolVersion) ∧
      handshake.sessionId = session.text := by
  have horigin : (handshake.origin.any fun origin ↦ !originAllowed origin settings) = false ↔
      ∀ origin, handshake.origin = some origin → originAllowed origin settings = true := by
    cases handshake.origin <;> simp
  have hversion : handshake.version.elim (.ok ()) (vetVersion unicode) = .ok () ↔
      ∀ requested, handshake.version = some requested →
        vetVersion unicode requested = .ok () := by
    cases handshake.version <;> simp
  simp only [← originAllowed_iff, ← vetVersion_eq_ok_iff, ← horigin, ← hversion]
  unfold vetHandshake
  cases handshake.origin.any fun origin ↦ !originAllowed origin settings with
  | true => simp
  | false =>
    cases handshake.version.elim (.ok ()) (vetVersion unicode) with
    | error refusal => simp
    | ok _ => simp [vetSession_eq_ok_iff]

end Abacus.Api
