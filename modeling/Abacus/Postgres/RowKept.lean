import Abacus.Postgres.Operation
import Abacus.RowLocking.Respects

/-!
# What no call takes away

No statement of either store deletes a row or changes what identifies it: a session's counter does
not go back, a message keeps its session, number, role and key, an entry of a unique index keeps
pointing at its row, and a job keeps what it was enqueued with (`RowKept`). Every call respects
this (`Operation.program_respects`), so it holds from any state to any later one
(`perform_kept`, and `perform_messageRow` for the messages).
-/

set_option autoImplicit false
set_option relaxedAutoImplicit false

namespace Abacus.Postgres

open RowLocking (Program)

/-- The columns of a message that no statement sets. -/
def ChatMessageRow.SameMessage (row other : ChatMessageRow) : Prop :=
  other.sessionId = row.sessionId ∧ other.seq = row.seq ∧ other.role = row.role ∧
    other.clientMsgId = row.clientMsgId

/-- The columns of a job that no statement sets. -/
def JobRow.SameJob (row other : JobRow) : Prop :=
  other.sessionId = row.sessionId ∧ other.idempotencyKey = row.idempotencyKey ∧
    other.kind = row.kind ∧ other.payload = row.payload ∧ other.maxAttempts = row.maxAttempts

/-- A row that is there stays, with what identifies it. -/
def Retains {A : Type} (same : A → A → Prop) (before after : Option A) : Prop :=
  ∀ row, before = some row → ∃ new, after = some new ∧ same row new

namespace Retains

variable {A : Type} {same : A → A → Prop}

theorem refl (hsame : ∀ row, same row row) (row : Option A) : Retains same row row :=
  fun found hfound ↦ ⟨found, hfound, hsame found⟩

theorem trans (hsame : ∀ first second third, same first second → same second third →
    same first third) {first second third : Option A} (hfirst : Retains same first second)
    (hsecond : Retains same second third) : Retains same first third := by
  intro row hrow
  obtain ⟨middle, hmiddle, hrowMiddle⟩ := hfirst row hrow
  obtain ⟨last, hlast, hmiddleLast⟩ := hsecond middle hmiddle
  exact ⟨last, hlast, hsame row middle last hrowMiddle hmiddleLast⟩

/-- An insertion under a unique key takes nothing away: it matches only where there is no row. -/
theorem of_ifAbsent {row : A} {before after : Option A} (h : ifAbsent row before = some after) :
    Retains same before after := by
  intro found hfound
  rw [(ifAbsent_eq_some h).1] at hfound
  exact absurd hfound.symm (Option.some_ne_none found)

/-- A statement that sets columns of the row it finds. -/
theorem of_map {set : A → A} (hset : ∀ row, same row (set row)) {before after : Option A}
    (h : (before.map fun row ↦ some (set row)) = some after) : Retains same before after := by
  intro row hrow
  subst hrow
  exact ⟨set row, (Option.some.inj h).symm, hset row⟩

end Retains

/-- What a row keeps for good. -/
def RowKept : ∀ key, Row key → Row key → Prop
  | .chatSession _ => Retains fun before after : ℕ ↦ before ≤ after
  | .chatMessage _ => Retains ChatMessageRow.SameMessage
  | .clientMessage _ _ => Retains fun before after : Uuid ↦ before = after
  | .job _ => Retains JobRow.SameJob
  | .idempotency _ _ => Retains fun before after : Uuid ↦ before = after

theorem rowKept_refl (key : RowKey) (row : Row key) : RowKept key row row := by
  cases key with
  | chatSession id => exact Retains.refl (fun next ↦ le_refl next) _
  | chatMessage messageId => exact Retains.refl (fun row ↦ ⟨rfl, rfl, rfl, rfl⟩) _
  | clientMessage sessionId clientMsgId => exact Retains.refl (fun id ↦ rfl) _
  | job id => exact Retains.refl (fun row ↦ ⟨rfl, rfl, rfl, rfl, rfl⟩) _
  | idempotency sessionId idempotencyKey => exact Retains.refl (fun id ↦ rfl) _

theorem rowKept_trans (key : RowKey) (first second third : Row key)
    (hfirst : RowKept key first second) (hsecond : RowKept key second third) :
    RowKept key first third := by
  cases key with
  | chatSession id =>
    have htrans : ∀ first second third : ℕ, first ≤ second → second ≤ third → first ≤ third :=
      fun _ _ _ ↦ le_trans
    exact Retains.trans htrans hfirst hsecond
  | chatMessage messageId =>
    refine Retains.trans ?_ hfirst hsecond
    rintro row middle last ⟨hsession, hseq, hrole, hkey⟩ ⟨hsession', hseq', hrole', hkey'⟩
    exact ⟨hsession'.trans hsession, hseq'.trans hseq, hrole'.trans hrole, hkey'.trans hkey⟩
  | clientMessage sessionId clientMsgId =>
    exact Retains.trans (fun _ _ _ h h' ↦ h.trans h') hfirst hsecond
  | job id =>
    refine Retains.trans ?_ hfirst hsecond
    rintro row middle last ⟨hsession, hkey, hkind, hpayload, hmax⟩
      ⟨hsession', hkey', hkind', hpayload', hmax'⟩
    exact ⟨hsession'.trans hsession, hkey'.trans hkey, hkind'.trans hkind,
      hpayload'.trans hpayload, hmax'.trans hmax⟩
  | idempotency sessionId idempotencyKey =>
    exact Retains.trans (fun _ _ _ h h' ↦ h.trans h') hfirst hsecond

/-! ### The methods of the job store -/

/-- A statement on a job that keeps what identifies it. -/
theorem updateJob_respects {jobId : Uuid} {set : JobRow → Option JobRow}
    (hset : ∀ row new : JobRow, set row = some new → row.SameJob new) :
    (updateJob jobId set).Respects RowKept := by
  constructor
  · intro before after hmatch row hrow
    simp only [Option.map_eq_some_iff, Option.bind_eq_some_iff] at hmatch
    obtain ⟨new, ⟨found, hfound, hnew⟩, rfl⟩ := hmatch
    obtain rfl : found = row := Option.some.inj (hfound.symm.trans hrow)
    exact ⟨new, rfl, hset found new hnew⟩
  · intro row
    trivial

/-- The same for a statement with a predicate. -/
theorem updateJob_whenever_respects {jobId : Uuid} {condition : JobRow → Bool}
    {set : JobRow → JobRow} (hset : ∀ row : JobRow, row.SameJob (set row)) :
    (updateJob jobId (whenever condition set)).Respects RowKept := by
  refine updateJob_respects ?_
  intro row new hnew
  unfold whenever at hnew
  split_ifs at hnew with hcondition
  rw [← Option.some.inj hnew]
  exact hset row

theorem allocateSeq_respects (sessionId : Uuid) : (allocateSeq sessionId).Respects RowKept := by
  constructor
  · intro before after hmatch next hnext
    subst hnext
    exact ⟨next + 1, (Option.some.inj hmatch).symm, Nat.le_succ next⟩
  · rintro (_ | _ | row) <;> trivial

theorem recordEvent_respects (jobId : Uuid) (row : JobRow) :
    (recordEvent jobId row).Respects RowKept := by
  unfold recordEvent
  cases row.sessionId with
  | none => trivial
  | some sessionId => exact (allocateSeq_respects sessionId).bind fun _ ↦ trivial

theorem insertOrGet_respects (now : Instant) (jobId : Uuid) (request : JobRequest) :
    (insertOrGet now jobId request).Respects RowKept := by
  unfold insertOrGet
  split_ifs with hattempts
  · trivial
  · refine ⟨fun before after hmatch ↦ Retains.of_ifAbsent hmatch, ?_⟩
    rintro (_ | row)
    · intro snapshot
      dsimp only
      split
      · split <;> trivial
      · trivial
    · refine ⟨fun before after hmatch ↦ Retains.of_ifAbsent hmatch, ?_⟩
      rintro (_ | row)
      · trivial
      · exact (recordEvent_respects jobId _).bind fun _ ↦ trivial

theorem retireRows_respects (now : Instant) (scan : List Uuid) :
    (retireRows now scan).Respects RowKept := by
  induction scan with
  | nil => trivial
  | cons jobId scan ih =>
    have hupdate : (updateJob jobId (whenever (fun row ↦ row.retirable now)
        JobRow.retired)).Respects RowKept :=
      updateJob_whenever_respects fun row ↦ ⟨rfl, rfl, rfl, rfl, rfl⟩
    exact hupdate.bind fun _ ↦ ih.bind fun _ ↦ trivial

theorem recordEvents_respects (rows : List (Uuid × JobRow)) :
    (recordEvents rows).Respects RowKept := by
  induction rows with
  | nil => trivial
  | cons row rows ih => exact (recordEvent_respects row.1 row.2).bind fun _ ↦ ih

theorem retireLapsed_respects (now : Instant) (scan : List Uuid) :
    (retireLapsed now scan).Respects RowKept :=
  (retireRows_respects now scan).bind fun _ ↦ (recordEvents_respects _).bind fun _ ↦ trivial

/-- A transition of a job and its event. -/
theorem transition_respects {A : Type} {jobId : Uuid} {condition : JobRow → Bool}
    {set : JobRow → JobRow} {rest : Option JobRow → Sql A}
    (hset : ∀ row : JobRow, row.SameJob (set row))
    (hrest : ∀ row, (rest row).Respects RowKept) :
    (updateJob jobId (whenever condition set) >>= rest).Respects RowKept :=
  (updateJob_whenever_respects hset).bind hrest

/-! ### The methods of the chat repository -/

theorem insertMessage_respects (messageId : Uuid) (row : ChatMessageRow) :
    (insertMessage messageId row).Respects RowKept := by
  refine ⟨fun before after hmatch ↦ Retains.of_ifAbsent hmatch, ?_⟩
  rintro (_ | row) <;> trivial

theorem recordUserMessage_respects (sessionId : Uuid) (clientMsgId text : String)
    (messageId : Uuid) :
    (recordUserMessage sessionId clientMsgId text messageId).Respects RowKept := by
  refine (allocateSeq_respects sessionId).bind fun seq ↦ ?_
  refine ⟨fun before after hmatch ↦ Retains.of_ifAbsent hmatch, ?_⟩
  rintro (_ | row)
  · trivial
  · exact (insertMessage_respects messageId _).bind fun _ ↦ trivial

theorem byClientMsgId_respects (sessionId : Uuid) (clientMsgId : String) :
    (byClientMsgId sessionId clientMsgId).Respects RowKept := by
  intro snapshot
  dsimp only
  split
  · split <;> trivial
  · trivial

theorem finishMessage_respects (messageId : Uuid) (status : Status) (text : Option String) :
    (finishMessage messageId status text).Respects RowKept :=
  ⟨fun _ _ hmatch ↦ Retains.of_map (fun _ ↦ ⟨rfl, rfl, rfl, rfl⟩) hmatch, fun _ ↦ trivial⟩

/-! ### Every call -/

/-- No call takes anything away. -/
theorem Operation.program_respects (now : Instant) (operation : Operation) :
    (operation.program now).Respects RowKept := by
  cases operation with
  | insertOrGet jobId request => exact (insertOrGet_respects now jobId request).map _
  | markPublished jobId =>
    refine Program.Respects.map _ (Program.Respects.bind (updateJob_respects ?_) fun _ ↦ trivial)
    rintro row new hnew
    rw [← Option.some.inj hnew]
    exact ⟨rfl, rfl, rfl, rfl, rfl⟩
  | getJob jobId => exact fun _ ↦ trivial
  | cancel jobId =>
    refine Program.Respects.map _ (transition_respects (fun row ↦ ⟨rfl, rfl, rfl, rfl, rfl⟩) ?_)
    rintro (_ | row)
    · exact fun _ ↦ trivial
    · dsimp only
      split_ifs
      · exact (recordEvent_respects jobId row).bind fun _ ↦ trivial
      · trivial
  | claim jobId leaseId owner lease =>
    refine Program.Respects.map _ (transition_respects (fun row ↦ ⟨rfl, rfl, rfl, rfl, rfl⟩) ?_)
    rintro (_ | row)
    · trivial
    · exact (recordEvent_respects jobId row).bind fun _ ↦ trivial
  | lapsedReservable scan => exact fun _ ↦ trivial
  | retireLapsed scan => exact (retireLapsed_respects now scan).map _
  | unpublished scan olderThan => exact fun _ ↦ trivial
  | extend lease duration =>
    refine Program.Respects.map _ (transition_respects (fun row ↦ ⟨rfl, rfl, rfl, rfl, rfl⟩) ?_)
    rintro (_ | row) <;> trivial
  | ack lease resultRef =>
    refine Program.Respects.map _ (transition_respects (fun row ↦ ⟨rfl, rfl, rfl, rfl, rfl⟩) ?_)
    rintro (_ | row)
    · trivial
    · exact recordEvent_respects lease.job.id row
  | nack lease error retryIn =>
    refine Program.Respects.map _ (transition_respects (fun row ↦ ⟨rfl, rfl, rfl, rfl, rfl⟩) ?_)
    rintro (_ | row)
    · trivial
    · exact (recordEvent_respects lease.job.id row).bind fun _ ↦ trivial
  | ensureSession sessionId =>
    refine Program.Respects.map _ ⟨fun before after hmatch ↦ Retains.of_ifAbsent hmatch, ?_⟩
    exact fun _ ↦ trivial
  | recordUserMessage sessionId clientMsgId text messageId =>
    exact (recordUserMessage_respects sessionId clientMsgId text messageId).map _
  | byClientMsgId sessionId clientMsgId =>
    exact (byClientMsgId_respects sessionId clientMsgId).map _
  | startAssistantMessage sessionId messageId =>
    exact Program.Respects.map _
      ((allocateSeq_respects sessionId).bind fun _ ↦ insertMessage_respects messageId _)
  | completeAssistantMessage messageId text =>
    exact (finishMessage_respects messageId .complete (some text)).map _
  | failAssistantMessage messageId => exact (finishMessage_respects messageId .failed none).map _
  | logSince sessionId afterSeq limit =>
    exact .of_readOnly ((logSince_readOnly sessionId afterSeq limit).map _)

/-- Across a call, every row keeps what it keeps for good. -/
theorem perform_kept (now : Instant) (operation : Operation) (database : Database) (key : RowKey) :
    RowKept key (database.row key) ((perform now operation database).2.row key) := by
  cases hperform : perform now operation database with
  | mk reply after =>
    cases reply with
    | ok outcome =>
      have hyields : (operation.program now).Yields database outcome after :=
        Program.yields_of_execute (Program.execute_of_run_ok hperform)
      exact (operation.program_respects now).row_kept rowKept_refl rowKept_trans hyields key
    | error error =>
      obtain rfl : after = database := Program.run_error_database hperform
      exact rowKept_refl key _

/-- Across a call, a message stays, with its session, number, role and key. -/
theorem perform_messageRow {now : Instant} {operation : Operation} {database : Database}
    {messageId : Uuid} {row : ChatMessageRow} (h : messageRow database messageId = some row) :
    ∃ new, messageRow (perform now operation database).2 messageId = some new ∧
      row.SameMessage new :=
  perform_kept now operation database (.chatMessage messageId) row h

/-- Across a call, a recorded key stays recorded for its message. -/
theorem perform_clientMessage {now : Instant} {operation : Operation} {database : Database}
    {sessionId messageId : Uuid} {clientMsgId : String}
    (h : database.row (.clientMessage sessionId clientMsgId) = some messageId) :
    (perform now operation database).2.row (.clientMessage sessionId clientMsgId) =
      some messageId := by
  obtain ⟨new, hnew, rfl⟩ :=
    perform_kept now operation database (.clientMessage sessionId clientMsgId) messageId h
  exact hnew

/-- The same, of the state that a call is known to have left. -/
theorem messageRow_of_perform {now : Instant} {operation : Operation} {before after : Database}
    {reply : Except StoreError Outcome} (hperform : perform now operation before = (reply, after))
    {messageId : Uuid} {row : ChatMessageRow} (h : messageRow before messageId = some row) :
    ∃ new, messageRow after messageId = some new ∧ row.SameMessage new := by
  obtain rfl : (perform now operation before).2 = after := congrArg Prod.snd hperform
  exact perform_messageRow h

/-- A key that is not recorded after a call was not recorded before it. -/
theorem clientMessage_absent_of_perform {now : Instant} {operation : Operation}
    {before after : Database} {reply : Except StoreError Outcome}
    (hperform : perform now operation before = (reply, after)) {sessionId : Uuid}
    {clientMsgId : String}
    (h : after.row (.clientMessage sessionId clientMsgId) = (none : Option Uuid)) :
    before.row (.clientMessage sessionId clientMsgId) = (none : Option Uuid) := by
  obtain rfl : (perform now operation before).2 = after := congrArg Prod.snd hperform
  by_contra hpresent
  obtain ⟨messageId, hrow⟩ := Option.ne_none_iff_exists'.mp hpresent
  exact absurd ((perform_clientMessage hrow).symm.trans h) (by simp)

end Abacus.Postgres
