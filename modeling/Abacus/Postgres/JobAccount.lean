import Abacus.Postgres.Fencing
import Abacus.Postgres.RowKept

/-!
# What the calls say of a job's row

Along a run of the job store the row of a job is accounted for by the calls that were made: it keeps
what the call that created it asked for (`Run.asked`), if it is done then an ack passed its result
(`Run.ackedWith`), and its error is the one that the last attempt given back was given back with
(`Run.showsError`). An ack does not clear it and neither does a claim, so a job that runs or
is done shows the error of an earlier attempt.
-/

set_option autoImplicit false
set_option relaxedAutoImplicit false

namespace Abacus.Postgres

/-! ### The rule -/

/-- What the calls of a run say of a job: it is so without any, a call that returned keeps it over
the step of the job, and a call that raised keeps it. -/
theorem Run.accounts (Holds : List Entry → Option JobRow → Prop) {jobId : Uuid}
    (hempty : Holds [] none)
    (hstep : ∀ history call outcome row new, HasShape row →
      JobStep call.now jobId call.operation outcome row new → Holds history row →
      Holds (history ++ [⟨call, .ok outcome⟩]) new)
    (hraised : ∀ history call error row, Holds history row →
      Holds (history ++ [⟨call, .error error⟩]) row)
    {history : List Entry} {database : Database} (h : Run history database) :
    Holds history (jobRow database jobId) := by
  induction h with
  | empty => exact hempty
  | @step history database before call hclock hfresh ih =>
    rcases perform_jobStep call.now call.operation database jobId with
      ⟨outcome, hreply, hjob⟩ | ⟨error, hreply, hsame⟩
    · rw [hreply]
      exact hstep history call outcome _ _ (before.hasShape jobId) hjob ih
    · rw [hreply, hsame]
      exact hraised history call error _ ih

/-! ### What was asked for -/

/-- A step that creates no job keeps what the job was enqueued with. -/
theorem JobStep.sameJob {now : Instant} {jobId : Uuid} {operation : Operation} {outcome : Outcome}
    {row : JobRow} {after : Option JobRow}
    (h : JobStep now jobId operation outcome (some row) after) :
    ∃ new, after = some new ∧ row.SameJob new := by
  cases h with
  | unchanged row hmoves => exact ⟨_, rfl, rfl, rfl, rfl, rfl, rfl⟩
  | published row => exact ⟨_, rfl, rfl, rfl, rfl, rfl, rfl⟩
  | cancelled row outcome hwaiting => exact ⟨_, rfl, rfl, rfl, rfl, rfl, rfl⟩
  | flagged row outcome hrunning => exact ⟨_, rfl, rfl, rfl, rfl, rfl, rfl⟩
  | claimed row leaseId owner lease hreservable => exact ⟨_, rfl, rfl, rfl, rfl, rfl, rfl⟩
  | retired row scan ids hmem hretirable => exact ⟨_, rfl, rfl, rfl, rfl, rfl, rfl⟩
  | extended row lease duration hjob hfenced => exact ⟨_, rfl, rfl, rfl, rfl, rfl, rfl⟩
  | acked row lease resultRef hjob hfenced => exact ⟨_, rfl, rfl, rfl, rfl, rfl, rfl⟩
  | nacked row lease error retryIn hjob hfenced => exact ⟨_, rfl, rfl, rfl, rfl, rfl, rfl⟩

/-- The job is as a caller asked for it. -/
structure JobRow.IsFor (row : JobRow) (request : JobRequest) : Prop where
  kind : row.kind = request.kind
  payload : row.payload = request.payload
  sessionId : row.sessionId = request.sessionId
  idempotencyKey : row.idempotencyKey = request.idempotencyKey
  maxAttempts : row.maxAttempts = request.maxAttempts

theorem JobRow.IsFor.kept {row new : JobRow} {request : JobRequest} (h : row.IsFor request)
    (hsame : row.SameJob new) : new.IsFor request := by
  obtain ⟨hsession, hkey, hkind, hpayload, hmax⟩ := hsame
  exact ⟨hkind.trans h.kind, hpayload.trans h.payload, hsession.trans h.sessionId,
    hkey.trans h.idempotencyKey, hmax.trans h.maxAttempts⟩

/-- The call that created a job. -/
def Entry.Created (jobId : Uuid) (request : JobRequest) (entry : Entry) : Prop :=
  entry.call.operation = .insertOrGet jobId request ∧
    ∃ job, entry.reply = .ok (.enqueued job true)

/-- The row is as the call that created the job asked for it. -/
def AskedFor (jobId : Uuid) (history : List Entry) (row : Option JobRow) : Prop :=
  ∀ found, row = some found →
    ∃ request, found.IsFor request ∧ ∃ entry ∈ history, entry.Created jobId request

theorem Run.asked {history : List Entry} {database : Database} (h : Run history database)
    (jobId : Uuid) : AskedFor jobId history (jobRow database jobId) := by
  refine Run.accounts (AskedFor jobId) ?_ ?_ ?_ h
  · intro found hfound
    exact absurd hfound (by simp)
  · intro history call outcome row new hshape hstep hold found hfound
    cases row with
    | none =>
      obtain ⟨now, operation⟩ := call
      cases hstep with
      | unchanged row hmoves => exact absurd hfound (by simp)
      | inserted request hattempts =>
        rw [← Option.some.inj hfound]
        exact ⟨request, ⟨rfl, rfl, rfl, rfl, rfl⟩, _,
          List.mem_append_right _ (List.mem_singleton.mpr rfl), rfl, _, rfl⟩
    | some row =>
      obtain ⟨kept, rfl, hsame⟩ := hstep.sameJob
      obtain ⟨request, hfor, entry, hentry, hcreated⟩ := hold row rfl
      obtain rfl := Option.some.inj hfound
      exact ⟨request, hfor.kept hsame, entry, List.mem_append_left _ hentry, hcreated⟩
  · intro history call error row hold found hfound
    obtain ⟨request, hfor, entry, hentry, hcreated⟩ := hold found hfound
    exact ⟨request, hfor, entry, List.mem_append_left _ hentry, hcreated⟩

/-! ### The result of a done job -/

/-- A row that is done was made so by an ack, which passed its result. -/
def AckedWith (jobId : Uuid) (history : List Entry) (row : Option JobRow) : Prop :=
  ∀ found, row = some found → found.state = .done → ∃ entry ∈ history, ∃ lease : Lease,
    entry.call.operation = .ack lease found.resultRef ∧ lease.job.id = jobId

theorem AckedWith.mono {jobId : Uuid} {history : List Entry} {row : Option JobRow}
    (h : AckedWith jobId history row) (entry : Entry) :
    AckedWith jobId (history ++ [entry]) row := by
  intro found hfound hdone
  obtain ⟨acked, hacked, hlease⟩ := h found hfound hdone
  exact ⟨acked, List.mem_append_left _ hacked, hlease⟩

/-- A row that is not done needs no ack. -/
theorem AckedWith.of_ne {jobId : Uuid} {history : List Entry} {row : JobRow}
    (h : row.state ≠ .done) : AckedWith jobId history (some row) := by
  intro found hfound hdone
  rw [← Option.some.inj hfound] at hdone
  exact absurd hdone h

theorem retired_ne_done (row : JobRow) : row.retired.state ≠ .done := by
  cases hcancel : row.cancelRequested <;> simp [JobRow.retired, hcancel]

theorem nackState_ne_done (row : JobRow) : row.nackState ≠ .done := by
  rw [JobRow.nackState]
  split_ifs <;> simp

/-- A change of other columns of a row. -/
theorem AckedWith.of_eq {jobId : Uuid} {history : List Entry} {row new : JobRow}
    (h : AckedWith jobId history (some row)) (hstate : new.state = row.state)
    (href : new.resultRef = row.resultRef) : AckedWith jobId history (some new) := by
  intro found hfound hdone
  rw [← Option.some.inj hfound] at hdone ⊢
  rw [href]
  exact h row rfl (hstate.symm.trans hdone)

theorem Run.ackedWith {history : List Entry} {database : Database} (h : Run history database)
    (jobId : Uuid) : AckedWith jobId history (jobRow database jobId) := by
  refine Run.accounts (AckedWith jobId) ?_ ?_ ?_ h
  · intro found hfound
    exact absurd hfound (by simp)
  · intro history call outcome row new hshape hstep hold
    have hkept := hold.mono ⟨call, .ok outcome⟩
    obtain ⟨now, operation⟩ := call
    cases hstep with
    | unchanged row hmoves => exact hkept
    | inserted request hattempts => exact .of_ne (by simp [JobRow.inserted])
    | published row => exact hkept.of_eq rfl rfl
    | cancelled row outcome hwaiting =>
      exact .of_ne (by simp [cancelled_state_of_waiting hwaiting])
    | flagged row outcome hrunning => exact .of_ne (by simp [JobRow.cancelled, hrunning])
    | claimed row leaseId owner lease hreservable => exact .of_ne (by simp [JobRow.claimed])
    | retired row scan ids hmem hretirable => exact .of_ne (retired_ne_done row)
    | extended row lease duration hjob hfenced => exact hkept.of_eq rfl rfl
    | acked row lease resultRef hjob hfenced =>
      intro found hfound hdone
      rw [← Option.some.inj hfound]
      exact ⟨_, List.mem_append_right _ (List.mem_singleton.mpr rfl), lease, rfl, hjob⟩
    | nacked row lease error retryIn hjob hfenced => exact .of_ne (nackState_ne_done row)
  · exact fun history call error row hold ↦ hold.mono _

/-! ### The error -/

/-- The lease and the error of a call that gave a job back, if it is a nack of it that succeeded. -/
def Entry.givenBack (jobId : Uuid) (entry : Entry) : Option (Lease × String) :=
  match entry.call.operation, entry.reply with
  | .nack lease error _, .ok _ => if lease.job.id = jobId then some (lease, error) else none
  | _, _ => none

/-- How a job was last given back. -/
def lastGivenBack (jobId : Uuid) (history : List Entry) : Option (Lease × String) :=
  (history.filterMap (Entry.givenBack jobId)).getLast?

theorem lastGivenBack_append_of_none {jobId : Uuid} {entry : Entry}
    (h : entry.givenBack jobId = none) (history : List Entry) :
    lastGivenBack jobId (history ++ [entry]) = lastGivenBack jobId history := by
  rw [lastGivenBack, List.filterMap_append, List.filterMap_cons_none h, List.filterMap_nil,
    List.append_nil]
  rfl

theorem lastGivenBack_append_of_some {jobId : Uuid} {entry : Entry} {given : Lease × String}
    (h : entry.givenBack jobId = some given) (history : List Entry) :
    lastGivenBack jobId (history ++ [entry]) = some given := by
  rw [lastGivenBack, List.filterMap_append, List.filterMap_cons_some h, List.filterMap_nil,
    List.getLast?_concat]

/-- A call that is no transition of a job did not give it back. -/
theorem Entry.givenBack_of_not_moves {jobId : Uuid} {call : Call} {outcome : Outcome}
    {row : Option JobRow} (h : call.operation.moves jobId row row outcome = false) :
    (⟨call, .ok outcome⟩ : Entry).givenBack jobId = none := by
  obtain ⟨now, operation⟩ := call
  cases operation with
  | nack lease error retryIn =>
    have hne : lease.job.id ≠ jobId := by simpa [Operation.moves] using h
    simp [Entry.givenBack, hne]
  | _ => rfl

/-- The call that gave a job back last. -/
theorem exists_of_lastGivenBack {jobId : Uuid} {history : List Entry} {lease : Lease}
    {error : String} (h : lastGivenBack jobId history = some (lease, error)) :
    ∃ entry ∈ history, ∃ retryIn, entry.call.operation = .nack lease error retryIn ∧
      lease.job.id = jobId := by
  obtain ⟨entry, hentry, hgiven⟩ := List.mem_filterMap.mp (List.mem_of_getLast? h)
  obtain ⟨⟨now, operation⟩, reply⟩ := entry
  cases operation with
  | nack found text retryIn =>
    cases reply with
    | error failure => exact absurd hgiven (by simp [Entry.givenBack])
    | ok outcome =>
      simp only [Entry.givenBack] at hgiven
      split_ifs at hgiven with hjob
      obtain ⟨rfl, rfl⟩ := Prod.mk.inj (Option.some.inj hgiven)
      exact ⟨_, hentry, retryIn, rfl, hjob⟩
  | _ => exact absurd hgiven (by simp [Entry.givenBack])

/-- The error of a row is the one that the job was last given back with; only a job that never was
may have died with the error of a lapsed lease. -/
def ShowsError (jobId : Uuid) (history : List Entry) : Option JobRow → Prop
  | none => lastGivenBack jobId history = none
  | some row => row.error = (lastGivenBack jobId history).map Prod.snd ∨
    lastGivenBack jobId history = none ∧ row.state = .dead ∧ row.error = some leaseExpiredError

theorem ShowsError.append {jobId : Uuid} {history : List Entry} {row : Option JobRow}
    (h : ShowsError jobId history row) {entry : Entry} (hnone : entry.givenBack jobId = none) :
    ShowsError jobId (history ++ [entry]) row := by
  cases row with
  | none => exact (lastGivenBack_append_of_none hnone history).trans h
  | some row =>
    simp only [ShowsError, lastGivenBack_append_of_none hnone]
    exact h

/-- A change of a row that keeps its error, and keeps it dead if it is. -/
theorem ShowsError.of_eq {jobId : Uuid} {history : List Entry} {row new : JobRow}
    (h : ShowsError jobId history (some row)) (herror : new.error = row.error)
    (hstate : row.state = .dead → new.state = .dead) :
    ShowsError jobId history (some new) := by
  rcases h with hsame | ⟨hnone, hdead, hlapsed⟩
  · exact Or.inl (herror.trans hsame)
  · exact Or.inr ⟨hnone, hstate hdead, herror.trans hlapsed⟩

/-- A row that is alive shows the error that the job was last given back with. -/
theorem ShowsError.of_ne_dead {jobId : Uuid} {history : List Entry} {row : JobRow}
    (h : ShowsError jobId history (some row)) (hne : row.state ≠ .dead) :
    row.error = (lastGivenBack jobId history).map Prod.snd := by
  rcases h with hsame | ⟨-, hdead, -⟩
  · exact hsame
  · exact absurd hdead hne

/-- A retirement keeps the error that is there. -/
theorem ShowsError.retired {jobId : Uuid} {history : List Entry} {row : JobRow}
    (h : ShowsError jobId history (some row)) (hne : row.state ≠ .dead) :
    ShowsError jobId history (some row.retired) := by
  have hsame := h.of_ne_dead hne
  cases hcancel : row.cancelRequested with
  | true => exact Or.inl (by simpa [JobRow.retired, hcancel] using hsame)
  | false =>
    cases hgiven : lastGivenBack jobId history with
    | none =>
      rw [hgiven] at hsame
      exact Or.inr ⟨hgiven, by simp [JobRow.retired, hcancel],
        by simp [JobRow.retired, hcancel, hsame]⟩
    | some given =>
      rw [hgiven] at hsame
      exact Or.inl (by simp [JobRow.retired, hcancel, hsame, hgiven])

theorem Run.showsError {history : List Entry} {database : Database} (h : Run history database)
    (jobId : Uuid) : ShowsError jobId history (jobRow database jobId) := by
  refine Run.accounts (ShowsError jobId) rfl ?_ ?_ h
  · intro history call outcome row new hshape hstep hold
    have hfencedNe : ∀ {row : JobRow} {lease : Lease}, HasShape (some row) →
        row.fenced lease = true → row.state = .dead → False := by
      intro row lease hshape hfenced hdead
      have hrunning := (hshape row rfl).running_of_fenced hfenced
      exact absurd (hrunning.symm.trans hdead) (by simp)
    obtain ⟨now, operation⟩ := call
    cases hstep with
    | unchanged row hmoves => exact hold.append (Entry.givenBack_of_not_moves hmoves)
    | inserted request hattempts =>
      have hnone : lastGivenBack jobId history = none := hold
      have hshows : ShowsError jobId history (some (JobRow.inserted now request)) :=
        Or.inl (by rw [hnone]; rfl)
      exact hshows.append rfl
    | published row => exact (hold.append rfl).of_eq rfl fun hdead ↦ hdead
    | cancelled row outcome hwaiting =>
      refine (hold.append rfl).of_eq rfl fun hdead ↦ ?_
      rw [hdead] at hwaiting
      exact absurd hwaiting (by simp [JobState.waiting])
    | flagged row outcome hrunning =>
      exact (hold.append rfl).of_eq rfl fun hdead ↦ absurd (hrunning.symm.trans hdead) (by simp)
    | claimed row leaseId owner lease hreservable =>
      refine (hold.append rfl).of_eq rfl fun hdead ↦ ?_
      rcases waiting_or_running_of_reservable hreservable with hwaiting | hrunning
      · rw [hdead] at hwaiting
        exact absurd hwaiting (by simp [JobState.waiting])
      · exact absurd (hrunning.symm.trans hdead) (by simp)
    | retired row scan ids hmem hretirable =>
      refine (hold.append rfl).retired fun hdead ↦ ?_
      exact absurd ((running_of_retirable hretirable).symm.trans hdead) (by simp)
    | extended row lease duration hjob hfenced =>
      exact (hold.append rfl).of_eq rfl fun hdead ↦ hdead
    | acked row lease resultRef hjob hfenced =>
      exact (hold.append rfl).of_eq rfl fun hdead ↦ (hfencedNe hshape hfenced hdead).elim
    | nacked row lease error retryIn hjob hfenced =>
      have hgiven : (⟨⟨now, .nack lease error retryIn⟩, .ok (.nacked
          ((row.nacked now error retryIn).toJob jobId))⟩ : Entry).givenBack jobId =
            some (lease, error) := if_pos hjob
      refine Or.inl ?_
      rw [lastGivenBack_append_of_some hgiven]
      rfl
  · intro history call error row hold
    refine hold.append ?_
    obtain ⟨now, operation⟩ := call
    cases operation <;> rfl

end Abacus.Postgres
