import Abacus.Postgres.Run

/-!
# Fencing

The token of a lease is what fences a job. `liveLease` reads it off a run: a successful claim of a
job puts its token there, and an ack, a nack or a retirement of the job takes it away. At every
moment of a run it is exactly the `lease_id` of the row (`Run.leaseToken_eq_liveLease`), through the
calls that never look at the token (a cancel, a retirement) and through deadlines that pass with
nobody claiming.

`fencing` draws the consequences: a claim succeeds only on a job no consumer holds or whose lease
has lapsed, the token of the latest claim is the only one accepted, every other raises `StaleLease`
and changes nothing, and a job is acked at most once.
-/

set_option autoImplicit false
set_option relaxedAutoImplicit false

namespace Abacus.Postgres

open RowLocking

/-! ### Calls under a lease -/

/-- The lease a call is made under. -/
def Operation.lease : Operation → Option Lease
  | .extend lease _ => some lease
  | .ack lease _ => some lease
  | .nack lease _ _ => some lease
  | _ => none

theorem updateJob_execute_of_mismatch {A : Type} {jobId : Uuid} {set : JobRow → Option JobRow}
    {rest : Option JobRow → Sql A} {database : Database}
    (h : (jobRow database jobId).bind set = none) :
    (updateJob jobId set >>= rest).execute database = (rest none).execute database := by
  have hmismatch : ((database.row (.job jobId) : Option JobRow).bind set).map some = none := by
    rw [show (database.row (.job jobId) : Option JobRow) = jobRow database jobId from rfl, h]
    rfl
  rw [Program.execute_bind, updateJob, Program.execute_update_of_mismatch hmismatch]
  rfl

/-- A call under a lease that the job's row does not answer to raises `StaleLease` and changes
nothing. -/
theorem perform_stale {now : Instant} {operation : Operation} {lease : Lease}
    {database : Database} (hlease : operation.lease = some lease)
    (hrow : ∀ row, jobRow database lease.job.id = some row → row.fenced lease = false) :
    perform now operation database = (.error (.staleLease lease.id lease.job.id), database) := by
  have hmismatch : ∀ set, (jobRow database lease.job.id).bind
      (whenever (fun row ↦ row.fenced lease) set) = none := by
    intro set
    cases hfound : jobRow database lease.job.id with
    | none => rfl
    | some row => simp [whenever, hrow row hfound]
  refine Program.run_of_execute_error ?_
  cases operation with
  | extend found duration =>
    obtain rfl : found = lease := Option.some.inj hlease
    refine Program.execute_map_of_error ?_
    rw [extend, updateJob_execute_of_mismatch (hmismatch _)]
    rfl
  | ack found resultRef =>
    obtain rfl : found = lease := Option.some.inj hlease
    refine Program.execute_map_of_error ?_
    rw [ack, updateJob_execute_of_mismatch (hmismatch _)]
    rfl
  | nack found error retryIn =>
    obtain rfl : found = lease := Option.some.inj hlease
    refine Program.execute_map_of_error ?_
    rw [nack, updateJob_execute_of_mismatch (hmismatch _)]
    rfl
  | _ => exact absurd hlease (by simp [Operation.lease])

/-- A call under a lease that did not raise `StaleLease` found the row answering to it. -/
theorem fenced_of_accepted {now : Instant} {operation : Operation} {lease : Lease}
    {database : Database} {outcome : Outcome} (hlease : operation.lease = some lease)
    (h : (perform now operation database).1 = .ok outcome) :
    ∃ row, jobRow database lease.job.id = some row ∧ row.fenced lease = true := by
  by_contra hnone
  have hstale : perform now operation database =
      (.error (.staleLease lease.id lease.job.id), database) := by
    refine perform_stale hlease fun row hrow ↦ ?_
    cases hfenced : row.fenced lease with
    | false => rfl
    | true => exact absurd ⟨row, hrow, hfenced⟩ hnone
  rw [hstale] at h
  simp at h

/-! ### The live lease of a job -/

/-- The token a call gave a job, if it is a successful claim of it. -/
def Entry.granted (jobId : Uuid) (entry : Entry) : Option Uuid :=
  match entry.call.operation, entry.reply with
  | .claim claimedId _ _ _, .ok (.claimed (some lease)) =>
    if claimedId = jobId then some lease.id else none
  | _, _ => none

/-- Whether a call took the lease of a job away: a successful ack or nack, or a retirement. -/
def Entry.took (jobId : Uuid) (entry : Entry) : Bool :=
  match entry.call.operation, entry.reply with
  | .ack lease _, .ok _ => decide (lease.job.id = jobId)
  | .nack lease _ _, .ok _ => decide (lease.job.id = jobId)
  | .retireLapsed _, .ok (.jobIds ids) => decide (jobId ∈ ids)
  | _, _ => false

/-- The live token after one more call. -/
def Entry.apply (jobId : Uuid) (live : Option Uuid) (entry : Entry) : Option Uuid :=
  match entry.granted jobId with
  | some token => some token
  | none => if entry.took jobId then none else live

theorem Entry.apply_of_granted {jobId token : Uuid} {entry : Entry} (live : Option Uuid)
    (h : entry.granted jobId = some token) : entry.apply jobId live = some token := by
  simp only [Entry.apply, h]

theorem Entry.apply_of_not_granted {jobId : Uuid} {entry : Entry} (live : Option Uuid)
    (h : entry.granted jobId = none) :
    entry.apply jobId live = if entry.took jobId then none else live := by
  simp only [Entry.apply, h]

/-- A call that raised moves no lease. -/
theorem Entry.apply_error (jobId : Uuid) (live : Option Uuid) (call : Call) (error : StoreError) :
    (⟨call, .error error⟩ : Entry).apply jobId live = live := by
  obtain ⟨now, operation⟩ := call
  cases operation <;> rfl

/-- A call that is no transition of a job moves no lease of it. -/
theorem Entry.apply_of_not_moves {jobId : Uuid} {call : Call} {outcome : Outcome}
    {row : Option JobRow} (live : Option Uuid)
    (h : call.operation.moves jobId row row outcome = false) :
    (⟨call, .ok outcome⟩ : Entry).apply jobId live = live := by
  obtain ⟨now, operation⟩ := call
  cases operation with
  | claim claimedId leaseId owner lease =>
    cases outcome with
    | claimed granted =>
      cases granted with
      | none => rfl
      | some granted =>
        simp only [Operation.moves, Option.isSome_some, Bool.true_and, decide_eq_false_iff_not] at h
        simp [Entry.apply, Entry.granted, Entry.took, h]
    | _ => rfl
  | ack lease resultRef =>
    simp only [Operation.moves, decide_eq_false_iff_not] at h
    simp [Entry.apply, Entry.granted, Entry.took, h]
  | nack lease error retryIn =>
    simp only [Operation.moves, decide_eq_false_iff_not] at h
    simp [Entry.apply, Entry.granted, Entry.took, h]
  | retireLapsed scan =>
    cases outcome with
    | jobIds ids =>
      simp only [Operation.moves, decide_eq_false_iff_not] at h
      simp [Entry.apply, Entry.granted, Entry.took, h]
    | _ => rfl
  | _ => rfl

/-- The token of a job that the calls of a run have left live. -/
def liveLease (jobId : Uuid) (history : List Entry) : Option Uuid :=
  history.foldl (Entry.apply jobId) none

/-- The token of the latest successful claim of a job. -/
def latestClaim (jobId : Uuid) (history : List Entry) : Option Uuid :=
  history.foldl (fun latest entry ↦ (entry.granted jobId).or latest) none

theorem liveLease_append (jobId : Uuid) (history : List Entry) (entry : Entry) :
    liveLease jobId (history ++ [entry]) = entry.apply jobId (liveLease jobId history) := by
  simp [liveLease]

theorem latestClaim_append (jobId : Uuid) (history : List Entry) (entry : Entry) :
    latestClaim jobId (history ++ [entry]) =
      (entry.granted jobId).or (latestClaim jobId history) := by
  simp [latestClaim]

/-- A live token is that of the latest claim. -/
theorem latestClaim_of_liveLease {jobId token : Uuid} {history : List Entry}
    (h : liveLease jobId history = some token) : latestClaim jobId history = some token := by
  induction history using List.reverseRecOn with
  | nil => exact absurd h (by simp [liveLease])
  | append_singleton history entry ih =>
    rw [liveLease_append] at h
    rw [latestClaim_append]
    cases hgranted : entry.granted jobId with
    | some found =>
      rw [Entry.apply_of_granted _ hgranted] at h
      rw [Option.some_or]
      exact h
    | none =>
      rw [Entry.apply_of_not_granted _ hgranted] at h
      rw [Option.none_or]
      split at h
      · exact absurd h (by simp)
      · exact ih h

/-- Whether a call leaves every earlier lease of a job stale: it claimed the job again or took its
lease away. -/
def Entry.closes (jobId : Uuid) (entry : Entry) : Bool :=
  (entry.granted jobId).isSome || entry.took jobId

/-- Once a call has closed the earlier leases of a job, a live token is one granted by it or
later. -/
theorem granted_of_liveLease {jobId token : Uuid} {earlier later : List Entry} {closing : Entry}
    (hcloses : closing.closes jobId = true)
    (h : liveLease jobId (earlier ++ closing :: later) = some token) :
    ∃ entry ∈ closing :: later, entry.granted jobId = some token := by
  induction later using List.reverseRecOn with
  | nil =>
    rw [liveLease_append] at h
    refine ⟨closing, List.mem_singleton_self closing, ?_⟩
    cases hgranted : closing.granted jobId with
    | some found =>
      rw [Entry.apply_of_granted _ hgranted] at h
      exact h
    | none =>
      simp only [Entry.closes, hgranted, Option.isSome_none, Bool.false_or] at hcloses
      rw [Entry.apply_of_not_granted _ hgranted, if_pos hcloses] at h
      exact absurd h (by simp)
  | append_singleton later entry ih =>
    rw [← List.cons_append, ← List.append_assoc, liveLease_append] at h
    cases hgranted : entry.granted jobId with
    | some found =>
      rw [Entry.apply_of_granted _ hgranted] at h
      exact ⟨entry, by simp, hgranted.trans h⟩
    | none =>
      rw [Entry.apply_of_not_granted _ hgranted] at h
      split at h
      · exact absurd h (by simp)
      · obtain ⟨found, hfound, hgrants⟩ := ih h
        refine ⟨found, ?_, hgrants⟩
        rw [← List.cons_append]
        exact List.mem_append_left _ hfound

/-- The token a job's row answers to. -/
def leaseToken (database : Database) (jobId : Uuid) : Option Uuid :=
  (jobRow database jobId).bind JobRow.leaseId

/-- One call moves the row's token as it moves the live one. -/
theorem leaseToken_perform (call : Call) (database : Database) (jobId : Uuid) :
    leaseToken (perform call.now call.operation database).2 jobId =
      (⟨call, (perform call.now call.operation database).1⟩ : Entry).apply jobId
        (leaseToken database jobId) := by
  rcases perform_jobStep call.now call.operation database jobId with
    ⟨outcome, hreply, hstep⟩ | ⟨error, hreply, hsame⟩
  · rw [hreply, leaseToken, leaseToken]
    obtain ⟨now, operation⟩ := call
    dsimp only at *
    generalize jobRow (perform now operation database).2 jobId = after at hstep ⊢
    generalize jobRow database jobId = before at hstep ⊢
    cases hstep with
    | unchanged row hmoves => rw [Entry.apply_of_not_moves _ hmoves]
    | claimed row leaseId owner lease hreservable =>
      simp [Entry.apply, Entry.granted, JobRow.claimed]
    | retired row scan ids hmem hretirable =>
      simp [Entry.apply, Entry.granted, Entry.took, hmem, JobRow.retired, JobRow.released]
    | acked row lease resultRef hjob hfenced =>
      simp [Entry.apply, Entry.granted, Entry.took, hjob, JobRow.acked, JobRow.released]
    | nacked row lease error retryIn hjob hfenced =>
      simp [Entry.apply, Entry.granted, Entry.took, hjob, JobRow.nacked, JobRow.released]
    | _ => rfl
  · rw [hreply, hsame, Entry.apply_error]

/-- Along a run the row of a job answers to the live token and to no other. -/
theorem Run.leaseToken_eq_liveLease {history : List Entry} {database : Database}
    (h : Run history database) (jobId : Uuid) :
    leaseToken database jobId = liveLease jobId history := by
  induction h with
  | empty => rfl
  | step before call hclock hfresh ih => rw [leaseToken_perform, liveLease_append, ih]

/-- A row that answers to a lease of the job holds its token. -/
theorem leaseToken_of_fenced {database : Database} {lease : Lease} {row : JobRow}
    (hrow : jobRow database lease.job.id = some row) (hfenced : row.fenced lease = true) :
    leaseToken database lease.job.id = some lease.id := by
  rw [JobRow.fenced, beq_iff_eq] at hfenced
  rw [leaseToken, hrow, Option.bind_some, hfenced]

/-! ### Tokens are fresh -/

/-- A claim that returned a lease returned the token it drew. -/
theorem claim_lease_id {now : Instant} {jobId leaseId : Uuid} {owner : String} {lease : Duration}
    {database : Database} {granted : Lease}
    (h : (perform now (.claim jobId leaseId owner lease) database).1 =
      .ok (.claimed (some granted))) : granted.id = leaseId := by
  cases hreply : perform now (.claim jobId leaseId owner lease) database with
  | mk reply after =>
    rw [hreply] at h
    obtain rfl : reply = .ok (.claimed (some granted)) := h
    have hyields := Program.yields_of_execute (Program.execute_of_run_ok hreply)
    obtain ⟨value, hclaim, hvalue⟩ := Program.yields_map hyields
    obtain rfl : value = some granted := by simpa using hvalue
    rcases claim_yields hclaim with ⟨row, -, hlease, -⟩ | ⟨hnone, -⟩
    · rw [Option.some.inj hlease]
    · exact absurd hnone (by simp)

/-- An `extend` that returned a lease returned the one it was given, renewed. -/
theorem extend_lease_id {now : Instant} {lease renewed : Lease} {duration : Duration}
    {database : Database}
    (h : (perform now (.extend lease duration) database).1 = .ok (.extended renewed)) :
    renewed.id = lease.id := by
  cases hreply : perform now (.extend lease duration) database with
  | mk reply after =>
    rw [hreply] at h
    obtain rfl : reply = .ok (.extended renewed) := h
    have hyields := Program.yields_of_execute (Program.execute_of_run_ok hreply)
    obtain ⟨value, hextend, hvalue⟩ := Program.yields_map hyields
    obtain rfl : value = renewed := by simpa using hvalue
    obtain ⟨row, -, -, rfl, -⟩ := extend_yields hextend
    rfl

/-- Every entry of a run that granted a token drew it. -/
theorem Run.drawn_of_granted {history : List Entry} {database : Database}
    (h : Run history database) {entry : Entry} (hentry : entry ∈ history) {jobId token : Uuid}
    (hgranted : entry.granted jobId = some token) : entry.drawn = some token := by
  induction h with
  | empty => exact absurd hentry (by simp)
  | @step history database before call hclock hfresh ih =>
    rcases List.mem_append.mp hentry with hold | hnew
    · exact ih hold
    · obtain rfl := List.mem_singleton.mp hnew
      obtain ⟨now, operation⟩ := call
      unfold Entry.granted at hgranted
      dsimp only at hgranted
      split at hgranted
      · rename_i claimedId leaseId owner lease granted hreply
        split at hgranted
        · rw [← Option.some.inj hgranted, claim_lease_id hreply]
          rfl
        · exact absurd hgranted (by simp)
      · exact absurd hgranted (by simp)

/-- No two claims of a run drew one token. -/
theorem Run.drawn_pairwise {history : List Entry} {database : Database}
    (h : Run history database) :
    history.Pairwise fun first second ↦ ∀ token, first.drawn = some token →
      second.drawn ≠ some token := by
  induction h with
  | empty => exact .nil
  | @step history database before call hclock hfresh ih =>
    refine List.pairwise_append.mpr ⟨ih, List.pairwise_singleton _ _, ?_⟩
    intro first hfirst second hsecond token hdrawn
    obtain rfl := List.mem_singleton.mp hsecond
    obtain ⟨now, operation⟩ := call
    intro hagain
    cases operation with
    | claim jobId leaseId owner lease =>
      refine hfresh jobId leaseId owner lease rfl first hfirst ?_
      exact hdrawn.trans hagain.symm
    | _ => exact absurd hagain (by simp [Entry.drawn])

/-! ### At most one ack -/

/-- Whether a call is a successful ack of a job. -/
def Entry.acked (jobId : Uuid) (entry : Entry) : Bool :=
  match entry.call.operation, entry.reply with
  | .ack lease _, .ok _ => decide (lease.job.id = jobId)
  | _, _ => false

/-- A done job stays done, and no ack of it succeeds. -/
theorem JobStep.done {now : Instant} {jobId : Uuid} {operation : Operation} {outcome : Outcome}
    {row : JobRow} {after : Option JobRow}
    (hstep : JobStep now jobId operation outcome (some row) after) (hshape : row.Shaped)
    (hdone : row.state = .done) :
    (∃ new, after = some new ∧ new.state = .done) ∧
      ∀ lease resultRef, operation = .ack lease resultRef → lease.job.id ≠ jobId := by
  have hunfenced : ∀ lease, row.fenced lease ≠ true := by
    intro lease hfenced
    rw [hshape.running_of_fenced hfenced] at hdone
    exact absurd hdone (by simp)
  cases hstep with
  | unchanged row hmoves =>
    refine ⟨⟨row, rfl, hdone⟩, ?_⟩
    rintro lease resultRef rfl
    simpa [Operation.moves] using hmoves
  | published row => exact ⟨⟨_, rfl, hdone⟩, by simp⟩
  | cancelled row outcome hwaiting => simp [hdone, JobState.waiting] at hwaiting
  | flagged row outcome hrunning => simp [hdone] at hrunning
  | claimed row leaseId owner lease hreservable =>
    rcases waiting_or_running_of_reservable hreservable with hwaiting | hrunning
    · simp [hdone, JobState.waiting] at hwaiting
    · simp [hdone] at hrunning
  | retired row scan ids hmem hretirable =>
    exact absurd (running_of_retirable hretirable) (by simp [hdone])
  | extended row lease duration hjob hfenced => exact absurd hfenced (hunfenced lease)
  | acked row lease resultRef hjob hfenced => exact absurd hfenced (hunfenced lease)
  | nacked row lease error retryIn hjob hfenced => exact absurd hfenced (hunfenced lease)

/-- An ack of a job that succeeded left it done. -/
theorem JobStep.done_of_ack {now : Instant} {jobId : Uuid} {lease : Lease}
    {resultRef : Option String} {outcome : Outcome} {before after : Option JobRow}
    (hstep : JobStep now jobId (.ack lease resultRef) outcome before after)
    (hjob : lease.job.id = jobId) : ∃ new, after = some new ∧ new.state = .done := by
  cases hstep with
  | unchanged row hmoves => simp [Operation.moves, hjob] at hmoves
  | acked row => exact ⟨_, rfl, rfl⟩

/-- Along a run a job has not been acked, or has been acked once and is done. -/
theorem Run.at_most_one_ack {history : List Entry} {database : Database} (h : Run history database)
    (jobId : Uuid) :
    history.countP (Entry.acked jobId) = 0 ∨
      history.countP (Entry.acked jobId) = 1 ∧
        ∃ row, jobRow database jobId = some row ∧ row.state = .done := by
  induction h with
  | empty => exact Or.inl rfl
  | @step history database before call hclock hfresh ih =>
    have hshape := before.hasShape jobId
    rw [List.countP_append, List.countP_singleton]
    rcases perform_jobStep call.now call.operation database jobId with
      ⟨outcome, hreply, hstep⟩ | ⟨error, hreply, hsame⟩
    · rw [hreply]
      by_cases hacked : (⟨call, .ok outcome⟩ : Entry).acked jobId = true
      · obtain ⟨now, operation⟩ := call
        cases operation with
        | ack lease resultRef =>
          have hjob : lease.job.id = jobId := by simpa [Entry.acked] using hacked
          rw [if_pos hacked]
          rcases ih with hzero | ⟨-, row, hrow, hdone⟩
          · exact Or.inr ⟨by omega, hstep.done_of_ack hjob⟩
          · rw [hrow] at hstep
            exact absurd hjob ((hstep.done (hshape row hrow) hdone).2 lease resultRef rfl)
        | _ => exact absurd hacked (by simp [Entry.acked])
      · rw [if_neg hacked, Nat.add_zero]
        rcases ih with hzero | ⟨hone, row, hrow, hdone⟩
        · exact Or.inl hzero
        · rw [hrow] at hstep
          exact Or.inr ⟨hone, (hstep.done (hshape row hrow) hdone).1⟩
    · have hacked : (⟨call, .error error⟩ : Entry).acked jobId = false := by
        obtain ⟨now, operation⟩ := call
        cases operation <;> rfl
      rw [hreply, hacked, hsame]
      simpa using ih

/-! ### The theorem -/

/-- A claim that succeeded found a row that was waiting past `run_after`, or running with a deadline
strictly in the past. -/
theorem reservable_of_claimed {now : Instant} {jobId leaseId : Uuid} {owner : String}
    {lease : Duration} {database : Database} {granted : Lease}
    (h : (perform now (.claim jobId leaseId owner lease) database).1 =
      .ok (.claimed (some granted))) :
    ∃ row, jobRow database jobId = some row ∧
      ((row.state.waiting = true ∧ row.runAfter ≤ now) ∨
        (row.state = .running ∧ ∃ deadline, row.leaseExpiresAt = some deadline ∧
          deadline < now)) := by
  rcases perform_jobStep now (.claim jobId leaseId owner lease) database jobId with
    ⟨outcome, hreply, hstep⟩ | ⟨error, hreply, -⟩
  · obtain rfl : outcome = .claimed (some granted) := by simpa using hreply.symm.trans h
    generalize hbefore : jobRow database jobId = before at hstep
    generalize jobRow (perform now (.claim jobId leaseId owner lease) database).2 jobId = after
      at hstep
    cases hstep with
    | unchanged row hmoves => simp [Operation.moves] at hmoves
    | claimed row _ _ _ hreservable =>
      refine ⟨row, rfl, ?_⟩
      rw [Bool.or_eq_true] at hreservable
      rcases hreservable with hwaiting | hlapsed
      · simp only [JobRow.waiting, Bool.and_eq_true, decide_eq_true_eq] at hwaiting
        exact Or.inl hwaiting
      · simp only [JobRow.lapsed, JobRow.expired, Bool.and_eq_true, beq_iff_eq,
          Option.any_eq_true_iff_get, decide_eq_true_eq] at hlapsed
        obtain ⟨⟨⟨hrunning, hsome, hdeadline⟩, -⟩, -⟩ := hlapsed
        exact Or.inr ⟨hrunning, row.leaseExpiresAt.get hsome, by simp, hdeadline⟩
  · rw [h] at hreply
    exact absurd hreply (by simp)

/-- Fencing. In every run of the job store:

* a claim succeeds only on a job that is waiting past its `run_after` or running past its deadline,
  so a job whose lease has not expired is not claimed again;
* a lease is accepted by `extend`, `ack` or `nack` only if it is that of the job's latest claim;
* once a job has been claimed again, acked, nacked or retired, a call under a lease granted before
  that raises `StaleLease` and changes nothing;
* a job is acked at most once. -/
theorem fencing {history : List Entry} {database : Database} (h : Run history database)
    (jobId : Uuid) :
    (∀ now leaseId owner lease,
      (∀ granted, (perform now (.claim jobId leaseId owner lease) database).1 =
          .ok (.claimed (some granted)) →
        ∃ row, jobRow database jobId = some row ∧
          ((row.state.waiting = true ∧ row.runAfter ≤ now) ∨
            (row.state = .running ∧ ∃ deadline, row.leaseExpiresAt = some deadline ∧
              deadline < now))) ∧
      ∀ row deadline, jobRow database jobId = some row → row.leaseExpiresAt = some deadline →
        now ≤ deadline → ∀ granted, (perform now (.claim jobId leaseId owner lease) database).1 ≠
          .ok (.claimed (some granted))) ∧
    (∀ now operation lease outcome, operation.lease = some lease → lease.job.id = jobId →
      (perform now operation database).1 = .ok outcome →
        latestClaim jobId history = some lease.id) ∧
    (∀ earlier closing later, history = earlier ++ closing :: later →
      closing.closes jobId = true →
      ∀ entry ∈ earlier, ∀ now operation lease, operation.lease = some lease →
        lease.job.id = jobId → entry.granted jobId = some lease.id →
        perform now operation database = (.error (.staleLease lease.id jobId), database)) ∧
    history.countP (Entry.acked jobId) ≤ 1 := by
  have hlive := h.leaseToken_eq_liveLease jobId
  refine ⟨fun now leaseId owner lease ↦ ⟨fun granted ↦ reservable_of_claimed, ?_⟩, ?_, ?_, ?_⟩
  · intro row deadline hrow hdeadline hnow granted hclaim
    obtain ⟨found, hfound, hcase⟩ := reservable_of_claimed hclaim
    obtain rfl : row = found := Option.some.inj (hrow.symm.trans hfound)
    have hrunning : row.state = .running :=
      (h.hasShape jobId row hrow).deadline.mp (by simp [hdeadline])
    rcases hcase with ⟨hwaiting, -⟩ | ⟨-, expired, hexpired, hpast⟩
    · exact not_running_of_waiting hwaiting hrunning
    · rw [hdeadline, Option.some.injEq] at hexpired
      rw [← hexpired] at hpast
      exact absurd hpast (not_lt.mpr hnow)
  · rintro now operation lease outcome hlease rfl haccepted
    obtain ⟨row, hrow, hfenced⟩ := fenced_of_accepted hlease haccepted
    exact latestClaim_of_liveLease (hlive.symm.trans (leaseToken_of_fenced hrow hfenced))
  · rintro earlier closing later rfl hcloses entry hentry now operation lease hlease rfl hgranted
    refine perform_stale hlease fun row hrow ↦ ?_
    by_contra hfenced
    rw [Bool.not_eq_false] at hfenced
    obtain ⟨again, hagain, hgrantedAgain⟩ := granted_of_liveLease hcloses
      (hlive.symm.trans (leaseToken_of_fenced hrow hfenced))
    have hfresh := (List.pairwise_append.mp h.drawn_pairwise).2.2 entry hentry again hagain
    refine hfresh lease.id ?_ ?_
    · exact h.drawn_of_granted (List.mem_append_left _ hentry) hgranted
    · exact h.drawn_of_granted (List.mem_append_right _ hagain) hgrantedAgain
  · rcases h.at_most_one_ack jobId with hzero | ⟨hone, -⟩
    · omega
    · omega

/-- A job without a session claimed twice, the second time after its deadline: the first lease is
stale. -/
theorem fencing_reclaimed :
    let request : JobRequest := ⟨"noop", .nil, none, "key", 3, 0⟩
    let inserted := perform 0 (.insertOrGet ⟨9⟩ request) Database.empty
    let claimed := perform 1 (.claim ⟨9⟩ ⟨21⟩ "first" 10) inserted.2
    let reclaimed := perform 12 (.claim ⟨9⟩ ⟨22⟩ "second" 10) claimed.2
    let stale : Lease := ⟨⟨21⟩, ((JobRow.inserted 0 request).claimed 1 ⟨21⟩ "first" 10).toJob ⟨9⟩,
      "first", 11⟩
    perform 13 (.ack stale none) reclaimed.2 =
      (.error (.staleLease ⟨21⟩ ⟨9⟩), reclaimed.2) := by
  intro request inserted claimed reclaimed stale
  have hinserted := Run.empty.step ⟨0, .insertOrGet ⟨9⟩ request⟩ (by simp) (by simp)
  have hclaimed := hinserted.step ⟨1, .claim ⟨9⟩ ⟨21⟩ "first" 10⟩ (by simp) (by simp [Entry.drawn])
  have hreclaimed := hclaimed.step ⟨12, .claim ⟨9⟩ ⟨22⟩ "second" 10⟩ (by simp) (by
    rintro jobId leaseId owner lease heq
    obtain ⟨-, rfl, -, -⟩ := Operation.claim.inj heq
    simp [Entry.drawn])
  exact (fencing hreclaimed ⟨9⟩).2.2.1
    [_, _] _ [] rfl rfl _ (List.mem_cons_of_mem _ List.mem_cons_self) 13 (.ack stale none) stale rfl
    rfl rfl

end Abacus.Postgres
