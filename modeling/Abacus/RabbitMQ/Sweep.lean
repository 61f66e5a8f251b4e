import Abacus.Postgres.Lifecycle
import Abacus.RabbitMQ.Wire

/-!
# What a sweep drops

`_sweep` lists jobs, and goes through each list over several awaits, taking the delivery of each job
out of `_held` and acking it whatever lease it is recorded under. The jobs of the first list are
finished and stay so. Those of the second had lapsed when they were listed, and a lapsed job can
come back to life before the sweep gets to it: its lease is extended, or this very object claims it
again.

`Channel.Lapsing` are the jobs of the second list that a sweep still has to go through, and
`Channel.Records` the leases an object records for a job or is about to. `Swept` says that no lease
of such a job which its object records is live, and `sweep_acks_no_live_claim` that this is kept by
every run in which no extension and no claim takes effect in the way of a sweep (`LeavesLapsed`). In
`extendedWhileSwept` one does, and the delivery of a live claim is acked.
-/

set_option autoImplicit false
set_option relaxedAutoImplicit false

namespace Abacus.Postgres

/-! ### A live claim -/

/-- The row is running under this lease, and its deadline has not passed. -/
def LiveUnder (leaseId : Uuid) (now : Instant) (row : Option JobRow) : Prop :=
  ∃ found, row = some found ∧ found.state = .running ∧ found.leaseId = some leaseId ∧
    found.expired now = false

/-- A deadline that has passed stays passed. -/
theorem JobRow.expired_mono {row : JobRow} {now later : Instant} (h : row.expired now = true)
    (hlater : now ≤ later) : row.expired later = true := by
  simp only [JobRow.expired, Option.any_eq_true, decide_eq_true_eq] at h ⊢
  obtain ⟨deadline, hdeadline, hpast⟩ := h
  exact ⟨deadline, hdeadline, lt_of_lt_of_le hpast hlater⟩

/-- A claim that is live was live before. -/
theorem LiveUnder.earlier {leaseId : Uuid} {now later : Instant} {row : Option JobRow}
    (h : LiveUnder leaseId later row) (hlater : now ≤ later) : LiveUnder leaseId now row := by
  obtain ⟨found, hrow, hstate, hlease, hlive⟩ := h
  refine ⟨found, hrow, hstate, hlease, ?_⟩
  by_contra hpast
  have hexpired : found.expired later = true :=
    JobRow.expired_mono (by simpa using hpast) hlater
  exact Bool.noConfusion (hlive.symm.trans hexpired)

/-- A job that is past its deadline is live under no lease. -/
theorem not_liveUnder_of_expired {leaseId : Uuid} {now : Instant} {row : JobRow}
    (h : row.expired now = true) : ¬ LiveUnder leaseId now (some row) := by
  rintro ⟨found, hfound, -, -, hlive⟩
  obtain rfl := Option.some.inj hfound
  exact Bool.noConfusion (hlive.symm.trans h)

/-- A finished job is live under no lease. -/
theorem not_liveUnder_of_terminal {leaseId : Uuid} {now : Instant} {row : JobRow}
    (h : row.state.terminal = true) : ¬ LiveUnder leaseId now (some row) := by
  rintro ⟨found, hfound, hrunning, -, -⟩
  obtain rfl := Option.some.inj hfound
  exact (not_waiting_of_terminal h).2 hrunning

/-- Only an extension and a claim bring a lease to life, and each only its own. -/
theorem JobStep.liveUnder {now : Instant} {jobId leaseId : Uuid} {operation : Operation}
    {outcome : Outcome} {before after : Option JobRow}
    (hstep : JobStep now jobId operation outcome before after)
    (hlive : LiveUnder leaseId now after) :
    LiveUnder leaseId now before ∨
    (∃ row lease duration, operation = .extend lease duration ∧ before = some row ∧
      lease.job.id = jobId ∧ row.fenced lease = true ∧ lease.id = leaseId) ∨
    ∃ row owner duration, operation = .claim jobId leaseId owner duration ∧ before = some row ∧
      (row.waiting now || row.lapsed now) = true := by
  obtain ⟨new, hnew, hstate, hlease, hdeadline⟩ := hlive
  cases hstep with
  | unchanged row hmoves => exact Or.inl ⟨new, hnew, hstate, hlease, hdeadline⟩
  | inserted request hattempts =>
    obtain rfl := Option.some.inj hnew
    exact JobState.noConfusion hstate
  | published row =>
    obtain rfl := Option.some.inj hnew
    exact Or.inl ⟨row, rfl, hstate, hlease, hdeadline⟩
  | cancelled row outcome hwaiting =>
    obtain rfl := Option.some.inj hnew
    cases hrow : row.state <;> simp [JobRow.cancelled, JobState.waiting, hrow] at hstate hwaiting
  | flagged row outcome hrunning =>
    obtain rfl := Option.some.inj hnew
    exact Or.inl ⟨row, rfl, hrunning, hlease, hdeadline⟩
  | claimed row drawn owner lease hreservable =>
    obtain rfl := Option.some.inj hnew
    obtain rfl : drawn = leaseId := Option.some.inj hlease
    exact Or.inr (Or.inr ⟨row, owner, lease, rfl, rfl, hreservable⟩)
  | retired row scan ids hmem hretirable =>
    obtain rfl := Option.some.inj hnew
    exact absurd hlease (Option.some_ne_none leaseId).symm
  | extended row lease duration hjob hfenced =>
    obtain rfl := Option.some.inj hnew
    refine Or.inr (Or.inl ⟨row, lease, duration, rfl, rfl, hjob, hfenced, ?_⟩)
    rw [JobRow.fenced, beq_iff_eq] at hfenced
    exact Option.some.inj (hfenced.symm.trans hlease)
  | acked row lease resultRef hjob hfenced =>
    obtain rfl := Option.some.inj hnew
    exact absurd hlease (Option.some_ne_none leaseId).symm
  | nacked row lease error retryIn hjob hfenced =>
    obtain rfl := Option.some.inj hnew
    exact absurd hlease (Option.some_ne_none leaseId).symm

/-- A job that a retirement returned is finished. -/
theorem JobStep.terminal_of_retired {now : Instant} {jobId : Uuid} {scan ids : List Uuid}
    {before after : Option JobRow}
    (hstep : JobStep now jobId (.retireLapsed scan) (.jobIds ids) before after)
    (hmem : jobId ∈ ids) : ∃ row, after = some row ∧ row.state.terminal = true := by
  cases hstep with
  | unchanged row hmoves => exact absurd hmem (by simpa [Operation.moves] using hmoves)
  | retired row _ _ _ hretirable =>
    refine ⟨row.retired, rfl, ?_⟩
    by_cases hflag : row.cancelRequested = true
    · simp [JobRow.retired, hflag, JobState.terminal]
    · simp [JobRow.retired, hflag, JobState.terminal]

/-- The chat repository leaves every job alone. -/
theorem jobRow_of_onChat {now : Instant} {operation : Operation} (hchat : onChat operation = true)
    (database : Database) (jobId : Uuid) :
    jobRow (perform now operation database).2 jobId = jobRow database jobId := by
  rcases perform_jobStep now operation database jobId with ⟨outcome, -, hstep⟩ | ⟨error, -, hsame⟩
  · generalize jobRow (perform now operation database).2 jobId = after at hstep ⊢
    generalize jobRow database jobId = before at hstep ⊢
    cases hstep with
    | unchanged row hmoves => rfl
    | _ => exact nomatch hchat
  · rw [hsame]

/-- A job that a claim returned a lease for could be claimed. -/
theorem JobStep.reservable_of_claimed {now : Instant} {jobId leaseId : Uuid} {owner : String}
    {duration : Duration} {lease : Lease} {before after : Option JobRow}
    (hstep : JobStep now jobId (.claim jobId leaseId owner duration) (.claimed (some lease)) before
      after) : ∃ row, before = some row ∧ (row.waiting now || row.lapsed now) = true := by
  cases hstep with
  | unchanged row hmoves => exact absurd hmoves (by simp [Operation.moves])
  | claimed row _ _ _ hreservable => exact ⟨row, rfl, hreservable⟩

/-- A job that `lapsed_reservable` lists is past its deadline. -/
theorem expired_of_mem_lapsedReservable {now : Instant} {jobId : Uuid} {scan ids : List Uuid}
    {database after : Database}
    (h : perform now (.lapsedReservable scan) database = (.ok (.jobIds ids), after))
    (hmem : jobId ∈ ids) :
    ∃ row, jobRow after jobId = some row ∧ row.expired now = true := by
  obtain ⟨hreply, rfl⟩ := Prod.mk.inj h
  have hids : scan.filter (fun jobId ↦ (jobRow database jobId).any fun row ↦ row.lapsed now) =
      ids := Outcome.jobIds.inj (Except.ok.inj hreply)
  rw [← hids, List.mem_filter] at hmem
  have hlisted := hmem.2
  simp only [Option.any_eq_true, JobRow.lapsed, Bool.and_eq_true] at hlisted
  obtain ⟨row, hrow, ⟨⟨-, hexpired⟩, -⟩, -⟩ := hlisted
  exact ⟨row, hrow, hexpired⟩

end Abacus.Postgres

namespace Abacus.RabbitMQ

open Postgres (Database Operation Outcome StoreError JobRow JobStep perform jobRow HasShape
  LiveUnder)

/-! ### What a sweep has yet to go through -/

/-- Whether a place in the code is one of `_sweep`. -/
def Frame.sweeps : Frame → Bool
  | .sweepRetire => true
  | .sweepRetireSettle _ _ => true
  | .sweepLapsed _ => true
  | .sweepLapsedSettle _ _ _ _ => true
  | .sweepRepublish _ _ _ => true
  | .sweepUnpublished _ => true
  | .sweepOrphanPublish _ _ _ => true
  | .sweepOrphanMark _ _ _ => true
  | _ => false

/-- The retired jobs whose deliveries a sweep has yet to drop. -/
def Task.retiring (task : Task) : List Uuid :=
  match task.frame, task.reply with
  | .sweepRetire, some (.returned (.jobIds ids)) => ids
  | .sweepRetireSettle _ rest, _ => rest
  | _, _ => []

/-- The lapsed jobs whose deliveries a sweep has yet to drop. -/
def Task.lapsing (task : Task) : List Uuid :=
  match task.frame, task.reply with
  | .sweepLapsed _, some (.returned (.jobIds ids)) => ids
  | .sweepLapsedSettle _ _ rest _, _ => rest
  | .sweepRepublish _ _ _, some .raised => []
  | .sweepRepublish _ rest _, _ => rest
  | _, _ => []

/-- What a stretch of code that goes through these jobs does: it drops only the entries of
`dropped`, and has no other jobs left to go through. -/
structure Sweeps (retiring lapsing : List Uuid) (dropped : Uuid → Prop) (before : Consumer)
    (result : Consumer × Next) : Prop where
  held : ∀ jobId, result.1.held jobId = before.held jobId ∨
    result.1.held jobId = none ∧ dropped jobId
  retiring : ∀ task, result.2.task = some task → ∀ jobId ∈ task.retiring, jobId ∈ retiring
  lapsing : ∀ task, result.2.task = some task → ∀ jobId ∈ task.lapsing, jobId ∈ lapsing

/-- A place in the code with no job to go through. -/
def Frame.Unlisted (frame : Frame) : Prop :=
  (⟨frame, none⟩ : Task).retiring = [] ∧ (⟨frame, none⟩ : Task).lapsing = []

namespace Sweeps

variable {retiring lapsing : List Uuid} {dropped : Uuid → Prop} {consumer : Consumer}

theorem suspend {frame : Frame} (h : frame.Unlisted) :
    Sweeps retiring lapsing dropped consumer (consumer, .suspend frame) where
  held := fun _ ↦ Or.inl rfl
  retiring := by
    intro task htask
    rw [← Option.some.inj htask, h.1]
    simp
  lapsing := by
    intro task htask
    rw [← Option.some.inj htask, h.2]
    simp

theorem finish (result : Result) :
    Sweeps retiring lapsing dropped consumer (consumer, .finish result) where
  held := fun _ ↦ Or.inl rfl
  retiring := by simp [Next.task]
  lapsing := by simp [Next.task]

/-- A stretch of code from a state with the same `_held`. -/
theorem of_held {before : Consumer} {result : Consumer × Next}
    (h : Sweeps retiring lapsing dropped consumer result) (hheld : consumer.held = before.held) :
    Sweeps retiring lapsing dropped before result where
  held := by
    rw [← hheld]
    exact h.held
  retiring := h.retiring
  lapsing := h.lapsing

theorem mono {retiring' lapsing' : List Uuid} {dropped' : Uuid → Prop} {result : Consumer × Next}
    (h : Sweeps retiring lapsing dropped consumer result)
    (hretiring : ∀ jobId ∈ retiring, jobId ∈ retiring')
    (hlapsing : ∀ jobId ∈ lapsing, jobId ∈ lapsing')
    (hdropped : ∀ jobId, dropped jobId → dropped' jobId) :
    Sweeps retiring' lapsing' dropped' consumer result where
  held := fun jobId ↦ (h.held jobId).imp_right fun hgone ↦ ⟨hgone.1, hdropped jobId hgone.2⟩
  retiring := fun task htask jobId hmem ↦ hretiring jobId (h.retiring task htask jobId hmem)
  lapsing := fun task htask jobId hmem ↦ hlapsing jobId (h.lapsing task htask jobId hmem)

/-- A release drops the entry of its job, if any. -/
theorem releaseThen {jobId : Uuid} {leaseId : Option Uuid} {settle : Message → Frame}
    {rest : Consumer → Consumer × Next} (hdropped : dropped jobId)
    (hretiring : ∀ message, ∀ other ∈ (⟨settle message, none⟩ : Task).retiring, other ∈ retiring)
    (hlapsing : ∀ message, ∀ other ∈ (⟨settle message, none⟩ : Task).lapsing, other ∈ lapsing)
    (hrest : Sweeps retiring lapsing dropped consumer (rest consumer)) :
    Sweeps retiring lapsing dropped consumer
      (consumer.releaseThen jobId leaseId settle rest) := by
  unfold Consumer.releaseThen Consumer.release
  cases hheld : consumer.held jobId with
  | none => exact hrest
  | some entry =>
    obtain ⟨heldLease, message⟩ := entry
    dsimp only
    split
    · rename_i heq
      split at heq
      · exact absurd (congrArg Prod.snd heq) (by simp)
      · obtain ⟨rfl, hmessage⟩ := Prod.mk.inj heq
        refine ⟨fun other ↦ ?_, fun task htask ↦ ?_, fun task htask ↦ ?_⟩
        · by_cases hother : other = jobId
          · rw [hother]
            exact Or.inr ⟨Function.update_self jobId none consumer.held, hdropped⟩
          · exact Or.inl (Function.update_of_ne hother none consumer.held)
        · rw [← Option.some.inj htask]
          exact hretiring _
        · rw [← Option.some.inj htask]
          exact hlapsing _
    · rename_i heq
      split at heq
      · obtain ⟨rfl, -⟩ := Prod.mk.inj heq
        exact hrest
      · exact absurd (congrArg Prod.snd heq) (by simp)

theorem received {message : Message} {deadline : Instant} {owner : String} {lease : Duration} :
    Sweeps retiring lapsing dropped consumer
      (consumer.received message deadline owner lease) := by
  unfold Consumer.received
  split
  · exact suspend ⟨rfl, rfl⟩
  · exact finish _

theorem nextDelivery {time deadline : Instant} {owner : String} {lease : Duration} :
    Sweeps retiring lapsing dropped consumer
      (consumer.nextDelivery time deadline owner lease) := by
  unfold Consumer.nextDelivery
  split
  · exact received.of_held rfl
  · split
    · exact finish _
    · exact suspend ⟨rfl, rfl⟩

theorem reoffer {job : Job} {retryIn : Option Duration} :
    Sweeps retiring lapsing dropped consumer (consumer.reoffer job retryIn) := by
  unfold Consumer.reoffer
  split
  · exact suspend ⟨rfl, rfl⟩
  · exact finish _

theorem orphanLoop {config : Config} {now : Instant} {ids : List Uuid} :
    Sweeps retiring lapsing dropped consumer (consumer.orphanLoop config now ids) := by
  cases ids with
  | nil =>
    have hprune : Sweeps retiring lapsing dropped (consumer.prune config now)
        (consumer.orphanLoop config now []) := finish _
    exact hprune.of_held rfl
  | cons jobId rest => exact suspend ⟨rfl, rfl⟩

/-- The first loop drops the deliveries of the jobs it goes through. -/
theorem retireLoop {time : Instant} {ids : List Uuid} :
    Sweeps ids lapsing (fun jobId ↦ jobId ∈ ids) consumer (consumer.retireLoop time ids) := by
  induction ids with
  | nil => exact suspend ⟨rfl, rfl⟩
  | cons jobId rest ih =>
    have hrest : Sweeps (jobId :: rest) lapsing (fun other ↦ other ∈ jobId :: rest) consumer
        (consumer.retireLoop time rest) :=
      ih.mono (fun _ ↦ List.mem_cons_of_mem jobId) (fun _ hmem ↦ hmem)
        fun _ ↦ List.mem_cons_of_mem jobId
    have hloop : Sweeps (jobId :: rest) lapsing (fun other ↦ other ∈ jobId :: rest) consumer
        (consumer.releaseThen jobId none (fun message ↦ .sweepRetireSettle message rest)
          fun consumer ↦ consumer.retireLoop time rest) :=
      releaseThen List.mem_cons_self (fun _ _ ↦ List.mem_cons_of_mem jobId)
        (fun _ _ hmem ↦ absurd hmem List.not_mem_nil) hrest
    exact hloop

/-- The second loop drops the deliveries of the jobs it goes through. -/
theorem lapsedLoop {config : Config} {now : Instant} {ids : List Uuid} :
    Sweeps retiring ids (fun jobId ↦ jobId ∈ ids) consumer
      (consumer.lapsedLoop config now ids) := by
  induction ids with
  | nil => exact suspend ⟨rfl, rfl⟩
  | cons jobId rest ih =>
    have hrest : Sweeps retiring (jobId :: rest) (fun other ↦ other ∈ jobId :: rest) consumer
        (consumer.offer config now jobId rest) := by
      unfold Consumer.offer
      split
      · exact ih.mono (fun _ hmem ↦ hmem) (fun _ ↦ List.mem_cons_of_mem jobId)
          fun _ ↦ List.mem_cons_of_mem jobId
      · refine ⟨fun _ ↦ Or.inl rfl, fun task htask ↦ ?_, fun task htask ↦ ?_⟩
        · rw [← Option.some.inj htask]
          exact fun _ hmem ↦ absurd hmem List.not_mem_nil
        · rw [← Option.some.inj htask]
          exact fun _ ↦ List.mem_cons_of_mem jobId
    have hloop : Sweeps retiring (jobId :: rest) (fun other ↦ other ∈ jobId :: rest) consumer
        (consumer.releaseThen jobId none (fun message ↦ .sweepLapsedSettle message jobId rest now)
          fun consumer ↦ consumer.offer config now jobId rest) :=
      releaseThen List.mem_cons_self (fun _ _ hmem ↦ absurd hmem List.not_mem_nil)
        (fun _ _ ↦ List.mem_cons_of_mem jobId) hrest
    exact hloop

theorem offer {config : Config} {now : Instant} {jobId : Uuid} {rest : List Uuid} :
    Sweeps retiring rest (fun other ↦ other ∈ rest) consumer
      (consumer.offer config now jobId rest) := by
  unfold Consumer.offer
  split
  · exact lapsedLoop
  · refine ⟨fun _ ↦ Or.inl rfl, fun task htask ↦ ?_, fun task htask ↦ ?_⟩
    · rw [← Option.some.inj htask]
      exact fun _ hmem ↦ absurd hmem List.not_mem_nil
    · rw [← Option.some.inj htask]
      exact fun _ hmem ↦ hmem

/-- A method has no job to go through at its first `await`. -/
theorem start {time : Instant} {call : Call} :
    Sweeps [] [] (fun _ ↦ True) consumer (consumer.start time call) := by
  cases call with
  | reserve owner lease waitFor => exact nextDelivery
  | discard lease =>
    exact releaseThen trivial (fun _ _ hmem ↦ hmem) (fun _ _ hmem ↦ hmem) (finish _)
  | _ => exact suspend ⟨rfl, rfl⟩

end Sweeps

/-- A reply that is no exception and that the method does not wait for changes nothing. -/
theorem Sweeps.wait {consumer : Consumer} {frame : Frame} {reply : Reply} {dropped : Uuid → Prop}
    (hraised : reply ≠ .raised) :
    Sweeps (⟨frame, some reply⟩ : Task).retiring (⟨frame, some reply⟩ : Task).lapsing dropped
      consumer (consumer, .suspend frame) where
  held := fun _ ↦ Or.inl rfl
  retiring := by
    intro task htask jobId hmem
    rw [← Option.some.inj htask] at hmem
    cases frame with
    | sweepRetireSettle message rest => exact hmem
    | _ => exact absurd hmem List.not_mem_nil
  lapsing := by
    intro task htask jobId hmem
    rw [← Option.some.inj htask] at hmem
    cases frame with
    | sweepLapsedSettle message other rest now => exact hmem
    | sweepRepublish other rest now =>
      cases reply with
      | raised => exact absurd rfl hraised
      | _ => exact hmem
    | _ => exact absurd hmem List.not_mem_nil

/-- From one `await` to the next a sweep drops only the deliveries of the jobs it had to go through,
and `_held` gets no entry but from a claim that succeeded. -/
theorem Consumer.resume_sweeps (consumer : Consumer) (config : Config) (time : Instant)
    (frame : Frame) (reply : Reply)
    (hclaim : ∀ message jobId deadline owner lease granted,
      frame = .reserveClaim message jobId deadline owner lease →
      reply ≠ .returned (.claimed (some granted))) :
    Sweeps (⟨frame, some reply⟩ : Task).retiring (⟨frame, some reply⟩ : Task).lapsing
      (fun jobId ↦ frame.sweeps = true → jobId ∈ (⟨frame, some reply⟩ : Task).retiring ∨
        jobId ∈ (⟨frame, some reply⟩ : Task).lapsing)
      consumer (consumer.resume config time frame reply) := by
  unfold resume
  split
  all_goals first
    | exact .suspend ⟨rfl, rfl⟩
    | exact .finish _
    | exact .nextDelivery
    | exact .reoffer
    | exact .orphanLoop
    | exact .releaseThen (fun hsweeps ↦ Bool.noConfusion hsweeps)
        (fun _ _ hmem ↦ absurd hmem List.not_mem_nil)
        (fun _ _ hmem ↦ absurd hmem List.not_mem_nil) (.finish _)
    | exact .releaseThen (fun hsweeps ↦ Bool.noConfusion hsweeps)
        (fun _ _ hmem ↦ absurd hmem List.not_mem_nil)
        (fun _ _ hmem ↦ absurd hmem List.not_mem_nil) .reoffer
    | exact Sweeps.retireLoop.mono (fun _ hmem ↦ hmem) (fun _ hmem ↦ hmem)
        fun _ hmem _ ↦ Or.inl hmem
    | exact Sweeps.lapsedLoop.mono (fun _ hmem ↦ hmem) (fun _ hmem ↦ hmem)
        fun _ hmem _ ↦ Or.inr hmem
    | exact Sweeps.offer.mono (fun _ hmem ↦ hmem) (fun _ hmem ↦ hmem)
        fun _ hmem _ ↦ Or.inr hmem
    | skip
  · split
    · exact .suspend ⟨rfl, rfl⟩
    · exact .finish _
  · split
    · exact Sweeps.received.of_held rfl
    · exact .suspend ⟨rfl, rfl⟩
  · rename_i message jobId deadline owner lease granted
    exact absurd rfl (hclaim message jobId deadline owner lease granted rfl)
  · -- the republish is noted in `_republished`, and `_held` is as it was
    rename_i jobId rest now
    have hloop : Sweeps [] rest (fun jobId ↦ jobId ∈ rest) consumer
        (Consumer.lapsedLoop { consumer with
          republished := Function.update consumer.republished jobId (some now) } config now rest) :=
      Sweeps.lapsedLoop.of_held rfl
    exact hloop.mono (fun _ hmem ↦ hmem) (fun _ hmem ↦ hmem) fun _ hmem _ ↦ Or.inr hmem
  · exact .wait (by assumption)

namespace Channel

/-- A retired job whose delivery a sweep of this object has yet to drop. -/
def Retiring (channel : Channel) (jobId : Uuid) : Prop :=
  ∃ task state, channel.tasks task = some state ∧ jobId ∈ state.retiring

/-- A lapsed job whose delivery a sweep of this object has yet to drop. -/
def Lapsing (channel : Channel) (jobId : Uuid) : Prop :=
  ∃ task state, channel.tasks task = some state ∧ jobId ∈ state.lapsing

/-- The object has an entry for the job under this lease, or is about to make one: its claim has
returned the lease. -/
def Records (channel : Channel) (jobId leaseId : Uuid) : Prop :=
  (∃ message, channel.consumer.held jobId = some (leaseId, message)) ∨
    ∃ task message deadline owner duration lease,
      channel.tasks task = some ⟨.reserveClaim message jobId deadline owner duration,
        some (.returned (.claimed (some lease)))⟩ ∧ lease.id = leaseId

variable {config : Config} {channel after : Channel}

/-- What a step of a channel lets an object record and a sweep go through: nothing new, but for the
reply of a claim and of the two listings. -/
structure Grows (channel : Channel) (action : Action) (after : Channel) : Prop where
  records : ∀ jobId leaseId, after.Records jobId leaseId → channel.Records jobId leaseId ∨
    ∃ task message deadline owner duration lease,
      action = .answer task (.returned (.claimed (some lease))) ∧
      channel.tasks task = some ⟨.reserveClaim message jobId deadline owner duration, none⟩ ∧
      lease.id = leaseId
  retiring : ∀ jobId, after.Retiring jobId → channel.Retiring jobId ∨
    ∃ task ids, action = .answer task (.returned (.jobIds ids)) ∧
      channel.tasks task = some ⟨.sweepRetire, none⟩ ∧ jobId ∈ ids
  lapsing : ∀ jobId, after.Lapsing jobId → channel.Lapsing jobId ∨
    ∃ task ids now, action = .answer task (.returned (.jobIds ids)) ∧
      channel.tasks task = some ⟨.sweepLapsed now, none⟩ ∧ jobId ∈ ids

/-- A method that has run to its next `await` has nothing new to record or to go through. -/
theorem grows_proceed {task : ℕ} {result : Consumer × Next} {dropped : Uuid → Prop}
    {retiring lapsing : List Uuid} (action : Action)
    (h : Sweeps retiring lapsing dropped channel.consumer result)
    (hretiring : ∀ jobId ∈ retiring, channel.Retiring jobId)
    (hlapsing : ∀ jobId ∈ lapsing, channel.Lapsing jobId) :
    Grows channel action (channel.proceed task result) where
  records := by
    rintro jobId leaseId (⟨message, hheld⟩ | ⟨other, message, deadline, owner, duration, lease,
      hother,
      hlease⟩)
    · rcases h.held jobId with hsame | ⟨hnone, -⟩
      · exact Or.inl (Or.inl ⟨message, hsame.symm.trans hheld⟩)
      · exact nomatch hnone.symm.trans hheld
    · rcases proceed_eq_some hother with ⟨-, frame, -, hnew⟩ | ⟨-, hold⟩
      · exact absurd (congrArg Task.reply hnew) (by simp)
      · exact Or.inl (Or.inr ⟨other, message, deadline, owner, duration, lease, hold, hlease⟩)
  retiring := by
    rintro jobId ⟨other, state, hother, hmem⟩
    rcases setTask_eq_some hother with ⟨-, hnext⟩ | ⟨-, hold⟩
    · exact Or.inl (hretiring jobId (h.retiring state hnext jobId hmem))
    · exact Or.inl ⟨other, state, hold, hmem⟩
  lapsing := by
    rintro jobId ⟨other, state, hother, hmem⟩
    rcases setTask_eq_some hother with ⟨-, hnext⟩ | ⟨-, hold⟩
    · exact Or.inl (hlapsing jobId (h.lapsing state hnext jobId hmem))
    · exact Or.inl ⟨other, state, hold, hmem⟩

/-- A reply comes, and what a method has to record or to go through is in it. -/
theorem grows_reply {task : ℕ} {frame : Frame} {earlier : Option Reply} {reply : Reply}
    (action : Action) (hheld : after.consumer.held = channel.consumer.held)
    (htasks : after.tasks = Function.update channel.tasks task (some ⟨frame, some reply⟩))
    (htask : channel.tasks task = some ⟨frame, earlier⟩)
    (hearlier : earlier = none ∨ reply = .raised)
    (haction : ∀ outcome, reply = .returned outcome → action = .answer task reply) :
    Grows channel action after where
  records := by
    rintro jobId leaseId (⟨message, hentry⟩ | ⟨other, message, deadline, owner, duration, lease,
      hother, hlease⟩)
    · exact Or.inl (Or.inl ⟨message, hheld ▸ hentry⟩)
    · rcases eq_some_of_update htasks hother with ⟨-, hset⟩ | ⟨-, hold⟩
      · obtain ⟨rfl, hreply⟩ := Task.mk.inj (Option.some.inj hset)
        obtain rfl := Option.some.inj hreply
        obtain rfl : earlier = none := hearlier.resolve_right Reply.noConfusion
        exact Or.inr ⟨task, message, deadline, owner, duration, lease, haction _ rfl, htask, hlease⟩
      · exact Or.inl (Or.inr ⟨other, message, deadline, owner, duration, lease, hold, hlease⟩)
  retiring := by
    rintro jobId ⟨other, state, hother, hmem⟩
    rcases eq_some_of_update htasks hother with ⟨-, hset⟩ | ⟨-, hold⟩
    · obtain rfl := Option.some.inj hset
      cases frame with
      | sweepRetire =>
        cases reply with
        | returned outcome =>
          cases outcome with
          | jobIds ids =>
            obtain rfl : earlier = none := hearlier.resolve_right Reply.noConfusion
            exact Or.inr ⟨task, ids, haction _ rfl, htask, hmem⟩
          | _ => exact absurd hmem List.not_mem_nil
        | _ => exact absurd hmem List.not_mem_nil
      | sweepRetireSettle message rest => exact Or.inl ⟨task, _, htask, hmem⟩
      | _ => exact absurd hmem List.not_mem_nil
    · exact Or.inl ⟨other, state, hold, hmem⟩
  lapsing := by
    rintro jobId ⟨other, state, hother, hmem⟩
    rcases eq_some_of_update htasks hother with ⟨-, hset⟩ | ⟨-, hold⟩
    · obtain rfl := Option.some.inj hset
      cases frame with
      | sweepLapsed now =>
        cases reply with
        | returned outcome =>
          cases outcome with
          | jobIds ids =>
            obtain rfl : earlier = none := hearlier.resolve_right Reply.noConfusion
            exact Or.inr ⟨task, ids, now, haction _ rfl, htask, hmem⟩
          | _ => exact absurd hmem List.not_mem_nil
        | _ => exact absurd hmem List.not_mem_nil
      | sweepLapsedSettle message listed rest now => exact Or.inl ⟨task, _, htask, hmem⟩
      | sweepRepublish listed rest now =>
        rcases hearlier with rfl | rfl
        · cases reply with
          | raised => exact absurd hmem List.not_mem_nil
          | _ => exact Or.inl ⟨task, _, htask, hmem⟩
        · exact absurd hmem List.not_mem_nil
      | _ => exact absurd hmem List.not_mem_nil
    · exact Or.inl ⟨other, state, hold, hmem⟩

/-- A claim that succeeded makes the entry that its reply announced. -/
theorem grows_claimed {task : ℕ} {message : Message} {jobId : Uuid} {deadline : Instant}
    {owner : String} {duration : Duration} {lease : Lease} (action : Action) (time : Instant)
    (htask : channel.tasks task = some ⟨.reserveClaim message jobId deadline owner duration,
      some (.returned (.claimed (some lease)))⟩) :
    Grows channel action (channel.proceed task (channel.consumer.resume config time
      (.reserveClaim message jobId deadline owner duration)
      (.returned (.claimed (some lease))))) where
  records := by
    rintro other leaseId (⟨found, hentry⟩ | ⟨otherTask, found, limit, name, length, granted, hother,
      hlease⟩)
    · by_cases hjob : other = jobId
      · subst hjob
        simp only [proceed, setTask_consumer, Consumer.resume, Function.update_self,
          Option.some.injEq, Prod.mk.injEq] at hentry
        exact Or.inl (Or.inr ⟨task, message, deadline, owner, duration, lease, htask, hentry.1⟩)
      · simp only [proceed, setTask_consumer, Consumer.resume, Function.update_of_ne hjob] at hentry
        exact Or.inl (Or.inl ⟨found, hentry⟩)
    · rcases proceed_eq_some hother with ⟨-, frame, hnext, -⟩ | ⟨-, hold⟩
      · exact absurd hnext (by simp [Consumer.resume])
      · exact Or.inl (Or.inr ⟨otherTask, found, limit, name, length, granted, hold, hlease⟩)
  retiring := by
    rintro other ⟨otherTask, state, hother, hmem⟩
    rcases proceed_eq_some hother with ⟨-, frame, hnext, -⟩ | ⟨-, hold⟩
    · exact absurd hnext (by simp [Consumer.resume])
    · exact Or.inl ⟨otherTask, state, hold, hmem⟩
  lapsing := by
    rintro other ⟨otherTask, state, hother, hmem⟩
    rcases proceed_eq_some hother with ⟨-, frame, hnext, -⟩ | ⟨-, hold⟩
    · exact absurd hnext (by simp [Consumer.resume])
    · exact Or.inl ⟨otherTask, state, hold, hmem⟩

/-- What any step of a channel lets the object record and a sweep go through. -/
theorem grows_of_step {action : Action} (h : channel.step config action = some after) :
    Grows channel action after := by
  rcases step_cases h with ⟨body, rfl, rfl⟩ | ⟨task, call, time, rfl, -, rfl⟩ |
    ⟨task, reply, frame, earlier, rfl, htask, -, hearlier, rfl⟩ |
    ⟨task, frame, message, rfl, htask, -, rfl⟩ | ⟨task, time, frame, reply, rfl, htask, rfl⟩
  · exact ⟨fun _ _ h ↦ Or.inl h, fun _ h ↦ Or.inl h, fun _ h ↦ Or.inl h⟩
  · exact grows_proceed _ .start (fun _ hmem ↦ absurd hmem List.not_mem_nil)
      fun _ hmem ↦ absurd hmem List.not_mem_nil
  · exact grows_reply _ rfl rfl htask hearlier fun _ _ ↦ rfl
  · exact grows_reply _ rfl rfl htask (Or.inl rfl) fun _ hreturned ↦ nomatch hreturned
  · by_cases hclaim : ∃ message jobId deadline owner duration lease,
        frame = .reserveClaim message jobId deadline owner duration ∧
        reply = .returned (.claimed (some lease))
    · obtain ⟨message, jobId, deadline, owner, duration, lease, rfl, rfl⟩ := hclaim
      exact grows_claimed _ time htask
    · refine grows_proceed _ (Consumer.resume_sweeps _ config time frame reply ?_)
        (fun jobId hmem ↦ ⟨task, _, htask, hmem⟩) fun jobId hmem ↦ ⟨task, _, htask, hmem⟩
      intro message jobId deadline owner lease granted hframe hreply
      exact hclaim ⟨message, jobId, deadline, owner, lease, granted, hframe, hreply⟩

/-- An object with nothing to record and a sweep with nothing to go through that were not there
before. -/
structure Shrinks (channel after : Channel) : Prop where
  records : ∀ jobId leaseId, after.Records jobId leaseId → channel.Records jobId leaseId
  retiring : ∀ jobId, after.Retiring jobId → channel.Retiring jobId
  lapsing : ∀ jobId, after.Lapsing jobId → channel.Lapsing jobId

theorem Shrinks.refl (channel : Channel) : channel.Shrinks channel :=
  ⟨fun _ _ h ↦ h, fun _ h ↦ h, fun _ h ↦ h⟩

/-- A new object records nothing. -/
theorem Shrinks.new (channel : Channel) : channel.Shrinks .new where
  records := by
    rintro jobId leaseId (⟨message, hheld⟩ | ⟨task, _, _, _, _, _, htask, -⟩)
    · exact nomatch hheld
    · exact nomatch htask
  retiring := by
    rintro jobId ⟨task, state, htask, -⟩
    exact nomatch htask
  lapsing := by
    rintro jobId ⟨task, state, htask, -⟩
    exact nomatch htask

/-- A step that brings no reply of the store. -/
theorem Grows.shrinks {action : Action} (h : Grows channel action after)
    (hquiet : ∀ task outcome, action ≠ .answer task (.returned outcome)) :
    channel.Shrinks after where
  records := by
    intro jobId leaseId hrecords
    refine (h.records jobId leaseId hrecords).resolve_right ?_
    rintro ⟨task, _, _, _, _, _, haction, -⟩
    exact hquiet task _ haction
  retiring := by
    intro jobId hretiring
    refine (h.retiring jobId hretiring).resolve_right ?_
    rintro ⟨task, _, haction, -⟩
    exact hquiet task _ haction
  lapsing := by
    intro jobId hlapsing
    refine (h.lapsing jobId hlapsing).resolve_right ?_
    rintro ⟨task, _, _, haction, -⟩
    exact hquiet task _ haction

end Channel

/-! ### The invariant -/

variable {Instance : Type}

/-- The lease is a live claim of the job: the row is running under it, and its deadline has not
passed. -/
def System.Live (system : System Instance) (jobId leaseId : Uuid) : Prop :=
  LiveUnder leaseId system.now (jobRow system.database jobId)

/-- What a sweep relies on: the jobs of its first list are finished, and those of its second have no
live claim that its own object records. -/
structure Swept (system : System Instance) : Prop where
  shape : ∀ jobId, HasShape (jobRow system.database jobId)
  retiring : ∀ consumer jobId, (system.channels consumer).Retiring jobId →
    ∃ row, jobRow system.database jobId = some row ∧ row.state.terminal = true
  lapsing : ∀ consumer jobId leaseId, (system.channels consumer).Lapsing jobId →
    (system.channels consumer).Records jobId leaseId → ¬ system.Live jobId leaseId

theorem Swept.initial : Swept (System.initial Instance) where
  shape := by
    intro jobId found hfound
    exact nomatch hfound
  retiring := by
    rintro consumer jobId ⟨task, state, htask, -⟩
    exact nomatch htask
  lapsing := by
    rintro consumer jobId leaseId ⟨task, state, htask, -⟩
    exact nomatch htask

/-- A step that commits nothing and brings no reply of the store. -/
theorem Swept.quiet {before after : System Instance} (h : Swept before)
    (hdatabase : after.database = before.database) (hnow : before.now ≤ after.now)
    (hchannels : ∀ consumer, (before.channels consumer).Shrinks (after.channels consumer)) :
    Swept after where
  shape := by
    rw [hdatabase]
    exact h.shape
  retiring := by
    intro consumer jobId hretiring
    rw [hdatabase]
    exact h.retiring consumer jobId ((hchannels consumer).retiring jobId hretiring)
  lapsing := by
    intro consumer jobId leaseId hlapsing hrecords hlive
    have hearlier : before.Live jobId leaseId := by
      rw [System.Live, hdatabase] at hlive
      exact hlive.earlier hnow
    exact h.lapsing consumer jobId leaseId ((hchannels consumer).lapsing jobId hlapsing)
      ((hchannels consumer).records jobId leaseId hrecords) hearlier

/-- The condition on a step: while a sweep has a lapsed job to go through, no extension of a lease
that its object records for the job takes effect, no claim of the job by the object itself does, and
a claim draws no token that the object records. -/
def LeavesLapsed (system : System Instance) : Event Instance → Prop
  | .store consumer task drawn _ =>
    ∀ sweeper jobId row, (system.channels sweeper).Lapsing jobId →
      jobRow system.database jobId = some row →
      (∀ lease duration,
        (system.channels consumer).tasks task = some ⟨.extend lease duration, none⟩ →
        lease.job.id = jobId → row.fenced lease = true →
        ¬ (system.channels sweeper).Records jobId lease.id) ∧
      ∀ message deadline owner duration,
        (system.channels consumer).tasks task =
          some ⟨.reserveClaim message jobId deadline owner duration, none⟩ →
        (row.waiting system.now || row.lapsed system.now) = true →
        sweeper ≠ consumer ∧ ¬ (system.channels sweeper).Records jobId drawn
  | _ => True

section Steps

variable [DecidableEq Instance] {config : Instance → Config} {system after : System Instance}

/-- A step of one object that brings no reply of the store. -/
theorem Swept.act (h : Swept system) {consumer : Instance} {action : Action}
    (hquiet : ∀ task outcome, action ≠ .answer task (.returned outcome))
    (hact : system.act config consumer action = some after) : Swept after := by
  obtain ⟨channel, hstep, rfl⟩ := System.act_eq hact
  refine h.quiet rfl (le_refl _) fun other ↦ ?_
  by_cases hother : other = consumer
  · subst hother
    simp only [System.setChannel, Function.update_self]
    exact (Channel.grows_of_step hstep).shrinks hquiet
  · simp only [System.setChannel, Function.update_of_ne hother]
    exact .refl _

/-- A method that awaits an extension. -/
theorem Frame.extend_of_request {config : Config} {frame : Frame}
    {operation : Uuid → List Uuid → Operation} {drawn : Uuid} {scan : List Uuid} {lease : Lease}
    {duration : Duration} (hrequest : frame.request config = .store operation)
    (hoperation : operation drawn scan = .extend lease duration) :
    frame = .extend lease duration := by
  cases frame with
  | extend found length =>
    obtain rfl := Request.store.inj hrequest
    obtain ⟨rfl, rfl⟩ := Operation.extend.inj hoperation
    rfl
  | _ =>
    first
    | obtain rfl := Request.store.inj hrequest
      exact nomatch hoperation
    | exact nomatch hrequest

/-- A method that awaits a claim. -/
theorem Frame.reserveClaim_of_request {config : Config} {frame : Frame}
    {operation : Uuid → List Uuid → Operation} {drawn jobId leaseId : Uuid} {scan : List Uuid}
    {owner : String} {duration : Duration} (hrequest : frame.request config = .store operation)
    (hoperation : operation drawn scan = .claim jobId leaseId owner duration) :
    drawn = leaseId ∧
      ∃ message deadline, frame = .reserveClaim message jobId deadline owner duration := by
  cases frame with
  | reserveClaim message found deadline name length =>
    obtain rfl := Request.store.inj hrequest
    obtain ⟨rfl, rfl, rfl, rfl⟩ := Operation.claim.inj hoperation
    exact ⟨rfl, message, deadline, rfl⟩
  | _ =>
    first
    | obtain rfl := Request.store.inj hrequest
      exact nomatch hoperation
    | exact nomatch hrequest

omit [DecidableEq Instance] in
/-- A store call that the condition allows brings no recorded lease of a listed job to life. -/
theorem Swept.not_live_after (h : Swept system) {consumer sweeper : Instance} {task : ℕ}
    {frame : Frame} {operation : Uuid → List Uuid → Operation} {drawn jobId leaseId : Uuid}
    {scan : List Uuid} {outcome : Outcome} {row : Option JobRow}
    (htask : (system.channels consumer).tasks task = some ⟨frame, none⟩)
    (hrequest : frame.request (config consumer) = .store operation)
    (hleaves : LeavesLapsed system (.store consumer task drawn scan))
    (hjob : JobStep system.now jobId (operation drawn scan) outcome
      (jobRow system.database jobId) row)
    (hlapsing : (system.channels sweeper).Lapsing jobId)
    (hrecords : (system.channels sweeper).Records jobId leaseId) :
    ¬ LiveUnder leaseId system.now row := by
  intro hlive
  rcases hjob.liveUnder hlive with hold | ⟨found, lease, duration, hoperation, hrow, hsame, hfenced,
    rfl⟩ | ⟨found, owner, duration, hoperation, hrow, hreservable⟩
  · exact h.lapsing sweeper jobId leaseId hlapsing hrecords hold
  · obtain rfl := Frame.extend_of_request hrequest hoperation
    exact (hleaves sweeper jobId found hlapsing hrow).1 lease duration htask hsame hfenced hrecords
  · obtain ⟨rfl, message, deadline, rfl⟩ := Frame.reserveClaim_of_request hrequest hoperation
    exact ((hleaves sweeper jobId found hlapsing hrow).2 message deadline owner duration htask
      hreservable).2 hrecords

/-- A store call that returned. -/
theorem Swept.returned (h : Swept system) {consumer : Instance} {task : ℕ} {frame : Frame}
    {operation : Uuid → List Uuid → Operation} {drawn : Uuid} {scan : List Uuid}
    {outcome : Outcome} {database : Database} {channel : Channel}
    (htask : (system.channels consumer).tasks task = some ⟨frame, none⟩)
    (hrequest : frame.request (config consumer) = .store operation)
    (hleaves : LeavesLapsed system (.store consumer task drawn scan))
    (hperform : perform system.now (operation drawn scan) system.database = (.ok outcome, database))
    (hstep : (system.channels consumer).step (config consumer) (.answer task (.returned outcome)) =
      some channel)
    (hafter : after.database = database) (hnow : after.now = system.now)
    (hchannels : after.channels = Function.update system.channels consumer channel) :
    Swept after := by
  have hjob : ∀ jobId, JobStep system.now jobId (operation drawn scan) outcome
      (jobRow system.database jobId) (jobRow after.database jobId) := by
    intro jobId
    rw [hafter]
    exact (Postgres.perform_stepsJob hperform jobId).1
  have hgrows : ((system.channels consumer).Grows (.answer task (.returned outcome))
      (after.channels consumer)) := by
    rw [hchannels, Function.update_self]
    exact Channel.grows_of_step hstep
  have hothers : ∀ other, other ≠ consumer → after.channels other = system.channels other := by
    intro other hother
    rw [hchannels, Function.update_of_ne hother]
  have hframe : ∀ found, (system.channels consumer).tasks task = some ⟨found, none⟩ →
      found = frame := by
    intro found hfound
    exact (Task.mk.inj (Option.some.inj (hfound.symm.trans htask))).1
  constructor
  · exact fun jobId ↦ (hjob jobId).shaped (h.shape jobId)
  · intro other jobId hretiring
    have hfinished : (system.channels other).Retiring jobId →
        ∃ row, jobRow after.database jobId = some row ∧ row.state.terminal = true := by
      intro hold
      obtain ⟨row, hrow, hterminal⟩ := h.retiring other jobId hold
      have hkept := hjob jobId
      rw [hrow] at hkept
      obtain ⟨new, hnew, hsame⟩ := hkept.sameEnd (h.shape jobId row hrow) hterminal
      exact ⟨new, hnew, by rw [hsame.1, hterminal]⟩
    by_cases hother : other = consumer
    · subst hother
      rcases hgrows.retiring jobId hretiring with hold | ⟨found, ids, haction, hsweep, hmem⟩
      · exact hfinished hold
      · obtain ⟨rfl, hreturned⟩ := Action.answer.inj haction
        obtain rfl := Reply.returned.inj hreturned
        obtain rfl := hframe _ hsweep
        obtain rfl := Request.store.inj hrequest
        exact (hjob jobId).terminal_of_retired hmem
    · rw [hothers other hother] at hretiring
      exact hfinished hretiring
  · intro other jobId leaseId hlapsing hrecords hlive
    rw [System.Live, hnow] at hlive
    by_cases hother : other = consumer
    · subst hother
      rcases hgrows.lapsing jobId hlapsing with hold | ⟨found, ids, time, haction, hsweep, hmem⟩
      · rcases hgrows.records jobId leaseId hrecords with hrecorded |
          ⟨found, message, deadline, owner, duration, lease, haction, hclaim, rfl⟩
        · exact h.not_live_after htask hrequest hleaves (hjob jobId) hold hrecorded hlive
        · -- a claim of the job by the object that sweeps it
          obtain ⟨rfl, hreturned⟩ := Action.answer.inj haction
          obtain rfl := Reply.returned.inj hreturned
          obtain rfl := hframe _ hclaim
          obtain rfl := Request.store.inj hrequest
          obtain ⟨row, hrow, hreservable⟩ := (hjob jobId).reservable_of_claimed
          exact ((hleaves other jobId row hold hrow).2 message deadline owner duration htask
            hreservable).1 rfl
      · -- the job has just been listed
        obtain ⟨rfl, hreturned⟩ := Action.answer.inj haction
        obtain rfl := Reply.returned.inj hreturned
        obtain rfl := hframe _ hsweep
        obtain rfl := Request.store.inj hrequest
        obtain ⟨row, hrow, hexpired⟩ := Postgres.expired_of_mem_lapsedReservable hperform hmem
        rw [hafter, hrow] at hlive
        exact Postgres.not_liveUnder_of_expired hexpired hlive
    · rw [hothers other hother] at hlapsing hrecords
      exact h.not_live_after htask hrequest hleaves (hjob jobId) hlapsing hrecords hlive

/-- A store call that a method awaits commits or raises. -/
theorem Swept.commit (h : Swept system) {consumer : Instance} {task : ℕ} {frame : Frame}
    {operation : Uuid → List Uuid → Operation} {drawn : Uuid} {scan : List Uuid}
    (htask : (system.channels consumer).tasks task = some ⟨frame, none⟩)
    (hrequest : frame.request (config consumer) = .store operation)
    (hleaves : LeavesLapsed system (.store consumer task drawn scan))
    (hcommit : system.commit config consumer task frame (operation drawn scan) = some after) :
    Swept after := by
  obtain ⟨acted, hact, hafter⟩ := Option.map_eq_some_iff.mp hcommit
  obtain ⟨reply, database, hperform⟩ : ∃ reply database, perform system.now
      (operation drawn scan) system.database = (reply, database) := ⟨_, _, rfl⟩
  rw [hperform] at hact hafter
  cases reply with
  | ok outcome =>
    obtain ⟨channel, hstep, rfl⟩ := System.act_eq hact
    subst hafter
    exact h.returned htask hrequest hleaves hperform hstep rfl rfl rfl
  | error error =>
    have hacted : Swept acted := h.act (fun found outcome ↦ by simp [replyOf]) hact
    have hsame : database = acted.database := by
      obtain ⟨channel, -, rfl⟩ := System.act_eq hact
      exact Postgres.perform_error hperform
    subst hafter
    exact hacted.quiet hsame (le_refl _) fun _ ↦ .refl _

/-- Every step that meets the condition keeps the invariant. -/
theorem Swept.step (h : Swept system) {event : Event Instance} (hleaves : LeavesLapsed system event)
    (hstep : system.step config event = some after) : Swept after := by
  cases event with
  | tick duration =>
    rw [← Option.some.inj hstep]
    exact h.quiet rfl (le_add_of_nonneg_right (Int.natCast_nonneg duration)) fun _ ↦ .refl _
  | chat operation =>
    simp only [System.step] at hstep
    split at hstep
    · rename_i hchat
      rw [← Option.some.inj hstep]
      have hrows : ∀ jobId, jobRow (perform system.now operation system.database).2 jobId =
          jobRow system.database jobId := Postgres.jobRow_of_onChat hchat _
      refine ⟨fun jobId ↦ ?_, fun consumer jobId hretiring ↦ ?_, fun consumer jobId leaseId hlapsing
        hrecords hlive ↦ ?_⟩
      · rw [hrows]
        exact h.shape jobId
      · rw [hrows]
        exact h.retiring consumer jobId hretiring
      · rw [System.Live, hrows] at hlive
        exact h.lapsing consumer jobId leaseId hlapsing hrecords hlive
    · exact absurd hstep (by simp)
  | deliver consumer jobId =>
    simp only [System.step] at hstep
    split at hstep
    · have hwork : Swept { system with work := system.work.erase jobId } :=
        h.quiet rfl (le_refl _) fun _ ↦ .refl _
      exact hwork.act (by simp) hstep
    · exact absurd hstep (by simp)
  | expire jobId ready =>
    simp only [System.step] at hstep
    split at hstep
    · rw [← Option.some.inj hstep]
      exact h.quiet rfl (le_refl _) fun _ ↦ .refl _
    · exact absurd hstep (by simp)
  | start consumer task call time => exact h.act (by simp) hstep
  | store consumer task drawn scan =>
    simp only [System.step] at hstep
    split at hstep
    · rename_i frame htask
      split at hstep
      · rename_i operation hrequest
        exact h.commit htask hrequest hleaves hstep
      · exact absurd hstep (by simp)
    · exact absurd hstep (by simp)
  | publish consumer task =>
    simp only [System.step] at hstep
    split at hstep
    · split at hstep
      · rename_i jobId delay hrequest
        have hput : Swept (system.put jobId delay) :=
          h.quiet (by simp) (le_of_eq (by simp)) fun consumer ↦ by
            rw [System.put_channels]
            exact .refl _
        exact hput.act (by simp) hstep
      · exact absurd hstep (by simp)
    · exact absurd hstep (by simp)
  | settle consumer task => exact h.act (by simp) hstep
  | fail consumer task => exact h.act (by simp) hstep
  | wake consumer task timedOut =>
    refine h.act (fun found outcome ↦ ?_) hstep
    cases timedOut <;> simp
  | resume consumer task time => exact h.act (by simp) hstep
  | crash consumer =>
    rw [← Option.some.inj hstep]
    refine h.quiet rfl (le_refl _) fun other ↦ ?_
    by_cases hother : other = consumer
    · subst hother
      simp only [System.setChannel, Function.update_self]
      exact .new _
    · simp only [System.setChannel, Function.update_of_ne hother]
      exact .refl _

theorem System.Run.swept (h : System.Run config LeavesLapsed system) : Swept system := by
  induction h with
  | initial => exact .initial
  | step before event hleaves hstep ih => exact ih.step hleaves hstep

end Steps

/-! ### The theorem -/

/-- A sweep goes on, takes the entry of a job out of `_held`, and acks its delivery. -/
structure SweepAcks [DecidableEq Instance] (config : Instance → Config)
    (system after : System Instance) (consumer : Instance) (task : ℕ) (jobId leaseId : Uuid)
    (message : Message) : Prop where
  resumes : ∃ frame reply time, (system.channels consumer).tasks task = some ⟨frame, some reply⟩ ∧
    frame.sweeps = true ∧ system.step config (.resume consumer task time) = some after
  recorded : (system.channels consumer).consumer.held jobId = some (leaseId, message)
  dropped : (after.channels consumer).consumer.held jobId = none
  settles : ∃ frame, (after.channels consumer).tasks task = some ⟨frame, none⟩ ∧
    frame.request (config consumer) = .settle message

/-- A sweep drops only the deliveries of jobs it has listed. -/
theorem SweepAcks.listed [DecidableEq Instance] {config : Instance → Config}
    {system after : System Instance} {consumer : Instance} {task : ℕ} {jobId leaseId : Uuid}
    {message : Message} (h : SweepAcks config system after consumer task jobId leaseId message) :
    (system.channels consumer).Retiring jobId ∨ (system.channels consumer).Lapsing jobId := by
  obtain ⟨frame, reply, time, htask, hsweeps, hstep⟩ := h.resumes
  obtain ⟨channel, hchannel, rfl⟩ := System.act_eq hstep
  have hproceeds : channel = (system.channels consumer).proceed task
      ((system.channels consumer).consumer.resume (config consumer) time frame reply) := by
    simp only [Channel.step, htask] at hchannel
    exact (Option.some.inj hchannel).symm
  have hsweep := (system.channels consumer).consumer.resume_sweeps (config consumer) time
    frame reply
    fun _ _ _ _ _ _ hclaim ↦ by
      rw [hclaim] at hsweeps
      exact absurd hsweeps Bool.false_ne_true
  have hdropped := h.dropped
  rw [hproceeds] at hdropped
  simp only [System.setChannel, Function.update_self] at hdropped
  rcases hsweep.held jobId with hsame | ⟨-, hlisted⟩
  · exact absurd (hdropped.symm.trans (hsame.trans h.recorded)) (by simp)
  · rcases hlisted hsweeps with hretiring | hlapsing
    · exact Or.inl ⟨task, _, htask, hretiring⟩
    · exact Or.inr ⟨task, _, htask, hlapsing⟩

/-- Maintenance drops no delivery of a live claim. In every run of any number of queue objects on
one database and one broker, each with any number of methods in progress, in which no extension and
no claim takes effect in the way of a sweep, a sweep that acks a delivery recorded under a lease
finds the lease not live: its job's row is not running under it with a deadline that has not
passed. -/
theorem sweep_acks_no_live_claim {Instance : Type} [DecidableEq Instance]
    {config : Instance → Config} {system after : System Instance}
    (h : System.Run config LeavesLapsed system) {consumer : Instance} {task : ℕ}
    {jobId leaseId : Uuid} {message : Message}
    (hacks : SweepAcks config system after consumer task jobId leaseId message) :
    ¬ system.Live jobId leaseId := by
  have hswept := h.swept
  rcases hacks.listed with hretiring | hlapsing
  · obtain ⟨row, hrow, hterminal⟩ := hswept.retiring consumer jobId hretiring
    rw [System.Live, hrow]
    exact Postgres.not_liveUnder_of_terminal hterminal
  · exact hswept.lapsing consumer jobId leaseId hlapsing (Or.inl ⟨message, hacks.recorded⟩)

/-- A store call that is neither an extension nor a claim meets the condition. -/
theorem leavesLapsed_of_frame {system : System Instance} {consumer : Instance} {task : ℕ}
    {drawn : Uuid} {scan : List Uuid} (frame : Frame)
    (htask : (system.channels consumer).tasks task = some ⟨frame, none⟩)
    (hextend : ∀ lease duration, frame ≠ .extend lease duration)
    (hclaim : ∀ message jobId deadline owner duration,
      frame ≠ .reserveClaim message jobId deadline owner duration) :
    LeavesLapsed system (.store consumer task drawn scan) := by
  intro sweeper jobId row hlapsing hrow
  constructor
  · intro lease duration hfound
    exact absurd (Task.mk.inj (Option.some.inj (htask.symm.trans hfound))).1
      (hextend lease duration)
  · intro message deadline owner duration hfound
    exact absurd (Task.mk.inj (Option.some.inj (htask.symm.trans hfound))).1
      (hclaim message jobId deadline owner duration)

/-- One object enqueues a job, claims it for ten microseconds, and sweeps after eleven: the sweep
has listed the job as lapsed. -/
def lapsedAndListed : List (Event Unit) :=
  [.start () 0 (.enqueue ⟨"noop", .nil, none, "key", 3, 0⟩) 0,
    .store () 0 ⟨9⟩ [],
    .resume () 0 0,
    .publish () 0,
    .deliver () ⟨9⟩,
    .start () 1 (.reserve "a" 10 0) 0,
    .store () 1 ⟨21⟩ [],
    .resume () 1 0,
    .tick 11,
    .start () 2 .sweep 11,
    .store () 2 ⟨0⟩ [⟨9⟩],
    .resume () 2 11,
    .store () 2 ⟨0⟩ [⟨9⟩]]

/-- The lease of a job that lapsed is not live when its delivery is acked. -/
theorem sweep_acks_no_live_claim_lapsed :
    ∃ system after : System Unit, ∃ message,
      SweepAcks (fun _ ↦ ⟨1, 30000000, 120000000⟩) system after () 2 ⟨9⟩ ⟨21⟩ message ∧
      ¬ system.Live ⟨9⟩ ⟨21⟩ := by
  have hadded : System.Run (fun _ : Unit ↦ ⟨1, 30000000, 120000000⟩) LeavesLapsed _ :=
    .step .initial (.start () 0 (.enqueue ⟨"noop", .nil, none, "key", 3, 0⟩) 0) trivial rfl
  have hinserted := hadded.step (.store () 0 ⟨9⟩ [])
    (leavesLapsed_of_frame (.enqueueInsert _) rfl (fun _ _ h ↦ Frame.noConfusion h)
      fun _ _ _ _ _ h ↦ Frame.noConfusion h) rfl
  have hpublished := (hinserted.step (.resume () 0 0) trivial rfl).step (.publish () 0) trivial rfl
  have hreserved := (hpublished.step (.deliver () ⟨9⟩) trivial rfl).step
    (.start () 1 (.reserve "a" 10 0) 0) trivial rfl
  -- the claim is not in the way of a sweep: none is in progress
  have hclaimed := hreserved.step (.store () 1 ⟨21⟩ [])
    (fun _ _ _ hlapsing _ ↦ by
      obtain ⟨task, state, htask, hmem⟩ := hlapsing
      match task, htask with
      | 0, htask =>
        obtain rfl := Option.some.inj htask
        exact absurd hmem List.not_mem_nil
      | 1, htask =>
        obtain rfl := Option.some.inj htask
        exact absurd hmem List.not_mem_nil
      | _ + 2, htask => exact nomatch htask) rfl
  have hlapsed := (hclaimed.step (.resume () 1 0) trivial rfl).step (.tick 11) trivial rfl
  have hretired := (hlapsed.step (.start () 2 .sweep 11) trivial rfl).step (.store () 2 ⟨0⟩ [⟨9⟩])
    (leavesLapsed_of_frame .sweepRetire rfl (fun _ _ h ↦ Frame.noConfusion h)
      fun _ _ _ _ _ h ↦ Frame.noConfusion h) rfl
  have hrun := (hretired.step (.resume () 2 11) trivial rfl).step (.store () 2 ⟨0⟩ [⟨9⟩])
    (leavesLapsed_of_frame (.sweepLapsed 11) rfl (fun _ _ h ↦ Frame.noConfusion h)
      fun _ _ _ _ _ h ↦ Frame.noConfusion h) rfl
  obtain ⟨system, hsystem, after, hacks⟩ : ∃ system,
      System.Run (fun _ : Unit ↦ ⟨1, 30000000, 120000000⟩) LeavesLapsed system ∧ ∃ after,
      SweepAcks (fun _ ↦ ⟨1, 30000000, 120000000⟩) system after () 2 ⟨9⟩ ⟨21⟩ ⟨0, some ⟨9⟩⟩ :=
    ⟨_, hrun, _, ⟨_, _, 11, rfl, rfl, rfl⟩, rfl, rfl, _, rfl, rfl⟩
  exact ⟨system, after, _, hacks, sweep_acks_no_live_claim hsystem hacks⟩

/-- Before the sweep goes on, its own object extends the lease of the job it has listed. -/
def extendedWhileSwept : List (Event Unit) :=
  lapsedAndListed ++
    [.start () 3 (.extend ⟨⟨21⟩,
      ⟨⟨9⟩, "noop", .nil, .running, 1, 3, none, "key", none, none, false⟩, "a", 10⟩ 100) 11,
      .store () 3 ⟨0⟩ []]

/-- The sweep acks the delivery of a claim that is live again. -/
theorem live_claim_acked : ¬ ∀ (config : Unit → Config) (system after : System Unit) (task : ℕ)
    (jobId leaseId : Uuid) (message : Message), System.Run config (fun _ _ ↦ True) system →
      SweepAcks config system after () task jobId leaseId message →
      ¬ system.Live jobId leaseId := by
  intro h
  obtain ⟨system, hsteps, after, message, hacks, hlive⟩ : ∃ system,
      (System.initial Unit).steps (fun _ ↦ ⟨1, 30000000, 120000000⟩) extendedWhileSwept =
        some system ∧ ∃ after message,
      SweepAcks (fun _ ↦ ⟨1, 30000000, 120000000⟩) system after () 2 ⟨9⟩ ⟨21⟩ message ∧
      system.Live ⟨9⟩ ⟨21⟩ :=
    ⟨_, rfl, _, ⟨0, some ⟨9⟩⟩, ⟨⟨_, _, 11, rfl, rfl, rfl⟩, rfl, rfl, _, rfl, rfl⟩,
      _, rfl, rfl, rfl, rfl⟩
  exact h _ system after 2 ⟨9⟩ ⟨21⟩ message (.steps .initial hsteps) hacks hlive

end Abacus.RabbitMQ
