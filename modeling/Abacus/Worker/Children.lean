import Abacus.Postgres.Budget
import Abacus.Worker.Effect

/-!
# The children of a job

Every child is started under a lease of its own, which a successful claim of its job has granted
(`Fleet.Spawns`). The claims of a job are its attempts, and the attempts stay within its budget, so
no more children are started for a job than it has attempts (`attempt_budget`).
-/

set_option autoImplicit false
set_option relaxedAutoImplicit false

namespace Abacus.Worker

open Postgres (Budget Commit Entry HasBudget JobRow Operation jobRow)

/-! ### The tokens granted -/

/-- The tokens that the claims of a job were granted, in a run of the store. -/
def granted (jobId : Uuid) (history : List Entry) : List Uuid :=
  history.filterMap (Entry.granted jobId)

theorem granted_append (jobId : Uuid) (history : List Entry) (entry : Entry) :
    granted jobId (history ++ [entry]) =
      granted jobId history ++ (entry.granted jobId).toList := by
  rw [granted, List.filterMap_append]
  rfl

/-- A call was granted a token if it is a successful claim. -/
theorem length_granted (jobId : Uuid) (call : Postgres.Call) (outcome : Postgres.Outcome) :
    ((⟨call, .ok outcome⟩ : Entry).granted jobId).toList.length =
      if call.operation.claims jobId outcome then 1 else 0 := by
  obtain ⟨now, operation⟩ := call
  cases operation with
  | claim claimedId leaseId owner lease =>
    cases outcome with
    | claimed lease =>
      cases lease with
      | none => rfl
      | some lease =>
        by_cases hjob : claimedId = jobId
        · simp [Entry.granted, Operation.claims, hjob]
        · simp [Entry.granted, Operation.claims, hjob]
    | _ => rfl
  | _ => rfl

/-- Along a run of atomic calls the row of a job keeps to its budget. -/
theorem hasBudget_of_run {history : List Entry} {database : Postgres.Database}
    (h : Postgres.Run history database) (jobId : Uuid) :
    HasBudget (granted jobId history).length (jobRow database jobId) := by
  induction h with
  | empty => rfl
  | @step history database before call hclock hfresh ih =>
    rw [granted_append, List.length_append]
    rcases Postgres.perform_jobStep call.now call.operation database jobId with
      ⟨outcome, hreply, hstep⟩ | ⟨error, hreply, hsame⟩
    · rw [hreply, length_granted]
      exact hstep.budget ih
    · have hnone : (⟨call, .error error⟩ : Entry).granted jobId = none := by
        obtain ⟨now, operation⟩ := call
        cases operation <;> rfl
      rw [hreply, hnone, hsame]
      exact ih

/-! ### The children started -/

section Steps

variable {Worker : Type} [DecidableEq Worker] {config : Worker → WorkerConfig}
  {owner : Worker → String} {fleet after : Fleet Worker}

omit [DecidableEq Worker] in
/-- The lease under which a step starts a child for the job, if it does. -/
def Fleet.starts (jobId : Uuid) (fleet : Fleet Worker) : Event Worker → List Uuid
  | .input worker (.spawned _) =>
    match (fleet.workers worker).stage with
    | .spawning lease => if lease.job.id = jobId then [lease.id] else []
    | _ => []
  | _ => []

/-- The leases under which the children of a job are started over a run. -/
def Fleet.children (config : Worker → WorkerConfig) (owner : Worker → String) (jobId : Uuid)
    (fleet : Fleet Worker) : List (Event Worker) → List Uuid
  | [] => []
  | event :: events =>
    fleet.starts jobId event ++
      match fleet.step config owner event with
      | some next => next.children config owner jobId events
      | none => []

/-- The children started so far have leases of their own that the job was granted, and so will
those that are about to be started. -/
structure Fleet.Spawns (jobId : Uuid) (started : List Uuid) (fleet : Fleet Worker) : Prop where
  nodup : started.Nodup
  claimed : started ⊆ granted jobId fleet.history
  spawning : ∀ worker lease, (fleet.workers worker).stage = .spawning lease →
    lease.job.id = jobId → lease.id ∈ granted jobId fleet.history ∧ lease.id ∉ started

/-- Only a reservation brings a supervisor to the point of starting a child. -/
theorem Fleet.resume_spawning {worker other : Worker} {input : Input} {lease : Lease}
    (h : fleet.resume config worker input = some after)
    (hstart : ∀ lease, input ≠ .reserved (some lease))
    (hspawning : (after.workers other).stage = .spawning lease) :
    other ≠ worker ∧ (fleet.workers other).stage = .spawning lease := by
  obtain ⟨stage, hstage, rfl⟩ := Option.map_eq_some_iff.mp h
  by_cases hother : other = worker
  · subst hother
    simp only [Fleet.advance, Function.update_self] at hspawning
    exact absurd hspawning ((Supervisor.resume_follows hstart hstage).starts.2 lease)
  · simp only [Fleet.advance, Function.update_of_ne hother] at hspawning
    exact ⟨hother, hspawning⟩

omit [DecidableEq Worker] in
/-- A supervisor that begins again is not about to start a child. -/
theorem Fleet.setWorker_idle_spawning [DecidableEq Worker] {worker other : Worker} {lease : Lease}
    (hspawning : ((fleet.setWorker worker .idle).workers other).stage = .spawning lease) :
    (fleet.workers other).stage = .spawning lease := by
  by_cases hother : other = worker
  · subst hother
    simp [Fleet.setWorker, Process.idle] at hspawning
  · simpa only [Fleet.setWorker, Function.update_of_ne hother] using hspawning

/-- A lease that a claim returned is of the job that was claimed. -/
theorem job_of_claimed {now : Instant} {jobId leaseId : Uuid} {name : String} {duration : Duration}
    {database : Postgres.Database} {lease : Lease}
    (h : (Postgres.perform now (.claim jobId leaseId name duration) database).1 =
      .ok (.claimed (some lease))) : lease.job.id = jobId := by
  rcases Postgres.perform_jobStep now (.claim jobId leaseId name duration) database jobId with
    ⟨outcome, hreply, hstep⟩ | ⟨error, hreply, -⟩
  · obtain rfl : outcome = .claimed (some lease) := Except.ok.inj (hreply.symm.trans h)
    generalize jobRow database jobId = before at hstep
    generalize jobRow (Postgres.perform now _ database).2 jobId = new at hstep
    cases hstep with
    | unchanged row hmoves => simp [Operation.moves] at hmoves
    | claimed row => rfl
  · exact absurd (hreply.symm.trans h) (by simp)

/-- A supervisor about to start a child was so before the step, which does not start it, or has just
been granted its lease by a token never drawn before. -/
theorem Fleet.step_spawning {event : Event Worker} {worker : Worker} {lease : Lease}
    (hstep : fleet.step config owner event = some after)
    (hspawning : (after.workers worker).stage = .spawning lease) :
    ((fleet.workers worker).stage = .spawning lease ∧
      ∀ time, event ≠ .input worker (.spawned time)) ∨
    ∃ entry, after.history = fleet.history ++ [entry] ∧
      entry.granted lease.job.id = some lease.id ∧ ¬fleet.Drawn lease.id := by
  cases step_moves hstep with
  | tick duration => exact Or.inl ⟨hspawning, by simp⟩
  | client operation hclient => exact Or.inl ⟨hspawning, by simp⟩
  | unheard => exact Or.inl ⟨hspawning, by simp⟩
  | heard caller jobId drawn lost clock operation input hcall hfresh hinput hresume =>
    rcases Stage.reply_cases hinput with ⟨found, hstage, hreply, rfl⟩ | ⟨_, _, _, -, -, rfl⟩ |
      ⟨hreserved, -, -⟩
    · by_cases hworker : worker = caller
      · subst hworker
        rw [hstage] at hcall
        obtain rfl := Option.some.inj hcall
        obtain ⟨stage, hnext, rfl⟩ := Option.map_eq_some_iff.mp hresume
        rw [show (fleet.perform _).workers worker = fleet.workers worker from rfl, hstage] at hnext
        obtain rfl := Option.some.inj hnext
        simp only [Fleet.advance, Function.update_self] at hspawning
        obtain rfl := Stage.spawning.inj hspawning
        refine Or.inr ⟨_, rfl, ?_, ?_⟩
        · simp only [Entry.granted, hreply, job_of_claimed hreply, if_true]
        · rintro ⟨entry, hentry, htoken⟩
          rw [Postgres.claim_lease_id hreply] at htoken
          exact hfresh entry hentry htoken
      · obtain ⟨stage, -, rfl⟩ := Option.map_eq_some_iff.mp hresume
        simp only [Fleet.advance, Function.update_of_ne hworker] at hspawning
        exact Or.inl ⟨hspawning, by simp⟩
    · exact Or.inl ⟨(resume_spawning hresume (by simp) hspawning).2, by simp⟩
    · exact Or.inl ⟨(resume_spawning hresume hreserved hspawning).2, by simp⟩
  | notStored caller applied error handled solved hputting hresume =>
    exact Or.inl ⟨(resume_spawning hresume (by simp) hspawning).2, by simp⟩
  | stored caller applied handled solved hputting hresume =>
    exact Or.inl ⟨(resume_spawning hresume (by simp) hspawning).2, by simp⟩
  | child caller read exitcode lease hrunning hcollected =>
    refine Or.inl ⟨?_, by simp⟩
    by_cases hworker : worker = caller
    · subst hworker
      simpa only [Fleet.setWorker, Function.update_self] using hspawning
    · simpa only [Fleet.setWorker, Function.update_of_ne hworker] using hspawning
  | input caller input hallows hresume =>
    have hnever : ∀ lease, input ≠ .reserved (some lease) := by
      rintro lease rfl
      cases hstage : (fleet.workers caller).stage <;> simp [hstage, Stage.allows] at hallows
    obtain ⟨hworker, hbefore⟩ := resume_spawning hresume hnever hspawning
    refine Or.inl ⟨hbefore, fun time hevent ↦ ?_⟩
    exact hworker (Event.input.inj hevent).1.symm
  | restart caller => exact Or.inl ⟨setWorker_idle_spawning hspawning, by simp⟩
  | crash caller => exact Or.inl ⟨setWorker_idle_spawning hspawning, by simp⟩

/-- A step makes one call on the store, or none. -/
theorem Fleet.step_history {event : Event Worker} (h : fleet.step config owner event = some after) :
    after.history = fleet.history ∨ ∃ entry, after.history = fleet.history ++ [entry] := by
  have hresume : ∀ {before next : Fleet Worker} {worker : Worker} {input : Input},
      before.resume config worker input = some next → next.history = before.history := by
    intro before next worker input hresume
    obtain ⟨stage, -, rfl⟩ := Option.map_eq_some_iff.mp hresume
    rfl
  cases step_moves h with
  | tick duration => exact Or.inl rfl
  | client operation hclient => exact Or.inr ⟨_, rfl⟩
  | unheard => exact Or.inr ⟨_, rfl⟩
  | heard worker jobId drawn lost clock operation input hcall hfresh hinput hstep =>
    rw [hresume hstep]
    exact Or.inr ⟨_, rfl⟩
  | notStored worker applied error handled solved hstage hstep =>
    exact Or.inl ((hresume hstep).trans (by rw [Fleet.write]))
  | stored worker applied handled solved hstage hstep =>
    exact Or.inl ((hresume hstep).trans (by rw [Fleet.write]))
  | child => exact Or.inl rfl
  | input worker input hallows hstep => exact Or.inl (hresume hstep)
  | restart => exact Or.inl rfl
  | crash => exact Or.inl rfl

theorem Fleet.step_granted {event : Event Worker} (jobId : Uuid)
    (h : fleet.step config owner event = some after) :
    granted jobId fleet.history ⊆ granted jobId after.history := by
  rcases step_history h with hsame | ⟨entry, hentry⟩
  · rw [hsame]
    exact List.Subset.refl _
  · rw [hentry, granted_append]
    exact List.subset_append_left _ _

omit [DecidableEq Worker] in
/-- A token that a claim was granted was drawn. -/
theorem Fleet.Sound.drawn_of_granted (h : fleet.Sound) {jobId token : Uuid}
    (htoken : token ∈ granted jobId fleet.history) : fleet.Drawn token := by
  obtain ⟨entry, hentry, hgranted⟩ := List.mem_filterMap.mp htoken
  exact ⟨entry, hentry, h.run.drawn_of_granted hentry hgranted⟩

omit [DecidableEq Worker] in
/-- The lease under which a child is started is the one its supervisor has. -/
theorem Fleet.mem_starts {jobId token : Uuid} {event : Event Worker}
    (h : token ∈ fleet.starts jobId event) : ∃ worker time lease,
      event = .input worker (.spawned time) ∧ (fleet.workers worker).stage = .spawning lease ∧
        lease.job.id = jobId ∧ token = lease.id := by
  unfold Fleet.starts at h
  split at h
  · rename_i worker time
    split at h
    · rename_i lease hstage
      split_ifs at h with hjob
      · exact ⟨worker, time, lease, rfl, hstage, hjob, List.mem_singleton.mp h⟩
      · exact absurd h (by simp)
    · exact absurd h (by simp)
  · exact absurd h (by simp)

omit [DecidableEq Worker] in
theorem Fleet.starts_nodup (jobId : Uuid) (event : Event Worker) :
    (fleet.starts jobId event).Nodup := by
  unfold Fleet.starts
  split
  · split
    · split_ifs
      · exact List.nodup_singleton _
      · exact List.nodup_nil
    · exact List.nodup_nil
  · exact List.nodup_nil

/-- Every step keeps the children to their leases. -/
theorem Fleet.Spawns.step {jobId : Uuid} {started : List Uuid} {event : Event Worker}
    (h : fleet.Spawns jobId started) (hsound : fleet.Sound)
    (hstep : fleet.step config owner event = some after) :
    after.Spawns jobId (started ++ fleet.starts jobId event) := by
  have hgrows := step_granted jobId hstep
  constructor
  · refine h.nodup.append (starts_nodup jobId event) fun token hold hnew ↦ ?_
    obtain ⟨worker, time, lease, -, hstage, hjob, rfl⟩ := mem_starts hnew
    exact (h.spawning worker lease hstage hjob).2 hold
  · intro token htoken
    rcases List.mem_append.mp htoken with hold | hnew
    · exact hgrows (h.claimed hold)
    · obtain ⟨worker, time, lease, -, hstage, hjob, rfl⟩ := mem_starts hnew
      exact hgrows (h.spawning worker lease hstage hjob).1
  · intro worker lease hstage hjob
    rw [List.mem_append, not_or]
    rcases step_spawning hstep hstage with ⟨hbefore, hevent⟩ | ⟨entry, hentry, hgranted, hfresh⟩
    · obtain ⟨hclaimed, hnot⟩ := h.spawning worker lease hbefore hjob
      refine ⟨hgrows hclaimed, hnot, fun hnew ↦ ?_⟩
      obtain ⟨other, time, found, rfl, hother, -, hid⟩ := mem_starts hnew
      have hsame : worker = other := by
        refine hsound.alone worker other lease found ?_ ?_ hid
        · rw [hbefore]
          rfl
        · rw [hother]
          rfl
      exact hevent time (by rw [hsame])
    · refine ⟨?_, fun hold ↦ ?_, fun hnew ↦ ?_⟩
      · rw [hentry, granted_append, ← hjob, hgranted]
        exact List.mem_append_right _ (by simp)
      · exact hfresh (hsound.drawn_of_granted (h.claimed hold))
      · obtain ⟨other, time, found, -, hother, -, hid⟩ := mem_starts hnew
        rw [hid] at hfresh
        exact hfresh ((hsound.processes other).drawn found (by rw [hother]; rfl))

/-- Over a run the children of a job were started under leases of their own. -/
theorem Fleet.Spawns.steps {jobId : Uuid} {started : List Uuid} {events : List (Event Worker)}
    (h : fleet.Spawns jobId started) (hsound : fleet.Sound)
    (hsteps : fleet.steps config owner events = some after) :
    after.Spawns jobId (started ++ fleet.children config owner jobId events) := by
  induction events generalizing fleet started with
  | nil =>
    rw [← Option.some.inj hsteps, Fleet.children, List.append_nil]
    exact h
  | cons event events ih =>
    obtain ⟨middle, hstep, hrest⟩ := Option.bind_eq_some_iff.mp hsteps
    rw [Fleet.children, hstep, ← List.append_assoc]
    exact ih (h.step hsound hstep) (hsound.step hstep) hrest

omit [DecidableEq Worker] in
theorem Fleet.spawns_initial (jobId : Uuid) : (Fleet.initial Worker).Spawns jobId [] where
  nodup := List.nodup_nil
  claimed := List.nil_subset _
  spawning worker lease hstage := by simp [Fleet.initial, Process.idle] at hstage

end Steps

/-- The attempt budget. In every run of the job store the attempts of a job are its successful
claims and stay within `max_attempts`, and a job that waits has one left. In every run of any number
of supervisors, with whatever else calls the store, at most `max_attempts` children are started for
a job. -/
theorem attempt_budget :
    (∀ (Backend : Type) [DecidableEq Backend] (history : List Commit)
      (system : Postgres.System Backend), Postgres.Execution history system →
        ∀ jobId row, jobRow system.committed jobId = some row →
          row.attempts = history.countP (Commit.claims jobId) ∧
          row.attempts ≤ row.maxAttempts ∧
          (row.state = .queued ∨ row.state = .failed → row.attempts < row.maxAttempts)) ∧
    ∀ (Worker : Type) [DecidableEq Worker] (config : Worker → WorkerConfig)
      (owner : Worker → String) (events : List (Event Worker)) (fleet : Fleet Worker),
        (Fleet.initial Worker).steps config owner events = some fleet →
          ∀ jobId row, jobRow fleet.database jobId = some row →
            ((Fleet.initial Worker).children config owner jobId events).length ≤
              row.maxAttempts := by
  constructor
  · intro Backend _ history system h jobId row hrow
    have hbudget := Postgres.hasBudget_of_execution h jobId
    rw [hrow] at hbudget
    refine ⟨hbudget.attempts, hbudget.covered, fun hwaiting ↦ hbudget.waiting ?_⟩
    rcases hwaiting with hqueued | hfailed
    · rw [hqueued]
      rfl
    · rw [hfailed]
      rfl
  · intro Worker _ config owner events fleet hsteps jobId row hrow
    have hsound : fleet.Sound := Fleet.Sound.steps .initial hsteps
    have hbudget := hasBudget_of_run hsound.run jobId
    rw [hrow] at hbudget
    have hspawns := (Fleet.spawns_initial jobId).steps .initial hsteps
    rw [List.nil_append] at hspawns
    calc ((Fleet.initial Worker).children config owner jobId events).length
        ≤ (granted jobId fleet.history).length :=
          (hspawns.nodup.subperm hspawns.claimed).length_le
      _ = row.attempts := hbudget.attempts.symm
      _ ≤ row.maxAttempts := hbudget.covered

/-- A job of three attempts: its first worker dies with the child, so that the lease lapses; its
second child fails, and the job is given back; the third child is started after the backoff. -/
def threeAttempts : List (Event Bool) :=
  [.client (.insertOrGet ⟨9⟩ ⟨"noop", .nil, none, "key", 3, 0⟩),
    .store true ⟨9⟩ ⟨21⟩ false 0,
    .input true (.spawned 0),
    .crash true,
    .tick 61000000,
    .store false ⟨9⟩ ⟨22⟩ false 0,
    .input false (.spawned 0),
    .child false (.message (.failed ⟨"failed", "", false⟩)) 0,
    .input false (.woke true false 1),
    .store false ⟨9⟩ ⟨23⟩ false 0,
    .input false .collected,
    .restart false,
    .tick 31000000,
    .store false ⟨9⟩ ⟨24⟩ false 0,
    .input false (.spawned 0)]

/-- Its children are as many as its attempts. -/
theorem attempt_budget_reached :
    ∃ (fleet : Fleet Bool) (row : JobRow), (Fleet.initial Bool).steps
        (fun _ ↦ .defaults) (fun _ ↦ "worker")
        threeAttempts = some fleet ∧
      jobRow fleet.database ⟨9⟩ = some row ∧
      (Fleet.initial Bool).children
        (fun _ ↦ .defaults) (fun _ ↦ "worker")
        ⟨9⟩ threeAttempts = [⟨21⟩, ⟨22⟩, ⟨24⟩] ∧
      [(⟨21⟩ : Uuid), ⟨22⟩, ⟨24⟩].length ≤ row.maxAttempts ∧ row.maxAttempts = 3 := by
  have hsteps : (Fleet.initial Bool).steps
      (fun _ ↦ .defaults) (fun _ ↦ "worker")
      threeAttempts = some _ := rfl
  exact ⟨_, _, hsteps, rfl, rfl, attempt_budget.2 Bool _ _ threeAttempts _ hsteps ⟨9⟩ _ rfl, rfl⟩

end Abacus.Worker
