import Abacus.Postgres.Deduplication
import Abacus.RabbitMQ.JobQueue

/-!
# Enqueue under any race

Any number of calls of `enqueue` run beside each other and beside any other use of the two stores. A
call is a coroutine between its awaits (`EnqueueCall.next`), and each of its transactions runs on a
connection of its own (`Sum.inl`), statement by statement among all the others; the rest of the
system works on the other connections (`Sum.inr`). At any await a call may raise, or its process may
die: the transaction it had started may still commit, and the message it was sending may be on the
wire.

`enqueue_once` is about every race: a key has one row, every call that returns returns it, one call
at most is told that it created it, and the others publish nothing.
-/

set_option autoImplicit false
set_option relaxedAutoImplicit false

namespace Abacus.RabbitMQ

open Postgres (Commit Outcome Operation RowOf Indexed)
open RowLocking (Transaction)

/-! ### The calls -/

/-- A call of `enqueue`: where it is, what `insert_or_get` told it, and the messages it has put on
the wire. -/
structure EnqueueCall where
  request : JobRequest
  next : Next
  created : Option Bool
  published : ℕ

/-- The call waits for something. -/
def EnqueueCall.waiting (call : EnqueueCall) : Prop :=
  ∃ frame, call.next = .suspend frame

/-- What a call learns from a reply of the store. -/
def EnqueueCall.told (call : EnqueueCall) : Outcome → Option Bool
  | .enqueued _ created => some created
  | _ => call.created

/-- The call goes on with a reply. -/
def EnqueueCall.proceed (call : EnqueueCall) (consumer : Consumer) (config : Config)
    (time : Instant) (frame : Frame) (reply : Reply) : EnqueueCall :=
  { call with next := (consumer.resume config time frame reply).2 }

/-- The database, with the commits so far, and the calls. -/
structure Race (Other : Type) where
  history : List Commit
  database : Postgres.System (ℕ ⊕ Other)
  calls : ℕ → Option EnqueueCall

variable {Other : Type} [DecidableEq Other]

/-- The race with another state of one call. -/
def Race.setCall (race : Race Other) (task : ℕ) (call : EnqueueCall) : Race Other :=
  { race with calls := Function.update race.calls task (some call) }

/-- Nothing happens but empty tables. -/
def Race.start : Race Other where
  history := []
  database := .idle Postgres.Database.empty
  calls := fun _ ↦ none

/-- What a backend's transaction is for. -/
def running (database : Postgres.System (ℕ ⊕ Other)) (task : ℕ) : Option Postgres.Call :=
  (database.running (.inl task)).map Transaction.label

/-- One step of a race. The object of a call, its settings and its clock do not matter to it. -/
inductive Race.Step (config : Config) : Race Other → Race Other → Prop
  /-- `enqueue` is called. -/
  | call {race} (task : ℕ) (request : JobRequest) (consumer : Consumer) (time : Instant)
      (hnew : race.calls task = none) :
    Step config race
      (race.setCall task ⟨request, (consumer.start time (.enqueue request)).2, none, 0⟩)
  /-- A call begins the transaction it waits for. -/
  | begin {race} (task : ℕ) (call : EnqueueCall) (frame : Frame)
      (operation : Uuid → List Uuid → Operation) (now : Instant) (drawn : Uuid) (scan : List Uuid)
      (hcall : race.calls task = some call) (hnext : call.next = .suspend frame)
      (hstore : frame.request config = .store operation)
      (hidle : race.database.running (.inl task) = none) :
    Step config race { race with
      database := race.database.put (.inl task)
        (some (Transaction.start Postgres.Call.program ⟨now, operation drawn scan⟩)) }
  /-- A step of the database that no call waits for: a statement, anything on another connection, or
  the end of a transaction whose call is over. -/
  | database {race} (made : Option Commit) (after : Postgres.System (ℕ ⊕ Other))
      (hstep : RowLocking.Step Postgres.Call.program race.database made after)
      (hcalls : ∀ task, running after task = running race.database task ∨
        running after task = none ∧ ∀ call, race.calls task = some call → ¬call.waiting) :
    Step config race { race with history := race.history ++ made.toList, database := after }
  /-- The transaction of a call commits, and the call goes on with what it returned. -/
  | committed {race} (task : ℕ) (call : EnqueueCall) (frame : Frame) (commit : Commit)
      (after : Postgres.System (ℕ ⊕ Other)) (consumer : Consumer) (time : Instant)
      (hcall : race.calls task = some call) (hnext : call.next = .suspend frame)
      (hstep : RowLocking.Step Postgres.Call.program race.database (some commit) after)
      (hlabel : running race.database task = some commit.label)
      (hends : after.running (.inl task) = none) :
    Step config race ({ race with
      history := race.history ++ [commit]
      database := after }.setCall task
        { call.proceed consumer config time frame (.returned commit.result) with
          created := call.told commit.result })
  /-- The message of a call is on the wire, and the call goes on, or raises for want of the
  confirm. -/
  | publish {race} (task : ℕ) (call : EnqueueCall) (frame : Frame) (jobId : Uuid)
      (delay : Option Duration) (confirmed : Bool) (consumer : Consumer) (time : Instant)
      (hcall : race.calls task = some call) (hnext : call.next = .suspend frame)
      (hpublish : frame.request config = .publish jobId delay) :
    Step config race (race.setCall task
      { call.proceed consumer config time frame (if confirmed then .published else .raised) with
        published := call.published + 1 })
  /-- What a call waits for raises, or its process dies. -/
  | raise {race} (task : ℕ) (call : EnqueueCall) (frame : Frame) (consumer : Consumer)
      (time : Instant) (hcall : race.calls task = some call) (hnext : call.next = .suspend frame) :
    Step config race (race.setCall task (call.proceed consumer config time frame .raised))

/-- A run of races. -/
inductive Race.Reached (config : Config) : Race Other → Prop
  | start : Reached config .start
  | step {race after} (before : Reached config race) (step : Race.Step config race after) :
    Reached config after

/-! ### What holds of every call -/

/-- Where a call of `enqueue` can be, with what it has been told and has sent. -/
inductive Stands (database : Postgres.Database) : EnqueueCall → Prop
  | inserting (request : JobRequest) :
    Stands database ⟨request, .suspend (.enqueueInsert request), none, 0⟩
  | publishing (request : JobRequest) (job : Job) (delay : Duration)
      (hrow : RowOf request.sessionId request.idempotencyKey database job.id) :
    Stands database ⟨request, .suspend (.enqueuePublish job delay), some true, 0⟩
  | marking (request : JobRequest) (job : Job) (published : ℕ)
      (hrow : RowOf request.sessionId request.idempotencyKey database job.id) :
    Stands database ⟨request, .suspend (.enqueueMark job), some true, published⟩
  | returned (request : JobRequest) (job : Job) (created : Option Bool) (published : ℕ)
      (hrow : RowOf request.sessionId request.idempotencyKey database job.id)
      (hquiet : created ≠ some true → published = 0) :
    Stands database ⟨request, .finish (.job job), created, published⟩
  | raised (request : JobRequest) (created : Option Bool) (published : ℕ)
      (hquiet : created ≠ some true → published = 0) :
    Stands database ⟨request, .finish .raised, created, published⟩

/-- Rows that stay keep a call where it stands. -/
theorem Stands.mono {before after : Postgres.Database} {call : EnqueueCall}
    (h : Stands before call)
    (hkept : ∀ {sessionId key jobId}, RowOf sessionId key before jobId →
      RowOf sessionId key after jobId) : Stands after call := by
  cases h with
  | inserting request => exact .inserting request
  | publishing request job delay hrow => exact .publishing request job delay (hkept hrow)
  | marking request job published hrow => exact .marking request job published (hkept hrow)
  | returned request job created published hrow hquiet =>
    exact .returned request job created published (hkept hrow) hquiet
  | raised request created published hquiet => exact .raised request created published hquiet

/-- A call that did not create the row publishes nothing. -/
theorem Stands.quiet {database : Postgres.Database} {call : EnqueueCall} (h : Stands database call)
    (hcreated : call.created ≠ some true) : call.published = 0 := by
  cases h with
  | inserting request => rfl
  | publishing request job delay hrow => exact absurd rfl hcreated
  | marking request job published hrow => exact absurd rfl hcreated
  | returned request job created published hrow hquiet => exact hquiet hcreated
  | raised request created published hquiet => exact hquiet hcreated

/-- A call that returns returns the row of its key. -/
theorem Stands.row {database : Postgres.Database} {call : EnqueueCall} (h : Stands database call)
    {job : Job} (hnext : call.next = .finish (.job job)) :
    RowOf call.request.sessionId call.request.idempotencyKey database job.id := by
  cases h with
  | returned request found created published hrow hquiet =>
    obtain rfl : found = job := by simpa using hnext
    exact hrow
  | _ => exact absurd hnext (by simp)

/-- A call that raises at an await is over. -/
theorem Stands.proceed_raised {database : Postgres.Database} {call : EnqueueCall}
    (h : Stands database call) {frame : Frame} (hnext : call.next = .suspend frame)
    (consumer : Consumer) (config : Config) (time : Instant) :
    call.proceed consumer config time frame .raised = { call with next := .finish .raised } := by
  cases h with
  | inserting request =>
    obtain rfl := Next.suspend.inj hnext
    rfl
  | publishing request job delay hrow =>
    obtain rfl := Next.suspend.inj hnext
    rfl
  | marking request job published hrow =>
    obtain rfl := Next.suspend.inj hnext
    rfl
  | returned request job created published hrow hquiet => exact absurd hnext (by simp)
  | raised request created published hquiet => exact absurd hnext (by simp)

/-- What holds of a race: the database is that of a run, each call stands where it can, a call's
transaction is the one that it waits for, and one call at most is told that it created a key. -/
structure Race.Sound (config : Config) (race : Race Other) : Prop where
  execution : Postgres.Execution race.history race.database
  stands : ∀ task call, race.calls task = some call → Stands race.database.committed call
  unborn : ∀ task, race.calls task = none → running race.database task = none
  awaited : ∀ task call frame label, race.calls task = some call → call.next = .suspend frame →
    running race.database task = some label →
    ∃ operation drawn scan, frame.request config = .store operation ∧
      label.operation = operation drawn scan
  taken : ∀ task call, race.calls task = some call → call.created = some true →
    ∃ jobId, RowOf call.request.sessionId call.request.idempotencyKey race.database.committed jobId
  creator : ∀ first second one two, race.calls first = some one → race.calls second = some two →
    one.request.sessionId = two.request.sessionId →
    one.request.idempotencyKey = two.request.idempotencyKey →
    one.created = some true → two.created = some true → first = second

section Steps

variable {config : Config} {race after : Race Other}

omit [DecidableEq Other] in
theorem calls_setCall (race : Race Other) (task other : ℕ) (call : EnqueueCall) :
    (race.setCall task call).calls other = if other = task then some call else race.calls other :=
  Function.update_apply race.calls task (some call) other

omit [DecidableEq Other] in
/-- A call of the race after one was set is that one, or was there before. -/
theorem calls_cases {task other : ℕ} {call found : EnqueueCall}
    (h : (race.setCall task call).calls other = some found) :
    (other = task ∧ found = call) ∨ (other ≠ task ∧ race.calls other = some found) := by
  rw [calls_setCall] at h
  split_ifs at h with hother
  · exact Or.inl ⟨hother, (Option.some.inj h).symm⟩
  · exact Or.inr ⟨hother, h⟩

/-- No call of the race has been told that it created the key of a request. -/
def Race.Uncreated (race : Race Other) (request : JobRequest) : Prop :=
  ∀ task call, race.calls task = some call → call.request.sessionId = request.sessionId →
    call.request.idempotencyKey = request.idempotencyKey → call.created ≠ some true

/-- The race after a call has gone on. Where it has just been told that it created its key, no other
call had been told so. -/
theorem Race.Sound.setCall (h : race.Sound config) {task : ℕ} {call new : EnqueueCall}
    (hcall : race.calls task = some call) (hrequest : new.request = call.request)
    (hstands : Stands race.database.committed new)
    (hidle : new.waiting → running race.database task = none)
    (hcreated : new.created = some true → call.created = some true ∨
      (∃ jobId, RowOf call.request.sessionId call.request.idempotencyKey race.database.committed
        jobId) ∧ race.Uncreated call.request) :
    (race.setCall task new).Sound config where
  execution := h.execution
  stands := fun other found hfound ↦ by
    rcases calls_cases hfound with ⟨-, rfl⟩ | ⟨-, hold⟩
    · exact hstands
    · exact h.stands other found hold
  unborn := fun other hnone ↦ by
    rw [calls_setCall] at hnone
    split_ifs at hnone
    exact h.unborn other hnone
  awaited := fun other found frame label hfound hnext hrunning ↦ by
    rcases calls_cases hfound with ⟨rfl, rfl⟩ | ⟨-, hold⟩
    · exact absurd (hrunning.symm.trans (hidle ⟨frame, hnext⟩)) (by simp)
    · exact h.awaited other found frame label hold hnext hrunning
  taken := fun other found hfound htold ↦ by
    rcases calls_cases hfound with ⟨-, rfl⟩ | ⟨-, hold⟩
    · rw [hrequest]
      rcases hcreated htold with hearlier | ⟨hrow, -⟩
      · exact h.taken task call hcall hearlier
      · exact hrow
    · exact h.taken other found hold htold
  creator := fun first second one two hone htwo hsession hkey htoldOne htoldTwo ↦ by
    rcases calls_cases hone with ⟨rfl, rfl⟩ | ⟨-, holdOne⟩
    · rcases calls_cases htwo with ⟨rfl, rfl⟩ | ⟨-, holdTwo⟩
      · rfl
      · rw [hrequest] at hsession hkey
        rcases hcreated htoldOne with hearlier | ⟨-, hfree⟩
        · exact h.creator first second call two hcall holdTwo hsession hkey hearlier htoldTwo
        · exact absurd htoldTwo (hfree second two holdTwo hsession.symm hkey.symm)
    · rcases calls_cases htwo with ⟨rfl, rfl⟩ | ⟨-, holdTwo⟩
      · rw [hrequest] at hsession hkey
        rcases hcreated htoldTwo with hearlier | ⟨-, hfree⟩
        · exact h.creator first second one call holdOne hcall hsession hkey htoldOne hearlier
        · exact absurd htoldOne (hfree first one holdOne hsession hkey)
      · exact h.creator first second one two holdOne holdTwo hsession hkey htoldOne htoldTwo

/-- The race after a step of the database in which no transaction of a call begins. -/
theorem Race.Sound.database (h : race.Sound config) {made : Option Commit}
    {database : Postgres.System (ℕ ⊕ Other)}
    (hstep : RowLocking.Step Postgres.Call.program race.database made database)
    (hcalls : ∀ task, running database task = running race.database task ∨
      running database task = none) :
    Race.Sound config
      { race with history := race.history ++ made.toList, database := database } := by
  have hkept : ∀ {sessionId key jobId}, RowOf sessionId key race.database.committed jobId →
      RowOf sessionId key database.committed jobId := by
    intro sessionId key jobId hrow
    rcases h.execution.sound.step_committed hstep with ⟨-, hsame⟩ |
      ⟨commit, -, hbefore, hafter, hyields⟩
    · rw [hsame]
      exact hrow
    · rw [hbefore] at hyields
      rw [← hafter]
      exact hrow.kept hyields
  refine ⟨h.execution.step hstep, fun task call hcall ↦ (h.stands task call hcall).mono hkept,
    fun task hnone ↦ ?_, fun task call frame label hcall hnext hrunning ↦ ?_,
    fun task call hcall htold ↦ ?_, h.creator⟩
  · rcases hcalls task with hsame | hended
    · exact hsame.trans (h.unborn task hnone)
    · exact hended
  · rcases hcalls task with hsame | hended
    · exact h.awaited task call frame label hcall hnext (hsame.symm.trans hrunning)
    · exact absurd (hrunning.symm.trans hended) (by simp)
  · obtain ⟨jobId, hrow⟩ := h.taken task call hcall htold
    exact ⟨jobId, hkept hrow⟩

/-- A commit that ends the transaction of a call leaves those of the others. -/
theorem running_of_commit {database next : Postgres.System (ℕ ⊕ Other)} {commit : Commit}
    (hstep : RowLocking.Step Postgres.Call.program database (some commit) next) (task : ℕ) :
    running next task = running database task ∨ running next task = none := by
  obtain ⟨backend, transaction, -, -, -, hended, hothers⟩ := hstep.commit_inv
  by_cases htask : Sum.inl task = backend
  · exact Or.inr (by rw [running, htask, hended]; rfl)
  · exact Or.inl (by rw [running, running, hothers _ htask])

/-- The call whose transaction has committed goes on. -/
theorem Race.Sound.committed (h : race.Sound config) {task : ℕ} {call : EnqueueCall} {frame : Frame}
    {commit : Commit} {database : Postgres.System (ℕ ⊕ Other)} (consumer : Consumer)
    (time : Instant) (hcall : race.calls task = some call) (hnext : call.next = .suspend frame)
    (hstep : RowLocking.Step Postgres.Call.program race.database (some commit) database)
    (hlabel : running race.database task = some commit.label)
    (hends : database.running (.inl task) = none) :
    Race.Sound config ({ race with
      history := race.history ++ [commit]
      database := database }.setCall task
        { call.proceed consumer config time frame (.returned commit.result) with
          created := call.told commit.result }) := by
  have hafter : Race.Sound config
      { race with history := race.history ++ [commit], database := database } :=
    h.database hstep (running_of_commit hstep)
  have hidle : running database task = none := by
    rw [running, hends]
    rfl
  obtain ⟨operation, drawn, scan, hstore, hoperation⟩ :=
    h.awaited task call frame commit.label hcall hnext hlabel
  have hstands := hafter.stands task call hcall
  cases h.stands task call hcall with
  | inserting request =>
    obtain rfl := Next.suspend.inj hnext
    obtain rfl := Request.store.inj hstore
    obtain ⟨job, created, hresult, hrow, hfree⟩ :=
      Postgres.enqueued_of_commit h.execution hstep
        (congrArg (Postgres.Call.mk commit.label.now) hoperation)
    rw [hresult]
    cases created with
    | true =>
      refine hafter.setCall hcall rfl (.publishing request job request.delay hrow) (fun _ ↦ hidle)
        fun _ ↦ Or.inr ⟨⟨job.id, hrow⟩, ?_⟩
      intro other found hfound hsession hkey htold
      obtain ⟨jobId, htaken⟩ := h.taken other found hfound htold
      rw [hsession, hkey] at htaken
      have hindexed := Postgres.indexed_of_execution h.execution
      exact absurd ((hfree rfl).symm.trans ((hindexed _ _ jobId).mpr htaken)) (by simp)
    | false =>
      refine hafter.setCall hcall rfl (.returned request job (some false) 0 hrow fun _ ↦ rfl)
        (fun _ ↦ hidle) fun htold ↦ ?_
      exact absurd htold (by simp [EnqueueCall.told])
  | publishing request job delay hrow =>
    obtain rfl := Next.suspend.inj hnext
    exact absurd hstore (by simp [Frame.request])
  | marking request job published hrow =>
    obtain rfl := Next.suspend.inj hnext
    obtain rfl := Request.store.inj hstore
    have hresult : commit.result = .unit := by
      rcases h.execution.sound.step_committed hstep with ⟨hnone, -⟩ |
        ⟨made, hmade, -, -, hyields⟩
      · exact absurd hnone (by simp)
      · obtain rfl := Option.some.inj hmade
        rw [Postgres.Call.program, hoperation] at hyields
        obtain ⟨-, -, hunit⟩ := RowLocking.Program.yields_map hyields
        exact hunit.symm
    rw [hresult]
    refine hafter.setCall hcall rfl (.returned request job (some true) published ?_
      (fun hnot ↦ absurd rfl hnot)) (fun _ ↦ hidle) (fun _ ↦ Or.inl rfl)
    cases hstands with
    | marking _ _ _ hkept => exact hkept
  | returned request job created published hrow hquiet => exact absurd hnext (by simp)
  | raised request created published hquiet => exact absurd hnext (by simp)

/-- The call that has put its message on the wire goes on, or raises. -/
theorem Race.Sound.publish (h : race.Sound config) {task : ℕ} {call : EnqueueCall} {frame : Frame}
    {jobId : Uuid} {delay : Option Duration} (confirmed : Bool) (consumer : Consumer)
    (time : Instant) (hcall : race.calls task = some call) (hnext : call.next = .suspend frame)
    (hpublish : frame.request config = .publish jobId delay) :
    Race.Sound config (race.setCall task
      { call.proceed consumer config time frame (if confirmed then .published else .raised) with
        published := call.published + 1 }) := by
  have hidle : running race.database task = none := by
    by_contra hrunning
    obtain ⟨label, hlabel⟩ := Option.ne_none_iff_exists'.mp hrunning
    obtain ⟨operation, drawn, scan, hstore, -⟩ := h.awaited task call frame label hcall hnext hlabel
    exact absurd (hpublish.symm.trans hstore) (by simp)
  cases h.stands task call hcall with
  | publishing request job _ hrow =>
    obtain rfl := Next.suspend.inj hnext
    refine h.setCall hcall rfl ?_ (fun _ ↦ hidle) (fun _ ↦ Or.inl rfl)
    cases confirmed with
    | true => exact .marking request job 1 hrow
    | false => exact .raised request (some true) 1 fun hnot ↦ absurd rfl hnot
  | inserting request =>
    obtain rfl := Next.suspend.inj hnext
    exact absurd hpublish (by simp [Frame.request])
  | marking request job published hrow =>
    obtain rfl := Next.suspend.inj hnext
    exact absurd hpublish (by simp [Frame.request])
  | returned request job created published hrow hquiet => exact absurd hnext (by simp)
  | raised request created published hquiet => exact absurd hnext (by simp)

/-- Every step of a race keeps it sound. -/
theorem Race.Sound.step (h : race.Sound config) (hstep : Race.Step config race after) :
    after.Sound config := by
  cases hstep with
  | call task request consumer time hnew =>
    have hidle := h.unborn task hnew
    refine ⟨h.execution, fun other found hfound ↦ ?_, fun other hnone ↦ ?_,
      fun other found frame label hfound hnext hrunning ↦ ?_, fun other found hfound htold ↦ ?_,
      fun first second one two hone htwo hsession hkey htoldOne htoldTwo ↦ ?_⟩
    · rcases calls_cases hfound with ⟨-, rfl⟩ | ⟨-, hold⟩
      · exact .inserting request
      · exact h.stands other found hold
    · rw [calls_setCall] at hnone
      split_ifs at hnone
      exact h.unborn other hnone
    · rcases calls_cases hfound with ⟨rfl, rfl⟩ | ⟨-, hold⟩
      · exact absurd (hrunning.symm.trans hidle) (by simp)
      · exact h.awaited other found frame label hold hnext hrunning
    · rcases calls_cases hfound with ⟨-, rfl⟩ | ⟨-, hold⟩
      · exact absurd htold (by simp)
      · exact h.taken other found hold htold
    · rcases calls_cases hone with ⟨-, rfl⟩ | ⟨-, holdOne⟩
      · exact absurd htoldOne (by simp)
      · rcases calls_cases htwo with ⟨-, rfl⟩ | ⟨-, holdTwo⟩
        · exact absurd htoldTwo (by simp)
        · exact h.creator first second one two holdOne holdTwo hsession hkey htoldOne htoldTwo
  | begin task call frame operation now drawn scan hcall hnext hstore hidle =>
    have hexecution := h.execution.step
      (RowLocking.Step.start (.inl task) ⟨now, operation drawn scan⟩ hidle)
    rw [Option.toList_none, List.append_nil] at hexecution
    have hothers : ∀ other, other ≠ task →
        running (race.database.put (.inl task) (some (Transaction.start Postgres.Call.program
          ⟨now, operation drawn scan⟩))) other = running race.database other := by
      intro other hother
      rw [running, RowLocking.System.put_running_of_ne _ _ (by simpa using hother)]
      rfl
    refine ⟨hexecution, h.stands, fun other hnone ↦ ?_,
      fun other found label frame hfound hnextFound hrunning ↦ ?_, h.taken, h.creator⟩
    · have hother : other ≠ task := by
        rintro rfl
        exact absurd (hnone.symm.trans hcall) (by simp)
      exact (hothers other hother).trans (h.unborn other hnone)
    · by_cases hother : other = task
      · subst hother
        obtain rfl := Option.some.inj (hcall.symm.trans hfound)
        obtain rfl := Next.suspend.inj (hnext.symm.trans hnextFound)
        rw [running, RowLocking.System.put_running_self] at hrunning
        obtain rfl := Option.some.inj hrunning
        exact ⟨operation, drawn, scan, hstore, rfl⟩
      · exact h.awaited other found label frame hfound hnextFound
          ((hothers other hother).symm.trans hrunning)
  | database made next hstep hcalls =>
    exact h.database hstep fun task ↦ (hcalls task).imp_right And.left
  | committed task call frame commit next consumer time hcall hnext hstep hlabel hends =>
    exact h.committed consumer time hcall hnext hstep hlabel hends
  | publish task call frame jobId delay confirmed consumer time hcall hnext hpublish =>
    exact h.publish confirmed consumer time hcall hnext hpublish
  | raise task call frame consumer time hcall hnext =>
    have hstands := h.stands task call hcall
    rw [hstands.proceed_raised hnext]
    refine h.setCall hcall rfl (.raised call.request call.created call.published hstands.quiet)
      (fun ⟨waiting, hwaiting⟩ ↦ ?_) (fun htold ↦ Or.inl htold)
    exact absurd hwaiting Next.noConfusion

theorem Race.Reached.sound (h : Race.Reached config race) : race.Sound config := by
  induction h with
  | start =>
    refine ⟨.idle, fun task call hcall ↦ absurd hcall (by simp [Race.start]), fun _ _ ↦ rfl,
      fun task call frame label hcall ↦ absurd hcall (by simp [Race.start]),
      fun task call hcall ↦ absurd hcall (by simp [Race.start]),
      fun first second one two hone ↦ absurd hone (by simp [Race.start])⟩
  | step before step ih => exact ih.step step

end Steps

/-! ### Enqueue is idempotent -/

/-- A race has made at most one job under a key, and its calls agree on it. -/
structure Race.Once (race : Race Other) (sessionId : Option Uuid) (key : String) : Prop where
  /-- There is at most one row with the key, -/
  row : ∀ first second, RowOf sessionId key race.database.committed first →
    RowOf sessionId key race.database.committed second → first = second
  /-- it is the row of every earlier moment, -/
  stays : ∀ commit ∈ race.history, ∀ jobId, RowOf sessionId key commit.after jobId →
    RowOf sessionId key race.database.committed jobId
  /-- and of no other session or key. -/
  apart : ∀ jobId otherSession otherKey, RowOf sessionId key race.database.committed jobId →
    RowOf otherSession otherKey race.database.committed jobId →
    otherSession = sessionId ∧ otherKey = key
  /-- Every call that returns returns it, -/
  returned : ∀ task call job, race.calls task = some call → call.request.sessionId = sessionId →
    call.request.idempotencyKey = key → call.next = .finish (.job job) →
    RowOf sessionId key race.database.committed job.id
  /-- at most one call is told that it created it, -/
  creator : ∀ first second one two, race.calls first = some one → race.calls second = some two →
    one.request.sessionId = sessionId → one.request.idempotencyKey = key →
    two.request.sessionId = sessionId → two.request.idempotencyKey = key →
    one.created = some true → two.created = some true → first = second
  /-- at most one `queued` event is recorded for it, -/
  event : ∀ jobId, RowOf sessionId key race.database.committed jobId →
    ((Postgres.jobEventRows race.database.committed jobId).map fun event ↦
      event.2.state).count .queued ≤ 1
  /-- and a call that is not told that it created it publishes nothing. -/
  quiet : ∀ task call, race.calls task = some call → call.request.sessionId = sessionId →
    call.request.idempotencyKey = key → call.created ≠ some true → call.published = 0

/-- In every race of any number of calls, of which any may raise or die at any await, and of any
other calls of the stores, a key makes at most one job, whether its session is null or not. -/
theorem enqueue_once {config : Config} {race : Race Other} (h : Race.Reached config race)
    (sessionId : Option Uuid) (key : String) : race.Once sessionId key := by
  have hsound := h.sound
  have hindexed := Postgres.indexed_of_execution hsound.execution
  constructor
  · exact fun first second hfirst hsecond ↦ hindexed.unique hfirst hsecond
  · exact fun commit hcommit jobId hrow ↦ hrow.of_commit hsound.execution hcommit
  · exact fun jobId otherSession otherKey hrow hother ↦ hother.key_eq hrow
  · rintro task call job hcall rfl rfl hnext
    exact (hsound.stands task call hcall).row hnext
  · rintro first second one two hone htwo rfl rfl hsession hkey htoldOne htoldTwo
    exact hsound.creator first second one two hone htwo hsession.symm hkey.symm htoldOne htoldTwo
  · exact fun jobId _ ↦ Postgres.recorded_once hsound.execution jobId
  · exact fun task call hcall _ _ htold ↦ (hsound.stands task call hcall).quiet htold

/-! ### Two calls -/

/-- A statement of a call's transaction changes no other. -/
theorem running_put {database : Postgres.System (ℕ ⊕ Other)} {task : ℕ}
    {transaction : Transaction Postgres.Call Postgres.RowKey Postgres.Row Postgres.LogEntry
      Postgres.StoreError Outcome}
    (h : running database task = some transaction.label) (other : ℕ) :
    running (database.put (.inl task) (some transaction)) other = running database other := by
  by_cases hother : other = task
  · subst hother
    rw [h, running, RowLocking.System.put_running_self]
    rfl
  · rw [running, RowLocking.System.put_running_of_ne _ _ (by simpa using hother)]
    rfl

/-- The settings of the queue. -/
def raceConfig : Config :=
  ⟨1, 15, 60⟩

/-- A request with no session. -/
def raced (kind : String) : JobRequest :=
  ⟨kind, .nil, none, "key", 3, 0⟩

/-- The insertion of the first call. -/
def insertFirst : Postgres.Call :=
  ⟨0, .insertOrGet ⟨9⟩ (raced "noop")⟩

/-- The insertion of the second call. -/
def insertSecond : Postgres.Call :=
  ⟨0, .insertOrGet ⟨10⟩ (raced "other")⟩

/-- The second call begins before the first commits, with another kind, and returns the job of the
first. -/
theorem enqueue_once_raced :
    ∃ race : Race Empty, Race.Reached raceConfig race ∧
      (∃ job, job.id = ⟨9⟩ ∧
        race.calls 1 = some ⟨raced "other", .finish (.job job), some false, 0⟩) ∧
      race.Once none "key" := by
  have hstart : Race.Reached raceConfig (Race.start : Race Empty) := .start
  have hbegun := ((hstart.step (.call 0 (raced "noop") .new 0 rfl)).step
    (.call 1 (raced "other") .new 0 rfl)).step (.begin 0 _ _ _ 0 ⟨9⟩ [] rfl rfl rfl rfl)
  have hkeyed := hbegun.step (.database none _
    (.update (.inl 0) insertFirst (.idempotency none "key") (Postgres.ifAbsent ⟨9⟩) _
      (fun _ ↦ none) [] (some ⟨9⟩) rfl
      (fun _ held hother hrunning ↦ absurd
        ((RowLocking.System.put_running_of_ne _ _ hother).symm.trans hrunning)
        (Option.some_ne_none held).symm) rfl)
    fun task ↦ Or.inl (running_put rfl task))
  have hinserted := hkeyed.step (.database none _
    (.update (.inl 0) insertFirst (.job ⟨9⟩)
      (Postgres.ifAbsent (Postgres.JobRow.inserted 0 (raced "noop"))) _ _ []
      (some (Postgres.JobRow.inserted 0 (raced "noop"))) rfl
      (fun _ held hother hrunning ↦ absurd
        (((RowLocking.System.put_running_of_ne _ _ hother).trans
          (RowLocking.System.put_running_of_ne _ _ hother)).symm.trans hrunning)
        (Option.some_ne_none held).symm) rfl)
    fun task ↦ Or.inl (running_put rfl task))
  have hwaiting := hinserted.step (.begin 1 _ _ _ 0 ⟨10⟩ [] rfl rfl rfl rfl)
  have hcreated := hwaiting.step
    (.committed 0 _ _ _ _ .new 0 rfl rfl (.commit (.inl 0) _ _ _ _ rfl) rfl rfl)
  have hconflict := hcreated.step (.database none _
    (.mismatch (.inl 1) insertSecond (.idempotency none "key") (Postgres.ifAbsent ⟨10⟩) _
      (fun _ ↦ none) [] rfl rfl) fun task ↦ Or.inl (running_put rfl task))
  have hreread := hconflict.step (.database none _ (.select (.inl 1) _ _ _ _ rfl)
    fun task ↦ Or.inl (running_put rfl task))
  have hreturned := hreread.step
    (.committed 1 _ _ _ _ .new 0 rfl rfl (.commit (.inl 1) _ _ _ _ rfl) rfl rfl)
  exact ⟨_, hreturned, ⟨_, rfl, rfl⟩, enqueue_once hreturned none "key"⟩

end Abacus.RabbitMQ
