import Abacus.Worker.Crew

/-!
# Artifacts answer, errors explain

What the stores say of a job is about the question that was asked. In every run of supervisors whose
children keep to their requests, an object is what a solver made of the kind and the payload of the
job that its key names (`artifacts_answer`), and the error that a job shows is the text that its
last attempt gave it back with, for one of the reasons there are (`errors_explained`).

The invariant says it of what the supervisors have at hand: a child was started with what its job
asks, what was read of it is what it could send, and a supervisor about to give its job back has a
text that explains it (`Process.Handed`, `Crew.Kept`).
-/

set_option autoImplicit false
set_option relaxedAutoImplicit false

namespace Abacus.Worker

open Postgres (Entry Operation StoreError jobRow)

variable {Worker : Type} {registry : Registry} {config : Worker → WorkerConfig}

/-! ### The invariant -/

/-- What holds of one supervisor. -/
structure Process.Handed (registry : Registry) (config : Worker → WorkerConfig) (crew : Crew Worker)
    (process : Process) : Prop where
  asks : ∀ lease, process.stage.lease = some lease →
    Asks crew.fleet.database (request lease.job)
  waiting : ∀ lease, process.stage = .spawning lease → crew.requests lease.id = none
  handed : ∀ lease, process.stage.lease = some lease → process.stage ≠ .spawning lease →
    crew.requests lease.id = some (request lease.job)
  read : ∀ lease, process.stage = .spawning lease ∨ process.stage.running = some lease →
    process.collected = (crew.pipes lease.id).map fun pipe ↦ readAndReap pipe.1 pipe.2
  ended : ∀ lease ending,
    process.stage = .stopping lease ending ∨ process.stage = .killed lease ending →
      (lease.id, ending) ∈ crew.fleet.endings ∧ ending ≠ .completed
  explained : ∀ handled error retryIn, process.stage = .nacking handled error retryIn →
    Explains registry config crew (request handled.lease.job) handled.lease.id error

/-- What holds of all of them and of the stores. -/
structure Crew.Kept (registry : Registry) (config : Worker → WorkerConfig) (crew : Crew Worker) :
    Prop where
  processes : ∀ worker, (crew.fleet.workers worker).Handed registry config crew
  requests : ∀ leaseId asked, crew.requests leaseId = some asked →
    crew.fleet.Drawn leaseId ∧ Asks crew.fleet.database asked
  pipes : ∀ leaseId pipe, crew.pipes leaseId = some pipe →
    ∃ asked, crew.requests leaseId = some asked ∧ Sends registry asked pipe.1
  reports : ∀ leaseId, crew.fleet.reports leaseId =
    (crew.pipes leaseId).bind fun pipe ↦ (readAndReap pipe.1 pipe.2).toOption
  objects : ∀ key object, crew.fleet.objects key = some object → ∃ leaseId asked,
    crew.requests leaseId = some asked ∧ key = artifactKey asked.jobId leaseId ∧
      Solves registry asked (.solved ⟨object.data, object.contentType⟩)
  nacks : ∀ entry ∈ crew.fleet.history, ∀ lease error retryIn,
    entry.call.operation = .nack lease error retryIn → ∃ asked,
      crew.requests lease.id = some asked ∧ asked.jobId = lease.job.id ∧
        Explains registry config crew asked lease.id error

/-- What holds of a supervisor goes on to hold while others go on. -/
theorem Process.Handed.mono {before after : Crew Worker} {process : Process}
    (h : process.Handed registry config before)
    (hasks : ∀ asked, Asks before.fleet.database asked → Asks after.fleet.database asked)
    (hrequests : ∀ lease, process.stage.lease = some lease →
      after.requests lease.id = before.requests lease.id)
    (hpipes : ∀ lease, process.stage.lease = some lease →
      after.pipes lease.id = before.pipes lease.id)
    (hendings : before.fleet.endings ⊆ after.fleet.endings) :
    process.Handed registry config after where
  asks := fun lease hlease ↦ hasks _ (h.asks lease hlease)
  waiting := by
    intro lease hspawning
    rw [hrequests lease (by rw [hspawning]; rfl)]
    exact h.waiting lease hspawning
  handed := by
    intro lease hlease hne
    rw [hrequests lease hlease]
    exact h.handed lease hlease hne
  read := by
    intro lease hstage
    have hlease : process.stage.lease = some lease := by
      rcases hstage with hspawning | hrunning
      · rw [hspawning]
        rfl
      · exact Stage.lease_of_running hrunning
    rw [hpipes lease hlease]
    exact h.read lease hstage
  ended := fun lease ending hstage ↦
    ⟨hendings (h.ended lease ending hstage).1, (h.ended lease ending hstage).2⟩
  explained := by
    intro handled error retryIn hnacking
    refine (h.explained handled error retryIn hnacking).mono (fun pipe hpipe ↦ ?_) hendings
    rw [hpipes handled.lease (by rw [hnacking]; rfl)]
    exact hpipe

/-- A supervisor without a lease has nothing to keep to. -/
theorem Process.Handed.of_none {crew : Crew Worker} {process : Process}
    (h : process.stage.lease = none) : process.Handed registry config crew := by
  have hne : ∀ stage : Stage, stage.lease ≠ none → process.stage ≠ stage := by
    rintro stage hlease rfl
    exact hlease h
  refine ⟨by simp [h], fun lease hstage ↦ absurd hstage (hne _ (by simp [Stage.lease])),
    by simp [h], ?_, ?_, fun handled error retryIn hstage ↦
      absurd hstage (hne _ (by simp [Stage.lease]))⟩
  · rintro lease (hspawning | hrunning)
    · exact absurd hspawning (hne _ (by simp [Stage.lease]))
    · exact absurd ((Stage.lease_of_running hrunning).symm.trans h) (by simp)
  · rintro lease ending (hstopping | hkilled)
    · exact absurd hstopping (hne _ (by simp [Stage.lease]))
    · exact absurd hkilled (hne _ (by simp [Stage.lease]))

namespace Crew.Kept

variable {crew : Crew Worker}

theorem initial : (Crew.initial Worker).Kept registry config where
  processes := fun _ ↦ .of_none rfl
  requests := by simp [Crew.initial]
  pipes := by simp [Crew.initial]
  reports := fun _ ↦ rfl
  objects := by simp [Crew.initial, Fleet.initial]
  nacks := by simp [Crew.initial, Fleet.initial]

theorem tick (h : crew.Kept registry config) (duration : ℕ) :
    Crew.Kept registry config
      ⟨{ crew.fleet with now := crew.fleet.now + duration }, crew.requests, crew.pipes⟩ where
  processes := fun worker ↦ (h.processes worker).mono (fun _ hasks ↦ hasks) (fun _ _ ↦ rfl)
    (fun _ _ ↦ rfl) (List.Subset.refl _)
  requests := h.requests
  pipes := h.pipes
  reports := h.reports
  objects := h.objects
  nacks := by
    intro entry hentry lease error retryIn hoperation
    obtain ⟨asked, hasked, hjob, hexplains⟩ := h.nacks entry hentry lease error retryIn hoperation
    exact ⟨asked, hasked, hjob, hexplains.mono (fun _ hpipe ↦ hpipe) (List.Subset.refl _)⟩

/-! ### The stores -/

/-- A call on the job store. A `nack` is that of the supervisor at that stage. -/
theorem perform (h : crew.Kept registry config) {operation : Operation}
    (hnack : ∀ lease error retryIn, operation = .nack lease error retryIn → ∃ worker handled,
      (crew.fleet.workers worker).stage = .nacking handled error retryIn ∧ lease = handled.lease) :
    Crew.Kept registry config ⟨crew.fleet.perform operation, crew.requests, crew.pipes⟩ where
  processes := fun worker ↦ (h.processes worker).mono
    (fun _ hasks ↦ hasks.perform crew.fleet.now operation) (fun _ _ ↦ rfl) (fun _ _ ↦ rfl)
    (List.Subset.refl _)
  requests := by
    intro leaseId asked hasked
    obtain ⟨⟨entry, hentry, htoken⟩, hasks⟩ := h.requests leaseId asked hasked
    exact ⟨⟨entry, List.mem_append_left _ hentry, htoken⟩,
      hasks.perform crew.fleet.now operation⟩
  pipes := h.pipes
  reports := h.reports
  objects := h.objects
  nacks := by
    intro entry hentry lease error retryIn hoperation
    obtain ⟨asked, hasked, hjob, hexplains⟩ : ∃ asked, crew.requests lease.id = some asked ∧
        asked.jobId = lease.job.id ∧ Explains registry config crew asked lease.id error := by
      rcases List.mem_append.mp hentry with hold | hnew
      · exact h.nacks entry hold lease error retryIn hoperation
      · rw [List.mem_singleton.mp hnew] at hoperation
        obtain ⟨worker, handled, hstage, rfl⟩ := hnack lease error retryIn hoperation
        have hprocess := h.processes worker
        have hlease : (crew.fleet.workers worker).stage.lease = some handled.lease := by
          rw [hstage]
          rfl
        exact ⟨_, hprocess.handed handled.lease hlease (by simp [hstage]), rfl,
          hprocess.explained handled error retryIn hstage⟩
    exact ⟨asked, hasked, hjob, hexplains.mono (fun _ hpipe ↦ hpipe) (List.Subset.refl _)⟩

/-- A supervisor that puts an artifact read it of its child, which made it of what its job asks. -/
theorem of_putting (h : crew.Kept registry config) (hsound : crew.fleet.Sound) {worker : Worker}
    {handled : Handled} {solved : Solved}
    (hstage : (crew.fleet.workers worker).stage = .putting handled solved) :
    ∃ exitcode, crew.pipes handled.lease.id = some (.message (.solved solved), exitcode) ∧
      crew.requests handled.lease.id = some (request handled.lease.job) ∧
      Solves registry (request handled.lease.job) (.solved solved) := by
  obtain ⟨-, hreported⟩ := (hsound.processes worker).putting handled solved hstage
  rw [h.reports handled.lease.id] at hreported
  obtain ⟨⟨read, exitcode⟩, hpipe, hread⟩ := Option.bind_eq_some_iff.mp hreported
  have hrequest : crew.requests handled.lease.id = some (request handled.lease.job) :=
    (h.processes worker).handed handled.lease (by rw [hstage]; rfl) (by simp [hstage])
  obtain ⟨asked, hasked, hsends⟩ := h.pipes handled.lease.id _ hpipe
  obtain rfl : asked = request handled.lease.job :=
    Option.some.inj (hasked.symm.trans hrequest)
  cases read with
  | message outcome =>
    obtain rfl : outcome = .solved solved := Option.some.inj hread
    exact ⟨exitcode, hpipe, hrequest, hsends⟩
  | closed => exact absurd hread (by simp [readAndReap, Except.toOption])
  | raised error => exact absurd hread (by simp [readAndReap, Except.toOption])

/-- The put of an attempt. -/
theorem write (h : crew.Kept registry config) (hsound : crew.fleet.Sound) {worker : Worker}
    {handled : Handled} {solved : Solved}
    (hstage : (crew.fleet.workers worker).stage = .putting handled solved) (applied : Bool) :
    Crew.Kept registry config
      ⟨crew.fleet.write handled solved applied, crew.requests, crew.pipes⟩ where
  processes := fun other ↦ (h.processes other).mono (fun _ hasks ↦ by simpa using hasks)
    (fun _ _ ↦ rfl) (fun _ _ ↦ rfl) (List.Subset.refl _)
  requests := fun leaseId asked hasked ↦ ⟨(h.requests leaseId asked hasked).1,
    by simpa using (h.requests leaseId asked hasked).2⟩
  pipes := h.pipes
  reports := h.reports
  objects := by
    intro key object hobject
    obtain ⟨exitcode, -, hrequest, hsolves⟩ := h.of_putting hsound hstage
    simp only [Fleet.write] at hobject
    split_ifs at hobject
    · by_cases hkey : key = artifactKey handled.lease.job.id handled.lease.id
      · subst hkey
        rw [Function.update_self] at hobject
        rw [← Option.some.inj hobject]
        exact ⟨handled.lease.id, _, hrequest, rfl, hsolves⟩
      · rw [Function.update_of_ne hkey] at hobject
        exact h.objects key object hobject
    · exact h.objects key object hobject
  nacks := by
    intro entry hentry lease error retryIn hoperation
    obtain ⟨asked, hasked, hjob, hexplains⟩ := h.nacks entry hentry lease error retryIn hoperation
    exact ⟨asked, hasked, hjob, hexplains.mono (fun _ hpipe ↦ hpipe) (List.Subset.refl _)⟩

/-! ### The supervisors -/

variable [DecidableEq Worker]

/-- A supervisor in another state, with what was decided in between. -/
theorem replace (h : crew.Kept registry config) {worker : Worker} {process : Process}
    {decided : List (Uuid × Ending)}
    (hprocess : process.Handed registry config
      ⟨{ crew.fleet with
        workers := Function.update crew.fleet.workers worker process
        endings := crew.fleet.endings ++ decided }, crew.requests, crew.pipes⟩) :
    Crew.Kept registry config
      ⟨{ crew.fleet with
        workers := Function.update crew.fleet.workers worker process
        endings := crew.fleet.endings ++ decided }, crew.requests, crew.pipes⟩ where
  processes := by
    intro other
    by_cases hother : other = worker
    · subst hother
      simp only [Function.update_self]
      exact hprocess
    · simp only [Function.update_of_ne hother]
      exact (h.processes other).mono (fun _ hasks ↦ hasks) (fun _ _ ↦ rfl) (fun _ _ ↦ rfl)
        (List.subset_append_left _ _)
  requests := h.requests
  pipes := h.pipes
  reports := h.reports
  objects := h.objects
  nacks := by
    intro entry hentry lease error retryIn hoperation
    obtain ⟨asked, hasked, hjob, hexplains⟩ := h.nacks entry hentry lease error retryIn hoperation
    exact ⟨asked, hasked, hjob,
      hexplains.mono (fun _ hpipe ↦ hpipe) (List.subset_append_left _ _)⟩

/-- A supervisor that begins again. -/
theorem idle (h : crew.Kept registry config) (worker : Worker) :
    Crew.Kept registry config
      ⟨crew.fleet.setWorker worker .idle, crew.requests, crew.pipes⟩ := by
  have hidle : Process.idle.Handed registry config
      ⟨{ crew.fleet with
        workers := Function.update crew.fleet.workers worker .idle
        endings := crew.fleet.endings ++ [] }, crew.requests, crew.pipes⟩ := .of_none (by rfl)
  have hreplace := h.replace hidle
  simp only [List.append_nil] at hreplace
  exact hreplace

omit [DecidableEq Worker] in
/-- Why a supervisor that goes on to give its job back may do so. -/
theorem explains (h : crew.Kept registry config) (hsound : crew.fleet.Sound) {worker : Worker}
    {handled : Handled} {error : String}
    (hgives : Supervisor.GivesBack (config worker) (crew.fleet.workers worker).collected handled
      error (crew.fleet.workers worker).stage) :
    Explains registry config crew (request handled.lease.job) handled.lease.id error := by
  have hprocess := h.processes worker
  generalize hstage : (crew.fleet.workers worker).stage = stage at hgives
  cases hgives with
  | reported lease cap result hcollected hhandled herror =>
    subst hhandled
    have hread := hprocess.read lease (Or.inr (by rw [hstage]; rfl))
    rw [hcollected] at hread
    obtain ⟨⟨read, exitcode⟩, hpipe, rfl⟩ := Option.map_eq_some_iff.mp hread.symm
    obtain ⟨asked, hasked, hsends⟩ := h.pipes lease.id _ hpipe
    have hrequest := hprocess.handed lease (by rw [hstage]; rfl) (by simp [hstage])
    obtain rfl : asked = request lease.job := Option.some.inj (hasked.symm.trans hrequest)
    cases read with
    | message outcome =>
      rcases herror with ⟨failed, hfailed, rfl⟩ | ⟨died, hdied, -⟩
      · obtain rfl : outcome = .failed failed := hfailed
        exact .failed failed exitcode hpipe hsends
      · obtain rfl : outcome = .died died := hdied
        cases hsends
    | closed =>
      rcases herror with ⟨failed, hfailed, -⟩ | ⟨died, hdied, rfl⟩
      · exact absurd hfailed (by simp [reported, readAndReap])
      · obtain rfl : (⟨exitcode⟩ : Died) = died := Outcome.died.inj hdied
        exact .died exitcode hpipe
    | raised text =>
      rcases herror with ⟨failed, hfailed, rfl⟩ | ⟨died, hdied, -⟩
      · rw [← Outcome.failed.inj hfailed]
        exact .unreadable text exitcode hpipe
      · exact absurd hdied (by simp [reported, readAndReap])
  | stopped lease ending outcome found hfound hhandled herror =>
    subst hhandled
    obtain ⟨hending, hne⟩ := hprocess.ended lease ending (by rw [hstage]; exact hfound)
    exact .stopped worker ending error hending (herror hne)
  | notStored solved text herror =>
    subst herror
    obtain ⟨exitcode, hpipe, -, hsolves⟩ := h.of_putting hsound hstage
    exact .notStored solved exitcode text hpipe hsolves

/-- A supervisor goes on to the next stage of its attempt, and starts no child. -/
theorem follows (h : crew.Kept registry config) (hsound : crew.fleet.Sound) {worker : Worker}
    {input : Input} {stage : Stage}
    (hresume : Supervisor.resume (config worker) (crew.fleet.workers worker).collected
      (crew.fleet.workers worker).stage input = some stage)
    (hstart : ∀ lease, input ≠ .reserved (some lease))
    (hspawned : ∀ lease, (crew.fleet.workers worker).stage = .spawning lease → stage.lease = none)
    (hrenewed : ∀ lease before cap clock,
      (crew.fleet.workers worker).stage = .extending before cap →
      input = .extended (.renewed lease) clock → lease.id = before.id ∧
        lease.job.id = before.job.id ∧ Asks crew.fleet.database (request lease.job)) :
    Crew.Kept registry config
      ⟨crew.fleet.advance worker stage, crew.requests, crew.pipes⟩ := by
  have hprocess := h.processes worker
  have hfollows := Supervisor.resume_follows hstart hresume
  -- a renewed lease is of the same attempt and asks the same
  have hlease : ∀ lease, stage.lease = some lease → ∃ before,
      (crew.fleet.workers worker).stage.lease = some before ∧ lease.id = before.id ∧
        request lease.job = request before.job := by
    intro lease hlease
    obtain ⟨before, hbefore, rfl | ⟨cap, clock, hextending, hinput⟩⟩ := hfollows.lease lease hlease
    · exact ⟨lease, hbefore, rfl, rfl⟩
    · obtain ⟨hid, hjob, hasks⟩ := hrenewed lease before cap clock hextending hinput
      exact ⟨before, hbefore, hid, hasks.unique (hprocess.asks before hbefore) hjob⟩
  refine h.replace ⟨?_, ?_, ?_, ?_, ?_, ?_⟩
  · intro lease hfound
    obtain ⟨before, hbefore, -, hsame⟩ := hlease lease hfound
    rw [hsame]
    exact hprocess.asks before hbefore
  · exact fun lease hspawning ↦ absurd hspawning (hfollows.starts.2 lease)
  · intro lease hfound _
    obtain ⟨before, hbefore, hid, hsame⟩ := hlease lease hfound
    rw [hid, hsame]
    refine hprocess.handed before hbefore fun hspawning ↦ ?_
    exact absurd ((hspawned before hspawning).symm.trans hfound) (by simp)
  · rintro lease (hspawning | hrunning)
    · exact absurd hspawning (hfollows.starts.2 lease)
    · have hfound := Stage.lease_of_running hrunning
      obtain ⟨before, hbefore, hid, -⟩ := hlease lease hfound
      rcases hfollows.running (by simp [hrunning]) with ⟨held, hspawning⟩ | hold
      · exact absurd ((hspawned held hspawning).symm.trans hfound) (by simp)
      · obtain ⟨held, hheld⟩ := Option.ne_none_iff_exists'.mp hold
        obtain rfl : held = before :=
          Option.some.inj ((Stage.lease_of_running hheld).symm.trans hbefore)
        rw [hid]
        exact hprocess.read held (Or.inr hheld)
  · rintro lease ending (rfl | rfl)
    · exact ⟨List.mem_append_right _ (List.mem_singleton.mpr rfl),
        Supervisor.resume_stopping hresume⟩
    · obtain ⟨hmem, hne⟩ :=
        hprocess.ended lease ending (Or.inl (Supervisor.resume_killed hresume))
      exact ⟨List.mem_append_left _ hmem, hne⟩
  · rintro handled error retryIn rfl
    exact (h.explains hsound (Supervisor.resume_nacking hresume)).mono (fun _ hpipe ↦ hpipe)
      (List.subset_append_left _ _)

/-- A supervisor gets a lease that nobody had. -/
theorem take (h : crew.Kept registry config) {worker : Worker} {lease : Lease}
    (hcollected : (crew.fleet.workers worker).collected = none)
    (hasks : Asks crew.fleet.database (request lease.job))
    (hrequests : crew.requests lease.id = none) :
    Crew.Kept registry config
      ⟨crew.fleet.advance worker (.spawning lease), crew.requests, crew.pipes⟩ := by
  have hpipes : crew.pipes lease.id = none := by
    by_contra hpipe
    obtain ⟨pipe, hsome⟩ := Option.ne_none_iff_exists'.mp hpipe
    obtain ⟨asked, hasked, -⟩ := h.pipes lease.id pipe hsome
    exact absurd (hrequests.symm.trans hasked) (by simp)
  have hsame : ∀ found, (Stage.spawning lease).lease = some found → found = lease :=
    fun found hfound ↦ (Option.some.inj hfound).symm
  refine h.replace ⟨?_, ?_, ?_, ?_, by simp, by simp⟩
  · intro found hfound
    rw [hsame found hfound]
    exact hasks
  · rintro found ⟨⟩
    exact hrequests
  · intro found hfound hne
    rw [hsame found hfound] at hne
    exact absurd rfl hne
  · rintro found (hspawning | hrunning)
    · rw [← Stage.spawning.inj hspawning, hpipes]
      exact hcollected
    · exact absurd hrunning (by simp [Stage.running])

/-- A supervisor starts its child, with what its job asks. -/
theorem spawn (h : crew.Kept registry config) (hsound : crew.fleet.Sound) {worker : Worker}
    {lease : Lease} (hstage : (crew.fleet.workers worker).stage = .spawning lease) (cap : Instant) :
    Crew.Kept registry config
      ⟨crew.fleet.advance worker (.watching lease cap),
        Function.update crew.requests lease.id (some (request lease.job)), crew.pipes⟩ := by
  have hprocess := h.processes worker
  have hlease : (crew.fleet.workers worker).stage.lease = some lease := by
    rw [hstage]
    rfl
  have hkept : ∀ leaseId asked, crew.requests leaseId = some asked →
      Function.update crew.requests lease.id (some (request lease.job)) leaseId = some asked := by
    intro leaseId asked hasked
    have hne : leaseId ≠ lease.id := by
      rintro rfl
      exact absurd ((hprocess.waiting lease hstage).symm.trans hasked) (by simp)
    rw [Function.update_of_ne hne]
    exact hasked
  have hsame : ∀ found, (Stage.watching lease cap).lease = some found → found = lease :=
    fun found hfound ↦ (Option.some.inj hfound).symm
  refine ⟨fun other ↦ ?_, ?_, ?_, h.reports, ?_, ?_⟩
  · by_cases hother : other = worker
    · subst hother
      simp only [Fleet.advance, Function.update_self]
      refine ⟨?_, by simp, ?_, ?_, by simp, by simp⟩
      · intro found hfound
        rw [hsame found hfound]
        exact hprocess.asks lease hlease
      · intro found hfound _
        rw [hsame found hfound]
        exact Function.update_self _ _ _
      · rintro found (hspawning | hrunning)
        · exact absurd hspawning (by simp)
        · rw [← Option.some.inj hrunning]
          exact hprocess.read lease (Or.inl hstage)
    · simp only [Fleet.advance, Function.update_of_ne hother]
      refine (h.processes other).mono (fun _ hasks ↦ hasks) (fun found hfound ↦ ?_)
        (fun _ _ ↦ rfl) (List.subset_append_left _ _)
      have hne : found.id ≠ lease.id :=
        fun hid ↦ hother (hsound.alone other worker found lease hfound hlease hid)
      exact Function.update_of_ne hne _ _
  · intro leaseId asked hasked
    by_cases hid : leaseId = lease.id
    · subst hid
      simp only [Function.update_self] at hasked
      rw [← Option.some.inj hasked]
      exact ⟨(hsound.processes worker).drawn lease hlease, hprocess.asks lease hlease⟩
    · simp only [Function.update_of_ne hid] at hasked
      exact h.requests leaseId asked hasked
  · intro leaseId pipe hpipe
    obtain ⟨asked, hasked, hsends⟩ := h.pipes leaseId pipe hpipe
    exact ⟨asked, hkept leaseId asked hasked, hsends⟩
  · intro key object hobject
    obtain ⟨leaseId, asked, hasked, hobjectOf⟩ := h.objects key object hobject
    exact ⟨leaseId, asked, hkept leaseId asked hasked, hobjectOf⟩
  · intro entry hentry found error retryIn hoperation
    obtain ⟨asked, hasked, hjob, hexplains⟩ := h.nacks entry hentry found error retryIn hoperation
    exact ⟨asked, hkept _ asked hasked, hjob,
      hexplains.mono (fun _ hpipe ↦ hpipe) (List.subset_append_left _ _)⟩

/-- The child of a supervisor sends what it may, or is gone. -/
theorem child (h : crew.Kept registry config) (hsound : crew.fleet.Sound) {worker : Worker}
    {lease : Lease} (hrunning : (crew.fleet.workers worker).stage.running = some lease)
    (hnone : (crew.fleet.workers worker).collected = none) {read : PipeRead} {exitcode : Int}
    (hsends : ∀ asked, crew.requests lease.id = some asked → Sends registry asked read) :
    Crew.Kept registry config
      ⟨{ crew.fleet.setWorker worker
          ⟨(crew.fleet.workers worker).stage, some (readAndReap read exitcode)⟩ with
        reports := Function.update crew.fleet.reports lease.id
          (readAndReap read exitcode).toOption }, crew.requests,
        Function.update crew.pipes lease.id (some (read, exitcode))⟩ := by
  have hprocess := h.processes worker
  have hlease := Stage.lease_of_running hrunning
  have hpipes : crew.pipes lease.id = none := by
    have hread := hprocess.read lease (Or.inr hrunning)
    rw [hnone] at hread
    exact Option.map_eq_none_iff.mp hread.symm
  have hkept : ∀ leaseId pipe, crew.pipes leaseId = some pipe →
      Function.update crew.pipes lease.id (some (read, exitcode)) leaseId = some pipe := by
    intro leaseId pipe hpipe
    have hne : leaseId ≠ lease.id := by
      rintro rfl
      exact absurd (hpipes.symm.trans hpipe) (by simp)
    rw [Function.update_of_ne hne]
    exact hpipe
  have hrequest : crew.requests lease.id = some (request lease.job) := by
    refine hprocess.handed lease hlease fun hspawning ↦ ?_
    rw [hspawning] at hrunning
    exact absurd hrunning (by simp [Stage.running])
  refine ⟨fun other ↦ ?_, h.requests, ?_, fun leaseId ↦ ?_, h.objects, ?_⟩
  · by_cases hother : other = worker
    · subst hother
      simp only [Fleet.setWorker, Function.update_self]
      refine ⟨hprocess.asks, hprocess.waiting, hprocess.handed, ?_, hprocess.ended, ?_⟩
      · rintro found (hspawning | hfound)
        · rw [hspawning] at hrunning
          exact absurd hrunning (by simp [Stage.running])
        · obtain rfl : lease = found := Option.some.inj (hrunning.symm.trans hfound)
          simp only [Function.update_self]
          rfl
      · intro handled error retryIn hnacking
        rw [hnacking] at hrunning
        exact absurd hrunning (by simp [Stage.running])
    · simp only [Fleet.setWorker, Function.update_of_ne hother]
      refine (h.processes other).mono (fun _ hasks ↦ hasks) (fun _ _ ↦ rfl)
        (fun found hfound ↦ ?_) (List.Subset.refl _)
      have hne : found.id ≠ lease.id :=
        fun hid ↦ hother (hsound.alone other worker found lease hfound hlease hid)
      exact Function.update_of_ne hne _ _
  · intro leaseId pipe hpipe
    by_cases hid : leaseId = lease.id
    · subst hid
      simp only [Function.update_self] at hpipe
      rw [← Option.some.inj hpipe]
      exact ⟨_, hrequest, hsends _ hrequest⟩
    · simp only [Function.update_of_ne hid] at hpipe
      exact h.pipes leaseId pipe hpipe
  · by_cases hid : leaseId = lease.id
    · subst hid
      simp only [Function.update_self]
      rfl
    · simp only [Function.update_of_ne hid]
      exact h.reports leaseId
  · intro entry hentry found error retryIn hoperation
    obtain ⟨asked, hasked, hjob, hexplains⟩ := h.nacks entry hentry found error retryIn hoperation
    exact ⟨asked, hasked, hjob, hexplains.mono (hkept _) (List.Subset.refl _)⟩

/-! ### The steps -/

omit [DecidableEq Worker] in
/-- The store call of a supervisor. -/
theorem call (h : crew.Kept registry config) {name : String} {worker : Worker}
    {jobId drawn : Uuid} {operation : Operation}
    (hcall : (crew.fleet.workers worker).stage.call (config worker) name jobId drawn =
      some operation) :
    Crew.Kept registry config ⟨crew.fleet.perform operation, crew.requests, crew.pipes⟩ := by
  refine h.perform ?_
  rintro lease error retryIn rfl
  cases hstage : (crew.fleet.workers worker).stage with
  | nacking handled text again =>
    rw [hstage] at hcall
    obtain ⟨rfl, rfl, rfl⟩ := Operation.nack.inj (Option.some.inj hcall)
    exact ⟨worker, handled, hstage, rfl⟩
  | _ =>
    rw [hstage] at hcall
    exact absurd hcall (by simp [Stage.call])

/-- What a supervisor makes of the reply to its store call. -/
theorem heard (h : crew.Kept registry config) (hsound : crew.fleet.Sound)
    {owner : Worker → String} {worker : Worker} {jobId drawn : Uuid} {lost : Bool} {clock : Instant}
    {operation : Operation} {input : Input} {after : Fleet Worker}
    (hcall : (crew.fleet.workers worker).stage.call (config worker) (owner worker) jobId drawn =
      some operation)
    (hfresh : ∀ entry ∈ crew.fleet.history, entry.drawn ≠ some drawn)
    (hinput : (if lost then (crew.fleet.workers worker).stage.noReply clock
      else (crew.fleet.workers worker).stage.reply clock
        (Postgres.perform crew.fleet.now operation crew.fleet.database).1) = some input)
    (hstep : (crew.fleet.perform operation).resume config worker input = some after) :
    Crew.Kept registry config ⟨after, crew.requests, crew.pipes⟩ := by
  have hperform := h.call hcall
  have hafter := hsound.call hcall hfresh
  obtain ⟨stage, hresume, rfl⟩ := Option.map_eq_some_iff.mp hstep
  have hnoSpawn : ∀ lease, (crew.fleet.workers worker).stage ≠ .spawning lease := by
    intro lease hspawning
    rw [hspawning] at hcall
    exact absurd hcall (by simp [Stage.call])
  rcases Stage.reply_cases hinput with ⟨lease, hstage, hreply, rfl⟩ |
    ⟨before, cap, lease, hstage, hreply, rfl⟩ | ⟨hreserved, hrenewed, -⟩
  · -- the token was never drawn before, so no child was started under it
    rw [hstage] at hcall
    obtain rfl := Option.some.inj hcall
    have hrequests : crew.requests lease.id = none := by
      by_contra hsome
      obtain ⟨asked, hasked⟩ := Option.ne_none_iff_exists'.mp hsome
      obtain ⟨⟨entry, hentry, htoken⟩, -⟩ := h.requests lease.id asked hasked
      rw [Postgres.claim_lease_id hreply] at htoken
      exact hfresh entry hentry htoken
    rw [show (crew.fleet.perform _).workers worker = crew.fleet.workers worker from rfl,
      hstage] at hresume
    obtain rfl := Option.some.inj hresume
    exact hperform.take ((hsound.processes worker).starting (Or.inl hstage))
      (asks_of_claimed hreply) hrequests
  · rw [hstage] at hcall
    obtain rfl := Option.some.inj hcall
    refine hperform.follows hafter hresume (by simp)
      (fun found hfound ↦ absurd hfound (hnoSpawn found)) ?_
    intro renewed found foundCap foundClock hfound hinputs
    obtain ⟨rfl, -⟩ := Stage.extending.inj (hstage.symm.trans hfound)
    obtain ⟨hrenewal, -⟩ := Input.extended.inj hinputs
    rw [← Renewal.renewed.inj hrenewal]
    obtain ⟨hjob, hasks⟩ := asks_of_extended hreply
    exact ⟨Postgres.extend_lease_id hreply, hjob, hasks⟩
  · exact hperform.follows hafter hresume hreserved
      (fun found hfound ↦ absurd hfound (hnoSpawn found))
      fun renewed _ _ foundClock _ hinputs ↦ absurd hinputs (hrenewed renewed foundClock)

/-- What a supervisor gets without an effect on the stores. -/
theorem input (h : crew.Kept registry config) (hsound : crew.fleet.Sound) {worker : Worker}
    {input : Input} {after : Fleet Worker}
    (hallows : (crew.fleet.workers worker).stage.allows input = true)
    (hstep : crew.fleet.resume config worker input = some after) :
    Crew.Kept registry config ⟨after, crew.started (.input worker input), crew.pipes⟩ := by
  obtain ⟨stage, hresume, rfl⟩ := Option.map_eq_some_iff.mp hstep
  have hreserved : ∀ lease, input ≠ .reserved (some lease) := by
    rintro lease rfl
    cases hstage : (crew.fleet.workers worker).stage <;> simp [hstage, Stage.allows] at hallows
  have hrenewed : ∀ lease before cap clock,
      (crew.fleet.workers worker).stage = .extending before cap →
      input = .extended (.renewed lease) clock → lease.id = before.id ∧
        lease.job.id = before.job.id ∧ Asks crew.fleet.database (request lease.job) := by
    rintro lease before cap clock hstage rfl
    simp [hstage, Stage.allows] at hallows
  by_cases hspawned : ∃ time lease, input = .spawned time ∧
      (crew.fleet.workers worker).stage = .spawning lease
  · obtain ⟨time, lease, rfl, hstage⟩ := hspawned
    rw [hstage] at hresume
    obtain rfl := Option.some.inj hresume
    have hstarted : crew.started (.input worker (.spawned time)) =
        Function.update crew.requests lease.id (some (request lease.job)) := by
      simp only [Crew.started, hstage]
    rw [hstarted]
    exact h.spawn hsound hstage _
  · have hstarted : crew.started (.input worker input) = crew.requests := by
      unfold Crew.started
      split
      · next other time hevent =>
        obtain ⟨rfl, rfl⟩ := Event.input.inj hevent
        split
        · next lease hstage => exact absurd ⟨time, lease, rfl, hstage⟩ hspawned
        · rfl
      · rfl
    rw [hstarted]
    refine h.follows hsound hresume hreserved (fun lease hstage ↦ ?_) hrenewed
    rw [hstage] at hresume hallows
    cases input with
    | spawned time => exact absurd ⟨time, lease, rfl, hstage⟩ hspawned
    | raised =>
      rw [← Option.some.inj hresume]
      rfl
    | _ => simp [Stage.allows] at hallows

/-- Every step of a crew whose children keep to their requests. -/
theorem step (h : crew.Kept registry config) (hsound : crew.fleet.Sound) {owner : Worker → String}
    {event : Event Worker} {after : Crew Worker} (hpermitted : crew.Permitted registry event)
    (hstep : crew.step config owner event = some after) : after.Kept registry config := by
  obtain ⟨fleet, hfleet, rfl⟩ := Option.map_eq_some_iff.mp hstep
  cases Fleet.step_moves hfleet with
  | tick duration => exact h.tick duration
  | client operation hclient =>
    refine h.perform ?_
    rintro lease error retryIn rfl
    exact Bool.noConfusion hclient
  | unheard worker jobId drawn lost clock operation hcall hfresh => exact h.call hcall
  | heard worker jobId drawn lost clock operation input hcall hfresh hinput hresume =>
    exact h.heard hsound hcall hfresh hinput hresume
  | notStored worker applied error handled solved hstage hresume =>
    obtain ⟨stage, hnext, rfl⟩ := Option.map_eq_some_iff.mp hresume
    exact (h.write hsound hstage applied).follows (hsound.write hstage applied) hnext (by simp)
      (fun lease hspawning ↦ absurd (hspawning.symm.trans hstage) (by simp)) (by simp)
  | stored worker applied handled solved hstage hresume =>
    obtain ⟨stage, hnext, rfl⟩ := Option.map_eq_some_iff.mp hresume
    exact (h.write hsound hstage true).follows (hsound.write hstage true) hnext (by simp)
      (fun lease hspawning ↦ absurd (hspawning.symm.trans hstage) (by simp)) (by simp)
  | child worker read exitcode lease hrunning hcollected =>
    have hread : crew.collected (.child worker read exitcode) =
        Function.update crew.pipes lease.id (some (read, exitcode)) := by
      simp only [Crew.collected, hrunning]
    rw [hread]
    exact h.child hsound hrunning hcollected fun asked hasked ↦
      hpermitted lease asked hrunning hasked
  | input worker input hallows hresume => exact h.input hsound hallows hresume
  | restart worker => exact h.idle worker
  | crash worker => exact h.idle worker

end Crew.Kept

/-! ### The runs -/

namespace Crew

variable [DecidableEq Worker] {owner : Worker → String} {crew after : Crew Worker}

theorem Run.kept (h : Crew.Run registry config owner crew) :
    crew.fleet.Sound ∧ crew.Kept registry config := by
  induction h with
  | refl => exact ⟨.initial, .initial⟩
  | tail _ hgoes ih =>
    obtain ⟨event, hpermitted, hstep⟩ := hgoes
    obtain ⟨fleet, hfleet, hafter⟩ := Option.map_eq_some_iff.mp hstep
    refine ⟨?_, ih.2.step ih.1 hpermitted hstep⟩
    rw [← hafter]
    exact ih.1.step hfleet

/-- A child sends what it may. -/
theorem Run.sent (h : Crew.Run registry config owner crew) {event : Event Worker}
    (hpermitted : crew.Permitted registry event)
    (hstep : crew.step config owner event = some after) : Crew.Run registry config owner after :=
  h.tail ⟨event, hpermitted, hstep⟩

omit [DecidableEq Worker] in
/-- Whether an event is that of a child. -/
def ofChild : Event Worker → Bool
  | .child _ _ _ => true
  | _ => false

/-- Steps in which no child sends anything. -/
theorem Run.quiet (h : Crew.Run registry config owner crew) {events : List (Event Worker)}
    (hquiet : events.all (fun event ↦ !ofChild event) = true)
    (hsteps : crew.steps config owner events = some after) :
    Crew.Run registry config owner after := by
  induction events generalizing crew with
  | nil =>
    rw [← Option.some.inj hsteps]
    exact h
  | cons event events ih =>
    obtain ⟨middle, hstep, hrest⟩ := Option.bind_eq_some_iff.mp hsteps
    rw [List.all_cons, Bool.and_eq_true] at hquiet
    refine ih (h.sent ?_ hstep) hquiet.2 hrest
    cases event with
    | child worker read exitcode => exact absurd hquiet.1 (by simp [ofChild])
    | _ => trivial

end Crew

/-- What a job that is in the store asks. -/
theorem Asks.eq {database : Postgres.Database} {asked : SolveRequest} {row : Postgres.JobRow}
    (h : Asks database asked) (hrow : jobRow database asked.jobId = some row) :
    asked = ⟨row.kind, row.payload, asked.jobId⟩ :=
  h.unique ⟨row, hrow, rfl, rfl⟩ rfl

variable [DecidableEq Worker] {owner : Worker → String} {crew : Crew Worker}

/-- In every run of any number of supervisors, with whatever else calls the store: a job that is
done names an artifact, which is what the solver of its kind returned for its payload; so is every
object of the object store for the job that its key names, whether or not the job points at it; and
the kind and the payload are those of the call that created the job. -/
theorem artifacts_answer (hrun : Crew.Run registry config owner crew) :
    (∀ jobId row, jobRow crew.fleet.database jobId = some row → row.state = .done →
      ∃ key solved, row.resultRef = some key ∧
        crew.fleet.objects key = some ⟨solved.data, solved.contentType⟩ ∧
        Solves registry ⟨row.kind, row.payload, jobId⟩ (.solved solved)) ∧
    (∀ key object, crew.fleet.objects key = some object → ∃ jobId leaseId row,
      key = artifactKey jobId leaseId ∧ jobRow crew.fleet.database jobId = some row ∧
        Solves registry ⟨row.kind, row.payload, jobId⟩
          (.solved ⟨object.data, object.contentType⟩)) ∧
    ∀ jobId row, jobRow crew.fleet.database jobId = some row → ∃ asked, row.IsFor asked ∧
      ∃ entry ∈ crew.fleet.history, entry.Created jobId asked := by
  obtain ⟨hsound, hkept⟩ := hrun.kept
  have hobjects : ∀ key object, crew.fleet.objects key = some object → ∃ jobId leaseId row,
      key = artifactKey jobId leaseId ∧ jobRow crew.fleet.database jobId = some row ∧
        Solves registry ⟨row.kind, row.payload, jobId⟩
          (.solved ⟨object.data, object.contentType⟩) := by
    intro key object hobject
    obtain ⟨leaseId, asked, hasked, hkey, hsolves⟩ := hkept.objects key object hobject
    have hasks := (hkept.requests leaseId asked hasked).2
    obtain ⟨row, hrow, -, -⟩ := hasks
    rw [(hkept.requests leaseId asked hasked).2.eq hrow] at hsolves
    exact ⟨asked.jobId, leaseId, row, hkey, hrow, hsolves⟩
  refine ⟨fun jobId row hrow hdone ↦ ?_, hobjects, fun jobId row hrow ↦ ?_⟩
  · obtain ⟨entry, hentry, lease, hoperation, rfl⟩ :=
      hsound.run.ackedWith jobId row hrow hdone
    obtain ⟨-, key, hkey, hartifact, solved, -, hobject⟩ :=
      hsound.acks entry hentry lease row.resultRef hoperation
    obtain ⟨jobId, leaseId, found, hfound, hfoundRow, hsolves⟩ := hobjects key _ hobject
    obtain ⟨rfl, -⟩ := artifactKey_injective (hfound.symm.trans hartifact)
    obtain rfl : found = row := Option.some.inj (hfoundRow.symm.trans hrow)
    exact ⟨key, solved, hkey, hobject, hsolves⟩
  · exact hsound.run.asked jobId row hrow

/-- A job of a kind, claimed, and its child started. -/
def startedOn (kind : String) : List (Event Unit) :=
  [.client (.insertOrGet ⟨9⟩ ⟨kind, .nil, none, "key", 3, 0⟩),
    .store () ⟨9⟩ ⟨21⟩ false 0,
    .input () (.spawned 0)]

/-- A solver that answers every payload alike. -/
def greet : Solver := fun _ ran ↦ ran = .returned ⟨[104, 105], "text/plain"⟩

/-- A job that is done, and the answer it points at. -/
theorem artifacts_answer_greeting :
    ∃ (crew : Crew Unit) (row : Postgres.JobRow) (key : String) (solved : Solved),
      Crew.Run (resolve (fun _ ↦ false) greet) (fun _ ↦ .defaults) (fun _ ↦ "worker") crew ∧
      jobRow crew.fleet.database ⟨9⟩ = some row ∧ row.resultRef = some key ∧
      crew.fleet.objects key = some ⟨solved.data, solved.contentType⟩ ∧
      Solves (resolve (fun _ ↦ false) greet) ⟨row.kind, row.payload, ⟨9⟩⟩ (.solved solved) := by
  obtain ⟨spawned, hspawned, read, hread, crew, hinstalled, row, hrow, hdone⟩ : ∃ spawned,
      (Crew.initial Unit).steps (fun _ ↦ .defaults) (fun _ ↦ "worker")
        (startedOn "synthetic") = some spawned ∧ ∃ read,
      spawned.step (fun _ ↦ .defaults) (fun _ ↦ "worker")
        (.child () (.message (.solved ⟨[104, 105], "text/plain"⟩)) 0) = some read ∧ ∃ crew,
      read.steps (fun _ ↦ .defaults) (fun _ ↦ "worker")
        [.input () (.woke true false 1), .put () true none, .store () ⟨9⟩ ⟨22⟩ false 0] =
          some crew ∧ ∃ row, jobRow crew.fleet.database ⟨9⟩ = some row ∧ row.state = .done :=
    ⟨_, rfl, _, rfl, _, rfl, _, rfl, rfl⟩
  have hstart : Crew.Run (resolve (fun _ ↦ false) greet) (fun _ ↦ .defaults)
      (fun _ ↦ "worker") (Crew.initial Unit) := .refl
  have hpermitted : Crew.Permitted (resolve (fun _ ↦ false) greet) spawned
      (.child () (.message (.solved ⟨[104, 105], "text/plain"⟩)) 0) := by
    obtain rfl := Option.some.inj hspawned
    rintro lease asked hrunning hasked
    obtain rfl := Option.some.inj hrunning
    obtain rfl := Option.some.inj hasked
    exact .returned greet _ rfl rfl
  have hrun := ((hstart.quiet rfl hspawned).sent hpermitted hread).quiet rfl hinstalled
  obtain ⟨key, solved, hkey, hobject, hsolves⟩ := (artifacts_answer hrun).1 ⟨9⟩ row hrow hdone
  exact ⟨crew, row, key, solved, hrun, hrow, hkey, hobject, hsolves⟩

/-- The error that a job shows, in whatever state it is. It is the text that its last attempt gave
it back with, and explained by what the child of that attempt sent, or by what became of it, or by
the decision to stop it. Only a job that no attempt gave back may have died with its lease
instead. -/
theorem errors_explained (hrun : Crew.Run registry config owner crew) {jobId : Uuid}
    {row : Postgres.JobRow} (hrow : jobRow crew.fleet.database jobId = some row) {text : String}
    (herror : row.error = some text) :
    (∃ lease, Postgres.lastGivenBack jobId crew.fleet.history = some (lease, text) ∧
      Explains registry config crew ⟨row.kind, row.payload, jobId⟩ lease.id text) ∨
    Postgres.lastGivenBack jobId crew.fleet.history = none ∧ row.state = .dead ∧
      text = Postgres.leaseExpiredError := by
  obtain ⟨hsound, hkept⟩ := hrun.kept
  have hshows := hsound.run.showsError jobId
  rw [hrow] at hshows
  rcases hshows with hsame | ⟨hnone, hdead, hlapsed⟩
  · obtain ⟨⟨lease, found⟩, hgiven, rfl⟩ := Option.map_eq_some_iff.mp (hsame.symm.trans herror)
    obtain ⟨entry, hentry, retryIn, hoperation, rfl⟩ := Postgres.exists_of_lastGivenBack hgiven
    obtain ⟨asked, hasked, hjob, hexplains⟩ :=
      hkept.nacks entry hentry lease found retryIn hoperation
    rw [← hjob] at hrow hgiven ⊢
    rw [(hkept.requests lease.id asked hasked).2.eq hrow] at hexplains
    exact Or.inl ⟨lease, hgiven, hexplains⟩
  · exact Or.inr ⟨hnone, hdead, Option.some.inj (herror.symm.trans hlapsed)⟩

/-- A job of a kind that nothing solves, and the error that it shows after its first attempt. -/
theorem errors_explained_unknown :
    ∃ (crew : Crew Unit) (row : Postgres.JobRow) (lease : Lease) (text : String),
      Crew.Run (resolve (fun _ ↦ false) greet) (fun _ ↦ .defaults) (fun _ ↦ "worker") crew ∧
      jobRow crew.fleet.database ⟨9⟩ = some row ∧ row.error = some text ∧
      Explains (resolve (fun _ ↦ false) greet) (fun _ ↦ .defaults) crew
        ⟨row.kind, row.payload, ⟨9⟩⟩ lease.id text := by
  obtain ⟨spawned, hspawned, error, herror, read, hread, crew, hback, row, hrow, hfailed⟩ :
      ∃ spawned, (Crew.initial Unit).steps (fun _ ↦ .defaults) (fun _ ↦ "worker")
        (startedOn "noop") = some spawned ∧ ∃ error,
      resolve (fun _ ↦ false) greet "noop" = .error error ∧ ∃ read,
      spawned.step (fun _ ↦ .defaults) (fun _ ↦ "worker")
        (.child () (.message (.failed ⟨error, "", true⟩)) 0) = some read ∧ ∃ crew,
      read.steps (fun _ ↦ .defaults) (fun _ ↦ "worker")
        [.input () (.woke true false 1), .store () ⟨9⟩ ⟨22⟩ false 0] = some crew ∧ ∃ row,
      jobRow crew.fleet.database ⟨9⟩ = some row ∧ row.error = some error ∧ row.state = .failed :=
    ⟨_, rfl, _, rfl, _, rfl, _, rfl, _, rfl, rfl, rfl⟩
  have hstart : Crew.Run (resolve (fun _ ↦ false) greet) (fun _ ↦ .defaults)
      (fun _ ↦ "worker") (Crew.initial Unit) := .refl
  have hpermitted : Crew.Permitted (resolve (fun _ ↦ false) greet) spawned
      (.child () (.message (.failed ⟨error, "", true⟩)) 0) := by
    obtain rfl := Option.some.inj hspawned
    rintro lease asked hrunning hasked
    obtain rfl := Option.some.inj hrunning
    obtain rfl := Option.some.inj hasked
    exact .unknown error herror
  have hrun := ((hstart.quiet rfl hspawned).sent hpermitted hread).quiet rfl hback
  rcases errors_explained hrun hrow hfailed.1 with ⟨lease, -, hexplains⟩ | ⟨-, hdead, -⟩
  · exact ⟨crew, row, lease, error, hrun, hrow, hfailed.1, hexplains⟩
  · exact absurd (hfailed.2.symm.trans hdead) (by simp)

end Abacus.Worker
