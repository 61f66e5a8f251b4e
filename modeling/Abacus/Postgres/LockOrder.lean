import Abacus.Postgres.Operation
import Abacus.RowLocking.Deadlock

/-!
# The order of the locks

Every method of the two stores locks rows in one order (`LockedBefore`): the key a job is
deduplicated by, jobs, sessions, the key a message is deduplicated by, messages; two jobs in the
order in which `retire_lapsed` visits the table, two sessions by their number. Only `retire_lapsed`
holds more than one row of a kind: its jobs come in the order of its scan, and its sessions in the
order of the sort on `(session_id is None, session_id)`, which puts the jobs that lock no session
last.

`Operation.program_climbs` is this for every method, and `no_deadlock` what it is for: whatever
transactions run, they never wait for each other in a cycle, when the `retire_lapsed` that run at a
moment visit the rows of `jobs` in one order. `deadlock_of_three` shows why that order must be
common to all of them: three sweeps of which any two visit the jobs they share alike can wait in a
circle. Foreign key checks lock nothing here.
-/

set_option autoImplicit false
set_option relaxedAutoImplicit false

namespace Abacus.Postgres

open RowLocking (Program)

/-! ### The ranking -/

/-- The kind of a row, by the order in which the stores lock them. -/
def RowKey.tier : RowKey → ℕ
  | .idempotency _ _ => 0
  | .job _ => 1
  | .chatSession _ => 2
  | .clientMessage _ _ => 3
  | .chatMessage _ => 4

/-- The order in which rows are locked; `visits` is the order of the scans of `jobs`. -/
def LockedBefore (visits : Uuid → Uuid → Prop) (first second : RowKey) : Prop :=
  first.tier < second.tier ∨
    match first, second with
    | .job first, .job second => visits first second
    | .chatSession first, .chatSession second => first.int < second.int
    | _, _ => False

section Order

variable {visits : Uuid → Uuid → Prop}

theorem LockedBefore.of_tier {first second : RowKey} (h : first.tier < second.tier) :
    LockedBefore visits first second :=
  Or.inl h

theorem lockedBefore_job {first second : Uuid} :
    LockedBefore visits (.job first) (.job second) ↔ visits first second := by
  simp [LockedBefore, RowKey.tier]

theorem lockedBefore_chatSession {first second : Uuid} :
    LockedBefore visits (.chatSession first) (.chatSession second) ↔ first.int < second.int := by
  simp [LockedBefore, RowKey.tier]

theorem LockedBefore.tier_le {first second : RowKey} (h : LockedBefore visits first second) :
    first.tier ≤ second.tier := by
  rcases h with hlt | hsame
  · exact hlt.le
  · split at hsame
    · exact le_rfl
    · exact le_rfl
    · exact hsame.elim

/-- The ranking is a strict order when the order of the scans is. -/
instance [IsStrictOrder Uuid visits] : IsStrictOrder RowKey (LockedBefore visits) where
  irrefl key h := by
    rcases h with hlt | hsame
    · exact lt_irrefl _ hlt
    · split at hsame
      · exact irrefl _ hsame
      · exact BitVec.lt_irrefl _ hsame
      · exact hsame
  trans first second third hfirst hsecond := by
    rcases hfirst with hlt | hsame
    · exact Or.inl (hlt.trans_le hsecond.tier_le)
    · rcases hsecond with hlt | hsame'
      · exact Or.inl ((LockedBefore.tier_le (Or.inr hsame)).trans_lt hlt)
      · refine Or.inr ?_
        split at hsame
        · cases third with
          | job third => exact IsTrans.trans _ _ _ hsame hsame'
          | _ => exact hsame'.elim
        · cases third with
          | chatSession third => exact BitVec.lt_trans hsame hsame'
          | _ => exact hsame'.elim
        · exact hsame.elim

end Order

/-! ### The parts of the methods -/

section Parts

variable {visits : Uuid → Uuid → Prop} {last : Option RowKey}

/-- A statement on a job asks for a row of the second kind. -/
theorem updateJob_within (jobId : Uuid) (set : JobRow → Option JobRow) :
    (updateJob jobId set).Within fun key ↦ key.tier ≤ 1 :=
  ⟨le_rfl, fun _ ↦ trivial⟩

theorem updateJob_climbs {jobId : Uuid} {set : JobRow → Option JobRow}
    (hlast : ∀ held ∈ last, LockedBefore visits held (.job jobId)) :
    (updateJob jobId set).Climbs (LockedBefore visits) last :=
  ⟨fun held hheld ↦ Or.inr (hlast held hheld), fun _ ↦ trivial⟩

theorem allocateSeq_within (sessionId : Uuid) :
    (allocateSeq sessionId).Within fun key ↦ key.tier ≤ 2 := by
  refine ⟨le_rfl, ?_⟩
  rintro (_ | _ | next) <;> trivial

theorem allocateSeq_climbs {sessionId : Uuid}
    (hlast : ∀ held ∈ last, held = .chatSession sessionId ∨
      LockedBefore visits held (.chatSession sessionId)) :
    (allocateSeq sessionId).Climbs (LockedBefore visits) last := by
  refine ⟨hlast, ?_⟩
  rintro (_ | _ | next) <;> trivial

theorem recordEvent_within (jobId : Uuid) (row : JobRow) :
    (recordEvent jobId row).Within fun key ↦ key.tier ≤ 2 := by
  unfold recordEvent
  cases row.sessionId with
  | none => trivial
  | some sessionId => exact (allocateSeq_within sessionId).bind fun _ ↦ trivial

/-- An event asks for the session of its job, after jobs. -/
theorem recordEvent_climbs (jobId : Uuid) (row : JobRow)
    (hlast : ∀ held ∈ last, ∀ sessionId ∈ row.sessionId, held = .chatSession sessionId ∨
      LockedBefore visits held (.chatSession sessionId)) :
    (recordEvent jobId row).Climbs (LockedBefore visits) last := by
  unfold recordEvent
  cases hsession : row.sessionId with
  | none => trivial
  | some sessionId =>
    have hbefore : ∀ held ∈ last, held = .chatSession sessionId ∨
        LockedBefore visits held (.chatSession sessionId) :=
      fun held hheld ↦ hlast held hheld sessionId hsession
    refine ⟨hbefore, ?_⟩
    rintro (_ | _ | next) <;> trivial

/-- After a row of the first two kinds there is room for any session. -/
theorem recordEvent_climbs_of_job (jobId : Uuid) (row : JobRow)
    (hlast : ∀ held ∈ last, held.tier ≤ 1) :
    (recordEvent jobId row).Climbs (LockedBefore visits) last :=
  recordEvent_climbs jobId row fun held hheld _ _ ↦
    Or.inr (.of_tier (Nat.lt_succ_of_le (hlast held hheld)))

/-- A statement on a job and what follows it. -/
theorem transition_climbs {A : Type} {jobId : Uuid} {set : JobRow → Option JobRow}
    {rest : Option JobRow → Sql A}
    (hrest : ∀ row, ∀ last : Option RowKey, (∀ held ∈ last, held.tier ≤ 1) →
      (rest row).Climbs (LockedBefore visits) last) :
    (updateJob jobId set >>= rest).Climbs (LockedBefore visits) none := by
  refine Program.Climbs.bind (updateJob_climbs ?_) (updateJob_within jobId set) ?_ hrest
  · exact fun held hheld ↦ absurd hheld (by simp)
  · exact fun held hheld ↦ absurd hheld (by simp)

theorem transition_within {A : Type} {jobId : Uuid} {set : JobRow → Option JobRow}
    {rest : Option JobRow → Sql A} (hrest : ∀ row, (rest row).Within fun key ↦ key.tier ≤ 2) :
    (updateJob jobId set >>= rest).Within fun key ↦ key.tier ≤ 2 :=
  ((updateJob_within jobId set).mono fun _ hle ↦ hle.trans (Nat.le_succ 1)).bind hrest

/-! ### `retire_lapsed` -/

theorem retireRows_within (now : Instant) (scan : List Uuid) :
    (retireRows now scan).Within fun key ↦ key.tier ≤ 1 := by
  induction scan with
  | nil => trivial
  | cons jobId scan ih => exact (updateJob_within jobId _).bind fun _ ↦ ih.bind fun _ ↦ trivial

/-- The scan asks for the jobs in the order in which it visits them. -/
theorem retireRows_climbs (now : Instant) {scan : List Uuid} (hscan : scan.Pairwise visits)
    (hlast : ∀ held ∈ last, ∀ jobId ∈ scan, LockedBefore visits held (.job jobId)) :
    (retireRows now scan).Climbs (LockedBefore visits) last := by
  induction scan generalizing last with
  | nil => trivial
  | cons jobId scan ih =>
    obtain ⟨hfirst, hrest⟩ := List.pairwise_cons.mp hscan
    have htail : (retireRows now scan).Climbs (LockedBefore visits) (some (.job jobId)) := by
      refine ih hrest fun held hheld other hother ↦ ?_
      rw [← Option.some.inj hheld]
      exact lockedBefore_job.mpr (hfirst other hother)
    constructor
    · exact fun held hheld ↦ Or.inr (hlast held hheld jobId List.mem_cons_self)
    · exact fun row ↦ htail.map _

theorem recordEvents_within (rows : List (Uuid × JobRow)) :
    (recordEvents rows).Within fun key ↦ key.tier ≤ 2 := by
  induction rows with
  | nil => trivial
  | cons row rows ih => exact (recordEvent_within row.1 row.2).bind fun _ ↦ ih

/-- The sort puts an earlier session before a later one, and a job without a session last. -/
theorem sessionOrder_some {first second : Uuid × JobRow} {later : Uuid}
    (h : sessionOrder first second) (hlater : second.2.sessionId = some later) :
    ∃ earlier, first.2.sessionId = some earlier ∧ earlier.int ≤ later.int := by
  unfold sessionOrder at h
  rw [hlater] at h
  cases hsession : first.2.sessionId with
  | none => simp [hsession] at h
  | some earlier =>
    simp only [hsession] at h
    exact ⟨earlier, rfl, h⟩

instance : Std.Total sessionOrder where
  total first second := by
    unfold sessionOrder
    cases first.2.sessionId with
    | none => cases second.2.sessionId <;> simp
    | some session =>
      cases second.2.sessionId with
      | none => simp
      | some other => exact BitVec.le_total _ _

instance : IsTrans (Uuid × JobRow) sessionOrder where
  trans first second third hfirst hsecond := by
    cases hthird : third.2.sessionId with
    | none =>
      unfold sessionOrder
      rw [hthird]
      cases first.2.sessionId <;> simp
    | some last =>
      obtain ⟨middle, hmiddle, hle⟩ := sessionOrder_some hsecond hthird
      obtain ⟨session, hsession, hle'⟩ := sessionOrder_some hfirst hmiddle
      unfold sessionOrder
      simp only [hsession, hthird]
      exact BitVec.le_trans hle' hle

/-- Events in the order of the sort ask for their sessions in the order of the numbers. -/
theorem recordEvents_climbs {rows : List (Uuid × JobRow)} (hrows : rows.Pairwise sessionOrder)
    (hlast : ∀ held ∈ last, ∀ row ∈ rows, ∀ sessionId ∈ row.2.sessionId,
      held = .chatSession sessionId ∨ LockedBefore visits held (.chatSession sessionId)) :
    (recordEvents rows).Climbs (LockedBefore visits) last := by
  induction rows generalizing last with
  | nil => trivial
  | cons row rows ih =>
    obtain ⟨hfirst, hrest⟩ := List.pairwise_cons.mp hrows
    unfold recordEvents recordEvent
    cases hsession : row.2.sessionId with
    | none =>
      exact ih hrest fun held hheld other hother ↦
        hlast held hheld other (List.mem_cons_of_mem row hother)
    | some sessionId =>
      have htail : (recordEvents rows).Climbs (LockedBefore visits)
          (some (.chatSession sessionId)) := by
        refine ih hrest fun held hheld other hother later hlater ↦ ?_
        obtain ⟨earlier, hearlier, hle⟩ := sessionOrder_some (hfirst other hother) hlater
        obtain rfl : sessionId = earlier := Option.some.inj (hsession.symm.trans hearlier)
        rw [← Option.some.inj hheld]
        by_cases heq : sessionId = later
        · exact Or.inl (congrArg RowKey.chatSession heq)
        · refine Or.inr (lockedBefore_chatSession.mpr (BitVec.lt_of_le_ne hle ?_))
          exact fun hint ↦ heq (congrArg Uuid.mk hint)
      refine ⟨fun held hheld ↦ hlast held hheld row List.mem_cons_self sessionId hsession, ?_⟩
      rintro (_ | _ | next)
      · trivial
      · trivial
      · exact htail

theorem retireLapsed_climbs (now : Instant) {scan : List Uuid} (hscan : scan.Pairwise visits) :
    (retireLapsed now scan).Climbs (LockedBefore visits) none := by
  have hrows : (retireRows now scan).Climbs (LockedBefore visits) none :=
    retireRows_climbs now hscan fun held hheld ↦ absurd hheld (by simp)
  refine hrows.bind (retireRows_within now scan) (fun held hheld ↦ absurd hheld (by simp)) ?_
  intro rows last hlast
  refine Program.Climbs.map _ (recordEvents_climbs (List.pairwise_insertionSort _ rows) ?_)
  exact fun held hheld _ _ _ _ ↦ Or.inr (.of_tier (Nat.lt_succ_of_le (hlast held hheld)))

end Parts

/-! ### Every method -/

section Methods

variable {visits : Uuid → Uuid → Prop}

/-- The scan of a `retire_lapsed` visits the jobs in the order given. -/
def Operation.VisitsInOrder (visits : Uuid → Uuid → Prop) : Operation → Prop
  | .retireLapsed scan => scan.Pairwise visits
  | _ => True

/-- No method of the job store asks for a message. -/
theorem Operation.program_within (now : Instant) {operation : Operation}
    (hjob : onChat operation = false) :
    (operation.program now).Within fun key ↦ key.tier ≤ 2 := by
  cases operation with
  | insertOrGet jobId request =>
    refine Program.Within.map _ ?_
    unfold Postgres.insertOrGet
    split_ifs with hattempts
    · trivial
    · refine ⟨Nat.zero_le 2, ?_⟩
      rintro (_ | row)
      · intro snapshot
        dsimp only
        split
        · split <;> trivial
        · trivial
      · refine ⟨Nat.le_succ 1, ?_⟩
        rintro (_ | row)
        · trivial
        · exact (recordEvent_within jobId _).bind fun _ ↦ trivial
  | markPublished jobId =>
    refine Program.Within.map _ (transition_within ?_)
    exact fun _ ↦ trivial
  | getJob jobId => exact fun _ ↦ trivial
  | cancel jobId =>
    refine (transition_within ?_).map _
    rintro (_ | row)
    · exact fun _ ↦ trivial
    · dsimp only
      split_ifs
      · exact (recordEvent_within jobId row).bind fun _ ↦ trivial
      · trivial
  | claim jobId leaseId owner lease =>
    refine (transition_within ?_).map _
    rintro (_ | row)
    · trivial
    · exact (recordEvent_within jobId row).bind fun _ ↦ trivial
  | lapsedReservable scan => exact fun _ ↦ trivial
  | retireLapsed scan =>
    refine Program.Within.map _ (Program.Within.bind ?_ fun rows ↦ ?_)
    · exact (retireRows_within now scan).mono fun _ hle ↦ hle.trans (Nat.le_succ 1)
    · exact (recordEvents_within _).bind fun _ ↦ trivial
  | unpublished scan olderThan => exact fun _ ↦ trivial
  | extend lease duration =>
    refine (transition_within ?_).map _
    rintro (_ | row) <;> trivial
  | ack lease resultRef =>
    refine (transition_within ?_).map _
    rintro (_ | row)
    · trivial
    · exact recordEvent_within lease.job.id row
  | nack lease error retryIn =>
    refine (transition_within ?_).map _
    rintro (_ | row)
    · trivial
    · exact (recordEvent_within lease.job.id row).bind fun _ ↦ trivial
  | ensureSession sessionId => exact nomatch hjob
  | recordUserMessage sessionId clientMsgId text messageId => exact nomatch hjob
  | byClientMsgId sessionId clientMsgId => exact nomatch hjob
  | startAssistantMessage sessionId messageId => exact nomatch hjob
  | completeAssistantMessage messageId text => exact nomatch hjob
  | failAssistantMessage messageId => exact nomatch hjob
  | logSince sessionId afterSeq limit => exact nomatch hjob

/-- The insertion of a message asks for it last. -/
theorem insertMessage_climbs {last : Option RowKey} (messageId : Uuid) (row : ChatMessageRow)
    (hlast : ∀ held ∈ last, held.tier < 4) :
    (insertMessage messageId row).Climbs (LockedBefore visits) last := by
  refine ⟨fun held hheld ↦ Or.inr (.of_tier (hlast held hheld)), ?_⟩
  rintro (_ | row) <;> trivial

/-- Every method asks for its rows in the one order. -/
theorem Operation.program_climbs (now : Instant) {operation : Operation}
    (hvisits : operation.VisitsInOrder visits) :
    (operation.program now).Climbs (LockedBefore visits) none := by
  have hnone : ∀ held ∈ (none : Option RowKey), held.tier ≤ 2 :=
    fun held hheld ↦ absurd hheld (by simp)
  have hfree : ∀ {key}, ∀ held ∈ (none : Option RowKey), held = key ∨
      LockedBefore visits held key := fun held hheld ↦ absurd hheld (by simp)
  cases operation with
  | insertOrGet jobId request =>
    refine Program.Climbs.map _ ?_
    unfold Postgres.insertOrGet
    split_ifs with hattempts
    · trivial
    · refine ⟨hfree, ?_⟩
      rintro (_ | row)
      · intro snapshot
        dsimp only
        split
        · split <;> trivial
        · trivial
      · refine ⟨fun held hheld ↦ ?_, ?_⟩
        · rw [← Option.some.inj hheld]
          exact Or.inr (.of_tier Nat.zero_lt_one)
        · rintro (_ | row)
          · trivial
          · refine (recordEvent_climbs_of_job jobId _ fun held hheld ↦ ?_).map _
            rw [← Option.some.inj hheld]
            exact le_rfl
  | markPublished jobId =>
    refine Program.Climbs.map _ (transition_climbs ?_)
    exact fun _ _ _ ↦ trivial
  | getJob jobId => exact fun _ ↦ trivial
  | cancel jobId =>
    refine (transition_climbs ?_).map _
    rintro (_ | row) last hlast
    · exact fun _ ↦ trivial
    · dsimp only
      split_ifs
      · exact (recordEvent_climbs_of_job jobId row hlast).map _
      · trivial
  | claim jobId leaseId owner lease =>
    refine (transition_climbs ?_).map _
    rintro (_ | row) last hlast
    · trivial
    · exact (recordEvent_climbs_of_job jobId row hlast).map _
  | lapsedReservable scan => exact fun _ ↦ trivial
  | retireLapsed scan => exact (retireLapsed_climbs now hvisits).map _
  | unpublished scan olderThan => exact fun _ ↦ trivial
  | extend lease duration =>
    refine (transition_climbs ?_).map _
    rintro (_ | row) last hlast <;> trivial
  | ack lease resultRef =>
    refine (transition_climbs ?_).map _
    rintro (_ | row) last hlast
    · trivial
    · exact recordEvent_climbs_of_job lease.job.id row hlast
  | nack lease error retryIn =>
    refine (transition_climbs ?_).map _
    rintro (_ | row) last hlast
    · trivial
    · exact (recordEvent_climbs_of_job lease.job.id row hlast).map _
  | ensureSession sessionId => exact ⟨hfree, fun _ ↦ trivial⟩
  | recordUserMessage sessionId clientMsgId text messageId =>
    refine Program.Climbs.map _ ((allocateSeq_climbs hfree).bind
      (allocateSeq_within sessionId) hnone fun seq last hlast ↦ ?_)
    refine ⟨fun held hheld ↦ Or.inr (.of_tier (Nat.lt_succ_of_le (hlast held hheld))), ?_⟩
    rintro (_ | row)
    · trivial
    · refine (insertMessage_climbs messageId _ fun held hheld ↦ ?_).map _
      rw [← Option.some.inj hheld]
      exact Nat.lt_succ_self 3
  | byClientMsgId sessionId clientMsgId =>
    refine Program.Climbs.map _ fun snapshot ↦ ?_
    dsimp only
    split
    · split <;> trivial
    · trivial
  | startAssistantMessage sessionId messageId =>
    refine Program.Climbs.map _ ((allocateSeq_climbs hfree).bind
      (allocateSeq_within sessionId) hnone fun seq last hlast ↦ ?_)
    exact insertMessage_climbs messageId _ fun held hheld ↦
      (hlast held hheld).trans_lt (by decide)
  | completeAssistantMessage messageId text => exact ⟨hfree, fun _ ↦ trivial⟩
  | failAssistantMessage messageId => exact ⟨hfree, fun _ ↦ trivial⟩
  | logSince sessionId afterSeq limit =>
    exact .of_readOnly ((logSince_readOnly sessionId afterSeq limit).map _)

/-- However many backends run whatever methods of the two stores on whatever rows, and however
their statements interleave: when the scans of the `retire_lapsed` that run at a moment follow one
order, no backend waits at that moment, through any number of others, for itself. -/
theorem no_deadlock {Backend : Type} [DecidableEq Backend] [IsStrictOrder Uuid visits]
    {database : Database} {history : List Commit} {system : System Backend}
    (h : RowLocking.Execution Call.program database history system)
    (hscans : ∀ backend transaction, system.running backend = some transaction →
      transaction.label.operation.VisitsInOrder visits) (backend : Backend) :
    ¬Relation.TransGen system.WaitsFor backend backend := by
  have hordered : system.Ordered Call.program (LockedBefore visits) :=
    fun other transaction hrunning ↦
      Operation.program_climbs transaction.label.now (hscans other transaction hrunning)
  exact h.no_wait_cycle hordered backend

/-- The order of the numbers of the jobs is one a scan can follow. -/
def byNumber (first second : Uuid) : Prop :=
  first.int < second.int

instance : IsStrictOrder Uuid byNumber where
  irrefl job := BitVec.lt_irrefl job.int
  trans _ _ _ := BitVec.lt_trans

/-- A job that ran out of attempts and of time. -/
def exhausted : JobRow where
  sessionId := some ⟨7⟩
  idempotencyKey := "key"
  kind := "solve"
  payload := .nil
  state := .running
  attempts := 1
  maxAttempts := 1
  runAfter := 0
  publishedAt := none
  leaseId := some ⟨5⟩
  leaseExpiresAt := some 10
  leaseOwner := some "worker"
  cancelRequested := false
  resultRef := none
  error := none

/-- `retire_lapsed` has locked a job that a `cancel` asks for. The `cancel` waits for it, and no
backend for itself. -/
theorem no_deadlock_waiting :
    ∃ system : System Bool, system.WaitsFor true false ∧
      ∀ backend, ¬Relation.TransGen system.WaitsFor backend backend := by
  let database : Database := Database.empty.set (.job ⟨1⟩) (some exhausted)
  obtain ⟨history, system, hrun, hwaits, hscans⟩ : ∃ history, ∃ system : System Bool,
      RowLocking.Execution Call.program database history system ∧ system.WaitsFor true false ∧
        ∀ backend transaction, system.running backend = some transaction →
          transaction.label.operation.VisitsInOrder byNumber := by
    have hidle : RowLocking.Execution Call.program database []
      (RowLocking.System.idle database : System Bool) := .idle
    have hretire := hidle.step (.start false ⟨20, .retireLapsed [⟨1⟩]⟩ rfl)
    have hstop := hretire.step (.start true ⟨20, .cancel ⟨1⟩⟩ rfl)
    have hlocked := hstop.step
      (.update false _ (.job ⟨1⟩) _ _ _ _ (some exhausted.retired) rfl ?_ rfl)
    · refine ⟨_, _, hlocked, ⟨.job ⟨1⟩, by decide, ⟨_, _, _, _, _, rfl⟩, _, rfl, ?_⟩, ?_⟩
      · simp [RowLocking.Transaction.Locks]
      · rintro (_ | _) transaction hrunning
        · rw [← Option.some.inj hrunning]
          exact List.pairwise_singleton _ _
        · rw [← Option.some.inj hrunning]
          trivial
    · intro other transaction hother hrunning
      cases other with
      | false => exact absurd rfl hother
      | true =>
        rw [← Option.some.inj hrunning]
        exact fun hlock ↦ hlock rfl
  exact ⟨system, hwaits, no_deadlock hrun hscans⟩

/-- Two scans visit the jobs they share in the same order. -/
def ShareOrder (first second : List Uuid) : Prop :=
  first.filter (· ∈ second) = second.filter (· ∈ first)

instance : DecidableRel ShareOrder :=
  fun first second ↦ inferInstanceAs (Decidable (first.filter _ = second.filter _))

/-- A backend waits with a statement that would match the row as it is committed. -/
def WaitsMatching {Backend : Type} (system : System Backend) (backend holder : Backend) : Prop :=
  ∃ key, system.Waits backend holder key ∧
    ∃ label statement next writes inserted,
      system.running backend = some ⟨label, .update key statement next, writes, inserted⟩ ∧
        statement (system.committed.row key) ≠ none

/-- The scans of three sweeps over three lapsed jobs. -/
def roundScan : Fin 3 → List Uuid
  | 0 => [⟨1⟩, ⟨2⟩]
  | 1 => [⟨2⟩, ⟨3⟩]
  | 2 => [⟨3⟩, ⟨1⟩]

/-- That any two sweeps lock the jobs they share in the same order is not enough. Each of three
sweeps has locked the first job of its scan and asks for the second, which the next one has: they
wait for each other in a cycle. -/
theorem deadlock_of_three : (∀ first second, ShareOrder (roundScan first) (roundScan second)) ∧
    ∃ database history, ∃ system : System (Fin 3),
      RowLocking.Execution Call.program database history system ∧
        (∀ backend, ∃ transaction, system.running backend = some transaction ∧
          transaction.label.operation = .retireLapsed (roundScan backend)) ∧
        (∀ backend, WaitsMatching system backend (backend + 1)) ∧
        Relation.TransGen system.WaitsFor 0 0 := by
  refine ⟨by decide, ?_⟩
  have hthree : ∀ backend : Fin 3, backend = 0 ∨ backend = 1 ∨ backend = 2 := by decide
  let database : Database := ((Database.empty.set (.job ⟨1⟩) (some exhausted)).set
    (.job ⟨2⟩) (some exhausted)).set (.job ⟨3⟩) (some exhausted)
  obtain ⟨history, system, hrun, hscans, hwaits⟩ : ∃ history, ∃ system : System (Fin 3),
      RowLocking.Execution Call.program database history system ∧
        (∀ backend, ∃ transaction, system.running backend = some transaction ∧
          transaction.label.operation = .retireLapsed (roundScan backend)) ∧
        ∀ backend, WaitsMatching system backend (backend + 1) := by
    have hidle : RowLocking.Execution Call.program database []
      (RowLocking.System.idle database : System (Fin 3)) := .idle
    have hfirst := hidle.step (.start 0 ⟨20, .retireLapsed (roundScan 0)⟩ rfl)
    have hsecond := hfirst.step (.start 1 ⟨20, .retireLapsed (roundScan 1)⟩ rfl)
    have hthird := hsecond.step (.start 2 ⟨20, .retireLapsed (roundScan 2)⟩ rfl)
    have hone := hthird.step
      (.update 0 _ (.job ⟨1⟩) _ _ _ _ (some exhausted.retired) rfl ?_ rfl)
    have htwo := hone.step
      (.update 1 _ (.job ⟨2⟩) _ _ _ _ (some exhausted.retired) rfl ?_ rfl)
    have hround := htwo.step
      (.update 2 _ (.job ⟨3⟩) _ _ _ _ (some exhausted.retired) rfl ?_ rfl)
    · refine ⟨_, _, hround, ?_, ?_⟩
      · intro backend
        rcases hthree backend with rfl | rfl | rfl
        all_goals exact ⟨_, rfl, rfl⟩
      · intro backend
        rcases hthree backend with rfl | rfl | rfl
        all_goals
          refine ⟨.job _, ⟨by decide, ⟨_, _, _, _, _, rfl⟩, _, rfl, ?_⟩, _, _, _, _, _, rfl, ?_⟩
          · simp [RowLocking.Transaction.Locks]
          · exact Option.some_ne_none (some exhausted.retired)
    -- Nobody else has written the row, whichever sweep locks its first job.
    all_goals
      intro other transaction hother hrunning
      rcases hthree other with rfl | rfl | rfl
      all_goals first
        | exact absurd rfl hother
        | rw [← Option.some.inj hrunning]
          exact fun hlock ↦ hlock rfl
  refine ⟨database, history, system, hrun, hscans, hwaits, ?_⟩
  have hedge : ∀ backend, system.WaitsFor backend (backend + 1) := by
    intro backend
    obtain ⟨key, hwait, -⟩ := hwaits backend
    exact ⟨key, hwait⟩
  exact ((Relation.TransGen.single (hedge 0)).tail (hedge 1)).tail (hedge 2)

end Methods

end Abacus.Postgres
