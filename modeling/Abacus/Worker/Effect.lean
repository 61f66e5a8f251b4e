import Abacus.Postgres.ResultRef
import Abacus.Worker.Attempt

/-!
# Two executions, one effect

The invariant of a fleet of supervisors (`Fleet.Sound`). A lease is held by one supervisor at most,
and its child reports once. What is stored under a key is what the child of the one attempt that has
that key reported, so a put never changes an object. An attempt that was stopped calls neither `put`
nor `ack`.

`one_effect` reads off what the rows say: a job with a result is done, the result is the key of the
one attempt whose ack succeeded, what that attempt's child reported is stored there, no other
attempt writes there, and the result never changes.
-/

set_option autoImplicit false
set_option relaxedAutoImplicit false

namespace Abacus.Worker

open Postgres (Database Entry Operation StoreError jobRow)

variable {Worker : Type}

/-! ### The invariant -/

namespace Fleet

/-- A token that a claim drew. -/
def Drawn (fleet : Fleet Worker) (leaseId : Uuid) : Prop :=
  ∃ entry ∈ fleet.history, entry.drawn = some leaseId

/-- An attempt that has called neither `put` nor `ack`. -/
def Untouched (fleet : Fleet Worker) (leaseId : Uuid) : Prop :=
  (∀ write ∈ fleet.writes, write.leaseId ≠ leaseId) ∧
    ∀ entry ∈ fleet.history, ∀ lease resultRef,
      entry.call.operation = .ack lease resultRef → lease.id ≠ leaseId

/-- What the child of an attempt reported is stored under the attempt's key. -/
def Stored (fleet : Fleet Worker) (jobId leaseId : Uuid) (key : String) : Prop :=
  key = artifactKey jobId leaseId ∧ ∃ solved, fleet.reports leaseId = some (.solved solved) ∧
    fleet.objects key = some ⟨solved.data, solved.contentType⟩

end Fleet

/-- What holds of one supervisor. -/
structure Process.Sound (fleet : Fleet Worker) (process : Process) : Prop where
  drawn : ∀ lease, process.stage.lease = some lease → fleet.Drawn lease.id
  starting : (process.stage = .reserving ∨ ∃ lease, process.stage = .spawning lease) →
    process.collected = none
  silent : ∀ lease, process.stage = .spawning lease ∨ process.stage.running = some lease →
    process.collected = none → fleet.reports lease.id = none
  reported : ∀ lease outcome, process.stage.running = some lease →
    process.collected = some (.ok outcome) → fleet.reports lease.id = some outcome
  putting : ∀ handled solved, process.stage = .putting handled solved →
    handled.ending = .completed ∧ fleet.reports handled.lease.id = some (.solved solved)
  acking : ∀ handled resultRef, process.stage = .acking handled resultRef →
    handled.ending = .completed ∧ fleet.Stored handled.lease.job.id handled.lease.id resultRef
  untouched : ∀ lease, process.stage.lease = some lease → process.stage.ending ≠ some .completed →
    fleet.Untouched lease.id

/-- What holds of all of them and of the stores. -/
structure Fleet.Sound (fleet : Fleet Worker) : Prop where
  run : Postgres.Run fleet.history fleet.database
  clock : ∀ entry ∈ fleet.history, entry.call.now ≤ fleet.now
  processes : ∀ worker, (fleet.workers worker).Sound fleet
  alone : ∀ worker other lease otherLease, (fleet.workers worker).stage.lease = some lease →
    (fleet.workers other).stage.lease = some otherLease → lease.id = otherLease.id → worker = other
  reports : ∀ leaseId, fleet.reports leaseId ≠ none → fleet.Drawn leaseId
  objects : ∀ key object, fleet.objects key = some object → ∃ jobId leaseId,
    key = artifactKey jobId leaseId ∧
      fleet.reports leaseId = some (.solved ⟨object.data, object.contentType⟩)
  writes : ∀ write ∈ fleet.writes,
    write.key = artifactKey write.jobId write.leaseId ∧ fleet.Drawn write.leaseId
  acks : ∀ entry ∈ fleet.history, ∀ lease resultRef,
    entry.call.operation = .ack lease resultRef → fleet.Drawn lease.id ∧
      ∃ key, resultRef = some key ∧ fleet.Stored lease.job.id lease.id key
  endings : ∀ leaseId ending, (leaseId, ending) ∈ fleet.endings → ending ≠ .completed →
    fleet.Drawn leaseId ∧ fleet.Untouched leaseId ∧
      ∀ worker lease, (fleet.workers worker).stage.lease = some lease → lease.id = leaseId →
        (fleet.workers worker).stage.ending = some ending

theorem Stage.lease_of_running {stage : Stage} {lease : Lease} (h : stage.running = some lease) :
    stage.lease = some lease := by
  cases stage with
  | watching held cap => exact h
  | extending held cap => exact h
  | stopping held ending => exact h
  | killed held ending => exact h
  | _ => exact absurd h (by simp [Stage.running])

theorem Stage.of_mem_decided {stage : Stage} {leaseId : Uuid} {ending : Ending}
    (h : (leaseId, ending) ∈ stage.decided.toList) :
    ∃ lease, stage = .stopping lease ending ∧ leaseId = lease.id := by
  cases stage with
  | stopping lease found =>
    obtain ⟨rfl, rfl⟩ := Prod.mk.inj (List.mem_singleton.mp h)
    exact ⟨lease, rfl, rfl⟩
  | _ => exact absurd h List.not_mem_nil

/-- Only `reserve` claims, with the token that is drawn for it. -/
theorem Stage.drawn_of_call {stage : Stage} {config : WorkerConfig} {name owner : String}
    {jobId drawn claimed leaseId : Uuid} {lease : Duration}
    (h : stage.call config name jobId drawn = some (.claim claimed leaseId owner lease)) :
    leaseId = drawn := by
  cases stage with
  | reserving => exact (Operation.claim.inj (Option.some.inj h)).2.1.symm
  | _ => exact absurd h (by simp [Stage.call])

/-- Only the last stage of an installation acks, under its own lease and key. -/
theorem Stage.acking_of_call {stage : Stage} {config : WorkerConfig} {name : String}
    {jobId drawn : Uuid} {lease : Lease} {resultRef : Option String}
    (h : stage.call config name jobId drawn = some (.ack lease resultRef)) :
    ∃ handled key, stage = .acking handled key ∧ lease = handled.lease ∧ resultRef = some key := by
  cases stage with
  | acking handled key =>
    obtain ⟨rfl, rfl⟩ := Operation.ack.inj (Option.some.inj h)
    exact ⟨handled, key, rfl, rfl, rfl⟩
  | _ => exact absurd h (by simp [Stage.call])

/-- What a supervisor makes of a reply. Only a claim gives it a lease, and only an `extend` another
one. -/
theorem Stage.reply_cases {stage : Stage} {lost : Bool} {clock : Instant}
    {reply : Except StoreError Postgres.Outcome} {input : Input}
    (h : (if lost then stage.noReply clock else stage.reply clock reply) = some input) :
    (∃ lease, stage = .reserving ∧ reply = .ok (.claimed (some lease)) ∧
      input = .reserved (some lease)) ∨
    (∃ before cap lease, stage = .extending before cap ∧ reply = .ok (.extended lease) ∧
      input = .extended (.renewed lease) clock) ∨
    (∀ lease, input ≠ .reserved (some lease)) ∧
      (∀ lease found, input ≠ .extended (.renewed lease) found) ∧ input ≠ .stored := by
  split at h
  · refine Or.inr (Or.inr ?_)
    unfold Stage.noReply at h
    split at h
    case h_5 => exact absurd h (by simp)
    all_goals
      rw [← Option.some.inj h]
      exact ⟨by simp, by simp, by simp⟩
  · unfold Stage.reply at h
    split at h
    case h_1 lease => exact Or.inl ⟨lease, rfl, rfl, (Option.some.inj h).symm⟩
    case h_3 before cap lease =>
      exact Or.inr (Or.inl ⟨before, cap, lease, rfl, rfl, (Option.some.inj h).symm⟩)
    case h_12 => exact absurd h (by simp)
    all_goals
      refine Or.inr (Or.inr ?_)
      rw [← Option.some.inj h]
      exact ⟨by simp, by simp, by simp⟩

/-- What holds of a supervisor goes on to hold while others go on. -/
theorem Process.Sound.mono {before after : Fleet Worker} {process : Process}
    (h : process.Sound before) (hdrawn : ∀ leaseId, before.Drawn leaseId → after.Drawn leaseId)
    (hreports : ∀ lease, process.stage.lease = some lease →
      after.reports lease.id = before.reports lease.id)
    (hstored : ∀ jobId leaseId key, before.Stored jobId leaseId key →
      after.Stored jobId leaseId key)
    (huntouched : ∀ lease, process.stage.lease = some lease →
      process.stage.ending ≠ some .completed → before.Untouched lease.id →
      after.Untouched lease.id) : process.Sound after where
  drawn := fun lease hlease ↦ hdrawn _ (h.drawn lease hlease)
  starting := h.starting
  silent := by
    intro lease hstage hnone
    have hlease : process.stage.lease = some lease := by
      rcases hstage with hspawning | hrunning
      · rw [hspawning]
        rfl
      · exact Stage.lease_of_running hrunning
    rw [hreports lease hlease]
    exact h.silent lease hstage hnone
  reported := by
    intro lease outcome hrunning hcollected
    rw [hreports lease (Stage.lease_of_running hrunning)]
    exact h.reported lease outcome hrunning hcollected
  putting := by
    intro handled solved hstage
    rw [hreports handled.lease (by rw [hstage]; rfl)]
    exact h.putting handled solved hstage
  acking := by
    intro handled resultRef hstage
    obtain ⟨hcompleted, hkey⟩ := h.acking handled resultRef hstage
    exact ⟨hcompleted, hstored _ _ _ hkey⟩
  untouched := fun lease hlease hending ↦
    huntouched lease hlease hending (h.untouched lease hlease hending)

/-! ### The next stage of an attempt -/

section Follows

variable {fleet : Fleet Worker} {process : Process} {collected : Option Collected} {input : Input}
  {old new : Stage}

/-- The lease of the next stage is under the token of this one, if `extend` keeps the token. -/
theorem Stage.Follows.lease_id (h : Stage.Follows collected input old new)
    (hrenewed : ∀ lease before cap clock, old = .extending before cap →
      input = .extended (.renewed lease) clock → lease.id = before.id)
    {lease : Lease} (hlease : new.lease = some lease) :
    ∃ before, old.lease = some before ∧ lease.id = before.id := by
  obtain ⟨before, hbefore, rfl | ⟨cap, clock, hextending, hinput⟩⟩ := h.lease lease hlease
  · exact ⟨lease, hbefore, rfl⟩
  · exact ⟨before, hbefore, hrenewed lease before cap clock hextending hinput⟩

/-- The child that runs under the lease of the next stage is being spawned, or runs under the token
already. -/
theorem Stage.Follows.running_id (h : Stage.Follows collected input old new)
    (hrenewed : ∀ lease before cap clock, old = .extending before cap →
      input = .extended (.renewed lease) clock → lease.id = before.id)
    {lease : Lease} (hlease : new.running = some lease) :
    (∃ before, old = .spawning before ∧ lease.id = before.id) ∨
      ∃ before, old.running = some before ∧ lease.id = before.id := by
  obtain ⟨before, hbefore, hsame⟩ := h.lease_id hrenewed (Stage.lease_of_running hlease)
  rcases h.running (by simp [hlease]) with ⟨held, hspawning⟩ | hold
  · refine Or.inl ⟨held, hspawning, ?_⟩
    rw [hspawning] at hbefore
    rw [hsame, ← Option.some.inj hbefore]
  · obtain ⟨held, hheld⟩ := Option.ne_none_iff_exists'.mp hold
    refine Or.inr ⟨held, hheld, ?_⟩
    rw [hsame, Option.some.inj (hbefore.symm.trans (Stage.lease_of_running hheld))]

/-- An ending that was decided on stays the ending while there is a lease. -/
theorem Stage.Follows.ending_kept (h : Stage.Follows collected input old new) {lease : Lease}
    (hlease : new.lease = some lease) {ending : Ending} (hending : old.ending = some ending) :
    new.ending = some ending := by
  have hsome : new.lease ≠ none := by
    rw [hlease]
    exact Option.some_ne_none lease
  rcases h.ending hsome with hnone | hkept
  · exact nomatch hnone.symm.trans hending
  · exact hkept.trans hending

/-- What holds of a supervisor holds of it in the next stage. -/
theorem Process.Sound.follows (h : process.Sound fleet)
    (hfollows : Stage.Follows process.collected input process.stage new)
    (hrenewed : ∀ lease before cap clock, process.stage = .extending before cap →
      input = .extended (.renewed lease) clock → lease.id = before.id)
    (hstored : ∀ handled solved, process.stage = .putting handled solved →
      input = .stored → fleet.objects (artifactKey handled.lease.job.id handled.lease.id) =
        some ⟨solved.data, solved.contentType⟩) :
    Process.Sound fleet { process with stage := new } where
  drawn := by
    intro lease hlease
    obtain ⟨before, hbefore, hsame⟩ := hfollows.lease_id hrenewed hlease
    rw [hsame]
    exact h.drawn before hbefore
  starting := by
    rintro (hreserving | ⟨lease, hspawning⟩)
    · exact absurd hreserving hfollows.starts.1
    · exact absurd hspawning (hfollows.starts.2 lease)
  silent := by
    rintro lease (hspawning | hlease) hnone
    · exact absurd hspawning (hfollows.starts.2 lease)
    · rcases hfollows.running_id hrenewed hlease with
        ⟨before, hspawning, hsame⟩ | ⟨before, hbefore, hsame⟩
      · rw [hsame]
        exact h.silent before (Or.inl hspawning) hnone
      · rw [hsame]
        exact h.silent before (Or.inr hbefore) hnone
  reported := by
    intro lease outcome hlease hcollected
    rcases hfollows.running_id hrenewed hlease with
      ⟨before, hspawning, -⟩ | ⟨before, hbefore, hsame⟩
    · have hnone := h.starting (Or.inr ⟨before, hspawning⟩)
      exact nomatch hnone.symm.trans hcollected
    · rw [hsame]
      exact h.reported before outcome hbefore hcollected
  putting := by
    intro handled solved hputting
    obtain ⟨hcompleted, before, hbefore, hlease, hcollected⟩ :=
      hfollows.putting handled solved hputting
    rw [hlease]
    exact ⟨hcompleted, h.reported before _ hbefore hcollected⟩
  acking := by
    intro handled resultRef hacking
    obtain ⟨solved, hputting, hinput, hkey⟩ := hfollows.acking handled resultRef hacking
    obtain ⟨hcompleted, hreports⟩ := h.putting handled solved hputting
    refine ⟨hcompleted, hkey, solved, hreports, ?_⟩
    rw [hkey]
    exact hstored handled solved hputting hinput
  untouched := by
    intro lease hlease hending
    obtain ⟨before, hbefore, hsame⟩ := hfollows.lease_id hrenewed hlease
    rw [hsame]
    exact h.untouched before hbefore fun hcompleted ↦
      hending (hfollows.ending_kept hlease hcompleted)

end Follows

/-- What holds of a supervisor whose child runs holds of it once the collector has ended: what the
child reported is what was collected. -/
theorem Process.Sound.collected {before after : Fleet Worker} {process : Process}
    (h : process.Sound before) {lease : Lease} (hrunning : process.stage.running = some lease)
    {result : Collected} (hdrawn : ∀ leaseId, before.Drawn leaseId → after.Drawn leaseId)
    (hreports : after.reports lease.id = result.toOption)
    (huntouched : ∀ leaseId, before.Untouched leaseId → after.Untouched leaseId) :
    Process.Sound after { process with collected := some result } where
  drawn := fun lease hlease ↦ hdrawn _ (h.drawn lease hlease)
  starting := by
    rintro (hreserving | ⟨held, hspawning⟩)
    · exact nomatch (congrArg Stage.running hreserving).symm.trans hrunning
    · exact nomatch (congrArg Stage.running hspawning).symm.trans hrunning
  silent := by simp
  reported := by
    intro found outcome hfound hcollected
    obtain rfl : lease = found := Option.some.inj (hrunning.symm.trans hfound)
    obtain rfl : result = .ok outcome := Option.some.inj hcollected
    exact hreports
  putting := fun handled solved hputting ↦
    nomatch (congrArg Stage.running hputting).symm.trans hrunning
  acking := fun handled resultRef hacking ↦
    nomatch (congrArg Stage.running hacking).symm.trans hrunning
  untouched := fun lease hlease hending ↦ huntouched _ (h.untouched lease hlease hending)

namespace Fleet.Sound

variable {fleet after : Fleet Worker}

theorem initial : (Fleet.initial Worker).Sound where
  run := .empty
  clock := by simp [Fleet.initial]
  processes := fun _ ↦ ⟨by simp [Fleet.initial, Process.idle, Stage.lease], fun _ ↦ rfl,
    fun _ _ _ ↦ rfl, by simp [Fleet.initial, Process.idle, Stage.running],
    by simp [Fleet.initial, Process.idle], by simp [Fleet.initial, Process.idle],
    by simp [Fleet.initial, Process.idle, Stage.lease]⟩
  alone := by simp [Fleet.initial, Process.idle, Stage.lease]
  reports := by simp [Fleet.initial]
  objects := by simp [Fleet.initial]
  writes := by simp [Fleet.initial]
  acks := by simp [Fleet.initial]
  endings := by simp [Fleet.initial]

theorem tick (h : fleet.Sound) (duration : ℕ) :
    ({ fleet with now := fleet.now + duration } : Fleet Worker).Sound where
  run := h.run
  clock := fun entry hentry ↦
    le_trans (h.clock entry hentry) (le_add_of_nonneg_right (Int.natCast_nonneg duration))
  processes := fun worker ↦ (h.processes worker).mono (fun _ hdrawn ↦ hdrawn) (fun _ _ ↦ rfl)
    (fun _ _ _ hstored ↦ hstored) fun _ _ _ huntouched ↦ huntouched
  alone := h.alone
  reports := h.reports
  objects := h.objects
  writes := h.writes
  acks := h.acks
  endings := h.endings

/-! ### The stores -/

/-- A call on the job store. An `ack` is that of the supervisor at that stage. -/
theorem perform (h : fleet.Sound) {operation : Operation}
    (hfresh : ∀ jobId leaseId owner lease, operation = .claim jobId leaseId owner lease →
      ∀ entry ∈ fleet.history, entry.drawn ≠ some leaseId)
    (hack : ∀ lease resultRef, operation = .ack lease resultRef → ∃ worker handled key,
      (fleet.workers worker).stage = .acking handled key ∧ lease = handled.lease ∧
        resultRef = some key) : (fleet.perform operation).Sound := by
  have hdrawn : ∀ leaseId, fleet.Drawn leaseId → (fleet.perform operation).Drawn leaseId := by
    rintro leaseId ⟨entry, hentry, htoken⟩
    exact ⟨entry, List.mem_append_left _ hentry, htoken⟩
  have huntouched : ∀ leaseId, fleet.Untouched leaseId →
      (∀ lease resultRef, operation = .ack lease resultRef → lease.id ≠ leaseId) →
      (fleet.perform operation).Untouched leaseId := by
    rintro leaseId ⟨hwrites, hacks⟩ hne
    refine ⟨hwrites, fun entry hentry lease resultRef hoperation ↦ ?_⟩
    rcases List.mem_append.mp hentry with hold | hnew
    · exact hacks entry hold lease resultRef hoperation
    · rw [List.mem_singleton.mp hnew] at hoperation
      exact hne lease resultRef hoperation
  refine ⟨?_, ?_, fun worker ↦ ?_, h.alone, ?_, h.objects, ?_, ?_, ?_⟩
  · exact h.run.step ⟨fleet.now, operation⟩ h.clock hfresh
  · intro entry hentry
    rcases List.mem_append.mp hentry with hold | hnew
    · exact h.clock entry hold
    · rw [List.mem_singleton.mp hnew]
      exact le_refl _
  · refine (h.processes worker).mono hdrawn (fun _ _ ↦ rfl) (fun _ _ _ hstored ↦ hstored) ?_
    intro lease hlease hending hold
    refine huntouched lease.id hold fun acked resultRef hoperation hid ↦ ?_
    obtain ⟨other, handled, key, hstage, rfl, -⟩ := hack acked resultRef hoperation
    obtain rfl : other = worker :=
      h.alone other worker handled.lease lease (by rw [hstage]; rfl) hlease hid
    rw [hstage] at hending
    exact hending (congrArg some ((h.processes other).acking handled key hstage).1)
  · exact fun leaseId hreports ↦ hdrawn leaseId (h.reports leaseId hreports)
  · exact fun write hwrite ↦ ⟨(h.writes write hwrite).1, hdrawn _ (h.writes write hwrite).2⟩
  · intro entry hentry lease resultRef hoperation
    rcases List.mem_append.mp hentry with hold | hnew
    · obtain ⟨hlease, hstored⟩ := h.acks entry hold lease resultRef hoperation
      exact ⟨hdrawn _ hlease, hstored⟩
    · rw [List.mem_singleton.mp hnew] at hoperation
      obtain ⟨other, handled, key, hstage, rfl, rfl⟩ := hack lease resultRef hoperation
      have hsound := h.processes other
      exact ⟨hdrawn _ (hsound.drawn handled.lease (by rw [hstage]; rfl)), key, rfl,
        (hsound.acking handled key hstage).2⟩
  · intro leaseId ending hmem hne
    obtain ⟨hlease, hold, hbound⟩ := h.endings leaseId ending hmem hne
    refine ⟨hdrawn _ hlease, huntouched leaseId hold fun acked resultRef hoperation hid ↦ ?_,
      hbound⟩
    obtain ⟨other, handled, key, hstage, rfl, -⟩ := hack acked resultRef hoperation
    have hending := hbound other handled.lease (by rw [hstage]; rfl) hid
    rw [hstage] at hending
    have hcompleted := ((h.processes other).acking handled key hstage).1
    exact hne ((Option.some.inj hending).symm.trans hcompleted)

/-- A put changes no object that is there: the key is that of one attempt, whose child reported
once. -/
theorem write (h : fleet.Sound) {worker : Worker} {handled : Handled} {solved : Solved}
    (hstage : (fleet.workers worker).stage = .putting handled solved) (applied : Bool) :
    (fleet.write handled solved applied).Sound := by
  have hlease : (fleet.workers worker).stage.lease = some handled.lease := by
    rw [hstage]
    rfl
  obtain ⟨hcompleted, hreports⟩ := (h.processes worker).putting handled solved hstage
  have hobjects : ∀ key object, (fleet.write handled solved applied).objects key = some object →
      fleet.objects key = some object ∨ key = artifactKey handled.lease.job.id handled.lease.id ∧
        object = ⟨solved.data, solved.contentType⟩ := by
    intro key object hobject
    simp only [Fleet.write] at hobject
    split at hobject
    · by_cases hkey : key = artifactKey handled.lease.job.id handled.lease.id
      · subst hkey
        rw [Function.update_self] at hobject
        exact Or.inr ⟨rfl, (Option.some.inj hobject).symm⟩
      · rw [Function.update_of_ne hkey] at hobject
        exact Or.inl hobject
    · exact Or.inl hobject
  have hstored : ∀ jobId leaseId key, fleet.Stored jobId leaseId key →
      (fleet.write handled solved applied).Stored jobId leaseId key := by
    rintro jobId leaseId key ⟨rfl, found, hfound, hobject⟩
    refine ⟨rfl, found, hfound, ?_⟩
    simp only [Fleet.write]
    split
    · by_cases hkey : artifactKey jobId leaseId =
          artifactKey handled.lease.job.id handled.lease.id
      · obtain ⟨-, rfl⟩ := artifactKey_injective hkey
        obtain rfl : found = solved :=
          Outcome.solved.inj (Option.some.inj (hfound.symm.trans hreports))
        rw [hkey, Function.update_self]
      · rw [Function.update_of_ne hkey]
        exact hobject
    · exact hobject
  have huntouched : ∀ leaseId, fleet.Untouched leaseId → handled.lease.id ≠ leaseId →
      (fleet.write handled solved applied).Untouched leaseId := by
    rintro leaseId ⟨hwrites, hacks⟩ hne
    refine ⟨fun write hwrite ↦ ?_, hacks⟩
    rcases List.mem_append.mp hwrite with hold | hnew
    · exact hwrites write hold
    · rw [List.mem_singleton.mp hnew]
      exact hne
  refine ⟨h.run, h.clock, fun other ↦ ?_, h.alone, h.reports, ?_, ?_, ?_, ?_⟩
  · refine (h.processes other).mono (fun _ hdrawn ↦ hdrawn) (fun _ _ ↦ rfl) hstored ?_
    intro lease hotherLease hending hold
    refine huntouched lease.id hold fun hid ↦ ?_
    obtain rfl : worker = other := h.alone worker other handled.lease lease hlease hotherLease hid
    rw [hstage] at hending
    exact hending (congrArg some hcompleted)
  · intro key object hobject
    rcases hobjects key object hobject with hold | ⟨rfl, rfl⟩
    · exact h.objects key object hold
    · exact ⟨_, _, rfl, hreports⟩
  · intro write hwrite
    rcases List.mem_append.mp hwrite with hold | hnew
    · exact h.writes write hold
    · rw [List.mem_singleton.mp hnew]
      exact ⟨rfl, (h.processes worker).drawn handled.lease hlease⟩
  · intro entry hentry lease resultRef hoperation
    obtain ⟨hdrawn, key, hkey, hold⟩ := h.acks entry hentry lease resultRef hoperation
    exact ⟨hdrawn, key, hkey, hstored _ _ _ hold⟩
  · intro leaseId ending hmem hne
    obtain ⟨hdrawn, hold, hbound⟩ := h.endings leaseId ending hmem hne
    refine ⟨hdrawn, huntouched leaseId hold fun hid ↦ ?_, hbound⟩
    have hending := hbound worker handled.lease hlease hid
    rw [hstage] at hending
    exact hne ((Option.some.inj hending).symm.trans hcompleted)

/-! ### The supervisors -/

variable [DecidableEq Worker]

/-- A supervisor in another state, in which it holds what nobody else holds. -/
theorem replace (h : fleet.Sound) {worker : Worker} {process : Process}
    (hprocess : process.Sound fleet)
    (halone : ∀ lease, process.stage.lease = some lease → ∀ other otherLease, other ≠ worker →
      (fleet.workers other).stage.lease = some otherLease → otherLease.id ≠ lease.id)
    (hbound : ∀ lease ending, process.stage.lease = some lease →
      (lease.id, ending) ∈ fleet.endings → ending ≠ .completed →
      process.stage.ending = some ending) :
    ({ fleet with
      workers := Function.update fleet.workers worker process
      endings := fleet.endings ++ process.stage.decided.toList } : Fleet Worker).Sound := by
  refine ⟨h.run, h.clock, fun other ↦ ?_, ?_, h.reports, h.objects, h.writes, h.acks, ?_⟩
  · have hmono : ∀ {found : Process}, found.Sound fleet → found.Sound { fleet with
        workers := Function.update fleet.workers worker process
        endings := fleet.endings ++ process.stage.decided.toList } := fun hfound ↦
      hfound.mono (fun _ hdrawn ↦ hdrawn) (fun _ _ ↦ rfl) (fun _ _ _ hstored ↦ hstored)
        fun _ _ _ huntouched ↦ huntouched
    by_cases hother : other = worker
    · subst hother
      simp only [Function.update_self]
      exact hmono hprocess
    · simp only [Function.update_of_ne hother]
      exact hmono (h.processes other)
  · intro first second lease otherLease hfirst hsecond hid
    by_cases hleft : first = worker
    · subst hleft
      by_cases hright : second = first
      · exact hright.symm
      · simp only [Function.update_self] at hfirst
        simp only [Function.update_of_ne hright] at hsecond
        exact absurd hid.symm (halone lease hfirst second otherLease hright hsecond)
    · by_cases hright : second = worker
      · subst hright
        simp only [Function.update_self] at hsecond
        simp only [Function.update_of_ne hleft] at hfirst
        exact absurd hid (halone otherLease hsecond first lease hleft hfirst)
      · simp only [Function.update_of_ne hleft] at hfirst
        simp only [Function.update_of_ne hright] at hsecond
        exact h.alone first second lease otherLease hfirst hsecond hid
  · intro leaseId ending hmem hne
    rcases List.mem_append.mp hmem with hold | hnew
    · obtain ⟨hdrawn, huntouched, hothers⟩ := h.endings leaseId ending hold hne
      refine ⟨hdrawn, huntouched, fun other lease hlease hid ↦ ?_⟩
      by_cases hother : other = worker
      · subst hother
        simp only [Function.update_self] at hlease ⊢
        rw [← hid] at hold
        exact hbound lease ending hlease hold hne
      · simp only [Function.update_of_ne hother] at hlease ⊢
        exact hothers other lease hlease hid
    · -- the decision just taken
      obtain ⟨lease, hstage, rfl⟩ := Stage.of_mem_decided hnew
      have hlease : process.stage.lease = some lease := by rw [hstage]; rfl
      have hending : process.stage.ending = some ending := by rw [hstage]; rfl
      refine ⟨hprocess.drawn lease hlease, ?_, fun other found hfound hid ↦ ?_⟩
      · refine hprocess.untouched lease hlease fun hcompleted ↦ ?_
        exact hne (Option.some.inj (hending.symm.trans hcompleted))
      · by_cases hother : other = worker
        · subst hother
          simp only [Function.update_self]
          exact hending
        · simp only [Function.update_of_ne hother] at hfound
          exact absurd hid (halone lease hlease other found hother hfound)

/-- A supervisor that is about to reserve holds nothing. -/
theorem idle (h : fleet.Sound) (worker : Worker) : (fleet.setWorker worker .idle).Sound := by
  have hidle : Process.Sound fleet .idle :=
    ⟨by simp [Process.idle, Stage.lease], fun _ ↦ rfl, by simp [Process.idle, Stage.running],
      by simp [Process.idle, Stage.running], by simp [Process.idle], by simp [Process.idle],
      by simp [Process.idle, Stage.lease]⟩
  have hreplace : ({ fleet with
      workers := Function.update fleet.workers worker .idle
      endings := fleet.endings ++ [] } : Fleet Worker).Sound :=
    h.replace hidle (by simp [Process.idle, Stage.lease]) (by simp [Process.idle, Stage.lease])
  rw [List.append_nil] at hreplace
  exact hreplace

/-- The child of a supervisor reports, once. -/
theorem child (h : fleet.Sound) {worker : Worker} {lease : Lease}
    (hrunning : (fleet.workers worker).stage.running = some lease)
    (hnone : (fleet.workers worker).collected = none) (result : Collected) :
    ({ fleet.setWorker worker ⟨(fleet.workers worker).stage, some result⟩ with
      reports := Function.update fleet.reports lease.id result.toOption } :
      Fleet Worker).Sound := by
  have hlease := Stage.lease_of_running hrunning
  have hsound := h.processes worker
  have hsilent := hsound.silent lease (Or.inr hrunning) hnone
  have hsame : ∀ leaseId outcome, fleet.reports leaseId = some outcome →
      Function.update fleet.reports lease.id result.toOption leaseId = some outcome := by
    intro leaseId outcome hreports
    have hne : leaseId ≠ lease.id := by
      rintro rfl
      rw [hsilent] at hreports
      exact absurd hreports (by simp)
    rw [Function.update_of_ne hne]
    exact hreports
  have hstage : ∀ other, (Function.update fleet.workers worker
      ⟨(fleet.workers worker).stage, some result⟩ other).stage = (fleet.workers other).stage := by
    intro other
    by_cases hother : other = worker
    · subst hother
      rw [Function.update_self]
    · rw [Function.update_of_ne hother]
  have hstored : ∀ jobId leaseId key, fleet.Stored jobId leaseId key →
      ({ fleet.setWorker worker ⟨(fleet.workers worker).stage, some result⟩ with
        reports := Function.update fleet.reports lease.id result.toOption } :
          Fleet Worker).Stored jobId leaseId key := by
    rintro jobId leaseId key ⟨hkey, solved, hreports, hobject⟩
    exact ⟨hkey, solved, hsame leaseId _ hreports, hobject⟩
  refine ⟨h.run, h.clock, fun other ↦ ?_, ?_, ?_, ?_, h.writes, ?_, ?_⟩
  · by_cases hother : other = worker
    · subst hother
      simp only [Fleet.setWorker, Function.update_self]
      exact hsound.collected hrunning (fun _ hdrawn ↦ hdrawn) (Function.update_self _ _ _)
        fun _ huntouched ↦ huntouched
    · simp only [Fleet.setWorker, Function.update_of_ne hother]
      refine (h.processes other).mono (fun _ hdrawn ↦ hdrawn) (fun found hfound ↦ ?_) hstored
        fun _ _ _ huntouched ↦ huntouched
      have hne : found.id ≠ lease.id :=
        fun hid ↦ hother (h.alone other worker found lease hfound hlease hid)
      exact Function.update_of_ne hne _ _
  · intro first second firstLease secondLease hfirst hsecond hid
    simp only [Fleet.setWorker, hstage] at hfirst hsecond
    exact h.alone first second firstLease secondLease hfirst hsecond hid
  · intro leaseId hreports
    by_cases hid : leaseId = lease.id
    · rw [hid]
      exact hsound.drawn lease hlease
    · simp only [Function.update_of_ne hid] at hreports
      exact h.reports leaseId hreports
  · intro key object hobject
    obtain ⟨jobId, leaseId, hkey, hreports⟩ := h.objects key object hobject
    exact ⟨jobId, leaseId, hkey, hsame leaseId _ hreports⟩
  · intro entry hentry acked resultRef hoperation
    obtain ⟨hdrawn, key, hkey, hold⟩ := h.acks entry hentry acked resultRef hoperation
    exact ⟨hdrawn, key, hkey, hstored _ _ _ hold⟩
  · intro leaseId ending hmem hne
    obtain ⟨hdrawn, huntouched, hbound⟩ := h.endings leaseId ending hmem hne
    refine ⟨hdrawn, huntouched, fun other found hfound hid ↦ ?_⟩
    simp only [Fleet.setWorker, hstage] at hfound ⊢
    exact hbound other found hfound hid

/-- A supervisor goes on to the next stage of its attempt. -/
theorem follows (h : fleet.Sound) {worker : Worker} {stage : Stage} {input : Input}
    (hfollows : Stage.Follows (fleet.workers worker).collected input (fleet.workers worker).stage
      stage)
    (hrenewed : ∀ lease before cap clock, (fleet.workers worker).stage = .extending before cap →
      input = .extended (.renewed lease) clock → lease.id = before.id)
    (hstored : ∀ handled solved, (fleet.workers worker).stage = .putting handled solved →
      input = .stored → fleet.objects (artifactKey handled.lease.job.id handled.lease.id) =
        some ⟨solved.data, solved.contentType⟩) : (fleet.advance worker stage).Sound := by
  refine h.replace ((h.processes worker).follows hfollows hrenewed hstored) ?_ ?_
  · intro lease hlease other otherLease hne hother hsame
    obtain ⟨before, hbefore, hbeforeId⟩ := hfollows.lease_id hrenewed hlease
    exact hne (h.alone other worker otherLease before hother hbefore (hsame.trans hbeforeId))
  · intro lease ending hlease hmem hne
    obtain ⟨before, hbefore, hsame⟩ := hfollows.lease_id hrenewed hlease
    obtain ⟨-, -, hbound⟩ := h.endings lease.id ending hmem hne
    exact hfollows.ending_kept hlease (hbound worker before hbefore hsame.symm)

/-- A supervisor gets a lease that nobody had. -/
theorem take (h : fleet.Sound) {worker : Worker}
    (hstage : (fleet.workers worker).stage = .reserving) {lease : Lease}
    (hdrawn : fleet.Drawn lease.id) (hreports : fleet.reports lease.id = none)
    (huntouched : fleet.Untouched lease.id)
    (hothers : ∀ other otherLease, (fleet.workers other).stage.lease = some otherLease →
      otherLease.id ≠ lease.id)
    (hendings : ∀ ending, (lease.id, ending) ∈ fleet.endings → ending = .completed) :
    (fleet.advance worker (.spawning lease)).Sound := by
  have hnone := (h.processes worker).starting (Or.inl hstage)
  have hsame : ∀ found, (Stage.spawning lease).lease = some found → found = lease :=
    fun found hfound ↦ (Option.some.inj hfound).symm
  refine h.replace ⟨?_, fun _ ↦ hnone, ?_, by simp [Stage.running], by simp, by simp, ?_⟩ ?_ ?_
  · intro found hfound
    rw [hsame found hfound]
    exact hdrawn
  · rintro found (hspawning | hrunning) -
    · rw [← Stage.spawning.inj hspawning]
      exact hreports
    · exact absurd hrunning (by simp [Stage.running])
  · intro found hfound _
    rw [hsame found hfound]
    exact huntouched
  · intro found hfound other otherLease _ hother
    rw [hsame found hfound]
    exact hothers other otherLease hother
  · intro found ending hfound hmem hne
    rw [hsame found hfound] at hmem
    exact absurd (hendings ending hmem) hne

theorem resume (h : fleet.Sound) {config : Worker → WorkerConfig} {worker : Worker} {input : Input}
    (hresume : fleet.resume config worker input = some after)
    (hstart : ∀ lease, input ≠ .reserved (some lease))
    (hrenewed : ∀ lease before cap clock, (fleet.workers worker).stage = .extending before cap →
      input = .extended (.renewed lease) clock → lease.id = before.id)
    (hstored : ∀ handled solved, (fleet.workers worker).stage = .putting handled solved →
      input = .stored → fleet.objects (artifactKey handled.lease.job.id handled.lease.id) =
        some ⟨solved.data, solved.contentType⟩) : after.Sound := by
  obtain ⟨stage, hstage, rfl⟩ := Option.map_eq_some_iff.mp hresume
  exact h.follows (Supervisor.resume_follows hstart hstage) hrenewed hstored

/-! ### The steps -/

omit [DecidableEq Worker] in
/-- The store call of a supervisor: its token was never drawn before, and an ack names the object
that the supervisor has put. -/
theorem call (h : fleet.Sound) {config : Worker → WorkerConfig} {owner : Worker → String}
    {worker : Worker} {jobId drawn : Uuid} {operation : Operation}
    (hcall : (fleet.workers worker).stage.call (config worker) (owner worker) jobId drawn =
      some operation)
    (hfresh : ∀ entry ∈ fleet.history, entry.drawn ≠ some drawn) :
    (fleet.perform operation).Sound := by
  refine h.perform ?_ ?_
  · rintro claimed leaseId claimer lease rfl entry hentry
    obtain rfl := Stage.drawn_of_call hcall
    exact hfresh entry hentry
  · rintro lease resultRef rfl
    obtain ⟨handled, key, hstage, rfl, rfl⟩ := Stage.acking_of_call hcall
    exact ⟨worker, handled, key, hstage, rfl, rfl⟩

/-- What a supervisor makes of the reply to its store call. -/
theorem heard (h : fleet.Sound) {config : Worker → WorkerConfig} {owner : Worker → String}
    {worker : Worker} {jobId drawn : Uuid} {lost : Bool} {clock : Instant} {operation : Operation}
    {input : Input}
    (hcall : (fleet.workers worker).stage.call (config worker) (owner worker) jobId drawn =
      some operation)
    (hfresh : ∀ entry ∈ fleet.history, entry.drawn ≠ some drawn)
    (hinput : (if lost then (fleet.workers worker).stage.noReply clock
      else (fleet.workers worker).stage.reply clock
        (Postgres.perform fleet.now operation fleet.database).1) = some input)
    (hstep : (fleet.perform operation).resume config worker input = some after) :
    after.Sound := by
  have hperform := h.call hcall hfresh
  have hcases := Stage.reply_cases hinput
  rcases hcases with ⟨lease, hstage, hreply, rfl⟩ | ⟨before, cap, lease, hstage, hreply, rfl⟩ |
    ⟨hreserved, hrenewed, hstored⟩
  · -- the token was never drawn before, so nothing that is kept knows the lease
    rw [hstage] at hcall
    obtain rfl := Option.some.inj hcall
    have hid : lease.id = drawn := Postgres.claim_lease_id hreply
    have hnew : ∀ leaseId, fleet.Drawn leaseId → leaseId ≠ lease.id := by
      rintro leaseId ⟨entry, hentry, htoken⟩ rfl
      rw [hid] at htoken
      exact hfresh entry hentry htoken
    obtain ⟨stage, hspawning, rfl⟩ := Option.map_eq_some_iff.mp hstep
    have hspawn : stage = .spawning lease := by
      rw [show (fleet.perform _).workers worker = fleet.workers worker from rfl, hstage]
        at hspawning
      exact (Option.some.inj hspawning).symm
    rw [hspawn]
    refine hperform.take hstage ?_ ?_ ⟨?_, ?_⟩ ?_ ?_
    · rw [hid]
      exact ⟨_, List.mem_append_right _ (List.mem_singleton.mpr rfl), rfl⟩
    · by_contra hreports
      exact hnew lease.id (h.reports lease.id hreports) rfl
    · exact fun write hwrite ↦ hnew write.leaseId (h.writes write hwrite).2
    · intro entry hentry acked resultRef hoperation
      rcases List.mem_append.mp hentry with hold | hlast
      · exact hnew acked.id (h.acks entry hold acked resultRef hoperation).1
      · rw [List.mem_singleton.mp hlast] at hoperation
        exact absurd hoperation (by simp)
    · exact fun other otherLease hother ↦
        hnew otherLease.id ((h.processes other).drawn otherLease hother)
    · intro ending hmem
      by_contra hne
      exact hnew lease.id (h.endings lease.id ending hmem hne).1 rfl
  · rw [hstage] at hcall
    obtain rfl := Option.some.inj hcall
    refine hperform.resume hstep (by simp) ?_ (by simp)
    intro renewed found foundCap foundClock hfound hinputs
    obtain ⟨rfl, -⟩ := Stage.extending.inj (hstage.symm.trans hfound)
    obtain ⟨hrenewal, -⟩ := Input.extended.inj hinputs
    rw [← Renewal.renewed.inj hrenewal]
    exact Postgres.extend_lease_id hreply
  · refine hperform.resume hstep hreserved ?_ ?_
    · exact fun renewed _ _ foundClock _ hinputs ↦ absurd hinputs (hrenewed renewed foundClock)
    · exact fun _ _ _ hinputs ↦ absurd hinputs hstored

end Fleet.Sound

/-- Every step keeps the invariant. -/
theorem Fleet.Sound.step [DecidableEq Worker] {config : Worker → WorkerConfig}
    {owner : Worker → String} {fleet after : Fleet Worker} (h : fleet.Sound) {event : Event Worker}
    (hstep : fleet.step config owner event = some after) : after.Sound := by
  cases Fleet.step_moves hstep with
  | tick duration => exact h.tick duration
  | client operation hclient =>
    refine h.perform ?_ ?_
    · rintro jobId leaseId owner lease rfl
      exact Bool.noConfusion hclient
    · rintro lease resultRef rfl
      exact Bool.noConfusion hclient
  | unheard worker jobId drawn lost clock operation hcall hfresh => exact h.call hcall hfresh
  | heard worker jobId drawn lost clock operation input hcall hfresh hinput hresume =>
    exact h.heard hcall hfresh hinput hresume
  | notStored worker applied error handled solved hstage hresume =>
    exact (h.write hstage applied).resume hresume (by simp) (by simp) (by simp)
  | stored worker applied handled solved hstage hresume =>
    refine (h.write hstage true).resume hresume (by simp) (by simp) fun found stored hfound _ ↦ ?_
    obtain ⟨rfl, rfl⟩ := Stage.putting.inj (hstage.symm.trans hfound)
    exact fleet.write_objects handled solved
  | child worker read exitcode lease hrunning hcollected => exact h.child hrunning hcollected _
  | input worker input hallows hresume =>
    refine h.resume hresume ?_ ?_ ?_
    · rintro lease rfl
      cases hstage : (fleet.workers worker).stage <;> simp [hstage, Stage.allows] at hallows
    · rintro lease before cap clock hstage rfl
      simp [hstage, Stage.allows] at hallows
    · rintro handled solved hstage rfl
      simp [hstage, Stage.allows] at hallows
  | restart worker => exact h.idle worker
  | crash worker => exact h.idle worker

namespace Fleet

variable [DecidableEq Worker] {config : Worker → WorkerConfig} {owner : Worker → String}
  {fleet after : Fleet Worker}

theorem Sound.steps (h : fleet.Sound) {events : List (Event Worker)}
    (hsteps : fleet.steps config owner events = some after) : after.Sound := by
  induction events generalizing fleet with
  | nil =>
    rw [← Option.some.inj hsteps]
    exact h
  | cons event events ih =>
    obtain ⟨middle, hstep, hrest⟩ := Option.bind_eq_some_iff.mp hsteps
    exact ih (h.step hstep) hrest

theorem resume_database {worker : Worker} {input : Input}
    (h : fleet.resume config worker input = some after) : after.database = fleet.database := by
  obtain ⟨stage, -, rfl⟩ := Option.map_eq_some_iff.mp h
  rfl

/-- A step changes the tables by one call, if at all. -/
theorem step_database {event : Event Worker} (h : fleet.step config owner event = some after) :
    after.database = fleet.database ∨
      ∃ operation, after.database = (Postgres.perform fleet.now operation fleet.database).2 := by
  cases step_moves h with
  | tick duration => exact Or.inl rfl
  | client operation hclient => exact Or.inr ⟨operation, rfl⟩
  | unheard worker jobId drawn lost clock operation => exact Or.inr ⟨operation, rfl⟩
  | heard worker jobId drawn lost clock operation input hcall hfresh hinput hresume =>
    rw [resume_database hresume]
    exact Or.inr ⟨operation, rfl⟩
  | notStored worker applied error handled solved hstage hresume =>
    rw [resume_database hresume, write_database]
    exact Or.inl rfl
  | stored worker applied handled solved hstage hresume =>
    rw [resume_database hresume, write_database]
    exact Or.inl rfl
  | child => exact Or.inl rfl
  | input worker input hallows hresume => exact Or.inl (resume_database hresume)
  | restart => exact Or.inl rfl
  | crash => exact Or.inl rfl

/-- What a done job refers to stays as it is. -/
theorem Sound.resultRef_steps (h : fleet.Sound) {events : List (Event Worker)}
    (hsteps : fleet.steps config owner events = some after) {jobId : Uuid}
    {row : Postgres.JobRow} (hrow : jobRow fleet.database jobId = some row)
    (hdone : row.state = .done) :
    ∃ new, jobRow after.database jobId = some new ∧ new.resultRef = row.resultRef := by
  induction events generalizing fleet row with
  | nil =>
    rw [← Option.some.inj hsteps]
    exact ⟨row, hrow, rfl⟩
  | cons event events ih =>
    obtain ⟨middle, hstep, hrest⟩ := Option.bind_eq_some_iff.mp hsteps
    have hkept : ∃ new, jobRow middle.database jobId = some new ∧ new.state = .done ∧
        new.resultRef = row.resultRef := by
      rcases step_database hstep with hsame | ⟨operation, hperform⟩
      · rw [hsame]
        exact ⟨row, hrow, hdone, rfl⟩
      · rw [hperform]
        rcases Postgres.perform_jobStep fleet.now operation fleet.database jobId with
          ⟨outcome, -, hjob⟩ | ⟨error, -, hsame⟩
        · rw [hrow] at hjob
          exact hjob.resultRef_of_done (h.run.hasShape jobId row hrow) hdone
        · rw [hsame]
          exact ⟨row, hrow, hdone, rfl⟩
    obtain ⟨new, hnew, hnewDone, href⟩ := hkept
    obtain ⟨last, hlast, hlastRef⟩ := ih (h.step hstep) hrest hnew hnewDone
    exact ⟨last, hlast, hlastRef.trans href⟩

end Fleet

/-! ### The theorem -/

/-- Two executions, one effect, and no dangling pointer. In every state that any number of
supervisors on one job store and one object store can reach:

* a job with a result is done, and the result is the key of the attempt whose ack of the job
  succeeded, which is one ack only; what the child of that attempt reported is stored under the key;
  no other attempt at any job has called `put` with it; and the result never changes afterwards;
* an attempt that was stopped by a cancel, the cap, a lost lease or a shutdown has called neither
  `put` nor `ack`. -/
theorem one_effect [DecidableEq Worker] {config : Worker → WorkerConfig} {owner : Worker → String}
    {events : List (Event Worker)} {fleet : Fleet Worker}
    (h : (Fleet.initial Worker).steps config owner events = some fleet) :
    (∀ jobId row key, jobRow fleet.database jobId = some row → row.resultRef = some key →
      row.state = .done ∧
      ∃ lease : Lease, lease.job.id = jobId ∧ key = artifactKey jobId lease.id ∧
        (∃ entry ∈ fleet.history, entry.call.operation = .ack lease (some key) ∧
          entry.acked jobId = true ∧
          ∀ other ∈ fleet.history, other.acked jobId = true → other = entry) ∧
        (∃ solved, fleet.reports lease.id = some (.solved solved) ∧
          fleet.objects key = some ⟨solved.data, solved.contentType⟩) ∧
        (∀ write ∈ fleet.writes, write.key = key →
          write.jobId = jobId ∧ write.leaseId = lease.id) ∧
        ∀ later after, fleet.steps config owner later = some after →
          ∃ new, jobRow after.database jobId = some new ∧ new.resultRef = some key) ∧
    ∀ leaseId ending, (leaseId, ending) ∈ fleet.endings → ending ≠ .completed →
      (∀ write ∈ fleet.writes, write.leaseId ≠ leaseId) ∧
        ∀ entry ∈ fleet.history, ∀ lease resultRef,
          entry.call.operation = .ack lease resultRef → lease.id ≠ leaseId := by
  have hsound : fleet.Sound := Fleet.Sound.initial.steps h
  refine ⟨fun jobId row key hrow href ↦ ?_, fun leaseId ending hmem hne ↦
    (hsound.endings leaseId ending hmem hne).2.1⟩
  obtain ⟨hdone, entry, hentry, lease, outcome, hoperation, hreply, rfl⟩ :=
    hsound.run.acked_of_resultRef jobId row hrow key href
  have hacked : entry.acked lease.job.id = true := by
    simp [Postgres.Entry.acked, hoperation, hreply]
  obtain ⟨-, stored, hkey, hstored⟩ := hsound.acks entry hentry lease (some key) hoperation
  obtain rfl : key = stored := Option.some.inj hkey
  obtain ⟨hartifact, hobject⟩ := hstored
  refine ⟨hdone, lease, rfl, hartifact, ⟨entry, hentry, hoperation, hacked, ?_⟩, hobject, ?_, ?_⟩
  · exact fun other hother hotherAcked ↦
      hsound.run.acked_unique hother hentry hotherAcked hacked
  · intro write hwrite hsame
    rw [(hsound.writes write hwrite).1, hartifact] at hsame
    exact artifactKey_injective hsame
  · intro later after hsteps
    obtain ⟨new, hnew, hnewRef⟩ := hsound.resultRef_steps hsteps hrow hdone
    exact ⟨new, hnew, hnewRef.trans href⟩

/-- One job, solved and installed by one supervisor. -/
def oneJob : List (Event Unit) :=
  [.client (.insertOrGet ⟨9⟩ ⟨"noop", .nil, none, "key", 3, 0⟩),
    .store () ⟨9⟩ ⟨21⟩ false 0,
    .input () (.spawned 0),
    .child () (.message (.solved ⟨[104, 105], "text/plain"⟩)) 0,
    .input () (.woke true false 1),
    .put () true none,
    .store () ⟨9⟩ ⟨22⟩ false 0]

/-- Its result is the key under which the child's bytes are. -/
theorem one_effect_installed :
    ∃ fleet : Fleet Unit, ∃ solved, (Fleet.initial Unit).steps
        (fun _ ↦ .defaults) (fun _ ↦ "worker")
        oneJob = some fleet ∧
      fleet.objects (artifactKey ⟨9⟩ ⟨21⟩) = some solved := by
  have hsteps : (Fleet.initial Unit).steps
      (fun _ ↦ .defaults) (fun _ ↦ "worker")
      oneJob = some _ := rfl
  obtain ⟨-, lease, -, hkey, -, ⟨solved, -, hobject⟩, -⟩ :=
    (one_effect hsteps).1 ⟨9⟩ _ (artifactKey ⟨9⟩ ⟨21⟩) rfl rfl
  exact ⟨_, _, hsteps, hobject⟩

end Abacus.Worker
