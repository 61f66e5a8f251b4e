import Abacus.Postgres.StoredMessage

/-!
# What a job call writes

A method of the job store writes jobs, idempotency keys and events, whatever it does besides
(`Operation.job_triple`): an assertion that these leave alone is kept by all of them.
-/

set_option autoImplicit false
set_option relaxedAutoImplicit false

namespace Abacus.Postgres

open RowLocking

/-! ### The rule of a job call -/

section Rule

variable {holds : Database → Prop}

/-- An update of a job keeps what no job bears on. -/
theorem updateJob_triple {A : Type} {jobId : Uuid} {set : JobRow → Option JobRow}
    {rest : Option JobRow → Sql A} {post : A → Database → Prop}
    (hset : ∀ database key row, key.tier ≤ 1 → holds database → holds (database.set key row))
    (hrest : ∀ row, Triple holds (rest row) post) :
    Triple holds (updateJob jobId set >>= rest) post := by
  refine Triple.update_frame (fun database row ↦ hset database _ row (le_refl 1)) fun row ↦ ?_
  exact Triple.bind (Triple.commit fun _ h ↦ h) hrest

theorem retireRows_triple (now : Instant) (scan : List Uuid)
    (hset : ∀ database key row, key.tier ≤ 1 → holds database → holds (database.set key row)) :
    Triple holds (retireRows now scan) fun _ ↦ holds := by
  induction scan with
  | nil => exact Triple.commit fun _ h ↦ h
  | cons jobId scan ih =>
    exact updateJob_triple hset fun row ↦ Triple.bind ih fun _ ↦ Triple.commit fun _ h ↦ h

theorem recordEvents_triple (rows : List (Uuid × JobRow))
    (hevent : ∀ jobId row, Triple holds (recordEvent jobId row) fun _ ↦ holds) :
    Triple holds (recordEvents rows) fun _ ↦ holds := by
  induction rows with
  | nil => exact Triple.commit fun _ h ↦ h
  | cons row rows ih => exact Triple.bind (hevent row.1 row.2) fun _ ↦ ih

theorem insertOrGet_triple (now : Instant) (jobId : Uuid) (request : JobRequest)
    (hset : ∀ database key row, key.tier ≤ 1 → holds database → holds (database.set key row))
    (hevent : ∀ jobId row, Triple holds (recordEvent jobId row) fun _ ↦ holds) :
    Triple holds (insertOrGet now jobId request) fun _ ↦ holds := by
  unfold insertOrGet
  split_ifs with hattempts
  · exact Triple.raise _
  · refine Triple.update_frame (fun database row ↦ hset database _ row (Nat.zero_le 1)) ?_
    rintro (_ | entry)
    · refine Triple.select fun snapshot ↦ ?_
      split
      · split
        · exact Triple.commit fun _ h ↦ h
        · exact Triple.raise _
      · exact Triple.raise _
    · refine Triple.update_frame (fun database row ↦ hset database _ row (le_refl 1)) ?_
      rintro (_ | row)
      · exact Triple.raise _
      · exact Triple.bind (hevent jobId _) fun _ ↦ Triple.commit fun _ h ↦ h

/-- What is kept by statements on jobs and idempotency keys, and by the recording of an event, is
kept by every method of the job store. -/
theorem Operation.job_triple {now : Instant} {operation : Operation}
    (hset : ∀ database key row, key.tier ≤ 1 → holds database → holds (database.set key row))
    (hevent : ∀ jobId row, Triple holds (recordEvent jobId row) fun _ ↦ holds)
    (hjob : onChat operation = false) : Triple holds (operation.program now) fun _ ↦ holds := by
  have hcommit {A : Type} (value : A) :
      Triple holds (.commit value : Sql A) fun _ ↦ holds := Triple.commit fun _ h ↦ h
  cases operation with
  | insertOrGet jobId request => exact (insertOrGet_triple now jobId request hset hevent).map
  | markPublished jobId => exact (updateJob_triple hset fun _ ↦ hcommit _).map
  | getJob jobId => exact Triple.map (Triple.select fun _ ↦ hcommit _)
  | cancel jobId =>
    refine (updateJob_triple hset ?_).map
    rintro (_ | row)
    · exact Triple.select fun _ ↦ hcommit _
    · dsimp only
      split_ifs
      · exact Triple.bind (hevent jobId row) fun _ ↦ hcommit _
      · exact hcommit _
  | claim jobId leaseId owner lease =>
    refine (updateJob_triple hset ?_).map
    rintro (_ | row)
    · exact hcommit _
    · exact Triple.bind (hevent jobId row) fun _ ↦ hcommit _
  | lapsedReservable scan => exact Triple.map (Triple.select fun _ ↦ hcommit _)
  | retireLapsed scan =>
    exact Triple.map (Triple.bind (retireRows_triple now scan hset) fun rows ↦
      Triple.bind (recordEvents_triple _ hevent) fun _ ↦ hcommit _)
  | unpublished scan olderThan => exact Triple.map (Triple.select fun _ ↦ hcommit _)
  | extend lease duration =>
    refine (updateJob_triple hset ?_).map
    rintro (_ | row)
    · exact Triple.raise _
    · exact hcommit _
  | ack lease resultRef =>
    refine (updateJob_triple hset ?_).map
    rintro (_ | row)
    · exact Triple.raise _
    · exact hevent lease.job.id row
  | nack lease error retryIn =>
    refine (updateJob_triple hset ?_).map
    rintro (_ | row)
    · exact Triple.raise _
    · exact Triple.bind (hevent lease.job.id row) fun _ ↦ hcommit _
  | _ => cases hjob

end Rule

/-! ### The events that a call records -/

/-- The events that the log gained between two databases, with their sessions. -/
def newEvents (before after : Database) : List (Uuid × JobEvent) :=
  (after.log.drop before.log.length).filterMap fun
    | .message _ _ _ => none
    | .event sessionId transition => some (sessionId, transition)

theorem newEvents_of_append {before after : Database} {events : List (Uuid × JobEvent)}
    (h : after.log = before.log ++ events.map fun event ↦ .event event.1 event.2) :
    newEvents before after = events := by
  rw [newEvents, h, List.drop_left, List.filterMap_map]
  exact (List.filterMap_congr fun _ _ ↦ rfl).trans (List.filterMap_some)

end Abacus.Postgres
