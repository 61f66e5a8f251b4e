import Abacus.Postgres.RowShape

/-!
# Runs of atomic calls

A run of the stores as their callers see it: calls made one after another, each as one atomic
transaction, on a database clock that does not go back, with a fresh token for every claim. Each
`Entry` keeps the reply, so a call that raises is part of the run although it changed nothing.

`Run.invariant` carries a property of the database along a run, and `Run.execution` says that the
calls that returned are a run of the interleaved system.
-/

set_option autoImplicit false
set_option relaxedAutoImplicit false

namespace Abacus.Postgres

/-- A call that was made, with what it returned or raised. -/
structure Entry where
  call : Call
  reply : Except StoreError Outcome

/-- The token a call drew, if it is a claim. -/
def Entry.drawn (entry : Entry) : Option Uuid :=
  match entry.call.operation with
  | .claim _ leaseId _ _ => some leaseId
  | _ => none

/-- A run from empty tables. The clock does not go back, and no claim draws a token drawn before. -/
inductive Run : List Entry → Database → Prop
  | empty : Run [] Database.empty
  | step {history : List Entry} {database : Database} (before : Run history database)
      (call : Call) (hclock : ∀ entry ∈ history, entry.call.now ≤ call.now)
      (hfresh : ∀ jobId leaseId owner lease, call.operation = .claim jobId leaseId owner lease →
        ∀ entry ∈ history, entry.drawn ≠ some leaseId) :
    Run (history ++ [⟨call, (perform call.now call.operation database).1⟩])
      (perform call.now call.operation database).2

/-- A call that returned makes one of the steps to each job. -/
theorem perform_stepsJob {now : Instant} {operation : Operation} {outcome : Outcome}
    {before after : Database} (h : perform now operation before = (.ok outcome, after))
    (jobId : Uuid) : StepsJob now jobId operation outcome before after :=
  Operation.program_stepsJob
    (RowLocking.Program.yields_of_execute (RowLocking.Program.execute_of_run_ok h)) jobId

/-- A call that raised changed nothing. -/
theorem perform_error {now : Instant} {operation : Operation} {error : StoreError}
    {before after : Database} (h : perform now operation before = (.error error, after)) :
    after = before :=
  RowLocking.Program.run_error_database h

/-- What a call does to a job, whether it returned or raised: a step of the job, or nothing. -/
theorem perform_jobStep (now : Instant) (operation : Operation) (database : Database)
    (jobId : Uuid) :
    (∃ outcome, (perform now operation database).1 = .ok outcome ∧
      JobStep now jobId operation outcome (jobRow database jobId)
        (jobRow (perform now operation database).2 jobId)) ∨
    ∃ error, (perform now operation database).1 = .error error ∧
      (perform now operation database).2 = database := by
  cases hreply : perform now operation database with
  | mk reply after =>
    cases reply with
    | ok outcome => exact Or.inl ⟨outcome, rfl, (perform_stepsJob hreply jobId).1⟩
    | error error => exact Or.inr ⟨error, rfl, perform_error hreply⟩

/-- The invariant rule of runs: what holds of empty tables and is kept by every call. -/
@[elab_as_elim]
theorem Run.invariant {Holds : Database → Prop} (hempty : Holds Database.empty)
    (hkept : ∀ now operation database, Holds database →
      Holds (perform now operation database).2)
    {history : List Entry} {database : Database} (h : Run history database) : Holds database := by
  induction h with
  | empty => exact hempty
  | step before call hclock hfresh ih => exact hkept call.now call.operation _ ih

/-- Along a run every row is well shaped. -/
theorem Run.hasShape {history : List Entry} {database : Database} (h : Run history database)
    (jobId : Uuid) : HasShape (jobRow database jobId) := by
  refine Run.invariant ?_ ?_ h
  · intro found hfound
    exact absurd hfound (by simp [jobRow, Database.empty])
  · intro now operation database hshape
    rcases perform_jobStep now operation database jobId with ⟨_, -, hstep⟩ | ⟨_, -, hsame⟩
    · exact hstep.shaped hshape
    · rw [hsame]
      exact hshape

/-- The calls of a run that returned are a run of the interleaved system. -/
theorem Run.execution {history : List Entry} {database : Database} (h : Run history database) :
    ∃ commits : List Commit,
      Execution commits (RowLocking.System.idle database : System Unit) := by
  induction h with
  | empty => exact ⟨[], .idle⟩
  | @step history database before call hclock hfresh ih =>
    obtain ⟨commits, hexecution⟩ := ih
    cases hreply : perform call.now call.operation database with
    | mk reply after =>
      cases reply with
      | ok outcome =>
        have hexecute : call.program.execute database = .ok (outcome, after) :=
          RowLocking.Program.execute_of_run_ok hreply
        exact ⟨_, hexecution.serial () hexecute⟩
      | error error =>
        rw [perform_error hreply]
        exact ⟨commits, hexecution⟩

end Abacus.Postgres
