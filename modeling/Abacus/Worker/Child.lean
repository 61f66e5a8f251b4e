import Abacus.Python.Repr
import Abacus.Worker.Solve

/-!
# What runs in the spawned process

`run_child` and `_solve` of `worker/child.py`, the registry of `worker/solvers.py`, and the request
that a child is handed. A solver is code that the worker knows nothing of: it may return, raise, or
take the process with it, and need not do the same twice, so it is the relation between a payload
and how its call may end. A child sends one outcome, the one that `_solve` made of that (`Solves`),
unless it is gone before it has (`Sends`).
-/

set_option autoImplicit false
set_option relaxedAutoImplicit false

namespace Abacus.Worker

/-- What the supervisor hands a child. -/
structure SolveRequest where
  kind : String
  payload : Python.Dict
  jobId : Uuid
  deriving DecidableEq, Repr

/-- `_request`: the question, never the history. -/
def request (job : Job) : SolveRequest :=
  ⟨job.kind, job.payload, job.id⟩

/-- How the call of a solver ends. -/
inductive Ran
  | returned (solved : Solved)
  /-- An `Exception`: the name of its type, its text, and the traceback. -/
  | raised (typeName text traceback : String)
  /-- Anything else: a `BaseException`, or the process is gone. -/
  | left

/-- A solver, as how its call on a payload may end. -/
abbrev Solver :=
  Python.Dict → Ran → Prop

/-- A lookup of solvers by kind, with the text of the `UnknownKind` it raises. -/
abbrev Registry :=
  String → Except String Solver

/-- `resolve`, with the one solver that is registered. -/
def resolve (printable : Char → Bool) (synthetic : Solver) : Registry := fun kind ↦
  if kind = "synthetic" then .ok synthetic
  else .error ("no solver registered for kind " ++ Python.repr printable kind)

/-- `_solve`: the outcomes that the child may come to. -/
inductive Solves (registry : Registry) (request : SolveRequest) : Outcome → Prop
  | unknown (error : String) (hkind : registry request.kind = .error error) :
    Solves registry request (.failed ⟨error, "", true⟩)
  | returned (solver : Solver) (solved : Solved) (hkind : registry request.kind = .ok solver)
    (hran : solver request.payload (.returned solved)) : Solves registry request (.solved solved)
  | raised (solver : Solver) (typeName text traceback : String)
    (hkind : registry request.kind = .ok solver)
    (hran : solver request.payload (.raised typeName text traceback)) :
    Solves registry request (.failed ⟨typeName ++ ": " ++ text, traceback, false⟩)

/-- `run_child`: what the parent may read of it. The pipe is closed either way, and a process that
is killed may leave it closed inside the message. -/
def Sends (registry : Registry) (request : SolveRequest) : PipeRead → Prop
  | .message outcome => Solves registry request outcome
  | .closed => True
  | .raised _ => True

/-- A kind without a solver has no artifact. -/
theorem Solves.registered {registry : Registry} {request : SolveRequest} {solved : Solved}
    (h : Solves registry request (.solved solved)) :
    ∃ solver, registry request.kind = .ok solver ∧ solver request.payload (.returned solved) := by
  cases h with
  | returned solver solved hkind hran => exact ⟨solver, hkind, hran⟩

end Abacus.Worker
