import Abacus.Postgres.Tables

/-!
# The per-session allocator

`allocate_seq` of `adapters/postgres/seq.py`: one update of the session's row, in the caller's
transaction, returning the number the row held before.
-/

set_option autoImplicit false
set_option relaxedAutoImplicit false

namespace Abacus.Postgres

/-- Take the next `seq` for this session. -/
def allocateSeq (sessionId : Uuid) : Sql ℕ :=
  .update (.chatSession sessionId) (fun next : Option ℕ ↦ next.map fun seq ↦ some (seq + 1)) fun
    | some (some next) => pure (next - 1)
    | _ => .raise (.lookupError sessionId)

end Abacus.Postgres
