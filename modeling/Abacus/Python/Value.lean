import Mathlib.Data.Int.Notation

/-!
# The values of a payload

What a `dict[str, Any]` holds when its annotation is not enforced: the values that `json` writes,
and those that it changes on the way or refuses. A float is given by its `repr`. Two dicts are equal
in whatever order their members were put, so the members of one stand in an order fixed for them.
-/

set_option autoImplicit false
set_option relaxedAutoImplicit false

namespace Abacus.Python

mutual

/-- A value. -/
inductive Value
  | none
  | bool (value : Bool)
  | int (value : ℤ)
  /-- A float, as its `repr` writes it. -/
  | float (repr : String)
  | str (text : String)
  | list (items : Items)
  | tuple (items : Items)
  | dict (members : Dict)
  deriving DecidableEq, Repr

/-- The items of a list or of a tuple. -/
inductive Items
  | nil
  | cons (item : Value) (items : Items)
  deriving DecidableEq, Repr

/-- The members of a dict. -/
inductive Dict
  | nil
  | cons (key value : Value) (members : Dict)
  deriving DecidableEq, Repr

end

end Abacus.Python
