import Abacus.Python.Value
import Mathlib.Algebra.Group.Nat.Defs

/-!
# What the columns hold

A statement binds its parameters to the types of the columns. A parameter that its type cannot hold
raises, and a payload may come back from `JSONB` as another value than went in: a tuple as a list, a
key of another type as a text, a float written with an exponent as an integer. Here is what a column
gives back as it was put.
-/

set_option autoImplicit false
set_option relaxedAutoImplicit false

namespace Abacus.Postgres

/-- The first number that an `INTEGER` cannot hold. -/
def integerEnd : ℕ :=
  2 ^ 31

/-- The first number that a `BIGINT` cannot hold. -/
def bigintEnd : ℕ :=
  2 ^ 63

/-- A cursor and a limit that are bound as `BIGINT` parameters. -/
abbrev IsBound (afterSeq limit : ℕ) : Prop :=
  afterSeq < bigintEnd ∧ limit < bigintEnd

/-- A `TEXT`: any text without the character NUL. -/
abbrev IsText (text : String) : Prop :=
  '\x00' ∉ text.toList

/-- The bytes of a text that is sure to fit into an entry of a unique index, beside a `uuid`: an
entry has a third of a page. -/
def indexedBytes : ℕ :=
  2600

/-- A `TEXT` that a unique index takes. -/
abbrev IsKey (text : String) : Prop :=
  IsText text ∧ text.utf8ByteSize ≤ indexedBytes

mutual

/-- Whether a value is one that `JSONB` gives back. An integer of more than 4300 digits is not
written. Of the floats, `nan` and `inf` are refused, the large ones, with `+` in their exponent,
come back as integers, and the negative zero without its sign. -/
def isJson : Python.Value → Bool
  | .none => true
  | .bool _ => true
  | .int value => decide (value.natAbs < 10 ^ 4300)
  | .float repr => decide ('n' ∉ repr.toList ∧ '+' ∉ repr.toList ∧ repr ≠ "-0.0")
  | .str text => decide (IsText text)
  | .list items => areJson items
  | .tuple _ => false
  | .dict members => isJsonObject members

/-- Whether the items of a list are. -/
def areJson : Python.Items → Bool
  | .nil => true
  | .cons item items => isJson item && areJson items

/-- Whether the members of a dict are, under keys that are texts. -/
def isJsonObject : Python.Dict → Bool
  | .nil => true
  | .cons (.str key) value members => decide (IsText key) && isJson value && isJsonObject members
  | .cons _ _ _ => false

end

/-- A tuple comes back as a list. -/
example : isJsonObject (.cons (.str "pair") (.tuple .nil) .nil) = false := by decide

/-- The default of `synthetic`'s `sleep_seconds`. -/
example : isJsonObject (.cons (.str "sleep_seconds") (.float "0.0") .nil) = true := by decide

end Abacus.Postgres
