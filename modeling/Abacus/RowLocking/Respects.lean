import Abacus.RowLocking.Program

/-!
# Relations on rows that a program respects

A relation between the old and the new value of a row, reflexive and transitive at every key, that
every statement of a program respects, relates every row before the program to the same row after
it (`Respects.row_kept`). It is how facts that only ever become true, such as the existence of a row
and the columns that no statement sets, are carried across a transaction.
-/

set_option autoImplicit false
set_option relaxedAutoImplicit false

namespace RowLocking

variable {Key : Type} [DecidableEq Key] {Row : Key → Type} {Entry Error : Type}

namespace Program

omit [DecidableEq Key] in
/-- Every statement of the program changes the row it matches within the relation. -/
def Respects {A : Type} (kept : ∀ key, Row key → Row key → Prop) :
    Program Key Row Entry Error A → Prop
  | .commit _ => True
  | .raise _ => True
  | .update key statement next =>
    (∀ before after, statement before = some after → kept key before after) ∧
      ∀ row, (next row).Respects kept
  | .insert _ next => next.Respects kept
  | .select next => ∀ database, (next database).Respects kept

namespace Respects

variable {kept : ∀ key, Row key → Row key → Prop} {A B : Type}

omit [DecidableEq Key] in
/-- A sequence respects what both its parts respect. -/
theorem bind {program : Program Key Row Entry Error A} {rest : A → Program Key Row Entry Error B}
    (hprogram : program.Respects kept) (hrest : ∀ value, (rest value).Respects kept) :
    (program >>= rest).Respects kept := by
  induction program with
  | commit result => exact hrest result
  | raise error => trivial
  | update key statement next ih =>
    constructor
    · exact hprogram.1
    · intro row
      exact ih row (hprogram.2 row)
  | insert entry next ih => exact ih hprogram
  | select next ih => exact fun database ↦ ih database (hprogram database)

omit [DecidableEq Key] in
/-- A result passed through a function. -/
theorem map {program : Program Key Row Entry Error A} (f : A → B)
    (h : program.Respects kept) : (f <$> program).Respects kept :=
  h.bind fun _ ↦ trivial

omit [DecidableEq Key] in
/-- A program that writes nothing respects every relation. -/
theorem of_readOnly {program : Program Key Row Entry Error A} (h : program.ReadOnly) :
    program.Respects kept := by
  induction program with
  | commit result => trivial
  | raise error => trivial
  | update key statement next => exact h.elim
  | insert entry next => exact h.elim
  | select next ih => exact fun database ↦ ih database (h database)

/-- Every row after the program is related to what it was before. -/
theorem row_kept {program : Program Key Row Entry Error A} {database after : Database Key Row Entry}
    {value : A} (hrefl : ∀ key row, kept key row row)
    (htrans : ∀ key first second third, kept key first second → kept key second third →
      kept key first third)
    (h : program.Respects kept) (hyields : program.Yields database value after) (key : Key) :
    kept key (database.row key) (after.row key) := by
  induction program generalizing database with
  | commit result =>
    obtain ⟨-, rfl⟩ := hyields
    exact hrefl key _
  | raise error => exact hyields.elim
  | update written statement next ih =>
    rcases hyields with ⟨row, hmatch, hyields⟩ | hyields
    · have hset : kept key (database.row key) ((database.set written row).row key) := by
        by_cases hkey : key = written
        · subst hkey
          rw [Database.set_row_self]
          exact h.1 _ row hmatch
        · rw [Database.set_row_of_ne database row hkey]
          exact hrefl key _
      exact htrans key _ _ _ hset (ih (some row) (h.2 (some row)) hyields)
    · exact ih none (h.2 none) hyields
  | insert entry next ih =>
    have hinserted : next.Yields (database.insert entry) value after := hyields
    have hkept := ih h hinserted
    exact hkept
  | select next ih =>
    obtain ⟨snapshot, hyields⟩ := hyields
    exact ih snapshot (h snapshot) hyields

end Respects

end Program

end RowLocking
