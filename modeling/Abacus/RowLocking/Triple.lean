import Abacus.RowLocking.Program

/-!
# Preconditions and postconditions of transaction programs

`Triple pre program post` says that whatever the program can commit from a database satisfying
`pre`, among other transactions, satisfies `post`. There is one rule for each constructor of
`Program`, one for sequencing and one for a program that writes nothing; `Triple.update_frame` is
the rule for a statement on a row that the assertion does not depend on.
-/

set_option autoImplicit false
set_option relaxedAutoImplicit false

namespace RowLocking

variable {Key : Type} [DecidableEq Key] {Row : Key → Type} {Entry Error A B : Type}

/-- Whatever the program can commit from a database satisfying `pre` satisfies `post`. -/
def Triple (pre : Database Key Row Entry → Prop) (program : Program Key Row Entry Error A)
    (post : A → Database Key Row Entry → Prop) : Prop :=
  ∀ database value after, pre database → program.Yields database value after → post value after

namespace Triple

variable {pre : Database Key Row Entry → Prop} {post : A → Database Key Row Entry → Prop}

/-- The rule of a commit. -/
theorem commit {result : A} (h : ∀ database, pre database → post result database) :
    Triple pre (.commit result : Program Key Row Entry Error A) post := by
  rintro database value after hpre ⟨rfl, rfl⟩
  exact h database hpre

/-- A program that raises commits nothing. -/
theorem raise (error : Error) : Triple pre (.raise error : Program Key Row Entry Error A) post :=
  fun _ _ _ _ h ↦ h.elim

/-- The rule of a statement: what follows is right after the statement has matched, and after it
has not. -/
theorem update {key : Key} {statement : Row key → Option (Row key)}
    {next : Option (Row key) → Program Key Row Entry Error A}
    {middle : Row key → Database Key Row Entry → Prop}
    (hmatch : ∀ database row, pre database → statement (database.row key) = some row →
      middle row (database.set key row))
    (hrest : ∀ row, Triple (middle row) (next (some row)) post)
    (hmismatch : Triple pre (next none) post) : Triple pre (.update key statement next) post := by
  rintro database value after hpre (⟨row, hrow, h⟩ | h)
  · exact hrest row _ value after (hmatch database row hpre hrow) h
  · exact hmismatch database value after hpre h

/-- The rule of a statement on a row that the assertion does not depend on. -/
theorem update_frame {key : Key} {statement : Row key → Option (Row key)}
    {next : Option (Row key) → Program Key Row Entry Error A}
    (hframe : ∀ database row, pre database → pre (database.set key row))
    (hrest : ∀ row, Triple pre (next row) post) : Triple pre (.update key statement next) post :=
  update (fun database row hpre _ ↦ hframe database row hpre) (fun row ↦ hrest (some row))
    (hrest none)

/-- The rule of an insertion. -/
theorem insert {entry : Entry} {next : Program Key Row Entry Error A}
    {middle : Database Key Row Entry → Prop}
    (hinsert : ∀ database, pre database → middle (database.insert entry))
    (hrest : Triple middle next post) : Triple pre (.insert entry next) post :=
  fun database value after hpre h ↦ hrest _ value after (hinsert database hpre) h

/-- The rule of a read, whatever it returns. -/
theorem select {next : Database Key Row Entry → Program Key Row Entry Error A}
    (hrest : ∀ snapshot, Triple pre (next snapshot) post) : Triple pre (.select next) post := by
  rintro database value after hpre ⟨snapshot, h⟩
  exact hrest snapshot database value after hpre h

/-- The rule of sequencing. -/
theorem bind {program : Program Key Row Entry Error A} {rest : A → Program Key Row Entry Error B}
    {middle : A → Database Key Row Entry → Prop} {final : B → Database Key Row Entry → Prop}
    (hfirst : Triple pre program middle)
    (hrest : ∀ value, Triple (middle value) (rest value) final) :
    Triple pre (program >>= rest) final := by
  intro database value after hpre h
  obtain ⟨result, between, hyields, h⟩ := Program.yields_bind h
  exact hrest result between value after (hfirst database result between hpre hyields) h

/-- The rule of a result passed through a function. -/
theorem map {program : Program Key Row Entry Error A} {f : A → B}
    {final : B → Database Key Row Entry → Prop}
    (h : Triple pre program fun value ↦ final (f value)) :
    Triple pre (f <$> program) final :=
  bind h fun _ ↦ commit fun _ hfinal ↦ hfinal

/-- The rule of a program that writes nothing. -/
theorem readOnly {program : Program Key Row Entry Error A} (h : program.ReadOnly) :
    Triple pre program fun _ ↦ pre := by
  intro database value after hpre hyields
  rwa [h.after_eq hyields]

end Triple

end RowLocking
