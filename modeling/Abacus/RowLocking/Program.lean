import Mathlib.Logic.Function.Basic
import Mathlib.Data.List.Basic

/-!
# Transaction programs over keyed rows and an append-only log

A database is a family of rows, one for each key, together with the entries inserted so far in
the order their transactions committed. A row may be absent: `Row key` is then an option type, and
the insertion of a unique key is the update of an absent row.

A transaction is a `Program`: it updates one row at a time by a statement that either does not
match the row or says what the row becomes, inserts log entries, reads, and ends by committing a
result or by raising, which rolls back everything it wrote. `Program.execute` runs a program alone.
`Program.Yields` is the weaker relation that the interleaved system of `Interleaving` refines: a
statement may also find no row although one matches now, because it did not match when the
statement looked, and a read may return an older state.

`execute_bind` and `yields_bind` take the two apart along sequencing, and `yields_of_execute` says
that a program run alone yields what it returns.
-/

set_option autoImplicit false
set_option relaxedAutoImplicit false

namespace RowLocking

/-- The content of a database: a value for every key, and the inserted entries in the order of the
commits. -/
structure Database (Key : Type) (Row : Key → Type) (Entry : Type) where
  row : ∀ key, Row key
  log : List Entry

section Programs

variable {Key : Type} {Row : Key → Type} {Entry Error : Type}

/-- The database with one more entry. -/
def Database.insert (database : Database Key Row Entry) (entry : Entry) :
    Database Key Row Entry :=
  { database with log := database.log ++ [entry] }

@[simp] theorem Database.insert_row (database : Database Key Row Entry) (entry : Entry) :
    (database.insert entry).row = database.row :=
  rfl

@[simp] theorem Database.insert_log (database : Database Key Row Entry) (entry : Entry) :
    (database.insert entry).log = database.log ++ [entry] :=
  rfl

section Rows

variable [DecidableEq Key]

/-- The database with one row replaced. -/
def Database.set (database : Database Key Row Entry) (key : Key) (row : Row key) :
    Database Key Row Entry :=
  { database with row := Function.update database.row key row }

@[simp] theorem Database.set_row_self (database : Database Key Row Entry) (key : Key)
    (row : Row key) : (database.set key row).row key = row :=
  Function.update_self key row database.row

@[simp] theorem Database.set_row_of_ne (database : Database Key Row Entry) {key other : Key}
    (row : Row key) (h : other ≠ key) : (database.set key row).row other = database.row other :=
  Function.update_of_ne h row database.row

@[simp] theorem Database.set_log (database : Database Key Row Entry) (key : Key)
    (row : Row key) : (database.set key row).log = database.log :=
  rfl

end Rows

/-- A transaction: statements on single rows, insertions and reads, ending in a commit that returns
a result or in an error that rolls back. -/
inductive Program (Key : Type) (Row : Key → Type) (Entry Error : Type) (Result : Type) : Type
  | commit (result : Result)
  | raise (error : Error)
  | update (key : Key) (statement : Row key → Option (Row key))
      (next : Option (Row key) → Program Key Row Entry Error Result)
  | insert (entry : Entry) (next : Program Key Row Entry Error Result)
  | select (next : Database Key Row Entry → Program Key Row Entry Error Result)

namespace Program

/-- Sequencing: the second program runs in the same transaction, on the result of the first. -/
def bind {A B : Type} : Program Key Row Entry Error A → (A → Program Key Row Entry Error B) →
    Program Key Row Entry Error B
  | .commit result, rest => rest result
  | .raise error, _ => .raise error
  | .update key statement next, rest => .update key statement fun row ↦ (next row).bind rest
  | .insert entry next, rest => .insert entry (next.bind rest)
  | .select next, rest => .select fun database ↦ (next database).bind rest

instance : Monad (Program Key Row Entry Error) where
  pure := .commit
  bind := bind

@[simp] theorem pure_eq {A : Type} (result : A) :
    (pure result : Program Key Row Entry Error A) = .commit result :=
  rfl

@[simp] theorem commit_bind {A B : Type} (result : A) (rest : A → Program Key Row Entry Error B) :
    (commit result >>= rest) = rest result :=
  rfl

@[simp] theorem raise_bind {A B : Type} (error : Error) (rest : A → Program Key Row Entry Error B) :
    (raise error >>= rest) = raise error :=
  rfl

@[simp] theorem update_bind {A B : Type} (key : Key) (statement : Row key → Option (Row key))
    (next : Option (Row key) → Program Key Row Entry Error A)
    (rest : A → Program Key Row Entry Error B) :
    (update key statement next >>= rest) = update key statement fun row ↦ next row >>= rest :=
  rfl

@[simp] theorem insert_bind {A B : Type} (entry : Entry) (next : Program Key Row Entry Error A)
    (rest : A → Program Key Row Entry Error B) :
    (insert entry next >>= rest) = insert entry (next >>= rest) :=
  rfl

@[simp] theorem select_bind {A B : Type}
    (next : Database Key Row Entry → Program Key Row Entry Error A)
    (rest : A → Program Key Row Entry Error B) :
    (select next >>= rest) = select fun database ↦ next database >>= rest :=
  rfl

/-! ### A program run alone -/

variable [DecidableEq Key]

/-- Run a program alone: the result and the database it leaves, or the error it raises. -/
def execute {A : Type} : Program Key Row Entry Error A → Database Key Row Entry →
    Except Error (A × Database Key Row Entry)
  | .commit result, database => .ok (result, database)
  | .raise error, _ => .error error
  | .update key statement next, database =>
    match statement (database.row key) with
    | some row => (next (some row)).execute (database.set key row)
    | none => (next none).execute database
  | .insert entry next, database => next.execute (database.insert entry)
  | .select next, database => (next database).execute database

/-- Run a transaction: a program that raises leaves the database as it was. -/
def run {A : Type} (program : Program Key Row Entry Error A) (database : Database Key Row Entry) :
    Except Error A × Database Key Row Entry :=
  match program.execute database with
  | .ok (result, after) => (.ok result, after)
  | .error error => (.error error, database)

theorem execute_update_of_match {A : Type} {key : Key} {statement : Row key → Option (Row key)}
    {next : Option (Row key) → Program Key Row Entry Error A} {database : Database Key Row Entry}
    {row : Row key} (h : statement (database.row key) = some row) :
    (update key statement next).execute database =
      (next (some row)).execute (database.set key row) := by
  simp only [execute, h]

theorem execute_update_of_mismatch {A : Type} {key : Key}
    {statement : Row key → Option (Row key)}
    {next : Option (Row key) → Program Key Row Entry Error A} {database : Database Key Row Entry}
    (h : statement (database.row key) = none) :
    (update key statement next).execute database = (next none).execute database := by
  simp only [execute, h]

/-- Running a sequence is running its parts in turn. -/
theorem execute_bind {A B : Type} (program : Program Key Row Entry Error A)
    (rest : A → Program Key Row Entry Error B) (database : Database Key Row Entry) :
    (program >>= rest).execute database =
      program.execute database >>= fun result ↦ (rest result.1).execute result.2 := by
  induction program generalizing database with
  | commit result => rfl
  | raise error => rfl
  | update key statement next ih =>
    rw [update_bind]
    cases hmatch : statement (database.row key) with
    | some row => rw [execute_update_of_match hmatch, execute_update_of_match hmatch, ih]
    | none => rw [execute_update_of_mismatch hmatch, execute_update_of_mismatch hmatch, ih]
  | insert entry next ih => exact ih (database.insert entry)
  | select next ih => exact ih database database

/-- A program that raises, raises whatever its result would have been passed through. -/
theorem execute_map_of_error {A B : Type} {program : Program Key Row Entry Error A} {f : A → B}
    {database : Database Key Row Entry} {error : Error}
    (h : program.execute database = .error error) :
    (f <$> program).execute database = .error error := by
  rw [show f <$> program = program >>= fun result ↦ .commit (f result) from rfl, execute_bind, h]
  rfl

/-- A program that returns a result returns it passed through a function. -/
theorem execute_map_of_ok {A B : Type} {program : Program Key Row Entry Error A} {f : A → B}
    {database after : Database Key Row Entry} {result : A}
    (h : program.execute database = .ok (result, after)) :
    (f <$> program).execute database = .ok (f result, after) := by
  rw [show f <$> program = program >>= fun result ↦ .commit (f result) from rfl, execute_bind, h]
  rfl

/-- A result passed through a function was returned by the program. -/
theorem execute_map {A B : Type} {program : Program Key Row Entry Error A} {f : A → B}
    {database after : Database Key Row Entry} {value : B}
    (h : (f <$> program).execute database = .ok (value, after)) :
    ∃ result, program.execute database = .ok (result, after) ∧ f result = value := by
  rw [show f <$> program = program >>= fun result ↦ .commit (f result) from rfl, execute_bind] at h
  cases hexecute : program.execute database with
  | error error =>
    rw [hexecute] at h
    exact absurd h (by simp [Bind.bind, Except.bind])
  | ok outcome =>
    obtain ⟨result, final⟩ := outcome
    rw [hexecute] at h
    obtain ⟨rfl, rfl⟩ : f result = value ∧ final = after := by
      simpa [Bind.bind, Except.bind, execute] using h
    exact ⟨result, rfl, rfl⟩

/-- A sequence that returned ran its parts in turn. -/
theorem execute_bind_ok {A B : Type} {program : Program Key Row Entry Error A}
    {rest : A → Program Key Row Entry Error B} {database after : Database Key Row Entry} {value : B}
    (h : (program >>= rest).execute database = .ok (value, after)) :
    ∃ result between, program.execute database = .ok (result, between) ∧
      (rest result).execute between = .ok (value, after) := by
  rw [execute_bind] at h
  cases hexecute : program.execute database with
  | error error =>
    rw [hexecute] at h
    exact absurd h (by simp [Bind.bind, Except.bind])
  | ok outcome =>
    rw [hexecute] at h
    exact ⟨outcome.1, outcome.2, rfl, h⟩

theorem run_of_execute_ok {A : Type} {program : Program Key Row Entry Error A}
    {database after : Database Key Row Entry} {result : A}
    (h : program.execute database = .ok (result, after)) :
    program.run database = (.ok result, after) := by
  simp only [run, h]

theorem run_of_execute_error {A : Type} {program : Program Key Row Entry Error A}
    {database : Database Key Row Entry} {error : Error}
    (h : program.execute database = .error error) :
    program.run database = (.error error, database) := by
  simp only [run, h]

/-- A transaction that returns a result was executed to its end. -/
theorem execute_of_run_ok {A : Type} {program : Program Key Row Entry Error A}
    {database after : Database Key Row Entry} {result : A}
    (h : program.run database = (.ok result, after)) :
    program.execute database = .ok (result, after) := by
  unfold run at h
  cases hexecute : program.execute database with
  | ok outcome =>
    obtain ⟨value, final⟩ := outcome
    rw [hexecute] at h
    simp only [Prod.mk.injEq, Except.ok.injEq] at h
    rw [h.1, h.2]
  | error error =>
    rw [hexecute] at h
    simp at h

/-- A transaction that raises leaves the database as it was. -/
theorem run_error_database {A : Type} {program : Program Key Row Entry Error A}
    {database after : Database Key Row Entry} {error : Error}
    (h : program.run database = (.error error, after)) : after = database := by
  unfold run at h
  cases hexecute : program.execute database with
  | ok outcome =>
    obtain ⟨value, final⟩ := outcome
    rw [hexecute] at h
    simp at h
  | error raised =>
    rw [hexecute] at h
    simp only [Prod.mk.injEq] at h
    exact h.2.symm

/-! ### What a program can yield among others -/

/-- What a program can commit when other transactions run beside it: a statement may find no row
although the row matches now, and a read may return any state. -/
def Yields {A : Type} : Program Key Row Entry Error A → Database Key Row Entry → A →
    Database Key Row Entry → Prop
  | .commit result, database, value, after => result = value ∧ database = after
  | .raise _, _, _, _ => False
  | .update key statement next, database, value, after =>
    (∃ row, statement (database.row key) = some row ∧
      (next (some row)).Yields (database.set key row) value after) ∨
    (next none).Yields database value after
  | .insert entry next, database, value, after => next.Yields (database.insert entry) value after
  | .select next, database, value, after => ∃ snapshot, (next snapshot).Yields database value after

/-- A sequence yields what its second part yields after its first. -/
theorem yields_bind {A B : Type} {program : Program Key Row Entry Error A}
    {rest : A → Program Key Row Entry Error B} {database after : Database Key Row Entry} {value : B}
    (h : (program >>= rest).Yields database value after) :
    ∃ middle between, program.Yields database middle between ∧
      (rest middle).Yields between value after := by
  induction program generalizing database with
  | commit result => exact ⟨result, database, ⟨rfl, rfl⟩, h⟩
  | raise error => exact h.elim
  | update key statement next ih =>
    rcases h with ⟨row, hmatch, h⟩ | h
    · obtain ⟨middle, between, hfirst, hrest⟩ := ih (some row) h
      exact ⟨middle, between, Or.inl ⟨row, hmatch, hfirst⟩, hrest⟩
    · obtain ⟨middle, between, hfirst, hrest⟩ := ih none h
      exact ⟨middle, between, Or.inr hfirst, hrest⟩
  | insert entry next ih => exact ih h
  | select next ih =>
    obtain ⟨snapshot, h⟩ := h
    obtain ⟨middle, between, hfirst, hrest⟩ := ih snapshot h
    exact ⟨middle, between, ⟨snapshot, hfirst⟩, hrest⟩

/-- A result passed through a function is a result the program yields. -/
theorem yields_map {A B : Type} {program : Program Key Row Entry Error A} {f : A → B}
    {database after : Database Key Row Entry} {value : B}
    (h : (f <$> program).Yields database value after) :
    ∃ result, program.Yields database result after ∧ f result = value := by
  obtain ⟨result, between, hyields, hvalue, rfl⟩ := yields_bind h
  exact ⟨result, hyields, hvalue⟩

/-- A program run alone yields what it returns. -/
theorem yields_of_execute {A : Type} {program : Program Key Row Entry Error A}
    {database after : Database Key Row Entry} {value : A}
    (h : program.execute database = .ok (value, after)) : program.Yields database value after := by
  induction program generalizing database with
  | commit result =>
    simp only [execute, Except.ok.injEq, Prod.mk.injEq] at h
    exact h
  | raise error => simp [execute] at h
  | update key statement next ih =>
    cases hmatch : statement (database.row key) with
    | some row =>
      rw [execute_update_of_match hmatch] at h
      exact Or.inl ⟨row, hmatch, ih (some row) h⟩
    | none =>
      rw [execute_update_of_mismatch hmatch] at h
      exact Or.inr (ih none h)
  | insert entry next ih => exact ih h
  | select next ih => exact ⟨database, ih database h⟩

/-- A program that writes nothing. -/
def ReadOnly {A : Type} : Program Key Row Entry Error A → Prop
  | .commit _ => True
  | .raise _ => True
  | .update _ _ _ => False
  | .insert _ _ => False
  | .select next => ∀ database, (next database).ReadOnly

namespace ReadOnly

variable {A B : Type} {program : Program Key Row Entry Error A}

omit [DecidableEq Key] in
/-- A result passed through a function. -/
theorem map (f : A → B) (h : program.ReadOnly) : (f <$> program).ReadOnly := by
  induction program with
  | commit result => trivial
  | raise error => trivial
  | update key statement next => exact h.elim
  | insert entry next => exact h.elim
  | select next ih => exact fun database ↦ ih database (h database)

/-- A program that writes nothing leaves the database as it is. -/
theorem after_eq (h : program.ReadOnly) {database after : Database Key Row Entry} {value : A}
    (hyields : program.Yields database value after) : after = database := by
  induction program with
  | commit result => exact hyields.2.symm
  | raise error => exact hyields.elim
  | update key statement next => exact h.elim
  | insert entry next => exact h.elim
  | select next ih =>
    obtain ⟨snapshot, hyields⟩ := hyields
    exact ih snapshot (h snapshot) hyields

end ReadOnly

end Program

end Programs

end RowLocking
