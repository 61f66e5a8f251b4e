import Abacus.RowLocking.Interleaving

/-!
# Invariants of running transactions

What a running transaction knows of the database must survive the commits of the others. A
`Statement` is a step of the transaction itself, `Step.running` says that whatever runs after a step
ran before it, has just begun or has made a statement, and `Step.commit_inv` which transaction a
commit ends.

`Execution.running_invariant` is the rule: what a transaction knows at its start, what its own
statements keep on the rows committed when they are made, and what no commit takes away holds of
every transaction of every run. `Program.Ends` is about what a program can still return, whatever
it reads.
-/

set_option autoImplicit false
set_option relaxedAutoImplicit false

namespace RowLocking

variable {Backend Label Key : Type} {Row : Key → Type} {Entry Error Result : Type}

/-! ### What a program can return -/

namespace Program

/-- Whatever the program reads, it commits only such results. -/
def Ends {A : Type} (holds : A → Prop) : Program Key Row Entry Error A → Prop
  | .commit result => holds result
  | .raise _ => True
  | .update _ _ next => ∀ row, (next row).Ends holds
  | .insert _ next => next.Ends holds
  | .select next => ∀ database, (next database).Ends holds

theorem Ends.bind {A B : Type} {program : Program Key Row Entry Error A}
    {rest : A → Program Key Row Entry Error B} {holds : B → Prop}
    (hrest : ∀ value, (rest value).Ends holds) : (program >>= rest).Ends holds := by
  induction program with
  | commit result => exact hrest result
  | raise error => trivial
  | update key statement next ih => exact fun row ↦ ih row
  | insert entry next ih => exact ih
  | select next ih => exact fun database ↦ ih database

theorem Ends.map {A B : Type} {program : Program Key Row Entry Error A} {f : A → B}
    {holds : B → Prop} (h : program.Ends fun value ↦ holds (f value)) :
    (f <$> program).Ends holds := by
  induction program with
  | commit result => exact h
  | raise error => trivial
  | update key statement next ih => exact fun row ↦ ih row (h row)
  | insert entry next ih => exact ih h
  | select next ih => exact fun database ↦ ih database (h database)

end Program

/-! ### The steps of one transaction -/

section Steps

variable [DecidableEq Key]

/-- A statement of a running transaction on what is committed now. -/
inductive Statement (committed : Database Key Row Entry) :
    Transaction Label Key Row Entry Error Result → Transaction Label Key Row Entry Error Result →
      Prop
  | update {label key statement next writes inserted} (row : Row key)
      (hmatch : statement ((writes key).getD (committed.row key)) = some row) :
    Statement committed ⟨label, .update key statement next, writes, inserted⟩
      ⟨label, next (some row), Function.update writes key (some row), inserted⟩
  | mismatch {label key statement next writes inserted}
      (hmismatch : statement ((writes key).getD (committed.row key)) = none) :
    Statement committed ⟨label, .update key statement next, writes, inserted⟩
      ⟨label, next none, writes, inserted⟩
  | insert {label entry next writes inserted} :
    Statement committed ⟨label, .insert entry next, writes, inserted⟩
      ⟨label, next, writes, inserted ++ [entry]⟩
  | select {label next writes inserted} :
    Statement committed ⟨label, .select next, writes, inserted⟩
      ⟨label, next ((⟨label, .select next, writes, inserted⟩ :
        Transaction Label Key Row Entry Error Result).view committed), writes, inserted⟩

/-- A statement does not change what the transaction is for. -/
theorem Statement.label_eq {committed : Database Key Row Entry}
    {before after : Transaction Label Key Row Entry Error Result}
    (h : Statement committed before after) : after.label = before.label := by
  cases h <;> rfl

/-- A statement takes nothing from what the program can return. -/
theorem Statement.ends {committed : Database Key Row Entry} {holds : Result → Prop}
    {before after : Transaction Label Key Row Entry Error Result}
    (h : Statement committed before after) (hends : before.program.Ends holds) :
    after.program.Ends holds := by
  cases h with
  | update row hmatch => exact hends (some row)
  | mismatch hmismatch => exact hends none
  | insert => exact hends
  | select => exact hends _

variable [DecidableEq Backend] {code : Label → Program Key Row Entry Error Result}
  {system after : System Backend Label Key Row Entry Error Result}

/-- What runs after a step ran before it, has begun in it, or has made a statement in it. -/
theorem Step.running {made : Option (Commit Label Key Row Entry Result)}
    (hstep : Step code system made after) {backend : Backend}
    {transaction : Transaction Label Key Row Entry Error Result}
    (h : after.running backend = some transaction) :
    system.running backend = some transaction ∨
      (system.running backend = none ∧ ∃ label, transaction = Transaction.start code label) ∨
      ∃ before, system.running backend = some before ∧
        Statement system.committed before transaction := by
  have hput : ∀ {other : Backend} {state : Option (Transaction Label Key Row Entry Error Result)},
      (system.put other state).running backend = some transaction →
      (other = backend ∧ state = some transaction) ∨ system.running backend = some transaction := by
    intro other state hrunning
    by_cases hother : backend = other
    · subst hother
      rw [System.put_running_self] at hrunning
      exact Or.inl ⟨rfl, hrunning⟩
    · rw [System.put_running_of_ne _ _ hother] at hrunning
      exact Or.inr hrunning
  cases hstep with
  | start other label hidle =>
    rcases hput h with ⟨rfl, hstate⟩ | hsame
    · exact Or.inr (Or.inl ⟨hidle, label, (Option.some.inj hstate).symm⟩)
    · exact Or.inl hsame
  | update other label key statement next writes inserted row hrunning hfree hmatch =>
    rcases hput h with ⟨rfl, hstate⟩ | hsame
    · exact Or.inr (Or.inr ⟨_, hrunning, Option.some.inj hstate ▸ .update row hmatch⟩)
    · exact Or.inl hsame
  | mismatch other label key statement next writes inserted hrunning hmismatch =>
    rcases hput h with ⟨rfl, hstate⟩ | hsame
    · exact Or.inr (Or.inr ⟨_, hrunning, Option.some.inj hstate ▸ .mismatch hmismatch⟩)
    · exact Or.inl hsame
  | insert other label entry next writes inserted hrunning =>
    rcases hput h with ⟨rfl, hstate⟩ | hsame
    · exact Or.inr (Or.inr ⟨_, hrunning, Option.some.inj hstate ▸ .insert⟩)
    · exact Or.inl hsame
  | select other label next writes inserted hrunning =>
    rcases hput h with ⟨rfl, hstate⟩ | hsame
    · exact Or.inr (Or.inr ⟨_, hrunning, Option.some.inj hstate ▸ .select⟩)
    · exact Or.inl hsame
  | abort other held hrunning =>
    rcases hput h with ⟨-, hstate⟩ | hsame
    · exact absurd hstate (by simp)
    · exact Or.inl hsame
  | commit other label result writes inserted hrunning =>
    rcases hput h with ⟨-, hstate⟩ | hsame
    · exact absurd hstate (by simp)
    · exact Or.inl hsame

/-- The transaction that a commit ends: it had come to the end of its program, and nothing else
changes but the committed state. -/
theorem Step.commit_inv {commit : Commit Label Key Row Entry Result}
    (hstep : Step code system (some commit) after) :
    ∃ backend transaction, system.running backend = some transaction ∧
      transaction.label = commit.label ∧ transaction.program = .commit commit.result ∧
      after.running backend = none ∧
      ∀ other, other ≠ backend → after.running other = system.running other := by
  cases hstep with
  | commit backend label result writes inserted hrunning =>
    exact ⟨backend, _, hrunning, rfl, rfl, System.put_running_self _ _ _,
      fun other hother ↦ System.put_running_of_ne _ _ hother⟩

/-! ### The rule -/

/-- What holds of a transaction at its start, is kept by its own statements on what is committed and
is not taken away by any commit holds of every running transaction. `Always` is an invariant of the
committed states. -/
theorem Execution.running_invariant {start : Database Key Row Entry}
    {Always : Database Key Row Entry → Prop}
    {Holds : Database Key Row Entry → Transaction Label Key Row Entry Error Result → Prop}
    (halways : ∀ {history} {system : System Backend Label Key Row Entry Error Result},
      Execution code start history system → Always system.committed)
    (hstart : ∀ committed label, Holds committed (Transaction.start code label))
    (hown : ∀ committed before after, Always committed → Holds committed before →
      Statement committed before after → Holds committed after)
    (hrely : ∀ label before result after transaction, (code label).Yields before result after →
      Holds before transaction → Holds after transaction)
    {history : List (Commit Label Key Row Entry Result)}
    (h : Execution code start history system) {backend : Backend}
    {transaction : Transaction Label Key Row Entry Error Result}
    (hrunning : system.running backend = some transaction) :
    Holds system.committed transaction := by
  induction h generalizing backend transaction with
  | idle => exact absurd hrunning (by simp [System.idle])
  | @step history system made after before step ih =>
    have hnow : Holds system.committed transaction := by
      rcases step.running hrunning with hsame | ⟨-, label, rfl⟩ | ⟨earlier, hearlier, hstatement⟩
      · exact ih hsame
      · exact hstart _ label
      · exact hown _ _ _ (halways before) (ih hearlier) hstatement
    rcases before.sound.step_committed step with ⟨-, hsame⟩ | ⟨commit, -, hbefore, hafter, hyields⟩
    · rw [hsame]
      exact hnow
    · rw [← hafter]
      exact hrely _ _ _ _ _ hyields (hbefore ▸ hnow)

end Steps

end RowLocking
