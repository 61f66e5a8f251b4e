import Abacus.RowLocking.Program

/-!
# Interleaved transactions and the commit order

Any number of backends run transactions side by side on one database. A statement that matches a
row takes the row's lock, waits while another transaction holds it, reads the row again once it has
it and holds it to the end; the row versions and entries a transaction has written are its own
until it commits, and an abort at any moment forgets them (`Step`). `Execution` is a run of such
steps together with the list of the commits in their order, each with the database before and
after it.

`Execution.commit_yields` is the serialization theorem: every commit takes the database before it
to a database that the committed program, run alone on it, could have produced. It rests on
`Derives`, the statement that a running transaction has got where it is by reading the database
committed now: a row it has read and locked cannot be changed by a commit of another
(`Derives.of_agree`), because two transactions never hold the lock of one row
(`Execution.locks_exclusive`). `Execution.invariant` is the rule the rest uses: a property that
every program preserves when it runs alone holds of every committed state.
-/

set_option autoImplicit false
set_option relaxedAutoImplicit false

namespace RowLocking

variable {Backend Label Key : Type} {Row : Key → Type} {Entry Error Result : Type}

/-- A running transaction: what it is for, what is left of its program, the row versions it has
written and the entries it has inserted. It holds the locks of the rows it has written. -/
structure Transaction (Label Key : Type) (Row : Key → Type) (Entry Error Result : Type) where
  label : Label
  program : Program Key Row Entry Error Result
  writes : ∀ key, Option (Row key)
  inserted : List Entry

/-- What a transaction sees: its own writes over the committed rows. -/
def Transaction.view (transaction : Transaction Label Key Row Entry Error Result)
    (committed : Database Key Row Entry) : Database Key Row Entry where
  row := fun key ↦ (transaction.writes key).getD (committed.row key)
  log := committed.log ++ transaction.inserted

/-- A transaction holds the lock of every row it has written. -/
def Transaction.Locks (transaction : Transaction Label Key Row Entry Error Result) (key : Key) :
    Prop :=
  transaction.writes key ≠ none

/-- A transaction that has run no statement. -/
def Transaction.start (code : Label → Program Key Row Entry Error Result) (label : Label) :
    Transaction Label Key Row Entry Error Result where
  label := label
  program := code label
  writes := fun _ ↦ none
  inserted := []

/-- The committed database and the transaction each backend is running. -/
structure System (Backend Label Key : Type) (Row : Key → Type) (Entry Error Result : Type) where
  committed : Database Key Row Entry
  running : Backend → Option (Transaction Label Key Row Entry Error Result)

/-- A commit: the transaction's label and result, and the database before and after it. -/
structure Commit (Label Key : Type) (Row : Key → Type) (Entry Result : Type) where
  label : Label
  result : Result
  before : Database Key Row Entry
  after : Database Key Row Entry

section Steps

variable [DecidableEq Backend]

/-- The system with another transaction on one backend. -/
def System.put (system : System Backend Label Key Row Entry Error Result) (backend : Backend)
    (transaction : Option (Transaction Label Key Row Entry Error Result)) :
    System Backend Label Key Row Entry Error Result :=
  { system with running := Function.update system.running backend transaction }

theorem System.put_running_self (system : System Backend Label Key Row Entry Error Result)
    (backend : Backend) (transaction : Option (Transaction Label Key Row Entry Error Result)) :
    (system.put backend transaction).running backend = transaction := by
  simp only [System.put, Function.update_self]

theorem System.put_running_of_ne (system : System Backend Label Key Row Entry Error Result)
    {backend other : Backend} (transaction : Option (Transaction Label Key Row Entry Error Result))
    (h : other ≠ backend) : (system.put backend transaction).running other =
      system.running other := by
  simp only [System.put, ne_eq, h, not_false_eq_true, Function.update_of_ne]

@[simp] theorem System.put_put (system : System Backend Label Key Row Entry Error Result)
    (backend : Backend) (first second : Option (Transaction Label Key Row Entry Error Result)) :
    (system.put backend first).put backend second = system.put backend second := by
  simp only [System.put, Function.update_idem]

theorem System.put_comm (system : System Backend Label Key Row Entry Error Result)
    {first second : Backend} (one two : Option (Transaction Label Key Row Entry Error Result))
    (h : first ≠ second) :
    (system.put first one).put second two = (system.put second two).put first one := by
  simp only [System.put, Function.update_comm h]

variable [DecidableEq Key]

/-- One step of one backend, with the commit it makes if it makes one. -/
inductive Step (code : Label → Program Key Row Entry Error Result) :
    System Backend Label Key Row Entry Error Result → Option (Commit Label Key Row Entry Result) →
      System Backend Label Key Row Entry Error Result → Prop
  /-- A backend begins a transaction. -/
  | start {system} (backend : Backend) (label : Label) (hidle : system.running backend = none) :
    Step code system none (system.put backend (some (Transaction.start code label)))
  /-- A statement matches a row that no other transaction has locked, and locks it. -/
  | update {system} (backend : Backend) (label : Label) (key : Key)
      (statement : Row key → Option (Row key))
      (next : Option (Row key) → Program Key Row Entry Error Result)
      (writes : ∀ key, Option (Row key)) (inserted : List Entry) (row : Row key)
      (hrunning : system.running backend =
        some ⟨label, .update key statement next, writes, inserted⟩)
      (hfree : ∀ other transaction, other ≠ backend → system.running other = some transaction →
        ¬ transaction.Locks key)
      (hmatch : statement ((writes key).getD (system.committed.row key)) = some row) :
    Step code system none (system.put backend
      (some ⟨label, next (some row), Function.update writes key (some row), inserted⟩))
  /-- A statement matches no row and takes no lock. -/
  | mismatch {system} (backend : Backend) (label : Label) (key : Key)
      (statement : Row key → Option (Row key))
      (next : Option (Row key) → Program Key Row Entry Error Result)
      (writes : ∀ key, Option (Row key)) (inserted : List Entry)
      (hrunning : system.running backend =
        some ⟨label, .update key statement next, writes, inserted⟩)
      (hmismatch : statement ((writes key).getD (system.committed.row key)) = none) :
    Step code system none (system.put backend (some ⟨label, next none, writes, inserted⟩))
  /-- A transaction inserts an entry. -/
  | insert {system} (backend : Backend) (label : Label) (entry : Entry)
      (next : Program Key Row Entry Error Result)
      (writes : ∀ key, Option (Row key)) (inserted : List Entry)
      (hrunning : system.running backend = some ⟨label, .insert entry next, writes, inserted⟩) :
    Step code system none (system.put backend (some ⟨label, next, writes, inserted ++ [entry]⟩))
  /-- A read sees the transaction's own writes over one committed state. -/
  | select {system} (backend : Backend) (label : Label)
      (next : Database Key Row Entry → Program Key Row Entry Error Result)
      (writes : ∀ key, Option (Row key)) (inserted : List Entry)
      (hrunning : system.running backend = some ⟨label, .select next, writes, inserted⟩) :
    Step code system none (system.put backend (some ⟨label,
      next ((⟨label, .select next, writes, inserted⟩ :
        Transaction Label Key Row Entry Error Result).view system.committed), writes, inserted⟩))
  /-- A transaction ends without committing: it raised, or the connection died at any statement. -/
  | abort {system} (backend : Backend) (transaction : Transaction Label Key Row Entry Error Result)
      (hrunning : system.running backend = some transaction) :
    Step code system none (system.put backend none)
  /-- A transaction commits: what it sees becomes the committed state. -/
  | commit {system} (backend : Backend) (label : Label) (result : Result)
      (writes : ∀ key, Option (Row key)) (inserted : List Entry)
      (hrunning : system.running backend = some ⟨label, .commit result, writes, inserted⟩) :
    Step code system
      (some ⟨label, result, system.committed,
        (⟨label, .commit result, writes, inserted⟩ :
          Transaction Label Key Row Entry Error Result).view system.committed⟩)
      { system.put backend none with
        committed := (⟨label, .commit result, writes, inserted⟩ :
          Transaction Label Key Row Entry Error Result).view system.committed }

/-- The system with no transaction running. -/
def System.idle (database : Database Key Row Entry) :
    System Backend Label Key Row Entry Error Result where
  committed := database
  running := fun _ ↦ none

omit [DecidableEq Key] in
@[simp] theorem System.idle_put_none (database : Database Key Row Entry) (backend : Backend) :
    (System.idle database : System Backend Label Key Row Entry Error Result).put backend none =
      System.idle database :=
  congrArg (System.mk database) (Function.update_eq_self backend fun _ ↦ none)

/-- A run from the idle system on a database, with the commits made so far in their order. -/
inductive Execution (code : Label → Program Key Row Entry Error Result)
    (start : Database Key Row Entry) : List (Commit Label Key Row Entry Result) →
      System Backend Label Key Row Entry Error Result → Prop
  | idle : Execution code start [] (System.idle start)
  | step {history system made after} (before : Execution code start history system)
      (step : Step code system made after) :
    Execution code start (history ++ made.toList) after

/-! ### A running transaction has read the committed state -/

/-- A transaction has got where it is by statements that read its own writes or the rows committed
now. A statement that matched nothing and a read may have looked at an older state. -/
inductive Derives (code : Label → Program Key Row Entry Error Result)
    (committed : Database Key Row Entry) : Transaction Label Key Row Entry Error Result → Prop
  | start (label : Label) : Derives code committed (Transaction.start code label)
  | update {label key statement next writes inserted} (row : Row key)
      (before : Derives code committed ⟨label, .update key statement next, writes, inserted⟩)
      (hmatch : statement ((writes key).getD (committed.row key)) = some row) :
    Derives code committed
      ⟨label, next (some row), Function.update writes key (some row), inserted⟩
  | mismatch {label key statement next writes inserted}
      (before : Derives code committed ⟨label, .update key statement next, writes, inserted⟩) :
    Derives code committed ⟨label, next none, writes, inserted⟩
  | insert {label entry next writes inserted}
      (before : Derives code committed ⟨label, .insert entry next, writes, inserted⟩) :
    Derives code committed ⟨label, next, writes, inserted ++ [entry]⟩
  | select {label next writes inserted} (snapshot : Database Key Row Entry)
      (before : Derives code committed ⟨label, .select next, writes, inserted⟩) :
    Derives code committed ⟨label, next snapshot, writes, inserted⟩

variable {code : Label → Program Key Row Entry Error Result}

/-- A change of rows that a transaction has not locked does not matter to how it got where it
is. -/
theorem Derives.of_agree {committed other : Database Key Row Entry}
    {transaction : Transaction Label Key Row Entry Error Result}
    (h : Derives code committed transaction)
    (hagree : ∀ key, transaction.Locks key → other.row key = committed.row key) :
    Derives code other transaction := by
  induction h with
  | start label => exact .start label
  | @update label key statement next writes inserted row before hmatch ih =>
    have hlocks : ∀ read, writes read ≠ none →
        Function.update writes key (some row) read ≠ none := by
      intro read hread
      by_cases hkey : read = key
      · subst hkey
        simp
      · rwa [Function.update_of_ne hkey]
    refine .update row (ih fun read hread ↦ hagree read (hlocks read hread)) ?_
    have hrow : other.row key = committed.row key := hagree key (by simp [Transaction.Locks])
    rwa [hrow]
  | mismatch before ih => exact .mismatch (ih hagree)
  | insert before ih => exact .insert (ih hagree)
  | select snapshot before ih => exact .select snapshot (ih hagree)

/-- Whatever a running transaction can still yield, its whole program run alone on the committed
state can yield. -/
theorem Derives.yields {committed final : Database Key Row Entry} {result : Result}
    {transaction : Transaction Label Key Row Entry Error Result}
    (h : Derives code committed transaction)
    (hyields : transaction.program.Yields (transaction.view committed) result final) :
    (code transaction.label).Yields committed result final := by
  induction h with
  | start label => simpa [Transaction.start, Transaction.view] using hyields
  | @update label key statement next writes inserted row before hmatch ih =>
    refine ih (Or.inl ⟨row, hmatch, ?_⟩)
    have hview : ((⟨label, .update key statement next, writes, inserted⟩ :
          Transaction Label Key Row Entry Error Result).view committed).set key row =
        (⟨label, next (some row), Function.update writes key (some row), inserted⟩ :
          Transaction Label Key Row Entry Error Result).view committed := by
      simp only [Database.set, Transaction.view, Database.mk.injEq, and_true]
      funext read
      by_cases hkey : read = key
      · subst hkey
        simp
      · simp [Function.update_of_ne hkey]
    rw [hview]
    exact hyields
  | mismatch before ih => exact ih (Or.inr hyields)
  | @insert label entry next writes inserted before ih =>
    refine ih ?_
    simpa [Program.Yields, Transaction.view, Database.insert, List.append_assoc] using hyields
  | select snapshot before ih => exact ih ⟨snapshot, hyields⟩

/-! ### Locks and the serialization theorem -/

/-- No two transactions hold the lock of one row. -/
def System.Exclusive (system : System Backend Label Key Row Entry Error Result) : Prop :=
  ∀ first second one two key, system.running first = some one → system.running second = some two →
    one.Locks key → two.Locks key → first = second

/-- Every running transaction has read the committed state, and the locks are exclusive. -/
structure System.Sound (code : Label → Program Key Row Entry Error Result)
    (system : System Backend Label Key Row Entry Error Result) : Prop where
  exclusive : system.Exclusive
  derives : ∀ backend transaction, system.running backend = some transaction →
    Derives code system.committed transaction

/-- Replacing a backend's transaction keeps the system sound when the new one has read the
committed state and each of its locks was its own or free. -/
theorem System.Sound.put {system : System Backend Label Key Row Entry Error Result}
    (h : system.Sound code) {backend : Backend}
    {transaction : Transaction Label Key Row Entry Error Result}
    (hderives : Derives code system.committed transaction)
    (hlocks : ∀ key, transaction.Locks key → ∀ other held, other ≠ backend →
      system.running other = some held → ¬ held.Locks key) :
    (system.put backend (some transaction)).Sound code where
  exclusive := by
    intro first second one two key hone htwo hlockOne hlockTwo
    by_cases hfirst : first = backend
    · subst hfirst
      by_cases hsecond : second = first
      · exact hsecond.symm
      · rw [System.put_running_self, Option.some.injEq] at hone
        rw [System.put_running_of_ne _ _ hsecond] at htwo
        subst hone
        exact absurd hlockTwo (hlocks key hlockOne second two hsecond htwo)
    · rw [System.put_running_of_ne _ _ hfirst] at hone
      by_cases hsecond : second = backend
      · subst hsecond
        rw [System.put_running_self, Option.some.injEq] at htwo
        subst htwo
        exact absurd hlockOne (hlocks key hlockTwo first one hfirst hone)
      · rw [System.put_running_of_ne _ _ hsecond] at htwo
        exact h.exclusive first second one two key hone htwo hlockOne hlockTwo
  derives := by
    intro other held hheld
    by_cases hother : other = backend
    · subst hother
      rw [System.put_running_self, Option.some.injEq] at hheld
      subst hheld
      exact hderives
    · rw [System.put_running_of_ne _ _ hother] at hheld
      exact h.derives other held hheld

/-- Ending a backend's transaction keeps the system sound on any database that agrees with the
committed one on the rows the other transactions have locked. -/
theorem System.Sound.clear {system : System Backend Label Key Row Entry Error Result}
    (h : system.Sound code) (backend : Backend) {committed : Database Key Row Entry}
    (hagree : ∀ other held key, other ≠ backend → system.running other = some held →
      held.Locks key → committed.row key = system.committed.row key) :
    ({ system.put backend none with committed := committed } :
      System Backend Label Key Row Entry Error Result).Sound code := by
  have hrunning : ∀ {other held}, (system.put backend none).running other = some held →
      other ≠ backend ∧ system.running other = some held := by
    intro other held hheld
    by_cases hother : other = backend
    · subst hother
      rw [System.put_running_self] at hheld
      exact absurd hheld (by simp)
    · rw [System.put_running_of_ne _ _ hother] at hheld
      exact ⟨hother, hheld⟩
  constructor
  · intro first second one two key hone htwo hlockOne hlockTwo
    exact h.exclusive first second one two key (hrunning hone).2 (hrunning htwo).2 hlockOne
      hlockTwo
  · intro other held hheld
    obtain ⟨hother, hheld⟩ := hrunning hheld
    exact (h.derives other held hheld).of_agree fun key hlock ↦
      hagree other held key hother hheld hlock

/-- A step keeps the system sound. -/
theorem System.Sound.step {system after : System Backend Label Key Row Entry Error Result}
    {made : Option (Commit Label Key Row Entry Result)} (h : system.Sound code)
    (hstep : Step code system made after) : after.Sound code := by
  have hkept : ∀ {backend transaction}, system.running backend = some transaction →
      ∀ key, transaction.writes key ≠ none → ∀ other held, other ≠ backend →
        system.running other = some held → ¬ held.Locks key :=
    fun hrunning key hlock other held hother hheld hlockHeld ↦
      hother (h.exclusive other _ held _ key hheld hrunning hlockHeld hlock)
  cases hstep with
  | start backend label hidle =>
    exact h.put (.start label) fun key hlock ↦ absurd rfl hlock
  | update backend label key statement next writes inserted row hrunning hfree hmatch =>
    refine h.put ((h.derives backend _ hrunning).update row hmatch) ?_
    intro read hlock other held hother hheld
    by_cases hread : read = key
    · subst hread
      exact hfree other held hother hheld
    · refine hkept hrunning read ?_ other held hother hheld
      simpa only [Transaction.Locks, Function.update_of_ne hread] using hlock
  | mismatch backend label key statement next writes inserted hrunning hmismatch =>
    exact h.put (h.derives backend _ hrunning).mismatch fun key hlock ↦ hkept hrunning key hlock
  | insert backend label entry next writes inserted hrunning =>
    exact h.put (h.derives backend _ hrunning).insert fun key hlock ↦ hkept hrunning key hlock
  | select backend label next writes inserted hrunning =>
    exact h.put ((h.derives backend _ hrunning).select _) fun key hlock ↦ hkept hrunning key hlock
  | abort backend transaction hrunning =>
    exact h.clear backend fun _ _ _ _ _ _ ↦ rfl
  | commit backend label result writes inserted hrunning =>
    refine h.clear backend fun other held key hother hheld hlock ↦ ?_
    have hfree : writes key = none := by
      by_contra hwritten
      exact hkept hrunning key hwritten other held hother hheld hlock
    simp only [Transaction.view, hfree, Option.getD_none]

/-- Every system of a run is sound. -/
theorem Execution.sound {start : Database Key Row Entry}
    {history : List (Commit Label Key Row Entry Result)}
    {system : System Backend Label Key Row Entry Error Result}
    (h : Execution code start history system) : system.Sound code := by
  induction h with
  | idle =>
    constructor
    · intro first second one two key hone
      exact absurd hone (by simp [System.idle])
    · intro backend transaction hrunning
      exact absurd hrunning (by simp [System.idle])
  | step before step ih => exact ih.step step

/-- No two transactions of a run hold the lock of one row. -/
theorem Execution.locks_exclusive {start : Database Key Row Entry}
    {history : List (Commit Label Key Row Entry Result)}
    {system : System Backend Label Key Row Entry Error Result}
    (h : Execution code start history system) : system.Exclusive :=
  h.sound.exclusive

/-- A step that commits goes from the committed state to the commit's final one, and its program
run alone yields it; a step that does not commit leaves the committed state. -/
theorem System.Sound.step_committed
    {system after : System Backend Label Key Row Entry Error Result}
    {made : Option (Commit Label Key Row Entry Result)} (h : system.Sound code)
    (hstep : Step code system made after) :
    (made = none ∧ after.committed = system.committed) ∨
      ∃ commit, made = some commit ∧ commit.before = system.committed ∧
        commit.after = after.committed ∧
        (code commit.label).Yields commit.before commit.result commit.after := by
  cases hstep with
  | commit backend label result writes inserted hrunning =>
    exact Or.inr ⟨_, rfl, rfl, rfl, (h.derives backend _ hrunning).yields ⟨rfl, rfl⟩⟩
  | _ => exact Or.inl ⟨rfl, rfl⟩

/-- Serialization: every commit of a run takes the database before it to one that its program, run
alone on it, yields. -/
theorem Execution.commit_yields {start : Database Key Row Entry}
    {history : List (Commit Label Key Row Entry Result)}
    {system : System Backend Label Key Row Entry Error Result}
    (h : Execution code start history system) {commit : Commit Label Key Row Entry Result}
    (hcommit : commit ∈ history) :
    (code commit.label).Yields commit.before commit.result commit.after := by
  induction h with
  | idle => exact absurd hcommit (by simp)
  | step before step ih =>
    rcases List.mem_append.mp hcommit with hold | hnew
    · exact ih hold
    · rcases before.sound.step_committed step with ⟨hnone, -⟩ | ⟨made, hmade, -, -, hyields⟩
      · subst hnone
        exact absurd hnew (by simp)
      · subst hmade
        rw [List.mem_singleton.mp hnew]
        exact hyields

/-- The invariant rule: what holds at the start and is preserved by every program run alone holds
of every committed state. -/
theorem Execution.invariant {start : Database Key Row Entry}
    {Holds : Database Key Row Entry → Prop} (hstart : Holds start)
    (hpreserved : ∀ label database result final, Holds database →
      (code label).Yields database result final → Holds final)
    {history : List (Commit Label Key Row Entry Result)}
    {system : System Backend Label Key Row Entry Error Result}
    (h : Execution code start history system) : Holds system.committed := by
  induction h with
  | idle => exact hstart
  | step before step ih =>
    rcases before.sound.step_committed step with ⟨-, hsame⟩ | ⟨made, -, hbefore, hafter, hyields⟩
    · rw [hsame]
      exact ih
    · rw [← hafter]
      exact hpreserved _ _ _ _ (hbefore ▸ ih) hyields

/-- The invariant rule with the history: what holds of no commits at the start and is preserved
when a program run alone is appended to the history holds of every run. -/
theorem Execution.history_invariant {start : Database Key Row Entry}
    {Holds : List (Commit Label Key Row Entry Result) → Database Key Row Entry → Prop}
    (hstart : Holds [] start)
    (hpreserved : ∀ history (commit : Commit Label Key Row Entry Result),
      Holds history commit.before →
      (code commit.label).Yields commit.before commit.result commit.after →
      Holds (history ++ [commit]) commit.after)
    {history : List (Commit Label Key Row Entry Result)}
    {system : System Backend Label Key Row Entry Error Result}
    (h : Execution code start history system) : Holds history system.committed := by
  induction h with
  | idle => exact hstart
  | step before step ih =>
    rcases before.sound.step_committed step with ⟨hnone, hsame⟩ |
      ⟨made, hmade, hbefore, hafter, hyields⟩
    · subst hnone
      rw [hsame]
      simpa using ih
    · subst hmade
      rw [← hafter]
      exact hpreserved _ made (hbefore ▸ ih) hyields

/-- The invariant rule from a commit on: what holds after a commit and is preserved by every later
one holds of every later committed state, and whatever the later commits do under it they all do.
`Always` is an invariant of the whole run. -/
theorem Execution.since {start : Database Key Row Entry}
    {Always Holds : Database Key Row Entry → Prop}
    {Does : Commit Label Key Row Entry Result → Prop} (hstart : Always start)
    (halways : ∀ label database result final, Always database →
      (code label).Yields database result final → Always final)
    {earlier later : List (Commit Label Key Row Entry Result)}
    {mark : Commit Label Key Row Entry Result}
    (hmark : Always mark.before → (code mark.label).Yields mark.before mark.result mark.after →
      Holds mark.after)
    (hpreserved : ∀ commit : Commit Label Key Row Entry Result, Always commit.before →
      Holds commit.before → (code commit.label).Yields commit.before commit.result commit.after →
      Holds commit.after ∧ Does commit)
    {system : System Backend Label Key Row Entry Error Result}
    (h : Execution code start (earlier ++ mark :: later) system) :
    Holds system.committed ∧ ∀ commit ∈ later, Does commit := by
  let Since (history : List (Commit Label Key Row Entry Result))
      (database : Database Key Row Entry) : Prop :=
    Always database ∧ ∀ since, history = earlier ++ mark :: since →
      Holds database ∧ ∀ commit ∈ since, Does commit
  have hrun : Since (earlier ++ mark :: later) system.committed := by
    have hempty : Since [] start := ⟨hstart, fun since hnil ↦ absurd hnil (by simp)⟩
    refine Execution.history_invariant hempty ?_ h
    rintro history commit ⟨hbefore, hsince⟩ hyields
    refine ⟨halways _ _ _ _ hbefore hyields, fun since hsplit ↦ ?_⟩
    rcases List.eq_nil_or_concat since with rfl | ⟨since, last, rfl⟩
    · obtain ⟨-, hlast⟩ := List.append_inj' hsplit rfl
      obtain rfl : commit = mark := List.singleton_inj.mp hlast
      exact ⟨hmark hbefore hyields, by simp⟩
    · rw [List.concat_eq_append, ← List.cons_append, ← List.append_assoc] at hsplit
      obtain ⟨rfl, hlast⟩ := List.append_inj' hsplit rfl
      obtain rfl : commit = last := List.singleton_inj.mp hlast
      obtain ⟨hholds, hdoes⟩ := hsince since rfl
      obtain ⟨hafter, hlastDoes⟩ := hpreserved commit hbefore hholds hyields
      refine ⟨hafter, fun other hother ↦ ?_⟩
      rw [List.concat_eq_append] at hother
      rcases List.mem_append.mp hother with hold | hnew
      · exact hdoes other hold
      · rw [List.mem_singleton.mp hnew]
        exact hlastDoes
  exact hrun.2 later rfl

/-! ### Readers -/

/-- A transaction that only reads has written nothing. -/
theorem Derives.readOnly {committed : Database Key Row Entry}
    {transaction : Transaction Label Key Row Entry Error Result}
    (h : Derives code committed transaction) (hreads : (code transaction.label).ReadOnly) :
    transaction.program.ReadOnly ∧ transaction.writes = (fun _ ↦ none) ∧
      transaction.inserted = [] := by
  induction h with
  | start label => exact ⟨hreads, rfl, rfl⟩
  | update row before hmatch ih => exact (ih hreads).1.elim
  | mismatch before ih => exact (ih hreads).1.elim
  | insert before ih => exact (ih hreads).1.elim
  | select snapshot before ih =>
    obtain ⟨hprogram, hwrites, hinserted⟩ := ih hreads
    exact ⟨hprogram snapshot, hwrites, hinserted⟩

/-- A transaction that only reads sees the committed state. -/
theorem Execution.view_of_readOnly {start : Database Key Row Entry}
    {history : List (Commit Label Key Row Entry Result)}
    {system : System Backend Label Key Row Entry Error Result}
    (h : Execution code start history system) {backend : Backend}
    {transaction : Transaction Label Key Row Entry Error Result}
    (hrunning : system.running backend = some transaction)
    (hreads : (code transaction.label).ReadOnly) :
    transaction.view system.committed = system.committed := by
  obtain ⟨-, hwrites, hinserted⟩ := (h.sound.derives backend transaction hrunning).readOnly hreads
  simp only [Transaction.view, hwrites, hinserted, Option.getD_none, List.append_nil]

/-! ### Serial runs -/

/-- A transaction whose backend is the only one at work can run to its commit. -/
theorem Execution.finish {start : Database Key Row Entry}
    {history : List (Commit Label Key Row Entry Result)} {committed after : Database Key Row Entry}
    {backend : Backend} {label : Label} {program : Program Key Row Entry Error Result}
    {writes : ∀ key, Option (Row key)} {inserted : List Entry} {result : Result}
    (h : Execution code start history
      ((System.idle committed).put backend (some ⟨label, program, writes, inserted⟩)))
    (hexecute : program.execute ((⟨label, program, writes, inserted⟩ :
      Transaction Label Key Row Entry Error Result).view committed) = .ok (result, after)) :
    Execution code start (history ++ [⟨label, result, committed, after⟩])
      (System.idle after : System Backend Label Key Row Entry Error Result) := by
  induction program generalizing writes inserted with
  | commit value =>
    simp only [Program.execute, Except.ok.injEq, Prod.mk.injEq] at hexecute
    obtain ⟨rfl, rfl⟩ := hexecute
    have hstep := h.step (.commit backend label value writes inserted
      (System.put_running_self _ _ _))
    simp only [System.put_put, System.idle_put_none] at hstep
    exact hstep
  | raise error => simp [Program.execute] at hexecute
  | update key statement next ih =>
    cases hmatch : statement ((writes key).getD (committed.row key)) with
    | some row =>
      have hfree : ∀ other transaction, other ≠ backend →
          ((System.idle committed).put backend
            (some ⟨label, .update key statement next, writes, inserted⟩)).running other =
              some transaction → ¬ transaction.Locks key := by
        intro other transaction hother hrunning
        rw [System.put_running_of_ne _ _ hother] at hrunning
        exact absurd hrunning (by simp [System.idle])
      have hstep := h.step (.update backend label key statement next writes inserted row
        (System.put_running_self _ _ _) hfree hmatch)
      rw [System.put_put, Option.toList_none, List.append_nil] at hstep
      refine ih (some row) hstep ?_
      rw [Program.execute_update_of_match hmatch] at hexecute
      rw [← hexecute]
      congr 1
      simp only [Transaction.view, Database.set, Database.mk.injEq, and_true]
      funext read
      by_cases hkey : read = key
      · subst hkey
        simp
      · simp [Function.update_of_ne hkey]
    | none =>
      have hstep := h.step (.mismatch backend label key statement next writes inserted
        (System.put_running_self _ _ _) hmatch)
      rw [System.put_put, Option.toList_none, List.append_nil] at hstep
      rw [Program.execute_update_of_mismatch hmatch] at hexecute
      exact ih none hstep hexecute
  | insert entry next ih =>
    have hstep := h.step (.insert backend label entry next writes inserted
      (System.put_running_self _ _ _))
    rw [System.put_put, Option.toList_none, List.append_nil] at hstep
    refine ih hstep ?_
    rw [← hexecute]
    simp only [Program.execute, Transaction.view, Database.insert, List.append_assoc]
  | select next ih =>
    have hstep := h.step (.select backend label next writes inserted
      (System.put_running_self _ _ _))
    rw [System.put_put, Option.toList_none, List.append_nil] at hstep
    exact ih _ hstep hexecute

/-- Transactions run one at a time are a run of the system. -/
theorem Execution.serial {start database after : Database Key Row Entry}
    {history : List (Commit Label Key Row Entry Result)} {label : Label} {result : Result}
    (backend : Backend)
    (h : Execution code start history
      (System.idle database : System Backend Label Key Row Entry Error Result))
    (hexecute : (code label).execute database = .ok (result, after)) :
    Execution code start (history ++ [⟨label, result, database, after⟩])
      (System.idle after : System Backend Label Key Row Entry Error Result) := by
  have hstart := h.step (.start backend label rfl)
  rw [Option.toList_none, List.append_nil] at hstart
  refine hstart.finish ?_
  simpa [Transaction.view] using hexecute

end Steps

end RowLocking
