import Abacus.RowLocking.Interleaving
import Abacus.RowLocking.Respects
import Mathlib.Logic.Relation

/-!
# Locks taken in one order

A backend waits for another when its next statement is on a row that the other's transaction has
locked (`System.Waits`). A statement that would not match the row waits for nobody, so the relation
has at least the edges of the wait-for graph.

`Program.Climbs` says that a program asks for its rows in the order of a relation, whatever the
statements match and the reads return; `Program.Within` bounds the rows it asks for, which is what
the sequencing rule `Climbs.bind` needs. Where the transactions running at one moment all climb by
one strict order, a wait leads to a wait for a later row (`Execution.before_of_waits`), and the
waits have no cycle (`Execution.no_wait_cycle`).
-/

set_option autoImplicit false
set_option relaxedAutoImplicit false

namespace RowLocking

variable {Backend Label Key : Type} {Row : Key → Type} {Entry Error Result : Type}

namespace Program

/-- The program asks for its rows in ascending order, none of them before the last one asked for. -/
def Climbs {A : Type} (before : Key → Key → Prop) :
    Option Key → Program Key Row Entry Error A → Prop
  | _, .commit _ => True
  | _, .raise _ => True
  | last, .update key _ next =>
    (∀ held ∈ last, held = key ∨ before held key) ∧ ∀ row, (next row).Climbs before (some key)
  | last, .insert _ next => next.Climbs before last
  | last, .select next => ∀ database, (next database).Climbs before last

/-- The program asks only for some rows. -/
def Within {A : Type} (keys : Key → Prop) : Program Key Row Entry Error A → Prop
  | .commit _ => True
  | .raise _ => True
  | .update key _ next => keys key ∧ ∀ row, (next row).Within keys
  | .insert _ next => next.Within keys
  | .select next => ∀ database, (next database).Within keys

section Sequencing

variable {A B : Type} {keys : Key → Prop} {before : Key → Key → Prop}

/-- A program that writes nothing asks for no row. -/
theorem Within.of_readOnly {program : Program Key Row Entry Error A} (h : program.ReadOnly) :
    program.Within keys := by
  induction program with
  | commit result => trivial
  | raise error => trivial
  | update key statement next => exact h.elim
  | insert entry next => exact h.elim
  | select next ih => exact fun database ↦ ih database (h database)

theorem Climbs.of_readOnly {program : Program Key Row Entry Error A} {last : Option Key}
    (h : program.ReadOnly) : program.Climbs before last := by
  induction program with
  | commit result => trivial
  | raise error => trivial
  | update key statement next => exact h.elim
  | insert entry next => exact h.elim
  | select next ih => exact fun database ↦ ih database (h database)

theorem Within.bind {program : Program Key Row Entry Error A}
    {rest : A → Program Key Row Entry Error B} (hprogram : program.Within keys)
    (hrest : ∀ value, (rest value).Within keys) : (program >>= rest).Within keys := by
  induction program with
  | commit result => exact hrest result
  | raise error => trivial
  | update key statement next ih =>
    constructor
    · exact hprogram.1
    · intro row
      exact ih row (hprogram.2 row)
  | insert entry next ih => exact ih hprogram
  | select next ih => exact fun database ↦ ih database (hprogram database)

theorem Within.map {program : Program Key Row Entry Error A} (f : A → B)
    (h : program.Within keys) : (f <$> program).Within keys :=
  h.bind fun _ ↦ trivial

theorem Within.mono {more : Key → Prop} {program : Program Key Row Entry Error A}
    (h : program.Within keys) (hmore : ∀ key, keys key → more key) : program.Within more := by
  induction program with
  | commit result => trivial
  | raise error => trivial
  | update key statement next ih =>
    constructor
    · exact hmore key h.1
    · intro row
      exact ih row (h.2 row)
  | insert entry next ih => exact ih h
  | select next ih => exact fun database ↦ ih database (h database)

/-- A relation that holds between any two values of the rows a program asks for is respected. -/
theorem Within.respects {kept : ∀ key, Row key → Row key → Prop}
    {program : Program Key Row Entry Error A} (h : program.Within keys)
    (hkept : ∀ key, keys key → ∀ old new, kept key old new) : program.Respects kept := by
  induction program with
  | commit result => trivial
  | raise error => trivial
  | update key statement next ih =>
    constructor
    · intro old new _
      exact hkept key h.1 old new
    · intro row
      exact ih row (h.2 row)
  | insert entry next ih => exact ih h
  | select next ih => exact fun database ↦ ih database (h database)

/-- The rows that a program does not ask for stay as they are. -/
theorem Within.row_eq [DecidableEq Key] {program : Program Key Row Entry Error A}
    (h : program.Within keys) {database after : Database Key Row Entry} {value : A}
    (hyields : program.Yields database value after) {key : Key} (hkey : ¬keys key) :
    after.row key = database.row key := by
  let kept (key : Key) (old new : Row key) : Prop := keys key ∨ old = new
  have hrespects : program.Respects kept := h.respects fun _ hkeys _ _ ↦ Or.inl hkeys
  have hrefl : ∀ key (row : Row key), kept key row row := fun _ _ ↦ Or.inr rfl
  have htrans : ∀ key (first second third : Row key), kept key first second →
      kept key second third → kept key first third := by
    rintro key first second third (hkeys | rfl) hsecond
    · exact Or.inl hkeys
    · exact hsecond
  have hkept : kept key (database.row key) (after.row key) :=
    hrespects.row_kept hrefl htrans hyields key
  exact (hkept.resolve_left hkey).symm

/-- A sequence climbs when its second part climbs from any row the first may have ended with. -/
theorem Climbs.bind {program : Program Key Row Entry Error A}
    {rest : A → Program Key Row Entry Error B} {last : Option Key}
    (hprogram : program.Climbs before last) (hwithin : program.Within keys)
    (hlast : ∀ held ∈ last, keys held)
    (hrest : ∀ value last, (∀ held ∈ last, keys held) → (rest value).Climbs before last) :
    (program >>= rest).Climbs before last := by
  induction program generalizing last with
  | commit result => exact hrest result last hlast
  | raise error => trivial
  | update key statement next ih =>
    constructor
    · exact hprogram.1
    · intro row
      refine ih row (hprogram.2 row) (hwithin.2 row) ?_
      intro held hheld
      rw [← Option.some.inj hheld]
      exact hwithin.1
  | insert entry next ih => exact ih hprogram hwithin hlast
  | select next ih => exact fun database ↦ ih database (hprogram database) (hwithin database) hlast

theorem Climbs.map {program : Program Key Row Entry Error A} {last : Option Key} (f : A → B)
    (h : program.Climbs before last) : (f <$> program).Climbs before last := by
  induction program generalizing last with
  | commit result => trivial
  | raise error => trivial
  | update key statement next ih =>
    constructor
    · exact h.1
    · intro row
      exact ih row (h.2 row)
  | insert entry next ih => exact ih h
  | select next ih => exact fun database ↦ ih database (h database)

end Sequencing

end Program

/-! ### The transactions of a run -/

/-- A transaction that asks for its next rows in order, and holds none after the last it asked
for. -/
def Transaction.Climbing (before : Key → Key → Prop)
    (transaction : Transaction Label Key Row Entry Error Result) : Prop :=
  ∃ last, transaction.program.Climbs before last ∧
    ∀ key, transaction.Locks key → ∃ held ∈ last, key = held ∨ before key held

/-- A climbing transaction holds no row after the one it asks for next. -/
theorem Transaction.Climbing.asks {before : Key → Key → Prop} [IsTrans Key before] {label : Label}
    {key : Key}
    {statement : Row key → Option (Row key)}
    {next : Option (Row key) → Program Key Row Entry Error Result}
    {writes : ∀ key, Option (Row key)} {inserted : List Entry}
    (h : (⟨label, .update key statement next, writes, inserted⟩ :
      Transaction Label Key Row Entry Error Result).Climbing before) :
    (∀ row, (next row).Climbs before (some key)) ∧
      ∀ other, writes other ≠ none → other = key ∨ before other key := by
  obtain ⟨last, ⟨hlast, hnext⟩, hlocks⟩ := h
  refine ⟨hnext, fun other hlock ↦ ?_⟩
  obtain ⟨held, hheld, hle⟩ := hlocks other hlock
  rcases hle with rfl | hbelow
  · exact hlast other hheld
  · rcases hlast held hheld with rfl | hstep
    · exact Or.inr hbelow
    · exact Or.inr (IsTrans.trans other held key hbelow hstep)

/-- One backend's next statement is on a row that another's transaction has locked. -/
def System.Waits (system : System Backend Label Key Row Entry Error Result)
    (backend holder : Backend) (key : Key) : Prop :=
  backend ≠ holder ∧
    (∃ label statement next writes inserted, system.running backend =
      some ⟨label, .update key statement next, writes, inserted⟩) ∧
    ∃ transaction, system.running holder = some transaction ∧ transaction.Locks key

/-- The wait-for graph. -/
def System.WaitsFor (system : System Backend Label Key Row Entry Error Result)
    (backend holder : Backend) : Prop :=
  ∃ key, system.Waits backend holder key

/-- A backend asks for one row at a time. -/
theorem System.Waits.key_unique {system : System Backend Label Key Row Entry Error Result}
    {backend holder other : Backend} {key key' : Key} (h : system.Waits backend holder key)
    (h' : system.Waits backend other key') : key = key' := by
  obtain ⟨-, ⟨_, _, _, _, _, hrunning⟩, -⟩ := h
  obtain ⟨-, ⟨_, _, _, _, _, hrunning'⟩, -⟩ := h'
  have hsame := Option.some.inj (hrunning.symm.trans hrunning')
  simp only [Transaction.mk.injEq, Program.update.injEq] at hsame
  exact hsame.2.1.1

section Runs

variable [DecidableEq Backend] [DecidableEq Key]
  {code : Label → Program Key Row Entry Error Result} {start : Database Key Row Entry}
  {history : List (Commit Label Key Row Entry Result)}
  {system : System Backend Label Key Row Entry Error Result}

/-- Every running transaction climbs by any order its program climbs by. -/
def System.Climbing (code : Label → Program Key Row Entry Error Result)
    (system : System Backend Label Key Row Entry Error Result) : Prop :=
  ∀ backend transaction, system.running backend = some transaction →
    ∀ (before : Key → Key → Prop) [IsTrans Key before],
      (code transaction.label).Climbs before none → transaction.Climbing before

omit [DecidableEq Key] in
theorem System.Climbing.put (h : system.Climbing code) {backend : Backend}
    {transaction : Option (Transaction Label Key Row Entry Error Result)}
    (hclimbing : ∀ running ∈ transaction, ∀ (before : Key → Key → Prop) [IsTrans Key before],
      (code running.label).Climbs before none → running.Climbing before) :
    (system.put backend transaction).Climbing code := by
  intro other running hrunning
  by_cases hother : other = backend
  · subst hother
    rw [System.put_running_self] at hrunning
    exact hclimbing running hrunning
  · rw [System.put_running_of_ne _ _ hother] at hrunning
    exact h other running hrunning

theorem System.Climbing.step {after : System Backend Label Key Row Entry Error Result}
    {made : Option (Commit Label Key Row Entry Result)} (h : system.Climbing code)
    (hstep : Step code system made after) : after.Climbing code := by
  cases hstep with
  | start backend label hidle =>
    refine h.put fun running hrunning before _ hcode ↦ ?_
    obtain rfl := Option.some.inj hrunning
    exact ⟨none, hcode, fun key hlock ↦ absurd rfl hlock⟩
  | update backend label key statement next writes inserted row hrunning hfree hmatch =>
    refine h.put fun running hnew before _ hcode ↦ ?_
    obtain rfl := Option.some.inj hnew
    obtain ⟨hclimbs, hlocks⟩ := (h backend _ hrunning before hcode).asks
    refine ⟨some key, hclimbs (some row), fun other hlock ↦ ⟨key, rfl, ?_⟩⟩
    by_cases hother : other = key
    · exact Or.inl hother
    · refine hlocks other ?_
      simpa only [Transaction.Locks, Function.update_of_ne hother] using hlock
  | mismatch backend label key statement next writes inserted hrunning hmismatch =>
    refine h.put fun running hnew before _ hcode ↦ ?_
    obtain rfl := Option.some.inj hnew
    obtain ⟨hclimbs, hlocks⟩ := (h backend _ hrunning before hcode).asks
    exact ⟨some key, hclimbs none, fun other hlock ↦ ⟨key, rfl, hlocks other hlock⟩⟩
  | insert backend label entry next writes inserted hrunning =>
    refine h.put fun running hnew before _ hcode ↦ ?_
    obtain rfl := Option.some.inj hnew
    obtain ⟨last, hclimbs, hlocks⟩ := h backend _ hrunning before hcode
    exact ⟨last, hclimbs, hlocks⟩
  | select backend label next writes inserted hrunning =>
    refine h.put fun running hnew before _ hcode ↦ ?_
    obtain rfl := Option.some.inj hnew
    obtain ⟨last, hclimbs, hlocks⟩ := h backend _ hrunning before hcode
    exact ⟨last, hclimbs _, hlocks⟩
  | abort backend transaction hrunning => exact h.put (by simp)
  | commit backend label result writes inserted hrunning =>
    have hput : (system.put backend none).Climbing code := h.put (by simp)
    exact hput

/-- Every system of a run is climbing. -/
theorem Execution.climbing (h : Execution code start history system) : system.Climbing code := by
  induction h with
  | idle =>
    intro backend transaction hrunning
    exact absurd hrunning (by simp [System.idle])
  | step earlier hstep ih => exact ih.step hstep

/-- The programs of the running transactions all climb by one relation. -/
def System.Ordered (code : Label → Program Key Row Entry Error Result)
    (before : Key → Key → Prop) (system : System Backend Label Key Row Entry Error Result) :
    Prop :=
  ∀ backend transaction, system.running backend = some transaction →
    (code transaction.label).Climbs before none

variable {before : Key → Key → Prop}

/-- The holder of a row asked for waits, if it waits, for a later row. -/
theorem Execution.before_of_waits [IsTrans Key before]
    (h : Execution code start history system) (hordered : system.Ordered code before)
    {backend holder third : Backend} {key later : Key}
    (hwaits : system.Waits backend holder key) (hholder : system.Waits holder third later) :
    before key later := by
  obtain ⟨hne, ⟨_, _, _, _, _, hrunning⟩, ⟨other, hother, hlockThird⟩⟩ := hholder
  obtain ⟨-, -, ⟨transaction, hholds, hlock⟩⟩ := hwaits
  have hclimbing := h.climbing holder _ hrunning before (hordered holder _ hrunning)
  obtain rfl := Option.some.inj (hrunning.symm.trans hholds)
  rcases hclimbing.asks.2 key hlock with rfl | hbelow
  · -- The row asked for is the holder's own, so nobody else has it.
    exact absurd (h.locks_exclusive holder third _ other key hrunning hother hlock hlockThird) hne
  · exact hbelow

/-- Along a path of waits the rows asked for ascend. -/
theorem Execution.before_of_path [IsTrans Key before]
    (h : Execution code start history system) (hordered : system.Ordered code before)
    {backend last holder : Backend} {later : Key}
    (hpath : Relation.TransGen system.WaitsFor backend last)
    (hlast : system.Waits last holder later) :
    ∃ next key, system.Waits backend next key ∧ before key later := by
  induction hpath using Relation.TransGen.head_induction_on with
  | single hwaits =>
    obtain ⟨key, hwaits⟩ := hwaits
    exact ⟨_, key, hwaits, h.before_of_waits hordered hwaits hlast⟩
  | head hwaits _ ih =>
    obtain ⟨key, hwaits⟩ := hwaits
    obtain ⟨next, middle, hnext, hbelow⟩ := ih
    exact ⟨_, key, hwaits,
      IsTrans.trans _ _ _ (h.before_of_waits hordered hwaits hnext) hbelow⟩

/-- Transactions whose programs all climb by one strict order do not wait for each other in a
cycle. -/
theorem Execution.no_wait_cycle [IsStrictOrder Key before]
    (h : Execution code start history system) (hordered : system.Ordered code before)
    (backend : Backend) :
    ¬Relation.TransGen system.WaitsFor backend backend := by
  intro hcycle
  obtain ⟨holder, hstart, -⟩ := Relation.TransGen.head'_iff.mp hcycle
  obtain ⟨first, hfirst⟩ := hstart
  obtain ⟨next, key, hnext, hbelow⟩ := h.before_of_path hordered hcycle hfirst
  obtain rfl := hfirst.key_unique hnext
  exact irrefl first hbelow

end Runs

end RowLocking
