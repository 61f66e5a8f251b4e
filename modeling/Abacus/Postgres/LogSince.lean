import Abacus.Postgres.Operation

/-!
# The merged log scan

`log_since` merges two bounded scans and truncates the merge. `logAfter` is what it stands for, the
rows of a session after a cursor with no bound on either scan, and `mergedSince_eq_take` says that
the first rows of the bounded merge are the first rows of the unbounded one. `logAfter` has exactly
the session's rows after the cursor (`logAfter_perm`, `mem_logAfter`), in the order of their
numbers (`logAfter_pairwise`).

`FirstAfter` says what a bounded scan should return, in terms of the rows that the tables hold
(`InLog`), and `firstAfter_take` that the beginning of `logAfter` is that.
-/

set_option autoImplicit false
set_option relaxedAutoImplicit false

namespace Abacus.Postgres

/-! ### Merging the first elements of two lists -/

/-- The first elements of a merge come from the first elements of each list. -/
theorem take_merge_take {A : Type} (le : A → A → Bool) {limit firstLimit secondLimit : ℕ}
    (hfirst : limit ≤ firstLimit) (hsecond : limit ≤ secondLimit) (first second : List A) :
    ((first.take firstLimit).merge (second.take secondLimit) le).take limit =
      (first.merge second le).take limit := by
  induction limit generalizing first second firstLimit secondLimit with
  | zero => rfl
  | succ limit ih =>
    obtain ⟨firstLimit, rfl⟩ : ∃ smaller, firstLimit = smaller + 1 := ⟨firstLimit - 1, by omega⟩
    obtain ⟨secondLimit, rfl⟩ : ∃ smaller, secondLimit = smaller + 1 := ⟨secondLimit - 1, by omega⟩
    have hfirstRest : limit ≤ firstLimit := Nat.le_of_succ_le_succ hfirst
    have hsecondRest : limit ≤ secondLimit := Nat.le_of_succ_le_succ hsecond
    cases first with
    | nil =>
      rw [List.take_nil, List.nil_merge, List.nil_merge, List.take_take, Nat.min_eq_left hsecond]
    | cons a first =>
      cases second with
      | nil =>
        rw [List.take_nil, List.merge_right, List.merge_right, List.take_take,
          Nat.min_eq_left hfirst]
      | cons b second =>
        rw [List.take_succ_cons, List.take_succ_cons, List.cons_merge_cons, List.cons_merge_cons]
        split_ifs with hle
        · have hrest := ih hfirstRest (Nat.le_of_succ_le hsecond) first (b :: second)
          rw [List.take_succ_cons] at hrest
          rw [List.take_succ_cons, List.take_succ_cons, hrest]
        · have hrest := ih (Nat.le_of_succ_le hfirst) hsecondRest (a :: first) second
          rw [List.take_succ_cons] at hrest
          rw [List.take_succ_cons, List.take_succ_cons, hrest]

/-! ### The log after a cursor -/

/-- The rows of a session in a snapshot: its messages and its job transitions. -/
def sessionRows (snapshot : Database) (sessionId : Uuid) : List SessionRow :=
  (sessionMessages snapshot sessionId).map .message ++
    (sessionEvents snapshot sessionId).map .event

/-- `order by seq` over rows already selected, with no limit. -/
def sortedBySeq {Row : Type} (seq : Row → ℕ) (rows : List Row) : List Row :=
  rows.insertionSort fun first second ↦ seq first ≤ seq second

/-- The rows after a cursor, in the order of their numbers. -/
def rowsAfter (messages : List StoredMessage) (events : List JobEvent) (afterSeq : ℕ) :
    List SessionRow :=
  ((sortedBySeq StoredMessage.seq (messages.filter fun message ↦ afterSeq < message.seq)).map
    SessionRow.message).merge
    ((sortedBySeq JobEvent.seq (events.filter fun event ↦ afterSeq < event.seq)).map
      SessionRow.event)
    fun first second ↦ decide (first.seq ≤ second.seq)

/-- The log of a session after a cursor, in the order of its numbers. -/
def logAfter (snapshot : Database) (sessionId : Uuid) (afterSeq : ℕ) : List SessionRow :=
  rowsAfter (sessionMessages snapshot sessionId) (sessionEvents snapshot sessionId) afterSeq

/-- The bounded merge is the beginning of the unbounded one. -/
theorem mergedSince_eq_take (messages : List StoredMessage) (events : List JobEvent)
    (afterSeq limit : ℕ) :
    mergedSince messages events afterSeq limit =
      (rowsAfter messages events afterSeq).take limit := by
  unfold mergedSince messagesSince jobEventsSince orderedBySeq
  rw [List.map_take, List.map_take, take_merge_take _ (le_refl limit) (le_refl limit)]
  rfl

/-- What `log_since` answers, out of range and in range. -/
theorem perform_logSince (now : Instant) (sessionId : Uuid) (afterSeq limit : ℕ)
    (database : Database) :
    perform now (.logSince sessionId afterSeq limit) database =
      (if IsBound afterSeq limit then
        .ok (.log ((logAfter database sessionId afterSeq).take limit)) else .error .dataError,
        database) := by
  have hmerged := mergedSince_eq_take (sessionMessages database sessionId)
    (sessionEvents database sessionId) afterSeq limit
  have hprogram : (Operation.logSince sessionId afterSeq limit).program now =
      Outcome.log <$> logSince sessionId afterSeq limit := rfl
  rw [perform, hprogram, logSince]
  split_ifs with hbound
  · show (Except.ok (Outcome.log (mergedSince _ _ afterSeq limit)), database) = _
    rw [hmerged]
    rfl
  · rfl

/-- The log after a cursor has exactly the session's rows with a larger number. -/
theorem logAfter_perm (snapshot : Database) (sessionId : Uuid) (afterSeq : ℕ) :
    (logAfter snapshot sessionId afterSeq).Perm
      ((sessionRows snapshot sessionId).filter fun row ↦ afterSeq < row.seq) := by
  unfold logAfter rowsAfter sortedBySeq sessionRows
  refine List.Perm.trans (List.merge_perm_append _) ?_
  rw [List.filter_append, List.filter_map, List.filter_map]
  exact ((List.perm_insertionSort _ _).map _).append ((List.perm_insertionSort _ _).map _)

theorem mem_logAfter {snapshot : Database} {sessionId : Uuid} {afterSeq : ℕ} {row : SessionRow} :
    row ∈ logAfter snapshot sessionId afterSeq ↔
      row ∈ sessionRows snapshot sessionId ∧ afterSeq < row.seq := by
  rw [(logAfter_perm snapshot sessionId afterSeq).mem_iff, List.mem_filter, decide_eq_true_iff]

theorem sortedBySeq_pairwise {Row : Type} (seq : Row → ℕ) (rows : List Row) :
    (sortedBySeq seq rows).Pairwise fun first second ↦ seq first ≤ seq second := by
  have htotal : Std.Total fun first second : Row ↦ seq first ≤ seq second :=
    ⟨fun first second ↦ le_total (seq first) (seq second)⟩
  have htrans : IsTrans Row fun first second : Row ↦ seq first ≤ seq second :=
    ⟨fun _ _ _ ↦ le_trans⟩
  exact List.pairwise_insertionSort _ rows

/-- The log after a cursor is in the order of its numbers. -/
theorem logAfter_pairwise_le (snapshot : Database) (sessionId : Uuid) (afterSeq : ℕ) :
    (logAfter snapshot sessionId afterSeq).Pairwise fun first second ↦ first.seq ≤ second.seq := by
  have hmessages : ((sortedBySeq StoredMessage.seq ((sessionMessages snapshot sessionId).filter
      fun message ↦ afterSeq < message.seq)).map SessionRow.message).Pairwise
        fun first second ↦ decide (first.seq ≤ second.seq) = true := by
    rw [List.pairwise_map]
    exact (sortedBySeq_pairwise _ _).imp fun h ↦ decide_eq_true h
  have hevents : ((sortedBySeq JobEvent.seq ((sessionEvents snapshot sessionId).filter
      fun event ↦ afterSeq < event.seq)).map SessionRow.event).Pairwise
        fun first second ↦ decide (first.seq ≤ second.seq) = true := by
    rw [List.pairwise_map]
    exact (sortedBySeq_pairwise _ _).imp fun h ↦ decide_eq_true h
  have hmerge := List.pairwise_merge
    (fun (first second third : SessionRow) (h : decide (first.seq ≤ second.seq) = true)
      (h' : decide (second.seq ≤ third.seq) = true) ↦
        decide_eq_true (le_trans (of_decide_eq_true h) (of_decide_eq_true h')))
    (fun first second ↦ by simpa using le_total first.seq second.seq) _ _ hmessages hevents
  exact hmerge.imp fun h ↦ of_decide_eq_true h

/-- Where the rows of the session have different numbers, these increase. -/
theorem logAfter_pairwise {snapshot : Database} {sessionId : Uuid} (afterSeq : ℕ)
    (hdistinct : ((sessionRows snapshot sessionId).map SessionRow.seq).Nodup) :
    (logAfter snapshot sessionId afterSeq).Pairwise fun first second ↦ first.seq < second.seq := by
  have hnodup : ((logAfter snapshot sessionId afterSeq).map SessionRow.seq).Nodup := by
    rw [((logAfter_perm snapshot sessionId afterSeq).map SessionRow.seq).nodup_iff]
    exact hdistinct.sublist ((List.filter_sublist).map SessionRow.seq)
  have hne := List.pairwise_map.mp (List.nodup_iff_pairwise_ne.mp hnodup)
  exact ((logAfter_pairwise_le snapshot sessionId afterSeq).and hne).imp
    fun ⟨hle, hne⟩ ↦ lt_of_le_of_ne hle hne

/-! ### The first rows after a cursor -/

/-- A row of the log of a session, in the table it belongs to. -/
def InLog (snapshot : Database) (sessionId : Uuid) : SessionRow → Prop
  | .message stored =>
    ∃ seq row, LogEntry.message sessionId seq stored.messageId ∈ snapshot.log ∧
      snapshot.row (.chatMessage stored.messageId) = some row ∧
      ChatMessageRow.toMessage row stored.messageId = stored
  | .event transition => LogEntry.event sessionId transition ∈ snapshot.log

theorem mem_sessionMessages {snapshot : Database} {sessionId : Uuid} {stored : StoredMessage} :
    stored ∈ sessionMessages snapshot sessionId ↔ InLog snapshot sessionId (.message stored) := by
  rw [sessionMessages, List.mem_filterMap]
  constructor
  · rintro ⟨entry, hentry, hstored⟩
    cases entry with
    | message session seq messageId =>
      dsimp only at hstored
      split_ifs at hstored with hsession
      obtain ⟨row, hrow, rfl⟩ := Option.map_eq_some_iff.mp hstored
      exact ⟨seq, row, hsession ▸ hentry, hrow, rfl⟩
    | event session transition => exact absurd hstored (by simp)
  · rintro ⟨seq, row, hentry, hrow, hstored⟩
    refine ⟨_, hentry, ?_⟩
    dsimp only
    rw [if_pos rfl, hrow]
    exact congrArg some hstored

theorem mem_sessionEvents {snapshot : Database} {sessionId : Uuid} {transition : JobEvent} :
    transition ∈ sessionEvents snapshot sessionId ↔
      InLog snapshot sessionId (.event transition) := by
  rw [sessionEvents, List.mem_filterMap]
  constructor
  · rintro ⟨entry, hentry, htransition⟩
    cases entry with
    | message session seq messageId => exact absurd htransition (by simp)
    | event session other =>
      dsimp only at htransition
      split_ifs at htransition with hsession
      obtain rfl := Option.some.inj htransition
      exact hsession ▸ hentry
  · intro hentry
    exact ⟨_, hentry, if_pos rfl⟩

theorem mem_sessionRows_iff {snapshot : Database} {sessionId : Uuid} {row : SessionRow} :
    row ∈ sessionRows snapshot sessionId ↔ InLog snapshot sessionId row := by
  rw [sessionRows, List.mem_append, List.mem_map, List.mem_map]
  cases row with
  | message stored => simp [mem_sessionMessages]
  | event transition => simp [mem_sessionEvents]

/-- What a scan bounded by `limit` should return: rows of the session after the cursor, in the order
of their numbers, and every row it leaves out comes after `limit` rows it returns. -/
structure FirstAfter (snapshot : Database) (sessionId : Uuid) (afterSeq limit : ℕ)
    (rows : List SessionRow) : Prop where
  increasing : rows.Pairwise fun first second ↦ first.seq < second.seq
  inLog : ∀ row ∈ rows, InLog snapshot sessionId row
  after : ∀ row ∈ rows, afterSeq < row.seq
  bounded : rows.length ≤ limit
  smallest : ∀ row, InLog snapshot sessionId row → afterSeq < row.seq → row ∉ rows →
    rows.length = limit ∧ ∀ kept ∈ rows, kept.seq < row.seq

/-- The first rows after a cursor are the beginning of the log after it. -/
theorem firstAfter_take {snapshot : Database} {sessionId : Uuid} (afterSeq limit : ℕ)
    (hdistinct : ((sessionRows snapshot sessionId).map SessionRow.seq).Nodup) :
    FirstAfter snapshot sessionId afterSeq limit
      ((logAfter snapshot sessionId afterSeq).take limit) := by
  have hincreasing := logAfter_pairwise afterSeq hdistinct
  have hmem : ∀ row ∈ (logAfter snapshot sessionId afterSeq).take limit,
      InLog snapshot sessionId row ∧ afterSeq < row.seq := by
    intro row hrow
    obtain ⟨hrow, hafter⟩ := mem_logAfter.mp (List.mem_of_mem_take hrow)
    exact ⟨mem_sessionRows_iff.mp hrow, hafter⟩
  constructor
  · exact hincreasing.sublist (List.take_sublist _ _)
  · exact fun row hrow ↦ (hmem row hrow).1
  · exact fun row hrow ↦ (hmem row hrow).2
  · exact List.length_take_le _ _
  · intro row hrow hafter hout
    have hall := mem_logAfter.mpr ⟨mem_sessionRows_iff.mpr hrow, hafter⟩
    rw [← List.take_append_drop limit (logAfter snapshot sessionId afterSeq)] at hincreasing hall
    have hdrop := (List.mem_append.mp hall).resolve_left hout
    constructor
    · rw [List.length_take, Nat.min_eq_left]
      by_contra hshort
      rw [List.drop_of_length_le (Nat.le_of_not_le hshort)] at hdrop
      exact List.not_mem_nil hdrop
    · intro kept hkept
      exact (List.pairwise_append.mp hincreasing).2.2 kept hkept row hdrop

end Abacus.Postgres
