import Abacus.Chat.Resume

/-!
# What a resume sends

`_resume` asks `log_since` for one row more than it will replay. `log_since_exact` says what comes
back and what is passed to `send`: for any log whose rows have different numbers, however they are
spread over the two tables, `log_since` returns the first rows after the cursor (`FirstAfter`), and
`_resume` sends every row after it or, when there are more than it replays, one error (`Replays`).
The reader may be resumed any time after the reply has come, with frames of turns sent in between.
The cursor and the limit are bound as `BIGINT`; one that is too large makes the scan raise
(`log_since_raises`).

What of this reaches the socket is not said here; `Abacus.Chat.Resume` is about that.
-/

set_option autoImplicit false
set_option relaxedAutoImplicit false

namespace Abacus.Chat

open Postgres (Database IsBound Outcome bigintEnd perform sessionRows logAfter InLog FirstAfter
  firstAfter_take perform_logSince mem_logAfter mem_sessionRows_iff logAfter_pairwise)

/-- What one resume passes to `send`: the error that the cursor is too old and no row, or every row
after the cursor, as the frame of its kind and in the order of the numbers, and no error. -/
structure Replays (settings : Settings) (database : Database) (sessionId : Uuid) (lastSeq : ℕ)
    (before after : Handler) : Prop where
  tooOld : settings.wsResumeMaxMessages < (missedRows database sessionId lastSeq).length →
    after.conn.sent = before.conn.sent ++
      [.error .resumeTooOld
        ("more than " ++ toString settings.wsResumeMaxMessages ++ " entries since seq " ++
          toString lastSeq) false]
  whole : (missedRows database sessionId lastSeq).length ≤ settings.wsResumeMaxMessages →
    ∃ rows : List SessionRow, after.conn.sent = before.conn.sent ++ rows.map replayed ∧
      rows.Pairwise (fun first second ↦ first.seq < second.seq) ∧
      ∀ row, row ∈ rows ↔ InLog database sessionId row ∧ lastSeq < row.seq

variable {settings : Settings} {database : Database} {sessionId : Uuid}

/-- The answer of a resume in range is what it should replay. -/
theorem replays_resumeFrames {lastSeq : ℕ}
    (hrange : IsBound lastSeq (settings.wsResumeMaxMessages + 1))
    (hdistinct : ((sessionRows database sessionId).map SessionRow.seq).Nodup)
    {before after : Handler}
    (hsent : after.conn.sent =
      before.conn.sent ++ resumeFrames settings database sessionId lastSeq) :
    Replays settings database sessionId lastSeq before after := by
  constructor
  · intro hmore
    rw [hsent, resumeFrames, if_pos hrange, if_pos hmore]
  · intro hbound
    rw [resumeFrames_of_bound hrange hbound] at hsent
    refine ⟨logAfter database sessionId lastSeq, hsent, logAfter_pairwise lastSeq hdistinct,
      fun row ↦ ?_⟩
    rw [mem_logAfter, mem_sessionRows_iff]

/-- `log_since` is exact at every bound, and what `_resume` makes of it: for every log whose rows
have different numbers, and every cursor and limit that a `BIGINT` holds, the scan returns the first
rows after the cursor, and a resume sends all rows after the cursor or one error, whenever its
reader goes on. -/
theorem log_since_exact (Socket : Type) [DecidableEq Socket] (settings : Settings)
    (hdistinct : ((sessionRows database sessionId).map SessionRow.seq).Nodup) (lastSeq : ℕ) :
    (∀ now limit, IsBound lastSeq limit → ∃ rows,
      perform now (.logSince sessionId lastSeq limit) database = (.ok (.log rows), database) ∧
        FirstAfter database sessionId lastSeq limit rows) ∧
    (IsBound lastSeq (settings.wsResumeMaxMessages + 1) →
      ∀ {system : System Socket} {socket : Socket} {handler : Handler},
        system.database = database → system.handlers socket = some handler →
        handler.conn.sessionId = sessionId → handler.reader = ⟨.resuming lastSeq, none⟩ →
        ∀ drawn, ∃ stored answered,
          system.step settings (.store socket .reader drawn false) = some stored ∧
          stored.handlers socket = some answered ∧
          ∀ {later : System Socket} {current : Handler}, later.handlers socket = some current →
            current.reader = answered.reader →
            ∀ fresh, ∃ after,
              later.step settings (.act socket (.runReader fresh)) =
                some (later.setHandler socket after) ∧
              Replays settings database sessionId lastSeq current after) := by
  constructor
  · intro now limit hrange
    refine ⟨_, ?_, firstAfter_take lastSeq limit hdistinct⟩
    rw [perform_logSince, if_pos hrange]
  · rintro hrange system socket handler rfl hhandler rfl hreader drawn
    refine ⟨_, _, System.step_store_resuming hhandler hreader drawn,
      System.setHandler_handlers_self _ _ _, ?_⟩
    intro later current hcurrent hsame fresh
    rw [Handler.answer, hreader] at hsame
    exact ⟨_, System.step_run_resuming hcurrent hsame fresh,
      replays_resumeFrames hrange hdistinct (Connection.sent_sendAll _ _)⟩

/-- A job is enqueued between the two messages of a turn, and the client, which has the first,
asks for the rest. -/
def splitLog : List (Event Unit) :=
  connects ++
    [.act () (.receive (.valid 1 (.userMessage ⟨"when?", "split", by decide, by decide⟩))),
      .store () .reader ⟨2⟩ false, .act () (.runReader 0)] ++
    enqueues 1 ++
    [.store () .reader ⟨3⟩ false, .act () (.runReader 0),
      .act () (.receive (.valid 1 (.resume 1)))]

/-- The bound at work: of the two rows after the cursor, the smaller is the first. -/
theorem log_since_exact_split :
    ∃ (system : System Unit) (handler : Handler),
      (System.initial Unit).steps .default splitLog = some system ∧
      system.handlers () = some handler ∧
      (missedRows system.database ⟨1⟩ 1).map SessionRow.seq = [3, 2] ∧
      FirstAfter system.database ⟨1⟩ 1 1 ((logAfter system.database ⟨1⟩ 1).take 1) ∧
      ∃ stored answered after,
        system.step .default (.store () .reader ⟨4⟩ false) = some stored ∧
        stored.handlers () = some answered ∧
        stored.step .default (.act () (.runReader 1)) = some (stored.setHandler () after) ∧
        Replays .default system.database ⟨1⟩ 1 answered after := by
  obtain ⟨system, handler, hsystem, hhandler, hsession, hreader, hseqs, hmissed⟩ :
      ∃ (system : System Unit) (handler : Handler),
        (System.initial Unit).steps .default splitLog = some system ∧
        system.handlers () = some handler ∧ handler.conn.sessionId = ⟨1⟩ ∧
        handler.reader = ⟨.resuming 1, none⟩ ∧
        (sessionRows system.database ⟨1⟩).map SessionRow.seq = [1, 3, 2] ∧
        (missedRows system.database ⟨1⟩ 1).map SessionRow.seq = [3, 2] :=
    ⟨_, _, rfl, rfl, rfl, rfl, rfl, rfl⟩
  have hdistinct : ((sessionRows system.database ⟨1⟩).map SessionRow.seq).Nodup := by
    rw [hseqs]
    decide
  obtain ⟨hscan, hresume⟩ := log_since_exact Unit .default hdistinct 1
  obtain ⟨rows, hrows, hfirst⟩ := hscan 0 1 (by decide)
  obtain ⟨stored, answered, hstored, hanswered, hreplays⟩ :=
    hresume (by decide) rfl hhandler hsession hreader ⟨4⟩
  obtain ⟨after, hafter, hsent⟩ := hreplays hanswered rfl 1
  rw [perform_logSince, if_pos (by decide)] at hrows
  obtain rfl := Outcome.log.inj (Except.ok.inj (congrArg Prod.fst hrows))
  exact ⟨system, handler, hsystem, hhandler, hmissed, hfirst, stored, answered, after, hstored,
    hanswered, hafter, hsent⟩

/-- A client asks for the rows after the first number that is no `BIGINT`. -/
def hugeCursor : List (Event Unit) :=
  connects ++ enqueues 1 ++ [.act () (.receive (.valid 1 (.resume bigintEnd)))]

/-- Beyond a `BIGINT` the scan raises: no row is after the cursor, and still the client is sent an
error. -/
theorem log_since_raises :
    ∃ (system : System Unit) (handler : Handler),
      (System.initial Unit).steps .default hugeCursor = some system ∧
      system.handlers () = some handler ∧
      ((sessionRows system.database ⟨1⟩).map SessionRow.seq).Nodup ∧
      missedRows system.database ⟨1⟩ bigintEnd = [] ∧
      perform 0 (.logSince ⟨1⟩ bigintEnd 1) system.database =
        (.error .dataError, system.database) ∧
      ∃ stored answered after,
        system.step .default (.store () .reader ⟨4⟩ false) = some stored ∧
        stored.handlers () = some answered ∧
        stored.step .default (.act () (.runReader 0)) = some (stored.setHandler () after) ∧
        after.conn.sent = answered.conn.sent ++
          [.error .internal "the session could not be replayed" true] ∧
        ¬Replays .default system.database ⟨1⟩ bigintEnd answered after := by
  obtain ⟨system, handler, hsystem, hhandler, hsession, hreader, hseqs, hmissed⟩ :
      ∃ (system : System Unit) (handler : Handler),
        (System.initial Unit).steps .default hugeCursor = some system ∧
        system.handlers () = some handler ∧ handler.conn.sessionId = ⟨1⟩ ∧
        handler.reader = ⟨.resuming bigintEnd, none⟩ ∧
        (sessionRows system.database ⟨1⟩).map SessionRow.seq = [1] ∧
        missedRows system.database ⟨1⟩ bigintEnd = [] :=
    ⟨_, _, rfl, rfl, rfl, rfl, rfl, rfl⟩
  have hrange : ¬IsBound bigintEnd (Settings.default.wsResumeMaxMessages + 1) := by decide
  refine ⟨system, handler, hsystem, hhandler, by rw [hseqs]; decide, hmissed, ?_, ?_⟩
  · rw [perform_logSince, if_neg (by decide)]
  · have hanswered : (handler.answer (scanReply .default system.database ⟨1⟩ bigintEnd)
        .reader).reader =
          ⟨.resuming bigintEnd, some (scanReply .default system.database ⟨1⟩ bigintEnd)⟩ := by
      rw [Handler.answer, hreader]
    have hsent := Connection.sent_sendAll handler.conn
      (resumeFrames .default system.database ⟨1⟩ bigintEnd)
    rw [resumeFrames_of_range hrange] at hsent
    refine ⟨_, _, _, System.step_store_resuming hhandler hreader ⟨4⟩,
      System.setHandler_handlers_self _ _ _,
      System.step_run_resuming (System.setHandler_handlers_self _ _ _) (hsession ▸ hanswered) 0,
      ?_, ?_⟩
    · rw [hsession]
      exact hsent
    · rw [hsession]
      intro hreplays
      obtain ⟨rows, hrows, -, -⟩ := hreplays.whole (by rw [hmissed]; exact Nat.zero_le _)
      exact error_ne_replayed rows (List.append_cancel_left (hsent.symm.trans hrows))

end Abacus.Chat
