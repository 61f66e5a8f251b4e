import Abacus.Chat.Page

/-!
# What a page is replayed

When a socket opens, the page first sends a resume at the highest number that it has had, and it
sends no other. So the rows that the service replays on it are above everything that the page has
had before: over all connections of a page to its session, the replayed rows come in the order of
their numbers and each once, and no message that was acked and no reply that was done is among them
(`replays_increase`).
-/

set_option autoImplicit false
set_option relaxedAutoImplicit false

namespace Abacus.Chat

open Postgres (Database GapFree logAfter_pairwise mem_logAfter)

/-! ### The numbers of a replay -/

/-- The cursor of the resume that came in. -/
def resumeCursor : Inbound → Option ℕ
  | .valid _ (.resume lastSeq) => some lastSeq
  | _ => none

/-- The number of the row that the frame replays. -/
def replayNumber : ServerFrame → Option ℕ
  | .message seq _ _ _ _ => some seq
  | .jobStatus seq _ _ => some seq
  | _ => none

theorem numbers_replayed (rows : List SessionRow) :
    (rows.map replayed).filterMap replayNumber = rows.map SessionRow.seq := by
  have hnumber : replayNumber ∘ replayed = some ∘ SessionRow.seq := by
    funext row
    cases row <;> rfl
  rw [List.filterMap_map, hnumber, List.filterMap_eq_map]

theorem numbers_filter (frames : List ServerFrame) :
    (frames.filter ServerFrame.answers).filterMap replayNumber = frames.filterMap replayNumber := by
  rw [List.filterMap_filter]
  congr 1
  funext frame
  cases frame with
  | message => rfl
  | jobStatus => rfl
  | _ => simp [replayNumber]

theorem seq_of_replayNumber {frame : ServerFrame} {number : ℕ}
    (h : replayNumber frame = some number) : frame.seq = some number := by
  cases frame with
  | message => exact h
  | jobStatus => exact h
  | _ => exact absurd h (by simp [replayNumber])

section Dialogues

variable {settings : Settings} {sessionId : Uuid}

/-- Only a resume is answered with rows, and these are above its cursor. -/
theorem Responds.numbers {found : Database → Prop} {inbound : Inbound} {frames : List ServerFrame}
    (h : Responds settings sessionId found inbound frames)
    (hfound : ∀ database, found database → GapFree database) :
    frames.filterMap replayNumber = [] ∨ ∃ lastSeq, resumeCursor inbound = some lastSeq ∧
      (lastSeq :: frames.filterMap replayNumber).Pairwise (· < ·) := by
  cases h with
  | replayed v lastSeq database hv hdatabase hlength =>
    refine Or.inr ⟨lastSeq, rfl, ?_⟩
    rw [numbers_replayed, List.pairwise_cons, List.pairwise_map]
    refine ⟨fun number hnumber ↦ ?_,
      logAfter_pairwise lastSeq (nodup_sessionRows (hfound database hdatabase) sessionId)⟩
    obtain ⟨row, hrow, rfl⟩ := List.mem_map.mp hnumber
    exact (mem_logAfter.mp hrow).2
  | _ => exact Or.inl rfl

/-- A client that resumes at most once is replayed rows above its cursor, in their order. -/
theorem Dialogue.numbers {found : List Inbound → Database → Prop} {heard : List Inbound}
    {said : List ServerFrame} (h : Dialogue settings sessionId found heard said)
    (hfound : ∀ heard database, found heard database → GapFree database) {lastSeq : ℕ}
    (honce : heard.filterMap resumeCursor <+: [lastSeq]) :
    (lastSeq :: said.filterMap replayNumber).Pairwise (· < ·) ∧
      (heard.filterMap resumeCursor = [] → said.filterMap replayNumber = []) := by
  induction h with
  | nil => exact ⟨List.pairwise_singleton _ _, fun _ ↦ rfl⟩
  | @answered heard said frames inbound hearlier hresponds ih =>
    rw [List.filterMap_append] at honce ⊢
    rw [List.filterMap_append]
    obtain ⟨hsaid, hnone⟩ := ih ((List.prefix_append _ _).trans honce)
    rcases hresponds.numbers (hfound _) with hframes | ⟨cursor, hcursor, hframes⟩
    · rw [hframes, List.append_nil]
      exact ⟨hsaid, fun hempty ↦ hnone (List.append_eq_nil_iff.mp hempty).1⟩
    · -- This is the only resume, and nothing was replayed before it.
      have hlast : [inbound].filterMap resumeCursor = [cursor] := by simp [hcursor]
      rw [hlast] at honce ⊢
      have hbefore : heard.filterMap resumeCursor = [] := by
        have hlength := honce.length_le
        simp only [List.length_append, List.length_singleton] at hlength
        exact List.length_eq_zero_iff.mp (by omega)
      rw [hbefore, List.nil_append] at honce
      obtain rfl : cursor = lastSeq := List.singleton_inj.mp (honce.eq_of_length rfl)
      rw [hnone hbefore, List.nil_append]
      exact ⟨hframes, fun hempty ↦ absurd hempty (by simp)⟩

end Dialogues

/-! ### The cursor of a page -/

theorem cursor_cons (frame : ServerFrame) (frames : List ServerFrame) :
    cursor (frame :: frames) = max (frame.seq.getD 0) (cursor frames) := by
  cases hseq : frame.seq with
  | none => simp [cursor, hseq]
  | some seq => simp [cursor, hseq]

theorem le_cursor {frames : List ServerFrame} {frame : ServerFrame} (hframe : frame ∈ frames)
    {seq : ℕ} (hseq : frame.seq = some seq) : seq ≤ cursor frames := by
  induction frames with
  | nil => exact absurd hframe List.not_mem_nil
  | cons first frames ih =>
    rw [cursor_cons]
    rcases List.mem_cons.mp hframe with rfl | hlater
    · rw [hseq]
      exact le_max_left _ _
    · exact (ih hlater).trans (le_max_right _ _)

/-- The page resumes at the highest number that it has had. -/
theorem Page.run_lastSeq (page : Page) (inputs : List PageEvent) :
    (page.run inputs).lastSeq = max page.lastSeq (cursor (heard inputs)) := by
  induction inputs generalizing page with
  | nil => exact (max_eq_left (Nat.zero_le _)).symm
  | cons input inputs ih =>
    cases input with
    | say text => exact ih (page.sendMessage text)
    | frame frame =>
      have hheard : heard (.frame frame :: inputs) = frame :: heard inputs := rfl
      have hrun : page.run (.frame frame :: inputs) = (page.handleFrame frame).run inputs := rfl
      rw [hheard, hrun, cursor_cons, ih, (handleFrame_counters page frame).2, saw, max_assoc]

section Runs

variable {Socket : Type} [DecidableEq Socket] {settings : Settings} {events : List (Event Socket)}
  {system : System Socket} {socket : Socket}

/-- What is replayed on a connection of a run. -/
theorem numbers_of_steps (hsteps : (System.initial Socket).steps settings events = some system)
    {handler : Handler} (hhandler : system.handlers socket = some handler) {lastSeq : ℕ}
    (honce : (received socket events).filterMap resumeCursor <+: [lastSeq]) :
    (lastSeq :: handler.conn.sent.filterMap replayNumber).Pairwise (· < ·) := by
  obtain ⟨earlier, owed, hreceived, -, hdialogue⟩ :=
    (dialogues_of_steps hsteps).paired socket handler hhandler
  have hfound : ∀ heard database, Found settings socket events heard database →
      GapFree database := by
    rintro heard database ⟨before, later, found, -, hbefore, -, rfl⟩
    have hrun : System.Run settings found := .of_steps hbefore
    exact hrun.tells.gapFree
  rw [hreceived, List.filterMap_append] at honce
  rw [← numbers_filter]
  exact (hdialogue.numbers hfound ((List.prefix_append _ _).trans honce)).1

/-- The page has these connections. On each of them it resumes once, at its own cursor. -/
def Page.Reconnects (events : List (Event Socket)) (system : System Socket) :
    Page → List (List Page.PageEvent) → Prop
  | _, [] => True
  | page, inputs :: later =>
    (∃ socket, page.Meets events system socket inputs ∧
      (received socket events).filterMap resumeCursor <+: [page.lastSeq]) ∧
      Page.Reconnects events system (page.visit inputs) later

namespace Page.Reconnects

variable {page : Page} {visits earlier later : List (List Page.PageEvent)}

/-- What is replayed on the connections to come is above the cursor. -/
theorem increase (h : Page.Reconnects events system page visits)
    (hsteps : (System.initial Socket).steps settings events = some system) :
    (page.lastSeq :: (visits.flatMap Page.heard).filterMap replayNumber).Pairwise (· < ·) := by
  induction visits generalizing page with
  | nil => exact List.pairwise_singleton _ _
  | cons inputs later ih =>
    obtain ⟨⟨socket, hmeets, honce⟩, hlater⟩ := h
    obtain ⟨handler, hhandler, hheard⟩ := hmeets.hears
    have hsent := numbers_of_steps hsteps hhandler honce
    have hnow : (page.lastSeq :: (Page.heard inputs).filterMap replayNumber).Pairwise (· < ·) :=
      hsent.sublist ((hheard.sublist.filterMap _).cons_cons _)
    have hrest := List.pairwise_cons.mp (ih hlater)
    have hcursor : (page.visit inputs).lastSeq = max page.lastSeq (cursor (Page.heard inputs)) :=
      page.run_lastSeq inputs
    rw [hcursor] at hrest
    rw [List.flatMap_cons, List.filterMap_append, ← List.cons_append, List.pairwise_append]
    refine ⟨hnow, hrest.2, fun first hfirst second hsecond ↦ ?_⟩
    have habove := hrest.1 second hsecond
    rcases List.mem_cons.mp hfirst with rfl | hnumber
    · exact (le_max_left _ _).trans_lt habove
    · obtain ⟨frame, hframe, hreplays⟩ := List.mem_filterMap.mp hnumber
      exact ((le_cursor hframe (seq_of_replayNumber hreplays)).trans (le_max_right _ _)).trans_lt
        habove

/-- The page as it is after some of its connections: its cursor has all that it has had. -/
theorem now (h : Page.Reconnects events system page (earlier ++ later)) :
    ∃ now : Page, now.Reconnects events system later ∧ page.lastSeq ≤ now.lastSeq ∧
      ∀ frame ∈ earlier.flatMap Page.heard, ∀ seq, frame.seq = some seq → seq ≤ now.lastSeq := by
  induction earlier generalizing page with
  | nil => exact ⟨page, h, le_rfl, fun frame hframe ↦ absurd hframe List.not_mem_nil⟩
  | cons inputs earlier ih =>
    obtain ⟨now, hnow, hcursor, hhad⟩ := ih h.2
    have hvisit : (page.visit inputs).lastSeq = max page.lastSeq (cursor (Page.heard inputs)) :=
      page.run_lastSeq inputs
    rw [hvisit] at hcursor
    refine ⟨now, hnow, (le_max_left _ _).trans hcursor, fun frame hframe seq hseq ↦ ?_⟩
    rw [List.flatMap_cons] at hframe
    rcases List.mem_append.mp hframe with hfirst | hlater
    · exact ((le_cursor hfirst hseq).trans (le_max_right _ _)).trans hcursor
    · exact hhad frame hlater seq hseq

end Page.Reconnects

/-- Over all the connections of a page, the rows that it is replayed come in the order of their
numbers, each once, and are above every number that it has had on an earlier connection: no message
that was acked and no reply that was done is replayed. -/
theorem replays_increase (hsteps : (System.initial Socket).steps settings events = some system)
    {visits : List (List Page.PageEvent)}
    (hreconnects : Page.Reconnects events system .loaded visits) :
    ((visits.flatMap Page.heard).filterMap replayNumber).Pairwise (· < ·) ∧
      ∀ earlier later, visits = earlier ++ later →
        ∀ frame ∈ earlier.flatMap Page.heard, ∀ seq, frame.seq = some seq →
          ∀ number ∈ (later.flatMap Page.heard).filterMap replayNumber, seq < number := by
  refine ⟨(List.pairwise_cons.mp (hreconnects.increase hsteps)).2, ?_⟩
  rintro earlier later rfl frame hframe seq hseq number hnumber
  obtain ⟨now, hnow, -, hhad⟩ := hreconnects.now
  exact (hhad frame hframe seq hseq).trans_lt
    ((List.pairwise_cons.mp (hnow.increase hsteps)).1 number hnumber)

end Runs

/-- The socket of a page drops while a reply streams; the page connects again, and its resume comes
in. -/
def pageDropped : List (Event ℕ) :=
  opened ++ [.act 0 (.receive (.valid 1 (.userMessage pageQuestion))),
    .store 0 .reader ⟨2⟩ false, .act 0 (.runReader 0), .store 0 .reader ⟨3⟩ false,
    .act 0 (.runReader 0), .act 0 (.respond 0 .begin), .act 0 (.disconnect false),
    .act 0 (.runTurn 0), .store 0 (.turn 0) ⟨0⟩ false, .act 0 (.runTurn 0)] ++ reconnected ++
  [.act 1 (.receive (.valid 1 (.resume 1)))]

/-- What the page meets on its two connections. -/
def pageVisits : List (List Page.PageEvent) :=
  [[.say "which one?", .frame (.ack "c1" 1 ⟨2⟩ (some ⟨3⟩))],
    [.frame (.message 2 ⟨3⟩ .assistant .failed "")]]

/-- The law at work: the row that failed with its socket is replayed, above the ack. -/
theorem replays_increase_dropped :
    ∃ system, (System.initial ℕ).steps .default
        (pageDropped ++ [.store 1 .reader ⟨0⟩ false, .act 1 (.runReader 0)]) = some system ∧
      Page.Reconnects (pageDropped ++ [.store 1 .reader ⟨0⟩ false, .act 1 (.runReader 0)]) system
        .loaded pageVisits ∧
      ((pageVisits.flatMap Page.heard).filterMap replayNumber).Pairwise (· < ·) ∧
      ∀ earlier later, pageVisits = earlier ++ later →
        ∀ frame ∈ earlier.flatMap Page.heard, ∀ seq, frame.seq = some seq →
          ∀ number ∈ (later.flatMap Page.heard).filterMap replayNumber, seq < number := by
  obtain ⟨waiting, hwaiting, hmessages, hevents, first, hfirst, hsent, second, hsecond, hsession,
      hreader, hnone⟩ : ∃ waiting, (System.initial ℕ).steps .default pageDropped = some waiting ∧
      Postgres.sessionMessages waiting.database ⟨1⟩ =
        [⟨1, ⟨2⟩, .user, .complete, "which one?"⟩, ⟨2, ⟨3⟩, .assistant, .failed, ""⟩] ∧
      Postgres.sessionEvents waiting.database ⟨1⟩ = [] ∧
      ∃ first, waiting.handlers 0 = some first ∧
        first.conn.sent = [.ack "c1" 1 ⟨2⟩ (some ⟨3⟩)] ∧
      ∃ second, waiting.handlers 1 = some second ∧ second.conn.sessionId = ⟨1⟩ ∧
        second.reader = ⟨.resuming 1, none⟩ ∧ second.conn.sent = [] :=
    ⟨_, rfl, rfl, rfl, _, rfl, rfl, _, rfl, rfl, rfl, rfl⟩
  have hlog : Postgres.logAfter waiting.database ⟨1⟩ 1 =
      [.message ⟨2, ⟨3⟩, .assistant, .failed, ""⟩] := by
    rw [Postgres.logAfter, hmessages, hevents, Postgres.rowsAfter]
    exact List.merge_right [SessionRow.message ⟨2, ⟨3⟩, .assistant, .failed, ""⟩]
  have hmissed : (missedRows waiting.database ⟨1⟩ 1).length ≤
      Settings.default.wsResumeMaxMessages := by
    rw [← length_logAfter, hlog]
    decide
  have hframes : resumeFrames .default waiting.database ⟨1⟩ 1 =
      [.message 2 ⟨3⟩ .assistant .failed ""] := by
    rw [resumeFrames_of_bound (by decide) hmissed, hlog]
    rfl
  have hstored : waiting.step .default (.store 1 .reader ⟨0⟩ false) = some _ :=
    System.step_store_resuming hsecond hreader ⟨0⟩
  rw [hsession] at hstored
  obtain ⟨answered, hanswered⟩ : ∃ answered, answered = second.answer
      (scanReply .default waiting.database ⟨1⟩ 1) .reader := ⟨_, rfl⟩
  rw [← hanswered] at hstored
  have hreplying : answered.reader =
      ⟨.resuming 1, some (scanReply .default waiting.database ⟨1⟩ 1)⟩ := by
    rw [hanswered, Handler.answer, hreader]
  have hran : (waiting.setHandler 1 answered).step .default (.act 1 (.runReader 0)) = some _ :=
    System.step_run_resuming (System.setHandler_handlers_self waiting 1 answered) hreplying 0
  rw [hframes] at hran
  obtain ⟨replied, hreplied⟩ : ∃ replied, replied =
      answered.resumed [.message 2 ⟨3⟩ .assistant .failed ""] answered.writer := ⟨_, rfl⟩
  rw [← hreplied] at hran
  have hagain : replied.conn.sent = [.message 2 ⟨3⟩ .assistant .failed ""] := by
    rw [hreplied]
    show (answered.conn.sendAll _).sent = _
    rw [Connection.sent_sendAll, hanswered, Handler.answer_conn, hnone]
    rfl
  obtain ⟨final, hfinal⟩ : ∃ final, final =
      (waiting.setHandler 1 answered).setHandler 1 replied := ⟨_, rfl⟩
  have hsteps : (System.initial ℕ).steps .default
      (pageDropped ++ [.store 1 .reader ⟨0⟩ false, .act 1 (.runReader 0)]) = some final := by
    rw [System.steps_append, hwaiting, Option.bind_some, System.steps, hstored, Option.bind_some,
      System.steps, hran, Option.bind_some, hfinal]
    rfl
  have hzero : final.handlers 0 = some first := by
    rw [hfinal, System.setHandler_handlers_of_ne _ _ (by decide),
      System.setHandler_handlers_of_ne _ _ (by decide), hfirst]
  have hone : final.handlers 1 = some _ := hfinal ▸ System.setHandler_handlers_self _ _ _
  have hreconnects : Page.Reconnects
      (pageDropped ++ [.store 1 .reader ⟨0⟩ false, .act 1 (.runReader 0)]) final .loaded
      pageVisits :=
    ⟨⟨0, ⟨⟨[], rfl⟩, first, hzero, [], hsent.symm⟩, [0], rfl⟩,
      ⟨1, ⟨⟨[], rfl⟩, _, hone, [], hagain.symm⟩, [], rfl⟩, trivial⟩
  exact ⟨final, hsteps, hreconnects, replays_increase hsteps hreconnects⟩

end Abacus.Chat
