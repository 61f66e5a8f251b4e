import Abacus.Chat.Announced
import Abacus.Core.Artifacts

/-!
# The chat page

The page of `src/dev/chat.html` as a machine. Its nodes are what it makes with `bubble`; a turn
keeps the node of its reply, and `pending` that of a message which is not acked yet. `handleFrame`
binds the chunks of a stream to the turn that an ack has named, and complains of a frame that it has
no turn for, or of a chunk that is not the next one. Left out are the button that clears the
transcript, after which a bubble is shown no more, and the probes, which send malformed frames by
hand and count `seq` on for two of them.

A page numbers its keys, so it submits every message under a key of its own
(`Page.submitted_nodup`), and then it never complains so. Whatever else is on its sockets, the
bubble of a reply shows the chunks so far, and once the page has the `done` of a row, a bubble shows
the text that the row has for good, on this connection and all later ones (`page_shows`).
-/

set_option autoImplicit false
set_option relaxedAutoImplicit false

namespace Abacus.Chat

open Postgres (messageRow)

/-! ### The page -/

/-- Whose bubble it is. -/
inductive BubbleKind
  | user
  | assistant
  | error
  | job
  deriving DecidableEq, Repr

/-- What the line under a bubble says. -/
inductive Caption
  | blank
  | acked (seq : ℕ)
  | chunks (count : ℕ)
  | complete (chunks seq : ℕ)
  | replayed (seq : ℕ) (status : Status)
  | numbered (seq : ℕ)
  | rejected (code : ErrorCode)
  | retryable (retryable : Bool)
  deriving DecidableEq, Repr

/-- A node of the transcript. -/
structure Bubble where
  kind : BubbleKind
  text : String
  caption : Caption
  deriving DecidableEq, Repr

/-- A reply that streams: its node, the chunks that came, and the index of the next one. -/
structure LiveTurn where
  el : ℕ
  chunks : ℕ
  next : ℕ
  deriving DecidableEq, Repr

/-- What the page logs beside the frames. -/
inductive Note
  | unknownAck (clientMsgId : String)
  | alreadyRecorded (seq : ℕ)
  | unknownDelta (messageId : Uuid)
  | chunkIndex (found expected : ℕ)
  | unknownDone (messageId : Uuid)
  | pong
  deriving DecidableEq, Repr

/-- A frame of a stream that the page cannot place. -/
def Note.misplaced : Note → Bool
  | .unknownDelta _ => true
  | .chunkIndex _ _ => true
  | .unknownDone _ => true
  | _ => false

/-- The state of the page. -/
structure Page where
  seq : ℕ
  lastSeq : ℕ
  turns : Uuid → Option LiveTurn
  pending : List (String × ℕ)
  created : ℕ
  nodes : ℕ → Bubble
  transcript : List ℕ
  notes : List Note

namespace Page

/-- A page that was just loaded. -/
def loaded : Page where
  seq := 0
  lastSeq := 0
  turns := fun _ ↦ none
  pending := []
  created := 0
  nodes := fun _ ↦ ⟨.user, "", .blank⟩
  transcript := []
  notes := []

/-- `log`, of a note. -/
def log (page : Page) (note : Note) : Page :=
  { page with notes := page.notes ++ [note] }

/-- Put a node after another one, or at the end. -/
def insertNode (transcript : List ℕ) (el : ℕ) : Option ℕ → List ℕ
  | none => transcript ++ [el]
  | some after => transcript.flatMap fun other ↦ if other = after then [other, el] else [other]

/-- `bubble`: the new node is the one that `created` counts next. -/
def bubble (page : Page) (kind : BubbleKind) (text : String) (caption : Caption)
    (after : Option ℕ) : Page :=
  { page with
    created := page.created + 1
    nodes := Function.update page.nodes page.created ⟨kind, text, caption⟩
    transcript := insertNode page.transcript page.created after }

/-- Say something under a bubble. -/
def setCaption (page : Page) (el : ℕ) (caption : Caption) : Page :=
  { page with nodes := Function.update page.nodes el { page.nodes el with caption := caption } }

/-- The key of the next message. -/
def clientMsgId (page : Page) : String :=
  "c" ++ toString (page.seq + 1)

/-- `sendMessage`: the frame has the next key. -/
def sendMessage (page : Page) (text : String) : Page :=
  { { page with seq := page.seq + 1 }.bubble .user text .blank none with
    pending := page.pending ++ [(page.clientMsgId, page.created)] }

/-- The resume cursor: the highest number of all frames that carry one. -/
def saw (page : Page) (frame : ServerFrame) : Page :=
  { page with lastSeq := max page.lastSeq (frame.seq.getD 0) }

/-- The ack of a message that is pending, or is not. -/
def acked (page : Page) (clientMsgId : String) (seq : ℕ) : Page :=
  match page.pending.lookup clientMsgId with
  | some el =>
    { page.setCaption el (.acked seq) with
      pending := page.pending.filter fun entry ↦ entry.1 ≠ clientMsgId }
  | none => page.log (.unknownAck clientMsgId)

/-- `handleFrame`. -/
def handleFrame (before : Page) (frame : ServerFrame) : Page :=
  let page := before.saw frame
  match frame with
  | .ack clientMsgId seq _ reply =>
    match reply with
    | none => (page.acked clientMsgId seq).log (.alreadyRecorded seq)
    | some messageId =>
      { (page.acked clientMsgId seq).bubble .assistant "" .blank
          (page.pending.lookup clientMsgId) with
        turns := Function.update page.turns messageId (some ⟨page.created, 0, 0⟩) }
  | .delta messageId chunkIndex text =>
    match page.turns messageId with
    | none => page.log (.unknownDelta messageId)
    | some turn =>
      let page :=
        if chunkIndex = turn.next then page else page.log (.chunkIndex chunkIndex turn.next)
      { page with
        turns := Function.update page.turns messageId
          (some ⟨turn.el, turn.chunks + 1, chunkIndex + 1⟩)
        nodes := Function.update page.nodes turn.el
          { page.nodes turn.el with
            text := (page.nodes turn.el).text ++ text, caption := .chunks (turn.chunks + 1) } }
  | .done messageId seq =>
    match page.turns messageId with
    | none => page.log (.unknownDone messageId)
    | some turn =>
      { page.setCaption turn.el (.complete turn.chunks seq) with
        turns := Function.update page.turns messageId none }
  | .message seq _ role status text =>
    page.bubble (if role = .user then .user else .assistant) text (.replayed seq status) none
  | .jobStatus seq jobId _ =>
    -- The frame carries the 32 digits of the id, with no dashes.
    page.bubble .job (String.ofList (hexDigits 32 jobId.int.toNat)) (.numbered seq) none
  | .pong => page.log .pong
  | .error code message retryable =>
    match page.pending with
    | (_, el) :: pending =>
      { page.setCaption el (.rejected code) with pending := pending }.bubble .error message
        (.retryable retryable) (some el)
    | [] => page.bubble .error message (.retryable retryable) none

/-- `onclose`: nothing streams any more, and nothing is pending. -/
def close (page : Page) : Page :=
  { page with turns := fun _ ↦ none, pending := [] }

end Page

namespace Page

/-- What the page meets while a socket is open. -/
inductive PageEvent
  | say (text : String)
  | frame (frame : ServerFrame)
  deriving DecidableEq, Repr

/-- The frames among them. -/
def heard (inputs : List PageEvent) : List ServerFrame :=
  inputs.filterMap fun
    | .say _ => none
    | .frame frame => some frame

def handle (page : Page) : PageEvent → Page
  | .say text => page.sendMessage text
  | .frame frame => page.handleFrame frame

def run (page : Page) (inputs : List PageEvent) : Page :=
  inputs.foldl handle page

/-- The keys that the page sends, in order. -/
def submitted (page : Page) : List PageEvent → List String
  | [] => []
  | .say text :: inputs => page.clientMsgId :: (page.sendMessage text).submitted inputs
  | .frame frame :: inputs => (page.handleFrame frame).submitted inputs

/-- A connection of the page that has closed. -/
def visit (page : Page) (inputs : List PageEvent) : Page :=
  (page.run inputs).close

end Page

/-! ### A stream, frame by frame -/

theorem done_not_mem_deltas (messageId other : Uuid) (seq : ℕ) (chunks : List String) :
    .done messageId seq ∉ deltas other chunks := by
  intro hmem
  obtain ⟨index, hindex, hframe⟩ := List.mem_mapIdx.mp hmem
  exact ServerFrame.noConfusion hframe

theorem deltas_injective {messageId : Uuid} {first second : List String}
    (h : deltas messageId first = deltas messageId second) : first = second := by
  induction first using List.reverseRecOn generalizing second with
  | nil =>
    have hlength := congrArg List.length h
    simp only [deltas, List.length_mapIdx, List.length_nil] at hlength
    exact (List.length_eq_zero_iff.mp hlength.symm).symm
  | append_singleton first text ih =>
    rcases List.eq_nil_or_concat second with rfl | ⟨before, other, rfl⟩
    · rw [deltas_concat] at h
      exact absurd h (by simp [deltas])
    · rw [List.concat_eq_append, deltas_concat, deltas_concat] at h
      obtain ⟨hbefore, hlast⟩ := List.append_inj' h rfl
      obtain ⟨-, -, rfl⟩ := ServerFrame.delta.inj (List.singleton_inj.mp hlast)
      rw [ih hbefore, List.concat_eq_append]

theorem deltas_of_beginning {messageId : Uuid} {chunks : List String} {frames : List ServerFrame}
    (h : frames <+: deltas messageId chunks) : ∃ first, frames = deltas messageId first := by
  induction chunks using List.reverseRecOn with
  | nil => exact ⟨[], List.prefix_nil.mp h⟩
  | append_singleton chunks text ih =>
    rw [deltas_concat] at h
    rcases List.prefix_concat_iff.mp h with hwhole | hearlier
    · exact ⟨chunks ++ [text], hwhole.trans (deltas_concat _ _ _).symm⟩
    · exact ih hearlier

theorem WellTold.shape {frames : List ServerFrame} (h : WellTold frames) (messageId : Uuid) :
    ∃ chunks, frames.filter (ServerFrame.streams messageId) = deltas messageId chunks ∨
      ∃ seq, frames.filter (ServerFrame.streams messageId) =
        deltas messageId chunks ++ [.done messageId seq] := by
  obtain ⟨chunks, seq, hshaped⟩ := h.shaped messageId
  rcases List.prefix_concat_iff.mp hshaped with hwhole | hearlier
  · exact ⟨chunks, Or.inr ⟨seq, hwhole⟩⟩
  · obtain ⟨first, hfirst⟩ := deltas_of_beginning hearlier
    exact ⟨first, Or.inl hfirst⟩

/-- A row that is named was not named before, and nothing of its stream was sent. -/
theorem WellTold.fresh {told : List ServerFrame} {frame : ServerFrame}
    (h : WellTold (told ++ [frame])) {messageId : Uuid} (hnamed : named [frame] = [messageId]) :
    messageId ∉ named told ∧ told.filter (ServerFrame.streams messageId) = [] := by
  have honce := h.once
  rw [named_append, hnamed] at honce
  have hnot : messageId ∉ named told := fun hmem ↦
    (List.nodup_append.mp honce).2.2 messageId hmem messageId (List.mem_singleton_self _) rfl
  have hled := (h.restrict (List.prefix_append told [frame])).led
  exact ⟨hnot, List.filter_eq_nil_iff.mpr fun found hfound hstreams ↦
    hnot (hled.mem hfound hstreams)⟩

/-- The next frame of a stream is its next chunk, or its `done`. -/
theorem WellTold.next {told : List ServerFrame} {frame : ServerFrame}
    (h : WellTold (told ++ [frame])) {messageId : Uuid}
    (hstreams : frame.streams messageId = true) :
    ∃ chunks, told.filter (ServerFrame.streams messageId) = deltas messageId chunks ∧
      ((∃ text, frame = .delta messageId chunks.length text) ∨
        ∃ seq, frame = .done messageId seq) := by
  have hfilter : (told ++ [frame]).filter (ServerFrame.streams messageId) =
      told.filter (ServerFrame.streams messageId) ++ [frame] := by
    simp [hstreams]
  obtain ⟨chunks, hshape | ⟨seq, hshape⟩⟩ := h.shape messageId
  · rw [hfilter] at hshape
    rcases List.eq_nil_or_concat chunks with rfl | ⟨before, text, rfl⟩
    · exact absurd hshape (by simp [deltas])
    · rw [List.concat_eq_append, deltas_concat] at hshape
      obtain ⟨hbefore, hlast⟩ := List.append_inj' hshape rfl
      exact ⟨before, hbefore, Or.inl ⟨text, List.singleton_inj.mp hlast⟩⟩
  · rw [hfilter] at hshape
    obtain ⟨hbefore, hlast⟩ := List.append_inj' hshape rfl
    exact ⟨chunks, hbefore, Or.inr ⟨seq, List.singleton_inj.mp hlast⟩⟩

namespace Page

/-! ### What a page keeps -/

/-- The nodes in the transcript were made, and what is pending is in it. -/
structure Formed (page : Page) : Prop where
  made : ∀ el ∈ page.transcript, el < page.created
  pending : ∀ entry ∈ page.pending, entry.2 ∈ page.transcript

/-- The streams are as they were: no node says something else, no frame was misplaced. -/
structure Keeps (before after : Page) : Prop where
  turns : after.turns = before.turns
  created : before.created ≤ after.created
  transcript : ∀ el ∈ before.transcript, el ∈ after.transcript
  nodes : ∀ el ∈ before.transcript, (after.nodes el).kind = (before.nodes el).kind ∧
    (after.nodes el).text = (before.nodes el).text
  notes : ∀ note ∈ after.notes, note ∈ before.notes ∨ note.misplaced = false
  formed : after.Formed

variable {page middle after : Page}

theorem Keeps.trans (hfirst : page.Keeps middle) (hsecond : middle.Keeps after) :
    page.Keeps after where
  turns := hsecond.turns.trans hfirst.turns
  created := hfirst.created.trans hsecond.created
  transcript el hel := hsecond.transcript el (hfirst.transcript el hel)
  nodes el hel :=
    ⟨(hsecond.nodes el (hfirst.transcript el hel)).1.trans (hfirst.nodes el hel).1,
      (hsecond.nodes el (hfirst.transcript el hel)).2.trans (hfirst.nodes el hel).2⟩
  notes note hnote := (hsecond.notes note hnote).elim (hfirst.notes note) Or.inr
  formed := hsecond.formed

theorem mem_insertNode_of_mem {transcript : List ℕ} {el other : ℕ} {place : Option ℕ}
    (h : other ∈ transcript) : other ∈ insertNode transcript el place := by
  cases place with
  | none => exact List.mem_append_left _ h
  | some found =>
    refine List.mem_flatMap.mpr ⟨other, h, ?_⟩
    split_ifs <;> simp

theorem mem_insertNode_self {transcript : List ℕ} {el : ℕ} {place : Option ℕ}
    (h : ∀ found, place = some found → found ∈ transcript) :
    el ∈ insertNode transcript el place := by
  cases place with
  | none => exact List.mem_append_right _ (List.mem_singleton.mpr rfl)
  | some found => exact List.mem_flatMap.mpr ⟨found, h found rfl, by simp⟩

theorem of_mem_insertNode {transcript : List ℕ} {el other : ℕ} {place : Option ℕ}
    (h : other ∈ insertNode transcript el place) : other ∈ transcript ∨ other = el := by
  cases place with
  | none => exact (List.mem_append.mp h).imp id List.mem_singleton.mp
  | some found =>
    obtain ⟨node, hnode, hother⟩ := List.mem_flatMap.mp h
    split_ifs at hother
    · rcases List.mem_cons.mp hother with rfl | hlast
      · exact Or.inl hnode
      · exact Or.inr (List.mem_singleton.mp hlast)
    · exact Or.inl (List.mem_singleton.mp hother ▸ hnode)

theorem keeps_bubble (h : page.Formed) (kind : BubbleKind) (text : String) (caption : Caption)
    (place : Option ℕ) : page.Keeps (page.bubble kind text caption place) where
  turns := rfl
  created := Nat.le_succ _
  transcript el hel := mem_insertNode_of_mem hel
  nodes el hel := by
    have hne : el ≠ page.created := (h.made el hel).ne
    simp only [bubble, Function.update_of_ne hne, and_self]
  notes note hnote := Or.inl hnote
  formed :=
    { made := fun el hel ↦ (of_mem_insertNode hel).elim
        (fun hold ↦ (h.made el hold).trans (Nat.lt_succ_self _))
        (fun hnew ↦ hnew ▸ Nat.lt_succ_self _)
      pending := fun entry hentry ↦ mem_insertNode_of_mem (h.pending entry hentry) }

theorem keeps_log (h : page.Formed) {note : Note} (hplaced : note.misplaced = false) :
    page.Keeps (page.log note) where
  turns := rfl
  created := le_rfl
  transcript _ hel := hel
  nodes _ _ := ⟨rfl, rfl⟩
  notes _ hfound := (List.mem_append.mp hfound).imp id fun hlast ↦
    (congrArg Note.misplaced (List.mem_singleton.mp hlast)).trans hplaced
  formed := ⟨h.made, h.pending⟩

theorem keeps_setCaption (h : page.Formed) (el : ℕ) (caption : Caption) :
    page.Keeps (page.setCaption el caption) where
  turns := rfl
  created := le_rfl
  transcript _ hel := hel
  nodes other _ := by
    by_cases hother : other = el
    · subst hother
      simp only [setCaption, Function.update_self, and_self]
    · simp only [setCaption, Function.update_of_ne hother, and_self]
  notes note hnote := Or.inl hnote
  formed := ⟨h.made, h.pending⟩

theorem keeps_saw (h : page.Formed) (frame : ServerFrame) : page.Keeps (page.saw frame) :=
  ⟨rfl, le_rfl, fun _ hel ↦ hel, fun _ _ ↦ ⟨rfl, rfl⟩, fun _ hnote ↦ Or.inl hnote,
    h.made, h.pending⟩

/-- Something that was pending is not any more. -/
theorem keeps_pending (h : page.Formed) (pending : List (String × ℕ))
    (hpending : pending ⊆ page.pending) : page.Keeps { page with pending := pending } :=
  ⟨rfl, le_rfl, fun _ hel ↦ hel, fun _ _ ↦ ⟨rfl, rfl⟩, fun _ hnote ↦ Or.inl hnote,
    h.made, fun entry hentry ↦ h.pending entry (hpending hentry)⟩

theorem keeps_acked (h : page.Formed) (clientMsgId : String) (seq : ℕ) :
    page.Keeps (page.acked clientMsgId seq) := by
  unfold acked
  split
  · next el _ =>
    have hcaption := keeps_setCaption h el (.acked seq)
    exact hcaption.trans (keeps_pending hcaption.formed _ (List.filter_subset_self _))
  · exact keeps_log h rfl

/-- A frame that is of no stream and names no row. -/
theorem keeps_plain (h : page.Formed) {frame : ServerFrame} (hnamed : named [frame] = [])
    (hquiet : ∀ messageId, frame.streams messageId = false) :
    page.Keeps (page.handleFrame frame) := by
  have hsaw := keeps_saw h frame
  cases frame with
  | ack clientMsgId seq stored reply =>
    cases reply with
    | none =>
      have hacked := hsaw.trans (keeps_acked hsaw.formed clientMsgId seq)
      exact hacked.trans (keeps_log hacked.formed rfl)
    | some messageId => exact absurd hnamed (List.cons_ne_nil _ _)
  | delta messageId chunkIndex text =>
    exact absurd (hquiet messageId) (by simp [ServerFrame.streams])
  | done messageId seq => exact absurd (hquiet messageId) (by simp [ServerFrame.streams])
  | error code message retryable =>
    simp only [handleFrame]
    split
    · next clientMsgId el pending hpending =>
      have hcaption := hsaw.trans (keeps_setCaption hsaw.formed el (.rejected code))
      have hrest := hcaption.trans (keeps_pending hcaption.formed pending ?_)
      · exact hrest.trans (keeps_bubble hrest.formed _ _ _ _)
      · exact hpending ▸ List.subset_cons_self _ _
    · exact hsaw.trans (keeps_bubble hsaw.formed _ _ _ _)
  | pong => exact hsaw.trans (keeps_log hsaw.formed rfl)
  | message seq messageId role status text => exact hsaw.trans (keeps_bubble hsaw.formed _ _ _ _)
  | jobStatus seq jobId state => exact hsaw.trans (keeps_bubble hsaw.formed _ _ _ _)

theorem keeps_sendMessage (h : page.Formed) (text : String) :
    page.Keeps (page.sendMessage text) := by
  have hcount : page.Keeps { page with seq := page.seq + 1 } :=
    ⟨rfl, le_rfl, fun _ hel ↦ hel, fun _ _ ↦ ⟨rfl, rfl⟩, fun _ hnote ↦ Or.inl hnote,
      h.made, h.pending⟩
  have hbubble := hcount.trans (keeps_bubble hcount.formed .user text .blank none)
  refine ⟨hbubble.turns, hbubble.created, hbubble.transcript, hbubble.nodes, hbubble.notes,
    hbubble.formed.made, ?_⟩
  intro entry hentry
  rcases List.mem_append.mp hentry with hold | hnew
  · exact hbubble.formed.pending entry hold
  · rw [List.mem_singleton.mp hnew]
    have hself : page.created ∈ insertNode page.transcript page.created none :=
      mem_insertNode_self (by simp)
    exact hself

/-! ### The keys of a page -/

theorem number_of_key {first second : ℕ}
    (h : "c" ++ toString first = "c" ++ toString second) : first = second := by
  have hdigits : Nat.toDigits 10 first = Nat.toDigits 10 second :=
    String.ofList_injective ((String.append_right_inj _).mp h)
  have hback (number : ℕ) : Nat.ofDigitChars 10 (Nat.toDigits 10 number) 0 = number :=
    Nat.ofDigitChars_toDigits (by decide) (by decide)
  rw [← hback first, hdigits, hback second]

theorem acked_counters (page : Page) (clientMsgId : String) (seq : ℕ) :
    (page.acked clientMsgId seq).seq = page.seq ∧
      (page.acked clientMsgId seq).lastSeq = page.lastSeq ∧
      (page.acked clientMsgId seq).created = page.created := by
  unfold acked
  split <;> exact ⟨rfl, rfl, rfl⟩

/-- A frame leaves the number of the key, and moves the cursor. -/
theorem handleFrame_counters (page : Page) (frame : ServerFrame) :
    (page.handleFrame frame).seq = page.seq ∧
      (page.handleFrame frame).lastSeq = (page.saw frame).lastSeq := by
  cases frame with
  | ack clientMsgId seq stored reply =>
    obtain ⟨hseq, hlastSeq, -⟩ :=
      acked_counters (page.saw (.ack clientMsgId seq stored reply)) clientMsgId seq
    cases reply with
    | none => exact ⟨hseq, hlastSeq⟩
    | some messageId => exact ⟨hseq, hlastSeq⟩
  | delta messageId chunkIndex text =>
    simp only [handleFrame]
    split
    · exact ⟨rfl, rfl⟩
    · split_ifs <;> exact ⟨rfl, rfl⟩
  | done messageId seq =>
    simp only [handleFrame]
    split <;> exact ⟨rfl, rfl⟩
  | error code message retryable =>
    simp only [handleFrame]
    split <;> exact ⟨rfl, rfl⟩
  | _ => exact ⟨rfl, rfl⟩

/-- A later key has a higher number. -/
theorem submitted_above (page : Page) (inputs : List PageEvent) :
    ∀ id ∈ page.submitted inputs, ∃ number, page.seq < number ∧ id = "c" ++ toString number := by
  induction inputs generalizing page with
  | nil => exact fun id hid ↦ absurd hid List.not_mem_nil
  | cons input inputs ih =>
    cases input with
    | say text =>
      intro id hid
      rcases List.mem_cons.mp hid with rfl | hlater
      · exact ⟨page.seq + 1, Nat.lt_succ_self _, rfl⟩
      · obtain ⟨number, habove, hnumber⟩ := ih _ id hlater
        exact ⟨number, (Nat.lt_succ_self page.seq).trans habove, hnumber⟩
    | frame frame =>
      intro id hid
      obtain ⟨number, habove, hnumber⟩ := ih _ id hid
      exact ⟨number, (handleFrame_counters page frame).1 ▸ habove, hnumber⟩

/-- A page never uses a key twice. -/
theorem submitted_nodup (page : Page) (inputs : List PageEvent) :
    (page.submitted inputs).Nodup := by
  induction inputs generalizing page with
  | nil => exact List.nodup_nil
  | cons input inputs ih =>
    cases input with
    | say text =>
      refine List.nodup_cons.mpr ⟨fun hmem ↦ ?_, ih _⟩
      obtain ⟨number, habove, hnumber⟩ := submitted_above _ _ _ hmem
      have hsame : page.seq + 1 = number := number_of_key hnumber
      exact (hsame ▸ habove).ne rfl
    | frame frame => exact ih _

/-! ### What a page shows -/

/-- A node of the transcript shows a reply with this text. -/
def Says (page : Page) (el : ℕ) (text : String) : Prop :=
  el ∈ page.transcript ∧ (page.nodes el).kind = .assistant ∧ (page.nodes el).text = text

theorem Keeps.shown (h : page.Keeps after) {el : ℕ} {text : String} (hvisible : page.Says el text) :
    after.Says el text :=
  ⟨h.transcript el hvisible.1, (h.nodes el hvisible.1).1.trans hvisible.2.1,
    (h.nodes el hvisible.1).2.trans hvisible.2.2⟩

/-- A turn after an update is the new one, or is as it was. -/
theorem of_update {turns : Uuid → Option LiveTurn} {messageId other : Uuid}
    {moved : Option LiveTurn} {found : LiveTurn}
    (h : Function.update turns messageId moved other = some found) :
    (other = messageId ∧ moved = some found) ∨ turns other = some found := by
  by_cases hsame : other = messageId
  · subst hsame
    rw [Function.update_self] at h
    exact Or.inl ⟨rfl, h⟩
  · rw [Function.update_of_ne hsame] at h
    exact Or.inr h

theorem mem_of_lookup (h : page.Formed) {clientMsgId : String} {el : ℕ}
    (hlookup : page.pending.lookup clientMsgId = some el) : el ∈ page.transcript := by
  obtain ⟨before, later, hpending, -⟩ := List.lookup_eq_some_iff.mp hlookup
  exact h.pending (clientMsgId, el) (by simp [hpending])

/-- A new node of a reply says nothing yet. -/
theorem shown_bubble {el : ℕ} (hel : page.created = el) {place : Option ℕ}
    (hplace : ∀ found, place = some found → found ∈ page.transcript) :
    (page.bubble .assistant "" .blank place).Says el "" := by
  subst hel
  refine ⟨mem_insertNode_self hplace, ?_, ?_⟩
  · simp only [bubble, Function.update_self]
  · simp only [bubble, Function.update_self]

/-- A node shows this text, and no turn writes to it. -/
structure Settled (page : Page) (el : ℕ) (text : String) : Prop where
  formed : page.Formed
  shown : page.Says el text
  apart : ∀ messageId turn, page.turns messageId = some turn → turn.el ≠ el

theorem Keeps.settled (h : page.Keeps after) {el : ℕ} {text : String}
    (hsettled : page.Settled el text) : after.Settled el text :=
  ⟨h.formed, h.shown hsettled.shown, h.turns ▸ hsettled.apart⟩

namespace Settled

variable {el : ℕ} {text : String}

/-- A turn that begins gets another node. -/
theorem opens (h : page.Settled el text) (hkeeps : page.Keeps middle) (messageId : Uuid) {node : ℕ}
    (hnew : node ∉ page.transcript) :
    Settled { middle with turns := Function.update page.turns messageId (some ⟨node, 0, 0⟩) }
      el text where
  formed := ⟨hkeeps.formed.made, hkeeps.formed.pending⟩
  shown := hkeeps.shown h.shown
  apart other turn hturn := by
    rcases of_update hturn with ⟨-, hmoved⟩ | hold
    · have hnode : node = turn.el := congrArg LiveTurn.el (Option.some.inj hmoved)
      rintro rfl
      exact hnew (hnode ▸ h.shown.1)
    · exact h.apart other turn hold

/-- Whatever frame comes, such a node stays as it is. -/
theorem handleFrame (h : page.Settled el text) (frame : ServerFrame) :
    (page.handleFrame frame).Settled el text := by
  have hsaw := keeps_saw h.formed frame
  cases frame with
  | ack clientMsgId seq stored reply =>
    cases reply with
    | none => exact (keeps_plain h.formed rfl fun _ ↦ rfl).settled h
    | some messageId =>
      have hacked := hsaw.trans (keeps_acked hsaw.formed clientMsgId seq)
      exact h.opens (hacked.trans (keeps_bubble hacked.formed _ _ _ _)) messageId
        fun hel ↦ (h.formed.made _ hel).ne rfl
  | delta messageId chunkIndex chunk =>
    simp only [Page.handleFrame]
    split
    · exact ⟨⟨h.formed.made, h.formed.pending⟩, h.shown, h.apart⟩
    · next turn hfound =>
      have hne : el ≠ turn.el := (h.apart messageId turn hfound).symm
      have hturns (next : ℕ) (other : Uuid) (found : LiveTurn)
          (hother : Function.update page.turns messageId
            (some ⟨turn.el, turn.chunks + 1, next⟩) other = some found) : found.el ≠ el := by
        rcases of_update hother with ⟨-, hnew⟩ | hold
        · exact Option.some.inj hnew ▸ hne.symm
        · exact h.apart other found hold
      have hnodes (new : Bubble) : (Function.update page.nodes turn.el new el).kind = .assistant ∧
          (Function.update page.nodes turn.el new el).text = text := by
        rw [Function.update_of_ne hne]
        exact h.shown.2
      split_ifs
      · exact ⟨⟨h.formed.made, h.formed.pending⟩, ⟨h.shown.1, hnodes _⟩, hturns _⟩
      · exact ⟨⟨h.formed.made, h.formed.pending⟩, ⟨h.shown.1, hnodes _⟩, hturns _⟩
  | done messageId seq =>
    simp only [Page.handleFrame]
    split
    · exact ⟨⟨h.formed.made, h.formed.pending⟩, h.shown, h.apart⟩
    · next turn hfound =>
      have hcaption := hsaw.trans (keeps_setCaption hsaw.formed turn.el (.complete turn.chunks seq))
      refine ⟨⟨hcaption.formed.made, hcaption.formed.pending⟩, hcaption.shown h.shown, ?_⟩
      intro other found hother
      rcases of_update hother with ⟨-, hnew⟩ | hold
      · exact absurd hnew (by simp)
      · exact h.apart other found hold
  | _ => exact (keeps_plain h.formed rfl fun _ ↦ rfl).settled h

theorem run (h : page.Settled el text) (inputs : List PageEvent) :
    (page.run inputs).Settled el text := by
  induction inputs generalizing page with
  | nil => exact h
  | cons input inputs ih =>
    cases input with
    | say said => exact ih ((keeps_sendMessage h.formed said).settled h)
    | frame frame => exact ih (h.handleFrame frame)

theorem close (h : page.Settled el text) : page.close.Settled el text :=
  ⟨⟨h.formed.made, fun _ hentry ↦ absurd hentry List.not_mem_nil⟩, h.shown,
    fun _ _ hturn ↦ nomatch hturn⟩

theorem visit (h : page.Settled el text) (inputs : List PageEvent) :
    (page.visit inputs).Settled el text :=
  (h.run inputs).close

end Settled

/-- The reply streams, and its node shows the chunks so far. -/
def Streams (page : Page) (told : List ServerFrame) (messageId : Uuid) : Prop :=
  ∃ chunks turn, told.filter (ServerFrame.streams messageId) = deltas messageId chunks ∧
    page.turns messageId = some turn ∧ turn.next = chunks.length ∧
      page.Says turn.el (String.join chunks)

/-- The reply is complete, and a node of no turn shows it. -/
def Completes (page : Page) (told : List ServerFrame) (messageId : Uuid) : Prop :=
  ∃ chunks seq el, told.filter (ServerFrame.streams messageId) =
      deltas messageId chunks ++ [.done messageId seq] ∧
    page.turns messageId = none ∧ page.Settled el (String.join chunks)

/-- What a page shows of the frames that it was told on its socket. -/
structure Shows (told : List ServerFrame) (page : Page) : Prop where
  formed : page.Formed
  placed : ∀ note ∈ page.notes, note.misplaced = false
  turns : ∀ messageId turn, page.turns messageId = some turn →
    messageId ∈ named told ∧ turn.el ∈ page.transcript
  apart : ∀ first second turn other, page.turns first = some turn →
    page.turns second = some other → turn.el = other.el → first = second
  each : ∀ messageId ∈ named told, page.Streams told messageId ∨ page.Completes told messageId

namespace Shows

variable {told : List ServerFrame} {frame : ServerFrame}

theorem loaded : Shows [] .loaded where
  formed := ⟨fun _ hel ↦ absurd hel List.not_mem_nil, fun _ hentry ↦ absurd hentry List.not_mem_nil⟩
  placed _ hnote := absurd hnote List.not_mem_nil
  turns _ _ hturn := nomatch hturn
  apart _ _ _ _ hturn := nomatch hturn
  each _ hnamed := absurd hnamed List.not_mem_nil

/-- A page whose socket has closed is told anew on the next one. -/
theorem close (h : Shows told page) : Shows [] page.close where
  formed := ⟨h.formed.made, fun _ hentry ↦ absurd hentry List.not_mem_nil⟩
  placed := h.placed
  turns _ _ hturn := nomatch hturn
  apart _ _ _ _ hturn := nomatch hturn
  each _ hnamed := absurd hnamed List.not_mem_nil

/-- Something that leaves the streams, and a frame that is of none and names no row. -/
theorem keeps (h : Shows told page) (hkeeps : page.Keeps after) (more : List ServerFrame)
    (hnamed : named more = [])
    (hstreams : ∀ messageId, more.filter (ServerFrame.streams messageId) = []) :
    Shows (told ++ more) after where
  formed := hkeeps.formed
  placed note hnote := (hkeeps.notes note hnote).elim (h.placed note) id
  turns messageId turn hturn := by
    rw [hkeeps.turns] at hturn
    rw [named_append, hnamed, List.append_nil]
    exact ⟨(h.turns messageId turn hturn).1,
      hkeeps.transcript _ (h.turns messageId turn hturn).2⟩
  apart := hkeeps.turns ▸ h.apart
  each messageId hmem := by
    rw [named_append, hnamed, List.append_nil] at hmem
    have hfilter : (told ++ more).filter (ServerFrame.streams messageId) =
        told.filter (ServerFrame.streams messageId) := by
      rw [List.filter_append, hstreams, List.append_nil]
    rcases h.each messageId hmem with ⟨chunks, turn, hchunks, hturn, hnext, hvisible⟩ |
      ⟨chunks, seq, el, hchunks, hnone, hsettled⟩
    · exact Or.inl ⟨chunks, turn, hfilter.trans hchunks, hkeeps.turns ▸ hturn, hnext,
        hkeeps.shown hvisible⟩
    · exact Or.inr ⟨chunks, seq, el, hfilter.trans hchunks, hkeeps.turns ▸ hnone,
        hkeeps.settled hsettled⟩

/-- An ack names a row that was not named before: its reply gets a node of its own. -/
theorem opens (h : Shows told page) (htold : WellTold (told ++ [frame])) {messageId : Uuid}
    (hnamed : named [frame] = [messageId]) (hquiet : ∀ other, frame.streams other = false)
    (hkeeps : page.Keeps middle) {el : ℕ} (hvisible : middle.Says el "")
    (hnew : el ∉ page.transcript) :
    Shows (told ++ [frame])
      { middle with turns := Function.update page.turns messageId (some ⟨el, 0, 0⟩) } := by
  obtain ⟨hnot, hempty⟩ := htold.fresh hnamed
  have hfilter (other : Uuid) : (told ++ [frame]).filter (ServerFrame.streams other) =
      told.filter (ServerFrame.streams other) := by
    simp [hquiet other]
  have hold (other : Uuid) (hother : other ∈ named told) : other ≠ messageId := by
    rintro rfl
    exact hnot hother
  have hturn (other : Uuid) (turn : LiveTurn)
      (hfound : Function.update page.turns messageId (some ⟨el, 0, 0⟩) other = some turn) :
      (other = messageId ∧ turn = ⟨el, 0, 0⟩) ∨ page.turns other = some turn :=
    (of_update hfound).imp_left fun hnew ↦ ⟨hnew.1, (Option.some.inj hnew.2).symm⟩
  have hapart (other : Uuid) (turn : LiveTurn) (hfound : page.turns other = some turn) :
      turn.el ≠ el := fun hsame ↦ hnew (hsame ▸ (h.turns other turn hfound).2)
  constructor
  · exact ⟨hkeeps.formed.made, hkeeps.formed.pending⟩
  · exact fun note hnote ↦ (hkeeps.notes note hnote).elim (h.placed note) id
  · intro other turn hfound
    rw [named_append, hnamed]
    rcases hturn other turn hfound with ⟨rfl, rfl⟩ | hbefore
    · exact ⟨List.mem_append_right _ (List.mem_singleton_self _), hvisible.1⟩
    · obtain ⟨hmem, hel⟩ := h.turns other turn hbefore
      exact ⟨List.mem_append_left _ hmem, hkeeps.transcript _ hel⟩
  · intro first second turn other hfirst hsecond hsame
    rcases hturn first turn hfirst with ⟨rfl, rfl⟩ | hfirstOld
    · rcases hturn second other hsecond with ⟨rfl, -⟩ | hsecondOld
      · rfl
      · exact absurd hsame.symm (hapart second other hsecondOld)
    · rcases hturn second other hsecond with ⟨-, rfl⟩ | hsecondOld
      · exact absurd hsame (hapart first turn hfirstOld)
      · exact h.apart first second turn other hfirstOld hsecondOld hsame
  · intro other hmem
    rw [named_append, hnamed, List.mem_append, List.mem_singleton] at hmem
    rcases hmem with hmem | rfl
    · rcases h.each other hmem with ⟨chunks, turn, hchunks, hfound, hnext, hshown⟩ |
        ⟨chunks, seq, node, hchunks, hnone, hsettled⟩
      · refine Or.inl ⟨chunks, turn, (hfilter other).trans hchunks, ?_, hnext, hkeeps.shown hshown⟩
        exact (Function.update_of_ne (hold other hmem) _ _).trans hfound
      · refine Or.inr ⟨chunks, seq, node, (hfilter other).trans hchunks, ?_,
          hsettled.opens hkeeps messageId hnew⟩
        exact (Function.update_of_ne (hold other hmem) _ _).trans hnone
    · refine Or.inl ⟨[], ⟨el, 0, 0⟩, (hfilter other).trans hempty, ?_, rfl, hvisible⟩
      exact Function.update_self _ _ _

/-- What the page has of the stream that its next frame is of. -/
theorem next (h : Shows told page) (htold : WellTold (told ++ [frame])) {messageId : Uuid}
    (hstreams : frame.streams messageId = true) :
    ∃ chunks turn, told.filter (ServerFrame.streams messageId) = deltas messageId chunks ∧
      page.turns messageId = some turn ∧ turn.next = chunks.length ∧
      page.Says turn.el (String.join chunks) ∧
      ((∃ text, frame = .delta messageId chunks.length text) ∨
        ∃ seq, frame = .done messageId seq) := by
  obtain ⟨chunks, hchunks, hframe⟩ := htold.next hstreams
  have hnamed : messageId ∈ named told :=
    htold.led told frame (List.prefix_refl _) messageId hstreams
  rcases h.each messageId hnamed with ⟨others, turn, hothers, hturn, hnext, hvisible⟩ |
    ⟨others, seq, el, hothers, -⟩
  · obtain rfl : chunks = others := deltas_injective (hchunks.symm.trans hothers)
    exact ⟨chunks, turn, hchunks, hturn, hnext, hvisible, hframe⟩
  · refine absurd ?_ (done_not_mem_deltas messageId messageId seq chunks)
    rw [← hchunks, hothers]
    simp

/-- The node of a turn says something else, and its turn goes on or is over: what the other streams
show is as it was. -/
theorem advances (h : Shows told page) {messageId : Uuid} {turn : LiveTurn}
    (hturn : page.turns messageId = some turn) (hformed : after.Formed)
    (htranscript : after.transcript = page.transcript) (hnotes : after.notes = page.notes)
    (hnodes : ∀ el, el ≠ turn.el → after.nodes el = page.nodes el) {moved : Option LiveTurn}
    (hturns : after.turns = Function.update page.turns messageId moved)
    (hmoved : ∀ other, moved = some other → other.el = turn.el)
    (hnamed : named [frame] = [])
    (hquiet : ∀ other, other ≠ messageId → frame.streams other = false)
    (hself : after.Streams (told ++ [frame]) messageId ∨
      after.Completes (told ++ [frame]) messageId) : Shows (told ++ [frame]) after := by
  have hback (other : Uuid) (new : LiveTurn) (hnew : after.turns other = some new) :
      ∃ old, page.turns other = some old ∧ new.el = old.el := by
    rw [hturns] at hnew
    rcases of_update hnew with ⟨rfl, hgone⟩ | hold
    · exact ⟨turn, hturn, hmoved new hgone⟩
    · exact ⟨new, hold, rfl⟩
  have hvisible {el : ℕ} {text : String} (hother : el ≠ turn.el) (hshown : page.Says el text) :
      after.Says el text := by
    rw [Says, htranscript, hnodes el hother]
    exact hshown
  constructor
  · exact hformed
  · rw [hnotes]
    exact h.placed
  · intro other new hnew
    obtain ⟨old, hold, hel⟩ := hback other new hnew
    rw [named_append, hnamed, List.append_nil, htranscript, hel]
    exact h.turns other old hold
  · intro first second new other hfirst hsecond hsame
    obtain ⟨firstOld, hfirstOld, hfirstEl⟩ := hback first new hfirst
    obtain ⟨secondOld, hsecondOld, hsecondEl⟩ := hback second other hsecond
    exact h.apart first second firstOld secondOld hfirstOld hsecondOld
      (hfirstEl.symm.trans (hsame.trans hsecondEl))
  · intro other hmem
    rw [named_append, hnamed, List.append_nil] at hmem
    by_cases hsame : other = messageId
    · exact hsame ▸ hself
    · have hfilter : (told ++ [frame]).filter (ServerFrame.streams other) =
          told.filter (ServerFrame.streams other) := by
        simp [hquiet other hsame]
      have hkept : after.turns other = page.turns other := by
        rw [hturns, Function.update_of_ne hsame]
      rcases h.each other hmem with ⟨chunks, found, hchunks, hfound, hnext, hshown⟩ |
        ⟨chunks, seq, el, hchunks, hnone, hsettled⟩
      · refine Or.inl ⟨chunks, found, hfilter.trans hchunks, hkept.trans hfound, hnext,
          hvisible (fun hels ↦ hsame ?_) hshown⟩
        exact h.apart other messageId found turn hfound hturn hels
      · refine Or.inr ⟨chunks, seq, el, hfilter.trans hchunks, hkept.trans hnone, hformed,
          hvisible (hsettled.apart messageId turn hturn).symm hsettled.shown,
          fun found new hnew ↦ ?_⟩
        obtain ⟨old, hold, hels⟩ := hback found new hnew
        exact hels ▸ hsettled.apart found old hold

/-- The next chunk goes to the node of its turn. -/
theorem delta {messageId : Uuid} {chunkIndex : ℕ} {text : String} (h : Shows told page)
    (htold : WellTold (told ++ [.delta messageId chunkIndex text])) :
    Shows (told ++ [.delta messageId chunkIndex text])
      (page.handleFrame (.delta messageId chunkIndex text)) := by
  have hof : (ServerFrame.delta messageId chunkIndex text).streams messageId = true := by
    simp [ServerFrame.streams]
  obtain ⟨chunks, turn, hchunks, hturn, hnext, hvisible, hframe⟩ := h.next htold hof
  obtain ⟨said, hdelta⟩ := hframe.resolve_right (by rintro ⟨seq, ⟨⟩⟩)
  obtain ⟨-, rfl, rfl⟩ := ServerFrame.delta.inj hdelta
  have hpage : page.handleFrame (.delta messageId chunks.length text) =
      { page.saw (.delta messageId chunks.length text) with
        turns := Function.update page.turns messageId
          (some ⟨turn.el, turn.chunks + 1, chunks.length + 1⟩)
        nodes := Function.update page.nodes turn.el
          { page.nodes turn.el with
            text := (page.nodes turn.el).text ++ text
            caption := .chunks (turn.chunks + 1) } } := by
    simp only [Page.handleFrame, saw, hturn, hnext, ↓reduceIte]
  rw [hpage]
  refine h.advances hturn ⟨h.formed.made, h.formed.pending⟩ rfl rfl
    (fun el hel ↦ Function.update_of_ne hel _ _) rfl (fun other hother ↦ ?_) rfl
    (fun other hother ↦ ?_) (Or.inl ⟨chunks ++ [text],
      ⟨turn.el, turn.chunks + 1, chunks.length + 1⟩, ?_, Function.update_self _ _ _, by simp, ?_⟩)
  · exact Option.some.inj hother ▸ rfl
  · simpa [ServerFrame.streams] using hother.symm
  · rw [List.filter_append, hchunks, deltas_concat]
    simp [ServerFrame.streams]
  · refine ⟨hvisible.1, ?_, ?_⟩
    · simpa only [Function.update_self] using hvisible.2.1
    · simp only [Function.update_self, hvisible.2.2, String.join_append, String.join_cons,
        String.join_nil, String.append_empty]

/-- The turn is over, and its node stays as it is. -/
theorem done {messageId : Uuid} {seq : ℕ} (h : Shows told page)
    (htold : WellTold (told ++ [.done messageId seq])) :
    Shows (told ++ [.done messageId seq]) (page.handleFrame (.done messageId seq)) := by
  have hof : (ServerFrame.done messageId seq).streams messageId = true := by
    simp [ServerFrame.streams]
  obtain ⟨chunks, turn, hchunks, hturn, hnext, hvisible, -⟩ := h.next htold hof
  have hsaw := keeps_saw h.formed (.done messageId seq)
  have hcaption := hsaw.trans (keeps_setCaption hsaw.formed turn.el (.complete turn.chunks seq))
  have hpage : page.handleFrame (.done messageId seq) =
      { (page.saw (.done messageId seq)).setCaption turn.el (.complete turn.chunks seq) with
        turns := Function.update page.turns messageId none } := by
    simp only [Page.handleFrame, saw, hturn]
  rw [hpage]
  refine h.advances hturn ⟨hcaption.formed.made, hcaption.formed.pending⟩ rfl rfl
    (fun el hel ↦ Function.update_of_ne hel _ _) rfl
    (fun other hother ↦ absurd hother (by simp)) rfl (fun other hother ↦ ?_)
    (Or.inr ⟨chunks, seq, turn.el, ?_, Function.update_self _ _ _,
      ⟨hcaption.formed.made, hcaption.formed.pending⟩, hcaption.shown hvisible,
      fun other new hnew hsame ↦ ?_⟩)
  · simpa [ServerFrame.streams] using hother.symm
  · rw [List.filter_append, hchunks]
    simp [ServerFrame.streams]
  · rcases of_update hnew with ⟨-, hgone⟩ | hold
    · exact absurd hgone (by simp)
    · -- The node of another turn is another node.
      obtain rfl := h.apart other messageId new turn hold hturn hsame
      exact absurd ((Function.update_self _ _ _).symm.trans hnew) (by simp)

/-- The page has handled its next frame. -/
theorem handleFrame (h : Shows told page) (htold : WellTold (told ++ [frame])) :
    Shows (told ++ [frame]) (page.handleFrame frame) := by
  cases frame with
  | ack clientMsgId seq stored reply =>
    cases reply with
    | none => exact h.keeps (keeps_plain h.formed rfl fun _ ↦ rfl) _ rfl fun _ ↦ rfl
    | some messageId =>
      have hsaw := keeps_saw h.formed (.ack clientMsgId seq stored (some messageId))
      have hacked := hsaw.trans (keeps_acked hsaw.formed clientMsgId seq)
      refine h.opens htold rfl (fun _ ↦ rfl) (hacked.trans (keeps_bubble hacked.formed _ _ _ _)) ?_
        fun hel ↦ (h.formed.made _ hel).ne rfl
      exact shown_bubble (acked_counters _ _ _).2.2 fun found hfound ↦
        hacked.transcript found (mem_of_lookup h.formed hfound)
  | delta messageId chunkIndex text => exact h.delta htold
  | done messageId seq => exact h.done htold
  | _ => exact h.keeps (keeps_plain h.formed rfl fun _ ↦ rfl) _ rfl fun _ ↦ rfl

/-- The page has met one more thing. -/
theorem handle (h : Shows told page) (input : PageEvent)
    (htold : WellTold (told ++ heard [input])) :
    Shows (told ++ heard [input]) (page.handle input) := by
  cases input with
  | say text => exact h.keeps (keeps_sendMessage h.formed text) [] rfl fun _ ↦ rfl
  | frame frame => exact h.handleFrame htold

/-- The same over all that the page meets on a socket. -/
theorem run (h : Shows [] page) (inputs : List PageEvent) (htold : WellTold (heard inputs)) :
    Shows (heard inputs) (page.run inputs) := by
  induction inputs using List.reverseRecOn with
  | nil => exact h
  | append_singleton inputs input ih =>
    have hheard : heard (inputs ++ [input]) = heard inputs ++ heard [input] :=
      List.filterMap_append
    rw [hheard] at htold ⊢
    have hbefore := ih (htold.restrict (List.prefix_append _ _))
    have hrun : page.run (inputs ++ [input]) = (page.run inputs).handle input := by
      rw [Page.run, List.foldl_append]
      rfl
    exact hrun ▸ hbefore.handle input htold

end Shows

end Page

section Runs

variable {Socket : Type} [DecidableEq Socket] {settings : Settings} {events : List (Event Socket)}
  {system : System Socket} {socket : Socket} {handler : Handler}

/-- Once a `done` is sent, the row has the text of the chunks before it for good. -/
theorem row_of_done (hrun : System.Run settings system)
    (hhandler : system.handlers socket = some handler) {messageId : Uuid} {seq : ℕ}
    {chunks : List String}
    (hdone : deltas messageId chunks ++ [.done messageId seq] <+: handler.conn.stream messageId) :
    ∃ row, messageRow system.database messageId = some row ∧ row.status = .complete ∧
      row.seq = seq ∧ row.text = String.join chunks ∧ system.Final settings messageId row := by
  have hstreaming := hrun.streaming socket handler hhandler
  have hstream : handler.conn.stream messageId ≠ [] := by
    intro hnone
    rw [hnone] at hdone
    exact absurd (List.prefix_nil.mp hdone) (by simp)
  have hlast (others : List String) :
      ¬deltas messageId chunks ++ [.done messageId seq] <+: deltas messageId others :=
    fun hearlier ↦ done_not_mem_deltas messageId messageId seq others (hearlier.subset (by simp))
  obtain ⟨id, turn, hturn, rfl⟩ := hstreaming.named messageId hstream
  obtain ⟨⟨row, hrow, hseq⟩, hstreamed⟩ := hstreaming.turns id turn hturn
  obtain ⟨others, hothers | ⟨hothers, hended, stored, hstored, hstatus, htext⟩⟩ := hstreamed.whole
  · exact absurd (hothers ▸ hdone) (hlast others)
  · obtain rfl : row = stored := Option.some.inj (hrow.symm.trans hstored)
    rw [hothers] at hdone
    have hsame := (List.prefix_concat_iff.mp hdone).resolve_right (hlast others)
    obtain ⟨hdeltas, hdoneSame⟩ := List.append_inj' hsame rfl
    obtain rfl : chunks = others := deltas_injective hdeltas
    obtain ⟨-, hnumber⟩ := ServerFrame.done.inj (List.singleton_inj.mp hdoneSame)
    exact ⟨row, hrow, hstatus, hseq.trans hnumber.symm, htext,
      row_final hrun (over_of_turn hrun.tells.owned hhandler hturn hended) hrow⟩

/-- A page meets these things on a socket of a run. What the server received are the first of the
keys that the page sent, and what the page was told are the first of the frames that the server
sent. -/
structure Page.Meets (page : Page) (events : List (Event Socket)) (system : System Socket)
    (socket : Socket) (inputs : List PageEvent) : Prop where
  submits : (received socket events).filterMap key <+: page.submitted inputs
  hears : ∃ handler, system.handlers socket = some handler ∧
    Page.heard inputs <+: handler.conn.sent

theorem Page.Meets.wellTold {page : Page} {inputs : List Page.PageEvent}
    (h : page.Meets events system socket inputs)
    (hsteps : (System.initial Socket).steps settings events = some system) :
    WellTold (Page.heard inputs) := by
  obtain ⟨handler, hhandler, hheard⟩ := h.hears
  have hkeys := (page.submitted_nodup inputs).sublist h.submits.sublist
  exact (wellTold_of_steps hsteps hhandler hkeys).restrict hheard

/-- The page had these connections, one after the other. -/
def Page.Visits (events : List (Event Socket)) (system : System Socket) :
    Page → List (List Page.PageEvent) → Page → Prop
  | page, [], now => page = now
  | page, inputs :: later, now =>
    (∃ socket, page.Meets events system socket inputs) ∧
      Page.Visits events system (page.visit inputs) later now

/-- A bubble shows the reply with this `done`: it says what the row says for good, and no turn
writes to it. -/
def Page.Answers (settings : Settings) (system : System Socket) (page : Page) (messageId : Uuid)
    (seq : ℕ) : Prop :=
  ∃ row el, messageRow system.database messageId = some row ∧ row.status = .complete ∧
    row.seq = seq ∧ system.Final settings messageId row ∧ page.Settled el row.text

/-- What a page that begins a connection shows at its end. -/
theorem Page.Meets.answers {page : Page} {inputs : List Page.PageEvent}
    (h : page.Meets events system socket inputs)
    (hsteps : (System.initial Socket).steps settings events = some system)
    (hpage : Page.Shows [] page) {messageId : Uuid} {seq : ℕ}
    (hdone : .done messageId seq ∈ Page.heard inputs) :
    (page.run inputs).Answers settings system messageId seq := by
  have htold := h.wellTold hsteps
  have hshows := hpage.run inputs htold
  obtain ⟨handler, hhandler, hheard⟩ := h.hears
  have hof : (ServerFrame.done messageId seq).streams messageId = true := by
    simp [ServerFrame.streams]
  have hmem := List.mem_filter.mpr ⟨hdone, hof⟩
  rcases hshows.each messageId (htold.led.mem hdone hof) with ⟨chunks, -, hchunks, -⟩ |
    ⟨chunks, other, el, hchunks, -, hsettled⟩
  · exact absurd (hchunks ▸ hmem) (done_not_mem_deltas _ _ _ _)
  · obtain rfl : seq = other := by
      rw [hchunks] at hmem
      rcases List.mem_append.mp hmem with hdelta | hlast
      · exact absurd hdelta (done_not_mem_deltas _ _ _ _)
      · exact (ServerFrame.done.inj (List.mem_singleton.mp hlast)).2
    obtain ⟨row, hrow, hstatus, hseq, htext, hfinal⟩ :=
      row_of_done (.of_steps hsteps) hhandler (hchunks ▸ hheard.filter _)
    exact ⟨row, el, hrow, hstatus, hseq, hfinal, htext ▸ hsettled⟩

theorem Page.Visits.settled {page now : Page} {visits : List (List Page.PageEvent)}
    (h : Page.Visits events system page visits now) {el : ℕ} {text : String}
    (hsettled : page.Settled el text) : now.Settled el text := by
  induction visits generalizing page with
  | nil => exact h ▸ hsettled
  | cons inputs later ih => exact ih h.2 (hsettled.visit inputs)

/-- The page keeps what it shows over all connections that it has. -/
theorem Page.Visits.shows {page now : Page} {visits : List (List Page.PageEvent)}
    (h : Page.Visits events system page visits now)
    (hsteps : (System.initial Socket).steps settings events = some system)
    (hpage : Page.Shows [] page) :
    Page.Shows [] now ∧ ∀ inputs ∈ visits, ∀ messageId seq,
      .done messageId seq ∈ Page.heard inputs → now.Answers settings system messageId seq := by
  induction visits generalizing page with
  | nil => exact ⟨h ▸ hpage, fun inputs hinputs ↦ absurd hinputs List.not_mem_nil⟩
  | cons inputs later ih =>
    obtain ⟨⟨socket, hmeets⟩, hlater⟩ := h
    obtain ⟨hshows, hanswers⟩ := ih hlater (hpage.run inputs (hmeets.wellTold hsteps)).close
    refine ⟨hshows, List.forall_mem_cons.mpr ⟨fun messageId seq hdone ↦ ?_, hanswers⟩⟩
    obtain ⟨row, el, hrow, hstatus, hseq, hfinal, hsettled⟩ := hmeets.answers hsteps hpage hdone
    exact ⟨row, el, hrow, hstatus, hseq, hfinal, hlater.settled hsettled.close⟩

/-- In all the connections that a page has, it never complains of a frame of a stream. The bubble of
a reply that streams shows the chunks so far. Once the page has had the `done` of a row, on this
connection or an earlier one, a bubble shows the text that this row has for good. -/
theorem page_shows (hsteps : (System.initial Socket).steps settings events = some system)
    {before : Page} {visits : List (List Page.PageEvent)}
    (hvisits : Page.Visits events system .loaded visits before) {inputs : List Page.PageEvent}
    (hmeets : before.Meets events system socket inputs) :
    (∀ note ∈ (before.run inputs).notes, note.misplaced = false) ∧
      (∀ messageId turn, (before.run inputs).turns messageId = some turn →
        ∃ chunks, (Page.heard inputs).filter (ServerFrame.streams messageId) =
            deltas messageId chunks ∧
          (before.run inputs).Says turn.el (String.join chunks)) ∧
      ∀ heard ∈ visits ++ [inputs], ∀ messageId seq, .done messageId seq ∈ Page.heard heard →
        (before.run inputs).Answers settings system messageId seq := by
  obtain ⟨hbefore, hanswers⟩ := hvisits.shows hsteps .loaded
  have hshows := hbefore.run inputs (hmeets.wellTold hsteps)
  refine ⟨hshows.placed, fun messageId turn hturn ↦ ?_, fun heard hheard messageId seq hdone ↦ ?_⟩
  · have hnamed := (hshows.turns messageId turn hturn).1
    rcases hshows.each messageId hnamed with ⟨chunks, other, hchunks, hother, -, hvisible⟩ |
      ⟨-, -, -, -, hnone, -⟩
    · obtain rfl : turn = other := Option.some.inj (hturn.symm.trans hother)
      exact ⟨chunks, hchunks, hvisible⟩
    · exact absurd (hturn.symm.trans hnone) (by simp)
  · rcases List.mem_append.mp hheard with hearlier | hlast
    · obtain ⟨row, el, hrow, hstatus, hseq, hfinal, hsettled⟩ :=
        hanswers heard hearlier messageId seq hdone
      exact ⟨row, el, hrow, hstatus, hseq, hfinal, hsettled.run inputs⟩
    · exact hmeets.answers hsteps hbefore (List.mem_singleton.mp hlast ▸ hdone)

end Runs

/-- The first message of a page. -/
def pageQuestion : UserMessage :=
  ⟨"which one?", "c1", by decide, by decide⟩

/-- It is stored, and its reply streams to the end. -/
def pageAsked : List (Event ℕ) :=
  opened ++ [.act 0 (.receive (.valid 1 (.userMessage pageQuestion))),
    .store 0 .reader ⟨2⟩ false, .act 0 (.runReader 0), .store 0 .reader ⟨3⟩ false,
    .act 0 (.runReader 0)] ++ streamed

/-- What the page meets there. -/
def pageInputs : List Page.PageEvent :=
  [.say "which one?", .frame (.ack "c1" 1 ⟨2⟩ (some ⟨3⟩)), .frame (.delta ⟨3⟩ 0 ""),
    .frame (.delta ⟨3⟩ 1 "because"), .frame (.done ⟨3⟩ 2)]

/-- The law at work: a bubble shows the row of the reply. -/
theorem page_shows_reply :
    ∃ system, (System.initial ℕ).steps .default pageAsked = some system ∧
      (Page.loaded.run pageInputs).Answers .default system ⟨3⟩ 2 := by
  obtain ⟨system, hsteps, handler, hhandler, hsent⟩ : ∃ system,
      (System.initial ℕ).steps .default pageAsked = some system ∧
      ∃ handler, system.handlers 0 = some handler ∧
        Page.heard pageInputs = handler.conn.sent :=
    ⟨_, rfl, _, rfl, rfl⟩
  have hmeets : Page.loaded.Meets pageAsked system 0 pageInputs :=
    ⟨⟨[], rfl⟩, handler, hhandler, [], (List.append_nil _).trans hsent⟩
  have hvisits : Page.Visits pageAsked system .loaded [] .loaded := rfl
  exact ⟨system, hsteps, (page_shows hsteps hvisits hmeets).2.2 pageInputs
    (List.mem_singleton_self _) ⟨3⟩ 2 (by decide)⟩

end Abacus.Chat
