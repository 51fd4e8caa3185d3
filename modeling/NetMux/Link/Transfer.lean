import NetMux.Link.Discipline

/-!
# Bytes and credit in transit

Two more invariants of one direction of a pipe.

* `Delivery`: what the receiving handle has read, what waits in its buffer and
  what is under way make up what the sending handle has written.  Bytes are
  missing at the end only if the receiver no longer listens or the sender's
  writer is gone.
* `Credit`: the sender's credit, the bytes under way, the bytes waiting, the
  credit the receiver owes and the credit under way back add up to the
  sender's window.

Both rest on two facts per step: what it does to the sending end, and what it
does to the receiving end.
-/

namespace NetMux

namespace Msg

theorem payloads_eq_nil {ms : List Msg} :
    payloads ms = [] ↔ ∀ m ∈ ms, m.payload = [] :=
  List.flatMap_eq_nil_iff

theorem grants_eq_zero {ms : List Msg} :
    grants ms = 0 ↔ ∀ m ∈ ms, m.granted = 0 := by
  induction ms with
  | nil => simp
  | cons m ms ih => simp [ih]

@[simp] theorem payloads_resetMsgs (c : Cell) : payloads c.resetMsgs = [] := by
  rw [payloads_eq_nil]
  intro m hm
  rw [Cell.mem_resetMsgs hm]
  rfl

@[simp] theorem grants_resetMsgs (c : Cell) : grants c.resetMsgs = 0 := by
  rw [grants_eq_zero]
  intro m hm
  rw [Cell.mem_resetMsgs hm]
  rfl

/-- Losing messages loses bytes and credit. -/
theorem sublist_le {ms ms' : List Msg} (h : ms'.Sublist ms) :
    (payloads ms').length ≤ (payloads ms).length ∧ grants ms' ≤ grants ms := by
  induction h with
  | slnil => exact ⟨Nat.le_refl _, Nat.le_refl _⟩
  | cons m _ ih =>
      rw [payloads_cons, grants_cons, List.length_append]
      omega
  | cons_cons m _ ih =>
      rw [payloads_cons, payloads_cons, grants_cons, grants_cons,
        List.length_append, List.length_append]
      omega

end Msg

/-! ## What a side's own steps do to the quantities -/

namespace LocalStep

variable {cfg : Config} {i : StreamId} {r : Role} {E E' : End} {e : Ev}
  {ms : List Msg}

/-- Shutting down is not undone, and the writer's fate is its own. -/
theorem flags (h : LocalStep cfg i r E e E' ms) :
    E'.outClosed = E.outClosed ∧ E'.encodeFailed = E.encodeFailed ∧
      (E'.closing = false → E.closing = false) := by
  cases h with
  | shutdown hopen => exact ⟨rfl, rfl, fun _ => hopen⟩
  | _ => exact ⟨rfl, rfl, fun hcl => hcl⟩

/-- A stream is registered only when it is made. -/
theorem registered (h : LocalStep cfg i r E e E' ms)
    (hreg : E'.registered = true) : E.registered = true ∨ E.cell = none := by
  cases h with
  | opened hown hcell hout => exact .inr hcell
  | abandoned keep hcell howner => exact .inl (Bool.and_elim_left hreg)
  | timedOut hcell howner => cases hreg
  | shutdown hopen => cases hreg
  | removed hcell hrel => cases hreg
  | _ => exact .inl hreg

theorem listening (h : LocalStep cfg i r E e E' ms)
    (hl : E'.listening = true) : E.listening = true ∨ E.cell = none := by
  have hreg := h.registered
  have hdone : E'.readerDone = false → E.readerDone = false := by
    cases h with
    | readerDone hclosing => exact fun hd => by cases hd
    | _ => exact fun hd => hd
  simp only [End.listening, Bool.and_eq_true, Bool.not_eq_true'] at hl ⊢
  rcases hreg hl.1 with hr | hc
  · exact .inl ⟨hr, hdone hl.2⟩
  · exact .inr hc

/-- Bytes a side holds or has read stay with it. -/
theorem readBytes (h : LocalStep cfg i r E e E' ms) :
    E'.readLog ++ E'.unread = E.readLog ++ E.unread := by
  cases h with
  | opened hown hcell hout =>
      simp only [End.readLog, End.unread, hcell]
      rfl
  | read remaining hcell howner =>
      simp only [End.readLog, End.unread, hcell, Option.map_some,
        Option.getD_some]
      exact Cell.read_bytes _ _
  | reset hcell howner =>
      simp [End.readLog, End.unread, hcell, StreamInner.localReset_recv]
  | faulted hcell hdone =>
      simp [End.readLog, End.unread, hcell, StreamInner.localReset_recv]
  | shutdown hopen =>
      cases hcell : E.cell with
      | none => simp [End.readLog, End.unread, hcell]
      | some c => cases hreg : E.registered <;>
          simp [End.readLog, End.unread, hcell, StreamInner.forceClose]
  | readerDone hclosing => rfl
  | removed hcell hrel => rfl
  | connected hcell _ _ => simp [End.readLog, End.unread, hcell]
  | abandoned keep hcell _ => simp [End.readLog, End.unread, hcell]
  | timedOut hcell _ => simp [End.readLog, End.unread, hcell]
  | accepted hcell _ _ => simp [End.readLog, End.unread, hcell]
  | wrote buf hcell _ _ _ => simp [End.readLog, End.unread, hcell, Cell.wrote]
  | writeFailed hcell _ _ =>
      simp [End.readLog, End.unread, hcell, Cell.writeShut]
  | finished hcell _ _ => simp [End.readLog, End.unread, hcell, Cell.finished]
  | dropped hcell _ _ => simp [End.readLog, End.unread, hcell]

/-- **What a side's own step sends**: a write turns credit into a payload and
logs it; nothing else sends bytes or touches the log or the credit. -/
theorem writes (h : LocalStep cfg i r E e E' ms) :
    (E'.writeLog = E.writeLog ∧
        (E.cell ≠ none → E'.available = E.available) ∧
        Msg.payloads ms = []) ∨
      ∃ p c, ms = [.data p] ∧ E'.writeLog = E.writeLog ++ p ∧
        E'.available + p.length = E.available ∧ E.outClosed = false ∧
        E.cell = some c ∧ c.owner = .handle := by
  cases h with
  | opened hown hcell hout =>
      left
      exact ⟨by simp [End.writeLog, hcell, Cell.new], fun hne => absurd hcell hne,
        rfl⟩
  | @wrote c buf hcell howner hopen hout =>
      right
      refine ⟨_, c, rfl, ?_, ?_, hout, hcell, howner⟩
      · simp [End.writeLog, hcell, Cell.wrote]
      · have hsize := StreamInner.toNat_writeSize c.inner buf
        have hle : c.inner.writeSize buf ≤
            c.inner.sendWindow.available.toNat := Nat.min_le_right _ _
        have hbuf : c.inner.writeSize buf ≤ buf.length :=
          (Nat.min_le_left _ _).trans (Nat.min_le_left _ _)
        have hsub := UInt32.toNat_sub_of_le c.inner.sendWindow.available
          (UInt32.ofNat (c.inner.writeSize buf))
          (UInt32.le_iff_toNat_le.mpr (by rw [hsize]; exact hle))
        simp only [End.available, hcell, Option.map_some, Option.getD_some,
          Cell.wrote, hsub, hsize, List.length_take]
        omega
  | read remaining hcell howner =>
      left
      refine ⟨by simp [End.writeLog, hcell], fun _ => ?_, ?_⟩
      · simp [End.available, hcell]
      · rw [Msg.payloads_eq_nil]
        intro m hm
        obtain ⟨delta, rfl⟩ := Cell.readMsgs_credit _ _ hm
        rfl
  | reset hcell _ =>
      simp [End.writeLog, End.available, hcell, StreamInner.localReset_available]
  | faulted hcell _ =>
      simp [End.writeLog, End.available, hcell, StreamInner.localReset_available]
  | shutdown hopen =>
      left
      cases hcell : E.cell with
      | none => simp [End.writeLog, hcell]
      | some c => cases hreg : E.registered <;>
          simp [End.writeLog, End.available, hcell, StreamInner.forceClose]
  | readerDone hclosing => exact .inl ⟨rfl, fun _ => rfl, rfl⟩
  | removed hcell hrel => exact .inl ⟨rfl, fun _ => rfl, rfl⟩
  | connected hcell _ _ => simp [End.writeLog, End.available, hcell]
  | abandoned keep hcell _ => simp [End.writeLog, End.available, hcell]
  | timedOut hcell _ =>
      simp [End.writeLog, End.available, hcell, Msg.payload]
  | accepted hcell _ _ =>
      simp [End.writeLog, End.available, hcell, Msg.payload]
  | writeFailed hcell _ _ =>
      simp [End.writeLog, End.available, hcell, Cell.writeShut]
  | finished hcell _ _ =>
      simp [End.writeLog, End.available, hcell, Cell.finished, Msg.payload]
  | dropped hcell _ _ => simp [End.writeLog, End.available, hcell]

/-- **What a side's own step owes**: a read turns waiting bytes into credit;
nothing else touches the buffer or the credit owed. -/
theorem owes (h : LocalStep cfg i r E e E' ms) :
    (E'.unread = E.unread ∧ E'.pending = E.pending ∧ Msg.grants ms = 0) ∨
      ∃ c remaining, E.cell = some c ∧ c.owner = .handle ∧
        E' = { E with cell := some (c.read remaining) } ∧
        ms = c.readMsgs remaining := by
  cases h with
  | opened hown hcell hout =>
      left
      simp only [End.unread, End.pending, hcell]
      exact ⟨rfl, rfl, rfl⟩
  | @read c remaining hcell howner =>
      exact .inr ⟨c, remaining, hcell, howner, rfl, rfl⟩
  | reset hcell _ =>
      simp [End.unread, End.pending, hcell, StreamInner.localReset_recv,
        StreamInner.localReset_recvWindow]
  | faulted hcell _ =>
      simp [End.unread, End.pending, hcell, StreamInner.localReset_recv,
        StreamInner.localReset_recvWindow]
  | shutdown hopen =>
      left
      cases hcell : E.cell with
      | none => simp [End.unread, End.pending, hcell]
      | some c => cases hreg : E.registered <;>
          simp [End.unread, End.pending, hcell, StreamInner.forceClose]
  | readerDone hclosing => exact .inl ⟨rfl, rfl, rfl⟩
  | removed hcell hrel => exact .inl ⟨rfl, rfl, rfl⟩
  | connected hcell _ _ => simp [End.unread, End.pending, hcell]
  | abandoned keep hcell _ => simp [End.unread, End.pending, hcell]
  | timedOut hcell _ => simp [End.unread, End.pending, hcell, Msg.granted]
  | accepted hcell _ _ => simp [End.unread, End.pending, hcell, Msg.granted]
  | wrote buf hcell _ _ _ =>
      simp [End.unread, End.pending, hcell, Cell.wrote, Msg.granted]
  | writeFailed hcell _ _ =>
      simp [End.unread, End.pending, hcell, Cell.writeShut]
  | finished hcell _ _ =>
      simp [End.unread, End.pending, hcell, Cell.finished, Msg.granted]
  | dropped hcell _ _ => simp [End.unread, End.pending, hcell]

theorem cell_none (h : LocalStep cfg i r E e E' ms) (hcell : E'.cell = none) :
    E.cell = none := by
  cases hc : E.cell with
  | none => rfl
  | some c =>
      obtain ⟨c', hc', -⟩ := h.later hc
      rw [hc'] at hcell
      cases hcell

end LocalStep

/-! ## What inbound messages do to the quantities -/

namespace DeliverStep

variable {cfg : Config} {i : StreamId} {r : Role} {E E' : End} {m : Msg}
  {e : Ev} {ms : List Msg}

theorem flags (h : DeliverStep cfg i r E m e E' ms) :
    E'.outClosed = E.outClosed ∧ E'.encodeFailed = E.encodeFailed ∧
      E'.closing = E.closing ∧ E'.readerDone = E.readerDone := by
  cases h <;> exact ⟨rfl, rfl, rfl, rfl⟩

theorem registered (h : DeliverStep cfg i r E m e E' ms)
    (hreg : E'.registered = true) : E.registered = true ∨ E.cell = none := by
  cases h with
  | created hcell hdone => exact .inr hcell
  | _ => exact .inl hreg

theorem cell_none (h : DeliverStep cfg i r E m e E' ms)
    (hcell : E'.cell = none) : E.cell = none := by
  cases hc : E.cell with
  | none => rfl
  | some c =>
      obtain ⟨c', hc', -⟩ := h.later hc
      rw [hc'] at hcell
      cases hcell

/-- Replies carry neither bytes nor credit. -/
theorem replies (h : DeliverStep cfg i r E m e E' ms) :
    Msg.payloads ms = [] ∧ Msg.grants ms = 0 := by
  cases h <;> exact ⟨rfl, rfl⟩

/-- Receiving writes nothing. -/
theorem writeLog (h : DeliverStep cfg i r E m e E' ms) :
    E'.writeLog = E.writeLog := by
  cases h with
  | created hcell hdone => simp [End.writeLog, hcell, Cell.new]
  | acked hcell _ => simp [End.writeLog, hcell]
  | data hcell _ _ => simp [End.writeLog, hcell]
  | fin hcell _ => simp [End.writeLog, hcell]
  | rst hcell _ => simp [End.writeLog, hcell]
  | credit hcell _ => simp [End.writeLog, hcell]
  | refused _ _ => rfl
  | ignored _ => rfl

/-- **Where the bytes of a message go**: to the end of the buffer, if the
side listens; otherwise nowhere. -/
theorem arrives (h : DeliverStep cfg i r E m e E' ms) :
    E'.readLog = E.readLog ∧ E'.pending = E.pending ∧
      ((E.listening = true ∧ E'.listening = true ∧
          E'.unread = E.unread ++ m.payload) ∨
        (E.listening = false ∧ E' = E) ∨
        (E.cell = none ∧ m = .syn ∧ E'.unread = [] ∧ E'.cell ≠ none)) := by
  cases h with
  | created hcell hdone =>
      simp only [End.readLog, End.pending, hcell]
      exact ⟨rfl, rfl, .inr (.inr ⟨trivial, trivial, rfl, by simp⟩)⟩
  | acked hcell hl =>
      simp only [End.readLog, End.pending, hcell]
      refine ⟨rfl, rfl, .inl ⟨hl, hl, ?_⟩⟩
      simp [End.unread, hcell, Msg.payload, StreamInner.markAcked]
  | data hcell hl hopen =>
      simp only [End.readLog, End.pending, hcell]
      refine ⟨rfl, ?_, .inl ⟨hl, hl, ?_⟩⟩
      · rw [StreamInner.pushData_eq]
        rfl
      · simp [End.unread, hcell, Msg.payload, StreamInner.pushData_contents]
  | fin hcell hl =>
      simp only [End.readLog, End.pending, hcell]
      refine ⟨rfl, rfl, .inl ⟨hl, hl, ?_⟩⟩
      simp [End.unread, hcell, Msg.payload, StreamInner.remoteFin]
  | rst hcell hl =>
      simp only [End.readLog, End.pending, hcell]
      refine ⟨rfl, rfl, .inl ⟨hl, hl, ?_⟩⟩
      simp [End.unread, hcell, Msg.payload, StreamInner.remoteReset]
  | credit hcell hl =>
      simp only [End.readLog, End.pending, hcell]
      refine ⟨rfl, rfl, .inl ⟨hl, hl, ?_⟩⟩
      simp [End.unread, hcell, Msg.payload, StreamInner.grantSendCredit]
  | refused hreg hm =>
      exact ⟨rfl, rfl, .inr (.inl ⟨by simp [End.listening, hreg], rfl⟩)⟩
  | ignored hm =>
      refine ⟨rfl, rfl, .inr (.inl ⟨?_, rfl⟩)⟩
      rcases hm with ⟨hreg, -⟩ | hdone
      · simp [End.listening, hreg]
      · simp [End.listening, hdone]

/-- **Where the credit of a message goes**: to the send window, if the side
listens and the word has room for it. -/
theorem grants (h : DeliverStep cfg i r E m e E' ms) (hc : E.cell ≠ none)
    (hl : E.listening = true)
    (hroom : E.available + m.granted < 2 ^ 32) :
    E'.available = E.available + m.granted := by
  cases h with
  | created hcell hdone => exact absurd hcell hc
  | acked hcell _ =>
      simp [End.available, hcell, Msg.granted, StreamInner.markAcked]
  | data hcell _ _ =>
      simp only [End.available, hcell, Option.map_some, Option.getD_some,
        Msg.granted]
      rw [StreamInner.pushData_eq]
      rfl
  | fin hcell _ =>
      simp [End.available, hcell, Msg.granted, StreamInner.remoteFin]
  | rst hcell _ =>
      simp [End.available, hcell, Msg.granted, StreamInner.remoteReset]
  | credit hcell _ =>
      simp only [End.available, hcell, Option.map_some, Option.getD_some,
        Msg.granted, StreamInner.grantSendCredit,
        SendWindow.toNat_grant] at hroom ⊢
      omega
  | refused hreg hm => simp [End.listening, hreg] at hl
  | ignored hm =>
      rcases hm with ⟨hreg, -⟩ | hdone
      · simp [End.listening, hreg] at hl
      · simp [End.listening, hdone] at hl

/-- A new stream has its own window to send. -/
theorem available_new (h : DeliverStep cfg i r E m e E' ms)
    (hc : E.cell = none) : E'.available ≤ cfg.initialStreamWindow.toNat := by
  cases h with
  | created _ _ => exact Nat.le_refl _
  | refused _ _ => simp [End.available, hc]
  | ignored _ => simp [End.available, hc]
  | _ => simp_all

end DeliverStep

/-! ## Bytes -/

/-- The bytes of one direction.  `missing` is what the receiver will never
get. -/
structure Delivery (S R : End) (fwd : List Msg) : Prop where
  idle : R.cell = none → S.writeLog = [] ∧ Msg.payloads fwd = []
  bytes : ∃ missing,
    R.readLog ++ R.unread ++
        (if R.listening then Msg.payloads fwd else []) ++ missing =
      S.writeLog ∧
    (R.listening = true → S.outClosed = false → missing = [])

namespace Delivery

variable {S R S' R' : End} {fwd fwd' : List Msg}

/-- Nothing was read that was not written. -/
theorem readLog_prefix (h : Delivery S R fwd) : R.readLog <+: S.writeLog := by
  obtain ⟨missing, hbytes, -⟩ := h.bytes
  rw [← hbytes, List.append_assoc, List.append_assoc]
  exact List.prefix_append _ _

/-- While the receiver listens and the writer runs, nothing is missing. -/
theorem complete (h : Delivery S R fwd) (hl : R.listening = true)
    (hout : S.outClosed = false) :
    R.readLog ++ R.unread ++ Msg.payloads fwd = S.writeLog := by
  obtain ⟨missing, hbytes, hnone⟩ := h.bytes
  rw [hnone hl hout, if_pos hl, List.append_nil] at hbytes
  exact hbytes

/-- The receiving end keeps its bytes; it may stop listening, or begin when
it had no stream. -/
theorem receive (h : Delivery S R fwd)
    (hbytes : R'.readLog ++ R'.unread = R.readLog ++ R.unread)
    (hl : R'.listening = true → R.listening = true ∨ R.cell = none)
    (hcell : R'.cell = none → R.cell = none) : Delivery S R' fwd where
  idle := fun hnone => h.idle (hcell hnone)
  bytes := by
    obtain ⟨missing, heq, hnone⟩ := h.bytes
    rw [hbytes]
    by_cases hl' : R'.listening = true
    · rcases hl hl' with hR | hR
      · refine ⟨missing, ?_, fun _ => hnone hR⟩
        rw [if_pos hl']
        rw [if_pos hR] at heq
        exact heq
      · obtain ⟨hW, hP⟩ := h.idle hR
        rw [hW] at heq
        simp only [List.append_eq_nil_iff] at heq
        refine ⟨[], ?_, fun _ _ => rfl⟩
        rw [if_pos hl', hP, hW, heq.1.1.1, heq.1.1.2]
        rfl
    · refine ⟨(if R.listening then Msg.payloads fwd else []) ++ missing, ?_,
        fun hl'' => absurd hl'' hl'⟩
      rw [if_neg hl', List.append_nil, ← List.append_assoc]
      exact heq

section Steps

variable {cfg : Config} {i : StreamId} {r : Role} {e : Ev} {m : Msg}
  {rest ms : List Msg}

/-- The sending end acts. -/
theorem sender_acts (h : Delivery S R fwd) (hs : LocalStep cfg i r S e S' ms)
    (hpeer : ∀ c, S.cell = some c → c.owner = .handle → R.cell ≠ none) :
    Delivery S' R (fwd ++ S.post ms) := by
  obtain ⟨hout, -, -⟩ := hs.flags
  obtain ⟨missing, heq, hnone⟩ := h.bytes
  rcases hs.writes with ⟨hW, -, hP⟩ | ⟨p, c, rfl, hW, -, hopen, hc, ho⟩
  · have hpost : Msg.payloads (S.post ms) = [] := by
      rw [Msg.payloads_eq_nil] at hP ⊢
      exact fun m hm => hP m (End.mem_post hm)
    refine ⟨?_, missing, ?_, ?_⟩
    · rw [hW, Msg.payloads_append, hpost, List.append_nil]
      exact h.idle
    · rw [hW, Msg.payloads_append, hpost, List.append_nil]
      exact heq
    · rw [hout]
      exact hnone
  · have hpost : S.post [.data p] = [.data p] := by simp [End.post, hopen]
    rw [hpost]
    refine ⟨fun hR => absurd hR (hpeer c hc ho), ?_⟩
    by_cases hl : R.listening = true
    · refine ⟨[], ?_, fun _ _ => rfl⟩
      rw [if_pos hl, hnone hl hopen] at heq
      rw [if_pos hl, hW, ← heq]
      simp [Msg.payload]
    · refine ⟨missing ++ p, ?_, fun hl' => absurd hl' hl⟩
      rw [if_neg hl] at heq ⊢
      rw [hW, ← heq]
      simp

/-- The receiving end acts. -/
theorem receiver_acts (h : Delivery S R fwd) (hs : LocalStep cfg i r R e R' ms) :
    Delivery S R' fwd :=
  h.receive hs.readBytes hs.listening hs.cell_none

/-- A message reaches the receiving end. -/
theorem receiver_hears (h : Delivery S R (m :: rest))
    (hs : DeliverStep cfg i r R m e R' ms) : Delivery S R' rest := by
  obtain ⟨missing, heq, hnone⟩ := h.bytes
  have hidle : R'.cell = none → S.writeLog = [] ∧ Msg.payloads rest = [] := by
    intro hcell
    obtain ⟨hW, hP⟩ := h.idle (hs.cell_none hcell)
    rw [Msg.payloads_cons, List.append_eq_nil_iff] at hP
    exact ⟨hW, hP.2⟩
  obtain ⟨hread, -, hcase⟩ := hs.arrives
  rcases hcase with ⟨hl, hl', hunread⟩ | ⟨hl, rfl⟩ | ⟨hcell, rfl, hunread, -⟩
  · refine ⟨hidle, missing, ?_, fun _ => hnone hl⟩
    rw [if_pos hl, Msg.payloads_cons] at heq
    rw [if_pos hl', hread, hunread, ← heq]
    simp
  · refine ⟨hidle, missing, ?_, fun hl' => ?_⟩
    · simp only [hl] at heq ⊢
      exact heq
    · rw [hl] at hl'
      cases hl'
  · -- a stream is made where there was none: nothing was written yet
    obtain ⟨hW, hP⟩ := h.idle hcell
    have hR : R.readLog = [] := by simp [End.readLog, hcell]
    rw [Msg.payloads_cons, List.append_eq_nil_iff] at hP
    refine ⟨hidle, [], ?_, fun _ _ => rfl⟩
    rw [hread, hR, hunread, hP.2, hW]
    simp

/-- A message reaches the sending end. -/
theorem sender_hears (h : Delivery S R fwd)
    (hs : DeliverStep cfg i r S m e S' ms) :
    Delivery S' R (fwd ++ S.post ms) := by
  obtain ⟨hout, -, -, -⟩ := hs.flags
  have hpost : Msg.payloads (S.post ms) = [] := by
    have hP := hs.replies.1
    rw [Msg.payloads_eq_nil] at hP ⊢
    exact fun m hm => hP m (End.mem_post hm)
  refine ⟨?_, ?_⟩
  · rw [hs.writeLog, Msg.payloads_append, hpost, List.append_nil]
    exact h.idle
  · rw [hs.writeLog, hout, Msg.payloads_append, hpost, List.append_nil]
    exact h.bytes

/-- The sender's writer returns and what it had not sent is lost. -/
theorem sender_cut (h : Delivery S R fwd) (hpre : fwd' <+: fwd) :
    Delivery { S with outClosed := true } R fwd' := by
  obtain ⟨missing, heq, hnone⟩ := h.bytes
  obtain ⟨gone, rfl⟩ := hpre
  refine ⟨?_, ?_⟩
  · intro hcell
    obtain ⟨hW, hP⟩ := h.idle hcell
    rw [Msg.payloads_append, List.append_eq_nil_iff] at hP
    exact ⟨hW, hP.1⟩
  · by_cases hl : R.listening = true
    · refine ⟨Msg.payloads gone ++ missing, ?_, fun _ hout => by cases hout⟩
      rw [if_pos hl, Msg.payloads_append] at heq
      rw [if_pos hl]
      show _ = S.writeLog
      simpa only [List.append_assoc] using heq
    · refine ⟨missing, ?_, fun hl' => absurd hl' hl⟩
      rw [if_neg hl] at heq ⊢
      exact heq

end Steps

end Delivery

/-! ## Credit -/

/-- The credit of one direction, with `window` the sender's initial window.
While either stream is missing nothing has been spent; there is never more
than the window; and while both sessions run and both streams are registered
nothing is lost. -/
structure Credit (window : Nat) (S R : End) (fwd back : List Msg) : Prop where
  idle : S.cell = none ∨ R.cell = none →
    Msg.payloads fwd = [] ∧ R.unread = [] ∧ R.pending = 0 ∧
      Msg.grants back = 0
  bound : S.available + (Msg.payloads fwd).length + R.unread.length +
    R.pending + Msg.grants back ≤ window
  conserved : S.closing = false → R.closing = false → S.registered = true →
    R.cell = none ∨ R.registered = true →
      S.available + (Msg.payloads fwd).length + R.unread.length + R.pending +
        Msg.grants back = window

namespace Credit

variable {window : Nat} {S R S' R' : End} {fwd back : List Msg}

/-- Messages without bytes do not count. -/
theorem forward {ms : List Msg} (h : Credit window S R fwd back)
    (hms : Msg.payloads ms = []) : Credit window S R (fwd ++ ms) back := by
  have heq : Msg.payloads (fwd ++ ms) = Msg.payloads fwd := by
    rw [Msg.payloads_append, hms, List.append_nil]
  refine ⟨?_, ?_, ?_⟩ <;> rw [heq]
  · exact h.idle
  · exact h.bound
  · exact h.conserved

/-- Messages are lost only when a session closes. -/
theorem lose {fwd' back' : List Msg} (h : Credit window S R fwd back)
    (hS : S'.cell = S.cell) (hR : R'.cell = R.cell)
    (hclosing : S'.closing = true ∨ R'.closing = true)
    (hfwd : fwd'.Sublist fwd) (hback : back'.Sublist back) :
    Credit window S' R' fwd' back' where
  idle := by
    unfold End.unread End.pending
    rw [hS, hR]
    intro hnone
    obtain ⟨hP, hB, hpend, hG⟩ := h.idle hnone
    rw [Msg.payloads_eq_nil] at hP ⊢
    rw [Msg.grants_eq_zero] at hG ⊢
    exact ⟨fun m hm => hP m (hfwd.subset hm), hB, hpend,
      fun m hm => hG m (hback.subset hm)⟩
  bound := by
    have hbound := h.bound
    have hP := (Msg.sublist_le hfwd).1
    have hG := (Msg.sublist_le hback).2
    unfold End.available End.unread End.pending at hbound ⊢
    rw [hS, hR]
    omega
  conserved := by
    intro hcl hcl'
    rcases hclosing with hclosing | hclosing
    · rw [hclosing] at hcl
      cases hcl
    · rw [hclosing] at hcl'
      cases hcl'

section Steps

variable {cfg : Config} {i : StreamId} {r : Role} {e : Ev} {m : Msg}
  {rest ms : List Msg}

/-- The sending end acts. -/
theorem sender_acts (h : Credit cfg.initialStreamWindow.toNat S R fwd back)
    (hs : LocalStep cfg i r S e S' ms) (hS : EndOk cfg i S)
    (hpeer : ∀ c, S.cell = some c → c.owner = .handle → R.cell ≠ none) :
    Credit cfg.initialStreamWindow.toNat S' R (fwd ++ S.post ms) back := by
  obtain ⟨-, -, hclosing⟩ := hs.flags
  have hreg := hs.registered
  by_cases hcell : S.cell = none
  · -- before the stream is opened everything is zero
    obtain ⟨hP, hB, hpend, hG⟩ := h.idle (.inl hcell)
    rcases hs.none_silent hcell with ⟨hnone, rfl⟩ | ⟨hown, hout, rfl, rfl⟩
    · have hpost : S.post [] = [] := by simp [End.post]
      rw [hpost, List.append_nil]
      refine ⟨fun _ => ⟨hP, hB, hpend, hG⟩, ?_, fun _ _ hr _ => ?_⟩
      · rw [hP, hB, hpend, hG]
        simp [End.available, hnone]
      · exact absurd hnone ((hS.act hs).registered hr)
    · have hpost : S.post [.syn] = [.syn] := by simp [End.post, hout]
      rw [hpost]
      refine ⟨fun _ => ⟨?_, hB, hpend, hG⟩, ?_, fun _ _ _ _ => ?_⟩
      · rw [Msg.payloads_append, hP]
        rfl
      · rw [Msg.payloads_append, hP, hB, hpend, hG]
        exact Nat.le_refl _
      · rw [Msg.payloads_append, hP, hB, hpend, hG]
        rfl
  · rcases hs.writes with ⟨-, hav, hP⟩ | ⟨p, c, rfl, -, hav, hopen, hc, ho⟩
    · have hpost : Msg.payloads (S.post ms) = [] := by
        rw [Msg.payloads_eq_nil] at hP ⊢
        exact fun m hm => hP m (End.mem_post hm)
      refine ⟨?_, ?_, ?_⟩
      · intro hnone
        rw [Msg.payloads_append, hpost, List.append_nil]
        exact h.idle (hnone.imp hs.cell_none id)
      · rw [Msg.payloads_append, hpost, List.append_nil, hav hcell]
        exact h.bound
      · intro hcl hcl' hr hr'
        rw [Msg.payloads_append, hpost, List.append_nil, hav hcell]
        exact h.conserved (hclosing hcl) hcl' ((hreg hr).resolve_right hcell)
          hr'
    · have hpost : S.post [.data p] = [.data p] := by simp [End.post, hopen]
      rw [hpost]
      refine ⟨?_, ?_, ?_⟩
      · rintro (hnone | hnone)
        · exact absurd (hs.cell_none hnone) hcell
        · exact absurd hnone (hpeer c hc ho)
      · have hbound := h.bound
        rw [Msg.payloads_append, List.length_append]
        simp only [Msg.payloads_cons, Msg.payload, Msg.payloads_nil,
          List.append_nil]
        omega
      · intro hcl hcl' hr hr'
        have hsum := h.conserved (hclosing hcl) hcl'
          ((hreg hr).resolve_right hcell) hr'
        rw [Msg.payloads_append, List.length_append]
        simp only [Msg.payloads_cons, Msg.payload, Msg.payloads_nil,
          List.append_nil]
        omega

/-- The receiving end acts. -/
theorem receiver_acts (h : Credit window S R fwd back) (hw : window < 2 ^ 32)
    (hs : LocalStep cfg i r R e R' ms) (hR : EndOk cfg i R)
    (hpeer : ∀ c, R.cell = some c → c.owner = .handle → S.cell ≠ none) :
    Credit window S R' fwd (back ++ R.post ms) := by
  obtain ⟨-, -, hclosing⟩ := hs.flags
  have hreg : R'.cell = none ∨ R'.registered = true →
      R.cell = none ∨ R.registered = true := by
    rintro (hnone | hr)
    · exact .inl (hs.cell_none hnone)
    · exact (hs.registered hr).symm
  rcases hs.owes with ⟨hB, hpend, hG⟩ | ⟨c, remaining, hc, ho, rfl, rfl⟩
  · have hpost : Msg.grants (R.post ms) = 0 := by
      rw [Msg.grants_eq_zero] at hG ⊢
      exact fun m hm => hG m (End.mem_post hm)
    refine ⟨?_, ?_, ?_⟩
    · intro hnone
      rw [hB, hpend, Msg.grants_append, hpost, Nat.add_zero]
      exact h.idle (hnone.imp id hs.cell_none)
    · rw [hB, hpend, Msg.grants_append, hpost, Nat.add_zero]
      exact h.bound
    · intro hcl hcl' hr hr'
      rw [hB, hpend, Msg.grants_append, hpost, Nat.add_zero]
      exact h.conserved hcl (hclosing hcl') hr (hreg hr')
  · have hbound := h.bound
    simp only [End.unread, End.pending, hc, Option.map_some,
      Option.getD_some] at hbound
    have hcons := c.read_conserves remaining (by omega)
    refine ⟨?_, ?_, ?_⟩
    · rintro (hnone | hnone)
      · exact absurd hnone (hpeer c hc ho)
      · cases hnone
    · have hpost : Msg.grants (R.post (c.readMsgs remaining)) ≤
          Msg.grants (c.readMsgs remaining) := by
        unfold End.post
        split
        · exact Nat.zero_le _
        · exact Nat.le_refl _
      simp only [End.unread, End.pending, Option.map_some, Option.getD_some,
        Msg.grants_append]
      omega
    · intro hcl hcl' hr hr'
      have hsum := h.conserved hcl hcl' hr (hreg hr')
      have hout : R.outClosed = false := by
        by_contra hout
        rw [Bool.not_eq_false] at hout
        have hcl'' : R.closing = false := hcl'
        rw [hR.outClosing hout] at hcl''
        cases hcl''
      have hpost : R.post (c.readMsgs remaining) = c.readMsgs remaining := by
        simp [End.post, hout]
      simp only [End.unread, End.pending, hc, Option.map_some,
        Option.getD_some] at hsum ⊢
      rw [hpost, Msg.grants_append]
      omega

/-- A message reaches the receiving end. -/
theorem receiver_hears (h : Credit window S R (m :: rest) back)
    (hs : DeliverStep cfg i r R m e R' ms) (hR : EndOk cfg i R) :
    Credit window S R' rest (back ++ R.post ms) := by
  obtain ⟨-, -, hclosing, -⟩ := hs.flags
  have hpost : Msg.grants (R.post ms) = 0 := by
    have hG := hs.replies.2
    rw [Msg.grants_eq_zero] at hG ⊢
    exact fun m hm => hG m (End.mem_post hm)
  have hreg : R'.cell = none ∨ R'.registered = true →
      R.cell = none ∨ R.registered = true := by
    rintro (hnone | hr)
    · exact .inl (hs.cell_none hnone)
    · exact (hs.registered hr).symm
  obtain ⟨-, hpend, hcase⟩ := hs.arrives
  -- while a stream is missing the message carries nothing
  have hunread : S.cell = none ∨ R.cell = none →
      m.payload = [] ∧ R'.unread = [] := by
    intro hnone
    obtain ⟨hP, hB, -, -⟩ := h.idle hnone
    rw [Msg.payloads_cons, List.append_eq_nil_iff] at hP
    refine ⟨hP.1, ?_⟩
    rcases hcase with ⟨-, -, hun⟩ | ⟨-, rfl⟩ | ⟨-, -, hun, -⟩
    · rw [hun, hB, hP.1]
      rfl
    · exact hB
    · exact hun
  refine ⟨?_, ?_, ?_⟩
  · intro hnone
    have hnone' := hnone.imp id hs.cell_none
    obtain ⟨hP, -, hpend', hG⟩ := h.idle hnone'
    rw [Msg.payloads_cons, List.append_eq_nil_iff] at hP
    refine ⟨hP.2, (hunread hnone').2, hpend.trans hpend', ?_⟩
    rw [Msg.grants_append, hG, hpost]
  · have hbound := h.bound
    have hun : R'.unread.length ≤ R.unread.length + m.payload.length := by
      rcases hcase with ⟨-, -, hun⟩ | ⟨-, rfl⟩ | ⟨-, -, hun, -⟩
      · rw [hun, List.length_append]
      · exact Nat.le_add_right _ _
      · rw [hun]
        exact Nat.zero_le _
    rw [Msg.payloads_cons, List.length_append] at hbound
    rw [Msg.grants_append, hpost, hpend]
    omega
  · intro hcl hcl' hr hr'
    rw [hclosing] at hcl'
    have hsum := h.conserved hcl hcl' hr (hreg hr')
    rw [Msg.payloads_cons, List.length_append] at hsum
    rw [Msg.grants_append, hpost, hpend]
    by_cases hnone : R.cell = none
    · obtain ⟨hm, hun⟩ := hunread (.inr hnone)
      have hB : R.unread = [] := by simp [End.unread, hnone]
      rw [hm, hB] at hsum
      rw [hun]
      simp only [List.length_nil] at hsum ⊢
      omega
    · have hl := hR.listening_of_registered hcl'
        ((hreg hr').resolve_left hnone)
      rcases hcase with ⟨-, -, hun⟩ | ⟨hl', -⟩ | ⟨hnone', -⟩
      · rw [hun, List.length_append]
        omega
      · rw [hl] at hl'
        cases hl'
      · exact absurd hnone' hnone

/-- A message reaches the sending end. -/
theorem sender_hears (h : Credit cfg.initialStreamWindow.toNat S R fwd (m :: rest))
    (hs : DeliverStep cfg i r S m e S' ms) (hS : EndOk cfg i S) :
    Credit cfg.initialStreamWindow.toNat S' R (fwd ++ S.post ms) rest := by
  obtain ⟨-, -, hclosing, -⟩ := hs.flags
  have hpost : Msg.payloads (S.post ms) = [] := by
    have hP := hs.replies.1
    rw [Msg.payloads_eq_nil] at hP ⊢
    exact fun m hm => hP m (End.mem_post hm)
  refine Credit.forward ?_ hpost
  have hbound := h.bound
  rw [Msg.grants_cons] at hbound
  have hlt := cfg.initialStreamWindow.toNat_lt
  refine ⟨?_, ?_, ?_⟩
  · intro hnone
    obtain ⟨hP, hB, hpend, hG⟩ := h.idle (hnone.imp hs.cell_none id)
    rw [Msg.grants_cons] at hG
    exact ⟨hP, hB, hpend, by omega⟩
  · by_cases hcell : S.cell = none
    · obtain ⟨hP, hB, hpend, hG⟩ := h.idle (.inl hcell)
      rw [Msg.grants_cons] at hG
      have hGrest : Msg.grants rest = 0 := by omega
      rw [hP, hB, hpend, hGrest]
      exact hs.available_new hcell
    · cases hl : S.listening with
      | true =>
          have hav := hs.grants hcell hl (by omega)
          omega
      | false =>
          rcases hs.arrives.2.2 with ⟨hl', -⟩ | ⟨-, rfl⟩ | ⟨hnone, -⟩
          · rw [hl] at hl'
            cases hl'
          · omega
          · exact absurd hnone hcell
  · intro hcl hcl' hr hr'
    rw [hclosing] at hcl
    by_cases hcell : S.cell = none
    · obtain ⟨hP, hB, hpend, hG⟩ := h.idle (.inl hcell)
      rw [Msg.grants_cons] at hG
      have hGrest : Msg.grants rest = 0 := by omega
      cases hs with
      | created _ _ =>
          rw [hP, hB, hpend, hGrest]
          rfl
      | refused _ _ => exact absurd hcell (hS.registered hr)
      | ignored _ => exact absurd hcell (hS.registered hr)
      | _ => simp_all
    · have hreg := (hs.registered hr).resolve_right hcell
      have hsum := h.conserved hcl hcl' hreg hr'
      rw [Msg.grants_cons] at hsum
      have hav := hs.grants hcell (hS.listening_of_registered hcl hreg)
        (by omega)
      omega

end Steps

end Credit

/-! ## The whole invariant -/

/-- A side that is closing goes on closing. -/
theorem PipeStep.closing {cfg : Role → Config} {i : StreamId} {e : Ev}
    {L L' : Pipe} (hs : PipeStep cfg i e L L') {r : Role}
    (hcl : (L.ends r).closing = true) : (L'.ends r).closing = true := by
  cases hs with
  | act r' hs =>
      rcases Role.eq_or_eq_peer r' r with rfl | rfl
      · rw [Pipe.set_ends_self]
        by_contra hopen
        rw [Bool.not_eq_true] at hopen
        rw [hs.flags.2.2 hopen] at hcl
        cases hcl
      · rw [Pipe.set_ends_peer]
        exact hcl
  | deliver r' hchan hs =>
      rcases Role.eq_or_eq_peer r' r with rfl | rfl
      · rw [Pipe.set_ends_self, hs.flags.2.2.1]
        exact hcl
      · rw [Pipe.set_ends_peer]
        exact hcl
  | cut r' hclosing hsent =>
      rcases Role.eq_or_eq_peer r' r with rfl | rfl <;> simpa using hcl
  | lost r' hclosing hsent =>
      rcases Role.eq_or_eq_peer r' r with rfl | rfl <;> simpa using hcl

/-- A side begins to close only in a shutdown step. -/
theorem PipeStep.closing_from {cfg : Role → Config} {i : StreamId} {e : Ev}
    {L L' : Pipe} (hs : PipeStep cfg i e L L') {r : Role}
    (hcl : (L'.ends r).closing = true) :
    (L.ends r).closing = true ∨ e = .shutdown r := by
  cases hs with
  | act r' hs =>
      rcases Role.eq_or_eq_peer r' r with rfl | rfl
      · rw [Pipe.set_ends_self] at hcl
        cases hs with
        | shutdown hopen => exact .inr rfl
        | _ => exact .inl hcl
      · rw [Pipe.set_ends_peer] at hcl
        exact .inl hcl
  | deliver r' hchan hs =>
      rcases Role.eq_or_eq_peer r' r with rfl | rfl
      · rw [Pipe.set_ends_self, hs.flags.2.2.1] at hcl
        exact .inl hcl
      · rw [Pipe.set_ends_peer] at hcl
        exact .inl hcl
  | cut r' hclosing hsent =>
      rcases Role.eq_or_eq_peer r' r with rfl | rfl <;>
        exact .inl (by simpa using hcl)
  | lost r' hclosing hsent =>
      rcases Role.eq_or_eq_peer r' r with rfl | rfl <;>
        exact .inl (by simpa using hcl)

/-- What holds of every pipe at all times, bytes and credit included. -/
structure Pipe.Inv (cfg : Role → Config) (i : StreamId) (L : Pipe) : Prop where
  sound : Sound cfg i L
  delivery : ∀ r, (L.ends r).encodeFailed = false →
    Delivery (L.ends r) (L.ends r.peer) (L.chan r)
  credit : ∀ r, Credit (cfg r).initialStreamWindow.toNat (L.ends r)
    (L.ends r.peer) (L.chan r) (L.chan r.peer)

namespace Pipe.Inv

variable {cfg : Role → Config} {i : StreamId} {L L' : Pipe}

/-- Seen from the receiving side. -/
theorem delivery_peer (h : Inv cfg i L) (r : Role)
    (hfail : (L.ends r.peer).encodeFailed = false) :
    Delivery (L.ends r.peer) (L.ends r) (L.chan r.peer) := by
  simpa only [Role.peer_peer] using h.delivery r.peer hfail

theorem credit_peer (h : Inv cfg i L) (r : Role) :
    Credit (cfg r.peer).initialStreamWindow.toNat (L.ends r.peer) (L.ends r)
      (L.chan r.peer) (L.chan r) := by
  simpa only [Role.peer_peer] using h.credit r.peer

theorem delivery_act (h : Inv cfg i L) {r : Role} {e : Ev} {E : End}
    {ms : List Msg} (hs : LocalStep (cfg r) i r (L.ends r) e E ms)
    (r' : Role) :
    let L' := L.set r E (L.chan r ++ (L.ends r).post ms) (L.chan r.peer)
    (L'.ends r').encodeFailed = false →
      Delivery (L'.ends r') (L'.ends r'.peer) (L'.chan r') := by
  revert r'
  rw [Role.forall_iff r]
  simp only [set_ends_self, set_ends_peer, set_chan_self, set_chan_peer,
    Role.peer_peer]
  constructor
  · intro hfail
    rw [hs.flags.2.1] at hfail
    exact (h.delivery r hfail).sender_acts hs fun _ hc ho =>
      h.sound.peer_of_handle hc (.inl ho)
  · exact fun hfail => (h.delivery_peer r hfail).receiver_acts hs

theorem credit_act (h : Inv cfg i L) {r : Role} {e : Ev} {E : End}
    {ms : List Msg} (hs : LocalStep (cfg r) i r (L.ends r) e E ms)
    (r' : Role) :
    let L' := L.set r E (L.chan r ++ (L.ends r).post ms) (L.chan r.peer)
    Credit (cfg r').initialStreamWindow.toNat (L'.ends r') (L'.ends r'.peer)
      (L'.chan r') (L'.chan r'.peer) := by
  have hpeer : ∀ c, (L.ends r).cell = some c → c.owner = .handle →
      (L.ends r.peer).cell ≠ none := fun _ hc ho =>
    h.sound.peer_of_handle hc (.inl ho)
  revert r'
  rw [Role.forall_iff r]
  simp only [set_ends_self, set_ends_peer, set_chan_self, set_chan_peer,
    Role.peer_peer]
  exact ⟨(h.credit r).sender_acts hs (h.sound.ends r) hpeer,
    (h.credit_peer r).receiver_acts (UInt32.toNat_lt _) hs (h.sound.ends r) hpeer⟩

theorem delivery_deliver (h : Inv cfg i L) {r : Role} {e : Ev} {E : End}
    {m : Msg} {rest ms : List Msg} (hchan : L.chan r.peer = m :: rest)
    (hs : DeliverStep (cfg r) i r (L.ends r) m e E ms) (r' : Role) :
    let L' := L.set r E (L.chan r ++ (L.ends r).post ms) rest
    (L'.ends r').encodeFailed = false →
      Delivery (L'.ends r') (L'.ends r'.peer) (L'.chan r') := by
  revert r'
  rw [Role.forall_iff r]
  simp only [set_ends_self, set_ends_peer, set_chan_self, set_chan_peer,
    Role.peer_peer]
  constructor
  · intro hfail
    rw [hs.flags.2.1] at hfail
    exact (h.delivery r hfail).sender_hears hs
  · intro hfail
    have hd := h.delivery_peer r hfail
    rw [hchan] at hd
    exact hd.receiver_hears hs

theorem credit_deliver (h : Inv cfg i L) {r : Role} {e : Ev} {E : End}
    {m : Msg} {rest ms : List Msg} (hchan : L.chan r.peer = m :: rest)
    (hs : DeliverStep (cfg r) i r (L.ends r) m e E ms) (r' : Role) :
    let L' := L.set r E (L.chan r ++ (L.ends r).post ms) rest
    Credit (cfg r').initialStreamWindow.toNat (L'.ends r') (L'.ends r'.peer)
      (L'.chan r') (L'.chan r'.peer) := by
  have hself := h.credit r
  have hpeer := h.credit_peer r
  rw [hchan] at hself hpeer
  revert r'
  rw [Role.forall_iff r]
  simp only [set_ends_self, set_ends_peer, set_chan_self, set_chan_peer,
    Role.peer_peer]
  exact ⟨hself.sender_hears hs (h.sound.ends r),
    hpeer.receiver_hears hs (h.sound.ends r)⟩

/-- **Every step keeps the whole invariant.** -/
theorem step (h : Inv cfg i L) {e : Ev} (hs : PipeStep cfg i e L L') :
    Inv cfg i L' := by
  refine ⟨h.sound.step hs, ?_, ?_⟩
  · cases hs with
    | act r hs => exact h.delivery_act hs
    | deliver r hchan hs => exact h.delivery_deliver hchan hs
    | cut r hclosing hsent =>
        rw [Role.forall_iff r]
        simp only [set_ends_self, set_ends_peer, set_chan_self, set_chan_peer,
          Role.peer_peer]
        refine ⟨fun hfail => (h.delivery r hfail).sender_cut hsent, fun hfail => ?_⟩
        exact (h.delivery_peer r hfail).receive rfl .inl id
    | lost r hclosing hsent =>
        rw [Role.forall_iff r]
        simp only [set_ends_self, set_ends_peer, set_chan_self, set_chan_peer,
          Role.peer_peer]
        refine ⟨fun hfail => (by cases hfail), fun hfail => ?_⟩
        exact (h.delivery_peer r hfail).receive rfl .inl id
  · cases hs with
    | act r hs => exact h.credit_act hs
    | deliver r hchan hs => exact h.credit_deliver hchan hs
    | cut r hclosing hsent =>
        rw [Role.forall_iff r]
        simp only [set_ends_self, set_ends_peer, set_chan_self, set_chan_peer,
          Role.peer_peer]
        exact ⟨(h.credit r).lose rfl rfl (.inl hclosing) hsent.sublist
            (List.Sublist.refl _),
          (h.credit_peer r).lose rfl rfl (.inr hclosing)
            (List.Sublist.refl _) hsent.sublist⟩
    | lost r hclosing hsent =>
        rw [Role.forall_iff r]
        simp only [set_ends_self, set_ends_peer, set_chan_self, set_chan_peer,
          Role.peer_peer]
        exact ⟨(h.credit r).lose rfl rfl (.inl hclosing) hsent
            (List.Sublist.refl _),
          (h.credit_peer r).lose rfl rfl (.inr hclosing)
            (List.Sublist.refl _) hsent⟩

end Pipe.Inv

end NetMux
