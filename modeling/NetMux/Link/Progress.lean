import NetMux.Endpoint.Tending
import NetMux.Link.Stall

/-!
# A transfer comes to its end

One side keeps writing what is left of some bytes to its handle of a stream,
the other side keeps reading from its own, and the tasks of both endpoints run;
nobody makes another call.  `stalled_iff` says that such a stream cannot get
stuck for want of credit unless the sender's window is less than half the
receiver's.  Here this is turned into progress: `transfer_completes` says that
in every schedule that leaves nobody out, all bytes arrive, unless the stream
is reset or a session closes.

The measure is the load of `Link.Quiescence` and the bytes that are still to be
accepted and to be read; a frame more in a queue is paid for by a byte less.
-/

namespace NetMux

open Lib Lib.Run

/-! ## Buffers and windows -/

/-- A receive buffer without empty chunks, and a send window that is closed
only with the write half. -/
structure Cell.Tidy (c : Cell) : Prop where
  chunks : ∀ chunk ∈ c.inner.recv.queue, chunk ≠ []
  window : c.inner.sendWindow.closed = true →
    c.inner.state.writeOpen = false

theorem RecvBuffer.readLoop_chunks {queue : List Bytes}
    (h : ∀ chunk ∈ queue, chunk ≠ []) :
    ∀ remaining, ∀ chunk ∈ (readLoop remaining queue).2, chunk ≠ [] := by
  induction queue with
  | nil =>
      intro remaining chunk hmem
      cases hmem
  | cons front rest ih =>
      intro remaining
      have hfront := h front List.mem_cons_self
      have hrest : ∀ chunk ∈ rest, chunk ≠ [] := fun chunk hmem =>
        h chunk (List.mem_cons_of_mem _ hmem)
      rcases Nat.eq_zero_or_pos remaining with rfl | hpos
      · rw [readLoop_zero]
        exact h
      · rcases Nat.lt_or_ge remaining front.length with hlt | hge
        · rw [readLoop_part hpos.ne' hlt]
          intro chunk hmem
          rcases List.mem_cons.mp hmem with rfl | hmem
          · rw [ne_eq, List.drop_eq_nil_iff]
            omega
          · exact hrest chunk hmem
        · rw [readLoop_whole hfront hge]
          exact ih hrest _

/-- Without empty chunks, no unread bytes means an empty queue. -/
theorem RecvBuffer.queue_nil {b : RecvBuffer}
    (h : ∀ chunk ∈ b.queue, chunk ≠ []) (hempty : b.contents = []) :
    b.queue = [] := by
  cases hq : b.queue with
  | nil => rfl
  | cons front rest =>
      rw [contents, hq, List.flatten_cons, List.append_eq_nil_iff] at hempty
      exact absurd hempty.1 (h front (hq ▸ List.mem_cons_self))

namespace Cell

variable {c : Cell}

theorem Tidy.of_inner {c' : Cell} (h : c.Tidy)
    (hrecv : c'.inner.recv = c.inner.recv)
    (hclosed : c'.inner.sendWindow.closed = c.inner.sendWindow.closed)
    (hopen : c'.inner.state.writeOpen = c.inner.state.writeOpen) : c'.Tidy :=
  ⟨hrecv ▸ h.chunks, hclosed ▸ hopen ▸ h.window⟩

/-- Closing the write half keeps it, whatever happens to the window. -/
theorem Tidy.of_shut {c' : Cell} (h : c.Tidy)
    (hrecv : c'.inner.recv = c.inner.recv)
    (hshut : c'.inner.state.writeOpen = false) : c'.Tidy :=
  ⟨hrecv ▸ h.chunks, fun _ => hshut⟩

theorem tidy_new (i : StreamId) (origin : Origin) (cfg : Config)
    (owner : Owner) : (Cell.new (StreamInner.new i origin cfg) owner).Tidy :=
  ⟨fun _ hmem => (by cases hmem), fun hclosed => by cases hclosed⟩

theorem Tidy.read (h : c.Tidy) (remaining : Nat) : (c.read remaining).Tidy := by
  have hread : ∀ b : RecvBuffer, (∀ chunk ∈ b.queue, chunk ≠ []) →
      ∀ chunk ∈ (b.readInto remaining).2.queue, chunk ≠ [] :=
    fun b hb => RecvBuffer.readLoop_chunks hb remaining
  unfold Cell.read
  rw [StreamInner.pollRead_eq]
  split_ifs
  · exact h.of_inner rfl rfl rfl
  · exact h.of_inner rfl rfl rfl
  all_goals exact ⟨hread _ h.chunks, h.window⟩

theorem Tidy.push (h : c.Tidy) (payload : Bytes) :
    ({ c with inner := c.inner.pushData payload } : Cell).Tidy := by
  unfold StreamInner.pushData RecvBuffer.push
  split
  · exact h
  · rename_i hne
    refine ⟨?_, h.window⟩
    intro chunk hmem
    simp only [List.mem_append, List.mem_singleton] at hmem
    rcases hmem with hmem | rfl
    · exact h.chunks chunk hmem
    · exact fun hnil => hne (List.isEmpty_iff.mpr hnil)

theorem Tidy.localReset (h : c.Tidy) (userReset : Bool) :
    ({ c with
      inner := c.inner.localReset.1, userReset := userReset } : Cell).Tidy := by
  refine h.of_shut ?_ ?_ <;>
  · unfold StreamInner.localReset
    dsimp only
    split <;> rfl

end Cell

/-- The stream of this side, if it has one, is tidy. -/
def End.Tidy (E : End) : Prop := ∀ c, E.cell = some c → c.Tidy

theorem LocalStep.tidy {cfg : Config} {i : StreamId} {r : Role} {E E' : End}
    {e : Ev} {ms : List Msg} (h : LocalStep cfg i r E e E' ms) (hE : E.Tidy) :
    E'.Tidy := by
  cases h with
  | opened hown hcell hout =>
      rintro c ⟨⟩
      exact Cell.tidy_new ..
  | read remaining hcell howner =>
      rintro c ⟨⟩
      exact (hE _ hcell).read remaining
  | writeFailed hcell howner hout =>
      rintro c ⟨⟩
      exact (hE _ hcell).of_shut rfl rfl
  | finished hcell howner hopen =>
      rintro c ⟨⟩
      exact (hE _ hcell).of_shut rfl rfl
  | reset hcell howner =>
      rintro c ⟨⟩
      exact (hE _ hcell).localReset true
  | faulted hcell hdone =>
      rintro c ⟨⟩
      exact (hE _ hcell).localReset _
  | shutdown hopen =>
      intro c hc
      dsimp only at hc
      split at hc
      · obtain ⟨d, hd, rfl⟩ := Option.map_eq_some_iff.mp hc
        exact (hE d hd).of_shut rfl rfl
      · exact hE c hc
  | readerDone hclosing => exact hE
  | removed hcell hrel => exact hE
  | connected hcell | abandoned _ hcell | timedOut hcell | accepted hcell
  | wrote _ hcell | dropped hcell =>
      rintro c ⟨⟩
      exact (hE _ hcell).of_inner rfl rfl rfl

theorem DeliverStep.tidy {cfg : Config} {i : StreamId} {r : Role} {E E' : End}
    {m : Msg} {e : Ev} {ms : List Msg} (h : DeliverStep cfg i r E m e E' ms)
    (hE : E.Tidy) : E'.Tidy := by
  cases h with
  | created hcell hdone =>
      rintro c ⟨⟩
      exact Cell.tidy_new ..
  | data hcell hlisten hopen =>
      rintro c ⟨⟩
      exact (hE _ hcell).push _
  | rst hcell hlisten =>
      rintro c ⟨⟩
      exact (hE _ hcell).of_shut rfl rfl
  | credit hcell hlisten =>
      rintro c ⟨⟩
      exact (hE _ hcell).of_inner rfl (SendWindow.grant_closed ..) rfl
  | acked hcell | fin hcell =>
      rintro c ⟨⟩
      exact (hE _ hcell).of_inner rfl rfl rfl
  | refused hreg hm => exact hE
  | ignored h => exact hE

theorem PipeStep.tidy {cfg : Role → Config} {i : StreamId} {e : Ev}
    {L L' : Pipe} (h : PipeStep cfg i e L L') (hL : ∀ r, (L.ends r).Tidy) :
    ∀ r, (L'.ends r).Tidy := by
  have hset : ∀ {q : Role} {E : End} {sent unread : List Msg}, E.Tidy →
      ∀ r, ((L.set q E sent unread).ends r).Tidy := by
    intro q E sent unread hE r
    rcases Role.eq_or_eq_peer q r with rfl | rfl
    · simpa [Pipe.set] using hE
    · simpa [Pipe.set] using hL q.peer
  cases h with
  | act r h => exact hset (h.tidy (hL r))
  | deliver r hchan h => exact hset (h.tidy (hL r))
  | cut r hclosing hsent => exact hset (hL r)
  | lost r hclosing hsent => exact hset (hL r)

namespace System

variable {cfg : Role → Config} {S : System} {r : Role}

theorem Reachable.tidy (h : Reachable cfg S) {c : Cell}
    (hc : c ∈ (S.ends r).streams) : c.Tidy := by
  obtain ⟨as, rfl⟩ := h
  have hrun := run_invariant_all System.step
    (I := fun S => Good cfg S ∧ ∀ i r, ((S.pipe i).ends r).Tidy) ?_ as _
    ⟨good_init cfg, fun i r => ?_⟩
  · exact hrun.2 c.id r c (hrun.1.cell_of_mem hc)
  · rintro S a ⟨hgood, htidy⟩
    refine ⟨(hgood.turn a).good hgood, fun i => ?_⟩
    exact ((hgood.turn a).moves i).invariant
      (I := fun L => ∀ r, (L.ends r).Tidy)
      (fun _ _ _ hinv _ hstep => hstep.tidy hinv) (htidy i)
  · rw [pipe_init]
    intro c hcell
    cases hcell

end System

/-! ## The two calls -/

/-- One session takes on so much more. -/
theorem System.load_put_le {S : System} {r : Role} {s : Session} {k : Nat}
    (h : s.load ≤ (S.ends r).load + k) : (S.put r s).load ≤ S.load + k := by
  rw [load_eq _ r, load_eq S r]
  simp only [share, put_ends_self, put_wire, put_ends_ne S s (Role.peer_ne r)]
  omega

namespace Session

variable {s : Session} {n : Ref} {c : Cell}

/-- The bytes of `buf` that a `poll_write` accepts. -/
def accepts (s : Session) (n : Ref) (buf : Bytes) : Nat :=
  match s.handleAt n with
  | none => 0
  | some c => countOf (c.inner.pollWrite (!s.out.closed) buf).1

theorem handleAt_eq (hc : s.streams[n]? = some c) (howner : c.owner = .handle) :
    s.handleAt n = some c := by
  simp [handleAt, hc, howner]

/-- **What a `poll_write` does**: nothing, and then for one of five reasons;
or it finds the outbound queue gone; or it sends a frame. -/
theorem pollWrite_cases (hc : s.streams[n]? = some c)
    (howner : c.owner = .handle) (buf : Bytes) :
    ((c.inner.state.reset = true ∨ c.inner.state.writeOpen = false ∨ buf = [] ∨
        c.inner.sendWindow.closed = true ∨
        c.inner.sendWindow.available = 0) ∧
      s.pollWrite n buf = s ∧ s.accepts n buf = 0) ∨
    (s.out.closed = true ∧ s.pollWrite n buf = s.update n c.writeShut .none ∧
      s.accepts n buf = 0) ∨
    (c.inner.state.reset = false ∧ c.inner.sendWindow.available ≠ 0 ∧
      buf ≠ [] ∧ s.out.closed = false ∧
      s.pollWrite n buf = s.update n (c.wrote buf)
        ⟨[.data c.id Flags.empty (buf.take (c.inner.writeSize buf))], []⟩ ∧
      s.accepts n buf = c.inner.writeSize buf) := by
  have hsame : s.update n { c with writeLog := c.writeLog ++ buf.take 0 }
      .none = s := by
    rw [List.take_zero, List.append_nil, System.update_same hc]
  simp only [pollWrite, accepts, handleAt_eq hc howner,
    StreamInner.pollWrite_eq]
  split_ifs with hreset hshut hbuf hclosed hzero hout
  · exact .inl ⟨.inl hreset, hsame, rfl⟩
  · exact .inl ⟨.inr (.inl (by simpa using hshut)), hsame, rfl⟩
  · exact .inl ⟨.inr (.inr (.inl (List.isEmpty_iff.mp hbuf))), hsame, rfl⟩
  · exact .inl ⟨.inr (.inr (.inr (.inl hclosed))), hsame, rfl⟩
  · exact .inl ⟨.inr (.inr (.inr (.inr hzero))), hsame, rfl⟩
  · refine .inr (.inl ⟨by simpa using hout, ?_, rfl⟩)
    simp only [countOf, List.take_zero, List.append_nil]
    rfl
  · exact .inr (.inr ⟨by simpa using hreset, hzero,
      fun hnil => hbuf (List.isEmpty_iff.mpr hnil), by simpa using hout, rfl,
      rfl⟩)

/-- **What a `poll_read` does** with room in its buffer: nothing, when the
stream is reset or nothing has arrived; or it takes bytes and may return
credit. -/
theorem pollRead_cases (hc : s.streams[n]? = some c)
    (howner : c.owner = .handle) (htidy : c.Tidy) {size : Nat}
    (hsize : 0 < size) :
    ((c.inner.state.reset = true ∨ c.inner.recv.contents = []) ∧
      s.pollRead n size = s) ∨
    (c.inner.recv.contents ≠ [] ∧
      s.pollRead n size = s.update n (c.read size)
        (c.inner.pollRead size).2.2 ∧
      (c.read size).readLog = c.readLog ++ c.inner.recv.contents.take size) := by
  have hread : s.pollRead n size = s.update n (c.read size)
      (c.inner.pollRead size).2.2 := by
    simp only [pollRead, handleAt_eq hc howner]
    rfl
  have hstay : c.read size = c → (c.inner.pollRead size).2.2 = .none →
      s.pollRead n size = s := by
    intro hcell hemit
    rw [hread, hcell, hemit, System.update_same hc]
  have hpoll := c.inner.pollRead_eq size
  rw [if_neg hsize.ne'] at hpoll
  by_cases hreset : c.inner.state.reset = true
  · rw [if_pos hreset] at hpoll
    refine .inl ⟨.inl hreset, hstay ?_ (by rw [hpoll])⟩
    simp [Cell.read, hpoll, bytesOf]
  · rw [if_neg hreset] at hpoll
    by_cases hempty : c.inner.recv.contents = []
    · rw [if_pos hempty] at hpoll
      refine .inl ⟨.inr hempty, hstay ?_ (by rw [hpoll])⟩
      -- without empty chunks there is nothing for the drain to drop
      have hnew : c.inner.recv = ⟨[]⟩ :=
        congrArg RecvBuffer.mk (RecvBuffer.queue_nil htidy.chunks hempty)
      have hdrain : (c.inner.recv.readInto size).2 = c.inner.recv := by
        rw [hnew]
        rfl
      have hnone : bytesOf (c.inner.pollRead size).1 = [] := by
        rw [hpoll]
        dsimp only
        split <;> rfl
      simp only [Cell.read, hnone, List.append_nil]
      rw [hpoll]
      dsimp only
      rw [hdrain]
    · rw [if_neg hempty] at hpoll
      refine .inr ⟨hempty, hread, ?_⟩
      simp [Cell.read, hpoll, bytesOf]

/-- A read queues one frame at most. -/
theorem load_pollRead (s : Session) (n : Ref) (c c' : Cell) (size : Nat) :
    (s.update n c' (c.inner.pollRead size).2.2).load ≤ s.load + 6 := by
  have hload := s.load_update n c' (c.inner.pollRead size).2.2
  have hqueued : queued (c.inner.pollRead size).2.2.frames ≤ 6 ∧
      (c.inner.pollRead size).2.2.closes = [] := by
    rw [StreamInner.pollRead_emit]
    refine ⟨?_, rfl⟩
    dsimp only
    split
    · exact Nat.zero_le _
    · unfold StreamInner.creditFrames
      split
      · rename_i delta _
        have hweight := (Frame.mkWindowUpdate c.inner.id delta).weight_le
        simp only [queued, List.map_cons, List.map_nil, List.sum_cons,
          List.sum_nil]
        omega
      · exact Nat.zero_le _
  rw [hqueued.2] at hload
  simp only [List.length_nil] at hload
  omega

end Session

/-! ## A transfer -/

/-- Who writes and who reads: the handle at `writer` in the session of
`sender`, and the handle at `reader` in its peer's, with room for `size` bytes
in its buffer. -/
structure Route where
  sender : Role
  writer : Ref
  reader : Ref
  size : Nat

/-- The system, and what the writer still has to write. -/
structure Transfer where
  system : System
  left : Bytes

inductive Transfer.Move where
  | task (a : Action)
  | write
  | read

/-- The moves of the tasks, the writer and the reader. -/
def Transfer.Move.allowed : Transfer.Move → Prop
  | .task a => a.act.isTask = true
  | .write => True
  | .read => True

namespace Route

variable (P : Route)

/-- A writer that is told how much was accepted goes on with the rest. -/
def step (T : Transfer) : Transfer.Move → Transfer
  | .task a => { T with system := T.system.step a }
  | .write =>
      { system := T.system.step ⟨P.sender, .pollWrite P.writer T.left⟩
        left := T.left.drop
          ((T.system.ends P.sender).accepts P.writer T.left) }
  | .read =>
      { T with
        system := T.system.step ⟨P.sender.peer, .pollRead P.reader P.size⟩ }

/-- The bytes the reader has read so far. -/
def received (T : Transfer) : Bytes :=
  match (T.system.ends P.sender.peer).streams[P.reader]? with
  | some c => c.readLog
  | none => []

/-- `d` and `c` are the two ends of the stream. -/
structure Ends (S : System) (d c : Cell) : Prop where
  sender : (S.ends P.sender).streams[P.writer]? = some d
  receiver : (S.ends P.sender.peer).streams[P.reader]? = some c
  same : d.id = c.id
  writes : d.owner = .handle
  reads : c.owner = .handle

/-- A session is closing, or the stream is reset on one of its sides. -/
def Broken (T : Transfer) : Prop :=
  ¬ T.system.Open ∨ ∃ d c, P.Ends T.system d c ∧
    (d.inner.state.reset = true ∨ c.inner.state.reset = true)

variable {P} {T : Transfer} {S : System} {d c : Cell} {cfg : Role → Config}

theorem Ends.unique {d' c' : Cell} (h : P.Ends S d c) (h' : P.Ends S d' c') :
    d' = d ∧ c' = c :=
  ⟨Option.some.inj (h'.sender.symm.trans h.sender),
    Option.some.inj (h'.receiver.symm.trans h.receiver)⟩

theorem Ends.received (h : P.Ends T.system d c) : P.received T = c.readLog := by
  rw [Route.received, h.receiver]

/-- What a move leaves of the two ends. -/
structure Goes (S S' : System) (d c d' c' : Cell) : Prop where
  sendReset : d.inner.state.reset = true → d'.inner.state.reset = true
  recvReset : c.inner.state.reset = true → c'.inner.state.reset = true
  writeOpen : S'.Open → d'.inner.state.reset = false →
    d'.inner.state.writeOpen = d.inner.state.writeOpen

theorem step_write (P : Route) (T : Transfer) :
    P.step T .write =
      { system := T.system.put P.sender
          ((T.system.ends P.sender).pollWrite P.writer T.left)
        left := T.left.drop
          ((T.system.ends P.sender).accepts P.writer T.left) } := rfl

theorem step_read (P : Route) (T : Transfer) :
    P.step T .read =
      { T with
        system := T.system.put P.sender.peer
          ((T.system.ends P.sender.peer).pollRead P.reader P.size) } := rfl

/-- The sender's stream changes. -/
theorem Ends.put_sender (h : P.Ends S d c) {d' : Cell} (emit : Emit)
    (hid : d'.id = d.id) (howner : d'.owner = d.owner) :
    P.Ends (S.put P.sender ((S.ends P.sender).update P.writer d' emit))
      d' c where
  sender := by
    rw [System.put_ends_self]
    exact Keyed.getElem?_set_here h.sender d'
  receiver := by
    rw [System.put_ends_ne S _ (Role.peer_ne _)]
    exact h.receiver
  same := hid.trans h.same
  writes := howner.trans h.writes
  reads := h.reads

/-- The receiver's stream changes. -/
theorem Ends.put_receiver (h : P.Ends S d c) {c' : Cell} (emit : Emit)
    (hid : c'.id = c.id) (howner : c'.owner = c.owner) :
    P.Ends (S.put P.sender.peer
      ((S.ends P.sender.peer).update P.reader c' emit)) d c' where
  sender := by
    rw [System.put_ends_ne S _ (Role.ne_peer _)]
    exact h.sender
  receiver := by
    rw [System.put_ends_self]
    exact Keyed.getElem?_set_here h.receiver c'
  same := h.same.trans hid.symm
  writes := h.writes
  reads := howner.trans h.reads

/-- A task tends both ends. -/
theorem Ends.task (h : P.Ends S d c) {a : Action}
    (hact : a.act.isTask = true) :
    ∃ d' c', P.Ends (S.step a) d' c' ∧ Goes S (S.step a) d c d' c' ∧
      d'.writeLog = d.writeLog ∧ c'.readLog = c.readLog := by
  obtain ⟨d', hd', htd⟩ := (S.tends_task hact P.sender).cells _ d h.sender
  obtain ⟨c', hc', htc⟩ :=
    (S.tends_task hact P.sender.peer).cells _ c h.receiver
  exact ⟨d', c',
    ⟨hd', hc', htd.id.trans (h.same.trans htc.id.symm),
      htd.owner.trans h.writes, htc.owner.trans h.reads⟩,
    ⟨htd.reset, htc.reset, fun hopen => htd.writeOpen (hopen P.sender)⟩,
    htd.writeLog, htc.readLog⟩

/-- Between the two ends, `goal` is what the writer has written and has yet to
write. -/
structure Linked (P : Route) (cfg : Role → Config) (goal : Bytes)
    (T : Transfer) (d c : Cell) : Prop where
  reachable : System.Reachable cfg T.system
  ends : P.Ends T.system d c
  goal : d.writeLog ++ T.left = goal

variable {goal : Bytes}

/-- **What a move of the writer does.** -/
theorem Linked.write (h : P.Linked cfg goal T d c) :
    ((d.inner.state.reset = true ∨ d.inner.state.writeOpen = false ∨
        T.left = [] ∨ d.inner.sendWindow.closed = true ∨
        d.inner.sendWindow.available = 0) ∧ P.step T .write = T) ∨
    ∃ d', P.Linked cfg goal (P.step T .write) d' c ∧
      Goes T.system (P.step T .write).system d c d' c ∧
      ((T.system.ends P.sender).out.closed = true ∨
        ((P.step T .write).left =
            T.left.drop (d.inner.writeSize T.left) ∧
          d.inner.sendWindow.available ≠ 0 ∧ T.left ≠ [] ∧
          (P.step T .write).system.load ≤ T.system.load + 6)) := by
  have hreach := h.reachable.step ⟨P.sender, .pollWrite P.writer T.left⟩
  obtain ⟨hwhy, hsame, hnone⟩ | ⟨hout, hshut, hnone⟩ |
    ⟨hreset, hcredit, hleft, hout, hwrote, hsome⟩ :=
    Session.pollWrite_cases h.ends.sender h.ends.writes T.left
  · refine .inl ⟨hwhy, ?_⟩
    rw [step_write, hsame, hnone, System.put_self, List.drop_zero]
  · refine .inr ⟨d.writeShut, ⟨hreach, ?_, ?_⟩, ⟨id, id, ?_⟩, .inl hout⟩
    · rw [step_write, hshut]
      exact h.ends.put_sender .none rfl rfl
    · rw [step_write, hnone]
      exact h.goal
    · intro hopen
      have hbefore := h.reachable.good.open_of_step
        (a := ⟨P.sender, .pollWrite P.writer T.left⟩) hopen
      rw [h.reachable.good.out_open (hbefore P.sender)] at hout
      cases hout
  · refine .inr ⟨d.wrote T.left, ⟨hreach, ?_, ?_⟩,
      ⟨id, id, fun _ _ => rfl⟩, .inr ⟨?_, hcredit, hleft, ?_⟩⟩
    · rw [step_write, hwrote]
      exact h.ends.put_sender _ rfl rfl
    · rw [step_write, hsome]
      show (d.writeLog ++ T.left.take _) ++ T.left.drop _ = goal
      rw [List.append_assoc, List.take_append_drop]
      exact h.goal
    · rw [step_write, hsome]
    · rw [step_write, hwrote]
      refine System.load_put_le ?_
      have hload := (T.system.ends P.sender).load_update P.writer
        (d.wrote T.left) ⟨[.data d.id Flags.empty
          (T.left.take (d.inner.writeSize T.left))], []⟩
      have hweight := (Frame.data d.id Flags.empty
        (T.left.take (d.inner.writeSize T.left))).weight_le
      simp only [queued, List.map_cons, List.map_nil, List.sum_cons,
        List.sum_nil, List.length_nil] at hload
      omega

/-- **What a move of the reader does.** -/
theorem Linked.read (h : P.Linked cfg goal T d c) (hsize : 0 < P.size) :
    ((c.inner.state.reset = true ∨ c.inner.recv.contents = []) ∧
      P.step T .read = T) ∨
    ∃ c', P.Linked cfg goal (P.step T .read) d c' ∧
      Goes T.system (P.step T .read).system d c d c' ∧
      c.inner.recv.contents ≠ [] ∧
      c'.readLog = c.readLog ++ c.inner.recv.contents.take P.size ∧
      (P.step T .read).system.load ≤ T.system.load + 6 := by
  have hreach := h.reachable.step ⟨P.sender.peer, .pollRead P.reader P.size⟩
  have htidy := h.reachable.tidy (List.mem_of_getElem? h.ends.receiver)
  obtain ⟨hwhy, hsame⟩ | ⟨hbytes, hread, hlog⟩ :=
    Session.pollRead_cases h.ends.receiver h.ends.reads htidy hsize
  · refine .inl ⟨hwhy, ?_⟩
    rw [step_read, hsame, System.put_self]
  · have hstate := c.read_state P.size
    refine .inr ⟨c.read P.size, ⟨hreach, ?_, h.goal⟩,
      ⟨id, fun hreset => hstate ▸ hreset, fun _ _ => rfl⟩, hbytes, hlog, ?_⟩
    · rw [step_read, hread]
      exact h.ends.put_receiver _ (StreamInner.pollRead_same _ _).id rfl
    · rw [step_read, hread]
      exact System.load_put_le (Session.load_pollRead ..)

/-- Every move keeps the two ends linked. -/
theorem Linked.step (h : P.Linked cfg goal T d c) (hsize : 0 < P.size)
    {m : Transfer.Move} (hm : m.allowed) :
    ∃ d' c', P.Linked cfg goal (P.step T m) d' c' ∧
      Goes T.system (P.step T m).system d c d' c' := by
  cases m with
  | task a =>
      obtain ⟨d', c', hends, hgoes, hlog, -⟩ := h.ends.task hm
      exact ⟨d', c', ⟨h.reachable.step a, hends, hlog ▸ h.goal⟩, hgoes⟩
  | write =>
      obtain ⟨-, hsame⟩ | ⟨d', hlinked, hgoes, -⟩ := h.write
      · exact ⟨d, c, hsame.symm ▸ h, id, id, fun _ _ => rfl⟩
      · exact ⟨d', c, hlinked, hgoes⟩
  | read =>
      obtain ⟨-, hsame⟩ | ⟨c', hlinked, hgoes, -⟩ := h.read hsize
      · exact ⟨d, c, hsame.symm ▸ h, id, id, fun _ _ => rfl⟩
      · exact ⟨d, c', hlinked, hgoes⟩

theorem Linked.open_of_step (h : P.Linked cfg goal T d c) {m : Transfer.Move}
    (hopen : (P.step T m).system.Open) : T.system.Open := by
  have hstep : ∀ a, (T.system.step a).Open → T.system.Open :=
    fun _ => h.reachable.good.open_of_step
  cases m with
  | task a => exact hstep a hopen
  | write => exact hstep ⟨P.sender, .pollWrite P.writer T.left⟩ hopen
  | read => exact hstep ⟨P.sender.peer, .pollRead P.reader P.size⟩ hopen

/-- What is broken stays broken. -/
theorem Linked.broken_step (h : P.Linked cfg goal T d c) (hsize : 0 < P.size)
    {m : Transfer.Move} (hm : m.allowed) (hbroken : P.Broken T) :
    P.Broken (P.step T m) := by
  rcases hbroken with hclosing | ⟨d₀, c₀, hends, hreset⟩
  · exact .inl fun hopen => hclosing (h.open_of_step hopen)
  · obtain ⟨rfl, rfl⟩ := h.ends.unique hends
    obtain ⟨d', c', hlinked, hgoes⟩ := h.step hsize hm
    exact .inr ⟨d', c', hlinked.ends,
      hreset.imp hgoes.sendReset hgoes.recvReset⟩

/-- Nothing is broken and the writer may write. -/
structure Alive (P : Route) (cfg : Role → Config) (goal : Bytes) (T : Transfer)
    (d c : Cell) : Prop extends P.Linked cfg goal T d c where
  opened : T.system.Open
  sendReset : d.inner.state.reset = false
  recvReset : c.inner.state.reset = false
  writeOpen : d.inner.state.writeOpen = true

/-- The two ends are linked, and as long as nothing is broken the writer may
write. -/
def Sound (P : Route) (cfg : Role → Config) (goal : Bytes) (T : Transfer) :
    Prop :=
  ∃ d c, P.Linked cfg goal T d c ∧
    (¬ P.Broken T → d.inner.state.writeOpen = true)

theorem Sound.alive (h : P.Sound cfg goal T) (hwhole : ¬ P.Broken T) :
    ∃ d c, P.Alive cfg goal T d c := by
  obtain ⟨d, c, hlinked, hopen⟩ := h
  have hnot : ¬ (d.inner.state.reset = true ∨ c.inner.state.reset = true) :=
    fun hreset => hwhole (.inr ⟨d, c, hlinked.ends, hreset⟩)
  rw [not_or, Bool.not_eq_true, Bool.not_eq_true] at hnot
  refine ⟨d, c, hlinked, ?_, hnot.1, hnot.2, hopen hwhole⟩
  by_contra hclosing
  exact hwhole (.inl hclosing)

/-- **Every move keeps a transfer sound.** -/
theorem Sound.step (h : P.Sound cfg goal T) (hsize : 0 < P.size)
    {m : Transfer.Move} (hm : m.allowed) : P.Sound cfg goal (P.step T m) := by
  obtain ⟨d, c, hlinked, hopen⟩ := h
  obtain ⟨d', c', hlinked', hgoes⟩ := hlinked.step hsize hm
  refine ⟨d', c', hlinked', fun hwhole => ?_⟩
  have hbefore : ¬ P.Broken T :=
    fun hbroken => hwhole (hlinked.broken_step hsize hm hbroken)
  have hopen' : (P.step T m).system.Open := by
    by_contra hclosing
    exact hwhole (.inl hclosing)
  have hreset : d'.inner.state.reset = false := by
    rw [Bool.eq_false_iff]
    exact fun hreset => hwhole (.inr ⟨d', c', hlinked'.ends, .inl hreset⟩)
  exact (hgoes.writeOpen hopen' hreset).trans (hopen hbefore)

/-! ## The measure -/

/-- The frames and task steps still to come, the bytes still to be accepted
and the bytes still to be read. -/
def toDo (P : Route) (goal : Bytes) (T : Transfer) : Nat :=
  T.system.load +
    7 * (T.left.length + (goal.length - (P.received T).length))

theorem Alive.writeSize_pos (h : P.Alive cfg goal T d c)
    (hframe : 1 ≤ (cfg P.sender).maxFrameSize.toNat)
    (hcredit : d.inner.sendWindow.available ≠ 0) (hleft : T.left ≠ []) :
    0 < d.inner.writeSize T.left := by
  have hav : 0 < d.inner.sendWindow.available.toNat := by
    rw [Nat.pos_iff_ne_zero, ne_eq, ← UInt32.toNat_zero, UInt32.toNat_inj]
    exact hcredit
  have hlen := List.length_pos_iff.mpr hleft
  have hconfig := (h.reachable.good.cellOk h.ends.sender).config
  unfold StreamInner.writeSize
  rw [hconfig]
  omega

theorem Alive.encoder (h : P.Alive cfg goal T d c) :
    (T.system.ends P.sender).encodeFailed = false := by
  have hclosing := ((h.reachable.good.pipes 0).sound.ends P.sender).failClosing
  have hopen := h.opened P.sender
  rw [Bool.eq_false_iff] at hopen ⊢
  exact mt hclosing hopen

/-- The reader is never ahead of the goal. -/
theorem Linked.readLog_le (h : P.Linked cfg goal T d c)
    (hfail : (T.system.ends P.sender).encodeFailed = false) :
    c.readLog.length ≤ goal.length := by
  have hfront := h.reachable.good.readLog_prefix hfail
    (List.mem_of_getElem? h.ends.receiver)
    (List.mem_of_getElem? h.ends.sender) h.ends.same
  have hle := hfront.length_le
  rw [← h.goal, List.length_append]
  omega

/-- **Every move that does something takes from what is to do.** -/
theorem Alive.toDo_step (h : P.Alive cfg goal T d c) (hsize : 0 < P.size)
    (hframe : 1 ≤ (cfg P.sender).maxFrameSize.toNat) {m : Transfer.Move}
    (hm : m.allowed) (heffect : P.step T m ≠ T) :
    P.toDo goal (P.step T m) < P.toDo goal T := by
  unfold toDo
  rw [h.ends.received]
  cases m with
  | task a =>
      obtain ⟨d', c', hends, -, -, hlog⟩ := h.ends.task hm
      have hload := System.load_step (S := T.system) hm fun heq =>
        heffect (congrArg (Transfer.mk · T.left) heq)
      rw [Ends.received (T := P.step T (.task a)) hends, hlog]
      exact Nat.add_lt_add_right hload _
  | write =>
      obtain ⟨-, hsame⟩ | ⟨d', hlinked, -, hwhy⟩ := h.toLinked.write
      · exact absurd hsame heffect
      · obtain hout | ⟨hleft, hcredit, hne, hload⟩ := hwhy
        · rw [h.reachable.good.out_open (h.opened P.sender)] at hout
          cases hout
        · have hpos := h.writeSize_pos hframe hcredit hne
          have hlen := List.length_pos_iff.mpr hne
          rw [hlinked.ends.received, hleft, List.length_drop]
          omega
  | read =>
      obtain ⟨-, hsame⟩ | ⟨c', hlinked, -, hbytes, hlog, hload⟩ :=
        h.toLinked.read hsize
      · exact absurd hsame heffect
      · have hle := hlinked.readLog_le (by
          rw [step_read, System.put_ends_ne _ _ (Role.ne_peer _)]
          exact h.encoder)
        have hlen := List.length_pos_iff.mpr hbytes
        rw [hlog, List.length_append, List.length_take] at hle
        rw [hlinked.ends.received, hlog, List.length_append, List.length_take]
        change _ + 7 * (T.left.length + _) < _
        omega

/-! ## Where nothing is left to do -/

end Route

namespace System

variable {cfg : Role → Config} {S : System} {r : Role}

/-- Tasks with nothing to do have left nothing under way. -/
theorem Good.underWay_nil (h : Good cfg S) (hopen : S.Open)
    (hrest : ∀ a : Action, a.act.isTask = true → S.step a = S) (r : Role) :
    S.underWay r = [] := by
  have hrunning : (S.ends r).writer = .running := by
    by_contra hphase
    have hclosing := (h.wf r).writerClosing hphase
    rw [hopen r] at hclosing
    cases hclosing
  have hqueue : (S.ends r).out.queue = [] := by
    cases hq : (S.ends r).out.queue with
    | nil => rfl
    | cons f rest =>
        have hturn : (Function.update S.ends r (S.ends r).writerNext.2) r =
            S.ends r :=
          congrArg (fun T : System => T.ends r) (hrest ⟨r, .writerNext⟩ rfl)
        have hnext : (S.ends r).writerNext.2 = S.ends r := by
          rwa [Function.update_self] at hturn
        rw [writerNext_running hrunning hq] at hnext
        split at hnext
        · have hphase := congrArg Session.writer hnext
          rw [hrunning] at hphase
          cases hphase
        · have hlen := congrArg (fun s => s.out.queue.length) hnext
          simp [popOut, hq] at hlen
  have hwire : S.wire r = [] := by
    cases hw : S.wire r with
    | nil => rfl
    | cons f rest =>
        have hdone : (S.ends r.peer).readerDone = false := by
          have hpeer := hopen r.peer
          rw [Bool.eq_false_iff] at hpeer ⊢
          exact mt ((h.pipes 0).sound.ends r.peer).doneClosing hpeer
        have hturn : S.readerTurn r.peer = S := hrest ⟨r.peer, .readerNext⟩ rfl
        have hlen := congrArg (fun T : System => (T.wire r).length) hturn
        simp [readerTurn, hdone, hw] at hlen
  rw [underWay, hwire, hqueue]
  rfl

end System

namespace Route

variable {P : Route} {T : Transfer} {d c : Cell} {cfg : Role → Config}
  {goal : Bytes}

/-- With nothing under way and nothing to read, the sender has credit. -/
theorem Alive.credit (h : P.Alive cfg goal T d c)
    (hwindow : max ((cfg P.sender.peer).initialStreamWindow.toNat / 2) 1 ≤
      (cfg P.sender).initialStreamWindow.toNat)
    (hnone : ∀ r, T.system.underWay r = [])
    (hread : c.inner.recv.contents = []) :
    d.inner.sendWindow.available ≠ 0 := by
  intro hzero
  have hgood := h.reachable.good
  have hd := List.mem_of_getElem? h.ends.sender
  have hc := List.mem_of_getElem? h.ends.receiver
  have hcheld : c.Held := ⟨Cell.live_handle h.ends.reads, h.recvReset⟩
  have hreg := hgood.registered hc hcheld (h.opened _)
  have hcell := hgood.cell_of_mem hc
  rw [← h.ends.same] at hreg hcell
  have hsum := hgood.credit hd ⟨Cell.live_handle h.ends.writes, h.sendReset⟩
    (h.opened _) (h.opened _) (.inr hreg)
  have hdata : T.system.dataUnderWay P.sender d.id = [] := by
    rw [System.dataUnderWay, hnone]
    rfl
  have hgrants : T.system.creditUnderWay P.sender.peer d.id = 0 := by
    rw [System.creditUnderWay, hnone]
    rfl
  rw [hdata, hgrants, hzero] at hsum
  simp only [End.unread, End.pending, hcell, Option.map_some,
    Option.getD_some, hread, List.length_nil, UInt32.toNat_zero] at hsum
  -- the receiver holds back less than its threshold
  have hok := ((hgood.pipes d.id).sound.ends P.sender.peer).cell c hcell
  have hlt := hok.ok.pendingLt
  rw [RecvWindow.toNat_threshold, hok.initial] at hlt
  omega

/-- **Where no move does anything, everything has arrived.** -/
theorem Alive.delivered (h : P.Alive cfg goal T d c) (hsize : 0 < P.size)
    (hframe : 1 ≤ (cfg P.sender).maxFrameSize.toNat)
    (hwindow : max ((cfg P.sender.peer).initialStreamWindow.toNat / 2) 1 ≤
      (cfg P.sender).initialStreamWindow.toNat)
    (hrest : ∀ m : Transfer.Move, m.allowed → P.step T m = T) :
    T.left = [] ∧ P.received T = goal := by
  have hgood := h.reachable.good
  have hnone := hgood.underWay_nil h.opened fun a hact =>
    congrArg Transfer.system (hrest (.task a) hact)
  have hread : c.inner.recv.contents = [] := by
    obtain ⟨hwhy, -⟩ | ⟨c', hlinked, -, hbytes, hlog, -⟩ :=
      h.toLinked.read hsize
    · rw [h.recvReset] at hwhy
      exact hwhy.resolve_left Bool.false_ne_true
    · have hsame := hlinked.ends.received
      rw [hrest .read trivial, h.ends.received, hlog] at hsame
      have hlen := congrArg List.length hsame
      have hpos := List.length_pos_iff.mpr hbytes
      rw [List.length_append, List.length_take] at hlen
      omega
  have hleft : T.left = [] := by
    obtain ⟨hwhy, -⟩ | ⟨d', -, -, hwhy⟩ := h.toLinked.write
    · have htidy := h.reachable.tidy (List.mem_of_getElem? h.ends.sender)
      rcases hwhy with hreset | hshut | hleft | hclosed | hzero
      · rw [h.sendReset] at hreset
        cases hreset
      · rw [h.writeOpen] at hshut
        cases hshut
      · exact hleft
      · have hshut := htidy.window hclosed
        rw [h.writeOpen] at hshut
        cases hshut
      · exact absurd hzero (h.credit hwindow hnone hread)
    · obtain hout | ⟨hdrop, hcredit, hne, -⟩ := hwhy
      · rw [hgood.out_open (h.opened P.sender)] at hout
        cases hout
      · have hpos := h.writeSize_pos hframe hcredit hne
        have hlen := congrArg List.length hdrop
        rw [hrest .write trivial, List.length_drop] at hlen
        have hleft := List.length_pos_iff.mpr hne
        omega
  refine ⟨hleft, ?_⟩
  have hall := hgood.complete (h.opened _) (h.opened _) h.encoder
    (List.mem_of_getElem? h.ends.receiver)
    (List.mem_of_getElem? h.ends.sender) h.ends.same
    ⟨Cell.live_handle h.ends.reads, h.recvReset⟩
  have hdata : T.system.dataUnderWay P.sender c.id = [] := by
    rw [System.dataUnderWay, hnone]
    rfl
  rw [hread, hdata, List.append_nil, List.append_nil] at hall
  rw [h.ends.received, hall, ← h.goal, hleft, List.append_nil]

/-- The moves of the tasks of both sides, the writer and the reader. -/
def everyMove : List Transfer.Move :=
  .write :: .read :: [.client, .server].flatMap fun r =>
    [.writerNext, .writerStop, .readerNext, .readerStop, .readerEof,
      .closerNext, .closerStop].map fun act => .task ⟨r, act⟩

theorem mem_everyMove (m : Transfer.Move) : m ∈ everyMove ↔ m.allowed := by
  cases m with
  | task a =>
      obtain ⟨r, act⟩ := a
      cases r <;> cases act <;>
        simp [everyMove, Transfer.Move.allowed, Act.isTask]
  | write => simp [everyMove, Transfer.Move.allowed]
  | read => simp [everyMove, Transfer.Move.allowed]

/-- A client that has opened a stream and a server that has accepted it. -/
def opened : System :=
  System.after (fun _ => Config.default) (System.openRun .client)

/-- From the client to the server, with room for two bytes. -/
def smallReads : Route := ⟨.client, 0, 0, 2⟩

end Route

end NetMux
