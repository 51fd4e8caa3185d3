import NetMux.Link.Integrity

/-!
# When a stream stalls

Every session takes both of its windows from its own configuration, so the
sender may be given less credit than the receiver waits for before it returns
any.  `stalled_iff` says exactly for which windows two live handles can get
stuck.  One direction is a consequence of the conservation of credit; for the
other a run is constructed, round by round, for every pair of windows.
-/

namespace NetMux

open Lib Lib.Run

/-- A live handle of a stream that is neither reset nor write-closed. -/
def Cell.Writable (c : Cell) : Prop :=
  c.owner = .handle ∧ c.inner.state.reset = false ∧
    c.inner.state.writeOpen = true

instance (c : Cell) : Decidable c.Writable :=
  inferInstanceAs (Decidable (_ ∧ _))

theorem Cell.Writable.held {c : Cell} (h : c.Writable) : c.Held :=
  ⟨Cell.live_handle h.1, h.2.1⟩

namespace System

variable {cfg : Role → Config} {S : System} {r : Role}

/-- Stream `i` is stalled in the direction from `r` to its peer: both handles
are live and open, both sessions run, the sender has no credit, the receiver
has nothing to read, and no `Data` or `WindowUpdate` frame of the stream is
under way. -/
def Stalled (S : System) (r : Role) (i : StreamId) : Prop :=
  ∃ d ∈ (S.ends r).streams, ∃ c ∈ (S.ends r.peer).streams,
    d.id = i ∧ c.id = i ∧ d.Writable ∧ c.Writable ∧
    (S.ends r).isClosing = false ∧ (S.ends r.peer).isClosing = false ∧
    d.inner.sendWindow.available = 0 ∧ c.inner.recv.contents = [] ∧
    ∀ r', ∀ f ∈ S.underWay r', f.streamId? ≠ some i

/-- Without frames under way there are no bytes and no credit under way. -/
theorem underWay_none {i : StreamId}
    (h : ∀ f ∈ S.underWay r, f.streamId? ≠ some i) :
    S.dataUnderWay r i = [] ∧ S.creditUnderWay r i = 0 := by
  unfold dataUnderWay creditUnderWay
  constructor
  · rw [List.flatMap_eq_nil_iff]
    intro f hf
    have hne := h f hf
    cases f with
    | data id flags payload =>
        simp only [Frame.streamId?, ne_eq, Option.some.injEq] at hne
        simp [Frame.dataFor, hne]
    | _ => rfl
  · apply List.sum_eq_zero
    intro n hn
    obtain ⟨f, hf, rfl⟩ := List.mem_map.mp hn
    have hne := h f hf
    cases f with
    | windowUpdate id flags delta =>
        simp only [Frame.streamId?, ne_eq, Option.some.injEq] at hne
        simp [Frame.creditFor, hne]
    | _ => rfl

/-- In a stalled stream the receiver holds back all the credit there is. -/
theorem Good.stalled_lt (h : Good cfg S) {i : StreamId}
    (hstall : S.Stalled r i) :
    (cfg r).initialStreamWindow.toNat <
      max ((cfg r.peer).initialStreamWindow.toNat / 2) 1 := by
  obtain ⟨d, hd, c, hc, rfl, hid, hwd, hwc, hcl, hcl', hav, hun, hnone⟩ := hstall
  have hcell := h.cell_of_mem hc
  have hreg := h.registered hc hwc.held hcl'
  rw [hid] at hcell hreg
  have hsum := h.credit hd hwd.held hcl hcl' (.inr hreg)
  rw [(underWay_none (hnone r)).1, (underWay_none (hnone r.peer)).2, hav]
    at hsum
  simp only [End.unread, End.pending, hcell, Option.map_some,
    Option.getD_some, hun, List.length_nil, UInt32.toNat_zero] at hsum
  have hok := ((h.pipes d.id).sound.ends r.peer).cell c hcell
  have hlt := hok.ok.pendingLt
  rw [RecvWindow.toNat_threshold, hok.initial] at hlt
  omega

/-! ## Two sessions with empty wires -/

/-- Session `s` on the side of `r`, session `t` on the other. -/
def joined (r : Role) (s t : Session) : System where
  ends := Function.update (fun _ => t) r s
  wire := fun _ => []

section Joined

variable {s t s' t' : Session} {f : Frame}

@[simp] theorem joined_self : (joined r s t).ends r = s := by
  simp [joined]

@[simp] theorem joined_peer : (joined r s t).ends r.peer = t := by
  simp [joined]

theorem put_joined_self : (joined r s t).put r s' = joined r s' t := by
  simp [joined, put]

theorem put_joined_peer : (joined r s t).put r.peer t' = joined r s t' := by
  unfold joined put
  simp only [System.mk.injEq, and_true]
  funext r'
  rcases Role.eq_or_eq_peer r r' with rfl | rfl <;> simp

theorem init_eq_joined (cfg : Role → Config) (r : Role) :
    init cfg =
      joined r (Session.new (cfg r) r) (Session.new (cfg r.peer) r.peer) := by
  unfold joined init
  simp only [System.mk.injEq, and_true]
  funext r'
  rcases Role.eq_or_eq_peer r r' with rfl | rfl <;> simp

/-- One frame goes from `r` to its peer. -/
theorem pass_joined (hw : s.writerNext = (some f, s'))
    (hdone : t.readerDone = false) :
    ((joined r s t).writerTurn r).readerTurn r.peer =
      joined r s' (t.readerNext f) := by
  unfold writerTurn readerTurn joined
  simp only [Function.update_self, hw, Option.toList_some, List.nil_append,
    ne_eq, Role.peer_ne, not_false_eq_true, Function.update_of_ne, hdone,
    Bool.false_eq_true, if_false, Role.peer_peer, System.mk.injEq]
  constructor
  · funext r'
    rcases Role.eq_or_eq_peer r r' with rfl | rfl <;> simp
  · funext r'
    rcases Role.eq_or_eq_peer r r' with rfl | rfl <;> simp

/-- One frame comes back. -/
theorem reply_joined (hw : t.writerNext = (some f, t'))
    (hdone : s.readerDone = false) :
    ((joined r s t).writerTurn r.peer).readerTurn r =
      joined r (s.readerNext f) t' := by
  unfold writerTurn readerTurn joined
  simp only [ne_eq, Role.peer_ne, not_false_eq_true, Function.update_of_ne,
    hw, Option.toList_some, List.nil_append, Function.update_self,
    Role.ne_peer, hdone, Bool.false_eq_true, if_false, System.mk.injEq]
  constructor
  · funext r'
    rcases Role.eq_or_eq_peer r r' with rfl | rfl <;> simp
  · funext r'
    rcases Role.eq_or_eq_peer r r' with rfl | rfl <;> simp

end Joined

end System

/-! ## Messages between two sessions -/

namespace Session

variable {s : Session} {i : StreamId} {m : Msg}

/-- A message that fits is dispatched. -/
theorem readerNext_msg (hlen : m.payload.length ≤ s.codec.maxPayload.toNat) :
    s.readerNext (m.frame i) = settle (s.dispatch (m.frame i)) := by
  have hours : Frame.Ours s.codec.maxPayload.toNat false (m.frame i) :=
    .msg i m hlen
  have hle := hours.payloadLen_le
  rw [readerNext_eq s hours.flagsDefined
    (Nat.lt_of_le_of_lt hle s.codec.maxPayload.toNat_lt),
    if_neg (Nat.not_lt.mpr hle), System.normalize_frame]

/-- A message that fits goes onto the wire. -/
theorem writerNext_msg {rest : List Frame}
    (hlen : m.payload.length ≤ s.codec.maxPayload.toNat)
    (hrun : s.writer = .running) (hqueue : s.out.queue = m.frame i :: rest) :
    s.writerNext = (some (m.frame i), System.popOut s rest) := by
  have hours : Frame.Ours s.codec.maxPayload.toNat false (m.frame i) :=
    .msg i m hlen
  rw [System.writerNext_running hrun hqueue,
    if_neg (Nat.not_lt.mpr hours.payloadLen_le)]

end Session

/-! ## The rounds -/

namespace System

variable (cfg : Role → Config) (r : Role)

/-- The sender's stream after `k` rounds: `k` bytes of credit are spent. -/
def stallSendCell (cfg : Config) (i : StreamId) (k : Nat) : Cell where
  inner :=
    { StreamInner.new i .locally cfg with
      ackReceived := true
      sendWindow := ⟨cfg.initialStreamWindow - UInt32.ofNat k, false⟩ }
  owner := .handle
  readLog := []
  writeLog := List.replicate k 0
  userReset := false

/-- The receiver's stream after `k` rounds: `k` bytes are read and no credit
is returned. -/
def stallRecvCell (cfg : Config) (i : StreamId) (k : Nat) : Cell where
  inner :=
    { StreamInner.new i .remotely cfg with
      recvWindow := ⟨cfg.initialStreamWindow, UInt32.ofNat k⟩ }
  owner := .handle
  readLog := List.replicate k 0
  writeLog := []
  userReset := false

/-- The sender after `k` rounds. -/
def stallSender (k : Nat) : Session :=
  { Session.new (cfg r) r with
    idAlloc := ⟨r.firstId + 2⟩
    registry := AList.insert r.firstId 0 ∅
    streams := [stallSendCell (cfg r) r.firstId k] }

/-- The receiver after `k` rounds. -/
def stallReceiver (k : Nat) : Session :=
  { Session.new (cfg r.peer) r.peer with
    registry := AList.insert r.firstId 0 ∅
    streams := [stallRecvCell (cfg r.peer) r.firstId k] }

/-- The handshake. -/
def openRun : List Action :=
  [⟨r, .openStart⟩, ⟨r, .writerNext⟩, ⟨r.peer, .readerNext⟩,
    ⟨r.peer, .accept⟩, ⟨r.peer, .writerNext⟩, ⟨r, .readerNext⟩,
    ⟨r, .openPoll 0⟩]

/-- One round: a byte is written, sent, received and read. -/
def round : List Action :=
  [⟨r, .pollWrite 0 [0]⟩, ⟨r, .writerNext⟩, ⟨r.peer, .readerNext⟩,
    ⟨r.peer, .pollRead 0 1⟩]

/-- `k` rounds after the handshake. -/
def stallRun (k : Nat) : List Action :=
  openRun r ++ (List.replicate k (round r)).flatten

variable {cfg r}

/-- The stream of a pending `open()`, with its `SYN` in the queue. -/
def openedSession (cfg : Config) (r : Role) : Session :=
  { Session.new cfg r with
    idAlloc := ⟨r.firstId + 2⟩
    registry := AList.insert r.firstId 0 ∅
    streams := [Cell.new (StreamInner.new r.firstId .locally cfg) .opening]
    out := ⟨[Msg.syn.frame r.firstId], false⟩ }

theorem openStart_new {cfg : Config} (hmax : 1 ≤ cfg.maxStreams) :
    (Session.new cfg r).openStart = (.ok 0, openedSession cfg r) := by
  have halloc : (StreamIdAllocator.new r).allocate =
      some (r.firstId, ⟨r.firstId + 2⟩) := by
    cases r <;> decide
  have hins : StreamRegistry.insert ∅ r.firstId 0 =
      .ok (AList.insert r.firstId 0 ∅) := by
    simp [StreamRegistry.insert]
  have hlen : ¬ cfg.maxStreams ≤ StreamRegistry.len ∅ := by
    show ¬ cfg.maxStreams ≤ 0
    omega
  simp [Session.openStart, Session.new, halloc, hins, hlen, Chan.new,
    Chan.send, openedSession, Msg.frame]

/-- Either session finds the one stream of the connection. -/
theorem find_only {s : Session} {i : StreamId} {c : Cell}
    (hreg : s.registry = AList.insert i 0 ∅) (hs : s.streams = [c]) :
    s.find i = some (0, c) := by
  have hget : StreamRegistry.get (AList.insert i 0 ∅) i = some 0 :=
    AList.lookup_insert _
  unfold Session.find
  rw [hreg, hget, hs]
  rfl

/-- The peer accepts the `SYN` and queues its `ACK`. -/
theorem accept_new (hmax : 1 ≤ (cfg r.peer).maxStreams) :
    ((Session.new (cfg r.peer) r.peer).readerNext
        (Msg.syn.frame r.firstId)).acceptPoll.2 =
      { stallReceiver cfg r 0 with
        out := ⟨[Msg.ack.frame r.firstId], false⟩ } := by
  have hid : r.firstId ≠ 0 := by cases r <;> decide
  have hown : r.peer.owns r.firstId = false := by cases r <;> decide
  have hins : StreamRegistry.insert ∅ r.firstId 0 =
      .ok (AList.insert r.firstId 0 ∅) := by
    simp [StreamRegistry.insert]
  have hlen : ¬ (cfg r.peer).maxStreams ≤ StreamRegistry.len ∅ := by
    show ¬ (cfg r.peer).maxStreams ≤ 0
    omega
  rw [Session.readerNext_msg (Nat.zero_le _),
    Session.dispatch_syn_accepted hid hown rfl hlen rfl hins]
  rfl

/-- The `ACK` completes the `open()`. -/
theorem open_acked :
    (((popOut (openedSession (cfg r) r) []).readerNext
        (Msg.ack.frame r.firstId)).openPoll 0).2 = stallSender cfg r 0 := by
  have hid : r.firstId ≠ 0 := by cases r <;> decide
  have hfind : (popOut (openedSession (cfg r) r) []).find r.firstId =
      some (0, _) := find_only rfl rfl
  have hzero : (cfg r).initialStreamWindow - UInt32.ofNat 0 =
      (cfg r).initialStreamWindow := sub_zero _
  rw [Session.readerNext_msg (Nat.zero_le _),
    Session.dispatch_found hid hfind (by simp) (fun h => h.1 rfl)]
  unfold stallSender stallSendCell
  rw [hzero]
  rfl

/-- **After the handshake both sides have a handle** and nothing is under
way. -/
theorem after_openRun (hmax : ∀ r, 1 ≤ (cfg r).maxStreams) :
    after cfg (openRun r) =
      joined r (stallSender cfg r 0) (stallReceiver cfg r 0) := by
  have hopen : (init cfg).put r ((init cfg).ends r).openStart.2 =
      joined r (openedSession (cfg r) r)
        (Session.new (cfg r.peer) r.peer) := by
    rw [init_eq_joined cfg r, joined_self, openStart_new (hmax r),
      put_joined_self]
  have hsyn := pass_joined (r := r) (s := openedSession (cfg r) r)
    (t := Session.new (cfg r.peer) r.peer)
    (Session.writerNext_msg (Nat.zero_le _) rfl rfl) rfl
  have hack := reply_joined (r := r) (s := popOut (openedSession (cfg r) r) [])
    (t := { stallReceiver cfg r 0 with
      out := ⟨[Msg.ack.frame r.firstId], false⟩ })
    (Session.writerNext_msg (Nat.zero_le _) rfl rfl) rfl
  unfold after openRun
  simp only [run_cons, run_nil, step]
  rw [hopen, hsyn, joined_peer, accept_new (hmax r.peer), put_joined_peer,
    hack, joined_self, open_acked, put_joined_self]
  rfl

/-- One byte fits a frame. -/
theorem fits_one {cfg : Config} (hframe : 1 ≤ cfg.maxFrameSize.toNat) :
    1 ≤ (FrameCodec.new cfg.maxFrameSize).maxPayload.toNat := by
  have hlimit : 1 ≤ absoluteMaxPayload.toNat := by decide
  rw [FrameCodec.new_maxPayload]
  omega

/-- The sender's half of a round. -/
theorem write_round (hframe : ∀ r, 1 ≤ (cfg r).maxFrameSize.toNat) {k : Nat}
    (hk : k < (cfg r).initialStreamWindow.toNat) :
    (stallSender cfg r k).pollWrite 0 [0] =
      { stallSender cfg r (k + 1) with
        out := ⟨[(Msg.data [0]).frame r.firstId], false⟩ } := by
  have hmax := hframe r
  have hlt := (cfg r).initialStreamWindow.toNat_lt
  have hofNat : (UInt32.ofNat k).toNat = k :=
    UInt32.toNat_ofNat_of_lt' (by simp only [UInt32.size]; omega)
  have hsub : ((cfg r).initialStreamWindow - UInt32.ofNat k).toNat =
      (cfg r).initialStreamWindow.toNat - k := by
    rw [UInt32.toNat_sub_of_le _ _ (UInt32.le_iff_toNat_le.mpr (by omega)),
      hofNat]
  have hsize : min (min 1 (cfg r).maxFrameSize.toNat)
      ((cfg r).initialStreamWindow - UInt32.ofNat k).toNat = 1 := by
    omega
  have hne : (cfg r).initialStreamWindow - UInt32.ofNat k ≠ 0 := by
    rw [Ne, Word.eq_zero_iff]
    omega
  have hnext : (cfg r).initialStreamWindow - UInt32.ofNat k - 1 =
      (cfg r).initialStreamWindow - UInt32.ofNat (k + 1) := by
    rw [UInt32.ofNat_add, sub_sub]
    rfl
  have hlog : List.replicate k 0 ++ [(0 : UInt8)] =
      List.replicate (k + 1) 0 := List.replicate_succ'.symm
  have hcell : (stallSendCell (cfg r) r.firstId k).inner.pollWrite true [0] =
      (.ready (.ok 1), (stallSendCell (cfg r) r.firstId (k + 1)).inner,
        ⟨[(Msg.data [0]).frame r.firstId], []⟩) := by
    rw [StreamInner.pollWrite_eq]
    simp [stallSendCell, StreamInner.new, StreamState.new, hne, hsize, hnext,
      StreamInner.writeSize, Msg.frame]
  show Session.update _ 0 { stallSendCell (cfg r) r.firstId k with
    inner := ((stallSendCell (cfg r) r.firstId k).inner.pollWrite true [0]).2.1
    writeLog := List.replicate k 0 ++ List.take (Session.countOf
      ((stallSendCell (cfg r) r.firstId k).inner.pollWrite true [0]).1) [0] }
    ((stallSendCell (cfg r) r.firstId k).inner.pollWrite true [0]).2.2 = _
  rw [hcell]
  show Session.update _ 0 { stallSendCell (cfg r) r.firstId k with
    inner := (stallSendCell (cfg r) r.firstId (k + 1)).inner
    writeLog := List.replicate k 0 ++ [0] } _ = _
  rw [hlog]
  rfl

/-- Below the threshold no credit is returned. -/
theorem consume_one {window : UInt32} {k : Nat}
    (hth : k + 1 < max (window.toNat / 2) 1) :
    (RecvWindow.mk window (UInt32.ofNat k)).onConsume 1 =
      (none, ⟨window, UInt32.ofNat (k + 1)⟩) := by
  have hlt := window.toNat_lt
  have hofNat : (UInt32.ofNat k).toNat = k :=
    UInt32.toNat_ofNat_of_lt' (by simp only [UInt32.size]; omega)
  have hsum : (UInt32.ofNat k).toNat + (1 : UInt32).toNat < 2 ^ 32 := by
    rw [hofNat]
    show k + 1 < _
    omega
  have hbelow : ¬ (RecvWindow.mk window (UInt32.ofNat k)).threshold ≤
      UInt32.ofNat k + 1 := by
    rw [UInt32.le_iff_toNat_le, RecvWindow.toNat_threshold,
      Word.toNat_add_of_lt hsum, hofNat]
    show ¬ max (window.toNat / 2) 1 ≤ k + 1
    omega
  unfold RecvWindow.onConsume
  rw [if_neg (by decide)]
  dsimp only
  rw [Word.saturatingAdd_eq_add hsum, if_neg hbelow, UInt32.ofNat_add]
  rfl

/-- The receiver's half of a round. -/
theorem read_round (hframe : ∀ r, 1 ≤ (cfg r).maxFrameSize.toNat) {k : Nat}
    (hth : k + 1 < max ((cfg r.peer).initialStreamWindow.toNat / 2) 1) :
    ((stallReceiver cfg r k).readerNext
        ((Msg.data [0]).frame r.firstId)).pollRead 0 1 =
      stallReceiver cfg r (k + 1) := by
  have hid : r.firstId ≠ 0 := by cases r <;> decide
  have hfind : (stallReceiver cfg r k).find r.firstId = some (0, _) :=
    find_only rfl rfl
  have hlate : ¬ Session.tooLate (stallRecvCell (cfg r.peer) r.firstId k).inner
      (.data [0]) := fun h => by cases h.2
  have hlog : List.replicate k 0 ++ [(0 : UInt8)] =
      List.replicate (k + 1) 0 := List.replicate_succ'.symm
  have hcell : (Session.hear (stallRecvCell (cfg r.peer) r.firstId k)
      (.data [0])).inner.pollRead 1 =
        (.ready (.ok [0]), (stallRecvCell (cfg r.peer) r.firstId (k + 1)).inner,
          .none) := by
    rw [StreamInner.pollRead_eq]
    simp [stallRecvCell, Session.hear, Session.applyMsg, StreamInner.pushData,
      StreamInner.new, StreamState.new, RecvBuffer.push, RecvBuffer.new,
      RecvBuffer.contents, RecvBuffer.readInto, RecvBuffer.readLoop,
      consume_one hth, StreamInner.creditFrames, Emit.none]
  rw [Session.readerNext_msg (m := .data [0]) (fits_one (hframe r.peer)),
    Session.dispatch_found hid hfind (by simp) hlate]
  show Session.update _ 0 { stallRecvCell (cfg r.peer) r.firstId k with
    inner := ((Session.hear (stallRecvCell (cfg r.peer) r.firstId k)
      (.data [0])).inner.pollRead 1).2.1
    readLog := List.replicate k 0 ++ bytesOf ((Session.hear
      (stallRecvCell (cfg r.peer) r.firstId k)
      (.data [0])).inner.pollRead 1).1 }
    ((Session.hear (stallRecvCell (cfg r.peer) r.firstId k)
      (.data [0])).inner.pollRead 1).2.2 = _
  rw [hcell]
  show Session.update _ 0 { stallRecvCell (cfg r.peer) r.firstId k with
    inner := (stallRecvCell (cfg r.peer) r.firstId (k + 1)).inner
    readLog := List.replicate k 0 ++ [0] } _ = _
  rw [hlog]
  rfl

/-- One round spends one byte of credit. -/
theorem run_round (hframe : ∀ r, 1 ≤ (cfg r).maxFrameSize.toNat) {k : Nat}
    (hk : k < (cfg r).initialStreamWindow.toNat)
    (hth : k + 1 < max ((cfg r.peer).initialStreamWindow.toNat / 2) 1) :
    run step (joined r (stallSender cfg r k) (stallReceiver cfg r k))
        (round r) =
      joined r (stallSender cfg r (k + 1)) (stallReceiver cfg r (k + 1)) := by
  have hpass := pass_joined (r := r)
    (s := { stallSender cfg r (k + 1) with
      out := ⟨[(Msg.data [0]).frame r.firstId], false⟩ })
    (t := stallReceiver cfg r k)
    (Session.writerNext_msg (m := .data [0]) (fits_one (hframe r)) rfl rfl) rfl
  unfold round
  simp only [run_cons, run_nil, step]
  rw [joined_self, write_round hframe hk, put_joined_self, hpass, joined_peer,
    read_round hframe hth, put_joined_peer]
  rfl

/-- The state after any number of rounds the credit lasts for. -/
theorem after_stallRun (hcfg : ∀ r, (cfg r).Built)
    (hth : (cfg r).initialStreamWindow.toNat <
      max ((cfg r.peer).initialStreamWindow.toNat / 2) 1) (k : Nat)
    (hk : k ≤ (cfg r).initialStreamWindow.toNat) :
    after cfg (stallRun r k) =
      joined r (stallSender cfg r k) (stallReceiver cfg r k) := by
  have hbuilt := fun r => (Config.built_iff (cfg r)).mp (hcfg r)
  induction k with
  | zero =>
      unfold stallRun
      rw [List.replicate_zero, List.flatten_nil, List.append_nil]
      exact after_openRun fun r => (hbuilt r).2.2
  | succ k ih =>
      have hrun : stallRun r (k + 1) = stallRun r k ++ round r := by
        unfold stallRun
        rw [List.replicate_succ', List.flatten_append, List.flatten_singleton,
          List.append_assoc]
      have hih := ih (by omega)
      unfold after at hih ⊢
      rw [hrun, run_append, hih]
      exact run_round (fun r => (hbuilt r).2.1) (by omega) (by omega)

/-- The rounds end in a stalled stream. -/
theorem stalled_stallRun :
    (joined r (stallSender cfg r (cfg r).initialStreamWindow.toNat)
      (stallReceiver cfg r (cfg r).initialStreamWindow.toNat)).Stalled r
        r.firstId := by
  refine ⟨_, by rw [joined_self]; exact List.mem_singleton.mpr rfl, _,
    by rw [joined_peer]; exact List.mem_singleton.mpr rfl, rfl, rfl,
    ⟨rfl, rfl, rfl⟩, ⟨rfl, rfl, rfl⟩, by rw [joined_self]; rfl,
    by rw [joined_peer]; rfl, ?_, rfl, ?_⟩
  · show (cfg r).initialStreamWindow -
      UInt32.ofNat (cfg r).initialStreamWindow.toNat = 0
    rw [UInt32.ofNat_toNat, sub_self]
  · intro r' f hf
    have hnil : (joined r (stallSender cfg r (cfg r).initialStreamWindow.toNat)
        (stallReceiver cfg r (cfg r).initialStreamWindow.toNat)).underWay r' =
          [] := by
      unfold underWay
      rcases Role.eq_or_eq_peer r r' with rfl | rfl
      · rw [joined_self]
        rfl
      · rw [joined_peer]
        rfl
    rw [hnil] at hf
    cases hf

/-- **Exactly when a stream can stall**: two live handles can get stuck in
the direction from `r` to its peer if and only if the sender's window is
smaller than half the receiver's, rounded down but at least one.  In
particular sessions with equal windows never stall. -/
theorem stalled_iff (hcfg : ∀ r, (cfg r).Built) (r : Role) :
    ((∃ S, Reachable cfg S ∧ ∃ i, S.Stalled r i) ↔
      (cfg r).initialStreamWindow.toNat <
        max ((cfg r.peer).initialStreamWindow.toNat / 2) 1) ∧
    ((cfg r).initialStreamWindow = (cfg r.peer).initialStreamWindow →
      ∀ S, Reachable cfg S → ∀ i, ¬ S.Stalled r i) := by
  have hpos := ((Config.built_iff (cfg r)).mp (hcfg r)).1
  refine ⟨⟨?_, fun hlt => ?_⟩, ?_⟩
  · rintro ⟨S, hS, i, hstall⟩
    exact hS.good.stalled_lt hstall
  · refine ⟨_, ⟨stallRun r (cfg r).initialStreamWindow.toNat, rfl⟩, r.firstId,
      ?_⟩
    rw [after_stallRun hcfg hlt _ (Nat.le_refl _)]
    exact stalled_stallRun
  · intro heq S hS i hstall
    have hlt := hS.good.stalled_lt hstall
    rw [← heq] at hlt
    omega

/-- A client with a window of one byte and a server with four. -/
def narrow : Role → Config
  | .client => { Config.default with initialStreamWindow := 1 }
  | .server => { Config.default with initialStreamWindow := 4 }

theorem stalled_iff_narrow :
    (∃ S, Reachable narrow S ∧ ∃ i, S.Stalled .client i) ∧
      ¬ ∃ S, Reachable narrow S ∧ ∃ i, S.Stalled .server i := by
  have hbuilt : ∀ r, (narrow r).Built := by
    intro r
    rw [Config.built_iff]
    cases r <;> decide
  have hserver := (stalled_iff hbuilt .server).1
  exact ⟨(stalled_iff hbuilt .client).1.mpr (by decide),
    fun hstall => absurd (hserver.mp hstall) (by decide)⟩

end System

end NetMux
