import NetMux.Config
import NetMux.Flow.Window
import NetMux.Stream.Recv

/-!
# Internal shared state of a stream

Every operation of `StreamInner` is one call run without interference.  It
takes the stream and returns the stream afterwards together with an `Emit`:
the frames it hands to the outbound queue and the ids it hands to the closer
queue, in order.  Whether the outbound queue still has a receiver is an
argument of the one operation that asks, `pollWrite`.
-/

namespace NetMux

/-! ## Stream state -/

/-- Read/write state of a stream: three independent boolean axes. -/
structure StreamState where
  readOpen : Bool
  writeOpen : Bool
  reset : Bool
  deriving DecidableEq, Repr

namespace StreamState

def new : StreamState := ⟨true, true, false⟩

/-- Close the read half; true the first time it transitions. -/
def closeRead (s : StreamState) : Bool × StreamState :=
  (s.readOpen, { s with readOpen := false })

/-- Close the write half; true the first time it transitions. -/
def closeWrite (s : StreamState) : Bool × StreamState :=
  (s.writeOpen, { s with writeOpen := false })

/-- Mark the stream as reset and close both halves; true the first time the
reset bit transitions. -/
def markReset (s : StreamState) : Bool × StreamState :=
  (!s.reset, ⟨false, false, true⟩)

end StreamState

/-- Whether the stream was created locally (and owes a `SYN`) or remotely
(and owes an `ACK`). -/
inductive Origin where
  | locally
  | remotely
  deriving DecidableEq, Repr

/-- What an operation hands to the outbound queue and to the closer queue. -/
structure Emit where
  frames : List Frame
  closes : List StreamId
  deriving DecidableEq, Repr

namespace Emit

def none : Emit := ⟨[], []⟩

/-- First one operation's output, then another's. -/
def append (a b : Emit) : Emit := ⟨a.frames ++ b.frames, a.closes ++ b.closes⟩

end Emit

/-- The result of polling once. -/
inductive Poll (α : Type) where
  | ready (a : α)
  | pending
  deriving DecidableEq, Repr

/-- The bytes a finished read returned. -/
def bytesOf : Poll (Except IoError Bytes) → Bytes
  | .ready (.ok bytes) => bytes
  | _ => []

/-- State shared between the user's handle and the session's registry. -/
structure StreamInner where
  id : StreamId
  config : Config
  state : StreamState
  sendWindow : SendWindow
  recvWindow : RecvWindow
  recv : RecvBuffer
  ackReceived : Bool
  finSent : Bool
  deriving DecidableEq, Repr

namespace StreamInner

/-- Both windows come from the local configuration.  Streams created in
response to a peer SYN are immediately established. -/
def new (id : StreamId) (origin : Origin) (config : Config) : StreamInner where
  id := id
  config := config
  state := StreamState.new
  sendWindow := SendWindow.new config.initialStreamWindow
  recvWindow := RecvWindow.new config.initialStreamWindow
  recv := RecvBuffer.new
  ackReceived := origin == .remotely
  finSent := false

/-- Whether the inbound half is still open. -/
def canRecv (s : StreamInner) : Bool := s.state.readOpen && !s.state.reset

/-! ## Inbound dispatch -/

/-- Append a payload chunk delivered by the peer. -/
def pushData (s : StreamInner) (payload : Bytes) : StreamInner :=
  if payload.isEmpty then s else { s with recv := s.recv.push payload }

/-- Mark that the peer will send no further data. -/
def remoteFin (s : StreamInner) : StreamInner :=
  { s with state := s.state.closeRead.2 }

/-- Apply a peer-initiated reset. -/
def remoteReset (s : StreamInner) : StreamInner × Emit :=
  ({ s with state := s.state.markReset.2, sendWindow := s.sendWindow.close },
    ⟨[], [s.id]⟩)

/-- Increase send credit by `delta`. -/
def grantSendCredit (s : StreamInner) (delta : UInt32) : StreamInner :=
  { s with sendWindow := s.sendWindow.grant delta }

/-- Mark the local stream as ACKed. -/
def markAcked (s : StreamInner) : StreamInner := { s with ackReceived := true }

/-- One poll of the wait for the peer's ACK. -/
def waitAcked (s : StreamInner) : Poll (Except Error Unit) :=
  if s.ackReceived then .ready (.ok ())
  else if s.state.reset then .ready (.error (.streamReset s.id))
  else if !s.state.writeOpen then .ready (.error .sessionClosed)
  else .pending

/-- Force the stream into a session-closed state. -/
def forceClose (s : StreamInner) : StreamInner :=
  { s with
    state := s.state.closeRead.2.closeWrite.2
    sendWindow := s.sendWindow.close }

/-! ## Outbound -/

def resetError : IoError := ⟨.connectionReset, "stream reset"⟩

/-- One pass of the loop of `poll_read`; `none` means `continue`. -/
def pollReadPass (s : StreamInner) (remaining : Nat) :
    Option (Poll (Except IoError Bytes)) × StreamInner × Emit :=
  if s.state.reset then (some (.ready (.error resetError)), s, .none)
  else
    let (consumed, recv) := s.recv.readInto remaining
    let s := { s with recv := recv }
    if 0 < consumed.length then
      let (delta, window) :=
        s.recvWindow.onConsume (UInt32.ofNat consumed.length)
      let s := { s with recvWindow := window }
      match delta with
      | some delta =>
          (some (.ready (.ok consumed)), s,
            ⟨[.mkWindowUpdate s.id delta], []⟩)
      | none => (some (.ready (.ok consumed)), s, .none)
    else if !s.state.readOpen then (some (.ready (.ok [])), s, .none)
    else if !s.recv.isEmpty then (none, s, .none)
    else if !s.state.readOpen || s.state.reset then (none, s, .none)
    else (some .pending, s, .none)

/-- The loop of `poll_read`, cut off after `fuel` passes. -/
def pollReadLoop (s : StreamInner) (remaining : Nat) :
    Nat → Poll (Except IoError Bytes) × StreamInner × Emit
  | 0 => (.pending, s, .none)
  | fuel + 1 =>
      match s.pollReadPass remaining with
      | (some result, s', emit) => (result, s', emit)
      | (none, s', _) => pollReadLoop s' remaining fuel

/-- Read into a buffer with `remaining` bytes of capacity.  The result
carries the bytes put into the buffer. -/
def pollRead (s : StreamInner) (remaining : Nat) :
    Poll (Except IoError Bytes) × StreamInner × Emit :=
  if remaining = 0 then (.ready (.ok []), s, .none)
  else s.pollReadLoop remaining 2

/-- Send up to one frame's worth of `buf`.  `outOpen` says whether the
outbound queue still has a receiver. -/
def pollWrite (s : StreamInner) (outOpen : Bool) (buf : Bytes) :
    Poll (Except IoError Nat) × StreamInner × Emit :=
  if s.state.reset then (.ready (.error resetError), s, .none)
  else if !s.state.writeOpen then
    (.ready (.error ⟨.brokenPipe, "write half closed"⟩), s, .none)
  else if buf.isEmpty then (.ready (.ok 0), s, .none)
  else
    let maxFrame := s.config.maxFrameSize.toNat
    let want := min buf.length maxFrame
    let want := UInt32.ofNat (min want (2 ^ 32 - 1))
    match s.sendWindow.pollAcquire want with
    | (.closed, window) =>
        (.ready (.error ⟨.brokenPipe, "send window closed"⟩),
          { s with sendWindow := window }, .none)
    | (.pending, window) => (.pending, { s with sendWindow := window }, .none)
    | (.acquired n, window) =>
        let s := { s with sendWindow := window }
        if !outOpen then
          (.ready (.error ⟨.brokenPipe, "session is shutting down"⟩),
            { s with
              sendWindow := s.sendWindow.grant n
              state := s.state.closeWrite.2 }, .none)
        else
          (.ready (.ok n.toNat), s,
            ⟨[.data s.id Flags.empty (buf.take n.toNat)], []⟩)

/-- Send a `FIN` frame and close the write half. -/
def localFin (s : StreamInner) : StreamInner × Emit :=
  if s.state.reset then (s, .none)
  else
    let (first, state) := s.state.closeWrite
    let s := { s with state := state }
    if !first then (s, .none)
    else if s.finSent then (s, .none)
    else ({ s with finSent := true }, ⟨[.fin s.id], []⟩)

/-- Send a `RST` frame and tear the stream down. -/
def localReset (s : StreamInner) : StreamInner × Emit :=
  let (first, state) := s.state.markReset
  let s := { s with state := state }
  if !first then (s, .none)
  else
    let frames := if s.finSent then [] else [.rst s.id]
    ({ s with finSent := true, sendWindow := s.sendWindow.close },
      ⟨frames, [s.id]⟩)

/-- Called when the handle is dropped: a graceful `FIN` if the write half is
still open, then a removal request. -/
def onUserDrop (s : StreamInner) : StreamInner × Emit :=
  if s.state.writeOpen && !s.state.reset then
    let (s', emit) := s.localFin
    (s', emit.append ⟨[], [s.id]⟩)
  else (s, ⟨[], [s.id]⟩)

/-! ## What the operations do

One equation for each of the two polling operations, with the windows and
the buffer replaced by their specifications.
-/

/-- The update frame for credit being returned, if any. -/
def creditFrames (id : StreamId) : Option UInt32 → List Frame
  | some delta => [.mkWindowUpdate id delta]
  | none => []

/-- A pass of `poll_read` never continues when nothing interferes: bytes the
drain did not see cannot have arrived. -/
private theorem pollReadPass_eq (s : StreamInner) (remaining : Nat)
    (hpos : remaining ≠ 0) :
    s.pollReadPass remaining =
      if s.state.reset then (some (.ready (.error resetError)), s, .none)
      else if s.recv.contents = [] then
        (some (if s.state.readOpen then .pending else .ready (.ok [])),
          { s with recv := (s.recv.readInto remaining).2 }, .none)
      else
        let bytes := s.recv.contents.take remaining
        let consumed := s.recvWindow.onConsume (UInt32.ofNat bytes.length)
        (some (.ready (.ok bytes)),
          { s with
            recv := (s.recv.readInto remaining).2
            recvWindow := consumed.2 },
          ⟨creditFrames s.id consumed.1, []⟩) := by
  have hfst := RecvBuffer.readInto_fst s.recv remaining
  have hsnd := RecvBuffer.readInto_contents s.recv remaining
  unfold pollReadPass
  by_cases hreset : s.state.reset = true
  · simp [hreset]
  · simp only [hreset]
    by_cases hempty : s.recv.contents = []
    · have hout : (s.recv.readInto remaining).1 = [] := by
        rw [hfst, hempty, List.take_nil]
      have hleft : (s.recv.readInto remaining).2.isEmpty = true := by
        rw [RecvBuffer.isEmpty_iff, hsnd, hempty, List.drop_nil]
      by_cases hopen : s.state.readOpen = true
      · simp [hout, hleft, hempty, hopen]
      · simp [hout, hempty, hopen]
    · have hout : 0 < (s.recv.contents.take remaining).length := by
        have hlen := List.length_pos_iff.mpr hempty
        rw [List.length_take]
        omega
      simp only [hfst, hempty, if_false, if_pos hout, Bool.false_eq_true]
      cases (s.recvWindow.onConsume
        (UInt32.ofNat (s.recv.contents.take remaining).length)).1 with
      | none => rfl
      | some delta => rfl

/-- **What a read does.**  A reset stream fails; otherwise the front of the
contents is returned, as much as fits, and the credit for it is recorded.
With no contents the read waits, or reports the end once the read half is
closed. -/
theorem pollRead_eq (s : StreamInner) (remaining : Nat) :
    s.pollRead remaining =
      if remaining = 0 then (.ready (.ok []), s, .none)
      else if s.state.reset then (.ready (.error resetError), s, .none)
      else if s.recv.contents = [] then
        (if s.state.readOpen then .pending else .ready (.ok []),
          { s with recv := (s.recv.readInto remaining).2 }, .none)
      else
        let bytes := s.recv.contents.take remaining
        let consumed := s.recvWindow.onConsume (UInt32.ofNat bytes.length)
        (.ready (.ok bytes),
          { s with
            recv := (s.recv.readInto remaining).2
            recvWindow := consumed.2 },
          ⟨creditFrames s.id consumed.1, []⟩) := by
  unfold pollRead
  by_cases hpos : remaining = 0
  · rw [if_pos hpos, if_pos hpos]
  · rw [if_neg hpos, if_neg hpos, pollReadLoop, pollReadPass_eq s _ hpos]
    by_cases hreset : s.state.reset = true
    · simp [hreset]
    · by_cases hempty : s.recv.contents = []
      · simp [hreset, hempty]
      · simp [hreset, hempty]

/-- What a read emits: the credit it returns, if it returns bytes. -/
theorem pollRead_emit (s : StreamInner) (remaining : Nat) :
    (s.pollRead remaining).2.2 =
      ⟨if remaining = 0 ∨ s.state.reset = true ∨ s.recv.contents = [] then []
        else creditFrames s.id (s.recvWindow.onConsume (UInt32.ofNat
          (s.recv.contents.take remaining).length)).1, []⟩ := by
  rw [pollRead_eq]
  by_cases hpos : remaining = 0
  · simp [hpos, Emit.none]
  · by_cases hreset : s.state.reset = true
    · simp [hpos, hreset, Emit.none]
    · by_cases hempty : s.recv.contents = []
      · simp [hpos, hreset, hempty, Emit.none]
      · simp [hpos, hreset, hempty]

/-- The number of bytes a write can send at once. -/
def writeSize (s : StreamInner) (buf : Bytes) : Nat :=
  min (min buf.length s.config.maxFrameSize.toNat)
    s.sendWindow.available.toNat

/-- The credit a write acquires is its size. -/
private theorem acquired_eq (s : StreamInner) (buf : Bytes) :
    min s.sendWindow.available (UInt32.ofNat
        (min (min buf.length s.config.maxFrameSize.toNat) (2 ^ 32 - 1))) =
      UInt32.ofNat (s.writeSize buf) := by
  have hmax := s.config.maxFrameSize.toNat_lt
  have hav := s.sendWindow.available.toNat_lt
  rw [← UInt32.toNat_inj, UInt32.toNat_min, UInt32.toNat_ofNat',
    UInt32.toNat_ofNat', writeSize]
  omega

theorem toNat_writeSize (s : StreamInner) (buf : Bytes) :
    (UInt32.ofNat (s.writeSize buf)).toNat = s.writeSize buf := by
  have hmax := s.config.maxFrameSize.toNat_lt
  apply UInt32.toNat_ofNat_of_lt'
  unfold writeSize
  simp only [UInt32.size]
  omega

/-- Taking credit and granting it back restores the window. -/
private theorem take_grant (w : SendWindow) (n : UInt32)
    (h : n.toNat ≤ w.available.toNat) :
    ({ w with available := w.available - n } : SendWindow).grant n = w := by
  obtain ⟨available, closed⟩ := w
  have hlt := available.toNat_lt
  simp only at h
  have hsub : (available - n).toNat = available.toNat - n.toNat :=
    UInt32.toNat_sub_of_le _ _ (UInt32.le_iff_toNat_le.mpr h)
  unfold SendWindow.grant
  split
  · rename_i hn
    subst hn
    simp
  · simp only [SendWindow.mk.injEq, and_true]
    rw [← UInt32.toNat_inj, Lib.Word.toNat_saturatingAdd, hsub]
    omega

/-- **What a write does.**  Six ways to end without a frame, and otherwise
one `Data` frame with the first `writeSize` bytes, paid for with as much
credit.  When the outbound queue is gone the credit is refunded. -/
theorem pollWrite_eq (s : StreamInner) (outOpen : Bool) (buf : Bytes) :
    s.pollWrite outOpen buf =
      if s.state.reset then (.ready (.error resetError), s, .none)
      else if !s.state.writeOpen then
        (.ready (.error ⟨.brokenPipe, "write half closed"⟩), s, .none)
      else if buf.isEmpty then (.ready (.ok 0), s, .none)
      else if s.sendWindow.closed then
        (.ready (.error ⟨.brokenPipe, "send window closed"⟩), s, .none)
      else if s.sendWindow.available = 0 then (.pending, s, .none)
      else if !outOpen then
        (.ready (.error ⟨.brokenPipe, "session is shutting down"⟩),
          { s with state := s.state.closeWrite.2 }, .none)
      else
        (.ready (.ok (s.writeSize buf)),
          { s with sendWindow :=
            { s.sendWindow with
              available := s.sendWindow.available -
                UInt32.ofNat (s.writeSize buf) } },
          ⟨[.data s.id Flags.empty (buf.take (s.writeSize buf))], []⟩) := by
  have hsize := toNat_writeSize s buf
  have hle : (UInt32.ofNat (s.writeSize buf)).toNat ≤
      s.sendWindow.available.toNat := by
    rw [hsize]
    exact Nat.min_le_right _ _
  have hgrant := take_grant s.sendWindow _ hle
  unfold pollWrite
  simp only [SendWindow.pollAcquire_eq, acquired_eq]
  by_cases hreset : s.state.reset = true
  · simp [hreset]
  · by_cases hopen : s.state.writeOpen = true
    · by_cases hbuf : buf.isEmpty = true
      · simp [hreset, hopen, hbuf]
      · by_cases hclosed : s.sendWindow.closed = true
        · simp [hreset, hopen, hbuf, hclosed]
        · by_cases hzero : s.sendWindow.available = 0
          · simp [hreset, hopen, hbuf, hclosed, hzero]
          · cases outOpen with
            | true => simp [hreset, hopen, hbuf, hclosed, hzero, hsize]
            | false =>
                rw [Bool.not_eq_true] at hclosed
                rw [hclosed] at hgrant
                simp [hreset, hopen, hbuf, hclosed, hzero, hgrant]
    · simp [hreset, hopen]

end StreamInner

end NetMux
